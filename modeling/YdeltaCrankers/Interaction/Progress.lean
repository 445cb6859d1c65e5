import YdeltaCrankers.Interaction.Spec

/-!
# What a program is certain to do

Two properties of programs under an assumption on the events of the run: `Fallible.Gives` says
that the program succeeds with a result of a kind, `Fallible.Does` that an event of a kind happens.
A program does what its first part does, and what its second part does if the first part gives
what the second one needs.

`Fallible.FailsBy` says which events make a program fail: it succeeds exactly when none of them
happens.
-/

namespace Interaction

namespace Fallible

variable {I : Interface} {ε ε' α β : Type} {A : I.Event → Prop}

/-- As long as the events satisfy `A`, `x` returns a result that satisfies `P`. -/
def Gives (A : I.Event → Prop) (P : α → Prop) (x : Fallible I ε α) : Prop :=
  x.Spec fun t r => (∀ e ∈ t, A e) → ∃ a, r = .ok a ∧ P a

/-- As long as the events satisfy `A`, one of them satisfies `B`. -/
def Does (A B : I.Event → Prop) (x : Fallible I ε α) : Prop :=
  x.Spec fun t _ => (∀ e ∈ t, A e) → ∃ e ∈ t, B e

variable {B : I.Event → Prop} {P : α → Prop} {Q : β → Prop} {x : Fallible I ε α}
  {f : α → Fallible I ε β}

theorem Gives.mono {A' : I.Event → Prop} (h : x.Gives A P) (hA : ∀ e, A' e → A e) :
    x.Gives A' P :=
  Spec.mono h fun _ _ ht hA' => ht fun e he => hA e (hA' e he)

theorem Gives.bind (h : x.Gives A P) (hf : ∀ a, P a → (f a).Gives A Q) :
    (x >>= f).Gives A Q := by
  refine spec_bind h (fun t e ht hA => ?_) fun t a ht => ?_
  · obtain ⟨a, ha, -⟩ := ht hA
    cases ha
  · intro t' r hr hA
    obtain ⟨b, hb, hP⟩ := ht fun e he => hA e (List.mem_append_left t' he)
    cases hb
    exact hf a hP t' r hr fun e he => hA e (List.mem_append_right t he)

/-- What the first part does is done. -/
theorem Does.bind (h : x.Does A B) : (x >>= f).Does A B := by
  refine spec_bind h (fun _ _ ht => ht) fun t a ht t' r _ hA => ?_
  obtain ⟨e, he, hB⟩ := ht fun e he => hA e (List.mem_append_left t' he)
  exact ⟨e, List.mem_append_left t' he, hB⟩

theorem Does.attempt {recover : ε → Option ε'} (h : x.Does A B) : (x.attempt recover).Does A B :=
  spec_attempt h (fun _ _ ht => ht) (fun _ _ _ ht _ => ht) fun _ _ ht _ => ht

/-! ### Programs that fail by certain events -/

/-- `x` fails exactly when one of its events satisfies `F`. -/
def FailsBy (F : I.Event → Prop) (x : Fallible I ε α) : Prop :=
  x.Spec fun t r => (∃ a, r = .ok a) ↔ ∀ e ∈ t, ¬ F e

variable {F : I.Event → Prop}

theorem failsBy_pure (a : α) : (pure a : Fallible I ε α).FailsBy F :=
  spec_pure ⟨fun _ => List.forall_mem_nil _, fun _ => ⟨a, rfl⟩⟩

theorem failsBy_ask {c : I.Call} {conv : I.Reply c → Except ε α}
    (h : ∀ r, (∃ a, conv r = .ok a) ↔ ¬ F ⟨c, r⟩) : (ask c conv).FailsBy F :=
  spec_ask fun r => (h r).trans (@List.forall_mem_singleton _ (fun e => ¬ F e) _).symm

/-- A program that cannot fail, of calls that fail nothing. -/
theorem failsBy_of_makes {G : I.Call → Prop} (hmakes : x.Makes G)
    (hx : x.FailsOnly A fun _ => False) (hA : ∀ e, G e.call → A e) (hF : ∀ e, G e.call → ¬ F e) :
    x.FailsBy F := by
  intro t r hr
  have hG := hmakes t r hr
  refine ⟨fun _ e he => hF e (hG e he), fun _ => ?_⟩
  cases r with
  | ok a => exact ⟨a, rfl⟩
  | error err => exact (hx t _ hr (fun e he => hA e (hG e he)) err rfl).elim

theorem FailsBy.bind (h : x.FailsBy F) (hf : ∀ t a, x.run.Runs t (.ok a) → (f a).FailsBy F) :
    (x >>= f).FailsBy F := by
  refine spec_runs_bind (fun t e hr => ?_) fun t a hr => (hf t a hr).mono fun t' r hr' => ?_
  · -- a failure of the first part is the failure of the whole
    have hfail : ¬ ∀ e ∈ t, ¬ F e := fun hnone => by
      obtain ⟨a, ha⟩ := (h t _ hr).2 hnone
      cases ha
    constructor
    · rintro ⟨b, hb⟩
      cases hb
    · exact fun hnone => absurd hnone hfail
  · have hnone : ∀ e ∈ t, ¬ F e := (h t _ hr).1 ⟨a, rfl⟩
    rw [hr', List.forall_mem_append]
    exact ⟨fun h' => ⟨hnone, h'⟩, fun h' => h'.2⟩

end Fallible

end Interaction
