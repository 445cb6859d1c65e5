import YdeltaCrankers.Interaction.Concurrent
import YdeltaCrankers.Interaction.Interp
import YdeltaCrankers.Interaction.Spec

/-!
# Calls that need a permit

`Permitted needs permits t` says that in the trace `t` every call that needs a permit comes after
an event that permits it.  A program is shown to respect this call by call, and the property
survives an implementation of the interface that plays permits and permitted calls out
accordingly (`Implements.permitted`).
-/

namespace Interaction

variable {I J : Interface} {ε α β : Type}

/-- In `t`, every call that needs a permit comes after an event that permits it. -/
def Permitted (needs : I.Call → Prop) (permits : I.Event → I.Call → Prop) (t : I.Trace) : Prop :=
  ∀ t₁ e t₂, t = t₁ ++ e :: t₂ → needs e.call → ∃ e' ∈ t₁, permits e' e.call

namespace Permitted

variable {needs : I.Call → Prop} {permits : I.Event → I.Call → Prop} {t t' : I.Trace}

theorem nil : Permitted needs permits ([] : I.Trace) := by
  intro t₁ e t₂ h
  simp at h

/-- A trace goes on with calls that need no permit or have one already. -/
theorem append (h : Permitted needs permits t)
    (h' : ∀ e ∈ t', needs e.call → ∃ e' ∈ t, permits e' e.call) :
    Permitted needs permits (t ++ t') := by
  intro t₁ e t₂ ht hneeds
  rcases List.append_eq_append_iff.1 ht with ⟨s, rfl, rfl⟩ | ⟨s, rfl, hs⟩
  · obtain ⟨e', he', hpermits⟩ := h' e (List.mem_append_right _ List.mem_cons_self) hneeds
    exact ⟨e', List.mem_append_left _ he', hpermits⟩
  · cases s with
    | nil =>
      cases hs
      obtain ⟨e', he', hpermits⟩ := h' e List.mem_cons_self hneeds
      exact ⟨e', by simpa using he', hpermits⟩
    | cons x s =>
      cases hs
      exact h t₁ e s rfl hneeds

/-- Two traces, each with its own permits. -/
theorem trans (h : Permitted needs permits t) (h' : Permitted needs permits t') :
    Permitted needs permits (t ++ t') := by
  intro t₁ e t₂ ht hneeds
  rcases List.append_eq_append_iff.1 ht with ⟨s, rfl, hs⟩ | ⟨s, rfl, hs⟩
  · obtain ⟨e', he', hpermits⟩ := h' s e t₂ hs hneeds
    exact ⟨e', List.mem_append_right _ he', hpermits⟩
  · cases s with
    | nil =>
      cases hs
      obtain ⟨e', he', -⟩ := h' [] e t₂ rfl hneeds
      cases he'
    | cons x s =>
      cases hs
      exact h t₁ e s rfl hneeds

/-- Fewer calls that need a permit, and more permits. -/
theorem mono {needs' : I.Call → Prop} {permits' : I.Event → I.Call → Prop}
    (h : Permitted needs permits t) (hneeds : ∀ c, needs' c → needs c)
    (hpermits : ∀ e c, permits e c → permits' e c) : Permitted needs' permits' t := by
  intro t₁ e t₂ ht he
  obtain ⟨e', he', hpermit⟩ := h t₁ e t₂ ht (hneeds e.call he)
  exact ⟨e', he', hpermits e' e.call hpermit⟩

end Permitted

/-! ### What may come next -/

/-- In `t`, every call may be made after the calls and replies before it. -/
def Obeys (may : I.Trace → I.Call → Prop) (t : I.Trace) : Prop :=
  ∀ t₁ e t₂, t = t₁ ++ e :: t₂ → may t₁ e.call

section Obeys

variable {may may' : I.Trace → I.Call → Prop} {t t' : I.Trace}

theorem Obeys.of_append (h : Obeys may (t ++ t')) : Obeys may t := by
  intro t₁ e t₂ ht
  subst ht
  exact h t₁ e (t₂ ++ t') (List.append_assoc _ _ _)

/-- What comes second may rely on what came first. -/
theorem Obeys.append (h : Obeys may t) (h' : Obeys (fun s => may (t ++ s)) t') :
    Obeys may (t ++ t') := by
  intro t₁ e t₂ ht
  rcases List.append_eq_append_iff.1 ht with ⟨s, rfl, hs⟩ | ⟨s, rfl, hs⟩
  · exact h' s e t₂ hs
  · cases s with
    | nil =>
      cases hs
      simpa using h' [] e t₂ rfl
    | cons x s =>
      cases hs
      exact h t₁ e s rfl

theorem obeys_nil : Obeys may [] := fun t₁ e t₂ h => by simp at h

theorem obeys_cons {e : I.Event} :
    Obeys may (e :: t) ↔ may [] e.call ∧ Obeys (fun s => may (e :: s)) t := by
  constructor
  · intro h
    exact ⟨h [] e t rfl, fun t₁ e' t₂ ht => h (e :: t₁) e' t₂ (by rw [ht, List.cons_append])⟩
  · rintro ⟨he, h⟩ t₁ e' t₂ ht
    cases t₁ with
    | nil =>
      cases ht
      exact he
    | cons e₁ t₁ =>
      cases ht
      exact h t₁ e' t₂ rfl

theorem obeys_of_forall_mem (h : ∀ e ∈ t, ∀ s, may s e.call) : Obeys may t := by
  rintro t₁ e t₂ rfl
  exact h e (List.mem_append_right _ List.mem_cons_self) t₁

theorem Obeys.mono (h : Obeys may t) (hmay : ∀ s c, may s c → may' s c) : Obeys may' t :=
  fun t₁ e t₂ ht => hmay _ _ (h t₁ e t₂ ht)

end Obeys

/-! ### Programs -/

/-- After the calls and replies `t`, the calls of `x` come with their permits. -/
def Fallible.Respects (needs : I.Call → Prop) (permits : I.Event → I.Call → Prop) (t : I.Trace)
    (x : Fallible I ε α) : Prop :=
  x.Spec fun t' _ => Permitted needs permits (t ++ t')

namespace Fallible

variable {needs : I.Call → Prop} {permits : I.Event → I.Call → Prop} {t : I.Trace}
  {x : Fallible I ε α}

theorem respects_pure {a : α} (h : Permitted needs permits t) :
    (pure a : Fallible I ε α).Respects needs permits t :=
  spec_pure (by rwa [List.append_nil])

/-- A part of a program whose calls need no permit, or have one already. -/
theorem respects_bind {f : α → Fallible I ε β} (h : Permitted needs permits t)
    (hx : x.Makes fun c => needs c → ∃ e ∈ t, permits e c)
    (hf : ∀ t' a, x.run.Runs t' (.ok a) → (f a).Respects needs permits (t ++ t')) :
    (x >>= f).Respects needs permits t := by
  have hruns : x.Spec fun t' r => x.run.Runs t' r ∧ Permitted needs permits (t ++ t') :=
    fun t' r hr => ⟨hr, h.append (hx t' r hr)⟩
  refine spec_bind hruns (fun _ _ h => h.2) fun t' a h' => (hf t' a h'.1).mono fun t'' r h => ?_
  rwa [← List.append_assoc]

/-- The parts of a program, each with its own permits. -/
theorem spec_permitted_bind {f : α → Fallible I ε β}
    (h : x.Spec fun t _ => Permitted needs permits t)
    (hf : ∀ a, (f a).Spec fun t _ => Permitted needs permits t) :
    (x >>= f).Spec fun t _ => Permitted needs permits t :=
  spec_bind h (fun _ _ h => h) fun _ a h => (hf a).mono fun _ _ h' => h.trans h'

/-- A program whose calls need no permit. -/
theorem spec_permitted_of_makes (h : x.Makes fun c => ¬ needs c) :
    x.Spec fun t _ => Permitted needs permits t :=
  Spec.mono h fun _ _ ht => by
    have hnil : Permitted needs permits ([] : I.Trace) := .nil
    exact hnil.append fun e he hneeds => absurd hneeds (ht e he)

/-- What a program does second may rely on what it did first. -/
theorem spec_obeys_bind {may : I.Trace → I.Call → Prop} {f : α → Fallible I ε β}
    (h : x.Spec fun t _ => Obeys may t)
    (hf : ∀ t a, x.run.Runs t (.ok a) → (f a).Spec fun t' _ => Obeys (fun s => may (t ++ s)) t') :
    (x >>= f).Spec fun t _ => Obeys may t :=
  spec_runs_bind (fun t e ht => h t (.error e) ht) fun t a ht =>
    (hf t a ht).mono fun _ _ ht' => (h t (.ok a) ht).append ht'

end Fallible

/-! ### Implementations -/

/-- An implementation that plays permits and permitted calls out as the new permits ask. -/
theorem Implements.permitted {f : ∀ c, Prog J (I.Reply c)} {needs : I.Call → Prop}
    {permits : I.Event → I.Call → Prop} {needs' : J.Call → Prop}
    {permits' : J.Event → J.Call → Prop} {u : I.Trace} {t : J.Trace} (himp : Implements f u t)
    (h : Permitted needs permits u)
    (hidle : ∀ c, ¬ needs c → ∀ s r, (f c).Runs s r → ∀ x ∈ s, ¬ needs' x.call)
    (hpermits : ∀ e c, permits e c → ∀ s, (f e.call).Runs s e.reply → ∀ s' r, (f c).Runs s' r →
      ∀ x ∈ s', needs' x.call → ∃ x' ∈ s, permits' x' x.call) :
    Permitted needs' permits' t := by
  intro t₁ x t₂ ht hx
  obtain ⟨u₁, e, u₂, t₀, s₁, s₂, rfl, himp₁, rfl, hrun⟩ := himp.exists_of_append_cons ht
  have hmem : x ∈ s₁ ++ x :: s₂ := List.mem_append_right _ List.mem_cons_self
  by_cases hneeds : needs e.call
  · obtain ⟨e', he', hpermit⟩ := h u₁ e u₂ rfl hneeds
    obtain ⟨s, hs, hsub⟩ := himp₁.exists_of_mem he'
    obtain ⟨x', hx', hpermit'⟩ := hpermits e' e.call hpermit s hs _ _ hrun x hmem hx
    exact ⟨x', List.mem_append_left _ (hsub hx'), hpermit'⟩
  · exact absurd hx (hidle e.call hneeds _ _ hrun x hmem)

end Interaction
