import YdeltaCrankers.Interaction.Spec
import Mathlib.Logic.Relation

/-!
# Environments with a state

An environment has a state of its own.  It moves by itself (`Env.tick`), and the replies it can
give to a call, with the state after the reply, depend on its state (`Env.answer`).  A
*timeline* records the events of a run, each with the state in which it was answered; between
two events the environment can tick any number of times.

`Env.Safe` is the rule for proving that a program keeps a promise in an environment: it follows
the text of the program, and `Env.Safe.sound` turns it into a statement about every timeline.
The promise is of assume–guarantee form: as long as the events satisfy `A`, every call satisfies
`G` and every state `J`.
-/

namespace Interaction

/-- An environment of the interface `I` with states `σ`. -/
structure Env (I : Interface) (σ : Type) where
  /-- The environment moves by itself. -/
  tick : σ → σ → Prop
  /-- In the first state, the reply to the call can be this one, leading to the second state. -/
  answer : σ → (c : I.Call) → I.Reply c → σ → Prop

namespace Env

variable {I : Interface} {σ α β : Type} (E : Env I σ)

/-- The environment moves by itself any number of times. -/
def Ticks (s s' : σ) : Prop := Relation.ReflTransGen E.tick s s'

/-- `E` goes from `s` to `s'` answering the events of the timeline, each in the state recorded
with it. -/
def Timeline : σ → List (σ × I.Event) → σ → Prop
  | s, [], s' => E.Ticks s s'
  | s, (s₁, e) :: T, s' => E.Ticks s s₁ ∧ ∃ s₂, E.answer s₁ e.call e.reply s₂ ∧ Timeline s₂ T s'

/-- In `E`, from `s`: as long as the events satisfy `A`, every call of `p` satisfies `G`, every
state satisfies `J`, and on return `Q` holds. -/
def Safe (A : σ → I.Event → Prop) (G : σ → I.Call → Prop) (J : σ → Prop) (Q : α → σ → Prop) :
    Prog I α → σ → Prop
  | .ret a, s => ∀ s', E.Ticks s s' → J s' ∧ Q a s'
  | .call c k, s => ∀ s₁, E.Ticks s s₁ → J s₁ ∧ G s₁ c ∧
      ∀ r s₂, E.answer s₁ c r s₂ → A s₁ ⟨c, r⟩ → Safe A G J Q (k r) s₂

variable {E} {A : σ → I.Event → Prop} {G : σ → I.Call → Prop} {J : σ → Prop}

theorem Ticks.invariant {P : σ → Prop} {s s' : σ} (h : E.Ticks s s') (h₀ : P s)
    (hstep : ∀ s s', P s → E.tick s s' → P s') : P s' := by
  induction h with
  | refl => exact h₀
  | tail _ hst ih => exact hstep _ _ ih hst

/-! ### Timelines -/

theorem Timeline.ticks_left {s s₁ s' : σ} {T : List (σ × I.Event)} (hs : E.Ticks s s₁)
    (h : E.Timeline s₁ T s') : E.Timeline s T s' := by
  cases T with
  | nil => exact hs.trans h
  | cons x T => exact ⟨hs.trans h.1, h.2⟩

theorem timeline_append {s s' : σ} {T T' : List (σ × I.Event)} :
    E.Timeline s (T ++ T') s' ↔ ∃ s₁, E.Timeline s T s₁ ∧ E.Timeline s₁ T' s' := by
  induction T generalizing s with
  | nil => exact ⟨fun h => ⟨s, .refl, h⟩, fun ⟨_, hs, h⟩ => h.ticks_left hs⟩
  | cons x T ih =>
    constructor
    · rintro ⟨hs, s₂, ha, h⟩
      obtain ⟨s₁, h₁, h'⟩ := ih.1 h
      exact ⟨s₁, ⟨hs, s₂, ha, h₁⟩, h'⟩
    · rintro ⟨s₁, ⟨hs, s₂, ha, h₁⟩, h'⟩
      exact ⟨hs, s₂, ha, ih.2 ⟨s₁, h₁, h'⟩⟩

theorem Timeline.ticks_right {s s₁ s' : σ} {T : List (σ × I.Event)} (h : E.Timeline s T s₁)
    (hs : E.Ticks s₁ s') : E.Timeline s T s' := by
  rw [← List.append_nil T]
  exact timeline_append.2 ⟨s₁, h, hs⟩

/-- A timeline up to one of its events. -/
theorem Timeline.take {s s' : σ} {T : List (σ × I.Event)} (h : E.Timeline s T s') {n : ℕ}
    {x : σ × I.Event} (hx : T[n]? = some x) : E.Timeline s (T.take n) x.1 := by
  obtain ⟨hn, rfl⟩ := List.getElem?_eq_some_iff.1 hx
  rw [← List.take_append_drop n T, List.drop_eq_getElem_cons hn] at h
  obtain ⟨s₁, h₁, hs, -⟩ := timeline_append.1 h
  exact h₁.ticks_right hs

/-- What ticks and replies preserve holds to the end of a timeline. -/
theorem Timeline.invariant {P : σ → Prop} {s s' : σ} {T : List (σ × I.Event)}
    (h : E.Timeline s T s') (h₀ : P s) (htick : ∀ s s', P s → E.tick s s' → P s')
    (hanswer : ∀ s e s', P s → E.answer s e.call e.reply s' → (s, e) ∈ T → P s') : P s' := by
  induction T generalizing s with
  | nil => exact Ticks.invariant h h₀ htick
  | cons x T ih =>
    obtain ⟨hs, s₂, ha, h⟩ := h
    have h₁ := hs.invariant h₀ htick
    refine ih h (hanswer x.1 x.2 s₂ h₁ ha List.mem_cons_self) fun s e s' hP ha he => ?_
    exact hanswer s e s' hP ha (List.mem_cons_of_mem _ he)

/-- What ticks and replies preserve holds at every event of a timeline. -/
theorem Timeline.invariant_mem {P : σ → Prop} {s s' : σ} {T : List (σ × I.Event)}
    (h : E.Timeline s T s') (h₀ : P s) (htick : ∀ s s', P s → E.tick s s' → P s')
    (hanswer : ∀ s e s', P s → E.answer s e.call e.reply s' → (s, e) ∈ T → P s') :
    ∀ x ∈ T, P x.1 := by
  induction T generalizing s with
  | nil => exact List.forall_mem_nil _
  | cons x T ih =>
    obtain ⟨hs, s₂, ha, h⟩ := h
    have h₁ := hs.invariant h₀ htick
    refine List.forall_mem_cons.2 ⟨h₁, ih h (hanswer x.1 x.2 s₂ h₁ ha List.mem_cons_self) ?_⟩
    exact fun s e s' hP ha he => hanswer s e s' hP ha (List.mem_cons_of_mem _ he)

/-- **Once an event, then `P` from then on**, if the event establishes `P` and ticks and the replies
after it preserve it. -/
theorem Timeline.since {P : σ → Prop} {s s' : σ} {T T₁ T₂ : List (σ × I.Event)} {x : σ × I.Event}
    (h : E.Timeline s T s') (hT : T = T₁ ++ x :: T₂)
    (hx : ∀ s₂, E.answer x.1 x.2.call x.2.reply s₂ → P s₂)
    (htick : ∀ s s', P s → E.tick s s' → P s')
    (hanswer : ∀ s e s', P s → E.answer s e.call e.reply s' → (s, e) ∈ T₂ → P s') :
    (∀ y ∈ T₂, P y.1) ∧ P s' := by
  subst hT
  obtain ⟨s₁, -, -, s₂, ha, h₂⟩ := timeline_append.1 h
  have h₀ := hx s₂ ha
  exact ⟨h₂.invariant_mem h₀ htick hanswer, h₂.invariant h₀ htick hanswer⟩

/-- Every event of a timeline is an answer. -/
theorem Timeline.answered {s s' : σ} {T : List (σ × I.Event)} (h : E.Timeline s T s')
    {x : σ × I.Event} (hx : x ∈ T) : ∃ s₂, E.answer x.1 x.2.call x.2.reply s₂ := by
  obtain ⟨T₁, T₂, rfl⟩ := List.append_of_mem hx
  obtain ⟨s₁, -, -, s₂, ha, -⟩ := timeline_append.1 h
  exact ⟨s₂, ha⟩

/-- If an event of the timeline satisfies `P`, there is a last one that does. -/
theorem exists_last {P : I.Event → Prop} {T : List (σ × I.Event)} (h : ∃ x ∈ T, P x.2) :
    ∃ T₁ x T₂, T = T₁ ++ x :: T₂ ∧ P x.2 ∧ ∀ y ∈ T₂, ¬ P y.2 := by
  induction T with
  | nil => simp at h
  | cons y T ih =>
    by_cases hT : ∃ x ∈ T, P x.2
    · obtain ⟨T₁, x, T₂, rfl, hx, hT₂⟩ := ih hT
      exact ⟨y :: T₁, x, T₂, rfl, hx, hT₂⟩
    · obtain ⟨x, hmem, hx⟩ := h
      have hy : P y.2 := by
        rcases List.mem_cons.1 hmem with rfl | hmem
        · exact hx
        · exact absurd ⟨x, hmem, hx⟩ hT
      exact ⟨[], y, T, rfl, hy, fun z hz hPz => hT ⟨z, hz, hPz⟩⟩

/-! ### Computed timelines -/

section Exec

variable (reply : σ → (c : I.Call) → I.Reply c) (next : σ → (c : I.Call) → I.Reply c → σ)

/-- The run of a program in which the state answers every call: its timeline, what it returns and
the last state. -/
def exec : Prog I α → σ → List (σ × I.Event) × α × σ
  | .ret a, s => ([], a, s)
  | .call c k, s =>
    let r := reply s c
    let out := exec (k r) (next s c r)
    ((s, ⟨c, r⟩) :: out.1, out.2)

variable {reply next}

theorem runs_exec (p : Prog I α) (s : σ) :
    p.Runs ((exec reply next p s).1.map Prod.snd) (exec reply next p s).2.1 := by
  induction p generalizing s with
  | ret a => exact ⟨rfl, rfl⟩
  | call c k ih => exact ⟨reply s c, _, rfl, ih _ _⟩

theorem mem_exec {p : Prog I α} {s : σ} {x : σ × I.Event} (h : x ∈ (exec reply next p s).1) :
    x.2.reply = reply x.1 x.2.call := by
  induction p generalizing s with
  | ret a => exact absurd h List.not_mem_nil
  | call c k ih =>
    rcases List.mem_cons.1 h with rfl | h
    · rfl
    · exact ih _ h

theorem timeline_exec (h : ∀ s c, E.answer s c (reply s c) (next s c (reply s c)))
    (p : Prog I α) (s : σ) :
    E.Timeline s (exec reply next p s).1 (exec reply next p s).2.2 := by
  induction p generalizing s with
  | ret a => exact .refl
  | call c k ih => exact ⟨.refl, _, h s c, ih _ _⟩

end Exec

/-! ### Assume–guarantee reasoning -/

theorem Safe.mono {Q R : α → σ → Prop} {p : Prog I α} {s : σ} (h : E.Safe A G J Q p s)
    (hQ : ∀ a s, Q a s → R a s) : E.Safe A G J R p s := by
  induction p generalizing s with
  | ret a => exact fun s' hs => ⟨(h s' hs).1, hQ a s' (h s' hs).2⟩
  | call c k ih =>
    intro s₁ hs
    obtain ⟨hJ, hG, hk⟩ := h s₁ hs
    exact ⟨hJ, hG, fun r s₂ ha hA => ih r (hk r s₂ ha hA)⟩

theorem Safe.bind {Q : β → σ → Prop} {p : Prog I α} {f : α → Prog I β} {s : σ}
    (h : E.Safe A G J (fun a s' => E.Safe A G J Q (f a) s') p s) :
    E.Safe A G J Q (p >>= f) s := by
  induction p generalizing s with
  | ret a => exact (h s .refl).2
  | call c k ih =>
    intro s₁ hs
    obtain ⟨hJ, hG, hk⟩ := h s₁ hs
    exact ⟨hJ, hG, fun r s₂ ha hA => ih r (hk r s₂ ha hA)⟩

/-- The rule for the call of a program that can fail. -/
theorem safe_ask_bind {ε : Type} {Q : Except ε β → σ → Prop} {c : I.Call}
    {conv : I.Reply c → Except ε α} {f : α → Fallible I ε β} {s : σ}
    (h : ∀ s₁, E.Ticks s s₁ → J s₁ ∧ G s₁ c ∧ ∀ r s₂, E.answer s₁ c r s₂ → A s₁ ⟨c, r⟩ →
      match conv r with
      | .ok a => E.Safe A G J Q (f a).run s₂
      | .error e => E.Safe A G J Q (.ret (.error e)) s₂) :
    E.Safe A G J Q (Fallible.ask c conv >>= f).run s := by
  intro s₁ hs
  obtain ⟨hJ, hG, hk⟩ := h s₁ hs
  refine ⟨hJ, hG, fun r s₂ ha hA => ?_⟩
  have hk := hk r s₂ ha hA
  change E.Safe A G J Q (ExceptT.bindCont f (conv r)) s₂
  cases hr : conv r with
  | error e => rw [hr] at hk; exact hk
  | ok a => rw [hr] at hk; exact hk

/-- The rule for going on after a program that can fail. -/
theorem Safe.bindFallible {ε : Type} {Q : Except ε β → σ → Prop} {x : Fallible I ε α}
    {f : α → Fallible I ε β} {s : σ}
    (h : E.Safe A G J (fun r s' => match r with
      | .ok a => E.Safe A G J Q (f a).run s'
      | .error e => E.Safe A G J Q (.ret (.error e)) s') x.run s) :
    E.Safe A G J Q (x >>= f).run s := by
  refine Safe.bind (h.mono fun r s' hr => ?_)
  cases r with
  | ok a => exact hr
  | error e => exact hr

/-- What `Safe` promises holds of every timeline of the program, finished or not. -/
theorem Safe.sound {Q : α → σ → Prop} {p p' : Prog I α} {s s' : σ} {T : List (σ × I.Event)}
    (h : E.Safe A G J Q p s) (hT : E.Timeline s T s') (hr : p.Reaches (T.map Prod.snd) p')
    (hA : ∀ x ∈ T, A x.1 x.2) :
    J s' ∧ (∀ x ∈ T, J x.1 ∧ G x.1 x.2.call) ∧ ∀ a, p' = .ret a → Q a s' := by
  induction p generalizing s T with
  | ret b =>
    cases T with
    | nil =>
      cases hr
      refine ⟨(h s' hT).1, by simp, fun a ha => ?_⟩
      cases ha
      exact (h s' hT).2
    | cons x T => exact hr.elim
  | call c k ih =>
    cases T with
    | nil =>
      cases hr
      exact ⟨(h s' hT).1, by simp, fun a ha => nomatch ha⟩
    | cons x T =>
      obtain ⟨s₁, e⟩ := x
      obtain ⟨hs, s₂, ha, hT⟩ := hT
      obtain ⟨r, he, hr⟩ := hr
      cases he
      obtain ⟨hJ, hG, hk⟩ := h s₁ hs
      have hA₁ : A s₁ ⟨c, r⟩ := hA _ List.mem_cons_self
      obtain ⟨hJ', hT', hQ⟩ := ih r (hk r s₂ ha hA₁) hT hr
        fun x hx => hA x (List.mem_cons_of_mem _ hx)
      refine ⟨hJ', fun x hx => ?_, hQ⟩
      rcases List.mem_cons.1 hx with rfl | hx
      · exact ⟨hJ, hG⟩
      · exact hT' x hx

end Env

end Interaction
