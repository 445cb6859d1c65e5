import YdeltaCrankers.Interaction.Env
import Mathlib.Logic.Function.Basic

/-!
# Programs that run side by side

Several programs share one environment.  They take turns in any order, one call at a time, and
`Env.Interleaving` records who made which call.

To reason about them, each program is proved `Env.Safe` on its own, in an *abstract* environment
that says what the others may do (its ticks) and what its own calls tell it (its answers).
`Env.Abstracts` relates the abstract environment to the shared one: as long as every call keeps
its promise `G`, the shared environment answers as the abstract one says, and whatever one
program does looks to the others like ticks.  `Env.Abstracts.sound` puts the programs together.
-/

namespace Interaction

namespace Env

variable {I : Interface} {σ τ ι α : Type}

/-- The same answers, but between them the environment moves as `R` says. -/
def rely (E : Env I σ) (R : σ → σ → Prop) : Env I σ := ⟨R, E.answer⟩

section Interleaving

variable [DecidableEq ι] (E : Env I σ)

/-- From the state `s`, with `ps i` left of program `i`, the events of `T` lead to the state `s'`
with `ps' i` left; each event comes with its program and the state in which it was answered. -/
def Interleaving :
    (ι → Prog I α) → σ → List (ι × σ × I.Event) → (ι → Prog I α) → σ → Prop
  | ps, s, [], ps', s' => ps' = ps ∧ E.Ticks s s'
  | ps, s, (i, s₁, e) :: T, ps', s' => E.Ticks s s₁ ∧ ∃ k, ps i = .call e.call k ∧
      ∃ s₂, E.answer s₁ e.call e.reply s₂ ∧
        Interleaving (Function.update ps i (k e.reply)) s₂ T ps' s'

variable {E} {ps ps' : ι → Prog I α} {s s' : σ} {T : List (ι × σ × I.Event)}

/-- Seen from the environment, an interleaving is a timeline. -/
theorem Interleaving.timeline (h : E.Interleaving ps s T ps' s') :
    E.Timeline s (T.map Prod.snd) s' := by
  induction T generalizing ps s with
  | nil => exact h.2
  | cons x T ih =>
    obtain ⟨hs, k, -, s₂, ha, h⟩ := h
    exact ⟨hs, s₂, ha, ih h⟩

/-- The events of program `i`. -/
def eventsOf (i : ι) (T : List (ι × σ × I.Event)) : I.Trace :=
  T.filterMap fun x => if x.1 = i then some x.2.2 else none

theorem mem_eventsOf {i : ι} {e : I.Event} : e ∈ eventsOf i T ↔ ∃ s, (i, s, e) ∈ T := by
  constructor
  · intro h
    obtain ⟨⟨j, s, e'⟩, hx, he⟩ := List.mem_filterMap.1 h
    by_cases hj : j = i
    · subst hj
      rw [if_pos rfl, Option.some.injEq] at he
      exact ⟨s, he ▸ hx⟩
    · rw [if_neg hj] at he
      cases he
  · rintro ⟨s, hx⟩
    exact List.mem_filterMap.2 ⟨_, hx, if_pos rfl⟩

theorem eventsOf_append (i : ι) (T T' : List (ι × σ × I.Event)) :
    eventsOf i (T ++ T') = eventsOf i T ++ eventsOf i T' :=
  List.filterMap_append

theorem eventsOf_cons_self (i : ι) (s : σ) (e : I.Event) (T : List (ι × σ × I.Event)) :
    eventsOf i ((i, s, e) :: T) = e :: eventsOf i T := by
  simp [eventsOf]

theorem eventsOf_cons_of_ne {i j : ι} (h : j ≠ i) (s : σ) (e : I.Event)
    (T : List (ι × σ × I.Event)) : eventsOf i ((j, s, e) :: T) = eventsOf i T := by
  simp [eventsOf, h]

/-- An event of program `i` splits the events of all programs where it splits those of `i`. -/
theorem eventsOf_eq_append_cons {i : ι} {e : I.Event} {t t' : I.Trace}
    (h : eventsOf i T = t ++ e :: t') :
    ∃ T₁ s T₂, T = T₁ ++ (i, s, e) :: T₂ ∧ eventsOf i T₁ = t := by
  obtain ⟨A, B, rfl, hA, hB⟩ := List.filterMap_eq_append_iff.1 h
  obtain ⟨C, ⟨j, s, e'⟩, D, rfl, hC, he, -⟩ := List.filterMap_eq_cons_iff.1 hB
  by_cases hj : j = i
  · subst hj
    rw [if_pos rfl, Option.some.injEq] at he
    subst he
    refine ⟨A ++ C, s, D, (List.append_assoc A C _).symm, ?_⟩
    have hnone : eventsOf j C = [] := List.filterMap_eq_nil_iff.2 hC
    rw [eventsOf_append, hnone, List.append_nil]
    exact hA
  · rw [if_neg hj] at he
    cases he

/-- The events of program `i`, each with its state. -/
def stepsOf (i : ι) (T : List (ι × σ × I.Event)) : List (σ × I.Event) :=
  T.filterMap fun x => if x.1 = i then some x.2 else none

theorem map_stepsOf (i : ι) (T : List (ι × σ × I.Event)) :
    (stepsOf i T).map Prod.snd = eventsOf i T := by
  unfold stepsOf eventsOf
  rw [List.map_filterMap]
  congr
  funext x
  by_cases hx : x.1 = i
  · simp [hx]
  · simp [hx]

theorem mem_of_mem_stepsOf {i : ι} {x : σ × I.Event} (h : x ∈ stepsOf i T) : (i, x) ∈ T := by
  obtain ⟨⟨j, y⟩, hy, hx⟩ := List.mem_filterMap.1 h
  by_cases hj : j = i
  · subst hj
    rw [if_pos rfl, Option.some.injEq] at hx
    exact hx ▸ hy
  · rw [if_neg hj] at hx
    cases hx

/-- **Each program runs its own text**: its events are a run of it, as far as it has got. -/
theorem Interleaving.reaches (h : E.Interleaving ps s T ps' s') (i : ι) :
    (ps i).Reaches (eventsOf i T) (ps' i) := by
  induction T generalizing ps s with
  | nil =>
    obtain ⟨rfl, -⟩ := h
    cases hp : ps' i <;> rfl
  | cons x T ih =>
    obtain ⟨j, s₁, e⟩ := x
    obtain ⟨-, k, hk, s₂, -, h⟩ := h
    have hrest := ih h
    by_cases hij : j = i
    · subst hij
      rw [Function.update_self] at hrest
      rw [eventsOf_cons_self, hk]
      exact ⟨e.reply, rfl, hrest⟩
    · rw [Function.update_of_ne (Ne.symm hij)] at hrest
      rwa [eventsOf_cons_of_ne hij]

/-- An interleaving up to one of its events, and the answer that event is. -/
theorem Interleaving.until {T₁ T₂ : List (ι × σ × I.Event)} {i : ι} {s₁ : σ} {e : I.Event}
    (h : E.Interleaving ps s (T₁ ++ (i, s₁, e) :: T₂) ps' s') :
    ∃ ps₁, E.Interleaving ps s T₁ ps₁ s₁ ∧ ∃ s₂, E.answer s₁ e.call e.reply s₂ := by
  induction T₁ generalizing ps s with
  | nil =>
    obtain ⟨hs, k, -, s₂, ha, -⟩ := h
    exact ⟨ps, ⟨rfl, hs⟩, s₂, ha⟩
  | cons x T₁ ih =>
    obtain ⟨hs, k, hk, s₂, ha, h⟩ := h
    obtain ⟨ps₁, h₁, hanswer⟩ := ih h
    exact ⟨ps₁, ⟨hs, k, hk, s₂, ha, h₁⟩, hanswer⟩

/-- While only program `i` makes calls, the interleaving is a timeline of `i`. -/
theorem interleaving_of_timeline (i : ι) {p' : Prog I α} {T : List (σ × I.Event)}
    (hT : E.Timeline s T s') (hr : (ps i).Reaches (T.map Prod.snd) p') :
    E.Interleaving ps s (T.map fun x => (i, x)) (Function.update ps i p') s' := by
  induction T generalizing ps s with
  | nil =>
    have hp : p' = ps i := by cases hps : ps i <;> rw [hps] at hr <;> exact hr
    rw [hp, Function.update_eq_self]
    exact ⟨rfl, hT⟩
  | cons x T ih =>
    obtain ⟨s₁, e⟩ := x
    obtain ⟨hs, s₂, ha, hT⟩ := hT
    cases hps : ps i with
    | ret a => rw [hps] at hr; exact hr.elim
    | call c k =>
      rw [hps] at hr
      obtain ⟨r, he, hr⟩ := hr
      cases he
      refine ⟨hs, k, hps, s₂, ha, ?_⟩
      have hrest : E.Interleaving (Function.update ps i (k r)) s₂ _ _ s' :=
        ih hT (by rwa [Function.update_self])
      rwa [Function.update_idem] at hrest

/-! ### Computed interleavings -/

section Scheduled

variable (reply : σ → (c : I.Call) → I.Reply c) (next : σ → (c : I.Call) → I.Reply c → σ)

/-- The run in which the programs make one call each in the order of the schedule, and the state
answers: its events, what is left of the programs and the last state. -/
def scheduled : List ι → (ι → Prog I α) → σ →
    List (ι × σ × I.Event) × (ι → Prog I α) × σ
  | [], ps, s => ([], ps, s)
  | i :: is, ps, s => match ps i with
    | .ret _ => scheduled is ps s
    | .call c k =>
      let r := reply s c
      let out := scheduled is (Function.update ps i (k r)) (next s c r)
      ((i, s, ⟨c, r⟩) :: out.1, out.2)

variable {reply next}

theorem interleaving_scheduled (h : ∀ s c, E.answer s c (reply s c) (next s c (reply s c)))
    (schedule : List ι) (ps : ι → Prog I α) (s : σ) :
    E.Interleaving ps s (scheduled reply next schedule ps s).1
      (scheduled reply next schedule ps s).2.1 (scheduled reply next schedule ps s).2.2 := by
  induction schedule generalizing ps s with
  | nil => exact ⟨rfl, .refl⟩
  | cons i is ih =>
    unfold scheduled
    cases hp : ps i with
    | ret a => exact ih ps s
    | call c k => exact ⟨.refl, k, hp, _, h s c, ih _ _⟩

end Scheduled

end Interleaving

/-! ### Safety under interference -/

section Safe

variable {E : Env I σ} {A : σ → I.Event → Prop} {G : σ → I.Call → Prop} {J : σ → Prop}
  {Q : α → σ → Prop} {p : Prog I α} {s s' : σ}

theorem Safe.ticks (h : E.Safe A G J Q p s) (hs : E.Ticks s s') : E.Safe A G J Q p s' := by
  cases p with
  | ret a => exact fun s'' hs' => h s'' (hs.trans hs')
  | call c k => exact fun s₁ hs' => h s₁ (hs.trans hs')

end Safe

/-- `E'` says of `E` what a program that keeps the promise `G` can rely on. -/
structure Abstracts (E' : Env I τ) (E : Env I σ) (abs : σ → τ) (Inv : σ → Prop)
    (G : τ → I.Call → Prop) : Prop where
  /-- The shared environment moves as the abstract one says. -/
  tick : ∀ {s s'}, Inv s → E.tick s s' → Inv s' ∧ E'.Ticks (abs s) (abs s')
  /-- It answers as the abstract one says, and to the others an answer looks like ticks. -/
  answer : ∀ {s c r s'}, Inv s → G (abs s) c → E.answer s c r s' →
    Inv s' ∧ E'.answer (abs s) c r (abs s') ∧ E'.Ticks (abs s) (abs s')

namespace Abstracts

variable {E' : Env I τ} {E : Env I σ} {abs : σ → τ} {Inv : σ → Prop} {G : τ → I.Call → Prop}
  {J : τ → Prop} {Q : α → τ → Prop} {s s' : σ}

theorem ticks (h : Abstracts E' E abs Inv G) (hI : Inv s) (hs : E.Ticks s s') :
    Inv s' ∧ E'.Ticks (abs s) (abs s') := by
  induction hs with
  | refl => exact ⟨hI, .refl⟩
  | tail _ ht ih =>
    obtain ⟨hI', ht'⟩ := h.tick ih.1 ht
    exact ⟨hI', ih.2.trans ht'⟩

/-- **Programs that are safe in the abstract environment are safe side by side.** -/
theorem sound [DecidableEq ι] (h : Abstracts E' E abs Inv G) {ps ps' : ι → Prog I α}
    {T : List (ι × σ × I.Event)} (hI : Inv s)
    (hps : ∀ i, E'.Safe (fun _ _ => True) G J Q (ps i) (abs s))
    (hT : E.Interleaving ps s T ps' s') :
    Inv s' ∧ ∀ x ∈ T, Inv x.2.1 ∧ G (abs x.2.1) x.2.2.call := by
  induction T generalizing ps s with
  | nil => exact ⟨(h.ticks hI hT.2).1, fun x hx => absurd hx List.not_mem_nil⟩
  | cons x T ih =>
    obtain ⟨i, s₁, e⟩ := x
    obtain ⟨hs, k, hk, s₂, ha, hT⟩ := hT
    obtain ⟨hI₁, hs₁⟩ := h.ticks hI hs
    have hcall := hps i
    rw [hk] at hcall
    obtain ⟨-, hG, hnext⟩ := hcall (abs s₁) hs₁
    obtain ⟨hI₂, ha', hs₂⟩ := h.answer hI₁ hG ha
    have hps' : ∀ j, E'.Safe (fun _ _ => True) G J Q
        (Function.update ps i (k e.reply) j) (abs s₂) := by
      intro j
      by_cases hij : j = i
      · subst hij
        rw [Function.update_self]
        exact hnext e.reply (abs s₂) ha' trivial
      · rw [Function.update_of_ne hij]
        exact (hps j).ticks (hs₁.trans hs₂)
    obtain ⟨hI', hmem⟩ := ih hI₂ hps' hT
    refine ⟨hI', fun x hx => ?_⟩
    rcases List.mem_cons.1 hx with rfl | hx
    · exact ⟨hI₁, hG⟩
    · exact hmem x hx

end Abstracts

end Env

end Interaction
