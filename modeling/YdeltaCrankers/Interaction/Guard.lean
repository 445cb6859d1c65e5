import YdeltaCrankers.Interaction.Concurrent
import Mathlib.Data.Set.Insert

/-!
# Keys that programs take and give back

Programs that run side by side take keys and give them back.  What an event of an interface does
to the keys is given by `touch`; a program *holds* a key between the event that takes it and the
next one that gives it back.

A program that gives back only keys it holds is `Disciplined`, and one that holds nothing in the
end `Brackets` its keys.  In an environment that hands out a key only while nobody has it
(`Env.HandsOut`), disciplined programs exclude each other:

* `Env.HandsOut.holders` : the keys out are those some program holds, and no two programs hold
  the same key.
* `Env.HandsOut.none_out` : when every program has given back what it took, no key is out.
* `Env.HandsOut.refused` : a key is refused only while some program holds it.
-/

namespace Interaction

/-- What an event does to the keys. -/
inductive Touch (K : Type) where
  | idle
  /-- The key is taken. -/
  | take (k : K)
  /-- The key was asked for and is not to be had. -/
  | refuse (k : K)
  /-- The key is given back. -/
  | give (k : K)

variable {I : Interface} {K ε ε' α β : Type} {touch : I.Event → Touch K} {t t' : I.Trace}
  {e : I.Event} {k : K}

variable (touch) in
/-- In `t`, the key `k` has been taken and not been given back since. -/
def Holds (t : I.Trace) (k : K) : Prop :=
  ∃ t₁ e t₂, t = t₁ ++ e :: t₂ ∧ touch e = .take k ∧ ∀ e' ∈ t₂, touch e' ≠ .give k

variable (touch) in
/-- In `t`, only keys that are held are given back. -/
def Disciplined (t : I.Trace) : Prop :=
  ∀ t₁ e t₂ k, t = t₁ ++ e :: t₂ → touch e = .give k → Holds touch t₁ k

theorem not_holds_nil : ¬ Holds touch [] k := by
  rintro ⟨t₁, e, t₂, h, -⟩
  simp at h

theorem holds_append : Holds touch (t ++ t') k ↔
    Holds touch t' k ∨ Holds touch t k ∧ ∀ e ∈ t', touch e ≠ .give k := by
  constructor
  · rintro ⟨t₁, e, t₂, h, htake, hgive⟩
    rcases List.append_eq_append_iff.1 h with ⟨s, rfl, rfl⟩ | ⟨s, rfl, hs⟩
    · exact .inl ⟨s, e, t₂, rfl, htake, hgive⟩
    · cases s with
      | nil => exact .inl ⟨[], e, t₂, by simpa using hs.symm, htake, hgive⟩
      | cons x s =>
        obtain ⟨rfl, rfl⟩ := List.cons.inj hs
        refine .inr ⟨⟨t₁, e, s, rfl, htake, fun e' he' => ?_⟩, fun e' he' => ?_⟩
        · exact hgive e' (List.mem_append_left t' he')
        · exact hgive e' (List.mem_append_right s he')
  · rintro (⟨t₁, e, t₂, rfl, htake, hgive⟩ | ⟨⟨t₁, e, t₂, rfl, htake, hgive⟩, ht'⟩)
    · exact ⟨t ++ t₁, e, t₂, by simp, htake, hgive⟩
    · refine ⟨t₁, e, t₂ ++ t', by simp, htake, fun e' he' => ?_⟩
      rcases List.mem_append.1 he' with he' | he'
      · exact hgive e' he'
      · exact ht' e' he'

theorem holds_singleton : Holds touch [e] k ↔ touch e = .take k := by
  constructor
  · rintro ⟨t₁, e', t₂, h, htake, -⟩
    rcases List.append_eq_singleton_iff.1 h.symm with ⟨-, h⟩ | ⟨-, h⟩
    · cases h
      exact htake
    · cases h
  · exact fun h => ⟨[], e, [], rfl, h, List.forall_mem_nil _⟩

/-- What one more event changes. -/
theorem holds_concat : Holds touch (t ++ [e]) k ↔
    touch e = .take k ∨ Holds touch t k ∧ touch e ≠ .give k := by
  rw [holds_append, holds_singleton, List.forall_mem_singleton]

theorem not_holds_of_idle (h : ∀ e ∈ t, touch e = .idle) : ¬ Holds touch t k := by
  rintro ⟨t₁, e, t₂, rfl, htake, -⟩
  rw [h e (List.mem_append_right t₁ List.mem_cons_self)] at htake
  cases htake

theorem disciplined_of_idle (h : ∀ e ∈ t, touch e = .idle) : Disciplined touch t := by
  rintro t₁ e t₂ k rfl hgive
  rw [h e (List.mem_append_right t₁ List.mem_cons_self)] at hgive
  cases hgive

theorem Disciplined.append (h : Disciplined touch t) (h' : Disciplined touch t') :
    Disciplined touch (t ++ t') := by
  intro t₁ e t₂ k ht hgive
  rcases List.append_eq_append_iff.1 ht with ⟨s, rfl, rfl⟩ | ⟨s, rfl, hs⟩
  · exact holds_append.2 (.inl (h' s e t₂ k rfl hgive))
  · cases s with
    | nil =>
      -- the first event of t' gives back what t' has not taken
      have hheld := h' [] e t₂ k hs.symm hgive
      exact absurd hheld not_holds_nil
    | cons x s =>
      obtain ⟨rfl, -⟩ := List.cons.inj hs
      exact h t₁ e s k rfl hgive

/-- What has happened so far is disciplined if all of it is. -/
theorem Disciplined.of_append (h : Disciplined touch (t ++ t')) : Disciplined touch t := by
  rintro t₁ e t₂ k rfl hgive
  exact h t₁ e (t₂ ++ t') k (by simp) hgive

/-- An event gives back a key that is held after the events before it. -/
theorem Disciplined.concat (h : Disciplined touch t)
    (he : ∀ k, touch e = .give k → Holds touch t k) :
    Disciplined touch (t ++ [e]) := by
  intro t₁ e' t₂ k ht hgive
  rcases List.append_eq_append_iff.1 ht with ⟨s, rfl, hs⟩ | ⟨s, rfl, hs⟩
  · rcases List.append_eq_singleton_iff.1 hs.symm with ⟨rfl, hs⟩ | ⟨-, hs⟩
    · cases hs
      rw [List.append_nil]
      exact he k hgive
    · cases hs
  · cases s with
    | nil =>
      cases hs
      simp only [List.append_nil] at he ⊢
      exact he k hgive
    | cons x s =>
      obtain ⟨rfl, -⟩ := List.cons.inj hs
      exact h t₁ e' s k rfl hgive

theorem disciplined_singleton (h : ∀ k, touch e ≠ .give k) : Disciplined touch [e] := by
  rw [← List.nil_append [e]]
  exact Disciplined.concat (disciplined_of_idle (List.forall_mem_nil _)) fun k hk => absurd hk (h k)

/-! ### Programs -/

namespace Fallible

variable {P : ε → Prop} {x : Fallible I ε α}

variable (touch) in
/-- `x` gives back only keys it holds, and holds none in the end, if it fails with a `P` only. -/
def Brackets (P : ε → Prop) (x : Fallible I ε α) : Prop :=
  x.Spec fun t r => Disciplined touch t ∧
    ((∀ err, r = .error err → P err) → ∀ k, ¬ Holds touch t k)

theorem brackets_of_idle (h : x.Spec fun t _ => ∀ e ∈ t, touch e = .idle) :
    x.Brackets touch P :=
  Spec.mono h fun _ _ ht => ⟨disciplined_of_idle ht, fun _ _ => not_holds_of_idle ht⟩

theorem brackets_pure (a : α) : (pure a : Fallible I ε α).Brackets touch P :=
  brackets_of_idle (spec_pure (List.forall_mem_nil _))

theorem brackets_throw (err : ε) : (throw err : Fallible I ε α).Brackets touch P :=
  brackets_of_idle (spec_throw (List.forall_mem_nil _))

theorem Brackets.bind {f : α → Fallible I ε β} (h : x.Brackets touch P)
    (hf : ∀ a, (f a).Brackets touch P) : (x >>= f).Brackets touch P := by
  refine spec_bind h (fun t err ht => ?_) fun t a ht => (hf a).mono fun t' r ht' => ?_
  · refine ⟨ht.1, fun hP => ht.2 fun err' herr => hP err' ?_⟩
    cases herr
    rfl
  · refine ⟨ht.1.append ht'.1, fun hP k hk => ?_⟩
    rcases holds_append.1 hk with hk | ⟨hk, -⟩
    · exact ht'.2 hP k hk
    · exact ht.2 (fun _ => nofun) k hk

/-- Failures that are caught are among those after which nothing is held. -/
theorem Brackets.attempt {recover : ε → Option ε'} (h : x.Brackets touch P)
    (hP : ∀ err err', recover err = some err' → P err) : (x.attempt recover).Brackets touch P := by
  refine spec_attempt h (fun t a ht => ?_) (fun t err err' ht hrec => ?_) fun t err ht _ => ?_
  · exact ⟨ht.1, fun _ => ht.2 fun _ => nofun⟩
  · refine ⟨ht.1, fun _ => ht.2 ?_⟩
    rintro _ ⟨⟩
    exact hP err err' hrec
  · refine ⟨ht.1, fun herr => ht.2 ?_⟩
    rintro _ ⟨⟩
    exact herr err rfl

/-- What a program has done so far is disciplined. -/
theorem Brackets.disciplined (hI : ∀ c, Nonempty (I.Reply c)) (h : x.Brackets touch P)
    {p : Prog I (Except ε α)} (hr : x.run.Reaches t p) : Disciplined touch t := by
  obtain ⟨t', r, hrun⟩ := hr.exists_runs hI
  exact (h _ r hrun).1.of_append

/-- A program that has returned holds nothing. -/
theorem Brackets.none_held (h : x.Brackets touch P) {r : Except ε α}
    (hr : x.run.Reaches t (.ret r)) (hP : ∀ err, r = .error err → P err) (k : K) :
    ¬ Holds touch t k := by
  have hret : (Prog.ret r : Prog I (Except ε α)).Runs [] r := ⟨rfl, rfl⟩
  have hrun : x.run.Runs t r := by
    have happend := hr.runs hret
    rwa [List.append_nil] at happend
  exact (h t r hrun).2 hP k

end Fallible

/-- A key is taken, and nothing is done to the keys after that. -/
theorem disciplined_open (htake : touch e = .take k) (hidle : ∀ e ∈ t, touch e = .idle) :
    Disciplined touch (e :: t) := by
  rw [← List.singleton_append]
  refine (disciplined_singleton fun k' hk' => ?_).append (disciplined_of_idle hidle)
  rw [htake] at hk'
  cases hk'

/-- A key is taken, nothing is done to the keys, and it is given back. -/
theorem brackets_window {e₁ e₂ : I.Event} (htake : touch e₁ = .take k)
    (hidle : ∀ e ∈ t, touch e = .idle) (hgive : touch e₂ = .give k) :
    Disciplined touch (e₁ :: t ++ [e₂]) ∧ ∀ k', ¬ Holds touch (e₁ :: t ++ [e₂]) k' := by
  have hopen : ∀ k', Holds touch (e₁ :: t) k' ↔ touch e₁ = .take k' := by
    intro k'
    rw [← List.singleton_append, holds_append, holds_singleton,
      or_iff_right (not_holds_of_idle hidle), and_iff_left_iff_imp]
    intro _ e he
    rw [hidle e he]
    nofun
  refine ⟨(disciplined_open htake hidle).concat fun k' hk' => ?_, fun k' hk' => ?_⟩
  · rw [hgive] at hk'
    cases hk'
    exact (hopen k).2 htake
  · rcases holds_concat.1 hk' with hk' | ⟨hk', hne⟩
    · rw [hgive] at hk'
      cases hk'
    · have hsame := (hopen k').1 hk'
      rw [htake] at hsame
      cases hsame
      exact hne hgive

/-! ### Programs side by side -/

namespace Env

variable {σ ι : Type} {E : Env I σ} {keys : σ → Set K}

variable (E touch keys) in
/-- `keys` are the keys that are out: a key is to be had only while it is not out, and nothing but
the events that touch it changes that. -/
structure HandsOut : Prop where
  tick : ∀ {s s'}, E.tick s s' → keys s' = keys s
  idle : ∀ {s c r s'}, E.answer s c r s' → touch ⟨c, r⟩ = .idle → keys s' = keys s
  take : ∀ {s c r s' k}, E.answer s c r s' → touch ⟨c, r⟩ = .take k →
    k ∉ keys s ∧ keys s' = insert k (keys s)
  refuse : ∀ {s c r s' k}, E.answer s c r s' → touch ⟨c, r⟩ = .refuse k →
    k ∈ keys s ∧ keys s' = keys s
  give : ∀ {s c r s' k}, E.answer s c r s' → touch ⟨c, r⟩ = .give k → keys s' = keys s \ {k}

variable (touch) in
/-- After the traces `h`, the keys of `S` are those some program holds, and no two programs hold
the same key. -/
structure HeldBy (h : ι → I.Trace) (S : Set K) : Prop where
  mem_iff : ∀ k, k ∈ S ↔ ∃ i, Holds touch (h i) k
  unique : ∀ {i j k}, Holds touch (h i) k → Holds touch (h j) k → i = j

/-- One more event of program `i`. -/
def record [DecidableEq ι] (h : ι → I.Trace) (i : ι) (e : I.Event) : ι → I.Trace :=
  Function.update h i (h i ++ [e])

@[simp] theorem record_self [DecidableEq ι] (h : ι → I.Trace) (i : ι) (e : I.Event) :
    record h i e i = h i ++ [e] := Function.update_self ..

theorem record_of_ne [DecidableEq ι] (h : ι → I.Trace) {i j : ι} (hij : j ≠ i) (e : I.Event) :
    record h i e j = h j := Function.update_of_ne hij ..

namespace HeldBy

variable {h h' : ι → I.Trace} {S : Set K} {i : ι}

theorem nil : HeldBy touch (fun _ : ι => []) (∅ : Set K) where
  mem_iff _ := ⟨False.elim, fun ⟨_, hk⟩ => not_holds_nil hk⟩
  unique hk _ := absurd hk not_holds_nil

theorem of_iff (hS : HeldBy touch h S) (hh : ∀ j k, Holds touch (h' j) k ↔ Holds touch (h j) k) :
    HeldBy touch h' S where
  mem_iff k := (hS.mem_iff k).trans (exists_congr fun j => (hh j k).symm)
  unique {i j k} hi hj := hS.unique ((hh i k).1 hi) ((hh j k).1 hj)

/-- A key nobody holds is taken. -/
theorem insert (hS : HeldBy touch h S) (hk : k ∉ S)
    (hh : ∀ j k', Holds touch (h' j) k' ↔ Holds touch (h j) k' ∨ j = i ∧ k' = k) :
    HeldBy touch h' (insert k S) where
  mem_iff k' := by
    rw [Set.mem_insert_iff, hS.mem_iff]
    constructor
    · rintro (rfl | ⟨j, hj⟩)
      · exact ⟨i, (hh i k').2 (.inr ⟨rfl, rfl⟩)⟩
      · exact ⟨j, (hh j k').2 (.inl hj)⟩
    · rintro ⟨j, hj⟩
      rcases (hh j k').1 hj with hj | ⟨-, rfl⟩
      · exact .inr ⟨j, hj⟩
      · exact .inl rfl
  unique {j j' k'} hj hj' := by
    have hfree : ∀ j, ¬ Holds touch (h j) k := fun j hj => hk ((hS.mem_iff k).2 ⟨j, hj⟩)
    rcases (hh j k').1 hj with hj | ⟨rfl, rfl⟩ <;> rcases (hh j' k').1 hj' with hj' | ⟨rfl, hk'⟩
    · exact hS.unique hj hj'
    · exact absurd (hk' ▸ hj) (hfree j)
    · exact absurd hj' (hfree j')
    · rfl

/-- A key is given back. -/
theorem sdiff (hS : HeldBy touch h S)
    (hh : ∀ j k', Holds touch (h' j) k' ↔ Holds touch (h j) k' ∧ k' ≠ k) :
    HeldBy touch h' (S \ {k}) where
  mem_iff k' := by
    rw [Set.mem_sdiff, Set.mem_singleton_iff, hS.mem_iff]
    constructor
    · rintro ⟨⟨j, hj⟩, hne⟩
      exact ⟨j, (hh j k').2 ⟨hj, hne⟩⟩
    · rintro ⟨j, hj⟩
      obtain ⟨hj, hne⟩ := (hh j k').1 hj
      exact ⟨⟨j, hj⟩, hne⟩
  unique {j j' k'} hj hj' := hS.unique ((hh j k').1 hj).1 ((hh j' k').1 hj').1

/-- **One event keeps the keys out and the keys held the same.** -/
theorem step [DecidableEq ι] {s s' : σ} (hE : HandsOut touch E keys)
    (hS : HeldBy touch h (keys s)) {e : I.Event} (ha : E.answer s e.call e.reply s')
    (hi : Disciplined touch (h i ++ [e])) : HeldBy touch (record h i e) (keys s') := by
  have hother : ∀ j, j ≠ i → ∀ k, Holds touch (record h i e j) k ↔ Holds touch (h j) k :=
    fun j hj k => by rw [record_of_ne h hj]
  cases he : touch e with
  | idle =>
    rw [hE.idle ha he]
    refine hS.of_iff fun j k => ?_
    by_cases hj : j = i
    · subst hj
      simp [holds_concat, he]
    · exact hother j hj k
  | refuse k₀ =>
    rw [(hE.refuse ha he).2]
    refine hS.of_iff fun j k => ?_
    by_cases hj : j = i
    · subst hj
      simp [holds_concat, he]
    · exact hother j hj k
  | take k₀ =>
    obtain ⟨hfree, hkeys⟩ := hE.take ha he
    rw [hkeys]
    refine hS.insert (i := i) hfree fun j k => ?_
    by_cases hj : j = i
    · subst hj
      simp [holds_concat, he, or_comm, eq_comm]
    · simp [hother j hj k, hj]
  | give k₀ =>
    rw [hE.give ha he]
    -- only the program that holds the key gives it back
    have hheld : Holds touch (h i) k₀ := hi (h i) e [] k₀ rfl he
    refine hS.sdiff fun j k => ?_
    by_cases hj : j = i
    · subst hj
      simp [holds_concat, he, eq_comm]
    · rw [hother j hj k, iff_self_and]
      rintro hk rfl
      exact hj (hS.unique hk hheld)

end HeldBy

section Interleaving

variable [DecidableEq ι] {ps ps' : ι → Prog I α} {s s' : σ} {T : List (ι × σ × I.Event)}

/-- The events of a run keep the keys out and the keys held the same. -/
theorem HeldBy.run (hE : HandsOut touch E keys) {h : ι → I.Trace}
    (hS : HeldBy touch h (keys s)) (hT : E.Interleaving ps s T ps' s')
    (hps : ∀ i, Disciplined touch (h i ++ eventsOf i T)) :
    HeldBy touch (fun i => h i ++ eventsOf i T) (keys s') := by
  have hticks : ∀ {s s'}, E.Ticks s s' → keys s' = keys s := fun {s s'} hs =>
    hs.invariant (P := fun x => keys x = keys s) rfl fun _ _ h₁ ht => (hE.tick ht).trans h₁
  induction T generalizing ps s h with
  | nil =>
    rw [hticks hT.2]
    simpa [eventsOf] using hS
  | cons x T ih =>
    obtain ⟨i, s₁, e⟩ := x
    obtain ⟨hs, k, -, s₂, ha, hT⟩ := hT
    rw [← hticks hs] at hS
    have hhist : ∀ j, record h i e j ++ eventsOf j T = h j ++ eventsOf j ((i, s₁, e) :: T) := by
      intro j
      by_cases hj : j = i
      · subst hj
        rw [record_self, eventsOf_cons_self, List.append_assoc, List.singleton_append]
      · rw [record_of_ne h hj, eventsOf_cons_of_ne (Ne.symm hj)]
    have hi : Disciplined touch (h i ++ [e]) := by
      have hall := hps i
      rw [← hhist i, record_self] at hall
      exact hall.of_append
    have hrest := ih (hS.step hE ha hi) hT fun j => hhist j ▸ hps j
    exact hrest.of_iff fun j k => by rw [hhist j]

namespace HandsOut

variable (hE : HandsOut touch E keys) (hs : keys s = ∅)
  (hps : ∀ i, Disciplined touch (eventsOf i T))

include hE hs hps

/-- **Disciplined programs exclude each other.** -/
theorem holders (hT : E.Interleaving ps s T ps' s') :
    HeldBy touch (fun i => eventsOf i T) (keys s') := by
  have hnil : HeldBy touch (fun _ : ι => []) (keys s) := by
    rw [hs]
    exact .nil
  simpa using hnil.run hE hT (by simpa using hps)

/-- When no program holds a key, none is out. -/
theorem none_out (hT : E.Interleaving ps s T ps' s')
    (hnone : ∀ i k, ¬ Holds touch (eventsOf i T) k) : keys s' = ∅ := by
  refine Set.eq_empty_iff_forall_notMem.2 fun k hk => ?_
  obtain ⟨i, hi⟩ := ((hE.holders hs hps hT).mem_iff k).1 hk
  exact hnone i k hi

/-- A key is refused only while some program holds it. -/
theorem refused {T₁ T₂ : List (ι × σ × I.Event)} {i : ι} {s₁ : σ} {e : I.Event} {k : K}
    (hT : E.Interleaving ps s T ps' s') (hsplit : T = T₁ ++ (i, s₁, e) :: T₂)
    (he : touch e = .refuse k) : ∃ j, Holds touch (eventsOf j T₁) k := by
  subst hsplit
  obtain ⟨ps₁, hT₁, s₂, ha⟩ := hT.until
  have hbefore : ∀ j, Disciplined touch (eventsOf j T₁) := by
    intro j
    have hall := hps j
    rw [eventsOf_append] at hall
    exact hall.of_append
  exact ((hE.holders hs hbefore hT₁).mem_iff k).1 (hE.refuse ha he).1

end HandsOut

end Interleaving

end Env

end Interaction
