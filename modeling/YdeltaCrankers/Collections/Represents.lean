import Mathlib.Data.List.AList
import Mathlib.Data.List.Sort

/-!
# Maps built from bindings, refusing conflicts

A finite map *represents* a relation when it is its graph.  An operation *adds* a list of bindings
when, on a map representing `R`, it succeeds with a map representing `R` extended by the bindings,
and fails only if the extended relation binds one key to two values.  Adding composes, so a loop
that inserts one binding after another and stops at the first conflict fails exactly when there
is a conflict anywhere, and its result does not depend on the order.

## Main definitions

* `Collections.Represents` : a map is the graph of a relation.
* `Collections.Adds` : an operation adds these bindings, or reports a conflict.
-/

namespace Collections

variable {K V ε α : Type} [DecidableEq K]

/-- `R` binds a key to at most one value. -/
def Functional (R : K → V → Prop) : Prop := ∀ k v v', R k v → R k v' → v = v'

/-- `map` is the graph of `R`. -/
def Represents (map : AList fun _ : K => V) (R : K → V → Prop) : Prop :=
  ∀ k v, map.lookup k = some v ↔ R k v

/-- `R` and the bindings of a list. -/
def Extend (R : K → V → Prop) (pairs : List (K × V)) (k : K) (v : V) : Prop :=
  R k v ∨ (k, v) ∈ pairs

/-- `f` adds the bindings, or fails because of a conflict. -/
def Adds (f : (AList fun _ : K => V) → Except ε (AList fun _ : K => V))
    (pairs : List (K × V)) : Prop :=
  ∀ map R, Represents map R → match f map with
    | .ok map' => Represents map' (Extend R pairs)
    | .error _ => ¬ Functional (Extend R pairs)

variable {R : K → V → Prop} {map map' : AList fun _ : K => V}

theorem Represents.functional (h : Represents map R) : Functional R := by
  intro k v v' hv hv'
  rw [← h] at hv hv'
  exact Option.some.inj (hv.symm.trans hv')

theorem represents_empty : Represents (∅ : AList fun _ : K => V) fun _ _ => False :=
  fun k v => by simp

omit [DecidableEq K] in
theorem extend_append (pairs pairs' : List (K × V)) :
    Extend R (pairs ++ pairs') = Extend (Extend R pairs) pairs' := by
  funext k v
  simp only [Extend, List.mem_append, or_assoc]

omit [DecidableEq K] in
theorem Functional.of_extend {pairs : List (K × V)} (h : Functional (Extend R pairs)) :
    Functional R :=
  fun k v v' hv hv' => h k v v' (.inl hv) (.inl hv')

/-- Inserting a binding that agrees with what is there. -/
theorem Represents.insert (h : Represents map R) {k : K} {v : V} (hv : ∀ v', R k v' → v' = v) :
    Represents (map.insert k v) (Extend R [(k, v)]) := by
  intro k' v'
  by_cases hk : k' = k
  · subst hk
    simp only [AList.lookup_insert, Option.some.injEq, Extend, List.mem_singleton, Prod.mk.injEq,
      true_and]
    exact ⟨fun heq => .inr heq.symm, fun hor => hor.elim (fun hR => (hv v' hR).symm) Eq.symm⟩
  · rw [AList.lookup_insert_ne hk, h]
    simp [Extend, hk]

/-- Inserting one binding, or failing when the key is bound to another value. -/
theorem adds_insert {f : (AList fun _ : K => V) → Except ε (AList fun _ : K => V)} {k : K} {v : V}
    (hok : ∀ map, (∀ v', map.lookup k = some v' → v' = v) → f map = .ok (map.insert k v))
    (herr : ∀ map v', map.lookup k = some v' → v' ≠ v → ∃ e, f map = .error e) :
    Adds f [(k, v)] := by
  intro map R h
  by_cases hv : ∀ v', map.lookup k = some v' → v' = v
  · rw [hok map hv]
    exact h.insert fun v' hR => hv v' ((h k v').2 hR)
  · push Not at hv
    obtain ⟨v', hlookup, hne⟩ := hv
    obtain ⟨e, he⟩ := herr map v' hlookup hne
    rw [he]
    exact fun hfun => hne (hfun k v' v (.inl ((h k v').1 hlookup)) (.inr (by simp)))

theorem adds_pure : Adds (fun map => (.ok map : Except ε (AList fun _ : K => V))) [] :=
  fun map R h k v => by simp [Extend, h k v]

theorem Adds.bind {f g : (AList fun _ : K => V) → Except ε (AList fun _ : K => V)}
    {pairs pairs' : List (K × V)} (hf : Adds f pairs) (hg : Adds g pairs') :
    Adds (fun map => f map >>= g) (pairs ++ pairs') := by
  intro map R h
  have hf := hf map R h
  rw [extend_append]
  change match Except.bind (f map) g with | .ok _ => _ | .error _ => _
  cases hfm : f map with
  | error e =>
    rw [hfm] at hf
    exact fun hfun => hf hfun.of_extend
  | ok map' =>
    rw [hfm] at hf
    exact hg map' _ hf

theorem Adds.foldlM {step : (AList fun _ : K => V) → α → Except ε (AList fun _ : K => V)}
    {pairs : α → List (K × V)} (h : ∀ x, Adds (fun map => step map x) (pairs x)) (xs : List α) :
    Adds (fun map => xs.foldlM step map) (xs.flatMap pairs) := by
  induction xs with
  | nil => exact adds_pure
  | cons x xs ih =>
    simp only [List.foldlM_cons, List.flatMap_cons]
    exact (h x).bind ih

theorem Adds.represents {f : (AList fun _ : K => V) → Except ε (AList fun _ : K => V)}
    {pairs : List (K × V)} (hf : Adds f pairs) (h : Represents map R) (hok : f map = .ok map') :
    Represents map' (Extend R pairs) := by
  have hf := hf map R h
  rwa [hok] at hf

/-- The operation succeeds exactly when there is no conflict. -/
theorem Adds.exists_ok_iff {f : (AList fun _ : K => V) → Except ε (AList fun _ : K => V)}
    {pairs : List (K × V)} (hf : Adds f pairs) (h : Represents map R) :
    (∃ map', f map = .ok map') ↔ Functional (Extend R pairs) := by
  have hf := hf map R h
  cases hfm : f map with
  | error e =>
    rw [hfm] at hf
    exact ⟨nofun, fun hfun => absurd hfun hf⟩
  | ok map' =>
    rw [hfm] at hf
    exact ⟨fun _ => hf.functional, fun _ => ⟨map', rfl⟩⟩

/-! ### Entries in the order of their keys -/

theorem Represents.entries_perm (h : Represents map R) (h' : Represents map' R) :
    map.entries.Perm map'.entries :=
  List.lookup_ext map.nodupKeys map'.nodupKeys fun k v => (h k v).trans (h' k v).symm

/-- Order pairs by their keys. -/
def KeyOrder (le : K → K → Prop) (a b : K × V) : Prop := le a.1 b.1

instance (le : K → K → Prop) [DecidableRel le] :
    DecidableRel (KeyOrder le : K × V → K × V → Prop) :=
  fun a b => inferInstanceAs (Decidable (le a.1 b.1))

instance (le : K → K → Prop) [Std.Total le] : Std.Total (KeyOrder le : K × V → K × V → Prop) :=
  ⟨fun a b => Std.Total.total a.1 b.1⟩

instance (le : K → K → Prop) [IsTrans K le] : IsTrans (K × V) (KeyOrder le) :=
  ⟨fun a b c => IsTrans.trans a.1 b.1 c.1⟩

/-- The entries of a map, sorted by key. -/
def sortedEntries (le : K → K → Prop) [DecidableRel le] (map : AList fun _ : K => V) :
    List (K × V) :=
  (map.entries.map fun e => (e.1, e.2)).insertionSort (KeyOrder le)

variable (le : K → K → Prop) [DecidableRel le]

omit [DecidableEq K] in
theorem sortedEntries_perm (map : AList fun _ : K => V) :
    (sortedEntries le map).Perm (map.entries.map fun e => (e.1, e.2)) :=
  List.perm_insertionSort ..

omit [DecidableEq K] in
theorem sortedEntries_keys_nodup (map : AList fun _ : K => V) :
    ((sortedEntries le map).map Prod.fst).Nodup := by
  rw [((sortedEntries_perm le map).map Prod.fst).nodup_iff, List.map_map]
  exact map.keys_nodup

theorem Represents.mem_sortedEntries (h : Represents map R) {k : K} {v : V} :
    (k, v) ∈ sortedEntries le map ↔ R k v := by
  rw [← h, ← Option.mem_def, AList.mem_lookup_iff, (sortedEntries_perm le map).mem_iff,
    List.mem_map]
  constructor
  · rintro ⟨⟨k', v'⟩, hmem, heq⟩
    cases heq
    exact hmem
  · exact fun hmem => ⟨_, hmem, rfl⟩

/-- Maps of one relation have the same entries once these are sorted by key. -/
theorem Represents.sortedEntries_eq [Std.Total le] [IsTrans K le] [Std.Antisymm le]
    (h : Represents map R) (h' : Represents map' R) :
    sortedEntries le map = sortedEntries le map' := by
  have hperm : (sortedEntries le map).Perm (sortedEntries le map') :=
    (sortedEntries_perm le map).trans
      (((h.entries_perm h').map _).trans (sortedEntries_perm le map').symm)
  refine List.Perm.eq_of_pairwise ?_ (List.pairwise_insertionSort _ _)
    (List.pairwise_insertionSort _ _) hperm
  rintro ⟨k, v⟩ ⟨k', v'⟩ ha hb hab hba
  -- one key of a map has one value
  obtain rfl : k = k' := Std.Antisymm.antisymm k k' hab hba
  have hv := (h.mem_sortedEntries le).1 ha
  have hv' := (h'.mem_sortedEntries le).1 hb
  rw [h.functional _ v v' hv hv']

end Collections
