import YdeltaCrankers.Interaction.Interp
import YdeltaCrankers.Interaction.Spec

/-!
# Programs that ask leave before they act

Some events *give* leave, such as a poll of a stop flag that reads clear, and some *use* it up.  A
trace `AsksLeave` if every use comes after a leave of its own, later than the use before.

So once leave is no longer given, at most one more use follows, however long the trace goes on
(`AsksLeave.uses_le_one`).  Traces that ask leave are closed under concatenation and under
beginnings, so that a program asks leave if its parts do.

A trace is `GivenWithin` a number of events if no longer part of it is without leave; then it ends
soon after leave is no longer given (`GivenWithin.length_le`).  `Fallible.Spends` bounds what a
program does on one leave.
-/

namespace Interaction

/-- What an event does to a leave. -/
inductive Leave where
  /-- Leave to act, once. -/
  | gives
  /-- An act. -/
  | uses
  | idle
deriving DecidableEq

variable {I J : Interface} (leave : I.Event → Leave)

/-- Every act of the trace has a leave of its own; `held` says whether one is held at first. -/
def AsksLeave : Bool → I.Trace → Prop
  | _, [] => True
  | held, e :: t => match leave e with
    | .gives => AsksLeave true t
    | .uses => held = true ∧ AsksLeave false t
    | .idle => AsksLeave held t

/-- The number of acts. -/
def uses (t : I.Trace) : ℕ := t.countP fun e => leave e = .uses

section Uses

variable {leave} {e : I.Event} {t t' : I.Trace}

theorem uses_append : uses leave (t ++ t') = uses leave t + uses leave t' := List.countP_append

theorem uses_cons_act (he : leave e = .uses) : uses leave (e :: t) = uses leave t + 1 :=
  List.countP_cons_of_pos (by simpa using he)

theorem uses_cons_of_ne (he : leave e ≠ .uses) : uses leave (e :: t) = uses leave t :=
  List.countP_cons_of_neg (by simpa using he)

end Uses

namespace AsksLeave

variable {leave} {held : Bool} {e : I.Event} {t t' : I.Trace}

theorem cons_gives (he : leave e = .gives) :
    AsksLeave leave held (e :: t) ↔ AsksLeave leave true t := by
  simp only [AsksLeave, he]

theorem cons_uses (he : leave e = .uses) :
    AsksLeave leave held (e :: t) ↔ held = true ∧ AsksLeave leave false t := by
  simp only [AsksLeave, he]

theorem cons_idle (he : leave e = .idle) :
    AsksLeave leave held (e :: t) ↔ AsksLeave leave held t := by
  simp only [AsksLeave, he]

/-- Holding a leave does no harm. -/
theorem of_false (h : AsksLeave leave false t) : AsksLeave leave held t := by
  induction t generalizing held with
  | nil => trivial
  | cons e t ih =>
    cases he : leave e with
    | gives => exact (cons_gives he).2 ((cons_gives he).1 h)
    | uses =>
      obtain ⟨hfalse, -⟩ := (cons_uses he).1 h
      cases hfalse
    | idle => exact (cons_idle he).2 (ih ((cons_idle he).1 h))

theorem append (h : AsksLeave leave held t) (h' : AsksLeave leave false t') :
    AsksLeave leave held (t ++ t') := by
  induction t generalizing held with
  | nil => exact h'.of_false
  | cons e t ih =>
    rw [List.cons_append]
    cases he : leave e with
    | gives => exact (cons_gives he).2 (ih ((cons_gives he).1 h))
    | uses =>
      obtain ⟨hheld, ht⟩ := (cons_uses he).1 h
      exact (cons_uses he).2 ⟨hheld, ih ht⟩
    | idle => exact (cons_idle he).2 (ih ((cons_idle he).1 h))

/-- What a trace leaves behind is again a trace that asks leave. -/
theorem of_append (h : AsksLeave leave held (t ++ t')) :
    AsksLeave leave held t ∧ ∃ held', AsksLeave leave held' t' := by
  induction t generalizing held with
  | nil => exact ⟨trivial, held, h⟩
  | cons e t ih =>
    rw [List.cons_append] at h
    cases he : leave e with
    | gives => exact (ih ((cons_gives he).1 h)).imp_left (cons_gives he).2
    | uses =>
      obtain ⟨hheld, ht⟩ := (cons_uses he).1 h
      exact (ih ht).imp_left fun h' => (cons_uses he).2 ⟨hheld, h'⟩
    | idle => exact (ih ((cons_idle he).1 h)).imp_left (cons_idle he).2

theorem of_ne_uses (h : ∀ e ∈ t, leave e ≠ .uses) : AsksLeave leave held t := by
  induction t generalizing held with
  | nil => trivial
  | cons e t ih =>
    obtain ⟨he, ht⟩ := List.forall_mem_cons.1 h
    cases hleave : leave e with
    | gives => exact (cons_gives hleave).2 (ih ht)
    | uses => exact absurd hleave he
    | idle => exact (cons_idle hleave).2 (ih ht)

theorem of_idle (h : ∀ e ∈ t, leave e = .idle) : AsksLeave leave held t :=
  of_ne_uses fun e he => by rw [h e he]; nofun

/-- A leave is kept over calls that neither give nor use one. -/
theorem idle_append (h : ∀ e ∈ t, leave e = .idle) (h' : AsksLeave leave held t') :
    AsksLeave leave held (t ++ t') := by
  induction t with
  | nil => exact h'
  | cons e t ih =>
    obtain ⟨he, ht⟩ := List.forall_mem_cons.1 h
    exact (cons_idle he).2 (ih ht)

/-- The events seen through another interface. -/
theorem map {leave' : J.Event → Leave} {f : I.Event → J.Event} (hf : ∀ e, leave' (f e) = leave e)
    (h : AsksLeave leave held t) : AsksLeave leave' held (t.map f) := by
  induction t generalizing held with
  | nil => trivial
  | cons e t ih =>
    rw [List.map_cons]
    cases he : leave e with
    | gives => exact (cons_gives ((hf e).trans he)).2 (ih ((cons_gives he).1 h))
    | uses =>
      obtain ⟨hheld, ht⟩ := (cons_uses he).1 h
      exact (cons_uses ((hf e).trans he)).2 ⟨hheld, ih ht⟩
    | idle => exact (cons_idle ((hf e).trans he)).2 (ih ((cons_idle he).1 h))

/-- Where no leave is given, at most the leave held at first is used. -/
theorem uses_le (h : AsksLeave leave held t) (hno : ∀ e ∈ t, leave e ≠ .gives) :
    uses leave t ≤ held.toNat := by
  induction t generalizing held with
  | nil => exact Nat.zero_le _
  | cons e t ih =>
    obtain ⟨he, ht⟩ := List.forall_mem_cons.1 hno
    cases hleave : leave e with
    | gives => exact absurd hleave he
    | uses =>
      obtain ⟨rfl, h'⟩ := (cons_uses hleave).1 h
      rw [uses_cons_act hleave]
      exact Nat.succ_le_succ (ih h' ht)
    | idle =>
      rw [uses_cons_of_ne (by rw [hleave]; nofun)]
      exact ih ((cons_idle hleave).1 h) ht

/-- **Once leave is no longer given, at most one more act follows.** -/
theorem uses_le_one (h : AsksLeave leave held (t ++ t')) (hno : ∀ e ∈ t', leave e ≠ .gives) :
    uses leave t' ≤ 1 := by
  obtain ⟨held', h'⟩ := h.of_append.2
  exact Nat.le_trans (h'.uses_le hno) (Bool.toNat_le held')

/-- As many acts as there is leave for. -/
theorem of_uses_le (h : uses leave t ≤ held.toNat) : AsksLeave leave held t := by
  induction t generalizing held with
  | nil => trivial
  | cons e t ih =>
    cases hleave : leave e with
    | gives =>
      rw [uses_cons_of_ne (by rw [hleave]; nofun)] at h
      exact (cons_gives hleave).2 (ih (Nat.le_trans h (Bool.toNat_le held)))
    | uses =>
      rw [uses_cons_act hleave] at h
      cases held with
      | false => exact absurd h (Nat.not_succ_le_zero _)
      | true => exact (cons_uses hleave).2 ⟨rfl, ih (Nat.le_of_succ_le_succ h)⟩
    | idle =>
      rw [uses_cons_of_ne (by rw [hleave]; nofun)] at h
      exact (cons_idle hleave).2 (ih h)

/-- A program asks leave as far as it has got. -/
theorem of_reaches {α : Type} {p p' : Prog I α} (hI : ∀ c, Nonempty (I.Reply c))
    (h : p.Spec fun t _ => AsksLeave leave held t) (hr : p.Reaches t p') :
    AsksLeave leave held t := by
  obtain ⟨t', a, hrun⟩ := hr.exists_runs hI
  exact (h _ a hrun).of_append.1

/-- Calls that are each played out asking leave. -/
theorem of_implements {leave : J.Event → Leave} {f : ∀ c, Prog J (I.Reply c)} {u : I.Trace}
    {t : J.Trace} (himp : Implements f u t)
    (h : ∀ e ∈ u, ∀ s, (f e.call).Runs s e.reply → AsksLeave leave false s) :
    AsksLeave leave false t := by
  induction himp with
  | nil => trivial
  | cons hc _ ih =>
    obtain ⟨hfirst, hrest⟩ := List.forall_mem_cons.1 h
    exact (hfirst _ hc).append (ih hrest)

end AsksLeave

/-! ### How long a program goes on without leave -/

/-- Of the trace, at most `m` events come before leave is given, and at most `n` from one leave to
the next. -/
def GivenWithin (n : ℕ) : ℕ → I.Trace → Prop
  | _, [] => True
  | m, e :: t =>
    if leave e = .gives then GivenWithin n n t else ∃ m', m = m' + 1 ∧ GivenWithin n m' t

namespace GivenWithin

variable {leave} {n m : ℕ} {e : I.Event} {t t' : I.Trace}

theorem cons_gives (he : leave e = .gives) :
    GivenWithin leave n m (e :: t) ↔ GivenWithin leave n n t := by
  rw [GivenWithin, if_pos he]

theorem cons_of_ne (he : leave e ≠ .gives) :
    GivenWithin leave n m (e :: t) ↔ ∃ m', m = m' + 1 ∧ GivenWithin leave n m' t := by
  rw [GivenWithin, if_neg he]

theorem mono {m' : ℕ} (h : GivenWithin leave n m t) (hm : m ≤ m') : GivenWithin leave n m' t := by
  induction t generalizing m m' with
  | nil => trivial
  | cons e t ih =>
    by_cases he : leave e = .gives
    · exact (cons_gives he).2 ((cons_gives he).1 h)
    · obtain ⟨m₁, rfl, h₁⟩ := (cons_of_ne he).1 h
      refine (cons_of_ne he).2 ⟨m' - 1, by omega, ih h₁ (by omega)⟩

/-- A stretch without leave in front. -/
theorem append (hno : ∀ e ∈ t, leave e ≠ .gives) (h : GivenWithin leave n m t') :
    GivenWithin leave n (t.length + m) (t ++ t') := by
  induction t with
  | nil => rwa [List.length_nil, Nat.zero_add]
  | cons e t ih =>
    obtain ⟨he, ht⟩ := List.forall_mem_cons.1 hno
    refine (cons_of_ne he).2 ⟨t.length + m, ?_, ih ht⟩
    rw [List.length_cons]
    omega

/-- Where no leave is given, the trace is short. -/
theorem length_le (h : GivenWithin leave n m t) (hno : ∀ e ∈ t, leave e ≠ .gives) :
    t.length ≤ m := by
  induction t generalizing m with
  | nil => exact Nat.zero_le m
  | cons e t ih =>
    obtain ⟨he, ht⟩ := List.forall_mem_cons.1 hno
    obtain ⟨m', rfl, h'⟩ := (cons_of_ne he).1 h
    exact Nat.succ_le_succ (ih h' ht)

theorem of_append (h : GivenWithin leave n m (t ++ t')) (hm : m ≤ n) :
    GivenWithin leave n m t ∧ ∃ m' ≤ n, GivenWithin leave n m' t' := by
  induction t generalizing m with
  | nil => exact ⟨trivial, m, hm, h⟩
  | cons e t ih =>
    rw [List.cons_append] at h
    by_cases he : leave e = .gives
    · exact (ih ((cons_gives he).1 h) (Nat.le_refl n)).imp_left (cons_gives he).2
    · obtain ⟨m', rfl, h'⟩ := (cons_of_ne he).1 h
      exact (ih h' (Nat.le_of_succ_le hm)).imp_left fun h₁ => (cons_of_ne he).2 ⟨m', rfl, h₁⟩

/-- **Once leave is no longer given, the trace goes on for at most `n` events.** -/
theorem length_le_of_append (h : GivenWithin leave n m (t ++ t')) (hm : m ≤ n)
    (hno : ∀ e ∈ t', leave e ≠ .gives) : t'.length ≤ n := by
  obtain ⟨-, m', hm', h'⟩ := h.of_append hm
  exact Nat.le_trans (h'.length_le hno) hm'

end GivenWithin

namespace Fallible

variable {ε α β : Type} {leave} {n k n' k' : ℕ} {x : Fallible I ε α}

/-- `x` gets no leave, makes at most `n` calls, and at most `k` acts. -/
def Spends (leave : I.Event → Leave) (n k : ℕ) (x : Fallible I ε α) : Prop :=
  x.Spec fun t _ => (∀ e ∈ t, leave e ≠ .gives) ∧ t.length ≤ n ∧ uses leave t ≤ k

theorem Spends.mono (h : x.Spends leave n k) (hn : n ≤ n') (hk : k ≤ k') :
    x.Spends leave n' k' :=
  Spec.mono h fun _ _ ht => ⟨ht.1, Nat.le_trans ht.2.1 hn, Nat.le_trans ht.2.2 hk⟩

theorem spends_result {r : Except ε α} :
    Spends leave 0 0 (ExceptT.mk (.ret r) : Fallible I ε α) :=
  spec_result ⟨List.forall_mem_nil _, Nat.le_refl 0, Nat.le_refl 0⟩

theorem Spends.bind {f : α → Fallible I ε β} (h : x.Spends leave n k)
    (hf : ∀ a, (f a).Spends leave n' k') : (x >>= f).Spends leave (n + n') (k + k') := by
  refine spec_bind h (fun t e ht => ?_) fun t a ht => Spec.mono (hf a) fun t' r ht' => ?_
  · exact ⟨ht.1, Nat.le_add_right_of_le ht.2.1, Nat.le_add_right_of_le ht.2.2⟩
  · refine ⟨List.forall_mem_append.2 ⟨ht.1, ht'.1⟩, ?_, ?_⟩
    · rw [List.length_append]
      exact Nat.add_le_add ht.2.1 ht'.2.1
    · rw [uses_append]
      exact Nat.add_le_add ht.2.2 ht'.2.2

/-- The rule for an act. -/
theorem spends_act_bind {c : I.Call} {f : I.Reply c → Fallible I ε β}
    (h : ∀ r, leave ⟨c, r⟩ = .uses) (hf : ∀ r, (f r).Spends leave n k) :
    (query c >>= f).Spends leave (n + 1) (k + 1) := by
  refine spec_query_bind fun r => Spec.mono (hf r) fun t _ ht => ⟨?_, ?_, ?_⟩
  · exact List.forall_mem_cons.2 ⟨by rw [h r]; nofun, ht.1⟩
  · exact Nat.succ_le_succ ht.2.1
  · rw [uses_cons_act (h r)]
    exact Nat.succ_le_succ ht.2.2

/-- The rule for a call that is neither an act nor a leave. -/
theorem spends_idle_bind {c : I.Call} {f : I.Reply c → Fallible I ε β}
    (h : ∀ r, leave ⟨c, r⟩ = .idle) (hf : ∀ r, (f r).Spends leave n k) :
    (query c >>= f).Spends leave (n + 1) k := by
  refine spec_query_bind fun r => Spec.mono (hf r) fun t _ ht => ⟨?_, ?_, ?_⟩
  · exact List.forall_mem_cons.2 ⟨by rw [h r]; nofun, ht.1⟩
  · exact Nat.succ_le_succ ht.2.1
  · rw [uses_cons_of_ne (by rw [h r]; nofun)]
    exact ht.2.2

end Fallible

end Interaction
