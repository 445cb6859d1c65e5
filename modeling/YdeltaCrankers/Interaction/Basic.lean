import Mathlib.Data.List.Basic

/-!
# Programs that talk to an environment

A program calls its environment, waits for the reply and goes on.  Its behaviour is the set of
its *traces*: the calls it makes, with the replies it gets, in order.  What the environment is
(a network, a lock, a clock) plays no role here: every reply of the right type is possible.

## Main definitions

* `Interface` : the calls there are and the type of each call's reply.
* `Prog I α` : a program over the interface `I` returning an `α`; a monad.
* `Prog.Runs p t a` : `p` returns `a` after the calls and replies `t`.
* `Prog.Reaches p t p'` : after the calls and replies `t`, what is left of `p` is `p'`.
* `Prog.answered f p` : the run of `p` in which every call `c` is answered by `f c`, computed.
-/

namespace Interaction

/-- The calls a program can make, and the type of the reply each of them gets. -/
structure Interface where
  /-- The calls. -/
  Call : Type
  /-- The replies to a call. -/
  Reply : Call → Type

/-- A call together with the reply it got. -/
structure Interface.Event (I : Interface) where
  /-- The call made. -/
  call : I.Call
  /-- The reply it got. -/
  reply : I.Reply call

/-- The calls a program made and their replies, oldest first. -/
abbrev Interface.Trace (I : Interface) := List I.Event

/-- The first element of a list that satisfies `P`, or one after it. -/
theorem split_first {α : Type} {P : α → Prop} {t u t₁ t₂ : List α} {b e : α}
    (ht : ∀ x ∈ t, ¬ P x) (he : P e) (h : t ++ b :: u = t₁ ++ e :: t₂) :
    t₁ = t ∧ e = b ∧ t₂ = u ∨ ∃ s, t₁ = t ++ b :: s ∧ u = s ++ e :: t₂ := by
  rcases List.append_eq_append_iff.1 h with ⟨s, rfl, hs⟩ | ⟨s, rfl, hs⟩
  · cases s with
    | nil =>
      cases hs
      exact .inl ⟨List.append_nil t, rfl, rfl⟩
    | cons x s =>
      cases hs
      exact .inr ⟨s, rfl, rfl⟩
  · cases s with
    | nil =>
      cases hs
      exact .inl ⟨(List.append_nil t₁).symm, rfl, rfl⟩
    | cons x s =>
      cases hs
      have hmem : e ∈ t₁ ++ e :: s := List.mem_append_right _ List.mem_cons_self
      exact absurd he (ht e hmem)

/-- A program over the interface `I` that returns an `α`. -/
inductive Prog (I : Interface) (α : Type) where
  /-- Return `a`. -/
  | ret (a : α)
  /-- Make the call `c` and go on as `k` says, given the reply. -/
  | call (c : I.Call) (k : I.Reply c → Prog I α)

namespace Prog

variable {I : Interface} {α β : Type}

/-- Run `p`, then go on with its result. -/
protected def bind : Prog I α → (α → Prog I β) → Prog I β
  | .ret a, f => f a
  | .call c k, f => .call c fun r => (k r).bind f

instance : Monad (Prog I) where
  pure := .ret
  bind := Prog.bind

/-- Make one call and return its reply. -/
def perform (c : I.Call) : Prog I (I.Reply c) := .call c .ret

@[simp] theorem pure_eq (a : α) : (pure a : Prog I α) = .ret a := rfl

@[simp] theorem ret_bind (a : α) (f : α → Prog I β) : (Prog.ret a >>= f) = f a := rfl

@[simp] theorem call_bind (c : I.Call) (k : I.Reply c → Prog I α) (f : α → Prog I β) :
    (Prog.call c k >>= f) = .call c fun r => k r >>= f := rfl

@[simp] theorem perform_bind (c : I.Call) (f : I.Reply c → Prog I β) :
    (perform c >>= f) = .call c f := rfl

theorem bind_ret (p : Prog I α) : (p >>= Prog.ret) = p := by
  induction p with
  | ret a => rfl
  | call c k ih => simp only [call_bind, ih]

theorem bind_bind {γ : Type} (p : Prog I α) (f : α → Prog I β) (g : β → Prog I γ) :
    ((p >>= f) >>= g) = (p >>= fun a => f a >>= g) := by
  induction p with
  | ret a => rfl
  | call c k ih => simp only [call_bind, ih]

instance : LawfulMonad (Prog I) :=
  LawfulMonad.mk' (Prog I) bind_ret (fun _ _ => rfl) bind_bind

/-! ### Runs -/

/-- `p` returns `a` after making the calls of `t` and getting the replies recorded there. -/
def Runs : Prog I α → I.Trace → α → Prop
  | .ret a, t, b => t = [] ∧ b = a
  | .call c k, t, b => ∃ r t', t = ⟨c, r⟩ :: t' ∧ (k r).Runs t' b

@[simp] theorem runs_ret {a b : α} {t : I.Trace} : (Prog.ret a).Runs t b ↔ t = [] ∧ b = a :=
  Iff.rfl

@[simp] theorem runs_call {c : I.Call} {k : I.Reply c → Prog I α} {t : I.Trace} {b : α} :
    (Prog.call c k).Runs t b ↔ ∃ r t', t = ⟨c, r⟩ :: t' ∧ (k r).Runs t' b :=
  Iff.rfl

theorem runs_bind {p : Prog I α} {f : α → Prog I β} {t : I.Trace} {b : β} :
    (p >>= f).Runs t b ↔ ∃ t₁ a t₂, t = t₁ ++ t₂ ∧ p.Runs t₁ a ∧ (f a).Runs t₂ b := by
  induction p generalizing t with
  | ret a =>
    simp only [ret_bind, runs_ret]
    constructor
    · intro h; exact ⟨[], a, t, rfl, ⟨rfl, rfl⟩, h⟩
    · rintro ⟨_, _, t₂, rfl, ⟨rfl, rfl⟩, h⟩; exact h
  | call c k ih =>
    simp only [call_bind, runs_call, ih]
    constructor
    · rintro ⟨r, _, rfl, t₁, a, t₂, rfl, h₁, h₂⟩
      exact ⟨⟨c, r⟩ :: t₁, a, t₂, rfl, ⟨r, t₁, rfl, h₁⟩, h₂⟩
    · rintro ⟨_, a, t₂, rfl, ⟨r, t₁, rfl, h₁⟩, h₂⟩
      exact ⟨r, t₁ ++ t₂, rfl, t₁, a, t₂, rfl, h₁, h₂⟩

/-- A run does not go on: of two runs that begin alike, neither has more events. -/
theorem Runs.unique {p : Prog I α} {t t' s s' : I.Trace} {a b : α} (h : p.Runs t a)
    (h' : p.Runs t' b) (hs : t ++ s = t' ++ s') : t = t' ∧ a = b ∧ s = s' := by
  induction p generalizing t t' with
  | ret c =>
    obtain ⟨rfl, rfl⟩ := h
    obtain ⟨rfl, rfl⟩ := h'
    exact ⟨rfl, rfl, hs⟩
  | call c k ih =>
    obtain ⟨r, t, rfl, h⟩ := h
    obtain ⟨r', t', rfl, h'⟩ := h'
    obtain ⟨heq, hs'⟩ := List.cons.inj hs
    cases heq
    obtain ⟨rfl, rfl, rfl⟩ := ih r h h' hs'
    exact ⟨rfl, rfl, rfl⟩

/-- Every program can be run to its end, whatever it is answered. -/
theorem exists_runs (hI : ∀ c, Nonempty (I.Reply c)) (p : Prog I α) : ∃ t a, p.Runs t a := by
  induction p with
  | ret a => exact ⟨[], a, rfl, rfl⟩
  | call c k ih =>
    obtain ⟨r⟩ := hI c
    obtain ⟨t, a, h⟩ := ih r
    exact ⟨⟨c, r⟩ :: t, a, r, t, rfl, h⟩

/-! ### Unfinished runs -/

/-- After the calls and replies `t`, what is left of `p` is `p'`. -/
def Reaches : Prog I α → I.Trace → Prog I α → Prop
  | p, [], p' => p' = p
  | .ret _, _ :: _, _ => False
  | .call c k, e :: t, p' => ∃ r, e = ⟨c, r⟩ ∧ (k r).Reaches t p'

theorem Reaches.runs {p p' : Prog I α} {t t' : I.Trace} {a : α} (h : p.Reaches t p')
    (h' : p'.Runs t' a) : p.Runs (t ++ t') a := by
  induction p generalizing t with
  | ret b =>
    cases t with
    | nil => cases h; exact h'
    | cons e t => exact h.elim
  | call c k ih =>
    cases t with
    | nil => cases h; exact h'
    | cons e t =>
      obtain ⟨r, rfl, h⟩ := h
      exact ⟨r, t ++ t', rfl, ih r h⟩

/-- One more call and its reply. -/
theorem Reaches.snoc {p p' : Prog I α} {t : I.Trace} (h : p.Reaches t p') {c : I.Call}
    {k : I.Reply c → Prog I α} (hp : p' = .call c k) {r : I.Reply c} :
    p.Reaches (t ++ [⟨c, r⟩]) (k r) := by
  induction p generalizing t with
  | ret b =>
    cases t with
    | nil => exact nomatch h.symm.trans hp
    | cons e t => exact h.elim
  | call c' k' ih =>
    cases t with
    | nil =>
      cases h.symm.trans hp
      refine ⟨r, rfl, ?_⟩
      cases k r <;> rfl
    | cons e t =>
      obtain ⟨r', rfl, h⟩ := h
      exact ⟨r', rfl, ih r' h⟩

/-- An unfinished run is the beginning of a finished one. -/
theorem Reaches.exists_runs (hI : ∀ c, Nonempty (I.Reply c)) {p p' : Prog I α} {t : I.Trace}
    (h : p.Reaches t p') : ∃ t' a, p.Runs (t ++ t') a := by
  obtain ⟨t', a, h'⟩ := p'.exists_runs hI
  exact ⟨t', a, h.runs h'⟩

theorem Reaches.prefix {p p' : Prog I α} {t t' : I.Trace} (h : p.Reaches (t ++ t') p') :
    ∃ p'', p.Reaches t p'' := by
  induction p generalizing t with
  | ret b =>
    cases t with
    | nil => exact ⟨_, rfl⟩
    | cons e t => exact h.elim
  | call c k ih =>
    cases t with
    | nil => exact ⟨_, rfl⟩
    | cons e t =>
      obtain ⟨r, rfl, h⟩ := h
      obtain ⟨p'', h''⟩ := ih r h
      exact ⟨p'', r, rfl, h''⟩

/-- A run of two programs, as far as it has got, is in the first of them or in the second. -/
theorem reaches_bind {p : Prog I α} {f : α → Prog I β} {t : I.Trace} {q : Prog I β}
    (h : (p >>= f).Reaches t q) : (∃ p', p.Reaches t p') ∨
      ∃ t₁ a t₂, t = t₁ ++ t₂ ∧ p.Runs t₁ a ∧ (f a).Reaches t₂ q := by
  induction p generalizing t with
  | ret a => exact .inr ⟨[], a, t, rfl, ⟨rfl, rfl⟩, h⟩
  | call c k ih =>
    cases t with
    | nil => exact .inl ⟨_, rfl⟩
    | cons e t =>
      obtain ⟨r, rfl, h⟩ := h
      rcases ih r h with ⟨p', h⟩ | ⟨t₁, a, t₂, rfl, h₁, h₂⟩
      · exact .inl ⟨p', r, rfl, h⟩
      · exact .inr ⟨⟨c, r⟩ :: t₁, a, t₂, rfl, ⟨r, t₁, rfl, h₁⟩, h₂⟩

/-- A program that returns makes no call. -/
theorem eq_nil_of_reaches_ret {a : α} {t : I.Trace} {p : Prog I α}
    (h : (Prog.ret a).Reaches t p) : t = [] := by
  cases t with
  | nil => rfl
  | cons e t => exact h.elim

theorem Runs.reaches {p : Prog I α} {t : I.Trace} {a : α} (h : p.Runs t a) :
    p.Reaches t (.ret a) := by
  induction p generalizing t with
  | ret b => obtain ⟨rfl, rfl⟩ := h; rfl
  | call c k ih => obtain ⟨r, t', rfl, h⟩ := h; exact ⟨r, rfl, ih r h⟩

/-! ### Computed runs -/

/-- The run of `p` in which every call `c` is answered by `f c`. -/
def answered (f : ∀ c, I.Reply c) : Prog I α → I.Trace × α
  | .ret a => ([], a)
  | .call c k => (⟨c, f c⟩ :: ((k (f c)).answered f).1, ((k (f c)).answered f).2)

theorem runs_answered (f : ∀ c, I.Reply c) (p : Prog I α) :
    p.Runs (p.answered f).1 (p.answered f).2 := by
  induction p with
  | ret a => exact ⟨rfl, rfl⟩
  | call c k ih => exact ⟨f c, _, rfl, ih (f c)⟩

theorem mem_answered {f : ∀ c, I.Reply c} {p : Prog I α} {e : I.Event}
    (h : e ∈ (p.answered f).1) : e.reply = f e.call := by
  induction p with
  | ret a => exact absurd h List.not_mem_nil
  | call c k ih =>
    rcases List.mem_cons.1 h with rfl | h
    · rfl
    · exact ih (f c) h

end Prog

end Interaction
