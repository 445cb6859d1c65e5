import YdeltaCrankers.Interaction.Concurrent
import Mathlib.Data.List.Forall2

/-!
# Sets of tasks

A program spawns tasks and joins them: `joinNext` waits until some task that was not joined is
finished, and returns what it returned.  The tasks run side by side in any order, each only while
it holds one of a number of permits, and a task may abort at any time.

A task is itself a program.  Which replies it can get is a parameter, and so is what an aborted
task leaves for its parent.

## Main definitions

* `Env.Step` : one step of a program and its environment.
* `JoinSet I α` : the interface of the parent; the tasks are programs over `I` returning an `α`.
* `JoinSet.Stage` : how far a task has come.
* `JoinSet.env` : the tasks, as the environment of the parent.
* `JoinSet.spec` : the same as its parent sees it: each task has one result, joined in any order.

## Main results

* `JoinSet.wellFounded_step` : a parent and its tasks do not run forever.
* `JoinSet.returned_of_stuck` : they stop only when the parent has returned.
* `JoinSet.simulates_spec` : a run beside the tasks is a run beside their results.
-/

namespace Interaction

/-! ### Lists side by side -/

section Forall₂

variable {β γ : Type} {R : β → γ → Prop} {l l₁ l₂ : List β} {m : List γ} {x : β} {y : γ}

/-- Beside a list that is split, so is the other. -/
theorem forall₂_split (h : List.Forall₂ R (l₁ ++ x :: l₂) m) :
    ∃ m₁ y m₂, m = m₁ ++ y :: m₂ ∧ List.Forall₂ R l₁ m₁ ∧ R x y ∧ List.Forall₂ R l₂ m₂ := by
  induction l₁ generalizing m with
  | nil =>
    obtain ⟨y, m₂, hy, h₂, rfl⟩ := List.forall₂_cons_left_iff.1 h
    exact ⟨[], y, m₂, rfl, .nil, hy, h₂⟩
  | cons z l₁ ih =>
    obtain ⟨w, m, hw, hrest, rfl⟩ := List.forall₂_cons_left_iff.1 h
    obtain ⟨m₁, y, m₂, rfl, h₁, hy, h₂⟩ := ih hrest
    exact ⟨w :: m₁, y, m₂, rfl, .cons hw h₁, hy, h₂⟩

theorem forall₂_split_right {m₁ m₂ : List γ} (h : List.Forall₂ R l (m₁ ++ y :: m₂)) :
    ∃ l₁ x l₂, l = l₁ ++ x :: l₂ ∧ List.Forall₂ R l₁ m₁ ∧ R x y ∧ List.Forall₂ R l₂ m₂ := by
  have hflip : List.Forall₂ (flip R) (m₁ ++ y :: m₂) l := h.flip
  obtain ⟨l₁, x, l₂, hl, h₁, hx, h₂⟩ := forall₂_split hflip
  exact ⟨l₁, x, l₂, hl, h₁.flip, hx, h₂.flip⟩

/-- Beside every element of the second list there is one of the first. -/
theorem forall₂_exists_left (h : List.Forall₂ R l m) (hy : y ∈ m) : ∃ x ∈ l, R x y := by
  obtain ⟨m₁, m₂, rfl⟩ := List.append_of_mem hy
  obtain ⟨l₁, x, l₂, rfl, -, hx, -⟩ := forall₂_split_right h
  exact ⟨x, List.mem_append_right _ List.mem_cons_self, hx⟩

end Forall₂

section Replaces

variable {β : Type} {r : β → β → Prop}

/-- One element of the list is replaced by a smaller one. -/
def Replaces (r : β → β → Prop) (m l : List β) : Prop :=
  ∃ l₁ x y l₂, l = l₁ ++ x :: l₂ ∧ m = l₁ ++ y :: l₂ ∧ r y x

theorem acc_replaces_cons {x : β} {l : List β} (hx : Acc r x) (hl : Acc (Replaces r) l) :
    Acc (Replaces r) (x :: l) := by
  induction hx generalizing l with
  | intro x _ ihx =>
    induction hl with
    | intro l hl ihl =>
      refine ⟨_, fun m hm => ?_⟩
      obtain ⟨l₁, y, z, l₂, hsplit, rfl, hz⟩ := hm
      cases l₁ with
      | nil =>
        cases hsplit
        exact ihx z hz ⟨_, hl⟩
      | cons w l₁ =>
        cases hsplit
        exact ihl _ ⟨l₁, y, z, l₂, rfl, rfl, hz⟩

/-- Elements cannot be replaced by smaller ones forever. -/
theorem wellFounded_replaces (h : WellFounded r) : WellFounded (Replaces r) := by
  refine ⟨fun l => ?_⟩
  induction l with
  | nil =>
    refine ⟨_, fun m hm => ?_⟩
    obtain ⟨l₁, x, y, l₂, hsplit, -, -⟩ := hm
    simp at hsplit
  | cons x l ih => exact acc_replaces_cons (h.apply x) ih

end Replaces

/-! ### A program and its environment, step by step -/

namespace Env

variable {I : Interface} {σ α : Type}

/-- The environment moves by itself, or answers the call the program waits for. -/
inductive Step (E : Env I σ) : Prog I α × σ → Prog I α × σ → Prop where
  | tick {p : Prog I α} {s s' : σ} (h : E.tick s s') : Step E (p, s) (p, s')
  | answer {c : I.Call} {k : I.Reply c → Prog I α} {r : I.Reply c} {s s' : σ}
      (h : E.answer s c r s') : Step E (.call c k, s) (k r, s')

variable {E : Env I σ} {G : σ → I.Call → Prop} {J : σ → Prop} {Q : α → σ → Prop}
  {c c' : Prog I α × σ}

theorem Safe.step (h : E.Safe (fun _ _ => True) G J Q c.1 c.2) (hstep : E.Step c c') :
    E.Safe (fun _ _ => True) G J Q c'.1 c'.2 := by
  cases hstep with
  | tick ht => exact h.ticks (.single ht)
  | answer ha =>
    obtain ⟨-, -, hk⟩ := h _ .refl
    exact hk _ _ ha trivial

/-- What `Safe` promises holds of every configuration of a run. -/
theorem Safe.steps (h : E.Safe (fun _ _ => True) G J Q c.1 c.2)
    (hrun : Relation.ReflTransGen E.Step c c') : E.Safe (fun _ _ => True) G J Q c'.1 c'.2 := by
  induction hrun with
  | refl => exact h
  | tail _ hstep ih => exact ih.step hstep

/-- `E'` can answer as `E` does, and sees nothing of its ticks. -/
structure Simulates {τ : Type} (E : Env I σ) (E' : Env I τ) (R : σ → τ → Prop) : Prop where
  tick : ∀ {s s' t}, R s t → E.tick s s' → R s' t
  answer : ∀ {s s' t c r}, R s t → E.answer s c r s' → ∃ t', E'.answer t c r t' ∧ R s' t'

/-- **A run of the one is a run of the other.** -/
theorem Simulates.steps {τ : Type} {E' : Env I τ} {R : σ → τ → Prop} (h : Simulates E E' R)
    {t : τ} (hR : R c.2 t) (hrun : Relation.ReflTransGen E.Step c c') :
    ∃ t', Relation.ReflTransGen E'.Step (c.1, t) (c'.1, t') ∧ R c'.2 t' := by
  induction hrun with
  | refl => exact ⟨t, .refl, hR⟩
  | tail _ hstep ih =>
    obtain ⟨t', hrun', hR'⟩ := ih
    cases hstep with
    | tick ht => exact ⟨t', hrun', h.tick hR' ht⟩
    | answer ha =>
      obtain ⟨t'', ha', hR''⟩ := h.answer hR' ha
      exact ⟨t'', hrun'.tail (.answer ha'), hR''⟩

/-- The rest of a program is smaller than the program. -/
theorem wellFounded_rest :
    WellFounded fun p' p : Prog I α => ∃ c k r, p = .call c k ∧ p' = k r := by
  refine ⟨fun p => ?_⟩
  induction p with
  | ret a => exact ⟨_, fun _ ⟨_, _, _, h, _⟩ => nomatch h⟩
  | call c k ih =>
    refine ⟨_, fun p' hp' => ?_⟩
    obtain ⟨c', k', r, h, rfl⟩ := hp'
    cases h
    exact ih r

/-- A program does not run forever in an environment that does not. -/
theorem wellFounded_step (h : WellFounded fun s' s => E.tick s s') :
    WellFounded fun c' c : Prog I α × σ => E.Step c c' := by
  refine Subrelation.wf (fun {c' c} hstep => ?_) (Prod.lex ⟨_, wellFounded_rest⟩ ⟨_, h⟩).wf
  cases hstep with
  | tick ht => exact .right _ ht
  | answer ha => exact .left _ _ ⟨_, _, _, rfl, rfl⟩

end Env

/-! ### Tasks -/

/-- The calls of a program that has a set of tasks. -/
inductive JoinSet.Call (I : Interface) (α : Type) where
  /-- Add a task to the set. -/
  | spawn (task : Prog I α)
  /-- Wait for a task to finish, and take it out of the set; `none` when the set is empty. -/
  | joinNext

/-- The reply of each of them. -/
abbrev JoinSet.Call.Reply {I : Interface} {α : Type} : JoinSet.Call I α → Type
  | .spawn _ => Unit
  | .joinNext => Option α

/-- What a program with a set of tasks calls. -/
abbrev JoinSet (I : Interface) (α : Type) : Interface := ⟨JoinSet.Call I α, JoinSet.Call.Reply⟩

namespace JoinSet

variable {I : Interface} {α : Type}

/-- How far a task has come, with what is left of it. -/
inductive Stage (I : Interface) (α : Type) where
  /-- It waits for its permit. -/
  | waiting (p : Prog I α)
  /-- It holds a permit. -/
  | running (p : Prog I α)
  /-- It has given the permit back. -/
  | finished (a : α)
  /-- The parent has its result. -/
  | joined (a : α)

namespace Stage

def isRunning : Stage I α → Bool
  | .running _ => true
  | _ => false

/-- The task has not ended. -/
def isActive : Stage I α → Bool
  | .waiting _ | .running _ => true
  | .finished _ | .joined _ => false

def isJoined : Stage I α → Bool
  | .joined _ => true
  | _ => false

/-- The result the parent has. -/
def joined? : Stage I α → Option α
  | .joined a => some a
  | _ => none

/-- One step of a task, when it can get the replies of `answers`, can abort with the results of
`aborts`, and a permit is free or not. -/
inductive Advance (answers : I.Event → Prop) (aborts : α → Prop) (free : Prop) :
    Stage I α → Stage I α → Prop where
  | acquire {p : Prog I α} (h : free) : Advance answers aborts free (.waiting p) (.running p)
  | reply {c : I.Call} {k : I.Reply c → Prog I α} {r : I.Reply c} (h : answers ⟨c, r⟩) :
      Advance answers aborts free (.running (.call c k)) (.running (k r))
  | finish {a : α} : Advance answers aborts free (.running (.ret a)) (.finished a)
  | abort {st : Stage I α} {a : α} (hst : st.isActive) (h : aborts a) :
      Advance answers aborts free st (.finished a)

/-- The program can return `a` when it gets the replies of `answers`. -/
def Returns (answers : I.Event → Prop) (p : Prog I α) (a : α) : Prop :=
  ∃ t, (∀ e ∈ t, answers e) ∧ p.Runs t a

/-- A task of the program can end with `a`. -/
def EndsWith (answers : I.Event → Prop) (aborts : α → Prop) (p : Prog I α) (a : α) : Prop :=
  aborts a ∨ Returns answers p a

/-- The task runs this program: what it can still return, the program can. -/
def Of (answers : I.Event → Prop) (aborts : α → Prop) (p : Prog I α) : Stage I α → Prop
  | .waiting q => q = p
  | .running q => ∀ a, Returns answers q a → Returns answers p a
  | .finished a | .joined a => EndsWith answers aborts p a

variable {answers : I.Event → Prop} {aborts : α → Prop} {free : Prop} {st st' : Stage I α}
  {p : Prog I α}

theorem Advance.isActive (h : Advance answers aborts free st st') : st.isActive := by
  cases h with
  | abort hst _ => exact hst
  | _ => rfl

/-- What the parent has does not change while a task goes on. -/
theorem Advance.joined?_eq (h : Advance answers aborts free st st') : st'.joined? = st.joined? := by
  cases h with
  | abort hst _ => cases st <;> first | rfl | cases hst
  | _ => rfl

theorem Of.advance (h : st.Of answers aborts p) (hst : Advance answers aborts free st st') :
    st'.Of answers aborts p := by
  cases hst with
  | acquire _ =>
    cases h
    exact fun _ => id
  | reply hr =>
    rintro a ⟨t, ht, hrun⟩
    refine h a ⟨⟨_, _⟩ :: t, fun e he => ?_, _, t, rfl, hrun⟩
    rcases List.mem_cons.1 he with rfl | he
    · exact hr
    · exact ht e he
  | finish => exact .inr (h _ ⟨[], by simp, rfl, rfl⟩)
  | abort _ ha => exact .inl ha

/-- The second stage comes right after the first one, at some time. -/
def Before (answers : I.Event → Prop) (aborts : α → Prop) (st' st : Stage I α) : Prop :=
  ∃ free, Advance answers aborts free st st'

theorem acc_finished (a : α) : Acc (Before answers aborts) (.finished a) := by
  refine ⟨_, fun st' hst => ?_⟩
  obtain ⟨free, h⟩ := hst
  cases h.isActive

theorem acc_running (p : Prog I α) : Acc (Before answers aborts) (.running p) := by
  induction p with
  | ret a =>
    refine ⟨_, fun st' hst => ?_⟩
    obtain ⟨free, h⟩ := hst
    cases h with
    | finish => exact acc_finished a
    | abort _ _ => exact acc_finished _
  | call c k ih =>
    refine ⟨_, fun st' hst => ?_⟩
    obtain ⟨free, h⟩ := hst
    cases h with
    | reply _ => exact ih _
    | abort _ _ => exact acc_finished _

/-- A task does not run forever. -/
theorem wellFounded_before (answers : I.Event → Prop) (aborts : α → Prop) :
    WellFounded (Before answers aborts : Stage I α → Stage I α → Prop) := by
  refine ⟨fun st => ?_⟩
  cases st with
  | waiting p =>
    refine ⟨_, fun st' hst => ?_⟩
    obtain ⟨free, h⟩ := hst
    cases h with
    | acquire _ => exact acc_running p
    | abort _ _ => exact acc_finished _
  | running p => exact acc_running p
  | finished a => exact acc_finished a
  | joined a =>
    refine ⟨_, fun st' hst => ?_⟩
    obtain ⟨free, h⟩ := hst
    cases h.isActive

end Stage

/-! ### The set as an environment -/

/-- How many tasks hold a permit. -/
def held (s : List (Stage I α)) : ℕ := s.countP Stage.isRunning

/-- The tasks, as the environment of their parent. -/
def env (permits : ℕ) (answers : I.Event → Prop) (aborts : α → Prop) :
    Env (JoinSet I α) (List (Stage I α)) where
  tick s s' := ∃ l₁ st st' l₂, s = l₁ ++ st :: l₂ ∧ s' = l₁ ++ st' :: l₂ ∧
    Stage.Advance answers aborts (held s < permits) st st'
  answer s c r s' := match c, r with
    | .spawn p, () => s' = s ++ [.waiting p]
    | .joinNext, none => s' = s ∧ ∀ st ∈ s, st.isJoined
    | .joinNext, some a => ∃ l₁ l₂, s = l₁ ++ .finished a :: l₂ ∧ s' = l₁ ++ .joined a :: l₂

section Run

variable {permits : ℕ} {answers : I.Event → Prop} {aborts : α → Prop} {s s' : List (Stage I α)}

/-- Every tick makes one task smaller. -/
theorem wellFounded_tick (permits : ℕ) (answers : I.Event → Prop) (aborts : α → Prop) :
    WellFounded fun s' s : List (Stage I α) => (env permits answers aborts).tick s s' := by
  refine Subrelation.wf (fun {s' s} hst => ?_)
    (wellFounded_replaces (Stage.wellFounded_before answers aborts))
  obtain ⟨l₁, st, st', l₂, rfl, rfl, hadvance⟩ := hst
  exact ⟨l₁, st, st', l₂, rfl, rfl, _, hadvance⟩

/-- **A parent and its tasks do not run forever.** -/
theorem wellFounded_step {β : Type} (permits : ℕ) (answers : I.Event → Prop) (aborts : α → Prop) :
    WellFounded fun c' c : Prog (JoinSet I α) β × List (Stage I α) =>
      (env permits answers aborts).Step c c' :=
  Env.wellFounded_step (wellFounded_tick permits answers aborts)

/-- While a task has not ended, some task can go on. -/
theorem exists_tick (hpermits : 0 < permits) (hanswers : ∀ c, ∃ r, answers ⟨c, r⟩)
    (h : ∃ st ∈ s, st.isActive) : ∃ s', (env permits answers aborts).tick s s' := by
  by_cases hrun : ∃ st ∈ s, st.isRunning
  · obtain ⟨st, hst, hrunning⟩ := hrun
    obtain ⟨l₁, l₂, rfl⟩ := List.append_of_mem hst
    cases st with
    | running p =>
      cases p with
      | ret a => exact ⟨_, l₁, _, _, l₂, rfl, rfl, .finish⟩
      | call c k =>
        obtain ⟨r, hr⟩ := hanswers c
        exact ⟨_, l₁, _, _, l₂, rfl, rfl, .reply hr⟩
    | _ => cases hrunning
  · -- no permit is held, so that a waiting task gets one
    obtain ⟨st, hst, hactive⟩ := h
    have hheld : held s = 0 := List.countP_eq_zero.2 fun x hx hx' => hrun ⟨x, hx, hx'⟩
    have hfree : held s < permits := by omega
    obtain ⟨l₁, l₂, rfl⟩ := List.append_of_mem hst
    cases st with
    | waiting p => exact ⟨_, l₁, _, _, l₂, rfl, rfl, .acquire hfree⟩
    | running p => exact absurd ⟨_, hst, rfl⟩ hrun
    | _ => cases hactive

/-- **A parent that waits is not stuck**: the run stops only when it has returned. -/
theorem returned_of_stuck {β : Type} (hpermits : 0 < permits)
    (hanswers : ∀ c, ∃ r, answers ⟨c, r⟩) {c : Prog (JoinSet I α) β × List (Stage I α)}
    (h : ∀ c', ¬ (env permits answers aborts).Step c c') : ∃ b, c.1 = .ret b := by
  obtain ⟨p, s⟩ := c
  cases p with
  | ret b => exact ⟨b, rfl⟩
  | call c k =>
    cases c with
    | spawn task =>
      have hspawn : (env permits answers aborts).answer s (.spawn task) ()
        (s ++ [.waiting task]) := rfl
      exact absurd (.answer hspawn) (h _)
    | joinNext =>
      by_cases hactive : ∃ st ∈ s, st.isActive
      · obtain ⟨s', hs'⟩ := exists_tick hpermits hanswers hactive
        exact absurd (.tick hs') (h (_, s'))
      by_cases hjoined : ∀ st ∈ s, st.isJoined
      · exact absurd (.answer ⟨rfl, hjoined⟩) (h (k none, s))
      · simp only [not_forall] at hjoined
        obtain ⟨st, hst, hnot⟩ := hjoined
        obtain ⟨l₁, l₂, rfl⟩ := List.append_of_mem hst
        cases st with
        | finished a => exact absurd (.answer ⟨l₁, l₂, rfl, rfl⟩) (h (k (some a), _))
        | joined a => exact absurd rfl hnot
        | waiting p => exact absurd ⟨_, hst, rfl⟩ hactive
        | running p => exact absurd ⟨_, hst, rfl⟩ hactive

end Run

/-! ### The set as its parent sees it -/

section Spec

variable (answers : I.Event → Prop) (aborts : α → Prop)

/-- The tasks and the results the parent has of them; any task can be joined next. -/
def spec : Env (JoinSet I α) (List (Prog I α × Option α)) where
  tick _ _ := False
  answer s c r s' := match c, r with
    | .spawn p, () => s' = s ++ [(p, none)]
    | .joinNext, none => s' = s ∧ ∀ x ∈ s, x.2 ≠ none
    | .joinNext, some a => ∃ s₁ p s₂, s = s₁ ++ (p, none) :: s₂ ∧ s' = s₁ ++ (p, some a) :: s₂ ∧
      Stage.EndsWith answers aborts p a

/-- The task runs the program, and the parent has this result of it. -/
def SeenAs (st : Stage I α) (x : Prog I α × Option α) : Prop :=
  st.Of answers aborts x.1 ∧ st.joined? = x.2

variable {answers aborts} {permits : ℕ}

theorem eq_of_ticks_spec {s s' : List (Prog I α × Option α)}
    (h : (spec answers aborts).Ticks s s') : s' = s := by
  induction h with
  | refl => rfl
  | tail _ ht _ => exact ht.elim

/-- **Running the tasks side by side, in any order and with any number of permits, is joining
their results in any order.** -/
theorem simulates_spec : Env.Simulates (env permits answers aborts) (spec answers aborts)
    (List.Forall₂ (SeenAs answers aborts)) where
  tick := by
    rintro s s' t hR ⟨l₁, st, st', l₂, rfl, rfl, hst⟩
    obtain ⟨t₁, x, t₂, rfl, h₁, hx, h₂⟩ := forall₂_split hR
    exact List.rel_append h₁ (.cons ⟨hx.1.advance hst, hst.joined?_eq.trans hx.2⟩ h₂)
  answer := by
    intro s s' t c r hR ha
    cases c with
    | spawn p =>
      cases ha
      exact ⟨_, rfl, List.rel_append hR (.cons ⟨rfl, rfl⟩ .nil)⟩
    | joinNext =>
      cases r with
      | none =>
        obtain ⟨rfl, hjoined⟩ := ha
        refine ⟨t, ⟨rfl, fun x hx hnone => ?_⟩, hR⟩
        obtain ⟨st, hst, -, hview⟩ := forall₂_exists_left hR hx
        have hdone := hjoined st hst
        rw [hnone] at hview
        cases st with
        | joined a => cases hview
        | _ => cases hdone
      | some a =>
        obtain ⟨l₁, l₂, rfl, rfl⟩ := ha
        obtain ⟨t₁, ⟨p, o⟩, t₂, rfl, h₁, hx, h₂⟩ := forall₂_split hR
        obtain ⟨hof, rfl⟩ := hx
        exact ⟨_, ⟨t₁, p, t₂, rfl, rfl, hof⟩, List.rel_append h₁ (.cons ⟨hof, rfl⟩ h₂)⟩

end Spec

end JoinSet

end Interaction
