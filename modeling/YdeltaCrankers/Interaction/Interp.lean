import YdeltaCrankers.Interaction.Basic

/-!
# Implementing an interface

`Prog.interp f p` is `p` with every call `c` replaced by the program `f c` over another
interface.  A run of it is a run of `p` whose calls are played out one after the other
(`Prog.runs_interp`), so that what happens during one call of `p` comes after what happened
during the calls before it (`Implements.exists_of_append_cons`).
-/

namespace Interaction

variable {I J : Interface} {α β : Type}

/-- Replace every call `c` by the program `f c`. -/
def Prog.interp (f : ∀ c, Prog J (I.Reply c)) : Prog I α → Prog J α
  | .ret a => .ret a
  | .call c k => f c >>= fun r => (k r).interp f

/-- The trace over `J` plays out the calls of the trace over `I` one after the other. -/
inductive Implements (f : ∀ c, Prog J (I.Reply c)) : I.Trace → J.Trace → Prop
  | nil : Implements f [] []
  | cons {c : I.Call} {r : I.Reply c} {u : I.Trace} {t t' : J.Trace} (hc : (f c).Runs t r)
      (hu : Implements f u t') : Implements f (⟨c, r⟩ :: u) (t ++ t')

namespace Prog

variable {f : ∀ c, Prog J (I.Reply c)}

@[simp] theorem interp_ret (a : α) : (Prog.ret a : Prog I α).interp f = .ret a := rfl

@[simp] theorem interp_call (c : I.Call) (k : I.Reply c → Prog I α) :
    (Prog.call c k).interp f = f c >>= fun r => (k r).interp f := rfl

/-- A run of the implementation is a run of the program, played out. -/
theorem runs_interp {p : Prog I α} {t : J.Trace} {a : α} :
    (p.interp f).Runs t a ↔ ∃ u, p.Runs u a ∧ Implements f u t := by
  induction p generalizing t with
  | ret b =>
    constructor
    · rintro ⟨rfl, rfl⟩
      exact ⟨[], ⟨rfl, rfl⟩, .nil⟩
    · rintro ⟨u, ⟨rfl, rfl⟩, hu⟩
      cases hu
      exact ⟨rfl, rfl⟩
  | call c k ih =>
    rw [interp_call, runs_bind]
    constructor
    · rintro ⟨t₁, r, t₂, rfl, hc, hk⟩
      obtain ⟨u, hu, himp⟩ := (ih r).1 hk
      exact ⟨⟨c, r⟩ :: u, ⟨r, u, rfl, hu⟩, .cons hc himp⟩
    · rintro ⟨_, ⟨r, u, rfl, hu⟩, himp⟩
      cases himp with
      | cons hc himp => exact ⟨_, r, _, rfl, hc, (ih r).2 ⟨u, hu, himp⟩⟩

end Prog

namespace Implements

variable {f : ∀ c, Prog J (I.Reply c)}

theorem eq_nil {t : J.Trace} (h : Implements f [] t) : t = [] := by
  cases h
  rfl

theorem of_append {u u' : I.Trace} {t : J.Trace} (h : Implements f (u ++ u') t) :
    ∃ t₁ t₂, t = t₁ ++ t₂ ∧ Implements f u t₁ ∧ Implements f u' t₂ := by
  induction u generalizing t with
  | nil => exact ⟨[], t, rfl, .nil, h⟩
  | cons e u ih =>
    cases h with
    | @cons c r _ t t' hc hu =>
      obtain ⟨t₁, t₂, rfl, h₁, h₂⟩ := ih hu
      exact ⟨t ++ t₁, t₂, (List.append_assoc ..).symm, .cons hc h₁, h₂⟩

/-- Every call that was made was played out. -/
theorem exists_of_mem {u : I.Trace} {t : J.Trace} (h : Implements f u t) {e : I.Event}
    (he : e ∈ u) : ∃ t', (f e.call).Runs t' e.reply ∧ t' ⊆ t := by
  induction h with
  | nil => exact absurd he List.not_mem_nil
  | @cons c r u t t' hc hu ih =>
    rcases List.mem_cons.1 he with rfl | he
    · exact ⟨t, hc, List.subset_append_left t t'⟩
    · obtain ⟨t'', ht'', hsub⟩ := ih he
      exact ⟨t'', ht'', List.Subset.trans hsub (List.subset_append_right t t')⟩

/-- What happened belongs to one of the calls; the calls before it were played out before. -/
theorem exists_of_append_cons {u : I.Trace} {t t₁ t₂ : J.Trace} {x : J.Event}
    (h : Implements f u t) (ht : t = t₁ ++ x :: t₂) :
    ∃ u₁ e u₂ t₀ s₁ s₂, u = u₁ ++ e :: u₂ ∧ Implements f u₁ t₀ ∧ t₁ = t₀ ++ s₁ ∧
      (f e.call).Runs (s₁ ++ x :: s₂) e.reply := by
  induction h generalizing t₁ with
  | nil => simp at ht
  | @cons c r u t t' hc hu ih =>
    rcases List.append_eq_append_iff.1 ht with ⟨s, rfl, hs⟩ | ⟨s, rfl, hs⟩
    · obtain ⟨u₁, e, u₂, t₀, s₁, s₂, rfl, himp, rfl, hrun⟩ := ih hs
      refine ⟨⟨c, r⟩ :: u₁, e, u₂, t ++ t₀, s₁, s₂, rfl, .cons hc himp, ?_, hrun⟩
      rw [List.append_assoc]
    · cases s with
      | nil =>
        obtain ⟨u₁, e, u₂, t₀, s₁, s₂, rfl, himp, hnil, hrun⟩ :=
          ih (List.nil_append (x :: t₂) ▸ hs.symm)
        obtain ⟨rfl, rfl⟩ := List.append_eq_nil_iff.1 hnil.symm
        refine ⟨⟨c, r⟩ :: u₁, e, u₂, t₁ ++ [] ++ [], [], s₂, rfl, .cons hc himp, ?_, hrun⟩
        simp
      | cons y s =>
        obtain ⟨rfl, rfl⟩ := List.cons.inj hs
        exact ⟨[], ⟨c, r⟩, u, [], t₁, s, rfl, .nil, rfl, hc⟩

end Implements

end Interaction
