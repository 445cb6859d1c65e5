import YdeltaCrankers.Handlers.Targets
import Mathlib.Data.List.Flatten

/-!
# What a tick broadcasts

A send signs and broadcasts its bundle up to three times.  With the methods of `Rpc` in the place
of their calls, a tick shows the transactions it broadcasts and what they are for
(`broadcastTargets`).

* `HandlerKind.broadcast_sublist` : a tick broadcasts only for targets it has listed, in the order
  of the list, and at most three transactions for each time a target is listed.
-/

namespace YdeltaCrankers

open Interaction

/-- What a transaction that is broadcast is for. -/
def Client.broadcastTarget : Client.Event → Option Target
  | ⟨.sendAndConfirmTransaction tx, _⟩ => some (bundleTarget tx.message.ixs)
  | _ => none

/-- The same, of the calls of a program over `Service`. -/
def Service.broadcastTarget : Service.Event → Option Target
  | ⟨.client c, r⟩ => Client.broadcastTarget ⟨c, r⟩
  | _ => none

/-- What the transactions that are broadcast are for, in order. -/
def broadcastTargets (t : Service.Trace) : List Target := t.filterMap Service.broadcastTarget

/-! ### One send -/

namespace Rpc

variable {rpc : Rpc} {sdk : Sdk} {build : Hash → Except Failure Transaction} {target : Target}

theorem StopRun.broadcasts_nil {t : Client.Trace} {r : Except Failure Bool} (h : StopRun t r) :
    t.filterMap Client.broadcastTarget = [] := by
  cases h <;> rfl

theorem StatusRun.broadcasts_nil {last : Option Signature} {t : Client.Trace}
    {r : Except Failure (Option Signature)} (h : StatusRun last t r) :
    t.filterMap Client.broadcastTarget = [] := by
  cases h <;> rfl

/-- Each attempt broadcasts at most once, and what is built. -/
theorem retryLoop_broadcasts
    (hbuild : ∀ h tx, build h = .ok tx → bundleTarget tx.message.ixs = target)
    (attempts : List ℕ) (last : Option Signature) :
    (rpc.retryLoop build attempts last).Spec fun t _ =>
      (t.filterMap Client.broadcastTarget).Sublist (List.replicate attempts.length target) := by
  induction attempts generalizing last with
  | nil => exact Fallible.spec_throw (.refl _)
  | cons attempt rest ih =>
    refine (retryLoop_runs rpc build attempt rest last).mono fun t r hrun => ?_
    have hone : List.Sublist [target] (List.replicate (rest.length + 1) target) :=
      (List.replicate_sublist_replicate target).2 (Nat.le_add_left 1 _)
    cases hrun with
    | stopped hstop =>
      rw [hstop.broadcasts_nil]
      exact List.nil_sublist _
    | landed hstop hstatus =>
      rw [List.filterMap_append, hstop.broadcasts_nil, hstatus.broadcasts_nil]
      exact List.nil_sublist _
    | signs hstop hstatus hsign =>
      rw [List.filterMap_append, List.filterMap_append, hstop.broadcasts_nil,
        hstatus.broadcasts_nil, List.nil_append, List.nil_append]
      cases hsign with
      | noBlockhash | notBuilt | unsigned => exact List.nil_sublist _
      | confirmed htx | rejected htx =>
        rw [← hbuild _ _ htx] at hone ⊢
        exact hone
      | retried htx hsig htransient hattempt hrest =>
        have htarget := hbuild _ _ htx
        simp only [List.filterMap_cons, Client.broadcastTarget, htarget, List.length_cons,
          List.replicate_succ]
        exact (ih _ _ _ hrest).cons_cons target

/-- The preamble does not change what a bundle is for. -/
theorem bundleTarget_preamble (cuLimit : UInt32) (ixs : List Instruction) :
    bundleTarget (rpc.priorityFeePreamble cuLimit ++ ixs) = bundleTarget ixs := by
  cases ixs with
  | nil =>
    unfold priorityFeePreamble
    split <;> rfl
  | cons ix ixs =>
    rw [bundleTarget, bundleTarget, List.getLast?_append_of_ne_nil _ (List.cons_ne_nil ix ixs)]

end Rpc

/-- What the call broadcasts, if it is allowed all its attempts. -/
def ServiceCall.attemptTargets (c : ServiceCall) : List Target :=
  c.sentTarget.toList.flatMap (List.replicate 3)

/-- A method broadcasts at most three transactions, for the target it sends for. -/
theorem RpcCall.broadcasts {rpc : Rpc} {sdk : Sdk} (c : RpcCall) :
    (c.prog rpc sdk).Spec fun t _ =>
      (t.filterMap Client.broadcastTarget).Sublist (ServiceCall.rpc c).attemptTargets := by
  have hquiet {α : Type} {x : Async Client α} {targets : List Target}
      (h : x.Makes (Rpc.BroadcastsOnly fun _ => False)) :
      x.Spec fun t _ => (t.filterMap Client.broadcastTarget).Sublist targets := by
    refine Fallible.Spec.mono h fun t r ht => ?_
    have hnil : t.filterMap Client.broadcastTarget = [] := by
      refine List.filterMap_eq_nil_iff.2 fun ⟨call, reply⟩ he => ?_
      have hcall := ht _ he
      cases call with
      | sendAndConfirmTransaction tx => exact hcall.elim
      | _ => rfl
    rw [hnil]
    exact List.nil_sublist _
  cases c with
  | getAccountData pk => exact hquiet (Rpc.getAccountData_makes pk)
  | simulate ixs feePayer => exact hquiet Rpc.simulateV0_makes
  | simulateV0 ixs luts feePayer => exact hquiet Rpc.simulateV0_makes
  | sendSignedLabeled ixLabel ixs signers =>
    change (rpc.sendSignedLabeled sdk ixLabel ixs signers).Spec _
    unfold Rpc.sendSignedLabeled
    split
    · exact Fallible.spec_throw (List.nil_sublist _)
    · rw [Rpc.sendWithRetry_eq]
      refine Rpc.retryLoop_broadcasts (fun h tx htx => ?_) [0, 1, 2] none
      rw [(Rpc.buildLegacy_ok htx).1, Rpc.bundleTarget_preamble]
  | sendSignedV0Labeled ixLabel ixs luts signers =>
    change (rpc.sendSignedV0Labeled sdk ixLabel ixs luts signers).Spec _
    unfold Rpc.sendSignedV0Labeled
    split
    · exact Fallible.spec_throw (List.nil_sublist _)
    · rw [Rpc.sendV0WithRetry_eq]
      refine Rpc.retryLoop_broadcasts (fun h tx htx => ?_) [0, 1, 2] none
      rw [(Rpc.buildV0_ok htx).1, Rpc.bundleTarget_preamble]

/-! ### A tick -/

section Ticks

variable {ctx : HandlerContext} {rpc : Rpc} {sdk : Sdk} {t : Service.Trace}

/-- What a call broadcasts, played out. -/
theorem implement_broadcasts {c : ServiceCall} {r : c.Reply}
    (h : (Service.implement rpc sdk c).Runs t r) :
    (broadcastTargets t).Sublist c.attemptTargets := by
  cases c with
  | rpc c =>
    obtain ⟨u, hu, rfl⟩ := Service.runs_implement_rpc h
    rw [broadcastTargets, List.filterMap_map]
    exact c.broadcasts u r hu
  | client c =>
    obtain ⟨r', _, rfl, rfl, -⟩ := h
    cases c with
    | sendAndConfirmTransaction tx =>
      exact (List.replicate_sublist_replicate _).2 (by decide : 1 ≤ 3)
    | _ => exact List.nil_sublist _
  | process c =>
    obtain ⟨r', _, rfl, rfl, -⟩ := h
    exact List.nil_sublist _

/-- The calls of a program, played out, broadcast for what the program sends for. -/
theorem broadcasts_of_implements {u : Service.Trace}
    (h : Implements (Service.implement rpc sdk) u t) :
    (broadcastTargets t).Sublist ((sentTargets u).flatMap (List.replicate 3)) := by
  induction h with
  | nil => exact .refl _
  | @cons c r u t t' hc _ ih =>
    have hsent : sentTargets (⟨c, r⟩ :: u) = c.sentTarget.toList ++ sentTargets u := by
      cases hc : c.sentTarget <;> simp [sentTargets, hc]
    rw [broadcastTargets, List.filterMap_append, hsent, List.flatMap_append]
    exact (implement_broadcasts hc).append ih

/-- **A tick broadcasts only for what it has listed, in the order of its lists, and at most three
transactions for each time a target is listed**, unless it panics. -/
theorem HandlerKind.broadcast_sublist (handler : HandlerKind) {r : Except Failure Unit}
    (h : ((handler.tick ctx).run.interp (Service.implement rpc sdk)).Runs t r)
    (hr : ∀ msg, r ≠ .error (.panic msg)) : ∃ u, (handler.tick ctx).run.Runs u r ∧
      Implements (Service.implement rpc sdk) u t ∧
        (broadcastTargets t).Sublist
          ((handler.listedTargets ctx.y u).flatMap (List.replicate 3)) := by
  obtain ⟨u, hu, himp⟩ := Prog.runs_interp.1 h
  have hsent := handler.sent_sublist hu hr
  exact ⟨u, hu, himp, (broadcasts_of_implements himp).trans (hsent.flatMap _)⟩

/-- The node of `oneLoanReply`, which does not confirm what it is sent. -/
def unconfirmedReply : (c : ServiceCall) → c.Reply
  | .client (.sendAndConfirmTransaction _) => .error ⟨.io "timed out", "timed out"⟩
  | c => oneLoanReply c

/-- The one loan that is listed, and the three attempts to send for it. -/
theorem HandlerKind.broadcast_sublist_sample : ∃ t u : Service.Trace,
    broadcastTargets t = List.replicate 3 (.loan (.fill 32 31) 7) ∧
      (broadcastTargets t).Sublist
        ((HandlerKind.liquidator.listedTargets .plain u).flatMap (List.replicate 3)) := by
  let p := (HandlerKind.liquidator.tick sampleHandlerContext).run.interp
    (Service.implement sampleRpc .plain)
  have hruns : p.Runs (p.answered unconfirmedReply).1 (p.answered unconfirmedReply).2 :=
    Prog.runs_answered _ _
  have hok : (p.answered unconfirmedReply).2.isOk = true := by decide +kernel
  obtain ⟨u, -, -, h⟩ := HandlerKind.liquidator.broadcast_sublist hruns fun msg heq => by
    rw [heq] at hok
    cases hok
  exact ⟨_, u, by decide +kernel, h⟩

end Ticks

end YdeltaCrankers
