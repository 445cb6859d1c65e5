import YdeltaCrankers.Rpc.Retry

/-!
# The runs of one attempt

An attempt of the retry loop reads the stop flag, asks for the status of the transaction it
broadcast before, and then signs on a fresh blockhash and broadcasts.  `LoopRun` lists the ways
it can go, one constructor for each way out, and `retryLoop_runs` says that these are all.  What
the loop calls and returns is read off this list.

* `Rpc.StopRun` / `Rpc.StatusRun` / `Rpc.SignRun` : the runs of the three parts.
* `Rpc.retryLoop_runs` : every run of a loop with an attempt to make is a `LoopRun`.
-/

namespace YdeltaCrankers

open Interaction

namespace Rpc

/-- The runs of the stop check. -/
inductive StopRun : Client.Trace → Except Failure Bool → Prop
  | unset : StopRun [] (.ok false)
  | read (b : Bool) : StopRun [⟨.stopRequested, b⟩] (.ok b)

/-- The runs of the idempotency check. -/
inductive StatusRun : Option Signature → Client.Trace → Except Failure (Option Signature) → Prop
  | first : StatusRun none [] (.ok none)
  | failed {prev : Signature} {e : ClientError} :
      StatusRun (some prev) [⟨.getSignatureStatuses [prev], .error e⟩] (.ok none)
  | silent {prev : Signature} {statuses : List (Option TransactionStatus)}
      (h : statuses.head?.join = none) :
      StatusRun (some prev) [⟨.getSignatureStatuses [prev], .ok statuses⟩] (.ok none)
  | shown {prev : Signature} {status : TransactionStatus}
      {statuses : List (Option TransactionStatus)} :
      StatusRun (some prev) [⟨.getSignatureStatuses [prev], .ok (some status :: statuses)⟩]
        (.ok (some prev))

/-- The runs of the rest of an attempt, which is followed by the attempts `rest`. -/
inductive SignRun (rpc : Rpc) (build : Hash → Except Failure Transaction) (attempt : ℕ)
    (rest : List ℕ) : Client.Trace → Except Failure Signature → Prop
  | noBlockhash {e : ClientError} {err : Error} :
      SignRun rpc build attempt rest [⟨.getLatestBlockhash, .error e⟩] (.error (.error err))
  | notBuilt {h : Hash} {err : Failure} (hbuild : build h = .error err) :
      SignRun rpc build attempt rest [⟨.getLatestBlockhash, .ok h⟩] (.error err)
  | unsigned {h : Hash} {tx : Transaction} {err : Error} (hbuild : build h = .ok tx)
      (hsig : tx.signatures = []) :
      SignRun rpc build attempt rest [⟨.getLatestBlockhash, .ok h⟩] (.error (.error err))
  | confirmed {h : Hash} {tx : Transaction} {sig : Signature} (hbuild : build h = .ok tx) :
      SignRun rpc build attempt rest
        [⟨.getLatestBlockhash, .ok h⟩, ⟨.sendAndConfirmTransaction tx, .ok sig⟩] (.ok sig)
  | rejected {h : Hash} {tx : Transaction} {e : ClientError} {err : Error}
      (hbuild : build h = .ok tx) (hend : isTransient e = false ∨ attempt = 2) :
      SignRun rpc build attempt rest
        [⟨.getLatestBlockhash, .ok h⟩, ⟨.sendAndConfirmTransaction tx, .error e⟩]
        (.error (.error err))
  | retried {h : Hash} {tx : Transaction} {sig : Signature} {e : ClientError} {t : Client.Trace}
      {r : Except Failure Signature} (hbuild : build h = .ok tx)
      (hsig : tx.signatures.head? = some sig) (htransient : isTransient e = true)
      (hattempt : attempt ≠ 2) (hrest : (rpc.retryLoop build rest (some sig)).run.Runs t r) :
      SignRun rpc build attempt rest
        (⟨.getLatestBlockhash, .ok h⟩ :: ⟨.sendAndConfirmTransaction tx, .error e⟩ ::
          ⟨.sleep 500, ()⟩ :: t) r

/-- The runs of an attempt that is followed by the attempts `rest`. -/
inductive LoopRun (rpc : Rpc) (build : Hash → Except Failure Transaction) (attempt : ℕ)
    (rest : List ℕ) (last : Option Signature) : Client.Trace → Except Failure Signature → Prop
  | stopped {t : Client.Trace} {err : Error} (hstop : StopRun t (.ok true)) :
      LoopRun rpc build attempt rest last t (.error (.error err))
  | landed {t t' : Client.Trace} {prev : Signature} (hstop : StopRun t (.ok false))
      (hstatus : StatusRun last t' (.ok (some prev))) :
      LoopRun rpc build attempt rest last (t ++ t') (.ok prev)
  | signs {t t' u : Client.Trace} {r : Except Failure Signature} (hstop : StopRun t (.ok false))
      (hstatus : StatusRun last t' (.ok none)) (hsign : SignRun rpc build attempt rest u r) :
      LoopRun rpc build attempt rest last (t ++ (t' ++ u)) r

theorem StopRun.forall_mem {G : Client.Event → Prop} {t : Client.Trace} {r : Except Failure Bool}
    (h : StopRun t r) (hG : ∀ b, G ⟨.stopRequested, b⟩) : ∀ e ∈ t, G e := by
  cases h with
  | unset => exact List.forall_mem_nil _
  | read b => exact List.forall_mem_singleton.2 (hG b)

theorem StatusRun.forall_mem {G : Client.Event → Prop} {last : Option Signature}
    {t : Client.Trace} {r : Except Failure (Option Signature)} (h : StatusRun last t r)
    (hG : ∀ prev reply, G ⟨.getSignatureStatuses [prev], reply⟩) : ∀ e ∈ t, G e := by
  cases h with
  | first => exact List.forall_mem_nil _
  | failed => exact List.forall_mem_singleton.2 (hG _ _)
  | silent h => exact List.forall_mem_singleton.2 (hG _ _)
  | shown => exact List.forall_mem_singleton.2 (hG _ _)

/-- The check can only return the signature it asked for. -/
theorem StatusRun.last_eq {last : Option Signature} {t : Client.Trace} {prev : Signature}
    (h : StatusRun last t (.ok (some prev))) : last = some prev := by
  cases h
  rfl

theorem stopped_runs (rpc : Rpc) : rpc.stopped.Spec StopRun := by
  unfold stopped
  split
  · exact Fallible.spec_ask .read
  · exact Fallible.spec_pure .unset

theorem landedBefore_runs (last : Option Signature) :
    (landedBefore last).Spec (StatusRun last) := by
  cases last with
  | none => exact Fallible.spec_pure .first
  | some prev =>
    refine Fallible.spec_query_bind fun r => ?_
    rcases r with e | (_ | ⟨_ | status, statuses⟩)
    · exact Fallible.spec_pure .failed
    · exact Fallible.spec_pure (.silent rfl)
    · exact Fallible.spec_pure (.silent rfl)
    · exact Fallible.spec_pure .shown

variable (rpc : Rpc) (build : Hash → Except Failure Transaction)

/-- What the part of an attempt does that signs and broadcasts. -/
theorem signAttempt_runs (attempt : ℕ) (rest : List ℕ) :
    (rpc.signAttempt build attempt rest).Spec (SignRun rpc build attempt rest) := by
  refine Fallible.spec_ask_bind (fun r err hr => ?_) fun r h hr => ?_
  · cases r <;> cases hr
    exact .noBlockhash
  cases r <;> cases hr
  cases hbuild : build h with
  | error err =>
    unfold signOn
    rw [hbuild]
    exact Fallible.spec_throw (.notBuilt hbuild)
  | ok tx =>
    cases hsig : tx.signatures.head? with
    | none =>
      rw [rpc.signOn_unsigned attempt rest hbuild hsig]
      exact Fallible.spec_throw (.unsigned hbuild (List.head?_eq_none_iff.1 hsig))
    | some sig =>
      rw [rpc.signOn_eq attempt rest hbuild hsig]
      refine Fallible.spec_query_bind fun reply => ?_
      cases reply with
      | ok sig' => exact Fallible.spec_pure (.confirmed hbuild)
      | error e =>
        refine Fallible.spec_ite (fun hend => Fallible.spec_throw ?_) fun hretry => ?_
        · exact .rejected hbuild (by simpa using hend)
        · refine Fallible.spec_query_bind fun _ t r hrest => ?_
          simp only [Bool.or_eq_true, Bool.not_eq_true', beq_iff_eq, not_or,
            Bool.not_eq_false] at hretry
          exact .retried hbuild hsig hretry.1 hretry.2 hrest

/-- **What an attempt does.** -/
theorem retryLoop_runs (attempt : ℕ) (rest : List ℕ) (last : Option Signature) :
    (rpc.retryLoop build (attempt :: rest) last).Spec (LoopRun rpc build attempt rest last) := by
  rw [retryLoop_cons]
  refine Fallible.spec_bind rpc.stopped_runs (fun t e h => nomatch h) fun t stop hstop => ?_
  cases stop with
  | true =>
    refine Fallible.spec_throw ?_
    rw [List.append_nil]
    exact .stopped hstop
  | false =>
    refine Fallible.spec_bind (landedBefore_runs last) (fun t' e h => nomatch h)
      fun t' landed hstatus => ?_
    cases landed with
    | some prev =>
      refine Fallible.spec_pure ?_
      rw [List.append_nil]
      exact .landed hstop hstatus
    | none =>
      exact (rpc.signAttempt_runs build attempt rest).mono fun u r hsign =>
        .signs hstop hstatus hsign

end Rpc

end YdeltaCrankers
