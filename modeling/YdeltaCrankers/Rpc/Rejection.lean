import YdeltaCrankers.Rpc.Attempt
import YdeltaCrankers.Rpc.Loop

/-!
# Rejected transactions and retries

A transaction that the program or the runtime rejects is rejected for good.  The RPC reports such a
rejection in one of two shapes: as a transaction error, or, when the rejection is found at
preflight, as an error response with the code -32002 and the simulated error in its data.
`is_transient` takes the first shape as final, but it retries the whole range of server codes, in
which only a few are temporary; the code of the second shape is among the others.

* `AttemptRun` : what one attempt of the retry loop broadcasts, and how it ends.
* `ClientError.isTransient_iff` : what the classifier retries may be retried, or is refused.
* `Rejection.never_retried` (**main theorem**): in a run whose first two broadcasts are not refused
  in the range of server codes, a rejection ends the call with an error and without another
  broadcast, and every retry follows an error that may be retried.
-/

namespace YdeltaCrankers

open Interaction

/-! ### One attempt -/

namespace Rpc

open Chain (IsBroadcast)

/-- The runs of an attempt that is followed by the attempts `rest`. -/
inductive AttemptRun (rpc : Rpc) (build : Hash → Except Failure Transaction) (attempt : ℕ)
    (rest : List ℕ) (last : Option Signature) : Client.Trace → Except Failure Signature → Prop
  /-- It fails before it broadcasts. -/
  | failed {t : Client.Trace} {err : Failure} (hquiet : ∀ e ∈ t, ¬ IsBroadcast e) :
      AttemptRun rpc build attempt rest last t (.error err)
  /-- The transaction broadcast last shows as landed. -/
  | landed {t : Client.Trace} {prev : Signature} (hlast : last = some prev)
      (hquiet : ∀ e ∈ t, ¬ IsBroadcast e) :
      AttemptRun rpc build attempt rest last t (.ok prev)
  /-- Its broadcast is confirmed. -/
  | confirmed {t : Client.Trace} {tx : Transaction} {sig : Signature}
      (hquiet : ∀ e ∈ t, ¬ IsBroadcast e) :
      AttemptRun rpc build attempt rest last
        (t ++ [⟨.sendAndConfirmTransaction tx, .ok sig⟩]) (.ok sig)
  /-- Its broadcast fails for good. -/
  | rejected {t : Client.Trace} {tx : Transaction} {e : ClientError} {err : Failure}
      (hquiet : ∀ e ∈ t, ¬ IsBroadcast e) (hend : isTransient e = false ∨ attempt = 2) :
      AttemptRun rpc build attempt rest last
        (t ++ [⟨.sendAndConfirmTransaction tx, .error e⟩]) (.error err)
  /-- Its broadcast fails and the loop goes on. -/
  | retried {t t' : Client.Trace} {tx : Transaction} {sig : Signature} {e : ClientError}
      {r : Except Failure Signature} (hquiet : ∀ e ∈ t, ¬ IsBroadcast e)
      (htransient : isTransient e = true) (hattempt : attempt ≠ 2)
      (hrest : (rpc.retryLoop build rest (some sig)).run.Runs t' r) :
      AttemptRun rpc build attempt rest last
        (t ++ ⟨.sendAndConfirmTransaction tx, .error e⟩ :: ⟨.sleep 500, ()⟩ :: t') r

/-- **The attempts by their broadcasts.** -/
theorem retryLoop_cons_spec (rpc : Rpc) (build : Hash → Except Failure Transaction) (attempt : ℕ)
    (rest : List ℕ) (last : Option Signature) :
    (rpc.retryLoop build (attempt :: rest) last).Spec
      (AttemptRun rpc build attempt rest last) := by
  refine (rpc.retryLoop_runs build attempt rest last).mono fun t r hrun => ?_
  cases hrun with
  | stopped hstop => exact .failed (hstop.forall_mem fun _ => id)
  | landed hstop hstatus =>
    exact .landed hstatus.last_eq (List.forall_mem_append.2
      ⟨hstop.forall_mem fun _ => id, hstatus.forall_mem fun _ _ => id⟩)
  | @signs t₁ t₂ u r hstop hstatus hsign =>
    -- up to the broadcast the attempt reads the flag, a status and a blockhash
    have hquiet : ∀ reply, ∀ e ∈ t₁ ++ (t₂ ++ [(⟨.getLatestBlockhash, reply⟩ : Client.Event)]),
        ¬ IsBroadcast e := fun reply =>
      List.forall_mem_append.2 ⟨hstop.forall_mem fun _ => id, List.forall_mem_append.2
        ⟨hstatus.forall_mem fun _ _ => id, List.forall_mem_singleton.2 id⟩⟩
    have hsplit : ∀ reply (u : Client.Trace), t₁ ++ (t₂ ++ (⟨.getLatestBlockhash, reply⟩ :: u)) =
        (t₁ ++ (t₂ ++ [⟨.getLatestBlockhash, reply⟩])) ++ u := by
      intro reply u
      simp
    cases hsign with
    | noBlockhash | notBuilt | unsigned => exact .failed (hquiet _)
    | confirmed =>
      rw [hsplit]
      exact .confirmed (hquiet _)
    | rejected htx hend =>
      rw [hsplit]
      exact .rejected (hquiet _) hend
    | retried htx hsig htransient hattempt hrest =>
      rw [hsplit]
      exact .retried (hquiet _) htransient hattempt hrest

/-- The stop flag is down, and blockhashes are served. -/
def GoesThrough : Client.Event → Prop
  | ⟨.stopRequested, r⟩ => r = false
  | ⟨.getLatestBlockhash, r⟩ => ∃ blockhash, r = .ok blockhash
  | _ => True

/-- The call reads the stop flag or fetches a blockhash. -/
def Prepares (c : ClientCall) : Prop := c = .stopRequested ∨ c = .getLatestBlockhash

theorem StopRun.goesThrough {t : Client.Trace} {b : Bool} (h : StopRun t (.ok b))
    (hgo : ∀ e ∈ t, GoesThrough e) : b = false := by
  cases h with
  | unset => rfl
  | read b => exact hgo _ List.mem_cons_self

/-- When nothing is in the way, the first attempt broadcasts, and a broadcast that is confirmed ends
the loop. -/
theorem retryLoop_first (rpc : Rpc) {build : Hash → Transaction}
    (hsigned : ∀ blockhash, (build blockhash).signatures ≠ []) (attempt : ℕ) (rest : List ℕ) :
    (rpc.retryLoop (fun blockhash => .ok (build blockhash)) (attempt :: rest) none).Spec
      fun t r => (∀ e ∈ t, GoesThrough e) → ∃ t₀ blockhash reply t₁,
        t = t₀ ++ ⟨.sendAndConfirmTransaction (build blockhash), reply⟩ :: t₁ ∧
          (∀ e ∈ t₀, Prepares e.call) ∧ ∀ sig, reply = .ok sig → t₁ = [] ∧ r = .ok sig := by
  refine (rpc.retryLoop_runs _ attempt rest none).mono fun t r hrun hgo => ?_
  cases hrun with
  -- without a stop and without a signature, the attempt goes on to sign
  | stopped hstop => exact absurd (hstop.goesThrough hgo) nofun
  | landed hstop hstatus => exact nomatch hstatus.last_eq
  | @signs t₀ t₁ u r hstop hstatus hsign =>
    cases hstatus
    have hprepares : ∀ reply, ∀ e ∈ t₀ ++ [(⟨.getLatestBlockhash, reply⟩ : Client.Event)],
        Prepares e.call := fun reply => List.forall_mem_append.2
      ⟨hstop.forall_mem fun _ => .inl rfl, List.forall_mem_singleton.2 (.inr rfl)⟩
    rw [List.nil_append] at hgo ⊢
    cases hsign with
    | noBlockhash =>
      obtain ⟨blockhash, hok⟩ := hgo _ (List.mem_append_right t₀ List.mem_cons_self)
      cases hok
    | notBuilt hbuild => cases hbuild
    | unsigned hbuild hsig =>
      cases hbuild
      exact absurd hsig (hsigned _)
    | confirmed hbuild =>
      cases hbuild
      refine ⟨_, _, _, [], List.append_cons .., hprepares _, ?_⟩
      rintro sig ⟨⟩
      exact ⟨rfl, rfl⟩
    | rejected hbuild | retried hbuild =>
      cases hbuild
      exact ⟨_, _, _, _, List.append_cons .., hprepares _, nofun⟩

/-- A loop that begins without a signature succeeds only by a broadcast. -/
theorem exists_broadcast_of_ok {rpc : Rpc} {build : Hash → Except Failure Transaction}
    {attempts : List ℕ} {t : Client.Trace} {sig : Signature}
    (hrun : (rpc.retryLoop build attempts none).run.Runs t (.ok sig)) :
    ∃ e ∈ t, IsBroadcast e := by
  cases attempts with
  | nil =>
    obtain ⟨-, h⟩ := hrun
    cases h
  | cons attempt rest =>
    cases rpc.retryLoop_cons_spec build attempt rest none t _ hrun with
    | landed hlast hquiet => cases hlast
    | confirmed hquiet => exact ⟨_, List.mem_append_right _ List.mem_cons_self, trivial⟩
    | retried hquiet htransient hattempt hrest =>
      exact ⟨_, List.mem_append_right _ List.mem_cons_self, trivial⟩

end Rpc

/-! ### Rejections -/

namespace ClientError

/-- The node found at preflight that an instruction of the transaction fails. -/
def RejectedAtPreflight (e : ClientError) : Prop :=
  ∃ message index code, e.kind = .rpcError (.rpcResponseError (-32002) message
    (.sendTransactionPreflightFailure (some (.instructionError index code))))

/-- The program or the runtime rejected the transaction for good. -/
def Definitive (e : ClientError) : Prop :=
  (∃ err, e.kind = .transactionError err) ∨ e.RejectedAtPreflight

/-- The codes by which a node cannot serve a request yet: a block that is not available (-32004), a
node that is behind (-32005), a block whose status is not available yet (-32014), a minimum slot
that is not reached (-32016), rewards that are still being paid (-32017). -/
def temporaryCodes : List ℤ := [-32004, -32005, -32014, -32016, -32017]

/-- The node does not know the blockhash: the client says so, or the preflight found it. -/
inductive BlockhashNotFound (e : ClientError) : Prop
  | said (msg : String) (h : e.kind = .rpcError (.forUser msg))
      (hmsg : containsText msg "Blockhash not found" = true)
  | preflight (message : String) (h : e.kind = .rpcError (.rpcResponseError (-32002) message
      (.sendTransactionPreflightFailure (some .blockhashNotFound))))

/-- A transport error, a blockhash the node does not know, or a temporary error of the server. -/
inductive MayRetry (e : ClientError) : Prop
  | io (msg : String) (h : e.kind = .io msg)
  | reqwest (msg : String) (h : e.kind = .reqwest msg)
  | blockhashNotFound (h : e.BlockhashNotFound)
  | serverError (code : ℤ) (message : String) (data : RpcResponseErrorData)
      (h : e.kind = .rpcError (.rpcResponseError code message data))
      (hcode : code ∈ temporaryCodes)

/-- An error response with a server code that is neither temporary nor about the blockhash: a
signature that does not verify, a failed preflight, an unsupported transaction. -/
inductive Refused (e : ClientError) : Prop
  | serverError (code : ℤ) (message : String) (data : RpcResponseErrorData)
      (h : e.kind = .rpcError (.rpcResponseError code message data))
      (hrange : -32099 ≤ code ∧ code ≤ -32000) (hcode : code ∉ temporaryCodes)
      (hblockhash : ¬ e.BlockhashNotFound)

theorem RejectedAtPreflight.refused {e : ClientError} (h : e.RejectedAtPreflight) :
    e.Refused := by
  obtain ⟨message, index, code, h⟩ := h
  refine .serverError _ _ _ h (by decide) (by decide) ?_
  rintro (⟨msg, h', -⟩ | ⟨message', h'⟩)
  all_goals
    rw [h] at h'
    cases h'

theorem isTransient_of_blockhashNotFound {e : ClientError} (h : e.BlockhashNotFound) :
    isTransient e = true := by
  rcases h with ⟨msg, h, hmsg⟩ | ⟨message, h⟩
  · rw [isTransient, h]
    exact hmsg
  · rw [isTransient, h]
    rfl

/-- **The classifier retries too much.**  What it takes as transient may be retried, or is an error
response by which the node has refused the transaction. -/
theorem isTransient_iff (e : ClientError) : isTransient e = true ↔ e.MayRetry ∨ e.Refused := by
  constructor
  · intro h
    by_cases hblockhash : e.BlockhashNotFound
    · exact .inl (.blockhashNotFound hblockhash)
    unfold isTransient at h
    split at h
    · rename_i msg hkind
      exact .inl (.io msg hkind)
    · rename_i msg hkind
      exact .inl (.reqwest msg hkind)
    · rename_i msg hkind
      exact absurd (.said msg hkind h) hblockhash
    · rename_i code message data hkind
      by_cases hcode : code ∈ temporaryCodes
      · exact .inl (.serverError code message data hkind hcode)
      · exact .inr (.serverError code message data hkind (of_decide_eq_true h) hcode hblockhash)
    · cases h
  · rintro ((⟨msg, h⟩ | ⟨msg, h⟩ | h | ⟨code, message, data, h, hcode⟩) |
      ⟨code, message, data, h, hrange⟩)
    · rw [isTransient, h]
    · rw [isTransient, h]
    · exact isTransient_of_blockhashNotFound h
    · -- every temporary code lies in the range
      have hrange : ∀ code ∈ temporaryCodes, -32099 ≤ code ∧ code ≤ -32000 := by decide
      rw [isTransient, h]
      exact decide_eq_true (hrange code hcode)
    · rw [isTransient, h]
      exact decide_eq_true hrange

/-- A rejection that the classifier takes as transient is refused. -/
theorem Definitive.refused {e : ClientError} (h : e.Definitive)
    (htransient : isTransient e = true) : e.Refused := by
  rcases h with ⟨err, h⟩ | h
  · rw [isTransient, h] at htransient
    cases htransient
  · exact h.refused

end ClientError

instance : DecidablePred Chain.IsBroadcast
  | ⟨.sendAndConfirmTransaction _, _⟩ => .isTrue trivial
  | ⟨.stopRequested, _⟩ | ⟨.getSignatureStatuses _, _⟩ | ⟨.getLatestBlockhash, _⟩
  | ⟨.simulateTransaction _, _⟩ | ⟨.getAccount _, _⟩ | ⟨.getMultipleAccounts _, _⟩
  | ⟨.getProgramAccounts _ _, _⟩ | ⟨.getBalance _, _⟩ | ⟨.getSlot, _⟩ | ⟨.sleep _, _⟩ => .isFalse id

namespace Rejection

open Chain (IsBroadcast)

/-- The event is a broadcast that is rejected for good. -/
def Rejects : Client.Event → Prop
  | ⟨.sendAndConfirmTransaction _, .error e⟩ => e.Definitive
  | _ => False

/-- The event is a broadcast that is refused. -/
def Refuses : Client.Event → Prop
  | ⟨.sendAndConfirmTransaction _, .error e⟩ => e.Refused
  | _ => False

/-- The event is a broadcast whose failure may be retried. -/
def FailsForNow : Client.Event → Prop
  | ⟨.sendAndConfirmTransaction _, .error e⟩ => e.MayRetry
  | _ => False

/-- The event belongs to another attempt to land a transaction: every attempt signs on a blockhash
it fetches, and then broadcasts. -/
def Attempts : Client.Event → Prop
  | ⟨.getLatestBlockhash, _⟩ | ⟨.sendAndConfirmTransaction _, _⟩ => True
  | _ => False

/-- A rejection ends the call with an error, and nothing is signed or broadcast after it. -/
def EndsAtRejection (t : Client.Trace) (r : Except Failure Signature) : Prop :=
  ∀ t₁ e t₂, t = t₁ ++ e :: t₂ → Rejects e →
    (∃ err, r = .error err) ∧ ∀ x ∈ t₂, ¬ Attempts x

/-- Every broadcast that is followed by another one has failed for now. -/
def RetriesOnlyFailures (t : Client.Trace) : Prop :=
  ∀ t₁ e t₂, t = t₁ ++ e :: t₂ → IsBroadcast e → (∃ x ∈ t₂, IsBroadcast x) → FailsForNow e

/-- The number of broadcasts. -/
def broadcasts (t : Client.Trace) : ℕ := t.countP fun e => decide (IsBroadcast e)

/-- A broadcast is refused only after at least `n` others. -/
def NoRefusalBefore (n : ℕ) (t : Client.Trace) : Prop :=
  ∀ t₁ e t₂, t = t₁ ++ e :: t₂ → Refuses e → n ≤ broadcasts t₁

theorem broadcasts_of_quiet {t : Client.Trace} (h : ∀ e ∈ t, ¬ IsBroadcast e) :
    broadcasts t = 0 := by
  rw [broadcasts, List.countP_eq_zero]
  intro e he
  simp [h e he]

theorem Rejects.isBroadcast {e : Client.Event} (h : Rejects e) : IsBroadcast e := by
  obtain ⟨c, r⟩ := e
  cases c
  case sendAndConfirmTransaction tx => trivial
  all_goals exact h.elim

/-- Counting past the first broadcast of a trace. -/
theorem broadcasts_append_cons {t t₁ : Client.Trace} {tx : Transaction}
    {r : Except ClientError Signature} (hquiet : ∀ x ∈ t, ¬ IsBroadcast x) :
    broadcasts (t ++ ⟨.sendAndConfirmTransaction tx, r⟩ :: ⟨.sleep 500, ()⟩ :: t₁) =
      broadcasts t₁ + 1 := by
  have hzero := broadcasts_of_quiet hquiet
  rw [broadcasts] at hzero ⊢
  rw [List.countP_append, hzero, List.countP_cons, List.countP_cons, Nat.zero_add]
  rfl

/-- A trace without a broadcast meets no rejection and retries nothing. -/
theorem ends_of_quiet {t : Client.Trace} (r : Except Failure Signature)
    (hquiet : ∀ x ∈ t, ¬ IsBroadcast x) : EndsAtRejection t r ∧ RetriesOnlyFailures t := by
  constructor
  · rintro t₁ e t₂ rfl hrejects
    exact absurd hrejects.isBroadcast (hquiet e (List.mem_append_right _ List.mem_cons_self))
  · rintro t₁ e t₂ rfl hbroadcast
    exact absurd hbroadcast (hquiet e (List.mem_append_right _ List.mem_cons_self))

/-- A trace whose only broadcast comes last ends at it. -/
theorem ends_of_last {t : Client.Trace} {b : Client.Event} {r : Except Failure Signature}
    (hquiet : ∀ x ∈ t, ¬ IsBroadcast x) (hb : Rejects b → ∃ err, r = .error err) :
    EndsAtRejection (t ++ [b]) r ∧ RetriesOnlyFailures (t ++ [b]) := by
  have hlast : ∀ {e : Client.Event} {t₁ t₂ : Client.Trace}, IsBroadcast e →
      t ++ [b] = t₁ ++ e :: t₂ → e = b ∧ t₂ = [] := by
    intro e t₁ t₂ he h
    rcases split_first hquiet he h with ⟨-, he, ht⟩ | ⟨s, -, hs⟩
    · exact ⟨he, ht⟩
    · simp at hs
  constructor
  · intro t₁ e t₂ h hrejects
    obtain ⟨rfl, rfl⟩ := hlast hrejects.isBroadcast h
    exact ⟨hb hrejects, List.forall_mem_nil _⟩
  · intro t₁ e t₂ h hbroadcast hmore
    obtain ⟨-, rfl⟩ := hlast hbroadcast h
    obtain ⟨x, hx, -⟩ := hmore
    exact absurd hx List.not_mem_nil

/-- **The attempts still to make end at a rejection**, unless a broadcast but that of the last one
is refused. -/
theorem retryLoop_ends (rpc : Rpc) (build : Hash → Except Failure Transaction)
    (attempts : List ℕ) {last : Option Signature} {t : Client.Trace}
    {r : Except Failure Signature} (hrun : (rpc.retryLoop build attempts last).run.Runs t r)
    (hpre : NoRefusalBefore (attempts.length - 1) t) :
    EndsAtRejection t r ∧ RetriesOnlyFailures t := by
  induction attempts generalizing last t with
  | nil =>
    obtain ⟨rfl, rfl⟩ := hrun
    exact ends_of_quiet _ (List.forall_mem_nil _)
  | cons attempt rest ih =>
    cases rpc.retryLoop_cons_spec build attempt rest last t r hrun with
    | failed hquiet => exact ends_of_quiet _ hquiet
    | landed hlast hquiet => exact ends_of_quiet _ hquiet
    | confirmed hquiet => exact ends_of_last hquiet False.elim
    | @rejected t tx e err hquiet hend => exact ends_of_last hquiet fun _ => ⟨err, rfl⟩
    | @retried t t' tx sig e r hquiet htransient hattempt hrest =>
      -- what the attempts after this one meet, counted from their own beginning
      have hpre' : NoRefusalBefore (rest.length - 1) t' := by
        rintro t₁ x t₂ rfl hx
        have hcount := hpre (t ++ ⟨.sendAndConfirmTransaction tx, .error e⟩ ::
          ⟨.sleep 500, ()⟩ :: t₁) x t₂ (by simp) hx
        rw [broadcasts_append_cons hquiet, List.length_cons] at hcount
        omega
      obtain ⟨hends, honly⟩ := ih hrest hpre'
      -- this attempt was retried, so it is refused only if it is the last one
      have hthis : e.Refused → rest = [] := by
        intro hrefused
        have hcount := hpre t ⟨.sendAndConfirmTransaction tx, .error e⟩ _ rfl hrefused
        rw [broadcasts_of_quiet hquiet, List.length_cons] at hcount
        exact List.eq_nil_of_length_eq_zero (by omega)
      have hlater : ∀ {x : Client.Event} {s t₂ : Client.Trace}, IsBroadcast x →
          ⟨.sleep 500, ()⟩ :: t' = s ++ x :: t₂ → ∃ s', t' = s' ++ x :: t₂ := by
        intro x s t₂ hx hs
        cases s with
        | nil =>
          cases hs
          exact hx.elim
        | cons y s' =>
          cases hs
          exact ⟨s', rfl⟩
      constructor
      · intro t₁ x t₂ h hrejects
        rcases split_first hquiet hrejects.isBroadcast h with ⟨-, rfl, rfl⟩ | ⟨s, -, hs⟩
        · obtain rfl := hthis (ClientError.Definitive.refused hrejects htransient)
          obtain ⟨rfl, rfl⟩ := hrest
          exact ⟨⟨_, rfl⟩, List.forall_mem_singleton.2 id⟩
        · obtain ⟨s', hs'⟩ := hlater hrejects.isBroadcast hs
          exact hends s' x t₂ hs' hrejects
      · intro t₁ x t₂ h hbroadcast hmore
        rcases split_first hquiet hbroadcast h with ⟨-, rfl, rfl⟩ | ⟨s, -, hs⟩
        · refine ((ClientError.isTransient_iff e).1 htransient).resolve_right fun hrefused => ?_
          obtain rfl := hthis hrefused
          obtain ⟨rfl, rfl⟩ := hrest
          obtain ⟨y, hy, hby⟩ := hmore
          rw [List.mem_singleton] at hy
          subst hy
          exact hby
        · obtain ⟨s', hs'⟩ := hlater hbroadcast hs
          exact honly s' x t₂ hs' hbroadcast hmore

/-- **A definitive rejection is never retried**, in a run of either retry loop whose first two
broadcasts are not refused: no server code but the temporary ones, and but for an unknown
blockhash. -/
theorem never_retried (rpc : Rpc) (sdk : Sdk) (call : RetryCall) {t : Client.Trace}
    {r : Except Failure Signature} (hrun : (call.prog rpc sdk).run.Runs t r)
    (hpre : NoRefusalBefore 2 t) : EndsAtRejection t r ∧ RetriesOnlyFailures t := by
  rw [RetryCall.prog_eq] at hrun
  exact retryLoop_ends rpc (call.build sdk) [0, 1, 2] hrun hpre

/-- The node answers a broadcast with a program error. -/
def programError : ClientError := ⟨.transactionError (.instructionError 2 6001), "program error"⟩

/-- The node finds a program error at preflight. -/
def preflightError : ClientError :=
  ⟨.rpcError (.rpcResponseError (-32002) "Transaction simulation failed"
    (.sendTransactionPreflightFailure (some (.instructionError 2 6001)))), "preflight failure"⟩

/-- The node is behind at the first broadcast, and the next one is rejected: the call ends there. -/
theorem never_retried_sample : ∃ t r,
    ((RetryCall.v0 [] [] [.zero 32] (.zero 32)).prog ⟨0, 200000, false⟩ .plain).run.Runs t r ∧
      broadcasts t = 2 ∧ (∃ e ∈ t, Rejects e) ∧ EndsAtRejection t r ∧ RetriesOnlyFailures t := by
  let h : Hash := .zero 32
  let tx : Transaction := ⟨[plainSignature h], ⟨.v0, .zero 32, [], [], h⟩⟩
  let behind : ClientError :=
    ⟨.rpcError (.rpcResponseError (-32005) "Node is behind by 90 slots" .nodeUnhealthy), "behind"⟩
  let t : Client.Trace := [⟨.getLatestBlockhash, .ok h⟩,
    ⟨.sendAndConfirmTransaction tx, .error behind⟩, ⟨.sleep 500, ()⟩,
    ⟨.getSignatureStatuses [plainSignature h], .ok [none]⟩, ⟨.getLatestBlockhash, .ok h⟩,
    ⟨.sendAndConfirmTransaction tx, .error programError⟩]
  let r : Except Failure Signature :=
    .error (.error (.anyhow s!"send_and_confirm_transaction: {programError}"))
  have hrun : ((RetryCall.v0 [] [] [.zero 32] (.zero 32)).prog
      ⟨0, 200000, false⟩ .plain).run.Runs t r :=
    ⟨.ok h, _, rfl, .error behind, _, rfl, (), _, rfl, .ok [none], _, rfl, .ok h, _, rfl,
      .error programError, _, rfl, rfl, rfl⟩
  have hrejects : ∃ e ∈ t, Rejects e :=
    ⟨⟨.sendAndConfirmTransaction tx, .error programError⟩, by simp [t], .inl ⟨_, rfl⟩⟩
  have hpre : NoRefusalBefore 2 t := by
    intro t₁ e t₂ ht he
    have hmem : e ∈ t := ht ▸ List.mem_append_right _ List.mem_cons_self
    simp only [t, List.mem_cons, List.not_mem_nil, or_false] at hmem
    rcases hmem with rfl | rfl | rfl | rfl | rfl | rfl
    case inr.inl =>
      obtain ⟨_, _, _, h, _, hcode, _⟩ := he
      cases h
      exact absurd (by decide) hcode
    case inr.inr.inr.inr.inr =>
      obtain ⟨_, _, _, h⟩ := he
      cases h
    all_goals exact he.elim
  exact ⟨t, r, hrun, rfl, hrejects, never_retried _ _ _ hrun hpre⟩

/-- The promise without the condition. -/
def NeverRetried (rpc : Rpc) (sdk : Sdk) (call : RetryCall) : Prop :=
  ∀ t r, (call.prog rpc sdk).run.Runs t r → EndsAtRejection t r ∧ RetriesOnlyFailures t

/-- Both loops sign and broadcast again after a program error found at preflight. -/
theorem not_neverRetried :
    ¬ NeverRetried ⟨0, 200000, false⟩ .plain (.legacy [] [.zero 32] (.zero 32)) ∧
    ¬ NeverRetried ⟨0, 200000, false⟩ .plain (.v0 [] [] [.zero 32] (.zero 32)) := by
  have retries : ∀ call : RetryCall, (∃ tx, call.build .plain (.zero 32) = .ok tx ∧
      tx.signatures.head? = some (plainSignature (.zero 32))) →
      ¬ NeverRetried ⟨0, 200000, false⟩ .plain call := by
    intro call hcall hnever
    obtain ⟨tx, hb, hs⟩ := hcall
    have hstop : (⟨0, 200000, false⟩ : Rpc).stop = false := rfl
    have hresent := @Rpc.retryLoop_reaches_resent _ _ 1 [2] _ _ _ (plainSignature (.zero 32))
      (plainSignature (.zero 32)) hstop hb hs
    have hrun := (@Rpc.retryLoop_reaches_lost _ _ 0 [1, 2] _ _ _ _ _ preflightError hstop hb hs
      rfl (by decide) hresent).runs ⟨rfl, rfl⟩
    rw [List.append_nil, ← RetryCall.prog_eq] at hrun
    obtain ⟨⟨err, herr⟩, -⟩ := (hnever _ _ hrun).1 [⟨.getLatestBlockhash, .ok (.zero 32)⟩]
      ⟨.sendAndConfirmTransaction tx, .error preflightError⟩ _ rfl (.inr ⟨_, _, _, rfl⟩)
    cases herr
  exact ⟨retries _ ⟨_, rfl, rfl⟩, retries _ ⟨_, rfl, rfl⟩⟩

end Rejection

end YdeltaCrankers
