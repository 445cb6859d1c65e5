import YdeltaCrankers.Rpc.Basic

/-!
# One retry loop for both paths

`send_with_retry` and `send_v0_with_retry` are two copies of one loop that differ in how a
transaction is built from a blockhash.  `Rpc.retryLoop` is that loop with the builder as a
parameter; `Rpc.sendWithRetry_eq` and `Rpc.sendV0WithRetry_eq` are the two copies as instances of
it.  What holds of the loop for every builder is proved once, about `Rpc.retryLoop`.
-/

namespace YdeltaCrankers

open Interaction

namespace Rpc

variable (rpc : Rpc) (sdk : Sdk)

/-- The attempts still to make when `build` makes the transaction to broadcast out of a
blockhash. -/
def retryLoop (build : Hash → Except Failure Transaction) :
    List ℕ → Option Signature → Async Client Signature
  | [], _ => throw (.panic "internal error: entered unreachable code")
  | attempt :: rest, lastSig => do
    if ← rpc.stopped then bail "shutdown signal received before send attempt"
    else match ← landedBefore lastSig with
    | some prev => return prev
    | none => do
      let blockhash ← Client.ask .getLatestBlockhash (orClientErrorWith "get_latest_blockhash")
      let tx ← liftExcept (build blockhash)
      match tx.signatures.head? with
      | none => bail "tx has no signature"
      | some sig =>
        match ← Client.query (.sendAndConfirmTransaction tx) with
        | .ok sig => return sig
        | .error e =>
          if !isTransient e || attempt == 2 then bail s!"send_and_confirm_transaction: {e}"
          else do
            let () ← Client.query (.sleep 500)
            retryLoop build rest (some sig)

/-- What the legacy loop broadcasts on a blockhash. -/
def buildLegacy (allIxs : List Instruction) (signers : List Pubkey) (feePayer : Pubkey)
    (blockhash : Hash) : Except Failure Transaction :=
  .ok (Transaction.newSignedWithPayer sdk allIxs feePayer signers blockhash)

/-- What the v0 loop broadcasts on a blockhash. -/
def buildV0 (allIxs : List Instruction) (luts : List AddressLookupTableAccount)
    (signers : List Pubkey) (feePayer : Pubkey) (blockhash : Hash) :
    Except Failure Transaction :=
  match Message.tryCompile sdk feePayer allIxs luts blockhash with
  | .error e => .error (.error (e.context "v0::Message::try_compile"))
  | .ok msg =>
    match Transaction.tryNew sdk msg signers with
    | .error e => .error (.error (e.context "VersionedTransaction::try_new"))
    | .ok tx => .ok tx

theorem sendAttempts_eq (allIxs : List Instruction) (signers : List Pubkey) (feePayer : Pubkey)
    (attempts : List ℕ) (lastSig : Option Signature) :
    rpc.sendAttempts sdk allIxs signers feePayer attempts lastSig =
      rpc.retryLoop (buildLegacy sdk allIxs signers feePayer) attempts lastSig := by
  induction attempts generalizing lastSig with
  | nil => rfl
  | cons attempt rest ih =>
    simp only [sendAttempts, retryLoop, buildLegacy, ih]
    rfl

theorem sendV0Attempts_eq (allIxs : List Instruction) (luts : List AddressLookupTableAccount)
    (signers : List Pubkey) (feePayer : Pubkey) (attempts : List ℕ) (lastSig : Option Signature) :
    rpc.sendV0Attempts sdk allIxs luts signers feePayer attempts lastSig =
      rpc.retryLoop (buildV0 sdk allIxs luts signers feePayer) attempts lastSig := by
  induction attempts generalizing lastSig with
  | nil => rfl
  | cons attempt rest ih =>
    have step : ∀ blockhash (f : Transaction → Async Client Signature),
        (do
          let msg ← liftContext "v0::Message::try_compile"
            (Message.tryCompile sdk feePayer allIxs luts blockhash)
          let tx ← liftContext "VersionedTransaction::try_new" (Transaction.tryNew sdk msg signers)
          f tx) = liftExcept (buildV0 sdk allIxs luts signers feePayer blockhash) >>= f := by
      intro blockhash f
      unfold buildV0
      cases Message.tryCompile sdk feePayer allIxs luts blockhash with
      | error e => rfl
      | ok msg =>
        change (liftContext _ (Transaction.tryNew sdk msg signers) >>= f) = _
        simp only
        cases Transaction.tryNew sdk msg signers <;> rfl
    simp only [sendV0Attempts, ih, step]
    rfl

/-- The legacy loop is the loop that builds legacy transactions. -/
theorem sendWithRetry_eq (allIxs : List Instruction) (signers : List Pubkey) (feePayer : Pubkey) :
    rpc.sendWithRetry sdk allIxs signers feePayer =
      rpc.retryLoop (buildLegacy sdk allIxs signers feePayer) [0, 1, 2] none :=
  rpc.sendAttempts_eq sdk allIxs signers feePayer _ _

/-- The v0 loop is the loop that builds v0 transactions. -/
theorem sendV0WithRetry_eq (allIxs : List Instruction) (luts : List AddressLookupTableAccount)
    (signers : List Pubkey) (feePayer : Pubkey) :
    rpc.sendV0WithRetry sdk allIxs luts signers feePayer =
      rpc.retryLoop (buildV0 sdk allIxs luts signers feePayer) [0, 1, 2] none :=
  rpc.sendV0Attempts_eq sdk allIxs luts signers feePayer _ _

end Rpc

/-- A call of one of the two retry loops. -/
inductive RetryCall where
  /-- `send_with_retry(all_ixs, signers, fee_payer)`. -/
  | legacy (allIxs : List Instruction) (signers : List Pubkey) (feePayer : Pubkey)
  /-- `send_v0_with_retry(all_ixs, luts, signers, fee_payer)`. -/
  | v0 (allIxs : List Instruction) (luts : List AddressLookupTableAccount)
      (signers : List Pubkey) (feePayer : Pubkey)

namespace RetryCall

/-- The program the call runs. -/
def prog (rpc : Rpc) (sdk : Sdk) : RetryCall → Async Client Signature
  | legacy allIxs signers feePayer => rpc.sendWithRetry sdk allIxs signers feePayer
  | v0 allIxs luts signers feePayer => rpc.sendV0WithRetry sdk allIxs luts signers feePayer

/-- How the call builds the transaction to broadcast. -/
def build (sdk : Sdk) : RetryCall → Hash → Except Failure Transaction
  | legacy allIxs signers feePayer => Rpc.buildLegacy sdk allIxs signers feePayer
  | v0 allIxs luts signers feePayer => Rpc.buildV0 sdk allIxs luts signers feePayer

theorem prog_eq (rpc : Rpc) (sdk : Sdk) (call : RetryCall) :
    call.prog rpc sdk = rpc.retryLoop (call.build sdk) [0, 1, 2] none := by
  cases call with
  | legacy => exact rpc.sendWithRetry_eq sdk _ _ _
  | v0 => exact rpc.sendV0WithRetry_eq sdk _ _ _ _

end RetryCall

namespace Rpc

/-! ### The parts of an attempt -/

section Parts

variable (rpc : Rpc) (build : Hash → Except Failure Transaction) (attempt : ℕ) (rest : List ℕ)

/-- Broadcast a signed transaction; a transient error is followed by the attempts left. -/
def broadcastSigned (tx : Transaction) (sig : Signature) : Async Client Signature := do
  match ← Client.query (.sendAndConfirmTransaction tx) with
  | .ok sig => return sig
  | .error e =>
    if !isTransient e || attempt == 2 then bail s!"send_and_confirm_transaction: {e}"
    else do
      let () ← Client.query (.sleep 500)
      rpc.retryLoop build rest (some sig)

/-- Sign on a blockhash, and broadcast. -/
def signOn (blockhash : Hash) : Async Client Signature := do
  let tx ← liftExcept (build blockhash)
  match tx.signatures.head? with
  | none => bail "tx has no signature"
  | some sig => rpc.broadcastSigned build attempt rest tx sig

/-- The part of an attempt that signs and broadcasts. -/
def signAttempt : Async Client Signature := do
  let blockhash ← Client.ask .getLatestBlockhash (orClientErrorWith "get_latest_blockhash")
  rpc.signOn build attempt rest blockhash

/-- The part of an attempt behind its status query. -/
def unlessLanded : Option Signature → Async Client Signature
  | some prev => return prev
  | none => rpc.signAttempt build attempt rest

theorem retryLoop_cons (lastSig : Option Signature) :
    rpc.retryLoop build (attempt :: rest) lastSig = (do
      if ← rpc.stopped then bail "shutdown signal received before send attempt"
      else landedBefore lastSig >>= rpc.unlessLanded build attempt rest) := rfl

variable {build}

theorem signOn_built {h : Hash} {tx : Transaction} (hb : build h = .ok tx) :
    rpc.signOn build attempt rest h = match tx.signatures.head? with
      | none => bail "tx has no signature"
      | some sig => rpc.broadcastSigned build attempt rest tx sig := by
  unfold signOn
  rw [hb]
  rfl

theorem signOn_eq {h : Hash} {tx : Transaction} {sig : Signature} (hb : build h = .ok tx)
    (hs : tx.signatures.head? = some sig) :
    rpc.signOn build attempt rest h = rpc.broadcastSigned build attempt rest tx sig := by
  rw [rpc.signOn_built attempt rest hb, hs]

theorem signOn_unsigned {h : Hash} {tx : Transaction} (hb : build h = .ok tx)
    (hs : tx.signatures.head? = none) :
    rpc.signOn build attempt rest h = bail "tx has no signature" := by
  rw [rpc.signOn_built attempt rest hb, hs]

end Parts

/-! ### Some runs of the loop -/

section Runs

variable {rpc : Rpc} {build : Hash → Except Failure Transaction} {attempt : ℕ} {rest : List ℕ}
  {h : Hash} {tx : Transaction} {sig : Signature} {t : Client.Trace}
  {p' : Prog Client (Except Failure Signature)}

/-- The broadcast of an attempt is lost, and the loop goes on. -/
theorem retryLoop_reaches_lost {e : ClientError} (hstop : rpc.stop = false)
    (hb : build h = .ok tx) (hs : tx.signatures.head? = some sig) (he : isTransient e = true)
    (ha : attempt ≠ 2) (hr : (rpc.retryLoop build rest (some sig)).run.Reaches t p') :
    (rpc.retryLoop build (attempt :: rest) none).run.Reaches
      (⟨.getLatestBlockhash, .ok h⟩ :: ⟨.sendAndConfirmTransaction tx, .error e⟩ ::
        ⟨.sleep 500, ()⟩ :: t) p' := by
  simp only [retryLoop, stopped, hstop]
  refine ⟨.ok h, rfl, ?_⟩
  change Prog.Reaches (rpc.signOn build attempt rest h).run _ _
  rw [rpc.signOn_eq attempt rest hb hs]
  refine ⟨.error e, rfl, ?_⟩
  change Prog.Reaches (ExceptT.run (if (!isTransient e || attempt == 2) = true then _ else _)) _ _
  rw [if_neg (by simp [he, ha])]
  exact ⟨(), rfl, hr⟩

/-- The status of the lost broadcast is not shown, and the next one is confirmed. -/
theorem retryLoop_reaches_resent {prev sig' : Signature} (hstop : rpc.stop = false)
    (hb : build h = .ok tx) (hs : tx.signatures.head? = some sig) :
    (rpc.retryLoop build (attempt :: rest) (some prev)).run.Reaches
      [⟨.getSignatureStatuses [prev], .ok [none]⟩, ⟨.getLatestBlockhash, .ok h⟩,
        ⟨.sendAndConfirmTransaction tx, .ok sig'⟩] (.ret (.ok sig')) := by
  simp only [retryLoop, stopped, hstop]
  refine ⟨.ok [none], rfl, .ok h, rfl, ?_⟩
  change Prog.Reaches (rpc.signOn build attempt rest h).run _ _
  rw [rpc.signOn_eq attempt rest hb hs]
  exact ⟨.ok sig', rfl, rfl⟩

/-- The lost broadcast shows as landed, and the loop returns it. -/
theorem retryLoop_reaches_landed {prev : Signature} {status : TransactionStatus}
    (hstop : rpc.stop = false) :
    (rpc.retryLoop build (attempt :: rest) (some prev)).run.Reaches
      [⟨.getSignatureStatuses [prev], .ok [some status]⟩] (.ret (.ok prev)) := by
  simp only [retryLoop, stopped, hstop]
  exact ⟨.ok [some status], rfl, rfl⟩

end Runs

end Rpc

end YdeltaCrankers
