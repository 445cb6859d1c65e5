import YdeltaCrankers.Solana.Client
import Mathlib.Data.List.Infix

/-!
# `src/rpc.rs`: sending, simulating, retrying

The functions of `Rpc`, as programs over the Solana client.

* `Rpc.simulate`, `Rpc.simulateV0` : free dry runs.
* `Rpc.sendWithRetry`, `Rpc.sendV0WithRetry` : the two retry loops, three attempts each, with a
  signature-status query before every attempt but the first.
* `Rpc.sendSignedLabeled`, `Rpc.sendSignedV0Labeled` : what the handlers call; they prepend the
  compute-budget preamble.
-/

namespace YdeltaCrankers

open Interaction

/-- `haystack.contains(needle)`. -/
def containsText (haystack needle : String) : Bool := decide (needle.toList <:+: haystack.toList)

/-- The sending half of the process: fee settings, and whether a stop flag is attached. -/
structure Rpc where
  priorityFeeMicroLamports : UInt64
  computeUnitLimit : UInt32
  /-- `stop.is_some()`. -/
  stop : Bool

/-- CU limit of the v0 path. -/
def v0ComputeUnitLimit : UInt32 := 1400000

/-- Safe-to-retry against definitive errors. -/
def isTransient (e : ClientError) : Bool :=
  match e.kind with
  | .io _ | .reqwest _ => true
  | .rpcError (.forUser msg) => containsText msg "Blockhash not found"
  | .rpcError (.rpcResponseError code _ _) => decide (-32099 ≤ code ∧ code ≤ -32000)
  | _ => false

/-- `Transaction::new_signed_with_payer`; a keypair is modelled by its public key. -/
def Transaction.newSignedWithPayer (sdk : Sdk) (ixs : List Instruction) (payer : Pubkey)
    (signers : List Pubkey) (blockhash : Hash) : Transaction :=
  let message : Message := ⟨.legacy, payer, ixs, [], blockhash⟩
  ⟨signers.map fun s => sdk.sign s message, message⟩

/-- `v0::Message::try_compile`. -/
def Message.tryCompile (sdk : Sdk) (payer : Pubkey) (ixs : List Instruction)
    (luts : List AddressLookupTableAccount) (blockhash : Hash) : Except Error Message :=
  match sdk.compileError payer ixs luts blockhash with
  | none => .ok ⟨.v0, payer, ixs, luts, blockhash⟩
  | some e => .error e

/-- `VersionedTransaction::try_new`. -/
def Transaction.tryNew (sdk : Sdk) (message : Message) (signers : List Pubkey) :
    Except Error Transaction :=
  match sdk.signError message signers with
  | none => .ok ⟨signers.map fun s => sdk.sign s message, message⟩
  | some e => .error e

/-- What a simulation reports. -/
structure SimulationResult where
  ok : Bool
  error : Option TransactionError
  logs : List String
deriving DecidableEq

namespace Rpc

variable (rpc : Rpc) (sdk : Sdk)

/-- Read the stop flag, if there is one. -/
def stopped : Async Client Bool := if rpc.stop then Client.query .stopRequested else pure false

/-- The compute-budget preamble. -/
def priorityFeePreamble (cuLimit : UInt32) : List Instruction :=
  if 0 < rpc.priorityFeeMicroLamports then
    [.setComputeUnitLimit cuLimit, .setComputeUnitPrice rpc.priorityFeeMicroLamports]
  else [.setComputeUnitLimit cuLimit]

/-- The data of an account; missing and empty accounts are both `none`. -/
def getAccountData (pk : Pubkey) : Async Client (Option (List UInt8)) := do
  match ← Client.query (.getAccount pk) with
  | .ok acct => return if acct.data.isEmpty then none else some acct.data
  | .error e =>
    if containsText e.display "AccountNotFound" then return none
    else throw (.error e.toError)

/-! ### Simulating -/

/-- Simulate a v0 message of exactly these instructions. -/
def simulateV0 (ixs : List Instruction) (luts : List AddressLookupTableAccount)
    (feePayer : Pubkey) : Async Client SimulationResult := do
  let blockhash ← Client.ask .getLatestBlockhash orClientError
  let msg ← liftError (Message.tryCompile sdk feePayer ixs luts blockhash)
  let tx : Transaction := ⟨List.replicate (sdk.numRequiredSignatures msg) default, msg⟩
  let result ← Client.ask (.simulateTransaction tx) orClientError
  return ⟨result.err.isNone, result.err, result.logs.getD []⟩

/-- Simulate with the compute-budget preamble of the routine send path. -/
def simulate (ixs : List Instruction) (feePayer : Pubkey) : Async Client SimulationResult :=
  simulateV0 sdk (rpc.priorityFeePreamble rpc.computeUnitLimit ++ ixs) [] feePayer

/-! ### The retry loops -/

/-- The idempotency check at the head of an attempt: the signature of the last attempt, if its
transaction shows as landed.  Any status counts, and a failed query counts as not landed. -/
def landedBefore : Option Signature → Async Client (Option Signature)
  | none => pure none
  | some prev => do
    match ← Client.query (.getSignatureStatuses [prev]) with
    | .ok resp =>
      match resp.head? with
      | some (some _status) => return some prev
      | _ => return none
    | .error _ => return none

/-- The attempts of `send_with_retry` still to make; `lastSig` is the signature of the last
transaction broadcast. -/
def sendAttempts (allIxs : List Instruction) (signers : List Pubkey) (feePayer : Pubkey) :
    List ℕ → Option Signature → Async Client Signature
  | [], _ => throw (.panic "internal error: entered unreachable code")
  | attempt :: rest, lastSig => do
    if ← rpc.stopped then bail "shutdown signal received before send attempt"
    else match ← landedBefore lastSig with
    | some prev => return prev
    | none => do
      let blockhash ← Client.ask .getLatestBlockhash (orClientErrorWith "get_latest_blockhash")
      let tx := Transaction.newSignedWithPayer sdk allIxs feePayer signers blockhash
      match tx.signatures.head? with
      | none => bail "tx has no signature"
      | some sig =>
        match ← Client.query (.sendAndConfirmTransaction tx) with
        | .ok sig => return sig
        | .error e =>
          if !isTransient e || attempt == 2 then bail s!"send_and_confirm_transaction: {e}"
          else do
            let () ← Client.query (.sleep 500)
            sendAttempts allIxs signers feePayer rest (some sig)

/-- The retry loop of legacy transactions. -/
def sendWithRetry (allIxs : List Instruction) (signers : List Pubkey) (feePayer : Pubkey) :
    Async Client Signature :=
  rpc.sendAttempts sdk allIxs signers feePayer [0, 1, 2] none

/-- The attempts of `send_v0_with_retry` still to make. -/
def sendV0Attempts (allIxs : List Instruction) (luts : List AddressLookupTableAccount)
    (signers : List Pubkey) (feePayer : Pubkey) :
    List ℕ → Option Signature → Async Client Signature
  | [], _ => throw (.panic "internal error: entered unreachable code")
  | attempt :: rest, lastSig => do
    if ← rpc.stopped then bail "shutdown signal received before send attempt"
    else match ← landedBefore lastSig with
    | some prev => return prev
    | none => do
      let blockhash ← Client.ask .getLatestBlockhash (orClientErrorWith "get_latest_blockhash")
      let msg ← liftContext "v0::Message::try_compile"
        (Message.tryCompile sdk feePayer allIxs luts blockhash)
      let tx ← liftContext "VersionedTransaction::try_new" (Transaction.tryNew sdk msg signers)
      match tx.signatures.head? with
      | none => bail "tx has no signature"
      | some sig =>
        match ← Client.query (.sendAndConfirmTransaction tx) with
        | .ok sig => return sig
        | .error e =>
          if !isTransient e || attempt == 2 then bail s!"send_and_confirm_transaction: {e}"
          else do
            let () ← Client.query (.sleep 500)
            sendV0Attempts allIxs luts signers feePayer rest (some sig)

/-- The retry loop of v0 transactions. -/
def sendV0WithRetry (allIxs : List Instruction) (luts : List AddressLookupTableAccount)
    (signers : List Pubkey) (feePayer : Pubkey) : Async Client Signature :=
  rpc.sendV0Attempts sdk allIxs luts signers feePayer [0, 1, 2] none

/-! ### What the handlers call -/

/-- Send a legacy transaction of the preamble and `ixs`; the first signer pays. -/
def sendSignedLabeled (_ixLabel : String) (ixs : List Instruction) (signers : List Pubkey) :
    Async Client Signature :=
  match signers with
  | [] => bail "send_signed: no signers"
  | feePayer :: _ =>
    rpc.sendWithRetry sdk (rpc.priorityFeePreamble rpc.computeUnitLimit ++ ixs) signers feePayer

/-- Send a v0 transaction of the preamble and `ixs`; the first signer pays. -/
def sendSignedV0Labeled (_ixLabel : String) (ixs : List Instruction)
    (luts : List AddressLookupTableAccount) (signers : List Pubkey) : Async Client Signature :=
  match signers with
  | [] => bail "send_signed_v0: no signers"
  | feePayer :: _ =>
    rpc.sendV0WithRetry sdk (rpc.priorityFeePreamble v0ComputeUnitLimit ++ ixs) luts signers
      feePayer

end Rpc

end YdeltaCrankers
