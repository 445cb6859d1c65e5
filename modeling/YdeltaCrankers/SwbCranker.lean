import YdeltaCrankers.Service.Basic

/-!
# `src/swb_cranker.rs`: Switchboard updates

The cranker asks the gateways of a queue for update instructions, one gateway after the other
until one answers.  `SwbCranker.fetchUpdateIxs` returns the bundle to its caller;
`SwbCranker.crank` sends it in a transaction of its own.
-/

namespace YdeltaCrankers

open Interaction

/-- The gateways of a queue, and the key that pays. -/
structure SwbCranker where
  gateways : List Gateway
  payer : Pubkey
deriving DecidableEq

namespace SwbCranker

/-- Load the queue and its gateways. -/
def new (swbQueue payer : Pubkey) : Async Service SwbCranker := do
  match ← Service.process (.fetchGateways swbQueue) with
  | .error e => throw (.error e)
  | .ok gateways =>
    if gateways.isEmpty then bail "no on-chain switchboard gateways"
    else return ⟨gateways, payer⟩

variable (cranker : SwbCranker) (sdk : Sdk)

/-- Ask one gateway for an update of these feeds. -/
def fetchUpdateVia (oracles : List Pubkey) (gateway : Gateway) : Async Service SwbBundle := do
  match ← Service.process (.fetchUpdateConsensusIx gateway oracles cranker.payer) with
  | .ok bundle => return bundle
  | .error e => bail s!"swb fetch_update_consensus_ix: {e}"

/-- The text of the last error, empty if there was none. -/
def lastErrText (lastErr : Option Error) : String := (lastErr.map toString).getD ""

/-- Ask the gateways left, in order. -/
def fetchUpdateFrom (oracles : List Pubkey) :
    List Gateway → Option Error → Async Service SwbBundle
  | [], lastErr =>
    bail s!"all {cranker.gateways.length} switchboard gateways failed: {lastErrText lastErr}"
  | gateway :: rest, _ => do
    match ← Service.caught (cranker.fetchUpdateVia oracles gateway) with
    | .ok bundle => return bundle
    | .error e => fetchUpdateFrom oracles rest (some e)

/-- Build, without sending, the update bundle of these feeds. -/
def fetchUpdateIxs (oracles : List Pubkey) : Async Service SwbBundle :=
  if oracles.isEmpty then return ([], [])
  else cranker.fetchUpdateFrom oracles cranker.gateways none

/-- Send an update of these feeds through one gateway. -/
def tryCrank (oracles : List Pubkey) (gateway : Gateway) : Async Service Signature := do
  let (ixs, luts) ← cranker.fetchUpdateVia oracles gateway
  let blockhash ← Service.client .getLatestBlockhash orClientError
  let msg ← liftError (Message.tryCompile sdk cranker.payer ixs luts blockhash)
  let tx ← liftError (Transaction.tryNew sdk msg [cranker.payer])
  Service.client (.sendAndConfirmTransaction tx) orClientError

/-- Send an update through the gateways left, in order. -/
def crankFrom (oracles : List Pubkey) :
    List Gateway → Option Error → Async Service (Option Signature)
  | [], lastErr =>
    bail s!"all {cranker.gateways.length} switchboard gateways failed: {lastErrText lastErr}"
  | gateway :: rest, _ => do
    match ← Service.caught (cranker.tryCrank sdk oracles gateway) with
    | .ok sig => return some sig
    | .error e => crankFrom oracles rest (some e)

/-- Post a fresh update of these feeds in one transaction. -/
def crank (oracles : List Pubkey) : Async Service (Option Signature) :=
  if oracles.isEmpty then return none
  else cranker.crankFrom sdk oracles cranker.gateways none

end SwbCranker

end YdeltaCrankers
