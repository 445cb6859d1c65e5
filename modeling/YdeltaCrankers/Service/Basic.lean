import YdeltaCrankers.Rpc.Basic
import YdeltaCrankers.State.BankRegistry
import YdeltaCrankers.State.Markets

/-!
# What the handlers call

The handlers and the loops beside them are programs over `Service`.  Its calls are the methods of
`Rpc`, the client calls made without them, and the calls that stay inside the process: its locks
and flags, the clock and the Switchboard gateways.

The methods of `Rpc` are programs over the client themselves: `RpcCall.prog` says which, and
`Service.implement` puts them in the place of the calls.
-/

namespace YdeltaCrankers

open Interaction

/-- A Switchboard gateway. -/
structure Gateway where
  url : String
deriving DecidableEq

/-- What a gateway returns: the update instructions and their lookup tables. -/
abbrev SwbBundle := List Instruction × List AddressLookupTableAccount

/-- The keys of the in-flight sets.  Each handler has a set of its own; here they are one set of
tagged keys. -/
inductive InflightKey where
  | promoter (market : Pubkey) (sequence : UInt64)
  | claimer (market vault : Pubkey) (subVaultId : UInt16)
  | liquidator (loan : Pubkey)
  | curatorFeeClaimer (vault : Pubkey) (subVaultId : UInt16)
  | matchCranker (market : Pubkey)
deriving DecidableEq

/-- The calls that stay inside the process, and those to the Switchboard gateways. -/
inductive ProcessCall where
  /-- `now_unix()`. -/
  | nowUnix
  /-- Insert a key into its in-flight set; the reply says whether it was new. -/
  | claimInflight (key : InflightKey)
  /-- Remove a key from its in-flight set. -/
  | releaseInflight (key : InflightKey)
  /-- Read the registry; `none` is a poisoned lock. -/
  | banksRead
  /-- Overwrite the registry; `false` is a poisoned lock. -/
  | banksSet (fresh : BankRegistry)
  /-- Merge into the registry; `false` is a poisoned lock. -/
  | banksMerge (fresh : BankRegistry)
  | marketsCacheGet
  | marketsCacheStale
  | marketsCachePut (markets : List MarketView)
  /-- Read the `fee_payer_low` flag. -/
  | feePayerLow
  | setFeePayerLow (low : Bool)
  /-- `QueueAccountData::load` and `fetch_gateways`. -/
  | fetchGateways (queue : Pubkey)
  /-- `PullFeed::fetch_update_consensus_ix`. -/
  | fetchUpdateConsensusIx (gateway : Gateway) (feeds : List Pubkey) (payer : Pubkey)
deriving DecidableEq

/-- The reply of each of them. -/
abbrev ProcessCall.Reply : ProcessCall → Type
  | .nowUnix => Int64
  | .claimInflight _ => Bool
  | .releaseInflight _ => Unit
  | .banksRead => Option BankRegistry
  | .banksSet _ => Bool
  | .banksMerge _ => Bool
  | .marketsCacheGet => Option (List MarketView)
  | .marketsCacheStale => Option (List MarketView)
  | .marketsCachePut _ => Unit
  | .feePayerLow => Bool
  | .setFeePayerLow _ => Unit
  | .fetchGateways _ => Except Error (List Gateway)
  | .fetchUpdateConsensusIx _ _ _ => Except Error SwbBundle

/-- The methods of `Rpc`. -/
inductive RpcCall where
  | getAccountData (pk : Pubkey)
  | simulate (ixs : List Instruction) (feePayer : Pubkey)
  | simulateV0 (ixs : List Instruction) (luts : List AddressLookupTableAccount)
      (feePayer : Pubkey)
  | sendSignedLabeled (ixLabel : String) (ixs : List Instruction) (signers : List Pubkey)
  | sendSignedV0Labeled (ixLabel : String) (ixs : List Instruction)
      (luts : List AddressLookupTableAccount) (signers : List Pubkey)
deriving DecidableEq

/-- What each of them returns. -/
abbrev RpcCall.Result : RpcCall → Type
  | .getAccountData _ => Option (List UInt8)
  | .simulate _ _ => SimulationResult
  | .simulateV0 _ _ _ => SimulationResult
  | .sendSignedLabeled _ _ _ => Signature
  | .sendSignedV0Labeled _ _ _ _ => Signature

/-- The calls of a handler. -/
inductive ServiceCall where
  | rpc (c : RpcCall)
  | client (c : ClientCall)
  | process (c : ProcessCall)
deriving DecidableEq

/-- The reply of each of them. -/
abbrev ServiceCall.Reply : ServiceCall → Type
  | .rpc c => Except Failure c.Result
  | .client c => c.Reply
  | .process c => c.Reply

/-- What the handlers call. -/
abbrev Service : Interface := ⟨ServiceCall, ServiceCall.Reply⟩

namespace Service

/-- `rpc.method(..).await?`. -/
abbrev rpc (c : RpcCall) : Async Service c.Result :=
  @Fallible.ask Service Failure c.Result (.rpc c) id

/-- Make a client call; `conv` says which replies are failures. -/
abbrev client {α : Type} (c : ClientCall) (conv : c.Reply → Except Failure α) : Async Service α :=
  @Fallible.ask Service Failure α (.client c) conv

/-- Make a call inside the process. -/
abbrev process (c : ProcessCall) : Async Service c.Reply :=
  @Fallible.query Service Failure (.process c)

/-- `match rpc.method(..).await`: errors are returned as values. -/
abbrev caught {α : Type} (x : Async Service α) : Async Service (Except Error α) :=
  x.attempt Failure.caught

end Service

/-- The reply that refuses a call. -/
def ProcessCall.refused : (c : ProcessCall) → c.Reply
  | .nowUnix => 0
  | .claimInflight _ | .banksSet _ | .banksMerge _ | .feePayerLow => false
  | .banksRead | .marketsCacheGet | .marketsCacheStale => none
  | .releaseInflight _ | .marketsCachePut _ | .setFeePayerLow _ => ()
  | .fetchGateways _ | .fetchUpdateConsensusIx _ _ _ => .error (.anyhow "refused")

/-- The reply that refuses a call. -/
def ServiceCall.refused : (c : ServiceCall) → c.Reply
  | .rpc _ => .error (.error (.anyhow "refused"))
  | .client c => c.refused
  | .process c => c.refused

theorem service_reply_nonempty (c : ServiceCall) : Nonempty c.Reply := ⟨c.refused⟩

end YdeltaCrankers
