import YdeltaCrankers.Interaction.Spec
import YdeltaCrankers.Solana.Types

/-!
# The Solana RPC client

The interface of the crankers to the outside: the calls of `solana_client`'s `RpcClient`, and
beside them the two things the sending code asks of the process itself, the stop flag and a
sleep.  Any reply of the right type is possible; what a network can answer is a matter of the
environment (`YdeltaCrankers.Rpc.Network`).
-/

namespace YdeltaCrankers

open Interaction

/-- A filter of `getProgramAccounts`. -/
inductive RpcFilterType where
  /-- The account data has `size` bytes. -/
  | dataSize (size : ℕ)
  /-- The account data has `bytes` at `offset`. -/
  | memcmp (offset : ℕ) (bytes : List UInt8)
deriving DecidableEq

/-- The calls. -/
inductive ClientCall where
  /-- Read the stop flag. -/
  | stopRequested
  | getSignatureStatuses (signatures : List Signature)
  | getLatestBlockhash
  | sendAndConfirmTransaction (tx : Transaction)
  /-- Simulate without checking signatures, on a fresh blockhash. -/
  | simulateTransaction (tx : Transaction)
  | getAccount (pk : Pubkey)
  | getMultipleAccounts (pks : List Pubkey)
  | getProgramAccounts (programId : Pubkey) (filters : List RpcFilterType)
  | getBalance (pk : Pubkey)
  | getSlot
  | sleep (millis : ℕ)
deriving DecidableEq

/-- The reply of each call. -/
abbrev ClientCall.Reply : ClientCall → Type
  | .stopRequested => Bool
  | .getSignatureStatuses _ => Except ClientError (List (Option TransactionStatus))
  | .getLatestBlockhash => Except ClientError Hash
  | .sendAndConfirmTransaction _ => Except ClientError Signature
  | .simulateTransaction _ => Except ClientError RpcSimulateTransactionResult
  | .getAccount _ => Except ClientError Account
  | .getMultipleAccounts _ => Except ClientError (List (Option Account))
  | .getProgramAccounts _ _ => Except ClientError (List (Pubkey × Account))
  | .getBalance _ => Except ClientError UInt64
  | .getSlot => Except ClientError UInt64
  | .sleep _ => Unit

/-- The Solana RPC client, the stop flag and the timer. -/
abbrev Client : Interface := ⟨ClientCall, ClientCall.Reply⟩

/-- An asynchronous function: a program over `I` that returns, fails with an error or panics. -/
abbrev Async (I : Interface) (α : Type) := Fallible I Failure α

namespace Client

/-- Make a client call and take its reply, whatever it is. -/
abbrev query (c : ClientCall) : Async Client c.Reply :=
  @Fallible.query Client Failure c

/-- Make a client call; `conv` says which replies are failures. -/
abbrev ask {α : Type} (c : ClientCall) (conv : c.Reply → Except Failure α) : Async Client α :=
  @Fallible.ask Client Failure α c conv

end Client

/-- `client_call.await?`. -/
def orClientError {α : Type} : Except ClientError α → Except Failure α
  | .ok a => .ok a
  | .error e => .error (.error e.toError)

/-- `client_call.await.context(msg)?`. -/
def orClientErrorWith {α : Type} (msg : String) : Except ClientError α → Except Failure α
  | .ok a => .ok a
  | .error e => .error (.error (e.toError.context msg))

/-- Go on with a result computed without calls, or fail as it did. -/
def liftExcept {I : Interface} {α : Type} (r : Except Failure α) : Async I α := ExceptT.mk (.ret r)

/-- `result?` inside an asynchronous function. -/
def liftError {I : Interface} {α : Type} (r : Except Error α) : Async I α :=
  liftExcept (orError r)

/-- `result.context(msg)?` inside an asynchronous function. -/
def liftContext {I : Interface} {α : Type} (msg : String) (r : Except Error α) : Async I α :=
  liftError (r.mapError (Error.context msg))

/-- `future.await.context(msg)?`. -/
def withContext {I : Interface} {α : Type} (msg : String) (x : Async I α) : Async I α :=
  x.mapError (Failure.context msg)

/-- `bail!(msg)`. -/
def bail {I : Interface} {α : Type} (msg : String) : Async I α := throw (.error (.anyhow msg))

/-- The reply that refuses a call. -/
def ClientCall.refused : (c : ClientCall) → c.Reply
  | .stopRequested => false
  | .sleep _ => ()
  | .getSignatureStatuses _ | .getLatestBlockhash | .sendAndConfirmTransaction _
  | .simulateTransaction _ | .getAccount _ | .getMultipleAccounts _ | .getProgramAccounts _ _
  | .getBalance _ | .getSlot => .error ⟨.custom "refused", "refused"⟩

end YdeltaCrankers
