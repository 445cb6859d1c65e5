import YdeltaCrankers.Interaction.Rounds
import YdeltaCrankers.Process.Basic

/-!
# The loops the process spawns

`src/handlers/mod.rs`, `src/metrics.rs`, `src/swb_cranker.rs`: each loop polls the stop flag, does
its work, and waits for its interval to pass, polling the flag between naps.

* `Host` : what a loop asks of the process around it: the flags, the clock, a nap, a metric, and
  one run of its work.
* `Daemon.round` : one round of a loop, at its head or in its wait.
* `Daemon.spawn` : the loop, for at most a given number of rounds.

Instants and durations are in nanoseconds.
-/

namespace YdeltaCrankers

open Interaction

/-! ### Metrics -/

def mTicksTotal : String := "ydelta_cranker_ticks_total"
def mTickDuration : String := "ydelta_cranker_tick_duration_seconds"
def mTxFailuresTotal : String := "ydelta_cranker_tx_failures_total"

def failReasonRpc : String := "rpc_error"
def failReasonInsufficientFunds : String := "insufficient_funds"
def failReasonSimFailed : String := "sim_failed"
def failReasonTxRejected : String := "tx_rejected"
def failReasonDecode : String := "decode_error"
def failReasonInternal : String := "internal"

/-- The lower case of a character, as far as a search for ASCII text can tell: the Kelvin sign and
the dotted capital I are the only letters outside of ASCII whose lower case has ASCII in it. -/
def lowerChar (c : Char) : List Char :=
  if c = '\u212A' then ['k']
  else if c = '\u0130' then ['i', '\u0307']
  else [c.toLower]

/-- `text.to_lowercase()`. -/
def toLowercase (text : String) : String := String.ofList (text.toList.flatMap lowerChar)

/-- `format!("{err:#}")`. -/
def Error.alternate (e : Error) : String := ": ".intercalate e.chain

/-- The label of a failed tick. -/
def classifyHandlerError (e : Error) : String :=
  let msg := toLowercase e.alternate
  if containsText msg "insufficient" || containsText msg "lamports"
      || containsText msg "not enough" then failReasonInsufficientFunds
  else if containsText msg "simulation" || containsText msg "simulate" then failReasonSimFailed
  else if containsText msg "blockhash" || containsText msg "send_and_confirm"
      || containsText msg "tx_rejected" then failReasonTxRejected
  else if containsText msg "rpc" || containsText msg "connection" || containsText msg "timed out"
      || containsText msg "reqwest" || containsText msg "http" then failReasonRpc
  else if containsText msg "decode" || containsText msg "deserialize"
      || containsText msg "bytemuck" then failReasonDecode
  else failReasonInternal

/-- `Handler::name`. -/
def HandlerKind.name : HandlerKind → String
  | .promoter => "promoter"
  | .claimer => "claimer"
  | .liquidator => "liquidator"
  | .curatorFeeClaimer => "curator_fee_claimer"
  | .matchCranker => "match_cranker"

/-! ### The process around a loop -/

/-- The loops. -/
inductive Daemon where
  | handler (handler : HandlerKind)
  | solBalance
  | ataBalance
  | bankRefresh
  | swbCrank
deriving DecidableEq

/-- What a loop asks of the process. -/
inductive HostCall where
  /-- `stop.load(Relaxed)`. -/
  | stopRequested
  /-- `fee_payer_low.load(Relaxed)`. -/
  | feePayerLow
  /-- `Instant::now()`. -/
  | now
  /-- `tokio::time::sleep`. -/
  | sleep (nanos : ℕ)
  /-- The work of one iteration, a tick for a handler. -/
  | run (daemon : Daemon)
  /-- `metrics::counter!(name, labels).increment(1)`. -/
  | increment (name : String) (labels : List (String × String))
  /-- `metrics::histogram!(name, labels).record(elapsed)`. -/
  | record (name : String) (labels : List (String × String)) (elapsed : ℕ)
deriving DecidableEq

/-- The reply of each call. -/
abbrev HostCall.Reply : HostCall → Type
  | .stopRequested | .feePayerLow => Bool
  | .now => ℕ
  | .sleep _ | .increment _ _ | .record _ _ _ => Unit
  | .run _ => Except Failure Unit

/-- The process around a loop. -/
abbrev Host : Interface := ⟨HostCall, HostCall.Reply⟩

/-- Make a call. -/
abbrev Host.query (c : HostCall) : Async Host c.Reply := @Fallible.query Host Failure c

theorem host_reply_nonempty (c : HostCall) : Nonempty c.Reply := by
  cases c with
  | stopRequested | feePayerLow => exact ⟨false⟩
  | now => exact ⟨0⟩
  | sleep | increment | record => exact ⟨()⟩
  | run => exact ⟨.ok ()⟩

/-- A second. -/
def second : ℕ := 10 ^ 9

/-- `Instant + Duration`, which panics when the seconds leave an `i64`. -/
def addInstant (instant duration : ℕ) : Except Failure ℕ :=
  if (instant + duration) / second < 2 ^ 63 then .ok (instant + duration)
  else .error (.panic "overflow when adding duration to instant")

/-! ### The loops -/

/-- Where a loop is between two rounds. -/
inductive Phase where
  /-- At the head of the loop. -/
  | head
  /-- In `sleep_until_or_stop`, or in the wait of a supervisor. -/
  | waiting (deadline : ℕ)
  /-- In the wait of the warm-keeper, which counts its naps instead of reading the clock. -/
  | counting (elapsed : ℕ)
deriving DecidableEq

/-- One round of a wait; a stop leads to `onStop`. -/
def sleepUntilOrStop (onStop : Option Phase) (deadline : ℕ) : Async Host (Option Phase) := do
  if ← Host.query .stopRequested then return onStop
  else do
    let now ← Host.query .now
    if deadline ≤ now then return some .head
    else do
      let () ← Host.query (.sleep (min (deadline - now) second))
      return some (.waiting deadline)

/-- One round of the wait of the warm-keeper. -/
def sleepInSteps (interval elapsed : ℕ) : Async Host (Option Phase) :=
  if elapsed < interval then do
    if ← Host.query .stopRequested then return none
    else do
      let () ← Host.query (.sleep (second / 2))
      return some (.counting (elapsed + second / 2))
  else return some .head

namespace HandlerKind

variable (handler : HandlerKind)

/-- Whether the tick is skipped. -/
def skipsTick : Async Host Bool :=
  if handler.requiresFeePayer then Host.query .feePayerLow else return false

/-- Tick, and count an error. -/
def tickOutcome : Async Host String := do
  match ← Host.query (.run (.handler handler)) with
  | .ok () => return "ok"
  | .error (.error e) => do
    let () ← Host.query (.increment mTxFailuresTotal
      [("handler", handler.name), ("reason", classifyHandlerError e)])
    return "err"
  | .error (.panic msg) => throw (.panic msg)

/-- The outcome of an iteration. -/
def outcome (shouldSkipLowBalance : Bool) : Async Host String :=
  if shouldSkipLowBalance then return "paused_low_balance" else handler.tickOutcome

/-- What a supervisor does between the poll at its head and its wait. -/
def superviseOnce (interval : ℕ) : Async Host (Option Phase) := do
  let shouldSkipLowBalance ← handler.skipsTick
  let t0 ← Host.query .now
  let outcome ← handler.outcome shouldSkipLowBalance
  let t1 ← Host.query .now
  let () ← Host.query (.increment mTicksTotal [("handler", handler.name), ("outcome", outcome)])
  let () ← Host.query (.record mTickDuration [("handler", handler.name)] (t1 - t0))
  let now ← Host.query .now
  let deadline ← liftExcept (addInstant now interval)
  return some (.waiting deadline)

end HandlerKind

namespace Daemon

variable (daemon : Daemon) (interval : ℕ)

/-- The work of a loop that is no supervisor; its errors are logged where they arise. -/
def work : Async Host Unit := do
  match ← Host.query (.run daemon) with
  | .ok () => return ()
  | .error err => throw err

/-- What a loop does between the poll at its head and its wait. -/
def once : Async Host (Option Phase) :=
  match daemon with
  | handler h => h.superviseOnce interval
  | swbCrank => do
    let () ← daemon.work
    return some (.counting 0)
  | _ => do
    let () ← daemon.work
    let now ← Host.query .now
    let deadline ← liftExcept (addInstant now interval)
    return some (.waiting deadline)

/-- A supervisor returns from its wait; the other loops go back to their head, and return there. -/
def onStop : Option Phase :=
  match daemon with
  | handler _ => none
  | _ => some .head

/-- One round of the loop. -/
def round : Phase → Async Host (Option Phase)
  | .head => do
    if ← Host.query .stopRequested then return none
    else daemon.once interval
  | .waiting deadline => sleepUntilOrStop daemon.onStop deadline
  | .counting elapsed => sleepInSteps interval elapsed

/-- The loop, for at most `n` rounds; the result is `none` when it has returned. -/
def spawn (n : ℕ) : Async Host (Option Phase) :=
  Fallible.rounds (daemon.round interval) n .head

end Daemon

end YdeltaCrankers
