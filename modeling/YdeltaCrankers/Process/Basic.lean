import YdeltaCrankers.Handlers.Liquidator
import YdeltaCrankers.Handlers.Promoter
import YdeltaCrankers.Handlers.Claimer
import YdeltaCrankers.Handlers.MatchCranker
import YdeltaCrankers.Handlers.CuratorFeeClaimer

/-!
# `src/main.rs`: the process

The process boots, then runs its loops side by side: the supervisors of the handlers
(`src/handlers/mod.rs`), the balance loop and the bank refresh loop (`src/metrics.rs`), and the
Switchboard warm-keeper (`src/swb_cranker.rs`).

* `boot` : what `main` does before it spawns anything.
* `Task` : one iteration of one of the loops, or a single call of `list_markets` or
  `refresh_banks`.
* `runTasks` : a loop, as the list of its iterations.

How long a loop sleeps and when it stops is left open: a loop can be any list of tasks.
-/

namespace YdeltaCrankers

open Interaction

/-! ### Booting -/

/-- The Switchboard On-Demand queue of mainnet. -/
def defaultSwbQueue : Pubkey where
  toList := [134, 128, 112, 104, 67, 47, 24, 106, 20, 124, 240, 177, 58, 48, 6, 125, 56, 98, 4,
    234, 157, 108, 139, 4, 116, 58, 194, 239, 1, 11, 7, 82]
  length_eq := rfl

section Boot

variable (cfg : Config) (sdk : Sdk) (y : Ydelta) (signers : Signers)

/-- The curators' token accounts; a failure is logged. -/
def ensureCuratorAtas : List Pubkey → Async Service Unit
  | [] => return ()
  | curator :: curators => do
    let banks ← Config.banksSnapshot
    let _ensured ← Service.caught (banks.ensureAtasFor sdk curator)
    ensureCuratorAtas curators

/-- The Switchboard cranker, if a pull feed is known and its queue loads. -/
def bootSwbCranker (swbQueue : Pubkey) : Async Service (Option SwbCranker) := do
  let banks ← Config.banksSnapshot
  if banks.hasSwitchboardPull then do
    match ← Service.caught (SwbCranker.new swbQueue signers.feePayer) with
    | .ok cranker => return some cranker
    | .error _ => return none
  else return none

/-- What `main` does before it spawns the loops. -/
def boot (swbQueue : Pubkey) : Async Service HandlerContext := do
  let () ← withContext "discover_banks_from_markets failed" (cfg.discoverBanksFromMarkets sdk y)
  let banks ← Config.banksSnapshot
  let () ← withContext "ensure_atas_for failed" (banks.ensureAtasFor sdk signers.feePayer)
  let () ← ensureCuratorAtas sdk signers.curators
  let _slot ← Service.client .getSlot orClientError
  let swbCranker ← bootSwbCranker signers swbQueue
  return { cfg := cfg, sdk := sdk, y := y, signers := signers, swbCranker := swbCranker }

end Boot

/-! ### The loops -/

/-- The handlers. -/
inductive HandlerKind where
  | promoter
  | claimer
  | liquidator
  | curatorFeeClaimer
  | matchCranker
deriving DecidableEq

namespace HandlerKind

/-- `Handler::requires_fee_payer`. -/
def requiresFeePayer : HandlerKind → Bool
  | .curatorFeeClaimer => false
  | _ => true

/-- `Handler::tick`. -/
def tick (ctx : HandlerContext) : HandlerKind → Async Service Unit
  | .promoter => PromoterHandler.tick ctx
  | .claimer => ClaimerHandler.tick ctx
  | .liquidator => LiquidatorHandler.tick ctx
  | .curatorFeeClaimer => CuratorFeeClaimerHandler.tick ctx
  | .matchCranker => MatchCrankerHandler.tick ctx

/-- The tick is skipped while the fee payer is low. -/
def shouldSkipLowBalance (handler : HandlerKind) : Async Service Bool :=
  if handler.requiresFeePayer then Service.process .feePayerLow else return false

/-- One iteration of a handler's supervisor; an error of the tick is logged. -/
def supervise (ctx : HandlerContext) (handler : HandlerKind) : Async Service Unit := do
  if ← handler.shouldSkipLowBalance then return ()
  else do
    let _outcome ← Service.caught (handler.tick ctx)
    return ()

end HandlerKind

section Loops

variable (ctx : HandlerContext)

/-- One iteration of the balance loop. -/
def solBalanceLoop : Async Service Unit := do
  match ← Service.client (.getBalance ctx.signers.feePayer) .ok with
  | .error _ => return ()
  | .ok lamports => do
    let wasLow ← Service.process .feePayerLow
    let isLow := decide (lamports < ctx.cfg.minSignerBalanceLamports)
    if isLow != wasLow then Service.process (.setFeePayerLow isLow) else return ()

/-- One iteration of the bank refresh loop; an error is logged. -/
def bankRefreshLoop : Async Service Unit := do
  let _refreshed ← Service.caught (ctx.cfg.refreshBanks ctx.sdk ctx.y)
  return ()

/-- One iteration of the Switchboard warm-keeper; it is not spawned without a cranker. -/
def swbCrankLoop : Async Service Unit :=
  match ctx.swbCranker with
  | none => return ()
  | some cranker => do
    let banks ← Config.banksSnapshot
    let oracles := banks.switchboardPullOracles
    if oracles.isEmpty then return ()
    else do
      let _sig ← Service.caught (cranker.crank ctx.sdk oracles)
      return ()

/-- What a loop does in one iteration. -/
inductive Task where
  | supervise (handler : HandlerKind)
  | solBalance
  | bankRefresh
  | swbCrank
  /-- A call of `list_markets`, outside of any handler. -/
  | listMarkets
deriving DecidableEq

/-- The program of a task. -/
def Task.run : Task → Async Service Unit
  | .supervise handler => handler.supervise ctx
  | .solBalance => solBalanceLoop ctx
  | .bankRefresh => bankRefreshLoop ctx
  | .swbCrank => swbCrankLoop ctx
  | .listMarkets => do
    let _markets ← Service.caught (ctx.chain.listMarkets ctx.y)
    return ()

/-- A loop, as the list of its iterations. -/
def runTasks : List Task → Async Service Unit
  | [] => return ()
  | task :: tasks => do
    let () ← task.run ctx
    runTasks tasks

end Loops

end YdeltaCrankers
