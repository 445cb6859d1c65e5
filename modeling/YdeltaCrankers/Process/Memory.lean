import YdeltaCrankers.Interaction.Concurrent
import YdeltaCrankers.Process.Basic
import Mathlib.Data.Finset.Basic

/-!
# The memory of the process

What the loops of the process share: the bank registry, the market cache, the in-flight sets and
the `fee_payer_low` flag.  `Memory.env` answers the calls that stay inside the process from it;
chain and gateways answer anything.  No lock is ever poisoned: a panic ends the process.

Two fields of `Memory` are history, which the code never reads: the market rows fetched so far,
and the accounts known to exist because a reply showed them or a transaction created them.

A `Launch` is a run of the process up to the point where it spawns its loops, a `ProcessRun` goes
on from there.
-/

namespace YdeltaCrankers

open Interaction

/-- What the loops share. -/
structure Memory where
  /-- `cfg.banks`. -/
  banks : BankRegistry
  /-- `chain.markets_cache`. -/
  marketsCache : Option MarketCache
  /-- The clock of the cache, in milliseconds. -/
  clock : ℕ
  /-- The in-flight sets of all handlers. -/
  inflight : Finset InflightKey
  feePayerLow : Bool
  /-- History: the market rows fetched so far. -/
  fetched : List MarketView
  /-- History: the accounts known to exist. -/
  known : List Pubkey

/-- The account an instruction creates, if it is one of `ensure_atas_for`. -/
def Instruction.createdAta : Instruction → Option Pubkey
  | .raw programId accounts data =>
    if programId = ataProgramId ∧ data = [1] then (accounts[1]?).map AccountMeta.pubkey else none
  | _ => none

namespace Memory

/-- The process starts. -/
def start (clock : ℕ) : Memory where
  banks := default
  marketsCache := none
  clock := clock
  inflight := ∅
  feePayerLow := false
  fetched := []
  known := []

/-- The market rows a reply to `getProgramAccounts` brings. -/
def fetchedRows (y : Ydelta) (filters : List RpcFilterType)
    (r : Except ClientError (List (Pubkey × Account))) : List MarketView :=
  if filters = [.memcmp 0 (leBytes 8 y.marketFixedDiscriminant.toNat)] then
    match r with
    | .ok accounts => y.decodeMarkets accounts
    | .error _ => []
  else []

/-- The accounts a reply to `getMultipleAccounts` shows to exist. -/
def shownAccounts (pks : List Pubkey) (r : Except ClientError (List (Option Account))) :
    List Pubkey :=
  match r with
  | .ok accounts => (pks.zip accounts).filterMap fun (pk, acct) => acct.map fun _ => pk
  | .error _ => []

/-- The accounts a send creates. -/
def createdAtas (ixs : List Instruction) (r : Except Failure Signature) : List Pubkey :=
  match r with
  | .ok _ => ixs.filterMap Instruction.createdAta
  | .error _ => []

variable (y : Ydelta)

/-- The memory after the reply to a call. -/
def after (s : Memory) : (c : ServiceCall) → c.Reply → Memory
  | .process (.claimInflight key), _ => { s with inflight := insert key s.inflight }
  | .process (.releaseInflight key), _ => { s with inflight := s.inflight.erase key }
  | .process (.banksSet fresh), _ => { s with banks := fresh }
  | .process (.banksMerge fresh), _ => { s with banks := s.banks.mergeFrom fresh }
  | .process (.marketsCachePut markets), _ =>
    { s with marketsCache := some ⟨s.clock, markets⟩ }
  | .process (.setFeePayerLow low), _ => { s with feePayerLow := low }
  | .client (.getProgramAccounts _ filters), r =>
    { s with fetched := s.fetched ++ fetchedRows y filters r }
  | .client (.getMultipleAccounts pks), r => { s with known := s.known ++ shownAccounts pks r }
  | .rpc (.sendSignedLabeled _ ixs _), r => { s with known := s.known ++ createdAtas ixs r }
  | _, _ => s

/-- The replies memory can give; all others are arbitrary. -/
def Allows (s : Memory) : (c : ServiceCall) → c.Reply → Prop
  | .process (.claimInflight key), r => r = decide (key ∉ s.inflight)
  | .process .banksRead, r => r = some s.banks
  | .process (.banksSet _), r => r = true
  | .process (.banksMerge _), r => r = true
  | .process .marketsCacheGet, r => r = MarketCache.fresh s.marketsCache s.clock
  | .process .marketsCacheStale, r => r = MarketCache.stale s.marketsCache
  | .process .feePayerLow, r => r = s.feePayerLow
  | _, _ => True

/-- Time passes. -/
def Tick (s s' : Memory) : Prop := ∃ clock, s.clock ≤ clock ∧ s' = { s with clock := clock }

/-- The memory as an environment of the loops. -/
def env : Env Service Memory := ⟨Tick, fun s c r s' => s.Allows c r ∧ s' = s.after y c r⟩

end Memory

/-! ### Runs of the process -/

/-- A run of the process up to the point where it spawns its loops. -/
structure Launch (cfg : Config) (sdk : Sdk) (y : Ydelta) (signers : Signers) where
  swbQueue : Pubkey
  clock : ℕ
  /-- What happened during the boot. -/
  trace : List (Memory × Service.Event)
  /-- The memory after the boot. -/
  booted : Memory
  /-- What the loops are given. -/
  ctx : HandlerContext
  runs : (boot cfg sdk y signers swbQueue).run.Runs (trace.map Prod.snd) (.ok ctx)
  timeline : (Memory.env y).Timeline (Memory.start clock) trace booted

/-- A run of the process: a boot, then any number of loops side by side, any of them stopped
anywhere. -/
structure ProcessRun (cfg : Config) (sdk : Sdk) (y : Ydelta) (signers : Signers) extends
    Launch cfg sdk y signers where
  /-- The iterations of each loop. -/
  loops : ℕ → List Task
  /-- What happened after the boot, and in which loop. -/
  events : List (ℕ × Memory × Service.Event)
  /-- What is left of each loop. -/
  rest : ℕ → Prog Service (Except Failure Unit)
  /-- The memory reached. -/
  reached : Memory
  interleaving : (Memory.env y).Interleaving (fun i => (runTasks ctx (loops i)).run) booted events
    rest reached

/-! ### Computed runs -/

/-- Memory answers what it can, and `chain` the rest. -/
def Memory.reply (chain : (c : ServiceCall) → c.Reply) (s : Memory) : (c : ServiceCall) → c.Reply
  | .process (.claimInflight key) => decide (key ∉ s.inflight)
  | .process .banksRead => some s.banks
  | .process (.banksSet _) => true
  | .process (.banksMerge _) => true
  | .process .marketsCacheGet => MarketCache.fresh s.marketsCache s.clock
  | .process .marketsCacheStale => MarketCache.stale s.marketsCache
  | .process .feePayerLow => s.feePayerLow
  | c => chain c

theorem Memory.allows_reply (chain : (c : ServiceCall) → c.Reply) (s : Memory) (c : ServiceCall) :
    s.Allows c (s.reply chain c) := by
  cases c with
  | rpc c => trivial
  | client c => trivial
  | process c => cases c <;> first | rfl | trivial

/-- Run a program from a memory, with the replies of `chain`. -/
def Memory.exec {α : Type} (y : Ydelta) (chain : (c : ServiceCall) → c.Reply) (p : Prog Service α)
    (s : Memory) : List (Memory × Service.Event) × α × Memory :=
  Env.exec (Memory.reply chain) (Memory.after y) p s

theorem Memory.timeline_exec {α : Type} (y : Ydelta) (chain : (c : ServiceCall) → c.Reply)
    (p : Prog Service α) (s : Memory) :
    (Memory.env y).Timeline s (s.exec y chain p).1 (s.exec y chain p).2.2 :=
  Env.timeline_exec (E := Memory.env y) (fun s c => ⟨s.allows_reply chain c, rfl⟩) p s

section

variable (cfg : Config) (sdk : Sdk) (y : Ydelta) (signers : Signers)

/-- The boot from an empty memory at time 0. -/
def bootExec (chain : (c : ServiceCall) → c.Reply) :
    List (Memory × Service.Event) × Except Failure HandlerContext × Memory :=
  (Memory.start 0).exec y chain (boot cfg sdk y signers defaultSwbQueue).run

/-- The run of the process in which `chain` answers the boot, which succeeds. -/
def Launch.compute (chain : (c : ServiceCall) → c.Reply) (ctx : HandlerContext)
    (h : (bootExec cfg sdk y signers chain).2.1 = .ok ctx) : Launch cfg sdk y signers where
  swbQueue := defaultSwbQueue
  clock := 0
  trace := (bootExec cfg sdk y signers chain).1
  booted := (bootExec cfg sdk y signers chain).2.2
  ctx := ctx
  runs := h ▸ Env.runs_exec _ _
  timeline := Memory.timeline_exec y chain _ _

/-- The run of the process in which `chain` answers a boot that succeeds. -/
def Launch.ofBoot (chain : (c : ServiceCall) → c.Reply)
    (h : (bootExec cfg sdk y signers chain).2.1.isOk = true) : Launch cfg sdk y signers :=
  match hboot : (bootExec cfg sdk y signers chain).2.1 with
  | .ok ctx => Launch.compute cfg sdk y signers chain ctx hboot
  | .error _ => absurd h (by rw [hboot]; nofun)

variable {cfg sdk y signers}

/-- The run that goes on with one loop, in which `chain` answers. -/
def Launch.continue (launch : Launch cfg sdk y signers) (chain : (c : ServiceCall) → c.Reply)
    (tasks : List Task) : ProcessRun cfg sdk y signers where
  toLaunch := launch
  loops := fun i => if i = 0 then tasks else []
  events := (launch.booted.exec y chain (runTasks launch.ctx tasks).run).1.map fun x => (0, x)
  rest := Function.update (fun i => (runTasks launch.ctx (if i = 0 then tasks else [])).run) 0
    (.ret (launch.booted.exec y chain (runTasks launch.ctx tasks).run).2.1)
  reached := (launch.booted.exec y chain (runTasks launch.ctx tasks).run).2.2
  interleaving := Env.interleaving_of_timeline 0 (Memory.timeline_exec y chain _ _)
    (Env.runs_exec _ _).reaches

/-- The run that goes on with these loops, one call each in the order of the schedule, in which
`chain` answers. -/
def Launch.interleave (launch : Launch cfg sdk y signers) (chain : (c : ServiceCall) → c.Reply)
    (loops : ℕ → List Task) (schedule : List ℕ) : ProcessRun cfg sdk y signers where
  toLaunch := launch
  loops := loops
  events := (Env.scheduled (Memory.reply chain) (Memory.after y) schedule
    (fun i => (runTasks launch.ctx (loops i)).run) launch.booted).1
  rest := (Env.scheduled (Memory.reply chain) (Memory.after y) schedule
    (fun i => (runTasks launch.ctx (loops i)).run) launch.booted).2.1
  reached := (Env.scheduled (Memory.reply chain) (Memory.after y) schedule
    (fun i => (runTasks launch.ctx (loops i)).run) launch.booted).2.2
  interleaving := Env.interleaving_scheduled (E := Memory.env y)
    (fun s c => ⟨s.allows_reply chain c, rfl⟩) _ _ _

end

end YdeltaCrankers
