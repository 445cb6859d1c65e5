import YdeltaCrankers.Discovery.Basic

/-!
# `src/config.rs`: settings and the live registry

The settings the handlers read, and the three ways to reach the live registry: the overwriting
discovery at boot, the merge-only refresh, and the snapshot.
-/

namespace YdeltaCrankers

open Interaction

/-- Handler settings. -/
structure HandlersConfig where
  matchCrankerMaxFills : UInt32

/-- Threshold settings; durations are in seconds. -/
structure ThresholdsConfig where
  minLiquidationProfitAtoms : UInt64
  maturityExtraBuffer : UInt64
  minCuratorFeeClaimAtoms : UInt64

/-- The settings of the process. -/
structure Config where
  programId : Pubkey
  marginfiProgramId : Pubkey
  marginfiGroup : Pubkey
  minSignerBalanceLamports : UInt64
  handlers : HandlersConfig
  thresholds : ThresholdsConfig

namespace Config

variable (cfg : Config) (sdk : Sdk) (y : Ydelta)

/-- The reader of the configured program. -/
def chain : ChainReader := ⟨cfg.programId⟩

/-- Discovery at boot: overwrites the registry. -/
def discoverBanksFromMarkets : Async Service Unit := do
  let fresh ← BankRegistry.discoverFromMarkets sdk cfg.marginfiProgramId y cfg.chain
  if ← Service.process (.banksSet fresh) then return ()
  else bail "banks RwLock poisoned"

/-- Merge-only refresh: new mints are added, entries there are stay. -/
def refreshBanks : Async Service Unit := do
  let fresh ← BankRegistry.discoverFromMarkets sdk cfg.marginfiProgramId y cfg.chain
  if fresh.isEmpty then return ()
  else if ← Service.process (.banksMerge fresh) then return ()
  else bail "banks RwLock poisoned"

/-- The registry as it is now. -/
def banksSnapshot : Async Service BankRegistry := do
  match ← Service.process .banksRead with
  | some registry => return registry
  | none => return default

end Config

end YdeltaCrankers
