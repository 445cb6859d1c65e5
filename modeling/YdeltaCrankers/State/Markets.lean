import YdeltaCrankers.Ydelta

/-!
# `src/chain_reader.rs`: views and the market cache

The rows the chain reader hands out, and the cell that caches the market list.  The reader
itself is in `YdeltaCrankers.ChainReader`.
-/

namespace YdeltaCrankers

/-- A market, as the handlers see it. -/
structure MarketView where
  address : Pubkey
  debtMint : Pubkey
  collateralMint : Pubkey
  debtBank : Pubkey
  collateralBank : Pubkey
  isPaused : Bool
  admin : Pubkey
  gracePeriodSeconds : UInt32
  liquidationKeeperBps : UInt16
  liquidationProtocolBps : UInt16
deriving DecidableEq

/-- A market that lends the first mint against the second one. -/
def sampleMarket : MarketView where
  address := .fill 32 31
  debtMint := .fill 32 1
  collateralMint := .fill 32 2
  debtBank := .fill 32 11
  collateralBank := .fill 32 12
  isPaused := false
  admin := .zero 32
  gracePeriodSeconds := 0
  liquidationKeeperBps := 0
  liquidationProtocolBps := 0

/-- A loan, as the handlers see it. -/
structure LoanView where
  address : Pubkey
  market : Pubkey
  state : UInt8
  loanType : UInt8
  principalDebtAtoms : UInt64
  outstandingDebtAtoms : UInt64
  maturesAtUnix : Int64
  matchedLoanSequence : UInt64
  lenderKind : UInt8
  lenderGlobalVault : Pubkey
  lenderSubVaultId : UInt16
  borrowerRateBps : UInt16
  lenderRateBps : UInt16
deriving DecidableEq

/-- The loan draws on a pool. -/
def LoanView.isP2pool (y : Ydelta) (loan : LoanView) : Bool := loan.loanType == y.loanTypeP2Pool

/-- A matched loan waiting to be promoted. -/
structure PendingMatchedLoan where
  market : Pubkey
  sequence : UInt64
  flags : UInt8
  loanType : UInt8
  lenderSeatIndex : DataIndex
  borrowerSeatIndex : DataIndex
  principalAtoms : UInt64
  originationAtoms : UInt64
deriving DecidableEq

namespace PendingMatchedLoan

variable (y : Ydelta) (entry : PendingMatchedLoan)

/-- The lender is a vault. -/
def hasVaultLender : Bool := entry.flags &&& y.matchedLoanFlagVaultLender != 0

/-- The vault's principal has already moved. -/
def isVaultPresettled : Bool := entry.flags &&& y.matchedLoanFlagVaultPresettled != 0

def isP2pool : Bool := entry.loanType == y.loanTypeP2Pool

end PendingMatchedLoan

/-- A seat of a market. -/
structure SeatView where
  owner : Pubkey
  ownerKind : UInt8
  subVaultId : UInt16
deriving DecidableEq

/-- A sub-vault of a global vault. -/
structure SubVaultView where
  vault : Pubkey
  vaultMint : Pubkey
  vaultBank : Pubkey
  subVaultId : UInt16
  curator : Pubkey
  accumulatedCuratorFeeAtoms : UInt64
  vaultIsPaused : Bool
  pendingClaimAtoms : UInt64
  isSunset : Bool
deriving DecidableEq

/-- A vault-owned seat with shares to sweep. -/
structure PendingVaultClaim where
  market : Pubkey
  debtMint : Pubkey
  debtBank : Pubkey
  lenderGlobalVault : Pubkey
  subVaultId : UInt16
  debtWithdrawableShares : BitVec 128
deriving DecidableEq

/-! ### The market cache -/

/-- How long a snapshot is fresh, in milliseconds. -/
def marketCacheTtl : ℕ := 30000

/-- The last market list stored, with the time it was stored at. -/
structure MarketCache where
  fetchedAt : ℕ
  markets : List MarketView
deriving DecidableEq

namespace MarketCache

/-- `markets_cache_get`: the snapshot, while it is fresh. -/
def fresh (cache : Option MarketCache) (now : ℕ) : Option (List MarketView) :=
  match cache with
  | some c => if now - c.fetchedAt < marketCacheTtl then some c.markets else none
  | none => none

/-- `markets_cache_stale`: the snapshot, fresh or not. -/
def stale (cache : Option MarketCache) : Option (List MarketView) :=
  cache.map MarketCache.markets

theorem fresh_eq_some {cache : Option MarketCache} {now : ℕ} {markets : List MarketView}
    (h : fresh cache now = some markets) : ∃ c, cache = some c ∧ c.markets = markets := by
  cases cache with
  | none => cases h
  | some c =>
    rw [fresh] at h
    split at h
    · exact ⟨c, rfl, Option.some.inj h⟩
    · cases h

end MarketCache

end YdeltaCrankers
