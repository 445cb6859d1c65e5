import YdeltaCrankers.Service.Basic
import Mathlib.Data.List.Sort

/-!
# `src/chain_reader.rs`: reading the chain

`getProgramAccounts` and tree walks against the ydelta program, and the cached market list.
-/

namespace YdeltaCrankers

open Interaction

/-- `{:#x}`. -/
def hexText (n : ℕ) : String := String.ofList ('0' :: 'x' :: Nat.toDigits 16 n)

/-! ### Decoding -/

def MarketView.ofFixed (address : Pubkey) (fixed : MarketFixed) : MarketView where
  address := address
  debtMint := fixed.debtMint
  collateralMint := fixed.collateralMint
  debtBank := fixed.debtLendingPool
  collateralBank := fixed.collateralLendingPool
  isPaused := fixed.isPaused != 0
  admin := fixed.admin
  gracePeriodSeconds := fixed.feeConfig.gracePeriodSeconds
  liquidationKeeperBps := fixed.feeConfig.liquidationKeeperBps
  liquidationProtocolBps := fixed.feeConfig.liquidationProtocolBps

def LoanView.ofFixed (address : Pubkey) (loan : LoanFixed) : LoanView where
  address := address
  market := loan.market
  state := loan.state
  loanType := loan.loanType
  principalDebtAtoms := loan.principalDebtAtoms
  outstandingDebtAtoms := loan.outstandingDebtAtoms
  maturesAtUnix := loan.maturesAtUnix
  matchedLoanSequence := loan.matchedLoanSequence
  lenderKind := loan.lenderKind
  lenderGlobalVault := loan.lenderGlobalVault
  lenderSubVaultId := loan.lenderSubVaultId
  borrowerRateBps := loan.borrowerRateBps
  lenderRateBps := loan.lenderRateBps

def SubVaultView.ofFixed (vault : Pubkey) (header : GlobalVaultFixed) (subVault : SubVault) :
    SubVaultView where
  vault := vault
  vaultMint := header.mint
  vaultBank := header.lendingPool
  subVaultId := subVault.subVaultId
  curator := subVault.curator
  accumulatedCuratorFeeAtoms := subVault.accumulatedCuratorFeeAtoms
  vaultIsPaused := header.isPaused != 0
  pendingClaimAtoms := subVault.pendingClaimAtoms
  isSunset := subVault.isSunset != 0

namespace Ydelta

variable (y : Ydelta)

def decodeMarketFixed (data : List UInt8) : Except Error MarketFixed :=
  if data.length < y.marketFixedSize then
    .error (.anyhow s!"market account too small: {data.length} < {y.marketFixedSize}")
  else
    let fixed := y.castMarketFixed (data.take y.marketFixedSize)
    if fixed.discriminator ≠ y.marketFixedDiscriminant then
      .error (.anyhow s!"market discriminator mismatch: got {hexText fixed.discriminator.toNat}")
    else .ok fixed

def decodeLoanFixed (data : List UInt8) : Except Error LoanFixed :=
  if data.length < y.loanFixedSize then
    .error (.anyhow s!"loan account too small: {data.length} < {y.loanFixedSize}")
  else
    let loan := y.castLoanFixed (data.take y.loanFixedSize)
    if loan.discriminator ≠ y.loanFixedDiscriminant then
      .error (.anyhow s!"loan discriminator mismatch: got {hexText loan.discriminator.toNat}")
    else .ok loan

def splitMarket (data : List UInt8) : Except Error (MarketFixed × List UInt8) := do
  let fixed ← y.decodeMarketFixed data
  return (fixed, data.drop y.marketFixedSize)

/-- The market rows of a `getProgramAccounts` reply; malformed accounts are skipped. -/
def decodeMarkets (accts : List (Pubkey × Account)) : List MarketView :=
  (accts.filterMap fun (pk, acct) => match y.decodeMarketFixed acct.data with
    | .ok fixed => some (.ofFixed pk fixed)
    | .error _ => none).insertionSort fun a b => BytesLe a.address b.address

/-- The loan rows of a `getProgramAccounts` reply; malformed accounts are skipped. -/
def decodeLoans (accts : List (Pubkey × Account)) : List LoanView :=
  accts.filterMap fun (pk, acct) => match y.decodeLoanFixed acct.data with
    | .ok loan => some (.ofFixed pk loan)
    | .error _ => none

/-- The sub-vault rows of a vault account; a malformed account has none. -/
def decodeSubVaults (pk : Pubkey) (data : List UInt8) : List SubVaultView :=
  if data.length < y.globalVaultFixedSize then []
  else match y.castGlobalVaultFixed (data.take y.globalVaultFixedSize) with
    | none => []
    | some header =>
      if header.discriminator ≠ y.globalVaultFixedDiscriminant then []
      else if header.subVaultsRootIndex = y.nil then []
      else (y.subVaults (data.drop y.globalVaultFixedSize) header.subVaultsRootIndex).map
        (.ofFixed pk header)

/-- The vault-owned seats of a market account with shares to sweep. -/
def decodePendingClaims (market : MarketView) (data : List UInt8) : List PendingVaultClaim :=
  match y.splitMarket data with
  | .error _ => []
  | .ok (fixed, dyn) =>
    if fixed.claimedSeatsRootIndex = y.nil then []
    else (y.claimedSeats dyn fixed.claimedSeatsRootIndex).filterMap fun seat =>
      if seat.ownerKind ≠ y.ownerKindSubVault then none
      else if seat.debtWithdrawableShares = 0 then none
      else some {
        market := market.address
        debtMint := market.debtMint
        debtBank := market.debtBank
        lenderGlobalVault := seat.owner
        subVaultId := seat.subVaultId
        debtWithdrawableShares := seat.debtWithdrawableShares }

end Ydelta

/-! ### Reading -/

/-- A reader of the accounts of one program. -/
structure ChainReader where
  programId : Pubkey

/-- Offsets into a loan account. -/
def loanOffsetMarket : ℕ := 8

namespace ChainReader

variable (chain : ChainReader) (y : Ydelta)

def getProgramAccounts (filters : List RpcFilterType) :
    Async Service (List (Pubkey × Account)) :=
  Service.client (.getProgramAccounts chain.programId filters)
    (orClientErrorWith s!"getProgramAccounts({chain.programId})")

def fetchMarkets : Async Service (List MarketView) := do
  let accounts ← chain.getProgramAccounts [.memcmp 0 (leBytes 8 y.marketFixedDiscriminant.toNat)]
  return y.decodeMarkets accounts

/-- The cached market list.  An empty fetch does not replace a snapshot. -/
def listMarkets : Async Service (List MarketView) := do
  match ← Service.process .marketsCacheGet with
  | some cached => return cached
  | none => do
    let fresh ← chain.fetchMarkets y
    if fresh.isEmpty then do
      match ← Service.process .marketsCacheStale with
      | some stale => return stale
      | none => return fresh
    else do
      let () ← Service.process (.marketsCachePut fresh)
      return fresh

/-- The market list, past the cache. -/
def refreshMarkets : Async Service (List MarketView) := do
  let fresh ← chain.fetchMarkets y
  if fresh.isEmpty then return fresh
  else do
    let () ← Service.process (.marketsCachePut fresh)
    return fresh

def listLoansForMarket (market : Pubkey) : Async Service (List LoanView) := do
  let accounts ← chain.getProgramAccounts [.dataSize y.loanFixedSize,
    .memcmp 0 (leBytes 8 y.loanFixedDiscriminant.toNat), .memcmp loanOffsetMarket market.toList]
  return y.decodeLoans accounts

/-- The data of a market account that must be there. -/
def marketData (market : Pubkey) : Async Service (List UInt8) := do
  match ← Service.rpc (.getAccountData market) with
  | some data => return data
  | none => bail s!"market {market} not found"

def readPendingMatchedLoans (market : Pubkey) : Async Service (List PendingMatchedLoan) := do
  let data ← marketData market
  let (fixed, dyn) ← liftError (y.splitMarket data)
  let root := fixed.matchedLoansRootIndex
  if root = y.nil then return []
  else return (y.matchedLoans dyn root).map fun node => {
    market := market
    sequence := node.sequence
    flags := node.flags
    loanType := node.loanType
    lenderSeatIndex := node.lenderSeatIndex
    borrowerSeatIndex := node.borrowerSeatIndex
    principalAtoms := node.principalAtoms
    originationAtoms := node.originationAtoms }

/-- The seat at an index of a market account; it panics when the account is shorter than the
header or the node is outside of it. -/
def readSeatAt (marketData : List UInt8) (index : DataIndex) : Except Failure SeatView :=
  if index = y.nil then .error (.error (.anyhow "seat index is NIL"))
  else do
    let dyn ← slice marketData y.marketFixedSize marketData.length
    match y.helperSeat dyn index with
    | none => .error (.panic "index out of bounds")
    | some seat => return ⟨seat.owner, seat.ownerKind, seat.subVaultId⟩

def listSubVaults : Async Service (List SubVaultView) := do
  let accts ← chain.getProgramAccounts
    [.memcmp 0 (leBytes 8 y.globalVaultFixedDiscriminant.toNat)]
  return accts.flatMap fun (pk, acct) => y.decodeSubVaults pk acct.data

/-- The seats to sweep, market by market. -/
def listPendingVaultClaims : List MarketView → Async Service (List PendingVaultClaim)
  | [] => return []
  | market :: rest =>
    if market.isPaused then listPendingVaultClaims rest
    else do
      match ← Service.rpc (.getAccountData market.address) with
      | none => listPendingVaultClaims rest
      | some data => do
        let claims ← listPendingVaultClaims rest
        return y.decodePendingClaims market data ++ claims

/-- The best resting bid rate is at least the best resting ask rate. -/
def marketIsRateCrossed (market : Pubkey) : Async Service Bool := do
  let data ← marketData market
  let (fixed, dyn) ← liftError (y.splitMarket data)
  if fixed.bidsBestIndex = y.nil ∨ fixed.asksBestIndex = y.nil then return false
  else match y.helperOrderRateBps dyn fixed.bidsBestIndex,
      y.helperOrderRateBps dyn fixed.asksBestIndex with
    | some bestBid, some bestAsk => return decide (bestAsk ≤ bestBid)
    | _, _ => throw (.panic "index out of bounds")

end ChainReader

end YdeltaCrankers
