import YdeltaCrankers.Solana.Codec

/-!
# The ydelta program crate

What the crankers use of the ydelta program's own crate and of hypertree, neither of which is
part of this repository: the account records and how they are cast from bytes, the discriminants
and flags, the tree walks, and the program's derived addresses.  `Ydelta` holds them as
parameters; only the fields the crankers read are listed.

A cast is total: the callers check the length first, and account data is taken to be suitably
aligned.
-/

namespace YdeltaCrankers

/-- `hypertree::DataIndex`. -/
abbrev DataIndex := UInt32

/-- The fee settings of a market. -/
structure FeeConfig where
  gracePeriodSeconds : UInt32
  liquidationKeeperBps : UInt16
  liquidationProtocolBps : UInt16
deriving DecidableEq

/-- The header of a market account. -/
structure MarketFixed where
  discriminator : UInt64
  debtMint : Pubkey
  collateralMint : Pubkey
  debtLendingPool : Pubkey
  collateralLendingPool : Pubkey
  isPaused : UInt8
  admin : Pubkey
  feeConfig : FeeConfig
  matchedLoansRootIndex : DataIndex
  claimedSeatsRootIndex : DataIndex
  bidsBestIndex : DataIndex
  asksBestIndex : DataIndex
deriving DecidableEq

/-- A loan account. -/
structure LoanFixed where
  discriminator : UInt64
  market : Pubkey
  state : UInt8
  loanType : UInt8
  principalDebtAtoms : UInt64
  outstandingDebtAtoms : UInt64
  maturesAtUnix : Int64
  matchedLoanSequence : UInt64
  lenderKind : UInt8
  lenderGlobalVault : Pubkey
  lenderSubVaultId : UInt16
  borrowerRateBps : UInt16
  lenderRateBps : UInt16
deriving DecidableEq

/-- The header of a global vault account. -/
structure GlobalVaultFixed where
  discriminator : UInt64
  subVaultsRootIndex : DataIndex
  mint : Pubkey
  lendingPool : Pubkey
  isPaused : UInt8
deriving DecidableEq

/-- A node of a vault's sub-vault tree. -/
structure SubVault where
  subVaultId : UInt16
  curator : Pubkey
  accumulatedCuratorFeeAtoms : UInt64
  pendingClaimAtoms : UInt64
  isSunset : UInt8
deriving DecidableEq

/-- A node of a market's seat tree. -/
structure ClaimedSeat where
  owner : Pubkey
  ownerKind : UInt8
  subVaultId : UInt16
  debtWithdrawableShares : BitVec 128
deriving DecidableEq

/-- A node of a market's tree of matched loans. -/
structure MatchedLoan where
  sequence : UInt64
  flags : UInt8
  loanType : UInt8
  lenderSeatIndex : DataIndex
  borrowerSeatIndex : DataIndex
  principalAtoms : UInt64
  originationAtoms : UInt64
deriving DecidableEq

/-- What the crankers use of the ydelta and hypertree crates. -/
structure Ydelta where
  /-- `hypertree::NIL`. -/
  nil : DataIndex
  marketFixedSize : ℕ
  marketFixedDiscriminant : UInt64
  loanFixedSize : ℕ
  loanFixedDiscriminant : UInt64
  globalVaultFixedSize : ℕ
  globalVaultFixedDiscriminant : UInt64
  /-- `LoanState::Active as u8`. -/
  loanStateActive : UInt8
  /-- `LoanState::Repaid as u8`. -/
  loanStateRepaid : UInt8
  /-- `LoanType::P2Pool as u8`. -/
  loanTypeP2Pool : UInt8
  ownerKindSubVault : UInt8
  matchedLoanFlagVaultLender : UInt8
  matchedLoanFlagVaultPresettled : UInt8
  /-- `MatchCrankLog::discriminant()`. -/
  matchCrankLogDiscriminant : List UInt8
  /-- `bytemuck::from_bytes` at type `MarketFixed`. -/
  castMarketFixed : List UInt8 → MarketFixed
  /-- `bytemuck::from_bytes` at type `LoanFixed`. -/
  castLoanFixed : List UInt8 → LoanFixed
  /-- `bytemuck::try_from_bytes` at type `GlobalVaultFixed`. -/
  castGlobalVaultFixed : List UInt8 → Option GlobalVaultFixed
  /-- `MatchedLoanTreeReadOnly::new(dynamic, root, NIL).iter()`. -/
  matchedLoans : List UInt8 → DataIndex → List MatchedLoan
  /-- `ClaimedSeatTreeReadOnly::new(dynamic, root, NIL).iter()`. -/
  claimedSeats : List UInt8 → DataIndex → List ClaimedSeat
  /-- `SubVaultTreeReadOnly::new(dynamic, root, NIL).iter()`. -/
  subVaults : List UInt8 → DataIndex → List SubVault
  /-- `get_helper_seat(dynamic, index).get_value()`; `none` is a panic. -/
  helperSeat : List UInt8 → DataIndex → Option ClaimedSeat
  /-- The rate of `get_helper_order(dynamic, index).get_value()`; `none` is a panic. -/
  helperOrderRateBps : List UInt8 → DataIndex → Option UInt16
  globalVaultPda : Pubkey → Pubkey
  globalVaultSignerPda : Pubkey → Pubkey
  globalVaultStagingPda : Pubkey → Pubkey
  globalVaultIntegrationAccountPda : Pubkey → Pubkey
  vaultAddress : Pubkey → Pubkey → Pubkey
  lenderIntegrationAccountAddress : Pubkey → Pubkey
  marketSignerAddress : Pubkey → Pubkey

/-- The 32 bytes from an offset on, zeros if there are fewer. -/
def keyAt (data : List UInt8) (offset : ℕ) : Pubkey :=
  if h : ((data.drop offset).take 32).length = 32 then ⟨(data.drop offset).take 32, h⟩ else default

/-- The 8-byte number at an offset. -/
def wordAt (data : List UInt8) (offset : ℕ) : UInt64 :=
  UInt64.ofNat (leNat ((data.drop offset).take 8))

/-- A crate with short account layouts: a market is its four keys, a loan its market, its state, its
type, two amounts, its maturity and its sequence; trees are empty, and derived addresses are made
of the key they are derived from. -/
def Ydelta.plain : Ydelta where
  nil := 0xffffffff
  marketFixedSize := 136
  marketFixedDiscriminant := 1
  loanFixedSize := 74
  loanFixedDiscriminant := 2
  globalVaultFixedSize := 8
  globalVaultFixedDiscriminant := 3
  loanStateActive := 1
  loanStateRepaid := 2
  loanTypeP2Pool := 1
  ownerKindSubVault := 1
  matchedLoanFlagVaultLender := 1
  matchedLoanFlagVaultPresettled := 2
  matchCrankLogDiscriminant := [1, 2, 3, 4, 5, 6, 7, 8]
  castMarketFixed data := {
    discriminator := wordAt data 0
    debtMint := keyAt data 8
    collateralMint := keyAt data 40
    debtLendingPool := keyAt data 72
    collateralLendingPool := keyAt data 104
    isPaused := 0
    admin := default
    feeConfig := ⟨0, 500, 0⟩
    matchedLoansRootIndex := 0xffffffff
    claimedSeatsRootIndex := 0xffffffff
    bidsBestIndex := 0xffffffff
    asksBestIndex := 0xffffffff }
  castLoanFixed data := {
    discriminator := wordAt data 0
    market := keyAt data 8
    state := data.getD 40 0
    loanType := data.getD 41 0
    principalDebtAtoms := wordAt data 42
    outstandingDebtAtoms := wordAt data 50
    maturesAtUnix := (wordAt data 58).toInt64
    matchedLoanSequence := wordAt data 66
    lenderKind := 0
    lenderGlobalVault := default
    lenderSubVaultId := 0
    borrowerRateBps := 0
    lenderRateBps := 0 }
  castGlobalVaultFixed _ := none
  matchedLoans _ _ := []
  claimedSeats _ _ := []
  subVaults _ _ := []
  helperSeat _ _ := none
  helperOrderRateBps _ _ := none
  globalVaultPda := id
  globalVaultSignerPda := id
  globalVaultStagingPda := id
  globalVaultIntegrationAccountPda := id
  vaultAddress market _ := market
  lenderIntegrationAccountAddress := id
  marketSignerAddress := id

end YdeltaCrankers
