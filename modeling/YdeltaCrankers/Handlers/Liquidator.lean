import YdeltaCrankers.Handlers.Context
import YdeltaCrankers.Numeric.Binary64

/-!
# `src/handlers/liquidator.rs`

`SettleMaturedLoan` and `LiquidateLoan`, each gated by a check simulation and by a simulation of
the instruction itself.
-/

namespace YdeltaCrankers

open Interaction

/-- `repay_atoms_max == 0` means all that is outstanding. -/
def repayFull : UInt64 := 0

/-- Below 1.05 times the principal, the simulation of a fixed loan is skipped. -/
def staticLtvPrefilterBps : UInt32 := 10500

/-- Outstanding over principal in basis points, computed in doubles. -/
def staticAccruedRatioBps (outstandingDebtAtoms principalDebtAtoms : UInt64) : UInt32 :=
  if principalDebtAtoms = 0 then 0
  else
    let ratio := Binary64.mul (Binary64.div (Binary64.ofNat outstandingDebtAtoms.toNat)
      (Binary64.ofNat principalDebtAtoms.toNat)) 10000
    UInt32.ofNat (max 0 (min (2 ^ 32 - 1) ratio)).floor.toNat

namespace LiquidatorHandler

variable (ctx : HandlerContext)

/-- The amount to repay with a balance of `ataBalance`, `none` when it is below the floor. -/
def repayAmount (ataBalance : UInt64) (loan : LoanView) : Option UInt64 :=
  let outstandingEst := if loan.isP2pool ctx.y
    then max loan.outstandingDebtAtoms loan.principalDebtAtoms else loan.outstandingDebtAtoms
  let fullRequired := if loan.isP2pool ctx.y
    then p2poolFullRepayStagedAtoms outstandingEst else outstandingEst
  if fullRequired ≤ ataBalance then some repayFull
  else if ataBalance < minPartialRepayAtoms outstandingEst then none
  else some (min ataBalance (saturatingSub outstandingEst 1))

/-- The largest amount the keeper's token account can fund. -/
def pickRepayAmount (liquidatorDebtAta : Pubkey) (loan : LoanView) :
    Async Service (Option UInt64) := do
  match ← Service.rpc (.getAccountData liquidatorDebtAta) with
  | none => return none
  | some acct =>
    match splTokenAmount acct with
    | none => bail "ATA data too small"
    | some ataBalance => return repayAmount ctx ataBalance loan

/-- The Switchboard update of the collateral feed, empty when there is none to make. -/
def fetchSwbBundle (collateralBank : BankInfo) : Async Service SwbBundle :=
  if !collateralBank.isSwitchboardPull then return ([], [])
  else match ctx.swbCranker with
  | none => return ([], [])
  | some cranker => do
    match ← Service.caught (cranker.fetchUpdateIxs [collateralBank.primaryOracle]) with
    | .ok bundle => return bundle
    | .error _ => return ([], [])

/-- The arguments of a settle or a liquidation of the loan. -/
def closeLoan (market : MarketView) (loan : LoanView) (debtBank collateralBank : BankInfo)
    (repayAtomsMax : UInt64) : CloseLoan where
  market := market.address
  liquidator := ctx.signers.feePayer
  sequence := loan.matchedLoanSequence
  debtMint := market.debtMint
  collateralMint := market.collateralMint
  liquidatorDebtAta := debtBank.ataFor ctx.sdk ctx.signers.feePayer
  liquidatorCollateralAta := collateralBank.ataFor ctx.sdk ctx.signers.feePayer
  debtBank := debtBank.bank
  collateralBank := collateralBank.bank
  debtLiquidityVault := debtBank.liquidityVault
  collateralLiquidityVault := collateralBank.liquidityVault
  collateralLiquidityVaultAuthority := collateralBank.liquidityVaultAuthority
  debtOracles := debtBank.oracles
  collateralOracles := collateralBank.oracles
  debtTokenProgram := debtBank.tokenProgram
  marginfiGroup := ctx.cfg.marginfiGroup
  marginfiProgramId := ctx.cfg.marginfiProgramId
  repayAtomsMax := repayAtomsMax
  payer := ctx.signers.feePayer
  globalVault := loan.globalVault ctx.y

/-- The check of `settle_matured_loan`, tag 35. -/
def maturityCheck (market : MarketView) (loan : LoanView) (debtBank : BankInfo) : Instruction :=
  .checkMaturityLiquidatable {
    market := market.address
    payer := ctx.signers.feePayer
    sequence := loan.matchedLoanSequence
    debtBank := debtBank.bank
    marginfiProgramId := ctx.cfg.marginfiProgramId }

/-- The check of `liquidate_loan`, tag 34. -/
def ltvCheck (market : MarketView) (loan : LoanView) (debtBank collateralBank : BankInfo) :
    Instruction :=
  .checkLtvLiquidatable {
    market := market.address
    payer := ctx.signers.feePayer
    sequence := loan.matchedLoanSequence
    debtBank := debtBank.bank
    collateralBank := collateralBank.bank
    debtOracles := debtBank.oracles
    collateralOracles := collateralBank.oracles
    marginfiProgramId := ctx.cfg.marginfiProgramId }

/-- The keeper's bonus on the whole outstanding debt. -/
def expectedBonus (market : MarketView) (loan : LoanView) : ℕ :=
  if 0 < market.liquidationKeeperBps then
    loan.outstandingDebtAtoms.toNat * market.liquidationKeeperBps.toNat / 10000
  else loan.outstandingDebtAtoms.toNat

/-- One of the two ways to close a loan: the check that gates it, whether it pays enough, and the
instruction. -/
structure Closing where
  ixLabel : String
  check : BankInfo → BankInfo → Instruction
  profitable : Bool
  build : CloseLoan → Instruction

/-- `settle_matured_loan`, gated by tag 35. -/
def settling (market : MarketView) (loan : LoanView) : Closing where
  ixLabel := "settle_matured_loan"
  check := fun debtBank _ => maturityCheck ctx market loan debtBank
  profitable := true
  build := .settleMaturedLoan

/-- `liquidate_loan`, gated by tag 34 and by the keeper's bonus. -/
def liquidating (market : MarketView) (loan : LoanView) : Closing where
  ixLabel := "liquidate_loan"
  check := ltvCheck ctx market loan
  profitable :=
    !decide (expectedBonus market loan < ctx.cfg.thresholds.minLiquidationProfitAtoms.toNat)
  build := .liquidateLoan

/-- With the two banks: simulate the check, pick the amount, simulate the instruction and send
it. -/
def closeWith (market : MarketView) (loan : LoanView) (closing : Closing)
    (debtBank collateralBank : BankInfo) : Async Service Bool := do
  let payerPk := ctx.signers.feePayer
  let (swbIxs, swbLuts) ← fetchSwbBundle ctx collateralBank
  let simIx := closing.check debtBank collateralBank
  let sim ← Service.rpc (.simulateV0 (swbIxs ++ [simIx]) swbLuts payerPk)
  if !sim.ok then return false
  else if !closing.profitable then return false
  else do
    let liquidatorDebtAta := debtBank.ataFor ctx.sdk payerPk
    match ← pickRepayAmount ctx liquidatorDebtAta loan with
    | none => return false
    | some repayAtomsMax => do
      let ix := closing.build (closeLoan ctx market loan debtBank collateralBank repayAtomsMax)
      let realBundle := swbIxs ++ [ix]
      let confirm ← Service.rpc (.simulateV0 realBundle swbLuts payerPk)
      if !confirm.ok then return false
      else do
        let _sig ← Service.rpc
          (.sendSignedV0Labeled closing.ixLabel realBundle swbLuts [payerPk])
        return true

/-- Look the two banks up, and close the loan. -/
def tryClose (market : MarketView) (loan : LoanView) (closing : Closing) : Async Service Bool := do
  let banks ← Config.banksSnapshot
  let (debtBank, collateralBank) ←
    liftError (bankPair banks market.debtMint market.collateralMint)
  closeWith ctx market loan closing debtBank collateralBank

/-- Settle a matured loan. -/
def trySettleMatured (market : MarketView) (loan : LoanView) : Async Service Bool :=
  tryClose ctx market loan (settling ctx market loan)

/-- Liquidate a loan that breaches its LTV. -/
def tryLiquidateLtv (market : MarketView) (loan : LoanView) : Async Service Bool :=
  tryClose ctx market loan (liquidating ctx market loan)

/-- Liquidate if the LTV check allows, else settle if the loan is matured. -/
def trySettleOrLiquidate (market : MarketView) (loan : LoanView) (matured maybeLtvBreach : Bool) :
    Async Service Bool :=
  if maybeLtvBreach then do
    if ← tryLiquidateLtv ctx market loan then return true
    else if matured then trySettleMatured ctx market loan
    else return false
  else if matured then trySettleMatured ctx market loan
  else return false

/-- Grace period and buffer, in seconds. -/
def effectiveGrace (market : MarketView) : Int64 :=
  market.gracePeriodSeconds.toUInt64.toInt64 + ctx.cfg.thresholds.maturityExtraBuffer.toInt64

/-- The loan is due, with its grace period and the buffer. -/
def isMatured (market : MarketView) (loan : LoanView) (tNow : Int64) : Bool :=
  decide (saturatingAddI64 loan.maturesAtUnix (effectiveGrace ctx market) ≤ tNow)

/-- The loan may breach its LTV: pool loans always, fixed loans from 1.05 times the principal. -/
def maybeLtvBreach (loan : LoanView) : Bool :=
  if loan.isP2pool ctx.y then true
  else decide (staticLtvPrefilterBps ≤
    staticAccruedRatioBps loan.outstandingDebtAtoms loan.principalDebtAtoms)

/-- One loan of a scan; the result says whether it was settled or liquidated. -/
def scanLoan (market : MarketView) (tNow : Int64) (loan : LoanView) : Async Service Bool :=
  if loan.state ≠ ctx.y.loanStateActive ∨ loan.outstandingDebtAtoms = 0 then return false
  else
    let matured := isMatured ctx market loan tNow
    let maybeLtvBreach := maybeLtvBreach ctx loan
    if !matured && !maybeLtvBreach then return false
    else do
      match ← withInflight (.liquidator loan.address)
          (trySettleOrLiquidate ctx market loan matured maybeLtvBreach) with
      | .ok submitted => return submitted
      | .error _ => return false

/-- The loans left to scan; the result counts those settled or liquidated. -/
def scanLoans (market : MarketView) (tNow : Int64) : List LoanView → Async Service ℕ
  | [] => return 0
  | loan :: loans => do
    let submitted ← scanLoan ctx market tNow loan
    let count ← scanLoans market tNow loans
    return if submitted then count + 1 else count

/-- One pass over the loans of a market. -/
def scanMarket (market : MarketView) : Async Service ℕ := do
  let loans ← ctx.chain.listLoansForMarket ctx.y market.address
  let tNow ← Service.process .nowUnix
  scanLoans ctx market tNow loans

/-- The markets left to scan. -/
def scanMarkets : List MarketView → Async Service Unit
  | [] => return ()
  | market :: markets =>
    if market.isPaused then scanMarkets markets
    else do
      let _scanned ← Service.caught (scanMarket ctx market)
      scanMarkets markets

/-- One pass over all markets. -/
def tick : Async Service Unit := do
  let markets ← ctx.chain.listMarkets ctx.y
  scanMarkets ctx markets

end LiquidatorHandler

end YdeltaCrankers
