import YdeltaCrankers.Handlers.Context

/-!
# `src/handlers/promoter.rs`

`ProcessMatchedLoan`, gated by a simulation of the instruction.
-/

namespace YdeltaCrankers

open Interaction

namespace PromoterHandler

variable (ctx : HandlerContext)

/-- The vault accounts of a fixed match, once the vault is known to be the debt bank's own. -/
def buildVaultSettleAddrs (market globalVault debtMint : Pubkey) (debtBank : BankInfo) :
    Except Error VaultSettleAddrs :=
  let expectedVault := ctx.y.globalVaultPda debtBank.bank
  if expectedVault ≠ globalVault then
    .error (.anyhow
      s!"vault {globalVault} doesn't match bank {debtBank.bank} PDA {expectedVault}")
  else .ok {
    globalVault := globalVault
    globalVaultSigner := ctx.y.globalVaultSignerPda globalVault
    globalVaultStaging := ctx.y.globalVaultStagingPda globalVault
    globalVaultIntegrationAccount := ctx.y.globalVaultIntegrationAccountPda globalVault
    marketDebtVault := ctx.y.vaultAddress market debtMint
    marketLenderIntegrationAccount := ctx.y.lenderIntegrationAccountAddress market
    marketSigner := ctx.y.marketSignerAddress market
    debtLiquidityVault := debtBank.liquidityVault
    debtBankLiquidityVaultAuthority := debtBank.liquidityVaultAuthority
    debtOracles := [debtBank.primaryOracle]
    debtMint := debtMint
    tokenProgram := debtBank.tokenProgram
    marginfiGroup := ctx.cfg.marginfiGroup
    marginfiProgram := ctx.cfg.marginfiProgramId }

/-- The vault accounts, for a fixed match with a vault lender that is not settled yet. -/
def assembleVaultSettle (market : Pubkey) (entry : PendingMatchedLoan) (debtMint : Pubkey)
    (debtBank : BankInfo) : Async Service (Option VaultSettleAddrs) :=
  if entry.isP2pool ctx.y ∨ entry.isVaultPresettled ctx.y ∨ !entry.hasVaultLender ctx.y then
    return none
  else do
    match ← Service.rpc (.getAccountData market) with
    | none => bail s!"market {market} disappeared"
    | some marketData => do
      let seat ← liftExcept (ChainReader.readSeatAt ctx.y marketData entry.lenderSeatIndex)
      if seat.ownerKind ≠ ctx.y.ownerKindSubVault then return none
      else do
        let addrs ← liftError (buildVaultSettleAddrs ctx market seat.owner debtMint debtBank)
        return some addrs

/-- Promote one matched loan. -/
def promoteOne (market : MarketView) (entry : PendingMatchedLoan) : Async Service Bool := do
  let banks ← Config.banksSnapshot
  let debtBank ← liftError (bankOf banks "debt mint" market.debtMint)
  let payerPk := ctx.signers.feePayer
  let vaultSettle ← assembleVaultSettle ctx market.address entry market.debtMint debtBank
  let ix : Instruction := .processMatchedLoan {
    market := market.address
    payer := payerPk
    debtBank := debtBank.bank
    marginfiProgramId := ctx.cfg.marginfiProgramId
    sequence := entry.sequence
    hint := none
    vaultSettle := vaultSettle }
  let sim ← Service.rpc (.simulate [ix] payerPk)
  if !sim.ok then return false
  else do
    let _sig ← Service.rpc (.sendSignedLabeled "process_matched_loan" [ix] [payerPk])
    return true

/-- The entries of a market left to promote; errors are logged. -/
def promoteEntries (market : MarketView) : List PendingMatchedLoan → Async Service Unit
  | [] => return ()
  | entry :: entries => do
    let _res ← withInflight (.promoter entry.market entry.sequence) (promoteOne ctx market entry)
    promoteEntries market entries

/-- The markets left to visit; a market that cannot be read is skipped. -/
def promoteMarkets : List MarketView → Async Service Unit
  | [] => return ()
  | market :: markets =>
    if market.isPaused then promoteMarkets markets
    else do
      match ← Service.caught (ChainReader.readPendingMatchedLoans ctx.y market.address) with
      | .error _ => promoteMarkets markets
      | .ok pending => do
        let () ← promoteEntries ctx market pending
        promoteMarkets markets

/-- One pass over all markets. -/
def tick : Async Service Unit := do
  let markets ← ctx.chain.listMarkets ctx.y
  promoteMarkets ctx markets

end PromoterHandler

end YdeltaCrankers
