import YdeltaCrankers.Handlers.Context

/-!
# `src/handlers/claimer.rs`

`ClaimRepaymentForSubVault`, gated by a simulation of the instruction.
-/

namespace YdeltaCrankers

open Interaction

namespace ClaimerHandler

variable (ctx : HandlerContext)

/-- Sweep one seat. -/
def sweepOne (entry : PendingVaultClaim) : Async Service Bool := do
  let banks ← Config.banksSnapshot
  let debtBank ← liftError (bankOf banks "debt mint" entry.debtMint)
  let payerPk := ctx.signers.feePayer
  let ix : Instruction := .claimRepaymentForSubVault {
    payer := payerPk
    market := entry.market
    subVaultId := entry.subVaultId
    lenderGlobalVault := entry.lenderGlobalVault
    debtMint := entry.debtMint
    debtBank := debtBank.bank
    debtLiquidityVault := debtBank.liquidityVault
    debtLiquidityVaultAuthority := debtBank.liquidityVaultAuthority
    debtOracles := debtBank.oracles
    lenderMarginfi := ctx.y.lenderIntegrationAccountAddress entry.market
    debtTokenProgram := debtBank.tokenProgram
    marginfiGroup := ctx.cfg.marginfiGroup
    marginfiProgramId := ctx.cfg.marginfiProgramId }
  let sim ← Service.rpc (.simulate [ix] payerPk)
  if !sim.ok then return false
  else do
    let _sig ← Service.rpc (.sendSignedLabeled "claim_repayment_for_sub_vault" [ix] [payerPk])
    return true

/-- The seats left to sweep; errors are logged. -/
def sweepAll : List PendingVaultClaim → Async Service Unit
  | [] => return ()
  | entry :: entries => do
    let _res ← withInflight (.claimer entry.market entry.lenderGlobalVault entry.subVaultId)
      (sweepOne ctx entry)
    sweepAll entries

/-- The sub-vaults with atoms to claim. -/
def claimable (subVaults : List SubVaultView) : List (Pubkey × UInt16) :=
  (subVaults.filter fun p => decide (0 < p.pendingClaimAtoms)).map fun p =>
    (p.vault, p.subVaultId)

/-- The seats whose sub-vault has atoms to claim. -/
def seatsToSweep (subVaults : List SubVaultView) (claims : List PendingVaultClaim) :
    List PendingVaultClaim :=
  claims.filter fun e => (claimable subVaults).contains (e.lenderGlobalVault, e.subVaultId)

/-- One pass over the seats of all markets whose sub-vault has atoms to claim. -/
def tick : Async Service Unit := do
  let subVaults ← ctx.chain.listSubVaults ctx.y
  if (claimable subVaults).isEmpty then return ()
  else do
    let markets ← ctx.chain.listMarkets ctx.y
    if markets.isEmpty then return ()
    else do
      let claims ← ChainReader.listPendingVaultClaims ctx.y markets
      sweepAll ctx (seatsToSweep subVaults claims)

end ClaimerHandler

end YdeltaCrankers
