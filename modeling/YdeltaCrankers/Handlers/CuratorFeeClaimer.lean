import YdeltaCrankers.Handlers.Context

/-!
# `src/handlers/curator_fee_claimer.rs`

`ClaimCuratorFee`, signed by the curator's own key and sent without a simulation.
-/

namespace YdeltaCrankers

open Interaction

namespace CuratorFeeClaimerHandler

variable (ctx : HandlerContext)

/-- Claim the fee of one sub-vault. -/
def claimOne (subVault : SubVaultView) (banks : BankRegistry) (curatorPk : Pubkey) :
    Async Service Bool :=
  match banks.get subVault.vaultMint with
  | none => bail s!"no BANKS config for vault mint {subVault.vaultMint} (vault {subVault.vault})"
  | some bank =>
    if bank.bank ≠ subVault.vaultBank then
      bail (s!"vault {subVault.vault} bank disagrees with registry: " ++
        s!"vault.lending_pool={subVault.vaultBank}, registry.bank={bank.bank}")
    else do
      let ix : Instruction := .claimCuratorFee {
        vaultBank := subVault.vaultBank
        vaultMint := subVault.vaultMint
        curator := curatorPk
        curatorToken := bank.ataFor ctx.sdk curatorPk
        bank := bank.bank
        liquidityVault := bank.liquidityVault
        liquidityVaultAuthority := bank.liquidityVaultAuthority
        oracle := bank.primaryOracle
        tokenProgram := bank.tokenProgram
        marginfiProgramId := ctx.cfg.marginfiProgramId
        marginfiGroup := ctx.cfg.marginfiGroup
        subVaultId := subVault.subVaultId }
      let _sig ← Service.rpc (.sendSignedLabeled "claim_curator_fee" [ix] [curatorPk])
      return true

/-- The sub-vaults left to claim for; those paused, below the floor or without a key are
skipped. -/
def claimAll (banks : BankRegistry) : List SubVaultView → Async Service Unit
  | [] => return ()
  | subVault :: subVaults =>
    if subVault.vaultIsPaused then claimAll banks subVaults
    else if subVault.accumulatedCuratorFeeAtoms < ctx.cfg.thresholds.minCuratorFeeClaimAtoms then
      claimAll banks subVaults
    else if subVault.curator ∉ ctx.signers.curators then claimAll banks subVaults
    else do
      let _res ← withInflight (.curatorFeeClaimer subVault.vault subVault.subVaultId)
        (claimOne ctx subVault banks subVault.curator)
      claimAll banks subVaults

/-- One pass over all sub-vaults. -/
def tick : Async Service Unit :=
  if ctx.signers.curators.isEmpty then return ()
  else do
    let subVaults ← ctx.chain.listSubVaults ctx.y
    let banks ← Config.banksSnapshot
    claimAll ctx banks subVaults

end CuratorFeeClaimerHandler

end YdeltaCrankers
