import YdeltaCrankers.ChainReader
import YdeltaCrankers.Collections.Represents
import YdeltaCrankers.MarginfiBank

/-!
# `src/bank_registry.rs`: discovering the banks

`BankRegistry.discoverFromMarkets` lists the markets, refuses a list that binds one mint to two
banks, and resolves every mint's bank from chain: one request for the bank accounts, one for the
mint accounts, joined by index.
-/

namespace YdeltaCrankers

open Interaction Collections

/-- `LIQUIDITY_VAULT_AUTHORITY_SEED`, `b"liquidity_vault_auth"`. -/
def liquidityVaultAuthoritySeed : List UInt8 :=
  [108, 105, 113, 117, 105, 100, 105, 116, 121, 95, 118, 97, 117, 108, 116, 95, 97, 117, 116, 104]

/-- `system_program::ID`. -/
def systemProgramId : Pubkey := .zero 32

/-- `CreateIdempotent`, tag 1 of the associated-token-account program. -/
def createAssociatedTokenAccountIdempotentIx (sdk : Sdk)
    (funding owner mint tokenProgram : Pubkey) : Instruction :=
  let ata := sdk.findProgramAddress [owner.toList, tokenProgram.toList, mint.toList] ataProgramId
  .raw ataProgramId
    [⟨funding, true, true⟩, ⟨ata, false, true⟩, ⟨owner, false, false⟩, ⟨mint, false, false⟩,
      ⟨systemProgramId, false, false⟩, ⟨tokenProgram, false, false⟩] [1]

/-- A bank account that passed its checks, with the mint it was resolved for. -/
structure DecodedBank where
  mint : Pubkey
  bank : Pubkey
  view : BankView
  lva : Pubkey

namespace BankRegistry

/-! ### Binding mints to banks -/

/-- Bind a mint to a bank; `conflict` words the error when it is bound to another one. -/
def bindMint (mintToBank : HashMap Pubkey Pubkey) (mint bank : Pubkey)
    (conflict : Pubkey → String) : Except Error (HashMap Pubkey Pubkey) :=
  match mintToBank.lookup mint with
  | some prev =>
    if prev ≠ bank then .error (.anyhow (conflict prev)) else .ok (mintToBank.insert mint bank)
  | none => .ok (mintToBank.insert mint bank)

/-- Bind the two mints of a market. -/
def bindMarket (mintToBank : HashMap Pubkey Pubkey) (m : MarketView) :
    Except Error (HashMap Pubkey Pubkey) := do
  let mintToBank ← bindMint mintToBank m.debtMint m.debtBank fun prev =>
    s!"market {m.address} debt_bank {m.debtBank} disagrees with prior bank {prev} for mint " ++
      s!"{m.debtMint}"
  bindMint mintToBank m.collateralMint m.collateralBank fun prev =>
    s!"market {m.address} collateral_bank {m.collateralBank} disagrees with prior bank {prev} " ++
      s!"for mint {m.collateralMint}"

/-- Bind the mints of all markets. -/
def bindMarkets (markets : List MarketView) : Except Error (HashMap Pubkey Pubkey) :=
  markets.foldlM bindMarket ∅

/-! ### Resolving the banks -/

variable (sdk : Sdk) (marginfiProgram : Pubkey)

/-- The checks on one bank account. -/
def decodeBank (expectedMint bankPk : Pubkey) (acct : Option Account) :
    Except Failure DecodedBank :=
  match acct with
  | none => .error (.error (.anyhow s!"BANKS: bank {bankPk} not found on chain"))
  | some acct =>
    if acct.owner ≠ marginfiProgram then
      .error (.error (.anyhow
        (s!"BANKS[{expectedMint}]: bank {bankPk} is owned by {acct.owner}, " ++
          s!"not the configured MARGINFI_PROGRAM_ID {marginfiProgram}")))
    else match BankView.tryFromAccountData acct.data with
    | .error e => .error (e.context s!"BANKS[{expectedMint}]: decoding bank {bankPk} failed")
    | .ok view =>
      if view.mint ≠ expectedMint then
        .error (.error (.anyhow
          (s!"BANKS[{expectedMint}]: bank {bankPk} has on-chain mint {view.mint} " ++
            "— pair the env key with the correct bank or fix the mint")))
      else match sdk.createProgramAddress
          [liquidityVaultAuthoritySeed, bankPk.toList, [view.lvaBump]] marginfiProgram with
      | .error e => .error (.error (e.context
          s!"BANKS[{expectedMint}]: deriving LVA failed (bump={view.lvaBump})"))
      | .ok lva => .ok ⟨expectedMint, bankPk, view, lva⟩

/-- The checks on the bank accounts, joined to the entries by index. -/
def decodeBanks : List (Pubkey × Pubkey) → List (Option Account) →
    Except Failure (List DecodedBank)
  | [], _ => return []
  | _ :: _, [] => .error (.panic "index out of bounds")
  | (expectedMint, bankPk) :: entries, acct :: bankAccounts => do
    let bank ← decodeBank sdk marginfiProgram expectedMint bankPk acct
    let banks ← decodeBanks entries bankAccounts
    return bank :: banks

/-- The token program of a mint: the owner of its account. -/
def tokenProgramOf (mint : Pubkey) (m : Account) : Except Failure Pubkey :=
  if m.owner = splTokenLegacyId then .ok splTokenLegacyId
  else if m.owner = splToken2022Id then .ok splToken2022Id
  else .error (.error (.anyhow
    s!"BANKS[{mint}]: mint owner {m.owner} is neither spl-token nor token-2022"))

/-- The checks on one mint account, and the registry's entry. -/
def bankInfo (d : DecodedBank) (acct : Option Account) : Except Failure BankInfo :=
  match acct with
  | none => .error (.error (.anyhow s!"BANKS: mint {d.mint} not found on chain"))
  | some m => do
    let tokenProgram ← tokenProgramOf d.mint m
    if d.view.oracles.isEmpty ∨ 5 < d.view.oracles.length then
      .error (.error (.anyhow
        s!"BANKS[{d.mint}]: bank {d.bank} has {d.view.oracles.length} oracle keys (must be 1-5)"))
    else return {
      mint := d.mint
      bank := d.bank
      liquidityVault := d.view.liquidityVault
      liquidityVaultAuthority := d.lva
      oracles := d.view.oracles
      tokenProgram := tokenProgram
      oracleSetup := d.view.oracleSetup }

/-- The checks on the mint accounts, joined to the banks by index. -/
def bankInfos : List DecodedBank → List (Option Account) → HashMap Pubkey BankInfo →
    Except Failure (HashMap Pubkey BankInfo)
  | [], _, byMint => return byMint
  | _ :: _, [], _ => .error (.panic "index out of bounds")
  | d :: decoded, acct :: mintAccounts, byMint => do
    let info ← bankInfo d acct
    bankInfos decoded mintAccounts (byMint.insert d.mint info)

/-- Resolve every binding from chain. -/
def resolveFromChain (mintToBank : HashMap Pubkey Pubkey) : Async Service BankRegistry :=
  if mintToBank.entries.isEmpty then return default
  else do
    let entries := sortedEntries BytesLe mintToBank
    let bankAccounts ← Service.client (.getMultipleAccounts (entries.map Prod.snd))
      (orClientErrorWith "BANKS resolve: get_multiple_accounts(banks) failed")
    let decoded ← liftExcept (decodeBanks sdk marginfiProgram entries bankAccounts)
    let mintAccounts ← Service.client (.getMultipleAccounts (decoded.map fun d => d.view.mint))
      (orClientErrorWith "BANKS resolve: get_multiple_accounts(mints) failed")
    let byMint ← liftExcept (bankInfos decoded mintAccounts ∅)
    return ⟨byMint⟩

/-- Discover the banks of these markets. -/
def discover (markets : List MarketView) : Async Service BankRegistry :=
  if markets.isEmpty then return default
  else do
    let mintToBank ← liftError (bindMarkets markets)
    resolveFromChain sdk marginfiProgram mintToBank

/-- Discover the banks of the markets on chain. -/
def discoverFromMarkets (y : Ydelta) (chain : ChainReader) : Async Service BankRegistry := do
  let markets ← withContext "BANKS discover: ChainReader::refresh_markets failed"
    (chain.refreshMarkets y)
  discover sdk marginfiProgram markets

/-! ### Token accounts -/

/-- The derived accounts that are not there yet. -/
def missingAtas : List (Pubkey × Pubkey × Pubkey) → List (Option Account) →
    Except Failure (List (Pubkey × Pubkey × Pubkey))
  | [], _ => return []
  | _ :: _, [] => .error (.panic "index out of bounds")
  | d :: derived, acct :: existing => do
    let missing ← missingAtas derived existing
    return if acct.isNone then d :: missing else missing

/-- Create the missing token accounts of `feePayer` for every known mint. -/
def ensureAtasFor (registry : BankRegistry) (feePayer : Pubkey) : Async Service Unit :=
  if registry.isEmpty then return ()
  else do
    let owner := feePayer
    let derived := registry.values.map fun info =>
      (info.mint, info.ataFor sdk owner, info.tokenProgram)
    let existing ← Service.client (.getMultipleAccounts (derived.map fun d => d.2.1))
      (orClientErrorWith "ensure_atas_for: get_multiple_accounts failed")
    let missing ← liftExcept (missingAtas derived existing)
    if missing.isEmpty then return ()
    else do
      let ixs := missing.map fun (mint, _ata, tokenProgram) =>
        createAssociatedTokenAccountIdempotentIx sdk owner owner mint tokenProgram
      let _sig ← withContext "ensure_atas_for: create-ATAs tx failed to send"
        (Service.rpc (.sendSignedLabeled "create_atas" ixs [feePayer]))
      return ()

end BankRegistry

end YdeltaCrankers
