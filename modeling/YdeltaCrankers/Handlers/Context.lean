import YdeltaCrankers.Config
import YdeltaCrankers.Service.Implement
import YdeltaCrankers.SwbCranker

/-!
# `src/handlers/mod.rs` and `src/handlers/util.rs`

What a handler gets, and the small functions the handlers share.
-/

namespace YdeltaCrankers

open Interaction

/-- `src/signer.rs`: the keys the process signs with; a keypair is modelled by its public key. -/
structure Signers where
  feePayer : Pubkey
  curators : List Pubkey

/-- What every handler gets. -/
structure HandlerContext where
  cfg : Config
  sdk : Sdk
  y : Ydelta
  signers : Signers
  /-- `none` when no Switchboard market existed at boot. -/
  swbCranker : Option SwbCranker

/-- The reader of the configured program. -/
def HandlerContext.chain (ctx : HandlerContext) : ChainReader := ctx.cfg.chain

/-! ### The in-flight sets -/

/-- Run `body` with its key in the in-flight set.  A key that is there already skips it; an error
of `body` is returned after the release. -/
def withInflight (key : InflightKey) (body : Async Service Bool) :
    Async Service (Except Error Bool) := do
  if ← Service.process (.claimInflight key) then do
    let res ← Service.caught body
    let () ← Service.process (.releaseInflight key)
    return res
  else return .ok false

/-! ### Saturating arithmetic -/

/-- `a.saturating_add(b)` at type `u64`. -/
def saturatingAdd (a b : UInt64) : UInt64 :=
  if a.toNat + b.toNat < 2 ^ 64 then a + b else UInt64.ofNat (2 ^ 64 - 1)

/-- `a.saturating_sub(b)` at type `u64`. -/
def saturatingSub (a b : UInt64) : UInt64 := if b ≤ a then a - b else 0

/-- `a.saturating_add(b)` at type `i64`. -/
def saturatingAddI64 (a b : Int64) : Int64 :=
  Int64.ofInt (max (-2 ^ 63) (min (2 ^ 63 - 1) (a.toInt + b.toInt)))

/-! ### Shared helpers -/

/-- The registry's entry of a mint; `name` says in the error what the mint is for. -/
def bankOf (banks : BankRegistry) (name : String) (mint : Pubkey) : Except Error BankInfo :=
  match banks.get mint with
  | none => .error (.anyhow s!"no BANKS config for {name} {mint}")
  | some bank => .ok bank

/-- The registry's banks of a debt and a collateral mint. -/
def bankPair (banks : BankRegistry) (debtMint collateralMint : Pubkey) :
    Except Error (BankInfo × BankInfo) := do
  let debtBank ← bankOf banks "debt mint" debtMint
  let collateralBank ← bankOf banks "collateral mint" collateralMint
  return (debtBank, collateralBank)

/-- The `amount` field of a token account. -/
def splTokenAmount (data : List UInt8) : Option UInt64 :=
  if 72 ≤ data.length then some (UInt64.ofNat (leNat ((data.drop 64).take 8))) else none

/-- What a full close of a pool loan has to stage: marginfi accrues interest on entry. -/
def p2poolFullRepayStagedAtoms (repayAtoms : UInt64) : UInt64 :=
  saturatingAdd (saturatingAdd repayAtoms (repayAtoms / 50)) 64

/-- The program's floor for a partial repayment. -/
def minPartialRepayAtoms (outstanding : UInt64) : UInt64 := max (outstanding / 100) 1000

/-- The vault passed to a close of the loan: none for pool loans. -/
def LoanView.globalVault (y : Ydelta) (loan : LoanView) : Option Pubkey :=
  if loan.isP2pool y then none else some loan.lenderGlobalVault

/-! ### Sample values -/

def sampleConfig : Config where
  programId := .fill 32 9
  marginfiProgramId := .fill 32 7
  marginfiGroup := .fill 32 8
  minSignerBalanceLamports := 0
  handlers := ⟨8⟩
  thresholds := ⟨0, 0, 0⟩

/-- A fee payer without curators. -/
def sampleSigners : Signers := ⟨.fill 32 50, []⟩

/-- A bank with a Pyth feed. -/
def sampleBank (mint bank : UInt8) : BankInfo where
  mint := .fill 32 mint
  bank := .fill 32 bank
  liquidityVault := .fill 32 (bank + 20)
  liquidityVaultAuthority := .fill 32 (bank + 40)
  oracles := [.fill 32 (bank + 60)]
  tokenProgram := splTokenLegacyId
  oracleSetup := 3

/-- The banks of the two mints of `sampleMarket`. -/
def sampleBanks : BankRegistry :=
  ⟨((∅ : HashMap Pubkey BankInfo).insert (.fill 32 2) (sampleBank 2 12)).insert (.fill 32 1)
    (sampleBank 1 11)⟩

def sampleHandlerContext : HandlerContext := ⟨sampleConfig, .plain, .plain, sampleSigners, none⟩

/-- The market account at an address, for two mints and their banks. -/
def sampleMarketRow (address debtMint collateralMint debtBank collateralBank : UInt8) :
    Pubkey × Account :=
  (.fill 32 address, ⟨.fill 32 9, leBytes 8 1 ++ (Bytes.fill 32 debtMint).toList ++
    (Bytes.fill 32 collateralMint).toList ++ (Bytes.fill 32 debtBank).toList ++
    (Bytes.fill 32 collateralBank).toList⟩)

/-- An active loan of a market, due in a billion seconds. -/
def sampleLoanRow (market loanType : UInt8) (principal outstanding : ℕ) : Pubkey × Account :=
  (.fill 32 41, ⟨.fill 32 9, leBytes 8 2 ++ (Bytes.fill 32 market).toList ++ [1, loanType] ++
    leBytes 8 principal ++ leBytes 8 outstanding ++ leBytes 8 1000000000 ++ leBytes 8 7⟩)

/-- Sample fee settings. -/
def sampleRpc : Rpc := ⟨0, 200000, false⟩

/-- A token account. -/
def sampleTokenAccount (amount : ℕ) : Account :=
  ⟨splTokenLegacyId, List.replicate 64 0 ++ leBytes 8 amount⟩

/-- A node on which simulations and sends succeed, with these loans and with 2000 atoms in every
token account. -/
def sampleClient (loans : List (Pubkey × Account)) : (c : ClientCall) → c.Reply
  | .getProgramAccounts _ _ => .ok loans
  | .getAccount _ => .ok (sampleTokenAccount 2000)
  | .getLatestBlockhash => .ok default
  | .simulateTransaction _ => .ok ⟨none, none⟩
  | .sendAndConfirmTransaction _ => .ok default
  | c => c.refused

/-- The replies to a handler that uses this node and this registry, with no key in flight. -/
def sampleReply (loans : List (Pubkey × Account)) (banks : BankRegistry) :
    (c : ServiceCall) → c.Reply
  | .rpc c => ((c.prog sampleRpc .plain).run.answered (sampleClient loans)).2
  | .client c => sampleClient loans c
  | .process .banksRead => some banks
  | .process (.claimInflight _) => true
  | .process c => c.refused

end YdeltaCrankers
