import Mathlib.Data.List.AList
import Mathlib.Data.Nat.Digits.Defs

/-!
# Solana data

The types of the Solana SDK and of the ydelta program crate that the crankers pass around:
addresses, accounts, instructions, transactions, and the error values of `anyhow` and of the
RPC client.

An instruction is modelled by the call that builds it.  The builders of the compute-budget
program and of ydelta are not part of this repository; what the crankers rely on is which
builder is called and on which arguments, so `Instruction` has one constructor for each
builder, holding the arguments in the order of the call.  Instructions built field by field,
here or by the Switchboard gateway, are `Instruction.raw`.
-/

namespace YdeltaCrankers

/-! ### Byte strings -/

/-- A byte string of length `n`. -/
structure Bytes (n : ℕ) where
  /-- The bytes. -/
  toList : List UInt8
  /-- There are `n` of them. -/
  length_eq : toList.length = n
deriving DecidableEq

/-- An address. -/
abbrev Pubkey := Bytes 32

/-- A recent blockhash. -/
abbrev Hash := Bytes 32

/-- A transaction signature. -/
abbrev Signature := Bytes 64

namespace Bytes

variable {n : ℕ}

/-- The byte string of `n` bytes `b`. -/
def fill (n : ℕ) (b : UInt8) : Bytes n := ⟨List.replicate n b, List.length_replicate⟩

/-- The byte string of zeros, `Pubkey::default()` at length 32. -/
def zero (n : ℕ) : Bytes n := fill n 0

instance : Inhabited (Bytes n) := ⟨zero n⟩

@[ext] theorem ext {a b : Bytes n} (h : a.toList = b.toList) : a = b := by
  cases a; cases b; simp_all

/-- The number a byte string writes in base 256, most significant byte first. -/
def toNat (b : Bytes n) : ℕ := b.toList.foldl (fun acc x => 256 * acc + x.toNat) 0

/-- The digits of base 58. -/
def base58Alphabet : List Char :=
  "123456789ABCDEFGHJKLMNPQRSTUVWXYZabcdefghijkmnopqrstuvwxyz".toList

/-- The base-58 text of a byte string: a `1` for each leading zero byte, then the digits. -/
def toBase58 (b : Bytes n) : String :=
  String.ofList <| (b.toList.takeWhile (· == 0)).map (fun _ => '1') ++
    ((Nat.digits 58 b.toNat).reverse.map fun d => base58Alphabet.getD d '1')

instance : ToString (Bytes n) := ⟨toBase58⟩

end Bytes

/-! ### Errors -/

/-- An `anyhow` error: its texts, the outermost context first. -/
structure Error where
  /-- The texts. -/
  chain : List String
deriving DecidableEq

/-- `anyhow!(msg)`. -/
def Error.anyhow (msg : String) : Error := ⟨[msg]⟩

/-- `.context(msg)` on an error. -/
def Error.context (msg : String) (e : Error) : Error := ⟨msg :: e.chain⟩

instance : ToString Error := ⟨fun e => e.chain.headD ""⟩

/-- How a function stops early: by returning an error, or by a panic, which ends the whole
process. -/
inductive Failure where
  /-- `Err(e)`. -/
  | error (e : Error)
  /-- A panic with its message. -/
  | panic (msg : String)
deriving DecidableEq

/-- `.context(msg)` on the error of a call; a panic passes through. -/
def Failure.context (msg : String) : Failure → Failure
  | .error e => .error (e.context msg)
  | .panic m => .panic m

/-- The errors of a fallible call, as failures of the caller. -/
def orError {α : Type} : Except Error α → Except Failure α
  | .ok a => .ok a
  | .error e => .error (.error e)

/-- A caller that matches on `Err` sees errors and no panics. -/
def Failure.caught : Failure → Option Error
  | .error e => some e
  | .panic _ => none

/-- Why the runtime rejected a transaction. -/
inductive TransactionError where
  /-- The blockhash is unknown or too old. -/
  | blockhashNotFound
  /-- The transaction was processed before. -/
  | alreadyProcessed
  /-- Instruction `index` failed with the program error `code`. -/
  | instructionError (index : UInt8) (code : UInt32)
  /-- Any other reason, by name. -/
  | other (name : String)
deriving DecidableEq

/-- The data an RPC error response carries. -/
inductive RpcResponseErrorData where
  /-- No data. -/
  | empty
  /-- The preflight simulation failed, with the error it found. -/
  | sendTransactionPreflightFailure (err : Option TransactionError)
  /-- The node is behind. -/
  | nodeUnhealthy
deriving DecidableEq

/-- `solana_client::rpc_request::RpcError`. -/
inductive RpcError where
  /-- A malformed request. -/
  | rpcRequestError (msg : String)
  /-- An error response of the node. -/
  | rpcResponseError (code : ℤ) (message : String) (data : RpcResponseErrorData)
  /-- A response that does not parse. -/
  | parseError (msg : String)
  /-- An error the client words for its user. -/
  | forUser (msg : String)
deriving DecidableEq

/-- `solana_client::client_error::ClientErrorKind`. -/
inductive ClientErrorKind where
  /-- An I/O error. -/
  | io (msg : String)
  /-- An HTTP transport error. -/
  | reqwest (msg : String)
  /-- An RPC error. -/
  | rpcError (e : RpcError)
  /-- A JSON error. -/
  | serdeJson (msg : String)
  /-- A signing error. -/
  | signingError (msg : String)
  /-- The transaction was rejected. -/
  | transactionError (e : TransactionError)
  /-- Anything else. -/
  | custom (msg : String)
deriving DecidableEq

/-- `solana_client::client_error::ClientError`. -/
structure ClientError where
  /-- What went wrong. -/
  kind : ClientErrorKind
  /-- Its `Display` text. -/
  display : String
deriving DecidableEq

instance : ToString ClientError := ⟨ClientError.display⟩

/-- A client error as an `anyhow` error. -/
def ClientError.toError (e : ClientError) : Error := .anyhow e.display

/-! ### Accounts and instructions -/

/-- An on-chain account. -/
structure Account where
  /-- The program that owns it. -/
  owner : Pubkey
  /-- Its data. -/
  data : List UInt8
deriving DecidableEq

/-- An account reference of an instruction. -/
structure AccountMeta where
  /-- The account. -/
  pubkey : Pubkey
  /-- It must sign. -/
  isSigner : Bool
  /-- It is writable. -/
  isWritable : Bool
deriving DecidableEq

/-- The trailing accounts of `process_matched_loan` for a loan funded by a vault. -/
structure VaultSettleAddrs where
  globalVault : Pubkey
  globalVaultSigner : Pubkey
  globalVaultStaging : Pubkey
  globalVaultIntegrationAccount : Pubkey
  marketDebtVault : Pubkey
  marketLenderIntegrationAccount : Pubkey
  marketSigner : Pubkey
  debtLiquidityVault : Pubkey
  debtBankLiquidityVaultAuthority : Pubkey
  debtOracles : List Pubkey
  debtMint : Pubkey
  tokenProgram : Pubkey
  marginfiGroup : Pubkey
  marginfiProgram : Pubkey
deriving DecidableEq

/-- Arguments of `process_matched_loan_instruction`. -/
structure ProcessMatchedLoan where
  market : Pubkey
  payer : Pubkey
  debtBank : Pubkey
  marginfiProgramId : Pubkey
  sequence : UInt64
  hint : Option Pubkey
  vaultSettle : Option VaultSettleAddrs
deriving DecidableEq

/-- Arguments of `check_maturity_liquidatable_instruction`. -/
structure CheckMaturityLiquidatable where
  market : Pubkey
  payer : Pubkey
  sequence : UInt64
  debtBank : Pubkey
  marginfiProgramId : Pubkey
deriving DecidableEq

/-- Arguments of `check_ltv_liquidatable_instruction`. -/
structure CheckLtvLiquidatable where
  market : Pubkey
  payer : Pubkey
  sequence : UInt64
  debtBank : Pubkey
  collateralBank : Pubkey
  debtOracles : List Pubkey
  collateralOracles : List Pubkey
  marginfiProgramId : Pubkey
deriving DecidableEq

/-- Arguments of `settle_matured_loan_instruction` and of `liquidate_loan_instruction`. -/
structure CloseLoan where
  market : Pubkey
  liquidator : Pubkey
  sequence : UInt64
  debtMint : Pubkey
  collateralMint : Pubkey
  liquidatorDebtAta : Pubkey
  liquidatorCollateralAta : Pubkey
  debtBank : Pubkey
  collateralBank : Pubkey
  debtLiquidityVault : Pubkey
  collateralLiquidityVault : Pubkey
  collateralLiquidityVaultAuthority : Pubkey
  debtOracles : List Pubkey
  collateralOracles : List Pubkey
  debtTokenProgram : Pubkey
  marginfiGroup : Pubkey
  marginfiProgramId : Pubkey
  repayAtomsMax : UInt64
  payer : Pubkey
  globalVault : Option Pubkey
deriving DecidableEq

/-- Arguments of `claim_repayment_for_sub_vault_instruction`. -/
structure ClaimRepaymentForSubVault where
  payer : Pubkey
  market : Pubkey
  subVaultId : UInt16
  lenderGlobalVault : Pubkey
  debtMint : Pubkey
  debtBank : Pubkey
  debtLiquidityVault : Pubkey
  debtLiquidityVaultAuthority : Pubkey
  debtOracles : List Pubkey
  lenderMarginfi : Pubkey
  debtTokenProgram : Pubkey
  marginfiGroup : Pubkey
  marginfiProgramId : Pubkey
deriving DecidableEq

/-- Arguments of `match_crank_instruction`. -/
structure MatchCrank where
  vaultBank : Pubkey
  market : Pubkey
  cranker : Pubkey
  debtBank : Pubkey
  marginfiGroup : Pubkey
  collateralBank : Pubkey
  debtOracles : List Pubkey
  collateralOracles : List Pubkey
  maxFills : UInt32
deriving DecidableEq

/-- Arguments of `claim_curator_fee_instruction`. -/
structure ClaimCuratorFee where
  vaultBank : Pubkey
  vaultMint : Pubkey
  curator : Pubkey
  curatorToken : Pubkey
  bank : Pubkey
  liquidityVault : Pubkey
  liquidityVaultAuthority : Pubkey
  oracle : Pubkey
  tokenProgram : Pubkey
  marginfiProgramId : Pubkey
  marginfiGroup : Pubkey
  subVaultId : UInt16
deriving DecidableEq

/-- An instruction, by the call that builds it. -/
inductive Instruction where
  /-- `ComputeBudgetInstruction::set_compute_unit_limit`. -/
  | setComputeUnitLimit (units : UInt32)
  /-- `ComputeBudgetInstruction::set_compute_unit_price`. -/
  | setComputeUnitPrice (microLamports : UInt64)
  | processMatchedLoan (args : ProcessMatchedLoan)
  | checkMaturityLiquidatable (args : CheckMaturityLiquidatable)
  | checkLtvLiquidatable (args : CheckLtvLiquidatable)
  | settleMaturedLoan (args : CloseLoan)
  | liquidateLoan (args : CloseLoan)
  | claimRepaymentForSubVault (args : ClaimRepaymentForSubVault)
  | matchCrank (args : MatchCrank)
  | claimCuratorFee (args : ClaimCuratorFee)
  /-- An instruction given by its fields. -/
  | raw (programId : Pubkey) (accounts : List AccountMeta) (data : List UInt8)
deriving DecidableEq

/-! ### Transactions -/

/-- An address lookup table. -/
structure AddressLookupTableAccount where
  key : Pubkey
  addresses : List Pubkey
deriving DecidableEq

/-- The two message formats. -/
inductive MessageVersion where
  | legacy
  | v0
deriving DecidableEq

/-- A compiled message, by what it was compiled from. -/
structure Message where
  version : MessageVersion
  payer : Pubkey
  ixs : List Instruction
  luts : List AddressLookupTableAccount
  recentBlockhash : Hash
deriving DecidableEq

/-- A transaction. -/
structure Transaction where
  signatures : List Signature
  message : Message
deriving DecidableEq

/-- What `getSignatureStatuses` says of a transaction that has landed. -/
structure TransactionStatus where
  /-- The error it landed with, `none` for a success. -/
  err : Option TransactionError
deriving DecidableEq

/-- What `simulateTransaction` answers. -/
structure RpcSimulateTransactionResult where
  err : Option TransactionError
  logs : Option (List String)
deriving DecidableEq

/-- The functions of the Solana SDK that the crankers call and that are not modelled further:
whether a v0 message compiles, signing, and program-derived addresses. -/
structure Sdk where
  /-- The error of `v0::Message::try_compile`, if any. -/
  compileError : Pubkey → List Instruction → List AddressLookupTableAccount → Hash → Option Error
  /-- The error of `VersionedTransaction::try_new`, if any. -/
  signError : Message → List Pubkey → Option Error
  /-- `msg.header().num_required_signatures`. -/
  numRequiredSignatures : Message → ℕ
  /-- The signature of a message by a key. -/
  sign : Pubkey → Message → Signature
  /-- `Pubkey::create_program_address`. -/
  createProgramAddress : List (List UInt8) → Pubkey → Except Error Pubkey
  /-- The address of `Pubkey::find_program_address`. -/
  findProgramAddress : List (List UInt8) → Pubkey → Pubkey

/-- The blockhash and 32 zeros. -/
def plainSignature (blockhash : Hash) : Signature where
  toList := blockhash.toList ++ List.replicate 32 0
  length_eq := by rw [List.length_append, blockhash.length_eq, List.length_replicate]

/-- The address made of the last seed, or the program's own. -/
def plainAddress (seeds : List (List UInt8)) (program : Pubkey) : Pubkey :=
  if h : ((seeds.getLast?.getD []).map (· + 100)).length = 32 then ⟨_, h⟩ else program

/-- An SDK under which every message compiles and signs, signatures are told apart by the blockhash
and derived addresses by the last seed. -/
def Sdk.plain : Sdk where
  compileError _ _ _ _ := none
  signError _ _ := none
  numRequiredSignatures _ := 1
  sign _ message := plainSignature message.recentBlockhash
  createProgramAddress _ program := .ok program
  findProgramAddress := plainAddress

end YdeltaCrankers
