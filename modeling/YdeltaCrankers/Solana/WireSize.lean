import YdeltaCrankers.Solana.Types
import Mathlib.Data.List.Dedup

/-!
# The size of a transaction

How many bytes a legacy transaction takes on the wire: its signatures, then the message with its
header, the account keys (each once), the blockhash and the compiled instructions, in which accounts
are indices into the keys.  Lengths are written as compact-u16.

Only instructions whose fields are known here have a size; those of ydelta's own builders do not.
-/

namespace YdeltaCrankers

/-- The most bytes a transaction may have, `PACKET_DATA_SIZE`. -/
def packetDataSize : ℕ := 1232

/-- The most addresses a `getMultipleAccounts` request may have. -/
def maxMultipleAccounts : ℕ := 100

/-- The compute-budget program. -/
def computeBudgetProgramId : Pubkey where
  toList := [3, 6, 70, 111, 229, 33, 23, 50, 255, 236, 173, 186, 114, 195, 155, 231, 188, 140, 229,
    187, 197, 247, 18, 107, 44, 67, 155, 58, 64, 0, 0, 0]
  length_eq := rfl

/-- What the size of an instruction depends on. -/
structure InstructionParts where
  programId : Pubkey
  accounts : List Pubkey
  dataLen : ℕ
deriving DecidableEq

/-- The fields of an instruction, if they are known here. -/
def Instruction.parts : Instruction → Option InstructionParts
  | .setComputeUnitLimit _ => some ⟨computeBudgetProgramId, [], 5⟩
  | .setComputeUnitPrice _ => some ⟨computeBudgetProgramId, [], 9⟩
  | .raw programId accounts data =>
    some ⟨programId, accounts.map AccountMeta.pubkey, data.length⟩
  | _ => none

/-- The bytes of a compact-u16 length. -/
def compactLen (n : ℕ) : ℕ := if n < 128 then 1 else if n < 16384 then 2 else 3

/-- The bytes of a compiled instruction. -/
def InstructionParts.size (p : InstructionParts) : ℕ :=
  1 + compactLen p.accounts.length + p.accounts.length + compactLen p.dataLen + p.dataLen

/-- The account keys of a message, each once. -/
def messageKeys (payer : Pubkey) (parts : List InstructionParts) : List Pubkey :=
  (payer :: parts.flatMap fun p => p.accounts ++ [p.programId]).dedup

/-- The bytes of a signed legacy transaction. -/
def legacySize (numSignatures : ℕ) (payer : Pubkey) (parts : List InstructionParts) : ℕ :=
  compactLen numSignatures + 64 * numSignatures + 3 +
    (compactLen (messageKeys payer parts).length + 32 * (messageKeys payer parts).length) + 32 +
    (compactLen parts.length + (parts.map InstructionParts.size).sum)

/-- The bytes of a transaction, if it is a legacy one of known instructions. -/
def Transaction.wireSize (tx : Transaction) : Option ℕ :=
  match tx.message.version with
  | .legacy =>
    if tx.message.ixs.all fun ix => ix.parts.isSome then
      some (legacySize tx.signatures.length tx.message.payer
        (tx.message.ixs.filterMap Instruction.parts))
    else none
  | .v0 => none

theorem compactLen_mono {m n : ℕ} (h : m ≤ n) : compactLen m ≤ compactLen n := by
  unfold compactLen
  split_ifs <;> omega

/-- There are at most as many keys as the parts mention. -/
theorem length_messageKeys_le {payer : Pubkey} {parts : List InstructionParts} {keys : List Pubkey}
    (h : ∀ p ∈ parts, p.programId ∈ keys ∧ p.accounts ⊆ keys) (hpayer : payer ∈ keys) :
    (messageKeys payer parts).length ≤ keys.length := by
  have hsubset : messageKeys payer parts ⊆ keys := by
    intro key hkey
    rw [messageKeys, List.mem_dedup, List.mem_cons, List.mem_flatMap] at hkey
    rcases hkey with rfl | ⟨p, hp, hkey⟩
    · exact hpayer
    · rcases List.mem_append.1 hkey with hkey | hkey
      · exact (h p hp).2 hkey
      · rw [List.mem_singleton.1 hkey]
        exact (h p hp).1
  exact (List.subperm_of_subset (List.nodup_dedup _) hsubset).length_le

/-- The largest legacy transaction with so many keys. -/
theorem legacySize_le {numSignatures k m : ℕ} {payer : Pubkey} {parts : List InstructionParts}
    (hkeys : (messageKeys payer parts).length ≤ k)
    (hparts : (parts.map InstructionParts.size).sum ≤ m) :
    legacySize numSignatures payer parts ≤ compactLen numSignatures + 64 * numSignatures + 3 +
      (compactLen k + 32 * k) + 32 + (compactLen parts.length + m) := by
  have hlen := compactLen_mono hkeys
  unfold legacySize
  omega

end YdeltaCrankers
