import YdeltaCrankers.Solana.Codec
import Mathlib.Data.List.Dedup
import Mathlib.Data.List.Sort

/-!
# `src/bank_registry.rs`: the registry

Per-mint bank metadata, and the operations on the registry that need no calls.  What fills it is
in `YdeltaCrankers.Discovery.Basic`.

A `HashMap` is an association list without duplicate keys.  Its iteration order is the order of the
list; no result below depends on it.

* `BankRegistry.get_mergeFrom` : merging keeps every entry there is and adds those of the other
  registry whose mint is new.
-/

namespace YdeltaCrankers

/-- `std::collections::HashMap`. -/
abbrev HashMap (K V : Type) := AList fun _ : K => V

/-- The associated-token-account program. -/
def ataProgramId : Pubkey where
  toList := [140, 151, 37, 143, 78, 36, 137, 241, 187, 61, 16, 41, 20, 142, 13, 131, 11, 90, 19,
    153, 218, 255, 16, 132, 4, 142, 123, 216, 219, 233, 248, 89]
  length_eq := rfl

/-- The spl-token program. -/
def splTokenLegacyId : Pubkey where
  toList := [6, 221, 246, 225, 215, 101, 161, 147, 217, 203, 225, 70, 206, 235, 121, 172, 28, 180,
    133, 237, 95, 91, 55, 145, 58, 140, 245, 133, 126, 255, 0, 169]
  length_eq := rfl

/-- The token-2022 program. -/
def splToken2022Id : Pubkey where
  toList := [6, 221, 246, 225, 238, 117, 143, 222, 24, 66, 93, 188, 228, 108, 205, 218, 182, 26,
    252, 77, 131, 185, 13, 39, 254, 189, 249, 40, 216, 161, 139, 252]
  length_eq := rfl

/-- What the registry knows of a mint's bank. -/
structure BankInfo where
  mint : Pubkey
  bank : Pubkey
  liquidityVault : Pubkey
  liquidityVaultAuthority : Pubkey
  /-- One to five oracle keys. -/
  oracles : List Pubkey
  tokenProgram : Pubkey
  /-- marginfi's `OracleSetup` discriminant. -/
  oracleSetup : UInt8
deriving DecidableEq

/-- marginfi's `OracleSetup::SwitchboardPull`. -/
def oracleSetupSwitchboardPull : UInt8 := 4

namespace BankInfo

/-- The first oracle key. -/
def primaryOracle (info : BankInfo) : Pubkey := info.oracles.head?.getD default

/-- Pull feeds must be refreshed by the cranker itself. -/
def isSwitchboardPull (info : BankInfo) : Bool := info.oracleSetup == oracleSetupSwitchboardPull

/-- The associated token account of `owner` for the mint. -/
def ataFor (sdk : Sdk) (info : BankInfo) (owner : Pubkey) : Pubkey :=
  sdk.findProgramAddress [owner.toList, info.tokenProgram.toList, info.mint.toList] ataProgramId

end BankInfo

/-- Bank metadata by mint. -/
structure BankRegistry where
  byMint : HashMap Pubkey BankInfo
deriving DecidableEq

namespace BankRegistry

instance : Inhabited BankRegistry := ⟨⟨∅⟩⟩

/-- The entry of a mint. -/
def get (registry : BankRegistry) (mint : Pubkey) : Option BankInfo := registry.byMint.lookup mint

/-- The values of the map. -/
def values (registry : BankRegistry) : List BankInfo := registry.byMint.entries.map Sigma.snd

/-- The keys of the map. -/
def mints (registry : BankRegistry) : List Pubkey := registry.byMint.keys

def len (registry : BankRegistry) : ℕ := registry.byMint.entries.length

def isEmpty (registry : BankRegistry) : Bool := registry.byMint.entries.isEmpty

/-- Some bank uses a pull feed. -/
def hasSwitchboardPull (registry : BankRegistry) : Bool :=
  registry.values.any BankInfo.isSwitchboardPull

/-- The feeds of all pull banks, each once. -/
def switchboardPullOracles (registry : BankRegistry) : List Pubkey :=
  (((registry.values.filter BankInfo.isSwitchboardPull).map BankInfo.primaryOracle).insertionSort
    BytesLe).dedup

/-- `map.entry(key).or_insert(value)`. -/
def orInsert (map : HashMap Pubkey BankInfo) (entry : Σ _ : Pubkey, BankInfo) :
    HashMap Pubkey BankInfo :=
  match map.lookup entry.1 with
  | some _ => map
  | none => map.insert entry.1 entry.2

/-- Add the new mints of `other`; entries there are stay. -/
def mergeFrom (registry other : BankRegistry) : BankRegistry :=
  ⟨other.byMint.entries.foldl orInsert registry.byMint⟩

/-! ### Looking up -/

@[ext] theorem ext {r r' : BankRegistry} (h : r.byMint = r'.byMint) : r = r' := by
  cases r; cases r'; cases h; rfl

theorem get_default (mint : Pubkey) : (default : BankRegistry).get mint = none := rfl

theorem mem_values {registry : BankRegistry} {info : BankInfo} :
    info ∈ registry.values ↔ ∃ mint, registry.get mint = some info := by
  simp only [values, List.mem_map, get, ← Option.mem_def, AList.mem_lookup_iff]
  constructor
  · rintro ⟨⟨mint, info⟩, h, rfl⟩
    exact ⟨mint, h⟩
  · rintro ⟨mint, h⟩
    exact ⟨_, h, rfl⟩

theorem mem_mints {registry : BankRegistry} {mint : Pubkey} :
    mint ∈ registry.mints ↔ ∃ info, registry.get mint = some info := by
  rw [mints, ← AList.mem_keys, ← AList.lookup_isSome, Option.isSome_iff_exists]
  rfl

theorem isEmpty_iff {registry : BankRegistry} :
    registry.isEmpty = true ↔ ∀ mint, registry.get mint = none := by
  rw [isEmpty, List.isEmpty_iff]
  constructor
  · intro h mint
    obtain ⟨⟨entries, hnodup⟩⟩ := registry
    subst h
    rfl
  · intro h
    refine List.eq_nil_iff_forall_not_mem.2 fun ⟨mint, info⟩ hmem => ?_
    have hget : registry.get mint = some info := AList.mem_lookup_iff.2 hmem
    rw [h mint] at hget
    cases hget

theorem lookup_orInsert (map : HashMap Pubkey BankInfo) (entry : Σ _ : Pubkey, BankInfo)
    (mint : Pubkey) : (orInsert map entry).lookup mint =
      (map.lookup mint).or (if mint = entry.1 then some entry.2 else none) := by
  unfold orInsert
  obtain ⟨key, info⟩ := entry
  by_cases h : mint = key
  · subst h
    cases hlookup : map.lookup mint with
    | some info => simp [hlookup]
    | none => simp
  · simp only
    cases map.lookup key with
    | some info => simp [h]
    | none => simp [AList.lookup_insert_ne h, h]

/-- Merging adds what is new and overwrites nothing. -/
theorem get_mergeFrom (registry other : BankRegistry) (mint : Pubkey) :
    (registry.mergeFrom other).get mint = (registry.get mint).or (other.get mint) := by
  obtain ⟨⟨entries, hnodup⟩⟩ := other
  obtain ⟨map⟩ := registry
  change (entries.foldl orInsert map).lookup mint = (map.lookup mint).or (entries.dlookup mint)
  clear hnodup
  induction entries generalizing map with
  | nil => simp
  | cons entry entries ih =>
    rw [List.foldl_cons, ih, lookup_orInsert, Option.or_assoc]
    obtain ⟨key, info⟩ := entry
    by_cases h : mint = key
    · subst h
      simp [List.dlookup_cons_eq]
    · rw [List.dlookup_cons_ne _ _ h]
      simp [h]

end BankRegistry

end YdeltaCrankers
