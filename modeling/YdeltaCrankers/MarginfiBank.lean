import YdeltaCrankers.Solana.Codec

/-!
# `src/marginfi_bank.rs`: decoding a bank account

`BankView.tryFromAccountData` reads a marginfi bank account at hard-coded offsets.

* `BankView.tryFromAccountData_eq_ok_iff` says when decoding succeeds, and with which fields; it
  never panics (`BankView.noPanic_tryFromAccountData`);
* `BankView.tryFromAccountData_oracles` is what the registry relies on: the oracle keys of a decoded
  bank are at most five, and none of them is the default key.
-/

namespace YdeltaCrankers

/-! ### The layout -/

/-- Anchor's 8-byte discriminator prefix on every account. -/
def discriminatorLen : ℕ := 8

/-- Size of a bank account. -/
def bankAccountSize : ℕ := 1864

/-- Size of its body, after the discriminator. -/
def bankBodySize : ℕ := 1856

def offMint : ℕ := 0
def offAssetShareValue : ℕ := 72
def offLiabilityShareValue : ℕ := 88
def offLiquidityVault : ℕ := 104
def offLvaBump : ℕ := 137
def offTotalLiabilityShares : ℕ := 248
def offTotalAssetShares : ℕ := 264

def bankConfigOffset : ℕ := 288
def offInterestRateConfig : ℕ := bankConfigOffset + 72
def offOptimalUtil : ℕ := offInterestRateConfig
def offPlateau : ℕ := offInterestRateConfig + 16
def offMaxIr : ℕ := offInterestRateConfig + 32
def offProtocolIrFee : ℕ := offInterestRateConfig + 96

def offZeroUtilRate : ℕ := offInterestRateConfig + 128
def offHundredUtilRate : ℕ := offInterestRateConfig + 132
def offPoints : ℕ := offInterestRateConfig + 136
def offCurveType : ℕ := offInterestRateConfig + 176
def numCurvePoints : ℕ := 5

def offOracleSetup : ℕ := bankConfigOffset + 313
def offOracleKeys : ℕ := bankConfigOffset + 314
def maxOracleKeys : ℕ := 5

/-- The first 8 bytes of `sha256("account:Bank")`. -/
def bankDiscriminator : List UInt8 := [142, 49, 166, 242, 50, 66, 97, 188]

/-! ### Decoding -/

/-- The fields read from a bank account. -/
structure BankView where
  mint : Pubkey
  liquidityVault : Pubkey
  lvaBump : UInt8
  assetShareValueFp48 : ℤ
  liabilityShareValueFp48 : ℤ
  totalAssetSharesFp48 : ℤ
  totalLiabilitySharesFp48 : ℤ
  optimalUtilizationFp48 : ℤ
  plateauInterestRateFp48 : ℤ
  maxInterestRateFp48 : ℤ
  protocolIrFeeFp48 : ℤ
  curveType : UInt8
  zeroUtilRateU32 : UInt32
  hundredUtilRateU32 : UInt32
  points : List (UInt32 × UInt32)
  oracleSetup : UInt8
  oracles : List Pubkey
deriving DecidableEq

/-- A key at `off`. -/
def readPubkey (body : List UInt8) (off : ℕ) : Except Failure Pubkey := do
  let bytes ← slice body off (off + 32)
  toArray 32 bytes

/-- A little-endian `i128` at `off`. -/
def readI128 (body : List UInt8) (off : ℕ) : Except Failure ℤ := do
  let bytes ← slice body off (off + 16)
  return (BitVec.ofNat 128 (leNat bytes)).toInt

/-- A little-endian `u32` at `off`. -/
def readU32 (body : List UInt8) (off : ℕ) : Except Failure UInt32 := do
  let bytes ← slice body off (off + 4)
  return UInt32.ofNat (leNat bytes)

/-- A bank account laid out as documented: a mint, an oracle set-up and one oracle key, and zeros
elsewhere. -/
def bankAccountData (mint : Pubkey) (oracleSetup : UInt8) (oracle : Pubkey) : List UInt8 :=
  bankDiscriminator ++ mint.toList ++ List.replicate 569 0 ++ oracleSetup :: oracle.toList ++
    List.replicate 1222 0

namespace BankView

/-- The interior kink points of the curve. -/
def readPoints (body : List UInt8) : List ℕ → Except Failure (List (UInt32 × UInt32))
  | [] => return []
  | i :: rest => do
    let util ← readU32 body (offPoints + i * 8)
    let rate ← readU32 body (offPoints + i * 8 + 4)
    let points ← readPoints body rest
    return (util, rate) :: points

/-- The oracle keys of the slots given; default keys are skipped. -/
def readOracles (body : List UInt8) : List ℕ → Except Failure (List Pubkey)
  | [] => return []
  | i :: rest => do
    let pk ← readPubkey body (offOracleKeys + i * 32)
    let oracles ← readOracles body rest
    return if pk ≠ default then pk :: oracles else oracles

/-- Decode the body of a bank account. -/
def ofBody (body : List UInt8) : Except Failure BankView := do
  let mint ← readPubkey body offMint
  let liquidityVault ← readPubkey body offLiquidityVault
  let lvaBump ← byteAt body offLvaBump
  let assetShareValueFp48 ← readI128 body offAssetShareValue
  let liabilityShareValueFp48 ← readI128 body offLiabilityShareValue
  let totalAssetSharesFp48 ← readI128 body offTotalAssetShares
  let totalLiabilitySharesFp48 ← readI128 body offTotalLiabilityShares
  let optimalUtilizationFp48 ← readI128 body offOptimalUtil
  let plateauInterestRateFp48 ← readI128 body offPlateau
  let maxInterestRateFp48 ← readI128 body offMaxIr
  let protocolIrFeeFp48 ← readI128 body offProtocolIrFee
  let curveType ← byteAt body offCurveType
  let zeroUtilRateU32 ← readU32 body offZeroUtilRate
  let hundredUtilRateU32 ← readU32 body offHundredUtilRate
  let points ← readPoints body (List.range numCurvePoints)
  let oracleSetup ← byteAt body offOracleSetup
  let oracles ← readOracles body (List.range maxOracleKeys)
  return {
    mint, liquidityVault, lvaBump, assetShareValueFp48, liabilityShareValueFp48,
    totalAssetSharesFp48, totalLiabilitySharesFp48, optimalUtilizationFp48,
    plateauInterestRateFp48, maxInterestRateFp48, protocolIrFeeFp48, curveType,
    zeroUtilRateU32, hundredUtilRateU32, points, oracleSetup, oracles }

/-- Decode a bank account. -/
def tryFromAccountData (data : List UInt8) : Except Failure BankView :=
  if data.length < bankAccountSize then
    .error (.error (.anyhow s!"bank account too small: {data.length} < {bankAccountSize}"))
  else do
    let discriminator ← slice data 0 discriminatorLen
    if discriminator ≠ bankDiscriminator then
      .error (.error (.anyhow "bank account discriminator mismatch (not a marginfi Bank?)"))
    else do
      let body ← slice data discriminatorLen (discriminatorLen + bankBodySize)
      ofBody body

/-! ### What is decoded

No read is out of range, so that each field is a function of the bytes at its place.
-/

/-- The `n` bytes at `off`. -/
def bytesAt (body : List UInt8) (off n : ℕ) : List UInt8 := (body.drop off).take n

/-- The byte at `off`. -/
def u8At (body : List UInt8) (off : ℕ) : UInt8 := (bytesAt body off 1).headD 0

/-- The little-endian `u32` at `off`. -/
def u32At (body : List UInt8) (off : ℕ) : UInt32 := UInt32.ofNat (leNat (bytesAt body off 4))

/-- The little-endian `i128` at `off`. -/
def i128At (body : List UInt8) (off : ℕ) : ℤ :=
  (BitVec.ofNat 128 (leNat (bytesAt body off 16))).toInt

/-- The key at `off`. -/
def keyAt (body : List UInt8) (off : ℕ) : Pubkey :=
  if h : (bytesAt body off 32).length = 32 then ⟨bytesAt body off 32, h⟩ else default

/-- The points of the curve. -/
def pointsAt (body : List UInt8) (slots : List ℕ) : List (UInt32 × UInt32) :=
  slots.map fun i => (u32At body (offPoints + i * 8), u32At body (offPoints + i * 8 + 4))

/-- The oracle slots, set or not. -/
def oracleSlots (body : List UInt8) (slots : List ℕ) : List Pubkey :=
  slots.map fun i => keyAt body (offOracleKeys + i * 32)

/-- The fields of the body of a bank account. -/
def viewOf (body : List UInt8) : BankView where
  mint := keyAt body offMint
  liquidityVault := keyAt body offLiquidityVault
  lvaBump := u8At body offLvaBump
  assetShareValueFp48 := i128At body offAssetShareValue
  liabilityShareValueFp48 := i128At body offLiabilityShareValue
  totalAssetSharesFp48 := i128At body offTotalAssetShares
  totalLiabilitySharesFp48 := i128At body offTotalLiabilityShares
  optimalUtilizationFp48 := i128At body offOptimalUtil
  plateauInterestRateFp48 := i128At body offPlateau
  maxInterestRateFp48 := i128At body offMaxIr
  protocolIrFeeFp48 := i128At body offProtocolIrFee
  curveType := u8At body offCurveType
  zeroUtilRateU32 := u32At body offZeroUtilRate
  hundredUtilRateU32 := u32At body offHundredUtilRate
  points := pointsAt body (List.range numCurvePoints)
  oracleSetup := u8At body offOracleSetup
  oracles := (oracleSlots body (List.range maxOracleKeys)).filter (· ≠ default)

section Reads

variable {body data : List UInt8} {off n : ℕ} {slots : List ℕ}

theorem length_bytesAt (h : off + n ≤ body.length) : (bytesAt body off n).length = n := by
  rw [bytesAt, List.length_take, List.length_drop]
  omega

theorem slice_eq (h : off + n ≤ body.length) :
    slice body off (off + n) = .ok (bytesAt body off n) := by
  rw [slice, if_pos ⟨Nat.le_add_right _ _, h⟩, Nat.add_sub_cancel_left, bytesAt]

theorem byteAt_eq (h : off + 1 ≤ body.length) : byteAt body off = .ok (u8At body off) := by
  have hget : body[off]? = some body[off] := List.getElem?_eq_getElem h
  rw [byteAt, hget, u8At, bytesAt, List.drop_eq_getElem_cons h]
  rfl

theorem readU32_eq (h : off + 4 ≤ body.length) : readU32 body off = .ok (u32At body off) := by
  rw [readU32, slice_eq h]
  rfl

theorem readI128_eq (h : off + 16 ≤ body.length) : readI128 body off = .ok (i128At body off) := by
  rw [readI128, slice_eq h]
  rfl

theorem readPubkey_eq (h : off + 32 ≤ body.length) :
    readPubkey body off = .ok (keyAt body off) := by
  rw [readPubkey, slice_eq h, keyAt, dif_pos (length_bytesAt h)]
  exact dif_pos (length_bytesAt h)

theorem readPoints_eq (h : ∀ i ∈ slots, offPoints + i * 8 + 8 ≤ body.length) :
    readPoints body slots = .ok (pointsAt body slots) := by
  induction slots with
  | nil => rfl
  | cons i rest ih =>
    obtain ⟨hi, hrest⟩ := List.forall_mem_cons.1 h
    rw [readPoints, readU32_eq (by omega), readU32_eq (by omega), ih hrest]
    rfl

theorem readOracles_eq (h : ∀ i ∈ slots, offOracleKeys + i * 32 + 32 ≤ body.length) :
    readOracles body slots = .ok ((oracleSlots body slots).filter (· ≠ default)) := by
  induction slots with
  | nil => rfl
  | cons i rest ih =>
    obtain ⟨hi, hrest⟩ := List.forall_mem_cons.1 h
    have hslots : oracleSlots body (i :: rest) =
        keyAt body (offOracleKeys + i * 32) :: oracleSlots body rest := rfl
    rw [readOracles, readPubkey_eq hi, ih hrest, hslots, List.filter_cons]
    simp only [decide_eq_true_eq]
    rfl

theorem ofBody_eq (h : body.length = bankBodySize) : ofBody body = .ok (viewOf body) := by
  have hpoints : readPoints body (List.range numCurvePoints) = _ :=
    readPoints_eq (by rw [h]; decide)
  have horacles : readOracles body (List.range maxOracleKeys) = _ :=
    readOracles_eq (by rw [h]; decide)
  simp (disch := rw [h]; decide) only [ofBody, readPubkey_eq, byteAt_eq, readI128_eq, readU32_eq,
    hpoints, horacles]
  rfl

/-- Which accounts are decoded, and how. -/
theorem tryFromAccountData_eq (data : List UInt8) : tryFromAccountData data =
    if data.length < bankAccountSize then
      .error (.error (.anyhow s!"bank account too small: {data.length} < {bankAccountSize}"))
    else if bytesAt data 0 discriminatorLen ≠ bankDiscriminator then
      .error (.error (.anyhow "bank account discriminator mismatch (not a marginfi Bank?)"))
    else .ok (viewOf (bytesAt data discriminatorLen bankBodySize)) := by
  unfold tryFromAccountData
  split
  · rfl
  rename_i hlen
  have hsize : bankAccountSize ≤ data.length := Nat.le_of_not_lt hlen
  have hdiscriminator : slice data 0 (0 + discriminatorLen) = _ :=
    slice_eq (le_trans (by decide) hsize)
  have hbody : slice data discriminatorLen (discriminatorLen + bankBodySize) = _ :=
    slice_eq hsize
  rw [Nat.zero_add] at hdiscriminator
  rw [hdiscriminator, hbody]
  change (if _ then _ else _) = _
  split
  · rfl
  · exact ofBody_eq (length_bytesAt hsize)

theorem tryFromAccountData_eq_ok_iff {view : BankView} : tryFromAccountData data = .ok view ↔
    bankAccountSize ≤ data.length ∧ bytesAt data 0 discriminatorLen = bankDiscriminator ∧
      view = viewOf (bytesAt data discriminatorLen bankBodySize) := by
  rw [tryFromAccountData_eq]
  split
  · rename_i hlen
    exact ⟨nofun, fun h => absurd hlen (Nat.not_lt.2 h.1)⟩
  rename_i hlen
  split
  · rename_i hdiscriminator
    exact ⟨nofun, fun h => absurd h.2.1 hdiscriminator⟩
  rename_i hdiscriminator
  constructor
  · intro h
    exact ⟨Nat.le_of_not_lt hlen, not_not.1 hdiscriminator, (Except.ok.inj h).symm⟩
  · rintro ⟨-, -, rfl⟩
    rfl

/-- Decoding a bank account never panics. -/
theorem noPanic_tryFromAccountData (data : List UInt8) : NoPanic (tryFromAccountData data) := by
  rw [tryFromAccountData_eq]
  split
  · exact noPanic_error _
  split
  · exact noPanic_error _
  · exact noPanic_ok _

/-- A decoded bank has at most five oracle keys, none of them the default key. -/
theorem tryFromAccountData_oracles {view : BankView} (h : tryFromAccountData data = .ok view) :
    view.oracles.length ≤ 5 ∧ default ∉ view.oracles := by
  obtain ⟨-, -, rfl⟩ := tryFromAccountData_eq_ok_iff.1 h
  constructor
  · refine (List.length_filter_le _ _).trans ?_
    rw [oracleSlots, List.length_map, List.length_range]
    exact le_rfl
  · intro hmem
    exact absurd rfl (of_decide_eq_true (List.mem_filter.1 hmem).2)

end Reads

end BankView

end YdeltaCrankers
