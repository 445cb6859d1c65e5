import YdeltaCrankers.MarginfiBank

/-!
# The documented layout of a bank account

`src/marginfi_bank.rs` documents the fields of a bank account one after the other, each with its
size.  `BankLayout` is that table: the fields that are decoded have their types, every other field
is an arbitrary byte string of its size.  The offsets of the decoder are not part of it; they are
the sums of the sizes before a field.

**Main theorem**: `BankLayout.tryFromAccountData_layout`.
-/

namespace YdeltaCrankers

open BankView

/-! ### Segments -/

section Segments

variable {segments : List (List UInt8)} {s body body' : List UInt8} {i off n : ℕ}

/-- A segment starts where the sizes of those before it add up to. -/
theorem bytesAt_flatten (h : segments[i]? = some s) :
    bytesAt segments.flatten ((segments.map List.length).take i).sum s.length = s := by
  obtain ⟨hi, hs⟩ := List.getElem?_eq_some_iff.1 h
  have hsplit : segments.flatten =
      (segments.take i).flatten ++ (s ++ (segments.drop (i + 1)).flatten) := by
    conv_lhs => rw [← List.take_append_drop i segments, List.drop_eq_getElem_cons hi, hs]
    rw [List.flatten_append, List.flatten_cons]
  have hoff : ((segments.map List.length).take i).sum = (segments.take i).flatten.length := by
    rw [← List.map_take, List.length_flatten]
  rw [bytesAt, hsplit, hoff, List.drop_left, List.take_left]

theorem bytesAt_append_right : bytesAt (s ++ body) s.length n = body.take n := by
  rw [bytesAt, List.drop_left]

/-- A range inside a range. -/
theorem bytesAt_bytesAt {off' n' : ℕ} (h : off' + n' ≤ n) :
    bytesAt (bytesAt body off n) off' n' = bytesAt body (off + off') n' := by
  rw [bytesAt, bytesAt, bytesAt, List.drop_take, List.take_take, List.drop_drop,
    Nat.min_eq_left (by omega)]

/-- A range is known from its bytes. -/
theorem bytesAt_congr (h : ∀ i, off ≤ i → i < off + n → body[i]? = body'[i]?) :
    bytesAt body off n = bytesAt body' off n := by
  refine List.ext_getElem? fun i => ?_
  rw [bytesAt, bytesAt, List.getElem?_take, List.getElem?_take]
  split
  · rw [List.getElem?_drop, List.getElem?_drop]
    exact h (off + i) (Nat.le_add_right _ _) (by omega)
  · rfl

end Segments

/-! ### The table -/

/-- `InterestRateConfig`. -/
structure InterestRateConfigLayout where
  optimalUtilizationRate : BitVec 128
  plateauInterestRate : BitVec 128
  maxInterestRate : BitVec 128
  insuranceFeeFixedApr : Bytes 16
  insuranceIrFee : Bytes 16
  protocolFixedFeeApr : Bytes 16
  protocolIrFee : BitVec 128
  protocolOriginationFee : Bytes 16
  zeroUtilRate : UInt32
  hundredUtilRate : UInt32
  points : Fin 5 → UInt32 × UInt32
  curveType : UInt8
  padding : Bytes 63
deriving Inhabited

/-- `BankConfig`. -/
structure BankConfigLayout where
  assetWeightInit : Bytes 16
  assetWeightMaint : Bytes 16
  liabilityWeightInit : Bytes 16
  liabilityWeightMaint : Bytes 16
  depositLimit : Bytes 8
  interestRateConfig : InterestRateConfigLayout
  operationalState : Bytes 1
  oracleSetup : UInt8
  oracleKeys : Fin 5 → Pubkey
  rest : Bytes 70
deriving Inhabited

/-- The body of a bank account. -/
structure BankLayout where
  mint : Pubkey
  mintDecimals : Bytes 1
  group : Bytes 32
  pad0 : Bytes 7
  assetShareValue : BitVec 128
  liabilityShareValue : BitVec 128
  liquidityVault : Pubkey
  liquidityVaultBump : Bytes 1
  lvaBump : UInt8
  insuranceVault : Bytes 32
  insuranceVaultBumps : Bytes 2
  pad1 : Bytes 4
  collectedInsuranceFeesOutstanding : Bytes 16
  feeVault : Bytes 32
  feeVaultBumps : Bytes 2
  pad2 : Bytes 6
  collectedGroupFeesOutstanding : Bytes 16
  totalLiabilityShares : BitVec 128
  totalAssetShares : BitVec 128
  lastUpdate : Bytes 8
  config : BankConfigLayout
  rest : Bytes 1024
deriving Inhabited

/-- `i128::to_le_bytes`. -/
def i128LeBytes (x : BitVec 128) : List UInt8 := leBytes 16 x.toNat

/-- `u32::to_le_bytes`. -/
def u32LeBytes (x : UInt32) : List UInt8 := leBytes 4 x.toNat

/-- The fields in the order of the table. -/
def InterestRateConfigLayout.segments (t : InterestRateConfigLayout) : List (List UInt8) :=
  [i128LeBytes t.optimalUtilizationRate, i128LeBytes t.plateauInterestRate,
    i128LeBytes t.maxInterestRate, t.insuranceFeeFixedApr.toList, t.insuranceIrFee.toList,
    t.protocolFixedFeeApr.toList, i128LeBytes t.protocolIrFee, t.protocolOriginationFee.toList,
    u32LeBytes t.zeroUtilRate, u32LeBytes t.hundredUtilRate,
    u32LeBytes (t.points 0).1, u32LeBytes (t.points 0).2, u32LeBytes (t.points 1).1,
    u32LeBytes (t.points 1).2, u32LeBytes (t.points 2).1, u32LeBytes (t.points 2).2,
    u32LeBytes (t.points 3).1, u32LeBytes (t.points 3).2, u32LeBytes (t.points 4).1,
    u32LeBytes (t.points 4).2, [t.curveType], t.padding.toList]

/-- The fields in the order of the table. -/
def BankConfigLayout.segments (t : BankConfigLayout) : List (List UInt8) :=
  [t.assetWeightInit.toList, t.assetWeightMaint.toList, t.liabilityWeightInit.toList,
    t.liabilityWeightMaint.toList, t.depositLimit.toList] ++ t.interestRateConfig.segments ++
  [t.operationalState.toList, [t.oracleSetup], (t.oracleKeys 0).toList, (t.oracleKeys 1).toList,
    (t.oracleKeys 2).toList, (t.oracleKeys 3).toList, (t.oracleKeys 4).toList, t.rest.toList]

namespace BankLayout

variable (t : BankLayout)

/-- The fields in the order of the table. -/
def segments : List (List UInt8) :=
  [t.mint.toList, t.mintDecimals.toList, t.group.toList, t.pad0.toList,
    i128LeBytes t.assetShareValue, i128LeBytes t.liabilityShareValue, t.liquidityVault.toList,
    t.liquidityVaultBump.toList, [t.lvaBump], t.insuranceVault.toList,
    t.insuranceVaultBumps.toList, t.pad1.toList, t.collectedInsuranceFeesOutstanding.toList,
    t.feeVault.toList, t.feeVaultBumps.toList, t.pad2.toList,
    t.collectedGroupFeesOutstanding.toList, i128LeBytes t.totalLiabilityShares,
    i128LeBytes t.totalAssetShares, t.lastUpdate.toList] ++ t.config.segments ++ [t.rest.toList]

/-- The sizes of the fields, as documented. -/
def segmentSizes : List ℕ :=
  [32, 1, 32, 7, 16, 16, 32, 1, 1, 32, 2, 4, 16, 32, 2, 6, 16, 16, 16, 8] ++
    ([16, 16, 16, 16, 8] ++
      [16, 16, 16, 16, 16, 16, 16, 16, 4, 4, 4, 4, 4, 4, 4, 4, 4, 4, 4, 4, 1, 63] ++
    [1, 1, 32, 32, 32, 32, 32, 70]) ++ [1024]

/-- The body of the account. -/
def body : List UInt8 := t.segments.flatten

/-- The account, without trailing data. -/
def data : List UInt8 := bankDiscriminator ++ t.body

/-- The fields that are decoded. -/
def view : BankView where
  mint := t.mint
  liquidityVault := t.liquidityVault
  lvaBump := t.lvaBump
  assetShareValueFp48 := t.assetShareValue.toInt
  liabilityShareValueFp48 := t.liabilityShareValue.toInt
  totalAssetSharesFp48 := t.totalAssetShares.toInt
  totalLiabilitySharesFp48 := t.totalLiabilityShares.toInt
  optimalUtilizationFp48 := t.config.interestRateConfig.optimalUtilizationRate.toInt
  plateauInterestRateFp48 := t.config.interestRateConfig.plateauInterestRate.toInt
  maxInterestRateFp48 := t.config.interestRateConfig.maxInterestRate.toInt
  protocolIrFeeFp48 := t.config.interestRateConfig.protocolIrFee.toInt
  curveType := t.config.interestRateConfig.curveType
  zeroUtilRateU32 := t.config.interestRateConfig.zeroUtilRate
  hundredUtilRateU32 := t.config.interestRateConfig.hundredUtilRate
  points := List.ofFn t.config.interestRateConfig.points
  oracleSetup := t.config.oracleSetup
  oracles := (List.ofFn t.config.oracleKeys).filter (· ≠ default)

variable {t}

theorem map_length_segments : t.segments.map List.length = segmentSizes := by
  simp only [segments, BankConfigLayout.segments, InterestRateConfigLayout.segments,
    List.map_append, List.map_cons, List.map_nil, Bytes.length_eq, i128LeBytes, u32LeBytes,
    length_leBytes, List.length_singleton]
  rfl

theorem length_body : t.body.length = bankBodySize := by
  rw [body, List.length_flatten, map_length_segments]
  rfl

/-- The bytes of a field are at the sum of the sizes before it. -/
theorem bytesAt_body {s : List UInt8} {off n : ℕ} (i : ℕ) (hs : t.segments[i]? = some s)
    (hoff : (segmentSizes.take i).sum = off) (hn : segmentSizes[i]? = some n) :
    bytesAt t.body off n = s := by
  have hlen : s.length = n := by
    rw [← map_length_segments (t := t), List.getElem?_map, hs] at hn
    exact Option.some.inj hn
  rw [← hoff, ← hlen, ← map_length_segments (t := t)]
  exact bytesAt_flatten hs

end BankLayout

/-! ### Reading a field back -/

section Fields

variable {body : List UInt8} {off : ℕ}

theorem keyAt_of_bytesAt {pk : Pubkey} (h : bytesAt body off 32 = pk.toList) :
    keyAt body off = pk := by
  rw [keyAt, dif_pos (h ▸ pk.length_eq)]
  exact Bytes.ext h

theorem u8At_of_bytesAt {b : UInt8} (h : bytesAt body off 1 = [b]) : u8At body off = b := by
  rw [u8At, h]
  rfl

theorem u32At_of_bytesAt {x : UInt32} (h : bytesAt body off 4 = u32LeBytes x) :
    u32At body off = x := by
  rw [u32At, h, u32LeBytes, leNat_leBytes x.toNat_lt, UInt32.ofNat_toNat]

theorem i128At_of_bytesAt {x : BitVec 128} (h : bytesAt body off 16 = i128LeBytes x) :
    i128At body off = x.toInt := by
  rw [i128At, h, i128LeBytes, leNat_leBytes x.isLt, BitVec.ofNat_toNat, BitVec.setWidth_eq]

end Fields

namespace BankLayout

variable {t : BankLayout}

/-- The two numbers of each point. -/
theorem pointAt_body : ∀ i : Fin 5,
    (u32At t.body (offPoints + i * 8), u32At t.body (offPoints + i * 8 + 4)) =
      t.config.interestRateConfig.points i
  | 0 => Prod.ext (u32At_of_bytesAt (bytesAt_body 35 rfl rfl rfl))
      (u32At_of_bytesAt (bytesAt_body 36 rfl rfl rfl))
  | 1 => Prod.ext (u32At_of_bytesAt (bytesAt_body 37 rfl rfl rfl))
      (u32At_of_bytesAt (bytesAt_body 38 rfl rfl rfl))
  | 2 => Prod.ext (u32At_of_bytesAt (bytesAt_body 39 rfl rfl rfl))
      (u32At_of_bytesAt (bytesAt_body 40 rfl rfl rfl))
  | 3 => Prod.ext (u32At_of_bytesAt (bytesAt_body 41 rfl rfl rfl))
      (u32At_of_bytesAt (bytesAt_body 42 rfl rfl rfl))
  | 4 => Prod.ext (u32At_of_bytesAt (bytesAt_body 43 rfl rfl rfl))
      (u32At_of_bytesAt (bytesAt_body 44 rfl rfl rfl))

/-- The key of each oracle slot. -/
theorem oracleKeyAt_body : ∀ i : Fin 5,
    keyAt t.body (offOracleKeys + i * 32) = t.config.oracleKeys i
  | 0 => keyAt_of_bytesAt (bytesAt_body 49 rfl rfl rfl)
  | 1 => keyAt_of_bytesAt (bytesAt_body 50 rfl rfl rfl)
  | 2 => keyAt_of_bytesAt (bytesAt_body 51 rfl rfl rfl)
  | 3 => keyAt_of_bytesAt (bytesAt_body 52 rfl rfl rfl)
  | 4 => keyAt_of_bytesAt (bytesAt_body 53 rfl rfl rfl)

theorem oracleSlots_body :
    oracleSlots t.body (List.range maxOracleKeys) = List.ofFn t.config.oracleKeys :=
  calc oracleSlots t.body (List.range maxOracleKeys)
      = List.ofFn fun i : Fin 5 => keyAt t.body (offOracleKeys + i * 32) := rfl
    _ = List.ofFn t.config.oracleKeys := congrArg List.ofFn (funext oracleKeyAt_body)

theorem pointsAt_body : pointsAt t.body (List.range numCurvePoints) =
    List.ofFn t.config.interestRateConfig.points :=
  calc pointsAt t.body (List.range numCurvePoints)
      = List.ofFn fun i : Fin 5 =>
          (u32At t.body (offPoints + i * 8), u32At t.body (offPoints + i * 8 + 4)) := rfl
    _ = List.ofFn t.config.interestRateConfig.points := congrArg List.ofFn (funext pointAt_body)

/-- Every field is read where the table puts it. -/
theorem viewOf_body : viewOf t.body = t.view := by
  have hmint : keyAt t.body offMint = _ := keyAt_of_bytesAt (bytesAt_body 0 rfl rfl rfl)
  have hassetShare : i128At t.body offAssetShareValue = _ :=
    i128At_of_bytesAt (bytesAt_body 4 rfl rfl rfl)
  have hliabilityShare : i128At t.body offLiabilityShareValue = _ :=
    i128At_of_bytesAt (bytesAt_body 5 rfl rfl rfl)
  have hvault : keyAt t.body offLiquidityVault = _ :=
    keyAt_of_bytesAt (bytesAt_body 6 rfl rfl rfl)
  have hbump : u8At t.body offLvaBump = _ := u8At_of_bytesAt (bytesAt_body 8 rfl rfl rfl)
  have hliabilities : i128At t.body offTotalLiabilityShares = _ :=
    i128At_of_bytesAt (bytesAt_body 17 rfl rfl rfl)
  have hassets : i128At t.body offTotalAssetShares = _ :=
    i128At_of_bytesAt (bytesAt_body 18 rfl rfl rfl)
  have hoptimal : i128At t.body offOptimalUtil = _ :=
    i128At_of_bytesAt (bytesAt_body 25 rfl rfl rfl)
  have hplateau : i128At t.body offPlateau = _ :=
    i128At_of_bytesAt (bytesAt_body 26 rfl rfl rfl)
  have hmax : i128At t.body offMaxIr = _ := i128At_of_bytesAt (bytesAt_body 27 rfl rfl rfl)
  have hfee : i128At t.body offProtocolIrFee = _ :=
    i128At_of_bytesAt (bytesAt_body 31 rfl rfl rfl)
  have hzero : u32At t.body offZeroUtilRate = _ :=
    u32At_of_bytesAt (bytesAt_body 33 rfl rfl rfl)
  have hhundred : u32At t.body offHundredUtilRate = _ :=
    u32At_of_bytesAt (bytesAt_body 34 rfl rfl rfl)
  have hcurve : u8At t.body offCurveType = _ := u8At_of_bytesAt (bytesAt_body 45 rfl rfl rfl)
  have hsetup : u8At t.body offOracleSetup = _ := u8At_of_bytesAt (bytesAt_body 48 rfl rfl rfl)
  simp only [viewOf, hmint, hassetShare, hliabilityShare, hvault, hbump, hliabilities, hassets,
    hoptimal, hplateau, hmax, hfee, hzero, hhundred, hcurve, hsetup, pointsAt_body,
    oracleSlots_body]
  rfl

theorem bytesAt_data (trailing : List UInt8) :
    bytesAt (t.data ++ trailing) discriminatorLen bankBodySize = t.body := by
  rw [data, List.append_assoc, ← length_body (t := t)]
  exact bytesAt_append_right.trans List.take_left

theorem tryFromAccountData_data (trailing : List UInt8) :
    tryFromAccountData (t.data ++ trailing) = .ok t.view := by
  have hlen : t.data.length = bankAccountSize := by
    rw [data, List.length_append, length_body]
    rfl
  refine tryFromAccountData_eq_ok_iff.2 ⟨?_, ?_, ?_⟩
  · rw [List.length_append, hlen]
    exact Nat.le_add_right _ _
  · rw [data, List.append_assoc]
    exact (List.take_left : (bankDiscriminator ++ _).take bankDiscriminator.length = _)
  · rw [bytesAt_data, viewOf_body]

end BankLayout

/-! ### The bytes that matter -/

/-- Where the decoded fields are in the body: offsets and sizes. -/
def fieldRanges : List (ℕ × ℕ) :=
  [(offMint, 32), (offAssetShareValue, 16), (offLiabilityShareValue, 16), (offLiquidityVault, 32),
    (offLvaBump, 1), (offTotalLiabilityShares, 16), (offTotalAssetShares, 16), (offOptimalUtil, 16),
    (offPlateau, 16), (offMaxIr, 16), (offProtocolIrFee, 16), (offZeroUtilRate, 4),
    (offHundredUtilRate, 4), (offPoints, 8 * numCurvePoints), (offCurveType, 1),
    (offOracleSetup, 1), (offOracleKeys, 32 * maxOracleKeys)]

/-- The byte of the account is in the discriminator or in a decoded field. -/
def IsRead (i : ℕ) : Prop :=
  i < discriminatorLen ∨ ∃ range ∈ fieldRanges,
    discriminatorLen + range.1 ≤ i ∧ i < discriminatorLen + range.1 + range.2

section Congr

variable {body body' : List UInt8}

theorem viewOf_congr (h : ∀ range ∈ fieldRanges, ∀ off n, range.1 ≤ off →
    off + n ≤ range.1 + range.2 → bytesAt body off n = bytesAt body' off n) :
    viewOf body = viewOf body' := by
  have hfield : ∀ range ∈ fieldRanges,
      bytesAt body range.1 range.2 = bytesAt body' range.1 range.2 :=
    fun range hmem => h range hmem _ _ le_rfl le_rfl
  have hpoints : pointsAt body (List.range numCurvePoints) =
      pointsAt body' (List.range numCurvePoints) := by
    refine List.map_congr_left fun i hi => ?_
    have hlt : i < 5 := List.mem_range.1 hi
    have hrange := h (offPoints, 8 * numCurvePoints) (by decide)
    simp only [numCurvePoints] at hrange
    rw [u32At, u32At, u32At, u32At, hrange _ _ (by omega) (by omega),
      hrange _ _ (by omega) (by omega)]
  have hslots : oracleSlots body (List.range maxOracleKeys) =
      oracleSlots body' (List.range maxOracleKeys) := by
    refine List.map_congr_left fun i hi => ?_
    have hlt : i < 5 := List.mem_range.1 hi
    have hrange := h (offOracleKeys, 32 * maxOracleKeys) (by decide)
    simp only [maxOracleKeys] at hrange
    simp only [keyAt, hrange _ 32 (Nat.le_add_right _ (i * 32)) (by omega)]
  simp only [fieldRanges, List.forall_mem_cons] at hfield
  obtain ⟨h₀, h₁, h₂, h₃, h₄, h₅, h₆, h₇, h₈, h₉, h₁₀, h₁₁, h₁₂, -, h₁₃, h₁₄, -⟩ := hfield
  simp only [viewOf, keyAt, u8At, u32At, i128At, h₀, h₁, h₂, h₃, h₄, h₅, h₆, h₇, h₈, h₉, h₁₀, h₁₁,
    h₁₂, h₁₃, h₁₄, hpoints, hslots]

end Congr

section Account

variable {data data' : List UInt8}

/-- Decoding depends on the discriminator and on the decoded fields only. -/
theorem tryFromAccountData_congr (hlen : bankAccountSize ≤ data.length)
    (hlen' : bankAccountSize ≤ data'.length) (h : ∀ i, IsRead i → data[i]? = data'[i]?) :
    tryFromAccountData data = tryFromAccountData data' := by
  have hdiscriminator : bytesAt data 0 discriminatorLen = bytesAt data' 0 discriminatorLen :=
    bytesAt_congr fun i _ hi => h i (.inl (by omega))
  have hview : viewOf (bytesAt data discriminatorLen bankBodySize) =
      viewOf (bytesAt data' discriminatorLen bankBodySize) := by
    refine viewOf_congr fun range hmem off n hoff hn => ?_
    have hfits : ∀ range ∈ fieldRanges, range.1 + range.2 ≤ bankBodySize := by decide
    have hle := hn.trans (hfits range hmem)
    rw [bytesAt_bytesAt hle, bytesAt_bytesAt hle]
    exact bytesAt_congr fun i hi hi' => h i (.inr ⟨range, hmem, by omega, by omega⟩)
  rw [tryFromAccountData_eq, tryFromAccountData_eq, hdiscriminator, hview,
    if_neg (Nat.not_lt.2 hlen), if_neg (Nat.not_lt.2 hlen')]

/-- An account is refused when it is too short or has another discriminator. -/
theorem tryFromAccountData_refuses_iff : (∃ e, tryFromAccountData data = .error (.error e)) ↔
    data.length < bankAccountSize ∨ data.take discriminatorLen ≠ bankDiscriminator := by
  change _ ↔ _ ∨ bytesAt data 0 discriminatorLen ≠ bankDiscriminator
  rw [tryFromAccountData_eq]
  split
  · rename_i hlen
    exact ⟨fun _ => .inl hlen, fun _ => ⟨_, rfl⟩⟩
  rename_i hlen
  split
  · rename_i hdiscriminator
    exact ⟨fun _ => .inr hdiscriminator, fun _ => ⟨_, rfl⟩⟩
  · rename_i hdiscriminator
    exact ⟨fun ⟨e, he⟩ => (nomatch he), fun h => (h.elim hlen hdiscriminator).elim⟩

end Account

/-- **Decoding matches the documented layout.**  An account laid out by the table decodes to the
fields of the table, whatever follows it; nothing else is read; and an account is refused exactly
when it is too short or has another discriminator, without a panic. -/
theorem BankLayout.tryFromAccountData_layout :
    (∀ (t : BankLayout) trailing, tryFromAccountData (t.data ++ trailing) = .ok t.view) ∧
    (∀ t : BankLayout, (∀ i, t.config.oracleKeys i ≠ default) →
      t.view.oracles = List.ofFn t.config.oracleKeys) ∧
    (∀ data data' : List UInt8, bankAccountSize ≤ data.length → bankAccountSize ≤ data'.length →
      (∀ i, IsRead i → data[i]? = data'[i]?) →
        tryFromAccountData data = tryFromAccountData data') ∧
    ∀ data, NoPanic (tryFromAccountData data) ∧
      ((∃ e, tryFromAccountData data = .error (.error e)) ↔
        data.length < bankAccountSize ∨ data.take discriminatorLen ≠ bankDiscriminator) := by
  refine ⟨fun t trailing => tryFromAccountData_data trailing, fun t hset => ?_,
    fun data data' => tryFromAccountData_congr,
    fun data => ⟨noPanic_tryFromAccountData data, tryFromAccountData_refuses_iff⟩⟩
  refine List.filter_eq_self.2 fun pk hmem => ?_
  obtain ⟨i, rfl⟩ := List.mem_ofFn.1 hmem
  exact decide_eq_true (hset i)

end YdeltaCrankers
