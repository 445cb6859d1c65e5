import YdeltaCrankers.Numeric.Binary64
import Mathlib.Tactic.Linarith
import Mathlib.Tactic.Positivity

/-!
# Rounding preserves the order

A larger number never rounds to a smaller double (`Binary64.round_mono`): within one binade the
mantissas are compared, and across two of them the power of two in between.  Integers below
`2 ^ 53` are doubles (`Binary64.ofNat_of_le`).
-/

namespace Binary64

/-! ### The nearest integer -/

theorem floor_le_roundHalfEven (q : ℚ) : ⌊q⌋ ≤ roundHalfEven q := by
  unfold roundHalfEven
  split_ifs <;> omega

theorem roundHalfEven_le_floor_add_one (q : ℚ) : roundHalfEven q ≤ ⌊q⌋ + 1 := by
  unfold roundHalfEven
  split_ifs <;> omega

theorem roundHalfEven_intCast (n : ℤ) : roundHalfEven n = n := by
  unfold roundHalfEven
  rw [Int.floor_intCast, sub_self, if_pos (by norm_num)]

theorem roundHalfEven_mono {a b : ℚ} (h : a ≤ b) : roundHalfEven a ≤ roundHalfEven b := by
  rcases (Int.floor_mono h).lt_or_eq with hlt | heq
  · have ha := roundHalfEven_le_floor_add_one a
    have hb := floor_le_roundHalfEven b
    omega
  · -- between the same two integers
    have hfrac : a - ⌊a⌋ ≤ b - ⌊b⌋ := by rw [heq]; linarith
    unfold roundHalfEven
    rw [heq] at hfrac ⊢
    split_ifs <;> first | omega | linarith

/-! ### Doubles -/

theorem two_zpow_pos (k : ℤ) : (0 : ℚ) < 2 ^ k := zpow_pos two_pos k

/-- The weight of the mantissa's highest bit. -/
theorem mantissa_mul_lastBit (q : ℚ) :
    ((2 ^ 52 : ℤ) : ℚ) * 2 ^ lastBit q = 2 ^ Int.log 2 q := by
  have hexp : Int.log 2 q = 52 + lastBit q := by rw [lastBit]; omega
  rw [hexp, zpow_add₀ two_ne_zero]
  norm_num

/-- The weight of the bit above it. -/
theorem two_mantissa_mul_lastBit (q : ℚ) :
    ((2 ^ 53 : ℤ) : ℚ) * 2 ^ lastBit q = 2 ^ (Int.log 2 q + 1) := by
  have hexp : Int.log 2 q + 1 = 53 + lastBit q := by rw [lastBit]; omega
  rw [hexp, zpow_add₀ two_ne_zero]
  norm_num

theorem log_mono {a b : ℚ} (ha : 0 < a) (h : a ≤ b) : Int.log 2 a ≤ Int.log 2 b :=
  Int.log_mono_right ha h

/-- The mantissa of `q` lies between `2 ^ 52` and `2 ^ 53`. -/
theorem mantissa_bounds {q : ℚ} (hq : 0 < q) :
    ((2 ^ 52 : ℤ) : ℚ) ≤ q / 2 ^ lastBit q ∧ q / 2 ^ lastBit q ≤ ((2 ^ 53 : ℤ) : ℚ) := by
  have hlow : (2 : ℚ) ^ Int.log 2 q ≤ q := by
    simpa using Int.zpow_log_le_self (b := 2) (by norm_num) hq
  have hhigh : q < (2 : ℚ) ^ (Int.log 2 q + 1) := by
    simpa using Int.lt_zpow_succ_log_self (b := 2) (by norm_num) q
  have hpos := two_zpow_pos (lastBit q)
  constructor
  · rw [le_div_iff₀ hpos, mantissa_mul_lastBit]
    exact hlow
  · rw [div_le_iff₀ hpos, two_mantissa_mul_lastBit]
    exact hhigh.le

theorem round_of_pos {q : ℚ} (hq : 0 < q) :
    round q = roundHalfEven (q / 2 ^ lastBit q) * 2 ^ lastBit q := by
  rw [round, if_neg hq.ne']

/-- A double is not below the power of two at the bottom of its binade. -/
theorem zpow_log_le_round {q : ℚ} (hq : 0 < q) : (2 : ℚ) ^ Int.log 2 q ≤ round q := by
  have hmantissa : (2 ^ 52 : ℤ) ≤ roundHalfEven (q / 2 ^ lastBit q) := by
    rw [← roundHalfEven_intCast (2 ^ 52)]
    exact roundHalfEven_mono (mantissa_bounds hq).1
  rw [round_of_pos hq]
  calc (2 : ℚ) ^ Int.log 2 q = ((2 ^ 52 : ℤ) : ℚ) * 2 ^ lastBit q :=
        (mantissa_mul_lastBit q).symm
    _ ≤ roundHalfEven (q / 2 ^ lastBit q) * 2 ^ lastBit q :=
        mul_le_mul_of_nonneg_right (by exact_mod_cast hmantissa) (two_zpow_pos _).le

/-- A double is not above the power of two at the top of its binade. -/
theorem round_le_zpow_log {q : ℚ} (hq : 0 < q) : round q ≤ (2 : ℚ) ^ (Int.log 2 q + 1) := by
  have hmantissa : roundHalfEven (q / 2 ^ lastBit q) ≤ (2 ^ 53 : ℤ) := by
    rw [← roundHalfEven_intCast (2 ^ 53)]
    exact roundHalfEven_mono (mantissa_bounds hq).2
  rw [round_of_pos hq]
  calc (roundHalfEven (q / 2 ^ lastBit q) : ℚ) * 2 ^ lastBit q
      ≤ ((2 ^ 53 : ℤ) : ℚ) * 2 ^ lastBit q :=
        mul_le_mul_of_nonneg_right (by exact_mod_cast hmantissa) (two_zpow_pos _).le
    _ = 2 ^ (Int.log 2 q + 1) := two_mantissa_mul_lastBit q

theorem round_nonneg {q : ℚ} (hq : 0 ≤ q) : 0 ≤ round q := by
  rcases hq.eq_or_lt with rfl | hq
  · exact (if_pos rfl).ge
  · exact (two_zpow_pos _).le.trans (zpow_log_le_round hq)

/-- **A larger number never rounds to a smaller double.** -/
theorem round_mono {a b : ℚ} (ha : 0 ≤ a) (h : a ≤ b) : round a ≤ round b := by
  rcases ha.eq_or_lt with rfl | ha
  · have hzero : round 0 = 0 := if_pos rfl
    rw [hzero]
    exact round_nonneg h
  have hb := ha.trans_le h
  rcases (log_mono ha h).lt_or_eq with hlt | heq
  · calc round a ≤ 2 ^ (Int.log 2 a + 1) := round_le_zpow_log ha
      _ ≤ 2 ^ Int.log 2 b := zpow_le_zpow_right₀ (by norm_num) hlt
      _ ≤ round b := zpow_log_le_round hb
  · -- the two have the same last bit
    have hbit : lastBit a = lastBit b := by rw [lastBit, lastBit, heq]
    rw [round_of_pos ha, round_of_pos hb, hbit]
    have hquot : a / 2 ^ lastBit b ≤ b / 2 ^ lastBit b :=
      div_le_div_of_nonneg_right h (two_zpow_pos _).le
    exact mul_le_mul_of_nonneg_right (by exact_mod_cast roundHalfEven_mono hquot)
      (two_zpow_pos _).le

/-- An integer that is no longer than a mantissa is a double. -/
theorem ofNat_of_lt {n : ℕ} (hn : n < 2 ^ 53) : ofNat n = n := by
  rcases Nat.eq_zero_or_pos n with rfl | hpos
  · rw [ofNat, Nat.cast_zero]
    exact if_pos rfl
  have hq : (0 : ℚ) < n := by exact_mod_cast hpos
  -- the last bit has weight one or less, so the mantissa is an integer
  have hlog : Int.log 2 (n : ℚ) = Nat.log 2 n := Int.log_natCast 2 n
  have hle : Nat.log 2 n ≤ 52 := by
    have := Nat.log_lt_of_lt_pow hpos.ne' hn
    omega
  have hmantissa : (n : ℚ) / 2 ^ lastBit (n : ℚ) = ((n * 2 ^ (52 - Nat.log 2 n) : ℕ) : ℤ) := by
    have hexp : -lastBit (n : ℚ) = ((52 - Nat.log 2 n : ℕ) : ℤ) := by rw [lastBit, hlog]; omega
    rw [div_eq_mul_inv, ← zpow_neg, hexp, zpow_natCast]
    push_cast
    ring
  unfold ofNat
  rw [round_of_pos hq, hmantissa, roundHalfEven_intCast, ← hmantissa,
    div_mul_cancel₀ _ (two_zpow_pos _).ne']

theorem ofNat_mono {m n : ℕ} (h : m ≤ n) : ofNat m ≤ ofNat n :=
  round_mono (Nat.cast_nonneg m) (by exact_mod_cast h)

theorem ofNat_nonneg (n : ℕ) : 0 ≤ ofNat n := round_nonneg (Nat.cast_nonneg n)

theorem ofNat_pos {n : ℕ} (h : 0 < n) : 0 < ofNat n :=
  calc (0 : ℚ) < ofNat 1 := by rw [ofNat_of_lt (by norm_num)]; norm_num
    _ ≤ ofNat n := ofNat_mono h

/-- Division grows with the dividend and shrinks with the divisor. -/
theorem div_mono {a a' b b' : ℚ} (ha : 0 ≤ a) (haa : a ≤ a') (hb : 0 < b') (hbb : b' ≤ b) :
    div a b ≤ div a' b' :=
  round_mono (div_nonneg ha (hb.le.trans hbb)) (div_le_div₀ (ha.trans haa) haa hb hbb)

theorem zero_le_div {a b : ℚ} (ha : 0 ≤ a) (hb : 0 ≤ b) : 0 ≤ div a b :=
  round_nonneg (div_nonneg ha hb)

theorem mul_mono {a a' b : ℚ} (ha : 0 ≤ a) (h : a ≤ a') (hb : 0 ≤ b) : mul a b ≤ mul a' b :=
  round_mono (mul_nonneg ha hb) (mul_le_mul_of_nonneg_right h hb)

end Binary64
