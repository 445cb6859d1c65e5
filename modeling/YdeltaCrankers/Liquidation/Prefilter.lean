import YdeltaCrankers.Handlers.Liquidator
import YdeltaCrankers.Numeric.Rounding

/-!
# The static prefilter

A fixed loan is put to the LTV simulation only if its outstanding debt is at least 1.05 times its
principal, which `static_accrued_ratio_bps` computes in doubles.

* `LiquidatorHandler.maybeLtvBreach_mono` : more debt, or less principal, never makes a loan fail
  the prefilter.
* `LiquidatorHandler.maybeLtvBreach_iff` : up to a principal of `2 ^ 49` atoms the rounding errors
  do not show: a fixed loan passes exactly if `21 * principal ≤ 20 * outstanding`.

The second result follows from monotonicity at two quotients, `21 / 20` itself and the largest
quotient below it that such a principal allows.
-/

namespace YdeltaCrankers

/-- The ratio of two doubles in basis points, before it is cut off to a `u32`. -/
def accruedRatio (outstanding principal : ℚ) : ℚ :=
  Binary64.mul (Binary64.div outstanding principal) 10000

/-- `ratio.clamp(0.0, u32::MAX as f64) as u32`. -/
def clampU32 (ratio : ℚ) : ℕ := (max 0 (min (2 ^ 32 - 1) ratio)).floor.toNat

theorem clampU32_mono {a b : ℚ} (h : a ≤ b) : clampU32 a ≤ clampU32 b := by
  have hmin : min (2 ^ 32 - 1) a ≤ min (2 ^ 32 - 1) b := min_le_min_left _ h
  exact Int.toNat_le_toNat (Rat.floor_monotone (max_le_max_left (0 : ℚ) hmin))

theorem clampU32_lt (ratio : ℚ) : clampU32 ratio < 2 ^ 32 := by
  have hmin : min (2 ^ 32 - 1) ratio ≤ ((2 ^ 32 - 1 : ℤ) : ℚ) := by
    rw [Int.cast_sub, Int.cast_pow, Int.cast_one, Int.cast_ofNat]
    exact min_le_left (2 ^ 32 - 1) ratio
  have hfloor := Rat.floor_monotone (max_le (by norm_num : (0 : ℚ) ≤ (2 ^ 32 - 1 : ℤ)) hmin)
  rw [Rat.floor_intCast] at hfloor
  unfold clampU32
  omega

theorem le_clampU32 {n : ℕ} (hn : n < 2 ^ 32) {ratio : ℚ} (hratio : 0 ≤ ratio) :
    n ≤ clampU32 ratio ↔ (n : ℚ) ≤ ratio := by
  have hcap : (n : ℚ) ≤ 2 ^ 32 - 1 := by
    have hle : n + 1 ≤ 2 ^ 32 := hn
    have hcast : ((n + 1 : ℕ) : ℚ) ≤ (2 ^ 32 : ℕ) := Nat.cast_le.2 hle
    push_cast at hcast
    linarith
  have hmin : 0 ≤ min (2 ^ 32 - 1) ratio := le_min (by norm_num) hratio
  have hfloor : 0 ≤ (min (2 ^ 32 - 1) ratio).floor := Rat.le_floor_iff.2 (by simpa using hmin)
  rw [clampU32, max_eq_right hmin, Int.le_toNat hfloor, Rat.le_floor_iff, Int.cast_natCast,
    le_min_iff]
  exact ⟨And.right, fun h => ⟨hcap, h⟩⟩

theorem toNat_staticAccruedRatioBps {outstanding principal : UInt64} (h : principal ≠ 0) :
    (staticAccruedRatioBps outstanding principal).toNat = clampU32
      (accruedRatio (Binary64.ofNat outstanding.toNat) (Binary64.ofNat principal.toNat)) := by
  unfold staticAccruedRatioBps
  rw [if_neg h]
  exact UInt32.toNat_ofNat_of_lt' (clampU32_lt _)

theorem toNat_pos {principal : UInt64} (h : principal ≠ 0) : 0 < principal.toNat := by
  rw [Nat.pos_iff_ne_zero]
  exact fun h' => h (UInt64.toNat_inj.1 h')

theorem accruedRatio_mono {a a' b b' : ℚ} (ha : 0 ≤ a) (haa : a ≤ a') (hb : 0 < b')
    (hbb : b' ≤ b) : accruedRatio a b ≤ accruedRatio a' b' :=
  Binary64.mul_mono (Binary64.zero_le_div ha (hb.le.trans hbb)) (Binary64.div_mono ha haa hb hbb)
    (by norm_num)

/-- More debt, or less principal, never lowers the ratio. -/
theorem staticAccruedRatioBps_mono {outstanding outstanding' principal principal' : UInt64}
    (ho : outstanding ≤ outstanding') (hp : principal' ≤ principal) (hpos : principal' ≠ 0) :
    staticAccruedRatioBps outstanding principal ≤
      staticAccruedRatioBps outstanding' principal' := by
  have hne : principal ≠ 0 := by
    rintro rfl
    exact hpos (UInt64.le_zero_iff.1 hp)
  rw [UInt32.le_iff_toNat_le, toNat_staticAccruedRatioBps hne, toNat_staticAccruedRatioBps hpos]
  refine clampU32_mono (accruedRatio_mono (Binary64.ofNat_nonneg _) ?_ ?_ ?_)
  · exact Binary64.ofNat_mono (UInt64.le_iff_toNat_le.1 ho)
  · exact Binary64.ofNat_pos (toNat_pos hpos)
  · exact Binary64.ofNat_mono (UInt64.le_iff_toNat_le.1 hp)

/-! ### Where rounding does not show -/

/-- The ratio depends on the exact quotient only. -/
theorem accruedRatio_le_of_div_le {a b a' b' : ℚ} (ha : 0 ≤ a) (hb : 0 ≤ b)
    (h : a / b ≤ a' / b') : accruedRatio a b ≤ accruedRatio a' b' :=
  Binary64.mul_mono (Binary64.zero_le_div ha hb) (Binary64.round_mono (div_nonneg ha hb) h)
    (by norm_num)

theorem accruedRatio_at_threshold : accruedRatio 21 20 = 10500 := by decide +kernel

/-- The quotient `21 / 20 - 1 / (20 * 2 ^ 49)`. -/
theorem accruedRatio_below_threshold :
    accruedRatio (21 * 2 ^ 49 - 1) (20 * 2 ^ 49) < 10500 := by
  decide +kernel

theorem accruedRatio_ge {a b : ℕ} (hb : 0 < b) (h : 21 * b ≤ 20 * a) :
    10500 ≤ accruedRatio a b := by
  rw [← accruedRatio_at_threshold]
  refine accruedRatio_le_of_div_le (by norm_num) (by norm_num) ?_
  have hb' : (0 : ℚ) < b := Nat.cast_pos.2 hb
  have h' : (21 : ℚ) * b ≤ 20 * a := by exact_mod_cast h
  rw [div_le_div_iff₀ (by norm_num) hb']
  linarith

theorem accruedRatio_lt {a b : ℕ} (hb : 0 < b) (hbound : b ≤ 2 ^ 49) (h : 20 * a < 21 * b) :
    accruedRatio a b < 10500 := by
  refine lt_of_le_of_lt ?_ accruedRatio_below_threshold
  refine accruedRatio_le_of_div_le (Nat.cast_nonneg a) (Nat.cast_nonneg b) ?_
  have hb' : (0 : ℚ) < b := Nat.cast_pos.2 hb
  have h' : (20 : ℚ) * a + 1 ≤ 21 * b := by exact_mod_cast h
  have hbound' : (b : ℚ) ≤ 2 ^ 49 := by exact_mod_cast hbound
  rw [div_le_div_iff₀ hb' (by norm_num)]
  nlinarith

theorem staticLtvPrefilter_iff {outstanding principal : UInt64} (hpos : principal ≠ 0)
    (hbound : principal.toNat ≤ 2 ^ 49) :
    staticLtvPrefilterBps ≤ staticAccruedRatioBps outstanding principal ↔
      21 * principal.toNat ≤ 20 * outstanding.toNat := by
  have hb := toNat_pos hpos
  have hprincipal : Binary64.ofNat principal.toNat = principal.toNat :=
    Binary64.ofNat_of_lt (by omega)
  have hnonneg : 0 ≤ accruedRatio (Binary64.ofNat outstanding.toNat) principal.toNat :=
    Binary64.round_nonneg (mul_nonneg (Binary64.zero_le_div (Binary64.ofNat_nonneg _)
      (Nat.cast_nonneg _)) (by norm_num))
  have hiff := le_clampU32 (n := 10500) (by norm_num) hnonneg
  rw [UInt32.le_iff_toNat_le, toNat_staticAccruedRatioBps hpos, hprincipal]
  refine hiff.trans ⟨fun h => ?_, fun h => ?_⟩
  · by_contra hlt
    rw [Binary64.ofNat_of_lt (by omega)] at h
    exact absurd h (not_le.2 (accruedRatio_lt hb hbound (by omega)))
  · -- a debt too long for a mantissa is far above the threshold, so it may be cut off
    have hcut : ((min outstanding.toNat (2 ^ 50) : ℕ) : ℚ) ≤ Binary64.ofNat outstanding.toNat := by
      rw [← Binary64.ofNat_of_lt (n := min outstanding.toNat (2 ^ 50)) (by omega)]
      exact Binary64.ofNat_mono (min_le_left _ _)
    calc ((10500 : ℕ) : ℚ) ≤ accruedRatio (min outstanding.toNat (2 ^ 50) : ℕ) principal.toNat :=
          accruedRatio_ge hb (by omega)
      _ ≤ accruedRatio (Binary64.ofNat outstanding.toNat) principal.toNat :=
          accruedRatio_mono (Nat.cast_nonneg _) hcut (Nat.cast_pos.2 hb) le_rfl

/-! ### The loans a pass checks -/

namespace LiquidatorHandler

variable {ctx : HandlerContext}

/-- **More debt, or less principal, never makes a loan fail the prefilter.** -/
theorem maybeLtvBreach_mono {loan loan' : LoanView} (htype : loan'.loanType = loan.loanType)
    (ho : loan.outstandingDebtAtoms ≤ loan'.outstandingDebtAtoms)
    (hp : loan'.principalDebtAtoms ≤ loan.principalDebtAtoms) (hpos : loan'.principalDebtAtoms ≠ 0)
    (h : maybeLtvBreach ctx loan = true) : maybeLtvBreach ctx loan' = true := by
  have hpool : loan'.isP2pool ctx.y = loan.isP2pool ctx.y := by
    rw [LoanView.isP2pool, LoanView.isP2pool, htype]
  unfold maybeLtvBreach at h ⊢
  rw [hpool]
  split
  · rfl
  · rename_i hfixed
    rw [if_neg hfixed, decide_eq_true_iff] at h
    exact decide_eq_true (UInt32.le_trans h (staticAccruedRatioBps_mono ho hp hpos))

/-- **A fixed loan passes the prefilter exactly if it owes 1.05 times its principal**, unless the
principal is above `2 ^ 49` atoms. -/
theorem maybeLtvBreach_iff {loan : LoanView}
    (hbound : loan.principalDebtAtoms.toNat ≤ 2 ^ 49) :
    maybeLtvBreach ctx loan = true ↔ loan.isP2pool ctx.y = true ∨ loan.principalDebtAtoms ≠ 0 ∧
      21 * loan.principalDebtAtoms.toNat ≤ 20 * loan.outstandingDebtAtoms.toNat := by
  unfold maybeLtvBreach
  by_cases hpool : loan.isP2pool ctx.y = true
  · simp [hpool]
  rw [if_neg hpool, decide_eq_true_iff]
  by_cases hpos : loan.principalDebtAtoms = 0
  · -- without a principal the ratio counts as 0
    have hratio : staticAccruedRatioBps loan.outstandingDebtAtoms loan.principalDebtAtoms = 0 :=
      if_pos hpos
    rw [hratio]
    exact ⟨fun h => absurd h (by decide), fun h => absurd hpos (h.resolve_left hpool).1⟩
  · rw [staticLtvPrefilter_iff hpos hbound]
    exact ⟨fun h => .inr ⟨hpos, h⟩, fun h => (h.resolve_left hpool).2⟩

/-- A loan of the source's tests. -/
def ratioLoan (outstanding principal : UInt64) : LoanView :=
  { LoanView.ofFixed default (Ydelta.plain.castLoanFixed []) with
    outstandingDebtAtoms := outstanding, principalDebtAtoms := principal }

theorem maybeLtvBreach_mono_sample :
    maybeLtvBreach sampleHandlerContext (ratioLoan 1100000 1000000) = true := by
  have hbreach : maybeLtvBreach sampleHandlerContext (ratioLoan 1050000 1000000) = true := by
    decide +kernel
  have hmore : (ratioLoan 1050000 1000000).outstandingDebtAtoms ≤
      (ratioLoan 1100000 1000000).outstandingDebtAtoms := by decide
  have htype : (ratioLoan 1100000 1000000).loanType = (ratioLoan 1050000 1000000).loanType := rfl
  exact maybeLtvBreach_mono htype hmore (UInt64.le_refl _) (by decide) hbreach

theorem maybeLtvBreach_iff_sample :
    maybeLtvBreach sampleHandlerContext (ratioLoan 1050000 1000000) = true ∧
      maybeLtvBreach sampleHandlerContext (ratioLoan 1049999 1000000) = false := by
  have hbound : (1000000 : UInt64).toNat ≤ 2 ^ 49 := by decide
  have hiff := fun outstanding =>
    @maybeLtvBreach_iff sampleHandlerContext (ratioLoan outstanding 1000000) hbound
  refine ⟨(hiff 1050000).2 (.inr ⟨by decide, by decide⟩), ?_⟩
  rw [← Bool.not_eq_true, hiff 1049999]
  decide

end LiquidatorHandler

end YdeltaCrankers
