import YdeltaCrankers.Liquidation.Amounts

/-!
# The amount repaid, as a function of the balance

The amount a closing repays falls into three regimes: nothing below the floor, the balance up to the
cap between the floor and a full repayment, and the whole estimate from there on, for which the
sentinel 0 stands.  The partial amount is never 0, so that the sentinel is not hit by accident, and
the regimes fit together.

**Main theorem**: `LiquidatorHandler.pickRepayAmount_monotone`.
-/

namespace YdeltaCrankers

open Interaction

namespace LiquidatorHandler

variable (ctx : HandlerContext) (loan : LoanView)

/-- What a pick comes to: nothing if there is none, and the whole estimate for the sentinel. -/
def effective : Option UInt64 → UInt64
  | none => 0
  | some v => if v = repayFull then outstandingEst ctx loan else v

/-- The pick is one made from an account that holds `balance`. -/
def PicksFrom (balance : UInt64) (pick : Option UInt64) : Prop :=
  ∃ ata data, splTokenAmount data = some balance ∧
    (pickRepayAmount ctx ata loan).run.Runs [⟨.rpc (.getAccountData ata), .ok (some data)⟩]
      (.ok pick)

variable {ctx loan} {balance : UInt64}

/-- The balance decides what is picked. -/
theorem PicksFrom.eq {pick : Option UInt64} (h : PicksFrom ctx loan balance pick) :
    pick = repayAmount ctx balance loan := by
  obtain ⟨ata, data, hbalance, hruns⟩ := h
  have hsame : [(⟨.rpc (.getAccountData ata), .ok (some data)⟩ : Service.Event)] ++ [] =
      [⟨.rpc (.getAccountData ata), .ok (some data)⟩] ++ [] := rfl
  obtain ⟨-, heq, -⟩ := hruns.unique (runs_pickRepayAmount ata hbalance) hsame
  exact Except.ok.inj heq

/-- Every balance is that of some token account. -/
theorem exists_picksFrom (balance : UInt64) : ∃ pick, PicksFrom ctx loan balance pick := by
  have hbalance : splTokenAmount (sampleTokenAccount balance.toNat).data = some balance := by
    have hlen : (sampleTokenAccount balance.toNat).data.length = 72 := by
      rw [sampleTokenAccount, List.length_append, List.length_replicate, length_leBytes]
    have hamount : ((sampleTokenAccount balance.toNat).data.drop 64).take 8 =
        leBytes 8 balance.toNat := by
      rw [sampleTokenAccount, List.drop_left' List.length_replicate]
      exact List.take_of_length_le (length_leBytes _ _).le
    rw [splTokenAmount, if_pos hlen.ge, hamount, leNat_leBytes balance.toNat_lt,
      UInt64.ofNat_toNat]
  exact ⟨_, default, _, hbalance, runs_pickRepayAmount default hbalance⟩

theorem outstandingEst_le_fullRequired : outstandingEst ctx loan ≤ fullRequired ctx loan := by
  by_cases hpool : loan.isP2pool ctx.y = true
  · have hlt := (outstandingEst ctx loan).toNat_lt
    rw [fullRequired_of_pool hpool, UInt64.le_iff_toNat_le, toNat_p2poolFullRepayStagedAtoms]
    omega
  · rw [fullRequired_of_fixed hpool]
    exact UInt64.le_refl _

theorem partialRepay_le_balance : partialRepay ctx loan balance ≤ balance := by
  rw [UInt64.le_iff_toNat_le, toNat_partialRepay]
  exact Nat.min_le_left _ _

theorem partialRepay_le_outstandingEst :
    partialRepay ctx loan balance ≤ outstandingEst ctx loan := by
  rw [UInt64.le_iff_toNat_le, toNat_partialRepay]
  omega

theorem partialRepay_mono {b₁ b₂ : UInt64} (h : b₁ ≤ b₂) :
    partialRepay ctx loan b₁ ≤ partialRepay ctx loan b₂ := by
  rw [UInt64.le_iff_toNat_le] at h
  rw [UInt64.le_iff_toNat_le, toNat_partialRepay, toNat_partialRepay]
  exact min_le_min_right _ h

/-! ### The three regimes -/

theorem effective_of_funded (h : fullRequired ctx loan ≤ balance) :
    effective ctx loan (repayAmount ctx balance loan) = outstandingEst ctx loan := by
  rw [repayAmount_of_funded h, effective, if_pos rfl]

theorem effective_of_short (hshort : balance < fullRequired ctx loan)
    (hfloor : minPartialRepayAtoms (outstandingEst ctx loan) ≤ balance) :
    effective ctx loan (repayAmount ctx balance loan) = partialRepay ctx loan balance := by
  rw [repayAmount_eq, if_neg (UInt64.not_le.2 hshort), if_neg (UInt64.not_lt.2 hfloor), effective,
    if_neg (partialRepay_ne_repayFull hshort hfloor)]

theorem effective_of_below (hshort : balance < fullRequired ctx loan)
    (hfloor : balance < minPartialRepayAtoms (outstandingEst ctx loan)) :
    effective ctx loan (repayAmount ctx balance loan) = 0 := by
  rw [repayAmount_eq, if_neg (UInt64.not_le.2 hshort), if_pos hfloor, effective]

theorem effective_le_balance : effective ctx loan (repayAmount ctx balance loan) ≤ balance := by
  by_cases hfull : fullRequired ctx loan ≤ balance
  · rw [effective_of_funded hfull]
    exact UInt64.le_trans outstandingEst_le_fullRequired hfull
  have hshort : balance < fullRequired ctx loan := UInt64.not_le.1 hfull
  by_cases hfloor : balance < minPartialRepayAtoms (outstandingEst ctx loan)
  · rw [effective_of_below hshort hfloor]
    exact UInt64.zero_le
  · rw [effective_of_short hshort (UInt64.not_lt.1 hfloor)]
    exact partialRepay_le_balance

theorem effective_mono {b₁ b₂ : UInt64} (h : b₁ ≤ b₂) :
    effective ctx loan (repayAmount ctx b₁ loan) ≤
      effective ctx loan (repayAmount ctx b₂ loan) := by
  by_cases hfull₁ : fullRequired ctx loan ≤ b₁
  · rw [effective_of_funded hfull₁, effective_of_funded (UInt64.le_trans hfull₁ h)]
    exact UInt64.le_refl _
  have hshort₁ : b₁ < fullRequired ctx loan := UInt64.not_le.1 hfull₁
  by_cases hfloor₁ : b₁ < minPartialRepayAtoms (outstandingEst ctx loan)
  · rw [effective_of_below hshort₁ hfloor₁]
    exact UInt64.zero_le
  have hmin₁ := UInt64.not_lt.1 hfloor₁
  rw [effective_of_short hshort₁ hmin₁]
  by_cases hfull₂ : fullRequired ctx loan ≤ b₂
  · -- from the partial regime to the full one
    rw [effective_of_funded hfull₂]
    exact partialRepay_le_outstandingEst
  · rw [effective_of_short (UInt64.not_le.1 hfull₂) (UInt64.le_trans hmin₁ h)]
    exact partialRepay_mono h

/-- A balance that is short of a full repayment does not yield the sentinel. -/
theorem repayAmount_ne_repayFull (hshort : balance < fullRequired ctx loan) :
    repayAmount ctx balance loan ≠ some repayFull := by
  intro hpick
  rcases repayAmount_eq_some hpick with ⟨hfull, -⟩ | ⟨-, hfloor, hzero⟩
  · exact absurd hfull (UInt64.not_le.2 hshort)
  · exact partialRepay_ne_repayFull hshort hfloor hzero.symm

variable (ctx loan) in
/-- **Repay sizing is monotone and fundable.**  For every loan and balance there is one pick; a
larger balance never repays less, no balance repays more than itself, and a balance short of a full
repayment is never taken for one. -/
theorem pickRepayAmount_monotone :
    (∀ b, ∃! pick, PicksFrom ctx loan b pick) ∧
    (∀ b₁ b₂ pick₁ pick₂, PicksFrom ctx loan b₁ pick₁ → PicksFrom ctx loan b₂ pick₂ → b₁ ≤ b₂ →
      effective ctx loan pick₁ ≤ effective ctx loan pick₂) ∧
    (∀ b pick, PicksFrom ctx loan b pick → effective ctx loan pick ≤ b) ∧
    ∀ b pick, PicksFrom ctx loan b pick → b < fullRequired ctx loan → pick ≠ some repayFull := by
  refine ⟨fun b => ?_, fun b₁ b₂ pick₁ pick₂ h₁ h₂ hle => ?_, fun b pick h => ?_,
    fun b pick h hshort => ?_⟩
  · obtain ⟨pick, h⟩ := @exists_picksFrom ctx loan b
    exact ⟨pick, h, fun pick' h' => h'.eq.trans h.eq.symm⟩
  · rw [h₁.eq, h₂.eq]
    exact effective_mono hle
  · rw [h.eq]
    exact effective_le_balance
  · rw [h.eq]
    exact repayAmount_ne_repayFull hshort

end LiquidatorHandler

end YdeltaCrankers
