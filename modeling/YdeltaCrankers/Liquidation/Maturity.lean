import YdeltaCrankers.Config.Env
import YdeltaCrankers.Liquidation.Amounts

/-!
# When a loan is taken to be due

A loan is due when its maturity, the market's grace period and the configured buffer have passed.
The buffer is any `u64`; `scan_market` casts it to `i64`, adds the grace period without a check, and
adds the maturity with saturation.  The first addition wraps when grace period and buffer exceed the
range of `i64`, and then every loan is due at once.  The second one can only mistake a due date that
lies behind the end of `i64`, when the clock stands there.

* `LiquidatorHandler.maturesOnTime_iff` : exactly when a loan is not due early.
* `LiquidatorHandler.scanMarket_maturity_iff` (**main theorem**) : the same, and that a pass settles
  only loans it takes to be due.
-/

namespace YdeltaCrankers

open Interaction

namespace LiquidatorHandler

/-! ### Arithmetic at type `i64` -/

theorem toInt_toInt64 (x : UInt64) : x.toInt64.toInt = (x.toNat : ℤ).bmod (2 ^ 64) :=
  BitVec.toInt_eq_toNat_bmod _

theorem toInt_saturatingAddI64 (a b : Int64) :
    (saturatingAddI64 a b).toInt = max (-2 ^ 63) (min (2 ^ 63 - 1) (a.toInt + b.toInt)) := by
  unfold saturatingAddI64
  exact Int64.toInt_ofInt_of_le (by omega) (by omega)

section Due

variable (ctx : HandlerContext) (market : MarketView) (loan : LoanView)

/-- Grace period and buffer in exact arithmetic. -/
def exactGrace : ℤ :=
  market.gracePeriodSeconds.toNat + ctx.cfg.thresholds.maturityExtraBuffer.toNat

/-- The due date in exact arithmetic. -/
def exactDue : ℤ := loan.maturesAtUnix.toInt + exactGrace ctx market

/-- A loan is taken to be due only when it is, and its grace period is the exact one. -/
def MaturesOnTime (tNow : Int64) : Prop :=
  (isMatured ctx market loan tNow = true → exactDue ctx market loan ≤ tNow.toInt) ∧
    (effectiveGrace ctx market).toInt = exactGrace ctx market

variable {ctx market loan} {tNow : Int64}

theorem toInt_effectiveGrace :
    (effectiveGrace ctx market).toInt = (exactGrace ctx market).bmod (2 ^ 64) := by
  have hgrace : (market.gracePeriodSeconds.toUInt64.toNat : ℤ) = market.gracePeriodSeconds.toNat :=
    rfl
  rw [effectiveGrace, Int64.toInt_add, toInt_toInt64, toInt_toInt64, exactGrace, hgrace,
    Int.add_bmod_bmod, Int.bmod_add_bmod]

/-- The grace period is exact when it fits. -/
theorem effectiveGrace_exact_iff :
    (effectiveGrace ctx market).toInt = exactGrace ctx market ↔ exactGrace ctx market < 2 ^ 63 := by
  have hlt := (effectiveGrace ctx market).toInt_lt
  constructor
  · intro heq
    rwa [← heq]
  · intro hfits
    have hpos : 0 ≤ exactGrace ctx market := by
      unfold exactGrace
      omega
    rw [toInt_effectiveGrace]
    exact Int.bmod_eq_of_le (by omega) (by omega)

theorem isMatured_iff : isMatured ctx market loan tNow = true ↔
    max (-2 ^ 63) (min (2 ^ 63 - 1)
      (loan.maturesAtUnix.toInt + (effectiveGrace ctx market).toInt)) ≤ tNow.toInt := by
  rw [isMatured, decide_eq_true_iff, Int64.le_iff_toInt_le, toInt_saturatingAddI64]

/-- **No early maturity, where the grace period fits.**  A loan is never due early, and its grace
period does not wrap, exactly when grace period and buffer are below `2 ^ 63` and the clock does not
stand at the end of `i64` before the due date. -/
theorem maturesOnTime_iff : MaturesOnTime ctx market loan tNow ↔
    exactGrace ctx market < 2 ^ 63 ∧
      ¬ (tNow.toInt = 2 ^ 63 - 1 ∧ tNow.toInt < exactDue ctx market loan) := by
  rw [MaturesOnTime, effectiveGrace_exact_iff, and_comm]
  refine and_congr_right fun hfits => ?_
  have hgrace := effectiveGrace_exact_iff.2 hfits
  have hpos : 0 ≤ exactGrace ctx market := by
    unfold exactGrace
    omega
  have hlow := loan.maturesAtUnix.le_toInt
  have hnow := tNow.toInt_lt
  rw [isMatured_iff, hgrace, exactDue]
  omega

end Due

/-! ### A pass settles only what it takes to be due -/

/-- The maturity check that a call simulates, the last instruction of its bundle. -/
def maturityCheckOf : ServiceCall → Option CheckMaturityLiquidatable
  | .rpc (.simulateV0 ixs _ _) => match ixs.getLast? with
    | some (.checkMaturityLiquidatable args) => some args
    | _ => none
  | _ => none

/-- The maturity checks of a call satisfy `P`. -/
def ChecksOnly (P : CheckMaturityLiquidatable → Prop) (c : ServiceCall) : Prop :=
  ∀ args, maturityCheckOf c = some args → P args

section Checks

variable {P : CheckMaturityLiquidatable → Prop} {ctx : HandlerContext} {market : MarketView}
  {loan : LoanView}

theorem checksOnly_simulateV0 {ixs : List Instruction} {ix : Instruction}
    {luts : List AddressLookupTableAccount} {payer : Pubkey}
    (h : ∀ args, ix = .checkMaturityLiquidatable args → P args) :
    ChecksOnly P (.rpc (.simulateV0 (ixs ++ [ix]) luts payer)) := by
  intro args hargs
  refine h args ?_
  rw [maturityCheckOf, List.getLast?_append, List.getLast?_singleton, Option.some_or] at hargs
  cases ix
  case checkMaturityLiquidatable args' =>
    cases hargs
    rfl
  all_goals cases hargs

/-- An attempt at a closing makes the maturity checks of the closing. -/
theorem checksOnly_tryClose {closing : Closing}
    (hcheck : ∀ debtBank collateralBank args,
      closing.check debtBank collateralBank = .checkMaturityLiquidatable args → P args)
    (hbuild : ∀ args args', closing.build args ≠ .checkMaturityLiquidatable args') :
    (tryClose ctx market loan closing).Makes (ChecksOnly P) := by
  unfold tryClose
  refine (makes_banksSnapshot nofun).bind fun banks => ?_
  refine (Fallible.makes_result _).bind fun ⟨debtBank, collateralBank⟩ => ?_
  exact makes_closeWith ctx (fun _ _ _ => nofun)
    (fun _ _ => checksOnly_simulateV0 (hcheck debtBank collateralBank)) (fun _ => nofun)
    (fun _ _ _ => checksOnly_simulateV0 fun args h => absurd h (hbuild _ args)) fun _ _ => nofun

/-- Each maturity check of a pass is that of a loan taken to be due at the time the pass read. -/
theorem scanMarket_checks (ctx : HandlerContext) (market : MarketView) :
    (scanMarket ctx market).Spec fun t _ => ∀ e ∈ t, ∀ args, maturityCheckOf e.call = some args →
      ∃ t₀ t₁ tNow loans loan, t = t₀ ++ ⟨.process .nowUnix, tNow⟩ :: t₁ ∧
        (ctx.chain.listLoansForMarket ctx.y market.address).run.Runs t₀ (.ok loans) ∧
        loan ∈ loans ∧ args.sequence = loan.matchedLoanSequence ∧
        isMatured ctx market loan tNow = true := by
  have hlist : (ctx.chain.listLoansForMarket ctx.y market.address).Makes fun c =>
      maturityCheckOf c = none :=
    Fallible.Makes.bind (Fallible.makes_ask rfl) fun _ => Fallible.makes_pure _
  refine Fallible.spec_runs_bind (fun t e h e he args hargs => ?_) fun t₀ loans h => ?_
  · rw [hlist _ _ h e he] at hargs
    cases hargs
  refine Fallible.spec_query_bind fun tNow => ?_
  let P : CheckMaturityLiquidatable → Prop := fun args => ∃ loan ∈ loans,
    args.sequence = loan.matchedLoanSequence ∧ isMatured ctx market loan tNow = true
  -- the health leg checks no maturity, and the maturity leg is for matured loans only
  have hscan : (scanLoans ctx market tNow loans).Makes (ChecksOnly P) := by
    refine makes_scanLoans ctx (fun _ _ => ⟨nofun, nofun⟩) (fun loan hloan => ?_)
      fun loan hloan hmatured => ?_
    · exact checksOnly_tryClose (fun _ _ _ => nofun) fun _ _ => nofun
    · refine checksOnly_tryClose (fun _ _ args hargs => ?_) fun _ _ => nofun
      cases hargs
      exact ⟨loan, hloan, rfl, hmatured⟩
  refine Fallible.Spec.mono hscan fun t₁ r hchecks e he args hargs => ?_
  rcases List.mem_append.1 he with he | he
  · rw [hlist _ _ h e he] at hargs
    cases hargs
  rcases List.mem_cons.1 he with rfl | he
  · cases hargs
  obtain ⟨loan, hloan, hseq, hmatured⟩ := hchecks e he args hargs
  exact ⟨t₀, t₁, tNow, loans, loan, rfl, h, hloan, hseq, hmatured⟩

end Checks

/-- **No early maturity, where the grace period fits.**  A loan is never taken to be due early, and
its grace period does not wrap, exactly when grace period and buffer are below `2 ^ 63` and the
clock does not stand at the end of `i64` before the due date; and a pass checks for settlement only
loans that it takes to be due. -/
theorem scanMarket_maturity_iff (ctx : HandlerContext) (market : MarketView) :
    (∀ (loan : LoanView) (tNow : Int64), MaturesOnTime ctx market loan tNow ↔
      exactGrace ctx market < 2 ^ 63 ∧
        ¬ (tNow.toInt = 2 ^ 63 - 1 ∧ tNow.toInt < exactDue ctx market loan)) ∧
    ∀ t r, (scanMarket ctx market).run.Runs t r →
      ∀ e ∈ t, ∀ args, maturityCheckOf e.call = some args →
        ∃ t₀ t₁ tNow loans loan, t = t₀ ++ ⟨.process .nowUnix, tNow⟩ :: t₁ ∧
          (ctx.chain.listLoansForMarket ctx.y market.address).run.Runs t₀ (.ok loans) ∧
          loan ∈ loans ∧ args.sequence = loan.matchedLoanSequence ∧
          isMatured ctx market loan tNow = true :=
  ⟨fun _ _ => maturesOnTime_iff, scanMarket_checks ctx market⟩

/-- The largest buffer that can be set. -/
def largestBuffer : ThresholdsConfig := ⟨1000000, 18446744073709551615, 100000⟩

/-- Set to the largest number, the buffer is cast to -1: a loan is taken to be due one second before
its maturity. -/
theorem not_maturesOnTime :
    ThresholdsConfig.fromEnv (fun name =>
      if name = "MATURITY_EXTRA_BUFFER_SEC" then some "18446744073709551615" else none) =
        .ok largestBuffer ∧
    isMatured { sampleHandlerContext with cfg := { sampleConfig with thresholds := largestBuffer } }
      sampleMarket (sampleLoan 0 1000 1000) 999999999 = true ∧
    ¬ MaturesOnTime
      { sampleHandlerContext with cfg := { sampleConfig with thresholds := largestBuffer } }
      sampleMarket (sampleLoan 0 1000 1000) 999999999 := by
  have hmatured : isMatured
      { sampleHandlerContext with cfg := { sampleConfig with thresholds := largestBuffer } }
      sampleMarket (sampleLoan 0 1000 1000) 999999999 = true := by rfl
  refine ⟨by rfl, hmatured, fun h => ?_⟩
  exact absurd (h.1 hmatured) (by decide)

end LiquidatorHandler

end YdeltaCrankers
