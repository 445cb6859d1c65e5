import YdeltaCrankers.Liquidation.Attempt

/-!
# The amount a closing repays

`pick_repay_amount` compares the balance of the keeper's token account with three numbers that come
from three formulas: what a full repayment takes, the program's floor for a partial repayment, and
the cap one atom below the estimate of the debt.  For a pool loan a full repayment takes more than
the debt, so that a balance can be short of it and still above the cap.

**Main theorems**:
* `LiquidatorHandler.pickRepayAmount_respectsFloor_iff` : a partial amount respects the floor, the
  balance and the debt, except for small pool loans in a narrow band of balances;
* `LiquidatorHandler.liquidation_pays_iff` : a liquidation that is sent earns the minimal profit on
  what it repays exactly when the balance covers a full repayment or the partial amount earns it.
-/

namespace YdeltaCrankers

open Interaction

/-! ### Arithmetic at type `u64` -/

theorem toNat_max (a b : UInt64) : (max a b).toNat = max a.toNat b.toNat := by
  change (if a ≤ b then b else a).toNat = _
  by_cases h : a ≤ b
  · rw [if_pos h, Nat.max_eq_right (UInt64.le_iff_toNat_le.1 h)]
  · rw [if_neg h]
    rw [UInt64.le_iff_toNat_le] at h
    omega

theorem toNat_min (a b : UInt64) : (min a b).toNat = min a.toNat b.toNat := by
  change (if a ≤ b then a else b).toNat = _
  by_cases h : a ≤ b
  · rw [if_pos h, Nat.min_eq_left (UInt64.le_iff_toNat_le.1 h)]
  · rw [if_neg h]
    rw [UInt64.le_iff_toNat_le] at h
    omega

theorem toNat_saturatingAdd (a b : UInt64) :
    (saturatingAdd a b).toNat = min (a.toNat + b.toNat) (2 ^ 64 - 1) := by
  unfold saturatingAdd
  by_cases h : a.toNat + b.toNat < 2 ^ 64
  · rw [if_pos h, UInt64.toNat_add, Nat.mod_eq_of_lt h]
    omega
  · rw [if_neg h, UInt64.toNat_ofNat_of_lt' (by decide)]
    omega

theorem toNat_saturatingSub (a b : UInt64) :
    (saturatingSub a b).toNat = a.toNat - b.toNat := by
  unfold saturatingSub
  by_cases h : b ≤ a
  · rw [if_pos h, UInt64.toNat_sub_of_le _ _ h]
  · rw [if_neg h]
    rw [UInt64.le_iff_toNat_le] at h
    simp
    omega

theorem toNat_minPartialRepayAtoms (n : UInt64) :
    (minPartialRepayAtoms n).toNat = max (n.toNat / 100) 1000 := by
  rw [minPartialRepayAtoms, toNat_max, UInt64.toNat_div]
  rfl

theorem toNat_p2poolFullRepayStagedAtoms (n : UInt64) :
    (p2poolFullRepayStagedAtoms n).toNat = min (n.toNat + n.toNat / 50 + 64) (2 ^ 64 - 1) := by
  have h50 : (50 : UInt64).toNat = 50 := rfl
  have h64 : (64 : UInt64).toNat = 64 := rfl
  rw [p2poolFullRepayStagedAtoms, toNat_saturatingAdd, toNat_saturatingAdd, UInt64.toNat_div, h50,
    h64]
  omega

namespace LiquidatorHandler

/-! ### Sample values -/

/-- The loan of `sampleLoanRow 31 loanType principal outstanding`. -/
def sampleLoan (loanType : UInt8) (principal outstanding : UInt64) : LoanView where
  address := .fill 32 41
  market := .fill 32 31
  state := 1
  loanType := loanType
  principalDebtAtoms := principal
  outstandingDebtAtoms := outstanding
  maturesAtUnix := 1000000000
  matchedLoanSequence := 7
  lenderKind := 0
  lenderGlobalVault := default
  lenderSubVaultId := 0
  borrowerRateBps := 0
  lenderRateBps := 0

/-- Everything succeeds, with these loans, this registry and 2000 atoms in every token account. -/
def acceptingReply (loans : List (Pubkey × Account)) (banks : BankRegistry) :
    (c : ServiceCall) → c.Reply
  | .rpc (.getAccountData _) => .ok (some (sampleTokenAccount 2000).data)
  | .rpc (.simulate _ _) | .rpc (.simulateV0 _ _ _) => .ok ⟨true, none, []⟩
  | .rpc (.sendSignedLabeled _ _ _) | .rpc (.sendSignedV0Labeled _ _ _ _) => .ok default
  | .client (.getProgramAccounts _ _) => .ok loans
  | .process .banksRead => some banks
  | .process (.claimInflight _) => true
  | c => c.refused

/-! ### The three thresholds -/

section Thresholds

variable (ctx : HandlerContext) (loan : LoanView)

/-- The estimate of the debt: for a pool loan at least the principal, since its body lags behind. -/
def outstandingEst : UInt64 :=
  if loan.isP2pool ctx.y then max loan.outstandingDebtAtoms loan.principalDebtAtoms
  else loan.outstandingDebtAtoms

/-- What a full repayment of the loan takes. -/
def fullRequired : UInt64 :=
  if loan.isP2pool ctx.y then
    p2poolFullRepayStagedAtoms (max loan.outstandingDebtAtoms loan.principalDebtAtoms)
  else loan.outstandingDebtAtoms

/-- The amount of a partial repayment: all of the balance, but less than the debt. -/
def partialRepay (balance : UInt64) : UInt64 :=
  min balance (saturatingSub (outstandingEst ctx loan) 1)

variable {ctx loan}

theorem fullRequired_of_pool (h : loan.isP2pool ctx.y = true) :
    fullRequired ctx loan = p2poolFullRepayStagedAtoms (outstandingEst ctx loan) := by
  unfold fullRequired outstandingEst
  rw [if_pos h, if_pos h]

theorem fullRequired_of_fixed (h : loan.isP2pool ctx.y ≠ true) :
    fullRequired ctx loan = outstandingEst ctx loan := by
  unfold fullRequired outstandingEst
  rw [if_neg h, if_neg h]

theorem toNat_partialRepay (balance : UInt64) : (partialRepay ctx loan balance).toNat =
    min balance.toNat ((outstandingEst ctx loan).toNat - 1) := by
  rw [partialRepay, toNat_min, toNat_saturatingSub]
  rfl

/-- A balance that covers the floor but not the full amount leaves something to repay in part. -/
theorem partialRepay_ne_repayFull {balance : UInt64} (hshort : balance < fullRequired ctx loan)
    (hfloor : minPartialRepayAtoms (outstandingEst ctx loan) ≤ balance) :
    partialRepay ctx loan balance ≠ repayFull := by
  intro hzero
  have hamount := @toNat_partialRepay ctx loan balance
  rw [hzero, show repayFull.toNat = 0 from rfl] at hamount
  rw [UInt64.le_iff_toNat_le, toNat_minPartialRepayAtoms] at hfloor
  rw [UInt64.lt_iff_toNat_lt] at hshort
  by_cases hpool : loan.isP2pool ctx.y = true
  · rw [fullRequired_of_pool hpool, toNat_p2poolFullRepayStagedAtoms] at hshort
    omega
  · rw [fullRequired_of_fixed hpool] at hshort
    omega

/-- The choice of `pick_repay_amount`, by its three thresholds. -/
theorem repayAmount_eq (balance : UInt64) :
    repayAmount ctx balance loan =
      if fullRequired ctx loan ≤ balance then some repayFull
      else if balance < minPartialRepayAtoms (outstandingEst ctx loan) then none
      else some (partialRepay ctx loan balance) := by
  unfold repayAmount partialRepay fullRequired outstandingEst
  by_cases hpool : loan.isP2pool ctx.y = true
  · simp [hpool]
  · simp [hpool]

theorem repayAmount_of_funded {balance : UInt64} (h : fullRequired ctx loan ≤ balance) :
    repayAmount ctx balance loan = some repayFull := by
  rw [repayAmount_eq, if_pos h]

/-- A full repayment is chosen exactly when the balance covers it; otherwise the amount is the
partial one, and the balance is at least the floor. -/
theorem repayAmount_eq_some {balance v : UInt64} (h : repayAmount ctx balance loan = some v) :
    fullRequired ctx loan ≤ balance ∧ v = repayFull ∨
      balance < fullRequired ctx loan ∧ minPartialRepayAtoms (outstandingEst ctx loan) ≤ balance ∧
        v = partialRepay ctx loan balance := by
  rw [repayAmount_eq] at h
  by_cases hfull : fullRequired ctx loan ≤ balance
  · rw [if_pos hfull] at h
    exact .inl ⟨hfull, (Option.some.inj h).symm⟩
  · rw [if_neg hfull] at h
    by_cases hfloor : balance < minPartialRepayAtoms (outstandingEst ctx loan)
    · rw [if_pos hfloor] at h
      cases h
    · rw [if_neg hfloor] at h
      exact .inr ⟨UInt64.not_le.1 hfull, UInt64.not_lt.1 hfloor, (Option.some.inj h).symm⟩

end Thresholds

/-! ### Partial repayments and the floor -/

section Floor

variable (ctx : HandlerContext) (loan : LoanView)

/-- A partial amount that the program's floor, the balance and the debt allow. -/
structure RespectsFloor (balance v : UInt64) : Prop where
  floor_le : minPartialRepayAtoms (outstandingEst ctx loan) ≤ v
  le_balance : v ≤ balance
  lt_debt : v < outstandingEst ctx loan

/-- The balances that cover the floor but not the full repayment of a pool loan of at most 1000
atoms, whose cap is below the floor. -/
structure InShortBand (balance : UInt64) : Prop where
  pool : loan.isP2pool ctx.y = true
  small : outstandingEst ctx loan ≤ 1000
  floor_le : 1000 ≤ balance
  short : balance < fullRequired ctx loan

variable {ctx loan}

/-- The cap is below the floor for small pool loans, and only for these. -/
theorem partialRepay_respectsFloor_iff {balance : UInt64}
    (hshort : balance < fullRequired ctx loan)
    (hfloor : minPartialRepayAtoms (outstandingEst ctx loan) ≤ balance) :
    RespectsFloor ctx loan balance (partialRepay ctx loan balance) ↔
      ¬ (loan.isP2pool ctx.y = true ∧ outstandingEst ctx loan ≤ 1000) := by
  have h1000 : (1000 : UInt64).toNat = 1000 := rfl
  have hmin := toNat_minPartialRepayAtoms (outstandingEst ctx loan)
  rw [UInt64.lt_iff_toNat_lt] at hshort
  rw [UInt64.le_iff_toNat_le, hmin] at hfloor
  have hiff : RespectsFloor ctx loan balance (partialRepay ctx loan balance) ↔
      max ((outstandingEst ctx loan).toNat / 100) 1000 ≤ (partialRepay ctx loan balance).toNat ∧
      (partialRepay ctx loan balance).toNat ≤ balance.toNat ∧
      (partialRepay ctx loan balance).toNat < (outstandingEst ctx loan).toNat := by
    rw [← hmin, ← UInt64.le_iff_toNat_le, ← UInt64.le_iff_toNat_le, ← UInt64.lt_iff_toNat_lt]
    exact ⟨fun ⟨h₁, h₂, h₃⟩ => ⟨h₁, h₂, h₃⟩, fun ⟨h₁, h₂, h₃⟩ => ⟨h₁, h₂, h₃⟩⟩
  rw [hiff, toNat_partialRepay, UInt64.le_iff_toNat_le, h1000]
  by_cases hpool : loan.isP2pool ctx.y = true
  · -- the balance may exceed the debt, and then the cap is what counts
    rw [fullRequired_of_pool hpool, toNat_p2poolFullRepayStagedAtoms] at hshort
    simp only [hpool, true_and]
    omega
  · rw [fullRequired_of_fixed hpool] at hshort
    have hfixed : ¬ (loan.isP2pool ctx.y = true ∧ (outstandingEst ctx loan).toNat ≤ 1000) :=
      fun h => hpool h.1
    simp only [hfixed, not_false_eq_true, iff_true]
    omega

/-- What `pick_repay_amount` returns is chosen from the balance it reads. -/
theorem pickRepayAmount_runs {ata : Pubkey} {t : Service.Trace} {v : UInt64}
    (h : (pickRepayAmount ctx ata loan).run.Runs t (.ok (some v))) :
    ∃ data balance, t = [⟨.rpc (.getAccountData ata), .ok (some data)⟩] ∧
      splTokenAmount data = some balance ∧ repayAmount ctx balance loan = some v := by
  have hspec : (pickRepayAmount ctx ata loan).Spec fun t r => ∀ v, r = .ok (some v) →
      ∃ data balance, t = [⟨.rpc (.getAccountData ata), .ok (some data)⟩] ∧
        splTokenAmount data = some balance ∧ repayAmount ctx balance loan = some v := by
    refine Fallible.spec_ask_bind (fun _ _ _ _ => nofun) fun r acct hr => ?_
    cases hr
    cases acct with
    | none => exact Fallible.spec_pure fun _ => nofun
    | some data =>
      simp only
      cases hbalance : splTokenAmount data with
      | none => exact Fallible.spec_throw fun _ => nofun
      | some balance =>
        refine Fallible.spec_pure fun v hv => ⟨data, balance, rfl, hbalance, ?_⟩
        exact Except.ok.inj hv
  exact hspec t _ h v rfl

/-- The run in which the token account holds `balance`. -/
theorem runs_pickRepayAmount (ata : Pubkey) {data : List UInt8} {balance : UInt64}
    (h : splTokenAmount data = some balance) :
    (pickRepayAmount ctx ata loan).run.Runs [⟨.rpc (.getAccountData ata), .ok (some data)⟩]
      (.ok (repayAmount ctx balance loan)) := by
  refine ⟨.ok (some data), [], rfl, ?_⟩
  simp only [Prog.bind, ExceptT.bindCont, id, h]
  exact ⟨rfl, rfl⟩

variable (ctx loan) in
/-- Every partial amount picked from this account data respects the floor. -/
def PicksRespectFloor (ata : Pubkey) (data : List UInt8) (balance : UInt64) : Prop :=
  ∀ v, (pickRepayAmount ctx ata loan).run.Runs
    [⟨.rpc (.getAccountData ata), .ok (some data)⟩] (.ok (some v)) → v ≠ repayFull →
      RespectsFloor ctx loan balance v

/-- **Partial repayments respect the floor, outside of a band of small pool loans.** -/
theorem pickRepayAmount_respectsFloor_iff (ata : Pubkey) {data : List UInt8} {balance : UInt64}
    (hbalance : splTokenAmount data = some balance) :
    PicksRespectFloor ctx loan ata data balance ↔ ¬ InShortBand ctx loan balance := by
  constructor
  · rintro hpicks ⟨hpool, hsmall, hfloor, hshort⟩
    -- the balance allows a part, which the cap below the debt keeps under the floor
    have hmin : minPartialRepayAtoms (outstandingEst ctx loan) ≤ balance := by
      have h1000 : (1000 : UInt64).toNat = 1000 := rfl
      rw [UInt64.le_iff_toNat_le] at hsmall hfloor ⊢
      rw [toNat_minPartialRepayAtoms]
      omega
    have hpick : repayAmount ctx balance loan = some (partialRepay ctx loan balance) := by
      rw [repayAmount_eq, if_neg (UInt64.not_le.2 hshort), if_neg (UInt64.not_lt.2 hmin)]
    have hruns := @runs_pickRepayAmount ctx loan ata data balance hbalance
    rw [hpick] at hruns
    have hpartial := partialRepay_ne_repayFull hshort hmin
    exact (partialRepay_respectsFloor_iff hshort hmin).1 (hpicks _ hruns hpartial) ⟨hpool, hsmall⟩
  · intro hband v hruns hv
    obtain ⟨data', balance', hdata, hbalance', hpick⟩ := pickRepayAmount_runs hruns
    cases hdata
    obtain rfl : balance = balance' := Option.some.inj (hbalance.symm.trans hbalance')
    rcases repayAmount_eq_some hpick with ⟨-, rfl⟩ | ⟨hshort, hmin, rfl⟩
    · exact absurd rfl hv
    · refine (partialRepay_respectsFloor_iff hshort hmin).2 fun ⟨hpool, hsmall⟩ => hband ?_
      refine ⟨hpool, hsmall, ?_, hshort⟩
      have h1000 : (1000 : UInt64).toNat = 1000 := rfl
      rw [UInt64.le_iff_toNat_le, toNat_minPartialRepayAtoms] at hmin
      rw [UInt64.le_iff_toNat_le, h1000]
      omega

/-- A pool loan of 1000 atoms and a balance of 1050: 999 atoms are picked, below the floor. -/
theorem not_picksRespectFloor : splTokenAmount (sampleTokenAccount 1050).data = some 1050 ∧
    ¬ PicksRespectFloor sampleHandlerContext (sampleLoan 1 1000 1000) default
      (sampleTokenAccount 1050).data 1050 := by
  have hbalance : splTokenAmount (sampleTokenAccount 1050).data = some 1050 := by rfl
  refine ⟨hbalance, fun hpicks => ?_⟩
  have hruns := @runs_pickRepayAmount sampleHandlerContext (sampleLoan 1 1000 1000) default _ _
    hbalance
  rw [show repayAmount sampleHandlerContext 1050 (sampleLoan 1 1000 1000) = some 999 by
    rfl] at hruns
  have hfloor := (hpicks 999 hruns (by decide)).floor_le
  exact absurd hfloor (by decide)

/-- A fixed loan of 5000 atoms and a balance of 2000. -/
theorem pickRepayAmount_respectsFloor_sample :
    PicksRespectFloor sampleHandlerContext (sampleLoan 0 5000 5000) default
      (sampleTokenAccount 2000).data 2000 := by
  refine (pickRepayAmount_respectsFloor_iff default (by rfl)).2 fun hband => ?_
  exact absurd hband.pool (by decide)

end Floor

/-! ### The profit of a liquidation -/

section Profit

variable (ctx : HandlerContext) (market : MarketView) (loan : LoanView)

/-- What the keeper earns on a repayment. -/
def keeperBonus (repaid : UInt64) : ℕ := repaid.toNat * market.liquidationKeeperBps.toNat / 10000

/-- What is repaid: for the sentinel, all that is outstanding. -/
def effectiveRepay (repayAtomsMax : UInt64) : UInt64 :=
  if repayAtomsMax = repayFull then loan.outstandingDebtAtoms else repayAtomsMax

/-- The liquidation an event sends. -/
def sentLiquidation : Service.Event → Option CloseLoan
  | ⟨.rpc (.sendSignedV0Labeled _ ixs _ _), _⟩ => match ixs.getLast? with
    | some (.liquidateLoan args) => some args
    | _ => none
  | _ => none

/-- The token balance an event reads. -/
def balanceRead : Service.Event → Option UInt64
  | ⟨.rpc (.getAccountData _), .ok (some data)⟩ => splTokenAmount data
  | _ => none

/-- What is repaid earns the keeper the minimal profit. -/
def Pays (repaid : UInt64) : Prop :=
  ctx.cfg.thresholds.minLiquidationProfitAtoms.toNat ≤ keeperBonus market repaid

variable {ctx market loan}

theorem sentLiquidation_of_reads {e : Service.Event} (h : e.call.Reads) :
    sentLiquidation e = none := by
  obtain ⟨c, r⟩ := e
  cases c with
  | rpc c => cases c <;> first | rfl | exact h.elim
  | client c => rfl
  | process c => rfl

theorem balanceRead_of_isProcess {e : Service.Event} (h : e.call.IsProcess) :
    balanceRead e = none := by
  obtain ⟨c, r⟩ := e
  cases c with
  | process c => rfl
  | rpc c => exact h.elim
  | client c => exact h.elim

/-- The balance read for a cleared bundle is the one its amount was picked from. -/
theorem Cleared.repayAmount_eq {closing : Closing} {b : Bundle} {t : Service.Trace}
    {balance : UInt64} (h : Cleared ctx market loan closing b t)
    (hread : ∃ e ∈ t, balanceRead e = some balance) :
    repayAmount ctx balance loan = some b.repayAtomsMax := by
  obtain ⟨hbanks, -, hswb, -, hamount, -⟩ := h
  obtain ⟨e, hmem, hread⟩ := hread
  obtain ⟨data, balance', rfl, hbalance, hpick⟩ := pickRepayAmount_runs hamount
  -- neither the registry nor the gateways are account reads
  have hprocess : ∀ {α : Type} {x : Async Service α} {t : Service.Trace} {r : Except Failure α},
      x.Makes ServiceCall.IsProcess → x.run.Runs t r → e ∉ t := by
    intro α x t r hx hrun hmem
    rw [balanceRead_of_isProcess (hx t r hrun e hmem)] at hread
    cases hread
  simp only [List.mem_append, List.mem_cons, List.not_mem_nil, or_false] at hmem
  rcases hmem with hmem | hmem | rfl | rfl | rfl
  · exact absurd hmem (hprocess (makes_banksSnapshot trivial) hbanks)
  · exact absurd hmem (hprocess (makes_fetchSwbBundle ctx _ fun _ _ _ => trivial) hswb)
  · cases hread
  · rw [balanceRead, hbalance] at hread
    rw [← Option.some.inj hread]
    exact hpick
  · cases hread

/-- The liquidation sent is the one that was cleared, and it passed the profit gate. -/
theorem Sent.liquidation {t : Service.Trace} {r : Except Failure Bool} {args : CloseLoan}
    (h : Sent ctx market loan (liquidating ctx market loan) t r)
    (hsends : ∃ e ∈ t, sentLiquidation e = some args) :
    ctx.cfg.thresholds.minLiquidationProfitAtoms.toNat ≤ expectedBonus market loan ∧
      ∀ balance, (∃ e ∈ t, balanceRead e = some balance) →
        repayAmount ctx balance loan = some args.repayAtomsMax := by
  obtain ⟨hprofit, hcleared⟩ := h
  obtain ⟨e, hmem, hargs⟩ := hsends
  refine ⟨by simpa [liquidating] using hprofit, fun balance ⟨e', hmem', hread⟩ => ?_⟩
  rw [List.mem_append, List.mem_singleton] at hmem hmem'
  rcases hmem with hs | rfl
  · rw [sentLiquidation_of_reads (hcleared.reads e hs)] at hargs
    cases hargs
  rcases hmem' with hs | rfl
  · have hpick := hcleared.repayAmount_eq ⟨e', hs, hread⟩
    -- the bundle ends with the liquidation
    simp only [sentLiquidation, Bundle.send, Bundle.ixs, liquidating, List.getLast?_append,
      List.getLast?_singleton, Option.some_or, Option.some.injEq] at hargs
    rw [hpick, ← hargs]
    rfl
  · cases hread

/-- **A liquidation that is sent pays, when the balance covers a full repayment or the partial
amount pays, and only then.** -/
theorem liquidation_pays_iff (hbps : 0 < market.liquidationKeeperBps) {t : Service.Trace}
    {r : Except Failure Bool} {args : CloseLoan} {balance : UInt64}
    (hrun : (tryLiquidateLtv ctx market loan).run.Runs t r)
    (hsends : ∃ e ∈ t, sentLiquidation e = some args)
    (hread : ∃ e ∈ t, balanceRead e = some balance) :
    Pays ctx market (effectiveRepay loan args.repayAtomsMax) ↔
      fullRequired ctx loan ≤ balance ∨ Pays ctx market (partialRepay ctx loan balance) := by
  have hsent : Sent ctx market loan (liquidating ctx market loan) t r := by
    refine (tryClose_spec ctx market loan _ t r hrun).resolve_left fun ⟨hreads, _⟩ => ?_
    obtain ⟨e, hmem, hargs⟩ := hsends
    rw [sentLiquidation_of_reads (hreads e hmem)] at hargs
    cases hargs
  obtain ⟨hgate, hpicked⟩ := hsent.liquidation hsends
  rw [expectedBonus, if_pos hbps] at hgate
  rcases repayAmount_eq_some (hpicked balance hread) with ⟨hfull, hv⟩ | ⟨hshort, hmin, hv⟩
  · rw [hv, effectiveRepay, if_pos rfl]
    exact ⟨fun _ => .inl hfull, fun _ => hgate⟩
  · have hfull : ¬ fullRequired ctx loan ≤ balance := UInt64.not_le.2 hshort
    rw [hv, effectiveRepay, if_neg (partialRepay_ne_repayFull hshort hmin)]
    exact ⟨.inr, fun h => h.resolve_left hfull⟩

variable (ctx market loan) in
/-- Every liquidation that an attempt sends earns the minimal profit on what it repays. -/
def LiquidationsPay : Prop :=
  ∀ t r args, (tryLiquidateLtv ctx market loan).run.Runs t r →
    (∃ e ∈ t, sentLiquidation e = some args) →
      Pays ctx market (effectiveRepay loan args.repayAtomsMax)

/-- A keeper that asks for this profit. -/
def sampleKeeper (minProfit : UInt64) : HandlerContext :=
  { sampleHandlerContext with cfg := { sampleConfig with thresholds := ⟨minProfit, 0, 0⟩ } }

/-- A market that pays its keepers 5 %. -/
def samplePayingMarket : MarketView := { sampleMarket with liquidationKeeperBps := 500 }

/-- An attempt at a fixed loan of 42000 atoms, with 2000 atoms in the keeper's token account. -/
def samplePartial (minProfit : UInt64) : Service.Trace × Except Failure Bool :=
  (tryLiquidateLtv (sampleKeeper minProfit) samplePayingMarket
    (sampleLoan 0 40000 42000)).run.answered (acceptingReply [] sampleBanks)

theorem samplePartial_runs (minProfit : UInt64) :
    (tryLiquidateLtv (sampleKeeper minProfit) samplePayingMarket
      (sampleLoan 0 40000 42000)).run.Runs (samplePartial minProfit).1
        (samplePartial minProfit).2 := by
  unfold samplePartial
  exact Prog.runs_answered _ _

/-- The bonus on the whole debt is 2100 atoms and passes the gate, that on the repayment is 100. -/
theorem not_liquidationsPay : 0 < samplePayingMarket.liquidationKeeperBps ∧
    ¬ LiquidationsPay (sampleKeeper 1000) samplePayingMarket (sampleLoan 0 40000 42000) := by
  refine ⟨by decide, fun hpay => ?_⟩
  have hargs : ∃ args ∈ (samplePartial 1000).1.filterMap sentLiquidation,
      keeperBonus samplePayingMarket (effectiveRepay (sampleLoan 0 40000 42000)
        args.repayAtomsMax) < 1000 := by decide
  obtain ⟨args, hmem, hsmall⟩ := hargs
  have hpays := hpay _ _ args (samplePartial_runs 1000) (List.mem_filterMap.1 hmem)
  exact absurd hpays (not_le.2 hsmall)

/-- With a minimal profit of 50 atoms, the partial repayment pays. -/
theorem liquidation_pays_sample : ∃ args ∈ (samplePartial 50).1.filterMap sentLiquidation,
    Pays (sampleKeeper 50) samplePayingMarket
      (effectiveRepay (sampleLoan 0 40000 42000) args.repayAtomsMax) := by
  have hargs : (samplePartial 50).1.filterMap sentLiquidation ≠ [] := by decide
  have hbalance : 2000 ∈ (samplePartial 50).1.filterMap balanceRead := by decide
  obtain ⟨args, hmem⟩ := List.exists_mem_of_ne_nil _ hargs
  refine ⟨args, hmem, (liquidation_pays_iff (by decide) (samplePartial_runs 50)
    (List.mem_filterMap.1 hmem) (List.mem_filterMap.1 hbalance)).2 (.inr ?_)⟩
  change 50 ≤ keeperBonus _ _
  decide

end Profit

end LiquidatorHandler

end YdeltaCrankers
