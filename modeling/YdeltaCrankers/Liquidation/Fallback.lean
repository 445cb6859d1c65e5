import YdeltaCrankers.Interaction.Progress
import YdeltaCrankers.Liquidation.Amounts
import YdeltaCrankers.Liquidation.Safety
import YdeltaCrankers.Rpc.Rejection

/-!
# Settling when the liquidation is not sent

A matured loan that may have breached its LTV is liquidated if that goes through, and settled if the
liquidation is refused.  An attempt at the liquidation can also end with an error before it has
broadcast anything, and such an error ends the pass over the loan.

**Main theorem** (`LiquidatorHandler.settleAttempted_iff`): when the attempt at the liquidation has
broadcast nothing, the settlement is attempted exactly when no event of the attempt fails.
-/

namespace YdeltaCrankers

open Interaction

namespace LiquidatorHandler

/-! ### How an attempt fails -/

/-- The event makes an attempt at a closing fail: a method of `Rpc` returns an error, the token
account is too short, or the registry lacks a mint of the market. -/
def Fails (market : MarketView) : Service.Event → Prop
  | ⟨.rpc (.getAccountData _), r⟩ =>
    match r with
    | .ok (some data) => data.length < 72
    | .ok none => False
    | .error _ => True
  | ⟨.rpc (.simulate _ _), r⟩ | ⟨.rpc (.simulateV0 _ _ _), r⟩ => ∃ err, r = .error err
  | ⟨.rpc (.sendSignedLabeled _ _ _), r⟩ | ⟨.rpc (.sendSignedV0Labeled _ _ _ _), r⟩ =>
    ∃ err, r = .error err
  | ⟨.process .banksRead, r⟩ =>
    ∃ err, bankPair (r.getD default) market.debtMint market.collateralMint = .error err
  | _ => False

section Failing

variable {market : MarketView} {α : Type}

/-- A result is a success or an error. -/
theorem exists_ok_iff {ε : Type} {r : Except ε α} : (∃ a, r = .ok a) ↔ ¬ ∃ err, r = .error err := by
  cases r with
  | ok a => simp
  | error err => simp

theorem failsBy_simulateV0 (ixs : List Instruction) (luts : List AddressLookupTableAccount)
    (feePayer : Pubkey) :
    (Service.rpc (.simulateV0 ixs luts feePayer)).FailsBy (Fails market) :=
  Fallible.failsBy_ask fun _ => exists_ok_iff

theorem failsBy_send (ixLabel : String) (ixs : List Instruction)
    (luts : List AddressLookupTableAccount) (signers : List Pubkey) :
    (Service.rpc (.sendSignedV0Labeled ixLabel ixs luts signers)).FailsBy (Fails market) :=
  Fallible.failsBy_ask fun _ => exists_ok_iff

theorem splTokenAmount_eq_none {data : List UInt8} :
    splTokenAmount data = none ↔ data.length < 72 := by
  unfold splTokenAmount
  by_cases h : 72 ≤ data.length
  · simp [h]
  · simp [h]
    omega

theorem failsBy_pickRepayAmount (ctx : HandlerContext) (liquidatorDebtAta : Pubkey)
    (loan : LoanView) :
    (pickRepayAmount ctx liquidatorDebtAta loan).FailsBy (Fails market) := by
  refine Fallible.spec_ask_bind ?_ ?_
  · rintro _ err rfl
    simp [Fails]
  · rintro _ data rfl
    cases data with
    | none =>
      refine Fallible.spec_pure ?_
      simp [Fails]
    | some data =>
      simp only
      cases hamount : splTokenAmount data with
      | none =>
        have hshort := splTokenAmount_eq_none.1 hamount
        refine Fallible.spec_throw ?_
        simp [Fails, hshort]
      | some balance =>
        have hlong : ¬ data.length < 72 := by
          rw [← splTokenAmount_eq_none, hamount]
          nofun
        refine Fallible.spec_pure ?_
        simp [Fails, not_lt.1 hlong]

/-- The gateways fail nothing: the attempt goes on without a bundle. -/
theorem failsBy_fetchSwbBundle (ctx : HandlerContext) (collateralBank : BankInfo) :
    (fetchSwbBundle ctx collateralBank).FailsBy (Fails market) := by
  let G : ServiceCall → Prop := fun c => ∃ gateway feeds payer,
    c = .process (.fetchUpdateConsensusIx gateway feeds payer)
  have hmakes : (fetchSwbBundle ctx collateralBank).Makes G :=
    makes_fetchSwbBundle ctx _ fun _ gateway payer => ⟨gateway, _, payer, rfl⟩
  refine Fallible.failsBy_of_makes hmakes (fetchSwbBundle_never_fails ctx collateralBank) ?_ ?_
  · rintro ⟨c, r⟩ ⟨gateway, feeds, payer, rfl⟩
    exact trivial
  · rintro ⟨c, r⟩ ⟨gateway, feeds, payer, rfl⟩
    exact id

/-- A snapshot of the registry is one read of it. -/
theorem banksSnapshot_spec : Config.banksSnapshot.Spec fun t r =>
    ∃ reply, t = [⟨.process .banksRead, reply⟩] ∧ r = .ok (reply.getD default) := by
  refine Fallible.spec_query_bind fun reply => ?_
  cases reply with
  | none => exact Fallible.spec_pure ⟨none, rfl, rfl⟩
  | some registry => exact Fallible.spec_pure ⟨some registry, rfl, rfl⟩

/-- **An attempt fails exactly when one of its events does.** -/
theorem tryClose_failsBy (ctx : HandlerContext) (market : MarketView) (loan : LoanView)
    (closing : Closing) :
    (tryClose ctx market loan closing).FailsBy (Fails market) := by
  refine Fallible.spec_bind banksSnapshot_spec ?_ ?_
  · rintro t e ⟨reply, -, h⟩
    cases h
  rintro _ banks ⟨reply, rfl, h⟩
  cases h
  cases hpair : bankPair (reply.getD default) market.debtMint market.collateralMint with
  | error e =>
    refine Fallible.spec_throw ?_
    simp [Fails, hpair]
  | ok pair =>
    -- from here on the read of the registry is no failure
    have hrest : ∀ {x : Async Service Bool}, x.FailsBy (Fails market) →
        x.Spec fun t r => (∃ a, r = .ok a) ↔
          ∀ e ∈ [(⟨.process .banksRead, reply⟩ : Service.Event)] ++ t, ¬ Fails market e := by
      intro x hx
      refine hx.mono fun t r hr => ?_
      rw [hr, List.forall_mem_append]
      simp [Fails, hpair]
    refine hrest ?_
    refine (failsBy_fetchSwbBundle ctx _).bind fun _ swb _ => ?_
    refine (failsBy_simulateV0 _ _ _).bind fun _ check _ => ?_
    refine Fallible.spec_ite (fun _ => Fallible.failsBy_pure _) fun _ => ?_
    refine Fallible.spec_ite (fun _ => Fallible.failsBy_pure _) fun _ => ?_
    refine (failsBy_pickRepayAmount ctx _ loan).bind fun _ amount _ => ?_
    cases amount with
    | none => exact Fallible.failsBy_pure _
    | some repayAtomsMax =>
      refine (failsBy_simulateV0 _ _ _).bind fun _ confirm _ => ?_
      refine Fallible.spec_ite (fun _ => Fallible.failsBy_pure _) fun _ => ?_
      exact (failsBy_send _ _ _ _).bind fun _ _ _ => Fallible.failsBy_pure _

end Failing

/-! ### The pass over a loan -/

section Pass

variable {rpc : Rpc} {sdk : Sdk} {ctx : HandlerContext} {market : MarketView} {loan : LoanView}
  {t u t₁ t₂ : Service.Trace} {r r₁ : Except Failure Bool}

/-- A send that succeeds has broadcast. -/
theorem exists_sends_of_ok {ixLabel : String} {ixs : List Instruction}
    {luts : List AddressLookupTableAccount} {feePayer : Pubkey} {sig : Signature}
    (h : (Service.implement rpc sdk
      (.rpc (.sendSignedV0Labeled ixLabel ixs luts [feePayer]))).Runs t (.ok sig)) :
    ∃ e ∈ t, e.call.Sends := by
  obtain ⟨u, hu, rfl⟩ := Service.runs_implement_rpc h
  change (rpc.sendV0WithRetry sdk _ luts [feePayer] feePayer).run.Runs u (.ok sig) at hu
  rw [Rpc.sendV0WithRetry_eq] at hu
  obtain ⟨⟨c, reply⟩, he, hb⟩ := Rpc.exists_broadcast_of_ok hu
  refine ⟨_, List.mem_map_of_mem he, ?_⟩
  cases c
  case sendAndConfirmTransaction tx => rfl
  all_goals exact hb.elim

/-- An attempt that closes the loan has broadcast. -/
theorem not_quiet_of_closed {closing : Closing}
    (hu : (tryClose ctx market loan closing).run.Runs u (.ok true))
    (himp : Implements (Service.implement rpc sdk) u t) : ¬ Quiet t := by
  intro hquiet
  rcases tryClose_spec ctx market loan closing u _ hu with ⟨-, hfalse⟩ | hsent
  · exact hfalse rfl
  · generalize hr : (Except.ok true : Except Failure Bool) = r at hsent
    obtain ⟨hprofit, hcleared⟩ := hsent
    rename_i s b reply
    cases reply with
    | error e => cases hr
    | ok sig =>
      obtain ⟨t', hrun, hsub⟩ := himp.exists_of_mem (List.mem_append_right s List.mem_cons_self)
      obtain ⟨e, he, hsends⟩ := exists_sends_of_ok hrun
      exact hquiet e (hsub he) hsends

/-- An attempt begins by reading the registry. -/
theorem tryClose_reads_first {closing : Closing}
    (h : ((tryClose ctx market loan closing).run.interp (Service.implement rpc sdk)).Runs t r) :
    ∃ reply t', t = ⟨.process .banksRead, reply⟩ :: t' := by
  obtain ⟨reply, t', rfl, -⟩ := h
  exact ⟨reply, t', rfl⟩

/-- A pass over a matured loan that may have breached its LTV tries the liquidation, and then the
settlement if nothing was closed. -/
theorem trySettleOrLiquidate_runs
    (h : (trySettleOrLiquidate ctx market loan true true).run.Runs u r) :
    (tryLiquidateLtv ctx market loan).run.Runs u r ∧ r ≠ .ok false ∨
      ∃ u₁ u₂, u = u₁ ++ u₂ ∧ (tryLiquidateLtv ctx market loan).run.Runs u₁ (.ok false) ∧
        (trySettleMatured ctx market loan).run.Runs u₂ r := by
  have hspec : (trySettleOrLiquidate ctx market loan true true).Spec fun u r =>
      (tryLiquidateLtv ctx market loan).run.Runs u r ∧ r ≠ .ok false ∨
        ∃ u₁ u₂, u = u₁ ++ u₂ ∧ (tryLiquidateLtv ctx market loan).run.Runs u₁ (.ok false) ∧
          (trySettleMatured ctx market loan).run.Runs u₂ r := by
    refine Fallible.spec_runs_bind (fun u e hu => .inl ⟨hu, nofun⟩) fun u₁ closed hu₁ => ?_
    cases closed with
    | true =>
      refine Fallible.spec_pure (.inl ⟨?_, nofun⟩)
      rwa [List.append_nil]
    | false => exact fun u₂ r hu₂ => .inr ⟨u₁, u₂, rfl, hu₁, hu₂⟩
  exact hspec u r h

variable (rpc sdk ctx market loan)

/-- The pass begins with the attempt at the liquidation: its events are `u`, its part of the trace
is `t₁`, and `t₂` is what follows. -/
structure Begins (t u t₁ t₂ : Service.Trace) : Prop where
  append : t = t₁ ++ t₂
  implements : Implements (Service.implement rpc sdk) u t₁
  runs : ∃ r, (tryLiquidateLtv ctx market loan).run.Runs u r

/-- What follows is an attempt at the settlement, and the pass ends with its result. -/
def SettleAttempted (t₂ : Service.Trace) (r : Except Failure Bool) : Prop :=
  ((trySettleMatured ctx market loan).run.interp (Service.implement rpc sdk)).Runs t₂ r

/-- A run of the pass over the loan at this time, with the flags the scan computes. -/
abbrev PassRuns (tNow : Int64) (t : Service.Trace) (r : Except Failure Bool) : Prop :=
  ((trySettleOrLiquidate ctx market loan (isMatured ctx market loan tNow)
    (maybeLtvBreach ctx loan)).run.interp (Service.implement rpc sdk)).Runs t r

variable {rpc sdk ctx market loan}

/-- Every pass begins with an attempt at the liquidation, and an error of it is one of the pass. -/
theorem PassRuns.begins {tNow : Int64} (hmatured : isMatured ctx market loan tNow = true)
    (hbreach : maybeLtvBreach ctx loan = true)
    (hpass : PassRuns rpc sdk ctx market loan tNow t r) :
    ∃ u t₁ t₂ r₁, Begins rpc sdk ctx market loan t u t₁ t₂ ∧
      (tryLiquidateLtv ctx market loan).run.Runs u r₁ ∧
        ((∃ b, r = .ok b) → ∃ b, r₁ = .ok b) := by
  rw [PassRuns, hmatured, hbreach] at hpass
  obtain ⟨v, hv, himp⟩ := Prog.runs_interp.1 hpass
  rcases trySettleOrLiquidate_runs hv with ⟨hv, -⟩ | ⟨v₁, v₂, rfl, hv₁, hv₂⟩
  · exact ⟨v, t, [], r, ⟨(List.append_nil t).symm, himp, r, hv⟩, hv, id⟩
  · obtain ⟨s₁, s₂, rfl, himp₁, -⟩ := himp.of_append
    exact ⟨v₁, s₁, s₂, _, ⟨rfl, himp₁, _, hv₁⟩, hv₁, fun _ => ⟨false, rfl⟩⟩

/-- There is only one way to tell the attempt from what follows it. -/
theorem Begins.unique {s₁ s₂ : Service.Trace} (h : Begins rpc sdk ctx market loan t u t₁ t₂)
    (ht : t = s₁ ++ s₂)
    (hs : ((tryLiquidateLtv ctx market loan).run.interp (Service.implement rpc sdk)).Runs s₁ r₁) :
    t₁ = s₁ ∧ t₂ = s₂ ∧ (tryLiquidateLtv ctx market loan).run.Runs u r₁ := by
  obtain ⟨r', hu⟩ := h.runs
  obtain ⟨h₁, rfl, h₂⟩ :=
    (Prog.runs_interp.2 ⟨u, hu, h.implements⟩).unique hs (h.append.symm.trans ht)
  exact ⟨h₁, h₂, hu⟩

/-- **When nothing has been broadcast, the settlement is attempted exactly when nothing failed.**
Every pass over a matured loan that may have breached its LTV begins with an attempt at the
liquidation. -/
theorem settleAttempted_iff {tNow : Int64} (hmatured : isMatured ctx market loan tNow = true)
    (hbreach : maybeLtvBreach ctx loan = true)
    (hpass : PassRuns rpc sdk ctx market loan tNow t r) :
    (∃ u t₁ t₂, Begins rpc sdk ctx market loan t u t₁ t₂) ∧
      ∀ u t₁ t₂, Begins rpc sdk ctx market loan t u t₁ t₂ → Quiet t₁ →
        (SettleAttempted rpc sdk ctx market loan t₂ r ↔ ∀ e ∈ u, ¬ Fails market e) := by
  constructor
  · obtain ⟨u, t₁, t₂, -, hbegins, -⟩ := hpass.begins hmatured hbreach
    exact ⟨u, t₁, t₂, hbegins⟩
  intro u t₁ t₂ hbegins hquiet
  rw [PassRuns, hmatured, hbreach] at hpass
  obtain ⟨v, hv, himp⟩ := Prog.runs_interp.1 hpass
  have hfails := tryClose_failsBy ctx market loan (liquidating ctx market loan)
  rcases trySettleOrLiquidate_runs hv with ⟨hv, hr⟩ | ⟨v₁, v₂, rfl, hv₁, hv₂⟩
  · obtain ⟨rfl, rfl, hu⟩ := hbegins.unique (List.append_nil t).symm
      (Prog.runs_interp.2 ⟨v, hv, himp⟩)
    -- nothing was closed, since nothing was broadcast: the attempt has failed
    have herror : ¬ ∃ b, r = .ok b := by
      rintro ⟨b, rfl⟩
      cases b with
      | true => exact not_quiet_of_closed hv himp hquiet
      | false => exact hr rfl
    constructor
    · intro hsettle
      obtain ⟨reply, t', ht⟩ := tryClose_reads_first hsettle
      cases ht
    · exact fun hnone => absurd ((hfails u r hu).2 hnone) herror
  · obtain ⟨s₁, s₂, rfl, himp₁, himp₂⟩ := himp.of_append
    obtain ⟨rfl, rfl, hu⟩ := hbegins.unique rfl (Prog.runs_interp.2 ⟨v₁, hv₁, himp₁⟩)
    exact ⟨fun _ => (hfails u _ hu).1 ⟨false, rfl⟩, fun _ => Prog.runs_interp.2 ⟨v₂, hv₂, himp₂⟩⟩

/-! ### A settlement suppressed -/

variable (rpc sdk ctx market loan) in
/-- Whenever the attempt at the liquidation has broadcast nothing, the settlement is attempted. -/
def NeverSuppressed : Prop :=
  ∀ tNow t r u t₁ t₂, isMatured ctx market loan tNow = true → maybeLtvBreach ctx loan = true →
    PassRuns rpc sdk ctx market loan tNow t r → Begins rpc sdk ctx market loan t u t₁ t₂ →
      Quiet t₁ → SettleAttempted rpc sdk ctx market loan t₂ r

/-- A node that answers every simulation so. -/
def simulationReply (result : Except ClientError RpcSimulateTransactionResult) :
    (c : ServiceCall) → c.Reply
  | .client (.simulateTransaction _) => result
  | c => sampleReply [] sampleBanks c

/-- A pass over a loan that is long overdue and has accrued a tenth of its principal. -/
def samplePass (result : Except ClientError RpcSimulateTransactionResult) :
    Service.Trace × Except Failure Bool :=
  ((trySettleOrLiquidate sampleHandlerContext sampleMarket (sampleLoan 0 1000 1100)
    (isMatured sampleHandlerContext sampleMarket (sampleLoan 0 1000 1100) 2000000000)
    (maybeLtvBreach sampleHandlerContext (sampleLoan 0 1000 1100))).run.interp
      (Service.implement sampleRpc .plain)).answered (simulationReply result)

theorem samplePass_runs (result : Except ClientError RpcSimulateTransactionResult) :
    PassRuns sampleRpc .plain sampleHandlerContext sampleMarket (sampleLoan 0 1000 1100) 2000000000
      (samplePass result).1 (samplePass result).2 := by
  unfold samplePass
  exact Prog.runs_answered _ _

theorem sampleLoan_matured :
    isMatured sampleHandlerContext sampleMarket (sampleLoan 0 1000 1100) 2000000000 = true := by
  rfl

theorem sampleLoan_breach :
    maybeLtvBreach sampleHandlerContext (sampleLoan 0 1000 1100) = true := by
  decide +kernel

theorem quiet_of_all (h : (t₁ ++ t₂).all (fun e => !e.call.sends) = true) : Quiet t₁ := by
  intro e he hsends
  have hnot := List.all_eq_true.1 h e (List.mem_append_left t₂ he)
  rw [hsends] at hnot
  cases hnot

/-- The event reads the registry. -/
def readsBanks : Service.Event → Bool
  | ⟨.process .banksRead, _⟩ => true
  | _ => false

/-- The call that simulates the check times out, and the loan is not settled either. -/
theorem not_neverSuppressed :
    ¬ NeverSuppressed sampleRpc .plain sampleHandlerContext sampleMarket
      (sampleLoan 0 1000 1100) := by
  intro hnever
  let timeout : ClientError := ⟨.io "timed out", "timed out"⟩
  have hrun := samplePass_runs (.error timeout)
  have hsilent : (samplePass (.error timeout)).1.all (fun e => !e.call.sends) = true := by
    decide +kernel
  have hreads : (samplePass (.error timeout)).1.countP readsBanks = 1 := by decide +kernel
  obtain ⟨u, t₁, t₂, r₁, hbegins, hu, -⟩ := hrun.begins sampleLoan_matured sampleLoan_breach
  rw [hbegins.append] at hsilent hreads
  have hsettle := hnever _ _ _ u t₁ t₂ sampleLoan_matured sampleLoan_breach hrun hbegins
    (quiet_of_all hsilent)
  -- both attempts would have read the registry
  obtain ⟨reply₁, t₁', rfl⟩ := tryClose_reads_first (Prog.runs_interp.2 ⟨u, hu, hbegins.implements⟩)
  obtain ⟨reply₂, t₂', rfl⟩ := tryClose_reads_first hsettle
  rw [List.countP_append, List.countP_cons_of_pos rfl, List.countP_cons_of_pos rfl] at hreads
  omega

/-- The check refuses the liquidation, and the settlement is attempted. -/
theorem settleAttempted_sample : ∃ t₁ t₂,
    (samplePass (.ok ⟨some (.instructionError 0 6010), none⟩)).1 = t₁ ++ t₂ ∧
      SettleAttempted sampleRpc .plain sampleHandlerContext sampleMarket (sampleLoan 0 1000 1100) t₂
        (samplePass (.ok ⟨some (.instructionError 0 6010), none⟩)).2 := by
  have hrun := samplePass_runs (.ok ⟨some (.instructionError 0 6010), none⟩)
  obtain ⟨u, t₁, t₂, r₁, hbegins, hu, hok⟩ := hrun.begins sampleLoan_matured sampleLoan_breach
  have hsilent : (samplePass (.ok ⟨some (.instructionError 0 6010), none⟩)).1.all
      (fun e => !e.call.sends) = true := by decide +kernel
  rw [hbegins.append] at hsilent
  have hresult : (samplePass (.ok ⟨some (.instructionError 0 6010), none⟩)).2 = .ok false := by
    decide +kernel
  have hnone := (tryClose_failsBy _ _ _ _ u r₁ hu).1 (hok ⟨false, hresult⟩)
  exact ⟨t₁, t₂, hbegins.append, ((settleAttempted_iff sampleLoan_matured sampleLoan_breach
    hrun).2 u t₁ t₂ hbegins (quiet_of_all hsilent)).2 hnone⟩

end Pass

end LiquidatorHandler

end YdeltaCrankers
