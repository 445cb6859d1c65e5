import YdeltaCrankers.Handlers.Inflight
import YdeltaCrankers.Liquidation.Attempt
import YdeltaCrankers.Process.Memory

/-!
# What a pass of the liquidator sends

**Main theorem** (`LiquidatorHandler.scanMarket_safe`): a pass over the loans of a market sends at
most once for each loan, only for active loans with debt outstanding, only a closing whose check
simulation succeeded and whose own conditions hold, and exactly what a simulation has cleared; and
it leaves the in-flight set of the liquidator as it was.
-/

namespace YdeltaCrankers

open Interaction

/-- The loans in the in-flight set of the liquidator. -/
def Memory.inflightLoans (s : Memory) : Set Pubkey := {loan | .liquidator loan ∈ s.inflight}

namespace LiquidatorHandler

/-! ### No panic -/

section NoPanic

theorem errorsOnly_fetchUpdateFrom (cranker : SwbCranker) (oracles : List Pubkey)
    (gateways : List Gateway) (lastErr : Option Error) :
    ErrorsOnly (cranker.fetchUpdateFrom oracles gateways lastErr) := by
  induction gateways generalizing lastErr with
  | nil => exact errorsOnly_bail _
  | cons gateway rest ih =>
    have hvia : ErrorsOnly (cranker.fetchUpdateVia oracles gateway) := by
      refine (errorsOnly_process _).bind fun r => ?_
      cases r with
      | ok bundle => exact Fallible.failsOnly_pure _
      | error e => exact errorsOnly_bail _
    refine (ErrorsOnly.of_never hvia.caught).bind fun r => ?_
    cases r with
    | ok bundle => exact Fallible.failsOnly_pure _
    | error e => exact ih (some e)

variable (ctx : HandlerContext)

/-- A handler goes on without a bundle when no gateway answers. -/
theorem fetchSwbBundle_never_fails (collateralBank : BankInfo) :
    (fetchSwbBundle ctx collateralBank).FailsOnly Service.Calm fun _ => False := by
  unfold fetchSwbBundle
  split
  · exact Fallible.failsOnly_pure _
  split
  · exact Fallible.failsOnly_pure _
  rename_i cranker hcranker
  have hfetch : ErrorsOnly (cranker.fetchUpdateIxs [collateralBank.primaryOracle]) := by
    unfold SwbCranker.fetchUpdateIxs
    split
    · exact Fallible.failsOnly_pure _
    · exact errorsOnly_fetchUpdateFrom cranker _ _ _
  refine hfetch.caught.bind fun r => ?_
  cases r <;> exact Fallible.failsOnly_pure _

theorem errorsOnly_pickRepayAmount (liquidatorDebtAta : Pubkey) (loan : LoanView) :
    ErrorsOnly (pickRepayAmount ctx liquidatorDebtAta loan) := by
  refine (errorsOnly_rpc _).bind fun r => ?_
  cases r with
  | none => exact Fallible.failsOnly_pure _
  | some acct =>
    simp only
    split
    · exact errorsOnly_bail _
    · exact Fallible.failsOnly_pure _

theorem errorsOnly_tryClose (market : MarketView) (loan : LoanView) (closing : Closing) :
    ErrorsOnly (tryClose ctx market loan closing) := by
  refine errorsOnly_banksSnapshot.bind fun banks => ?_
  refine (errorsOnly_liftError _).bind fun pair => ?_
  refine (ErrorsOnly.of_never (fetchSwbBundle_never_fails ctx _)).bind fun swb => ?_
  refine (errorsOnly_rpc _).bind fun check => ?_
  split
  · exact Fallible.failsOnly_pure _
  split
  · exact Fallible.failsOnly_pure _
  refine (errorsOnly_pickRepayAmount ctx _ _).bind fun amount => ?_
  cases amount with
  | none => exact Fallible.failsOnly_pure _
  | some repayAtomsMax =>
    refine (errorsOnly_rpc _).bind fun confirm => ?_
    split
    · exact Fallible.failsOnly_pure _
    · exact (errorsOnly_rpc _).bind fun _ => Fallible.failsOnly_pure _

theorem errorsOnly_trySettleOrLiquidate (market : MarketView) (loan : LoanView)
    (matured maybeLtvBreach : Bool) :
    ErrorsOnly (trySettleOrLiquidate ctx market loan matured maybeLtvBreach) := by
  unfold trySettleOrLiquidate
  split
  · refine (errorsOnly_tryClose ctx market loan _).bind fun closed => ?_
    split
    · exact Fallible.failsOnly_pure _
    split
    · exact errorsOnly_tryClose ctx market loan _
    · exact Fallible.failsOnly_pure _
  split
  · exact errorsOnly_tryClose ctx market loan _
  · exact Fallible.failsOnly_pure _

end NoPanic

/-! ### While a key is in the in-flight set -/

/-- Memory, while nobody else touches the in-flight set of the liquidator. -/
abbrev memoryEnv (y : Ydelta) : Env Service Memory :=
  (Memory.env y).rely fun s s' => s'.inflightLoans = s.inflightLoans

/-- The events leave the in-flight set of the liquidator as it was. -/
def Restores (y : Ydelta) (t : Service.Trace) : Prop :=
  ∀ s T s', (memoryEnv y).Timeline s T s' → T.map Prod.snd = t →
    s'.inflightLoans = s.inflightLoans

section Restores

variable {y : Ydelta} {s s' : Memory} {t t' : Service.Trace}

theorem inflightLoans_of_ticks (h : (memoryEnv y).Ticks s s') :
    s'.inflightLoans = s.inflightLoans :=
  h.invariant (P := fun x => x.inflightLoans = s.inflightLoans) rfl fun _ _ h₁ h₂ => h₂.trans h₁

theorem restores_of_calls (h : ∀ e ∈ t, e.call.Reads ∨ e.call.Sends) : Restores y t := by
  rintro s T s' hT rfl
  refine hT.invariant (P := fun x => x.inflightLoans = s.inflightLoans) rfl
    (fun _ _ hs ht => ht.trans hs) ?_
  rintro s₁ e _ hs₁ ⟨-, rfl⟩ hmem
  have hcall := ServiceCall.not_touchesInflight (h e (List.mem_map_of_mem hmem))
  rw [← hs₁, Memory.inflightLoans, Memory.inflight_after s₁ _ hcall]
  rfl

theorem Restores.append (h : Restores y t) (h' : Restores y t') : Restores y (t ++ t') := by
  intro s T s' hT hmap
  obtain ⟨T₁, T₂, rfl, rfl, rfl⟩ := List.map_eq_append_iff.1 hmap
  obtain ⟨s₁, hT₁, hT₂⟩ := Env.timeline_append.1 hT
  exact (h' s₁ T₂ s' hT₂ rfl).trans (h s T₁ s₁ hT₁ rfl)

theorem inflightLoans_claim (s : Memory) (loan : Pubkey) (r : Bool) :
    (s.after y (.process (.claimInflight (.liquidator loan))) r).inflightLoans =
      insert loan s.inflightLoans := by
  ext a
  simp [Memory.inflightLoans, Memory.after]

theorem inflightLoans_release (s : Memory) (loan : Pubkey) :
    (s.after y (.process (.releaseInflight (.liquidator loan))) ()).inflightLoans =
      s.inflightLoans \ {loan} := by
  ext a
  simp [Memory.inflightLoans, Memory.after, and_comm]

/-- A key that was claimed is released, and a key that was there stays. -/
theorem restores_of_window {loan : Pubkey} {body : Async Service Bool}
    (h : Window (.liquidator loan) body t)
    (hbody : ∀ t r, body.run.Runs t r → Restores y t) : Restores y t := by
  intro s T s' hT hmap
  cases h with
  | skipped =>
    obtain ⟨⟨s₁, e⟩, T, rfl, rfl, hnil⟩ := List.map_eq_cons_iff.1 hmap
    obtain rfl := List.map_eq_nil_iff.1 hnil
    obtain ⟨hs₁, s₂, ⟨hallow, rfl⟩, hs'⟩ := hT
    have hclaim : false = decide (.liquidator loan ∉ s₁.inflight) := hallow
    have hmem : .liquidator loan ∈ s₁.inflight := not_not.1 (of_decide_eq_false hclaim.symm)
    have hstays : insert loan s₁.inflightLoans = s₁.inflightLoans := Set.insert_eq_of_mem hmem
    rw [inflightLoans_of_ticks hs', inflightLoans_claim, hstays, inflightLoans_of_ticks hs₁]
  | @ran t r hrun =>
    obtain ⟨⟨s₁, e⟩, T, rfl, rfl, hrest⟩ := List.map_eq_cons_iff.1 hmap
    obtain ⟨T₁, T₂, rfl, rfl, hlast⟩ := List.map_eq_append_iff.1 hrest
    obtain ⟨⟨s₃, e⟩, T₂, rfl, rfl, hnil⟩ := List.map_eq_cons_iff.1 hlast
    obtain rfl := List.map_eq_nil_iff.1 hnil
    obtain ⟨hs₁, s₂, ⟨hallow, rfl⟩, hT⟩ := hT
    obtain ⟨s₄, hT₁, hs₃, s₅, ⟨-, rfl⟩, hs'⟩ := Env.timeline_append.1 hT
    have hclaim : true = decide (.liquidator loan ∉ s₁.inflight) := hallow
    have hnot : .liquidator loan ∉ s₁.inflight := of_decide_eq_true hclaim.symm
    have hgone : insert loan s₁.inflightLoans \ {loan} = s₁.inflightLoans :=
      Set.insert_sdiff_self_of_notMem hnot
    rw [inflightLoans_of_ticks hs', inflightLoans_release, inflightLoans_of_ticks hs₃,
      hbody _ _ hrun _ T₁ s₄ hT₁ rfl, inflightLoans_claim, hgone, inflightLoans_of_ticks hs₁]

end Restores

/-! ### A pass -/

section Pass

variable (ctx : HandlerContext) (market : MarketView)

/-- What a pass may do for one loan. -/
structure SafePass (tNow : Int64) (loan : LoanView) (t : Service.Trace) : Prop where
  calls : SafeCalls ctx market loan (fun c => ¬ c.Sends) tNow t
  /-- Only a loan that is due is worth a send. -/
  due : ¬ Quiet t → loan.state = ctx.y.loanStateActive ∧ loan.outstandingDebtAtoms ≠ 0

/-- The sends of a pass for the loans at an address, the calls of a pass being given loan by
loan. -/
def sendsFor (address : Pubkey) (passes : List (LoanView × Service.Trace)) : ℕ :=
  (((passes.filter fun p => p.1.address = address).map Prod.snd).flatten).countP
    fun e => e.call.sends

/-- What a pass over the loans of a market does. -/
inductive Pass : Service.Trace → Prop
  /-- The loans cannot be listed. -/
  | failed {t : Service.Trace} {e : Failure}
      (h : (ctx.chain.listLoansForMarket ctx.y market.address).run.Runs t (.error e))
      (hquiet : Quiet t) : Pass t
  /-- The loans are visited one by one; of loans at different addresses each is sent for at most
  once. -/
  | visited {t : Service.Trace} {tNow : Int64} {passes : List (LoanView × Service.Trace)}
      (h : (ctx.chain.listLoansForMarket ctx.y market.address).run.Runs t
        (.ok (passes.map Prod.fst)))
      (hquiet : Quiet t) (hsafe : ∀ p ∈ passes, SafePass ctx market tNow p.1 p.2)
      (honce : (passes.map fun p => p.1.address).Nodup → ∀ address, sendsFor address passes ≤ 1) :
      Pass (t ++ (⟨.process .nowUnix, tNow⟩ : Service.Event) :: (passes.map Prod.snd).flatten)

variable {ctx market} {tNow : Int64}

/-- The keys of the window neither send nor are sent. -/
theorem safeCalls_of_window {loan : LoanView} {key : InflightKey} {body : Async Service Bool}
    {t : Service.Trace} (h : Window key body t)
    (hbody : body.Spec fun t _ => SafeCalls ctx market loan ServiceCall.Reads tNow t) :
    SafeCalls ctx market loan (fun c => ¬ c.Sends) tNow t := by
  cases h with
  | skipped => exact .quiet (by simp [ServiceCall.sends])
  | ran hrun =>
    have hcalls : SafeCalls ctx market loan (fun c => ¬ c.Sends) tNow _ :=
      (hbody _ _ hrun).mono fun _ h => h.not_sends
    have hclaimed := hcalls.append (u := [⟨.process (.releaseInflight key), ()⟩])
      (by simp [ServiceCall.sends])
    exact hclaimed.prepend (u := [⟨.process (.claimInflight key), true⟩])
      (by simp [ServiceCall.sends])

/-- **One loan of a pass.** -/
theorem scanLoan_spec (loan : LoanView) :
    (scanLoan ctx market tNow loan).Spec fun t r => (∀ e ∈ t, Service.Calm e) →
      SafePass ctx market tNow loan t ∧ Restores ctx.y t ∧ ∃ b, r = .ok b := by
  have hskip : (pure false : Async Service Bool).Spec fun t r =>
      (∀ e ∈ t, Service.Calm e) →
        SafePass ctx market tNow loan t ∧ Restores ctx.y t ∧ ∃ b, r = .ok b :=
    Fallible.spec_pure fun _ => ⟨⟨.quiet (List.forall_mem_nil _), fun h => absurd quiet_nil h⟩,
      restores_of_calls (List.forall_mem_nil _), _, rfl⟩
  refine Fallible.spec_ite (fun _ => hskip) fun hdue => ?_
  refine Fallible.spec_ite (fun _ => hskip) fun _ => ?_
  have hsafe := trySettleOrLiquidate_spec ctx market loan tNow (maybeLtvBreach ctx loan)
  have hrestores : ∀ t r, (trySettleOrLiquidate ctx market loan (isMatured ctx market loan tNow)
      (maybeLtvBreach ctx loan)).run.Runs t r → Restores ctx.y t :=
    fun t r hrun => restores_of_calls fun e he => or_self_left.1 ((hsafe t r hrun).calls e he)
  have herrors := errorsOnly_trySettleOrLiquidate ctx market loan
    (isMatured ctx market loan tNow) (maybeLtvBreach ctx loan)
  refine Fallible.spec_bind (withInflight_spec herrors)
    (fun t e h hcalm => by obtain ⟨-, _, ⟨⟩⟩ := h hcalm) fun t res h => ?_
  have hpass : (∀ e ∈ t ++ [], Service.Calm e) →
      SafePass ctx market tNow loan (t ++ []) ∧ Restores ctx.y (t ++ []) := by
    rw [List.append_nil]
    intro hcalm
    have hwindow := (h hcalm).1
    exact ⟨⟨safeCalls_of_window hwindow hsafe, fun _ => by simpa using hdue⟩,
      restores_of_window hwindow hrestores⟩
  cases res <;> exact Fallible.spec_pure fun hcalm => and_assoc.1 ⟨hpass hcalm, _, rfl⟩

/-- **The loans of a pass, one by one.** -/
theorem scanLoans_spec (loans : List LoanView) :
    (scanLoans ctx market tNow loans).Spec fun t r => (∀ e ∈ t, Service.Calm e) →
      ∃ passes : List (LoanView × Service.Trace), passes.map Prod.fst = loans ∧
        t = (passes.map Prod.snd).flatten ∧ (∀ p ∈ passes, SafePass ctx market tNow p.1 p.2) ∧
        Restores ctx.y t ∧ ∃ n, r = .ok n := by
  induction loans with
  | nil =>
    refine Fallible.spec_pure fun _ => ⟨[], rfl, rfl, List.forall_mem_nil _, ?_, _, rfl⟩
    exact restores_of_calls (List.forall_mem_nil _)
  | cons loan loans ih =>
    refine Fallible.spec_bind (scanLoan_spec loan)
      (fun t e h hcalm => by obtain ⟨-, -, _, ⟨⟩⟩ := h hcalm) fun t submitted h => ?_
    refine Fallible.spec_bind ih (fun t' e h' hcalm => ?_) fun t' count h' => ?_
    · obtain ⟨_, -, -, -, -, _, ⟨⟩⟩ := h' fun e he => hcalm e (List.mem_append_right t he)
    · refine Fallible.spec_pure fun hcalm => ?_
      rw [List.append_nil] at hcalm ⊢
      obtain ⟨hsafe, hrestores, -⟩ := h fun e he => hcalm e (List.mem_append_left t' he)
      obtain ⟨passes, hloans, rfl, hpasses, hrestores', -⟩ :=
        h' fun e he => hcalm e (List.mem_append_right t he)
      refine ⟨(loan, t) :: passes, ?_, ?_, ?_, hrestores.append hrestores', _, rfl⟩
      · rw [List.map_cons, hloans]
      · rw [List.map_cons, List.flatten_cons]
      · exact List.forall_mem_cons.2 ⟨hsafe, hpasses⟩

/-- Loans at different addresses are sent for at most once each. -/
theorem sendsFor_le {passes : List (LoanView × Service.Trace)}
    (hsafe : ∀ p ∈ passes, SafePass ctx market tNow p.1 p.2)
    (hnodup : (passes.map fun p => p.1.address).Nodup) (address : Pubkey) :
    sendsFor address passes ≤ 1 := by
  induction passes with
  | nil => exact Nat.zero_le 1
  | cons p passes ih =>
    obtain ⟨hp, hpasses⟩ := List.forall_mem_cons.1 hsafe
    rw [List.map_cons, List.nodup_cons] at hnodup
    by_cases haddress : p.1.address = address
    · -- no other loan has this address
      have hnone : passes.filter (fun p => p.1.address = address) = [] := by
        refine List.filter_eq_nil_iff.2 fun q hq h => hnodup.1 ?_
        rw [haddress]
        exact List.mem_map.2 ⟨q, hq, of_decide_eq_true h⟩
      rw [sendsFor, List.filter_cons_of_pos (by simpa using haddress), hnone]
      simpa using hp.calls.countP_sends_le
    · rw [sendsFor, List.filter_cons_of_neg (by simpa using haddress)]
      exact ih hpasses hnodup.2

/-- **What a pass of the liquidator sends is safe**, and it leaves the in-flight set as it was. -/
theorem scanMarket_safe {rpc : Rpc} {sdk : Sdk} {t : Service.Trace} {r : Except Failure ℕ}
    (hrun : (scanMarket ctx market).run.Runs t r)
    (hgiven : ∀ e ∈ t, Service.Given rpc sdk e) :
    Pass ctx market t ∧ Restores ctx.y t := by
  have hspec : (scanMarket ctx market).Spec fun t r => (∀ e ∈ t, Service.Calm e) →
      Pass ctx market t ∧ Restores ctx.y t := by
    have hlist := onlyReads_listLoansForMarket ctx.chain ctx.y market.address
    refine Fallible.spec_runs_bind (fun t e h _ => ?_) fun t loans h => ?_
    · exact ⟨.failed h (quiet_of_reads (hlist t _ h)),
        restores_of_calls fun e he => .inl (hlist t _ h e he)⟩
    refine Fallible.spec_query_bind fun tNow => ?_
    refine (scanLoans_spec loans).mono fun t' r h' hcalm => ?_
    obtain ⟨passes, rfl, rfl, hsafe, hrestores, -⟩ := h' fun e he =>
      hcalm e (List.mem_append_right t (List.mem_cons_of_mem _ he))
    refine ⟨.visited h (quiet_of_reads (hlist t _ h)) hsafe (sendsFor_le hsafe), ?_⟩
    have hhead : Restores ctx.y (t ++ [⟨.process .nowUnix, tNow⟩]) := by
      refine restores_of_calls (List.forall_mem_append.2 ⟨fun e he => .inl (hlist t _ h e he), ?_⟩)
      exact List.forall_mem_singleton.2 (.inl trivial)
    have hall := hhead.append hrestores
    rwa [List.append_assoc] at hall
  exact hspec t r hrun fun e he => (hgiven e he).calm

end Pass

/-- Two pool loans. -/
def poolLoans : List (Pubkey × Account) :=
  [sampleLoanRow 31 1 1000 1000, (.fill 32 42, (sampleLoanRow 31 1 1000 1100).2)]

/-- A pass over a market with two pool loans. -/
def sampleScan : Service.Trace × Except Failure ℕ :=
  (scanMarket sampleHandlerContext sampleMarket).run.answered (sampleReply poolLoans sampleBanks)

/-- A pass that sends for each of them. -/
theorem scanMarket_safe_sample : sampleScan.1.countP (fun e => e.call.sends) = 2 ∧
    Pass sampleHandlerContext sampleMarket sampleScan.1 ∧
    Restores sampleHandlerContext.y sampleScan.1 := by
  have hrun : (scanMarket sampleHandlerContext sampleMarket).run.Runs sampleScan.1
      sampleScan.2 := by
    unfold sampleScan
    exact Prog.runs_answered _ _
  have hgiven : ∀ e ∈ sampleScan.1, Service.Given sampleRpc .plain e := by
    rintro ⟨c, r⟩ he
    cases c with
    | rpc c =>
      have hr : r = ((c.prog sampleRpc .plain).run.answered
          (sampleClient poolLoans)).2 := Prog.mem_answered he
      rw [hr]
      exact ⟨_, Prog.runs_answered _ _⟩
    | client c => trivial
    | process c => trivial
  exact ⟨by rfl, scanMarket_safe hrun hgiven⟩

end LiquidatorHandler

end YdeltaCrankers
