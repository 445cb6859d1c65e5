import YdeltaCrankers.Handlers.Reads
import YdeltaCrankers.Service.Implement

/-!
# One loan of a pass of the liquidator

What the liquidator does for one loan, as a list of its calls: an attempt at a closing sends last,
if it sends, and only after its check simulation and the simulation of what it sends have succeeded
(`LiquidatorHandler.tryClose_spec`); at most one of the attempts at a loan sends
(`LiquidatorHandler.trySettleOrLiquidate_spec`); and all of it happens while the key of the loan is
in the in-flight set (`withInflight_spec`), since no error of an attempt escapes.
-/

namespace YdeltaCrankers

open Interaction

namespace LiquidatorHandler

/-! ### One attempt -/

section Attempt

variable (ctx : HandlerContext) (market : MarketView) (loan : LoanView)

/-- What an attempt at a closing has found and chosen when it sends. -/
structure Bundle where
  debtBank : BankInfo
  collateralBank : BankInfo
  /-- The Switchboard update it sends along. -/
  swb : SwbBundle
  repayAtomsMax : UInt64

/-- The instructions of the check simulation. -/
def Bundle.checkIxs (closing : Closing) (b : Bundle) : List Instruction :=
  b.swb.1 ++ [closing.check b.debtBank b.collateralBank]

/-- The instructions to send. -/
def Bundle.ixs (closing : Closing) (b : Bundle) : List Instruction :=
  b.swb.1 ++ [closing.build (closeLoan ctx market loan b.debtBank b.collateralBank b.repayAtomsMax)]

/-- The simulation of these instructions with the tables of the bundle. -/
def Bundle.simulate (b : Bundle) (ixs : List Instruction) : RpcCall :=
  .simulateV0 ixs b.swb.2 ctx.signers.feePayer

/-- The send of the bundle. -/
def Bundle.send (closing : Closing) (b : Bundle) : RpcCall :=
  .sendSignedV0Labeled closing.ixLabel (b.ixs ctx market loan closing) b.swb.2
    [ctx.signers.feePayer]

/-- The calls of an attempt that is about to send the bundle: the check succeeded, the amount is
the one picked, and a simulation of the very bundle succeeded. -/
inductive Cleared (closing : Closing) (b : Bundle) : Service.Trace → Prop
  | intro {bankTrace swbTrace amountTrace : Service.Trace} {banks : BankRegistry}
      {check confirm : SimulationResult}
      (hbanks : Config.banksSnapshot.run.Runs bankTrace (.ok banks))
      (hpair : bankPair banks market.debtMint market.collateralMint =
        .ok (b.debtBank, b.collateralBank))
      (hswb : (fetchSwbBundle ctx b.collateralBank).run.Runs swbTrace (.ok b.swb))
      (hcheck : check.ok = true)
      (hamount : (pickRepayAmount ctx (b.debtBank.ataFor ctx.sdk ctx.signers.feePayer)
        loan).run.Runs amountTrace (.ok (some b.repayAtomsMax)))
      (hconfirm : confirm.ok = true) :
      Cleared closing b (bankTrace ++ (swbTrace ++
        (⟨.rpc (b.simulate ctx (b.checkIxs closing)), .ok check⟩ : Service.Event) ::
          (amountTrace ++
            [⟨.rpc (b.simulate ctx (b.ixs ctx market loan closing)), .ok confirm⟩])))

/-- The attempt sends: last, a profitable bundle, and only after it is cleared. -/
inductive Sent (closing : Closing) : Service.Trace → Except Failure Bool → Prop
  | intro {s : Service.Trace} {b : Bundle} {reply : Except Failure Signature}
      (hprofit : closing.profitable = true) (h : Cleared ctx market loan closing b s) :
      Sent closing (s ++ [⟨.rpc (b.send ctx market loan closing), reply⟩])
        (reply.map fun _ => true)

variable {ctx market loan}

theorem Cleared.reads {closing : Closing} {b : Bundle} {t : Service.Trace}
    (h : Cleared ctx market loan closing b t) : ∀ e ∈ t, e.call.Reads := by
  obtain ⟨hbanks, -, hswb, -, hamount, -⟩ := h
  simp only [List.forall_mem_append, List.forall_mem_cons]
  exact ⟨onlyReads_banksSnapshot _ _ hbanks, onlyReads_fetchSwbBundle ctx _ _ _ hswb, trivial,
    onlyReads_pickRepayAmount ctx _ _ _ _ hamount, trivial, List.forall_mem_nil _⟩

end Attempt

section QuietOr

variable {α : Type} {P : Service.Trace → Except Failure Bool → Prop}

/-- Nothing but reads happens and the result is no success, or `P` holds. -/
def QuietOr (P : Service.Trace → Except Failure Bool → Prop) (t : Service.Trace)
    (r : Except Failure Bool) : Prop :=
  (∀ e ∈ t, e.call.Reads) ∧ r ≠ .ok true ∨ P t r

theorem quietOr_false : (pure false : Async Service Bool).Spec (QuietOr P) :=
  Fallible.spec_pure (.inl ⟨List.forall_mem_nil _, nofun⟩)

theorem quietOr_bind {x : Async Service α} {f : α → Async Service Bool} (hx : OnlyReads x)
    (hf : ∀ t a, x.run.Runs t (.ok a) → (f a).Spec (QuietOr fun t' r => P (t ++ t') r)) :
    (x >>= f).Spec (QuietOr P) := by
  refine Fallible.spec_runs_bind (fun t e h => .inl ⟨hx t _ h, nofun⟩) fun t a h => ?_
  refine (hf t a h).mono fun t' r hr => hr.imp_left fun hquiet => ⟨?_, hquiet.2⟩
  exact List.forall_mem_append.2 ⟨hx t _ h, hquiet.1⟩

/-- A simulation that must succeed for the rest to happen. -/
theorem quietOr_simulate {ixs : List Instruction} {luts : List AddressLookupTableAccount}
    {payer : Pubkey} {x : SimulationResult → Async Service Bool}
    (h : ∀ sim : SimulationResult, sim.ok = true → (x sim).Spec (QuietOr fun t r =>
      P (⟨.rpc (.simulateV0 ixs luts payer), .ok sim⟩ :: t) r)) :
    (do
      let sim ← Service.rpc (.simulateV0 ixs luts payer)
      if !sim.ok then return false
      else x sim).Spec (QuietOr P) := by
  refine quietOr_bind (Fallible.makes_ask trivial) fun t sim hrun => ?_
  obtain ⟨_, _, rfl, rfl, hsim⟩ := hrun
  cases hsim
  refine Fallible.spec_ite (fun _ => quietOr_false) fun hok => ?_
  exact h sim (by simpa using hok)

end QuietOr

/-- **An attempt sends last, and only what it simulated.** -/
theorem tryClose_spec (ctx : HandlerContext) (market : MarketView) (loan : LoanView)
    (closing : Closing) :
    (tryClose ctx market loan closing).Spec (QuietOr (Sent ctx market loan closing)) := by
  refine quietOr_bind onlyReads_banksSnapshot fun bankTrace banks hbanks => ?_
  cases hpair : bankPair banks market.debtMint market.collateralMint with
  | error e => exact Fallible.spec_throw (.inl ⟨List.forall_mem_nil _, nofun⟩)
  | ok pair =>
    obtain ⟨debtBank, collateralBank⟩ := pair
    refine quietOr_bind (x := fetchSwbBundle ctx collateralBank)
      (onlyReads_fetchSwbBundle ctx collateralBank) fun swbTrace swb hswb => ?_
    refine quietOr_simulate fun check hcheck => ?_
    refine Fallible.spec_ite (fun _ => quietOr_false) fun hprofit => ?_
    refine quietOr_bind (onlyReads_pickRepayAmount ctx _ _) fun amountTrace amount hamount => ?_
    cases amount with
    | none => exact quietOr_false
    | some repayAtomsMax =>
      refine quietOr_simulate fun confirm hconfirm => ?_
      -- both simulations have passed: what is sent is what was confirmed
      have hcleared : Cleared ctx market loan closing
          ⟨debtBank, collateralBank, swb, repayAtomsMax⟩ _ :=
        .intro hbanks hpair hswb hcheck hamount hconfirm
      have hsent : ∀ reply : Except Failure Signature,
          Sent ctx market loan closing _ (reply.map fun _ => true) := fun reply =>
        .intro (by simpa using hprofit) hcleared
      simp only [List.append_assoc, List.cons_append, List.nil_append] at hsent
      refine Fallible.spec_ask_bind ?_ ?_
      · rintro _ e rfl
        exact .inr (hsent (.error e))
      · rintro _ sig rfl
        exact Fallible.spec_pure (.inr (hsent (.ok sig)))

/-! ### The attempts at one loan -/

section Loan

variable (ctx : HandlerContext) (market : MarketView) (loan : LoanView)

/-- The closings a pass at this time may send. -/
inductive MaySend (tNow : Int64) : Closing → Prop
  | settle (h : isMatured ctx market loan tNow = true) : MaySend tNow (settling ctx market loan)
  | liquidate
      (h : ctx.cfg.thresholds.minLiquidationProfitAtoms.toNat ≤ expectedBonus market loan) :
      MaySend tNow (liquidating ctx market loan)

/-- At most one call sends, and what it sends is a closing the pass may send, cleared by the calls
right before it; the other calls are `idle`. -/
inductive SafeCalls (idle : ServiceCall → Prop) (tNow : Int64) : Service.Trace → Prop
  | quiet {t : Service.Trace} (h : ∀ e ∈ t, idle e.call) : SafeCalls idle tNow t
  | sent {t₀ s t₁ : Service.Trace} {closing : Closing} {b : Bundle}
      {reply : Except Failure Signature} (hmay : MaySend ctx market loan tNow closing)
      (hcleared : Cleared ctx market loan closing b s) (h₀ : ∀ e ∈ t₀, idle e.call)
      (h₁ : ∀ e ∈ t₁, idle e.call) :
      SafeCalls idle tNow
        (t₀ ++ (s ++ (⟨.rpc (b.send ctx market loan closing), reply⟩ : Service.Event) :: t₁))

variable {ctx market loan} {idle idle' : ServiceCall → Prop} {tNow : Int64} {t u : Service.Trace}

namespace SafeCalls

theorem prepend (h : SafeCalls ctx market loan idle tNow t) (hu : ∀ e ∈ u, idle e.call) :
    SafeCalls ctx market loan idle tNow (u ++ t) := by
  cases h with
  | quiet h => exact .quiet (List.forall_mem_append.2 ⟨hu, h⟩)
  | sent hmay hcleared h₀ h₁ =>
    rw [← List.append_assoc]
    exact .sent hmay hcleared (List.forall_mem_append.2 ⟨hu, h₀⟩) h₁

theorem append (h : SafeCalls ctx market loan idle tNow t) (hu : ∀ e ∈ u, idle e.call) :
    SafeCalls ctx market loan idle tNow (t ++ u) := by
  cases h with
  | quiet h => exact .quiet (List.forall_mem_append.2 ⟨h, hu⟩)
  | sent hmay hcleared h₀ h₁ =>
    simp only [List.append_assoc, List.cons_append]
    exact .sent hmay hcleared h₀ (List.forall_mem_append.2 ⟨h₁, hu⟩)

theorem mono (h : SafeCalls ctx market loan idle tNow t) (hidle : ∀ c, idle c → idle' c) :
    SafeCalls ctx market loan idle' tNow t := by
  cases h with
  | quiet h => exact .quiet fun e he => hidle _ (h e he)
  | sent hmay hcleared h₀ h₁ =>
    exact .sent hmay hcleared (fun e he => hidle _ (h₀ e he)) fun e he => hidle _ (h₁ e he)

/-- All calls are idle, reads or sends. -/
theorem calls (h : SafeCalls ctx market loan idle tNow t) :
    ∀ e ∈ t, idle e.call ∨ e.call.Reads ∨ e.call.Sends := by
  cases h with
  | quiet h => exact fun e he => .inl (h e he)
  | sent hmay hcleared h₀ h₁ =>
    simp only [List.forall_mem_append, List.forall_mem_cons]
    exact ⟨fun e he => .inl (h₀ e he), fun e he => .inr (.inl (hcleared.reads e he)),
      .inr (.inr rfl), fun e he => .inl (h₁ e he)⟩

/-- At most one of the calls sends. -/
theorem countP_sends_le (h : SafeCalls ctx market loan (fun c => ¬ c.Sends) tNow t) :
    t.countP (fun e => e.call.sends) ≤ 1 := by
  have hzero : ∀ {t : Service.Trace}, Quiet t → t.countP (fun e => e.call.sends) = 0 :=
    fun h => List.countP_eq_zero.2 h
  cases h with
  | quiet h => rw [hzero h]; exact Nat.zero_le 1
  | sent hmay hcleared h₀ h₁ =>
    rw [List.countP_append, List.countP_append, List.countP_cons, hzero h₀,
      hzero (quiet_of_reads hcleared.reads), hzero h₁]
    split <;> decide

end SafeCalls

/-- What one attempt does is safe, if its closing may be sent. -/
theorem safeCalls_of_quietOr {closing : Closing} {r : Except Failure Bool}
    (h : QuietOr (Sent ctx market loan closing) t r)
    (hmay : closing.profitable = true → MaySend ctx market loan tNow closing) :
    SafeCalls ctx market loan ServiceCall.Reads tNow t := by
  rcases h with ⟨h, -⟩ | ⟨hprofit, hcleared⟩
  · exact .quiet h
  · exact SafeCalls.sent (hmay hprofit) hcleared (List.forall_mem_nil _) (List.forall_mem_nil _)

theorem maySend_of_profitable (h : (liquidating ctx market loan).profitable = true) :
    MaySend ctx market loan tNow (liquidating ctx market loan) :=
  .liquidate (by simpa [liquidating] using h)

/-- **At most one of the two attempts sends.** -/
theorem trySettleOrLiquidate_spec (ctx : HandlerContext) (market : MarketView) (loan : LoanView)
    (tNow : Int64) (maybeLtvBreach : Bool) :
    (trySettleOrLiquidate ctx market loan (isMatured ctx market loan tNow) maybeLtvBreach).Spec
      fun t _ => SafeCalls ctx market loan ServiceCall.Reads tNow t := by
  have hsettle : isMatured ctx market loan tNow = true → (trySettleMatured ctx market loan).Spec
      fun t _ => SafeCalls ctx market loan ServiceCall.Reads tNow t :=
    fun hmatured => (tryClose_spec ctx market loan _).mono fun t r h =>
      safeCalls_of_quietOr h fun _ => .settle hmatured
  have hnone : (pure false : Async Service Bool).Spec
      fun t _ => SafeCalls ctx market loan ServiceCall.Reads tNow t :=
    Fallible.spec_pure (.quiet (List.forall_mem_nil _))
  refine Fallible.spec_ite (fun _ => ?_) fun _ => Fallible.spec_ite hsettle fun _ => hnone
  refine Fallible.spec_bind (tryClose_spec ctx market loan _)
    (fun t e h => safeCalls_of_quietOr h maySend_of_profitable) fun t closed h => ?_
  cases closed with
  | true =>
    refine Fallible.spec_pure ?_
    rw [List.append_nil]
    exact safeCalls_of_quietOr h maySend_of_profitable
  | false =>
    -- the liquidation was not sent, so that the loan may still be settled
    rcases h with ⟨hreads, -⟩ | h
    · refine Fallible.spec_ite nofun fun _ => ?_
      refine Fallible.spec_ite (fun hmatured => ?_) fun _ => Fallible.spec_pure ?_
      · exact (hsettle hmatured).mono fun t' r h => h.prepend hreads
      · rw [List.append_nil]
        exact .quiet hreads
    · generalize hr : (Except.ok false : Except Failure Bool) = r at h
      cases h with
      | @intro s b reply => cases reply <;> cases hr

end Loan

end LiquidatorHandler

end YdeltaCrankers
