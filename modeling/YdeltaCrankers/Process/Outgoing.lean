import YdeltaCrankers.Handlers.Gate
import YdeltaCrankers.Handlers.Parts
import YdeltaCrankers.Process.LowBalance

/-!
# What the handlers send

A handler sends one instruction at a time, behind the Switchboard update it may need, signed by one
key and counted under the label of the instruction's builder; the update is what a gateway has
answered; the instruction is for a market that its list shows unpaused; and but for curator fee
claims it has been simulated successfully before.

* `Conducts handler allowed x` : this of a program `x`, for the markets that satisfy `allowed`.
* `HandlerKind.tick_obeys` : this of every tick, for the markets unpaused on the list it has read.

**Main result** (`ProcessRun.lawful`): this of every iteration of every supervisor in a run of the
process; the other loops send nothing, but for the warm-keeper, which sends what a gateway has
answered and nothing else.
-/

namespace YdeltaCrankers

open Interaction

/-! ### What is allowed -/

/-- The label under which a send of the instruction is counted, if it may be sent. -/
def Instruction.ixLabel : Instruction → Option String
  | .processMatchedLoan _ => some "process_matched_loan"
  | .settleMaturedLoan _ => some "settle_matured_loan"
  | .liquidateLoan _ => some "liquidate_loan"
  | .claimRepaymentForSubVault _ => some "claim_repayment_for_sub_vault"
  | .matchCrank _ => some "match_crank"
  | .claimCuratorFee _ => some "claim_curator_fee"
  | _ => none

/-- The labels a handler sends under. -/
def HandlerKind.ixLabels : HandlerKind → List String
  | .promoter => ["process_matched_loan"]
  | .claimer => ["claim_repayment_for_sub_vault"]
  | .liquidator => ["settle_matured_loan", "liquidate_loan"]
  | .curatorFeeClaimer => ["claim_curator_fee"]
  | .matchCranker => ["match_crank"]

/-- The market of the instruction, if it has one, is allowed. -/
def Instruction.AllowedIn (allowed : Pubkey → Prop) (ix : Instruction) : Prop :=
  ∀ market ∈ ix.marketBanks.map Prod.fst, allowed market

/-- The bundle ends with an instruction that may be sent under this label, for an allowed market;
what stands before it is the update (`ServiceCall.update`). -/
def BundleOf (handler : HandlerKind) (allowed : Pubkey → Prop) (ixLabel : String)
    (ixs : List Instruction) : Prop :=
  ixLabel ∈ handler.ixLabels ∧
    ∃ swbIxs ix, ixs = swbIxs ++ [ix] ∧ ix.ixLabel = some ixLabel ∧ ix.AllowedIn allowed

/-- What a handler may call. -/
def ServiceCall.Conducted (handler : HandlerKind) (allowed : Pubkey → Prop) : ServiceCall → Prop
  | .rpc (.sendSignedLabeled ixLabel ixs signers) =>
    BundleOf handler allowed ixLabel ixs ∧ signers.length = 1
  | .rpc (.sendSignedV0Labeled ixLabel ixs _ signers) =>
    BundleOf handler allowed ixLabel ixs ∧ signers.length = 1
  | .client (.sendAndConfirmTransaction _) => False
  | .process (.setFeePayerLow _) | .process (.banksSet _) | .process (.banksMerge _) => False
  | _ => True

/-- The calls that a simulation has to come before. -/
def ServiceCall.NeedsSimulation : ServiceCall → Prop
  | .rpc (.sendSignedLabeled ixLabel _ _) => ixLabel ≠ "claim_curator_fee"
  | .rpc (.sendSignedV0Labeled _ _ _ _) => True
  | _ => False

/-- A successful simulation of what the call sends. -/
def Simulates (e : Service.Event) (c : ServiceCall) : Prop := ∃ version, SimulatedFor version e c

/-- The Switchboard update that a send carries: a handler puts its own instruction behind one, and
the warm-keeper sends one by itself. -/
def ServiceCall.update : ServiceCall → SwbBundle
  | .rpc (.sendSignedLabeled _ ixs _) => (ixs.dropLast, [])
  | .rpc (.sendSignedV0Labeled _ ixs luts _) => (ixs.dropLast, luts)
  | .client (.sendAndConfirmTransaction tx) => (tx.message.ixs, tx.message.luts)
  | _ => ([], [])

/-- The calls that a gateway's answer has to come before. -/
def ServiceCall.NeedsUpdate (c : ServiceCall) : Prop := c.update.1 ≠ []

/-- A gateway answers with the update that the call sends. -/
def Updates (e : Service.Event) (c : ServiceCall) : Prop :=
  ∃ gateway oracles payer,
    e = ⟨.process (.fetchUpdateConsensusIx gateway oracles payer), .ok c.update⟩

theorem RepliedIn.updates {t : Service.Trace} {c : ServiceCall} (h : RepliedIn t c.update) :
    ∃ e ∈ t, Updates e c := by
  obtain ⟨gateway, oracles, payer, hmem⟩ := h
  exact ⟨_, hmem, gateway, oracles, payer, rfl⟩

/-- `x` calls only what it may, simulates what it sends, and sends the updates it was given. -/
def Conducts {α : Type} (handler : HandlerKind) (allowed : Pubkey → Prop)
    (x : Async Service α) : Prop :=
  x.Spec fun t _ => (∀ e ∈ t, ServiceCall.Conducted handler allowed e.call) ∧
    Permitted ServiceCall.NeedsSimulation Simulates t ∧
      Permitted ServiceCall.NeedsUpdate Updates t

section Rules

variable {handler : HandlerKind} {allowed allowed' : Pubkey → Prop} {α β : Type}
  {x : Async Service α}

theorem ServiceCall.Reads.conducted {c : ServiceCall} (h : c.Reads) :
    c.Conducted handler allowed := by
  cases c with
  | rpc c => cases c <;> first | exact h.elim | trivial
  | client c => cases c <;> first | exact h.elim | trivial
  | process c => cases c <;> first | exact h.elim | trivial

theorem ServiceCall.NeedsSimulation.sends {c : ServiceCall} (h : c.NeedsSimulation) : c.Sends := by
  cases c with
  | rpc c => cases c <;> first | exact h.elim | rfl
  | client c => exact h.elim
  | process c => exact h.elim

theorem ServiceCall.NeedsUpdate.sends {c : ServiceCall} (h : c.NeedsUpdate) : c.Sends := by
  cases c with
  | rpc c => cases c <;> first | exact absurd rfl h | rfl
  | client c => cases c <;> first | exact absurd rfl h | rfl
  | process c => exact absurd rfl h

/-- A program whose calls need neither a simulation nor an update. -/
theorem conducts_of_makes (h : x.Makes fun c => ServiceCall.Conducted handler allowed c ∧
    ¬ ServiceCall.NeedsSimulation c ∧ ¬ ServiceCall.NeedsUpdate c) :
    Conducts handler allowed x := by
  have hsimulated : x.Spec fun t _ => Permitted ServiceCall.NeedsSimulation Simulates t :=
    Fallible.spec_permitted_of_makes (h.mono fun _ hc => hc.2.1)
  have hupdated : x.Spec fun t _ => Permitted ServiceCall.NeedsUpdate Updates t :=
    Fallible.spec_permitted_of_makes (h.mono fun _ hc => hc.2.2)
  exact (h.mono fun _ hc => hc.1).and (hsimulated.and hupdated)

theorem conducts_of_onlyReads (h : OnlyReads x) : Conducts handler allowed x :=
  conducts_of_makes (Fallible.Makes.mono h fun _ hc => ⟨hc.conducted,
    fun hneeds => hc.not_sends hneeds.sends, fun hneeds => hc.not_sends hneeds.sends⟩)

theorem conducts_pure (a : α) : Conducts handler allowed (pure a : Async Service α) :=
  conducts_of_onlyReads (Fallible.makes_pure a)

theorem Conducts.bind {f : α → Async Service β} (h : Conducts handler allowed x)
    (hf : ∀ t a, x.run.Runs t (.ok a) → Conducts handler allowed (f a)) :
    Conducts handler allowed (x >>= f) := by
  refine Fallible.spec_runs_bind (fun t err => h t (.error err)) fun t a ht => ?_
  obtain ⟨hcalls, hsimulated, hupdated⟩ := h t (.ok a) ht
  exact (hf t a ht).mono fun t' r ht' => ⟨List.forall_mem_append.2 ⟨hcalls, ht'.1⟩,
    hsimulated.trans ht'.2.1, hupdated.trans ht'.2.2⟩

theorem Conducts.caught (h : Conducts handler allowed x) :
    Conducts handler allowed (Service.caught x) :=
  Fallible.spec_attempt h (fun _ _ h => h) (fun _ _ _ h _ => h) fun _ _ h _ => h

theorem ServiceCall.Conducted.mono {c : ServiceCall} (hc : c.Conducted handler allowed)
    (ha : ∀ market, allowed market → allowed' market) : c.Conducted handler allowed' := by
  have hbundle : ∀ ixLabel ixs, BundleOf handler allowed ixLabel ixs →
      BundleOf handler allowed' ixLabel ixs :=
    fun _ _ ⟨hmem, swbIxs, ix, hixs, hlabel, hix⟩ =>
      ⟨hmem, swbIxs, ix, hixs, hlabel, fun market hm => ha market (hix market hm)⟩
  cases c with
  | rpc c => cases c <;> first | exact ⟨hbundle _ _ hc.1, hc.2⟩ | trivial
  | client c => cases c <;> first | exact hc.elim | trivial
  | process c => cases c <;> first | exact hc.elim | trivial

/-- An attempt that simulates before it sends. -/
theorem conducts_of_gated {version : MessageVersion}
    (h : x.Makes (ServiceCall.Conducted handler allowed)) (hgated : Gated version [] x)
    (hupdated : x.Spec fun t _ => Permitted ServiceCall.NeedsUpdate Updates t) :
    Conducts handler allowed x := by
  refine (Fallible.Spec.and h (Fallible.Spec.and hgated hupdated)).mono fun t _ ht =>
    ⟨ht.1, ?_, ht.2.2⟩
  exact Permitted.mono ht.2.1 (fun _ hc => hc.sends) fun _ _ hsim => ⟨version, hsim⟩

theorem conducts_composable (handler : HandlerKind) (allowed : Pubkey → Prop) :
    Composable fun _ x => Conducts handler allowed x where
  reads := conducts_of_onlyReads
  claims _ := conducts_of_makes (Fallible.makes_ask ⟨trivial, id, fun h => h rfl⟩)
  releases _ := conducts_of_makes (Fallible.makes_ask ⟨trivial, id, fun h => h rfl⟩)
  bind := Conducts.bind
  caught := Conducts.caught

end Rules

/-! ### The attempts -/

section Attempts

variable {handler : HandlerKind} {allowed : Pubkey → Prop} (ctx : HandlerContext)

/-- The end of the promoter and of the claimer. -/
theorem conducted_simulateAndSend {ix : Instruction} {payer : Pubkey} {ixLabel : String}
    (hmem : ixLabel ∈ handler.ixLabels) (hlabel : ix.ixLabel = some ixLabel)
    (hix : ix.AllowedIn allowed) :
    Fallible.Makes (I := Service) (ServiceCall.Conducted handler allowed) (do
      let sim ← Service.rpc (.simulate [ix] payer)
      if !sim.ok then return false
      else do
        let _sig ← Service.rpc (.sendSignedLabeled ixLabel [ix] [payer])
        return true : Async Service Bool) :=
  makes_simulateAndSend trivial ⟨⟨hmem, [], ix, rfl, hlabel, hix⟩, rfl⟩

/-- A handler's instruction without an update needs none. -/
theorem needsNoUpdate_simulateAndSend {ix : Instruction} {payer : Pubkey} {ixLabel : String} :
    Fallible.Makes (I := Service) (fun c => ¬ ServiceCall.NeedsUpdate c) (do
      let sim ← Service.rpc (.simulate [ix] payer)
      if !sim.ok then return false
      else do
        let _sig ← Service.rpc (.sendSignedLabeled ixLabel [ix] [payer])
        return true : Async Service Bool) :=
  makes_simulateAndSend (fun h => h rfl) fun h => h rfl

theorem needsNoUpdate_of_onlyReads {α : Type} {x : Async Service α} (h : OnlyReads x) :
    x.Makes fun c => ¬ ServiceCall.NeedsUpdate c :=
  Fallible.Makes.mono h fun _ hc hneeds => hc.not_sends hneeds.sends

/-- A program that asks the gateways, and then sends what they have answered. -/
theorem permitted_fetch_bind {β : Type} {needs : ServiceCall → Prop}
    {P : Service.Trace → SwbBundle → Prop} {x : Async Service SwbBundle}
    {f : SwbBundle → Async Service β} (hneeds : ∀ c, needs c → c.Sends) (hreads : OnlyReads x)
    (hx : x.Spec fun t r => ∀ bundle, r = .ok bundle → P t bundle)
    (hf : ∀ t bundle, P t bundle →
      (f bundle).Makes fun c => needs c → ∃ e ∈ t, Updates e c) :
    (x >>= f).Spec fun t _ => Permitted needs Updates t := by
  have hquiet : x.Makes fun c : ServiceCall => ¬ needs c :=
    Fallible.Makes.mono hreads fun c hc h => hc.not_sends (hneeds c h)
  have hasks : x.Spec fun t _ => Permitted needs Updates t :=
    Fallible.spec_permitted_of_makes hquiet
  refine Fallible.spec_bind (hasks.and hx) (fun _ _ h => h.1) fun t bundle h => ?_
  exact Fallible.Spec.mono (hf t bundle (h.2 bundle rfl)) fun t' _ ht' => h.1.append ht'

/-- The update before an instruction is the bundle that was fetched. -/
theorem updated_of_fetched {t : Service.Trace} {swbIxs : List Instruction} {ix : Instruction}
    {luts : List AddressLookupTableAccount} {ixLabel : String} {signers : List Pubkey}
    (h : (swbIxs, luts) = ([], []) ∨ RepliedIn t (swbIxs, luts))
    (hneeds : ServiceCall.NeedsUpdate
      (.rpc (.sendSignedV0Labeled ixLabel (swbIxs ++ [ix]) luts signers))) :
    ∃ e ∈ t, Updates e (.rpc (.sendSignedV0Labeled ixLabel (swbIxs ++ [ix]) luts signers)) := by
  have hupdate : ServiceCall.update
      (.rpc (.sendSignedV0Labeled ixLabel (swbIxs ++ [ix]) luts signers)) = (swbIxs, luts) := by
    rw [ServiceCall.update, List.dropLast_concat]
  refine RepliedIn.updates ?_
  rw [ServiceCall.NeedsUpdate] at hneeds
  rw [hupdate] at hneeds ⊢
  exact h.resolve_left fun hnil => hneeds (congrArg Prod.fst hnil)

theorem conducted_of_onlyReads {α : Type} {x : Async Service α} (h : OnlyReads x) :
    x.Makes (ServiceCall.Conducted handler allowed) :=
  Fallible.Makes.mono h fun _ hc => hc.conducted

theorem conducts_promoteOne {market : MarketView} (hm : allowed market.address)
    (entry : PendingMatchedLoan) :
    Conducts .promoter allowed (PromoterHandler.promoteOne ctx market entry) := by
  have hupdated : (PromoterHandler.promoteOne ctx market entry).Spec fun t _ =>
      Permitted ServiceCall.NeedsUpdate Updates t := by
    refine Fallible.spec_permitted_of_makes ?_
    refine (needsNoUpdate_of_onlyReads onlyReads_banksSnapshot).bind fun banks => ?_
    refine (needsNoUpdate_of_onlyReads (onlyReads_liftError _)).bind fun debtBank => ?_
    refine (needsNoUpdate_of_onlyReads
      (PromoterHandler.onlyReads_assembleVaultSettle ctx _ _ _ _)).bind fun vaultSettle => ?_
    exact needsNoUpdate_simulateAndSend
  refine conducts_of_gated ?_ (gated_promoteOne market entry) hupdated
  refine (conducted_of_onlyReads onlyReads_banksSnapshot).bind fun banks => ?_
  refine (conducted_of_onlyReads (onlyReads_liftError _)).bind fun debtBank => ?_
  refine (conducted_of_onlyReads
    (PromoterHandler.onlyReads_assembleVaultSettle ctx _ _ _ _)).bind fun vaultSettle => ?_
  refine conducted_simulateAndSend (List.mem_singleton_self _) rfl fun m hmem => ?_
  obtain rfl : market.address = m := by simpa [Instruction.marketBanks] using hmem
  exact hm

theorem conducts_sweepOne {entry : PendingVaultClaim} (hm : allowed entry.market) :
    Conducts .claimer allowed (ClaimerHandler.sweepOne ctx entry) := by
  have hupdated : (ClaimerHandler.sweepOne ctx entry).Spec fun t _ =>
      Permitted ServiceCall.NeedsUpdate Updates t := by
    refine Fallible.spec_permitted_of_makes ?_
    refine (needsNoUpdate_of_onlyReads onlyReads_banksSnapshot).bind fun banks => ?_
    refine (needsNoUpdate_of_onlyReads (onlyReads_liftError _)).bind fun debtBank => ?_
    exact needsNoUpdate_simulateAndSend
  refine conducts_of_gated ?_ (gated_sweepOne entry) hupdated
  refine (conducted_of_onlyReads onlyReads_banksSnapshot).bind fun banks => ?_
  refine (conducted_of_onlyReads (onlyReads_liftError _)).bind fun debtBank => ?_
  refine conducted_simulateAndSend (List.mem_singleton_self _) rfl fun m hmem => ?_
  obtain rfl : entry.market = m := by simpa [Instruction.marketBanks] using hmem
  exact hm

theorem updated_crankOne (market : MarketView) :
    (MatchCrankerHandler.crankOne ctx market).Spec fun t _ =>
      Permitted ServiceCall.NeedsUpdate Updates t := by
  refine Fallible.spec_permitted_bind (Fallible.spec_permitted_of_makes
    (needsNoUpdate_of_onlyReads onlyReads_banksSnapshot)) fun banks => ?_
  refine Fallible.spec_permitted_bind (Fallible.spec_permitted_of_makes
    (needsNoUpdate_of_onlyReads (onlyReads_liftError _))) fun ⟨debtBank, collateralBank⟩ => ?_
  refine permitted_fetch_bind (fun _ hc => hc.sends)
    (MatchCrankerHandler.onlyReads_fetchSwbBundle ctx _ _)
    (MatchCrankerHandler.fetches_fetchSwbBundle ctx _ _) fun t ⟨swbIxs, swbLuts⟩ hfetched => ?_
  refine Fallible.Makes.bind (Fallible.makes_ask fun hneeds => absurd rfl hneeds) fun sim => ?_
  split
  · exact Fallible.makes_pure _
  split
  · exact Fallible.makes_pure _
  exact Fallible.Makes.bind (Fallible.makes_ask (updated_of_fetched hfetched))
    fun _ => Fallible.makes_pure _

theorem conducts_crankOne {market : MarketView} (hm : allowed market.address) :
    Conducts .matchCranker allowed (MatchCrankerHandler.crankOne ctx market) := by
  refine conducts_of_gated ?_ (gated_crankOne market) (updated_crankOne ctx market)
  refine (conducted_of_onlyReads onlyReads_banksSnapshot).bind fun banks => ?_
  refine (conducted_of_onlyReads (onlyReads_liftError _)).bind fun ⟨debtBank, collateralBank⟩ => ?_
  refine (conducted_of_onlyReads
    (MatchCrankerHandler.onlyReads_fetchSwbBundle ctx _ _)).bind fun ⟨swbIxs, swbLuts⟩ => ?_
  refine Fallible.Makes.bind (Fallible.makes_ask trivial) fun sim => ?_
  split
  · exact Fallible.makes_pure _
  split
  · exact Fallible.makes_pure _
  refine Fallible.Makes.bind (Fallible.makes_ask
    ⟨⟨List.mem_singleton_self _, swbIxs, _, rfl, rfl, fun m hmem => ?_⟩, rfl⟩)
    fun _ => Fallible.makes_pure _
  obtain rfl : market.address = m := by simpa [Instruction.marketBanks] using hmem
  exact hm

theorem updated_tryClose (market : MarketView) (loan : LoanView)
    (closing : LiquidatorHandler.Closing) :
    (LiquidatorHandler.tryClose ctx market loan closing).Spec fun t _ =>
      Permitted ServiceCall.NeedsUpdate Updates t := by
  refine Fallible.spec_permitted_bind (Fallible.spec_permitted_of_makes
    (needsNoUpdate_of_onlyReads onlyReads_banksSnapshot)) fun banks => ?_
  refine Fallible.spec_permitted_bind (Fallible.spec_permitted_of_makes
    (needsNoUpdate_of_onlyReads (onlyReads_liftError _))) fun ⟨debtBank, collateralBank⟩ => ?_
  refine permitted_fetch_bind (fun _ hc => hc.sends)
    (LiquidatorHandler.onlyReads_fetchSwbBundle ctx _)
    (LiquidatorHandler.fetches_fetchSwbBundle ctx _) fun t ⟨swbIxs, swbLuts⟩ hfetched => ?_
  refine Fallible.Makes.bind (Fallible.makes_ask fun hneeds => absurd rfl hneeds) fun sim => ?_
  split
  · exact Fallible.makes_pure _
  split
  · exact Fallible.makes_pure _
  have hpick := needsNoUpdate_of_onlyReads (LiquidatorHandler.onlyReads_pickRepayAmount ctx
    (debtBank.ataFor ctx.sdk ctx.signers.feePayer) loan)
  refine (hpick.mono fun _ hc hneeds => absurd hneeds hc).bind fun amount => ?_
  cases amount with
  | none => exact Fallible.makes_pure _
  | some repayAtomsMax =>
    refine Fallible.Makes.bind (Fallible.makes_ask fun hneeds => absurd rfl hneeds)
      fun confirm => ?_
    split
    · exact Fallible.makes_pure _
    exact Fallible.Makes.bind (Fallible.makes_ask (updated_of_fetched hfetched))
      fun _ => Fallible.makes_pure _

/-- The label of a closing is that of the instruction it builds, which is for its market. -/
theorem conducts_tryClose {market : MarketView} {loan : LoanView}
    {closing : LiquidatorHandler.Closing}
    (hlabels : closing.ixLabel ∈ HandlerKind.liquidator.ixLabels)
    (hlabel : ∀ args, (closing.build args).ixLabel = some closing.ixLabel)
    (hbuild : ∀ args, ((closing.build args).marketBanks.map Prod.fst) = some args.market)
    (hm : allowed market.address) :
    Conducts .liquidator allowed (LiquidatorHandler.tryClose ctx market loan closing) := by
  refine conducts_of_gated ?_ (gated_tryClose market loan closing)
    (updated_tryClose ctx market loan closing)
  refine (conducted_of_onlyReads onlyReads_banksSnapshot).bind fun banks => ?_
  refine (conducted_of_onlyReads (onlyReads_liftError _)).bind fun ⟨debtBank, collateralBank⟩ => ?_
  refine (conducted_of_onlyReads
    (LiquidatorHandler.onlyReads_fetchSwbBundle ctx _)).bind fun ⟨swbIxs, swbLuts⟩ => ?_
  refine Fallible.Makes.bind (Fallible.makes_ask trivial) fun sim => ?_
  split
  · exact Fallible.makes_pure _
  split
  · exact Fallible.makes_pure _
  refine (conducted_of_onlyReads
    (LiquidatorHandler.onlyReads_pickRepayAmount ctx _ loan)).bind fun amount => ?_
  cases amount with
  | none => exact Fallible.makes_pure _
  | some repayAtomsMax =>
    refine Fallible.Makes.bind (Fallible.makes_ask trivial) fun confirm => ?_
    split
    · exact Fallible.makes_pure _
    refine Fallible.Makes.bind (Fallible.makes_ask
      ⟨⟨hlabels, swbIxs, _, rfl, hlabel _, fun m hmem => ?_⟩, rfl⟩) fun _ => Fallible.makes_pure _
    rw [hbuild] at hmem
    cases hmem
    exact hm

theorem conducts_claimOne (subVault : SubVaultView) (banks : BankRegistry) (curatorPk : Pubkey) :
    Conducts .curatorFeeClaimer allowed
      (CuratorFeeClaimerHandler.claimOne ctx subVault banks curatorPk) := by
  refine conducts_of_makes ?_
  unfold CuratorFeeClaimerHandler.claimOne
  split
  · exact Fallible.makes_throw _
  split
  · exact Fallible.makes_throw _
  refine Fallible.Makes.bind (Fallible.makes_ask
    ⟨⟨⟨List.mem_singleton_self _, [], _, rfl, rfl, nofun⟩, rfl⟩, fun h => h rfl, fun h => h rfl⟩)
    fun _ => Fallible.makes_pure _

end Attempts

/-! ### The ticks -/

/-- The list shows a market at this address that is not paused. -/
def UnpausedOn (markets : List MarketView) (address : Pubkey) : Prop :=
  ∃ m ∈ markets, m.address = address ∧ m.isPaused = false

section Ticks

variable (ctx : HandlerContext)

theorem PromoterHandler.conducts_promoteMarkets (markets : List MarketView) :
    Conducts .promoter (UnpausedOn markets) (promoteMarkets ctx markets) :=
  (conducts_composable .promoter _).promoteMarkets fun market hmarket hpaused entry =>
    conducts_promoteOne ctx ⟨market, hmarket, rfl, hpaused⟩ entry

theorem MatchCrankerHandler.conducts_scanMarkets (markets : List MarketView) :
    Conducts .matchCranker (UnpausedOn markets) (scanMarkets ctx markets) :=
  (conducts_composable .matchCranker _).crankMarkets fun market hmarket hpaused =>
    conducts_crankOne ctx ⟨market, hmarket, rfl, hpaused⟩

theorem LiquidatorHandler.conducts_scanMarkets (markets : List MarketView) :
    Conducts .liquidator (UnpausedOn markets) (scanMarkets ctx markets) :=
  (conducts_composable .liquidator _).closeMarkets
    (fun market hmarket hpaused _ => conducts_tryClose ctx
      (List.mem_cons_of_mem _ List.mem_cons_self) (fun _ => rfl) (fun _ => rfl)
      ⟨market, hmarket, rfl, hpaused⟩)
    fun market hmarket hpaused _ => conducts_tryClose ctx List.mem_cons_self (fun _ => rfl)
      (fun _ => rfl) ⟨market, hmarket, rfl, hpaused⟩

theorem CuratorFeeClaimerHandler.conducts_claimAll (allowed : Pubkey → Prop)
    (banks : BankRegistry) (subVaults : List SubVaultView) :
    Conducts .curatorFeeClaimer allowed (claimAll ctx banks subVaults) :=
  (conducts_composable .curatorFeeClaimer _).claimAll fun subVault curator =>
    conducts_claimOne ctx subVault banks curator

/-- The seats to sweep are of markets on the list that are not paused. -/
theorem listPendingVaultClaims_claimsOf (y : Ydelta) (markets : List MarketView) :
    (ChainReader.listPendingVaultClaims y markets).Spec fun _ r => ∀ claims, r = .ok claims →
      Seen.ClaimsOf markets claims := by
  induction markets with
  | nil =>
    refine Fallible.spec_pure fun claims h => ?_
    cases h
    exact List.forall_mem_nil _
  | cons market rest ih =>
    have hrest : ∀ claims, Seen.ClaimsOf rest claims → Seen.ClaimsOf (market :: rest) claims :=
      fun claims h entry hentry => (h entry hentry).imp fun m hm =>
        ⟨List.mem_cons_of_mem _ hm.1, hm.2⟩
    unfold ChainReader.listPendingVaultClaims
    split
    · exact ih.mono fun _ _ h claims hr => hrest claims (h claims hr)
    rename_i hpaused
    refine Fallible.spec_ask_bind (fun _ _ _ _ h => by cases h) fun _ data _ => ?_
    cases data with
    | none => exact ih.mono fun _ _ h claims hr => hrest claims (h claims hr)
    | some data =>
      refine Fallible.spec_bind ih (fun _ _ _ _ h => by cases h) fun _ claims h => ?_
      refine Fallible.spec_pure fun all hall => ?_
      cases hall
      intro entry hentry
      rcases List.mem_append.1 hentry with hentry | hentry
      · exact ⟨market, List.mem_cons_self, by simpa using hpaused,
          Seen.decodePendingClaims_market hentry⟩
      · exact hrest claims (h claims rfl) entry hentry

theorem ClaimerHandler.conducts_sweepAll {allowed : Pubkey → Prop}
    {entries : List PendingVaultClaim} (h : ∀ entry ∈ entries, allowed entry.market) :
    Conducts .claimer allowed (sweepAll ctx entries) :=
  (conducts_composable .claimer _).sweepAll fun entry hentry =>
    conducts_sweepOne ctx (h entry hentry)

end Ticks

/-! ### What comes before a send -/

section MayCall

variable (ctx : HandlerContext)

/-- A list of markets that was read in `t` shows this one unpaused. -/
def ListedUnpaused (t : Service.Trace) (address : Pubkey) : Prop :=
  ∃ t₀ markets, t₀ <:+: t ∧ (ctx.chain.listMarkets ctx.y).run.Runs t₀ (.ok markets) ∧
    UnpausedOn markets address

/-- What a handler may call after the calls and replies `t` of its tick: a market it sends for is
unpaused on the list it has read, what it sends has been simulated, and the update before its
instruction is the answer of a gateway. -/
structure HandlerKind.MayCall (handler : HandlerKind) (t : Service.Trace) (c : ServiceCall) :
    Prop where
  conducted : c.Conducted handler (ListedUnpaused ctx t)
  simulated : c.NeedsSimulation → ∃ e ∈ t, Simulates e c
  updated : c.NeedsUpdate → ∃ e ∈ t, Updates e c

variable {ctx} {handler : HandlerKind} {t t' : Service.Trace}

theorem ListedUnpaused.append_left {address : Pubkey} (h : ListedUnpaused ctx t' address) :
    ListedUnpaused ctx (t ++ t') address := by
  obtain ⟨t₀, markets, ht₀, hruns, hm⟩ := h
  exact ⟨t₀, markets, ht₀.trans (List.suffix_append t t').isInfix, hruns, hm⟩

theorem HandlerKind.MayCall.append_left {c : ServiceCall} (h : handler.MayCall ctx t' c) :
    handler.MayCall ctx (t ++ t') c where
  conducted := h.conducted.mono fun _ => ListedUnpaused.append_left
  simulated hneeds := (h.simulated hneeds).imp fun _ he => ⟨List.mem_append_right _ he.1, he.2⟩
  updated hneeds := (h.updated hneeds).imp fun _ he => ⟨List.mem_append_right _ he.1, he.2⟩

theorem ServiceCall.Lists.mayCall {c : ServiceCall} (h : c.Lists) : handler.MayCall ctx t c := by
  rcases h with hreads | ⟨markets, rfl⟩
  · exact ⟨hreads.conducted, fun hneeds => absurd hneeds.sends hreads.not_sends,
      fun hneeds => absurd hneeds.sends hreads.not_sends⟩
  · exact ⟨trivial, False.elim, fun hneeds => absurd rfl hneeds⟩

theorem obeys_of_lists (h : ∀ e ∈ t, e.call.Lists) : Obeys (handler.MayCall ctx) t :=
  obeys_of_forall_mem fun e he _ => (h e he).mayCall

/-- A program that lists, and then may rely on the list. -/
theorem spec_lists_bind {α : Type} {x : Async Service α} {f : α → Async Service Unit}
    (h : x.Makes ServiceCall.Lists) (hf : ∀ t a, x.run.Runs t (.ok a) →
      (f a).Spec fun t' _ => Obeys (fun s => handler.MayCall ctx (t ++ s)) t') :
    (x >>= f).Spec fun t _ => Obeys (handler.MayCall ctx) t :=
  Fallible.spec_obeys_bind (Fallible.Spec.mono h fun _ _ ht => obeys_of_lists ht) hf

/-- A handler that lists the markets and conducts itself on the list. -/
theorem spec_listMarkets_bind {f : List MarketView → Async Service Unit}
    (hf : ∀ markets, Conducts handler (UnpausedOn markets) (f markets)) :
    (ctx.chain.listMarkets ctx.y >>= f).Spec fun t _ => Obeys (handler.MayCall ctx) t := by
  refine spec_lists_bind (lists_listMarkets ctx.chain ctx.y) fun t markets hlist => ?_
  refine (hf markets).mono fun t' _ h t₁ e t₂ ht => ?_
  have hmem : e ∈ t' := ht ▸ List.mem_append_right _ List.mem_cons_self
  refine ⟨(h.1 e hmem).mono fun address hm => ?_, fun hneeds => ?_, fun hneeds => ?_⟩
  · exact ⟨t, markets, (List.prefix_append t t₁).isInfix, hlist, hm⟩
  · exact (h.2.1 t₁ e t₂ ht hneeds).imp fun _ he => ⟨List.mem_append_right _ he.1, he.2⟩
  · exact (h.2.2 t₁ e t₂ ht hneeds).imp fun _ he => ⟨List.mem_append_right _ he.1, he.2⟩

/-- A program that only reads comes first. -/
theorem spec_onlyReads_bind {α : Type} {x : Async Service α} {f : α → Async Service Unit}
    (h : OnlyReads x) (hf : ∀ a, (f a).Spec fun t _ => Obeys (handler.MayCall ctx) t) :
    (x >>= f).Spec fun t _ => Obeys (handler.MayCall ctx) t :=
  spec_lists_bind (h.mono fun _ hc => .inl hc) fun _ a _ =>
    (hf a).mono fun _ _ ht => ht.mono fun _ _ => .append_left

/-- **What a tick may call.** -/
theorem HandlerKind.tick_obeys : (handler.tick ctx).Spec fun t _ =>
    Obeys (handler.MayCall ctx) t := by
  cases handler with
  | promoter =>
    exact spec_listMarkets_bind fun markets =>
      PromoterHandler.conducts_promoteMarkets ctx markets
  | liquidator =>
    exact spec_listMarkets_bind fun markets =>
      LiquidatorHandler.conducts_scanMarkets ctx markets
  | matchCranker =>
    exact spec_listMarkets_bind fun markets =>
      MatchCrankerHandler.conducts_scanMarkets ctx markets
  | curatorFeeClaimer =>
    change (CuratorFeeClaimerHandler.tick ctx).Spec _
    unfold CuratorFeeClaimerHandler.tick
    split
    · exact Fallible.spec_pure (obeys_of_lists (List.forall_mem_nil _))
    refine spec_onlyReads_bind (onlyReads_listSubVaults _ _) fun subVaults => ?_
    refine spec_onlyReads_bind onlyReads_banksSnapshot fun banks => ?_
    -- a fee claim is for no market
    have hclaim : Conducts .curatorFeeClaimer (fun _ => False) _ :=
      CuratorFeeClaimerHandler.conducts_claimAll ctx _ banks subVaults
    refine hclaim.mono fun t _ ht t₁ e t₂ hsplit =>
      ⟨?_, ht.2.1 t₁ e t₂ hsplit, ht.2.2 t₁ e t₂ hsplit⟩
    exact (ht.1 e (hsplit ▸ List.mem_append_right _ List.mem_cons_self)).mono fun _ => False.elim
  | claimer =>
    refine spec_onlyReads_bind (onlyReads_listSubVaults _ _) fun subVaults => ?_
    split
    · exact Fallible.spec_pure (obeys_of_lists (List.forall_mem_nil _))
    refine spec_listMarkets_bind fun markets => ?_
    split
    · exact conducts_pure ()
    refine (conducts_of_onlyReads (onlyReads_listPendingVaultClaims _ _)).bind fun t claims h => ?_
    refine ClaimerHandler.conducts_sweepAll ctx fun entry hentry => ?_
    obtain ⟨m, hm, hpaused, haddress, -⟩ := listPendingVaultClaims_claimsOf ctx.y markets t _ h
      claims rfl entry (List.mem_of_mem_filter hentry)
    exact ⟨m, hm, haddress.symm, hpaused⟩

end MayCall

/-! ### The process -/

section Process

variable (ctx : HandlerContext)

/-- If the call sends anything, it is a transaction of its own with an update that a gateway has
answered in `t`. -/
def ServiceCall.MayUpdate (t : Service.Trace) (c : ServiceCall) : Prop :=
  c.Sends → (∃ tx, c = .client (.sendAndConfirmTransaction tx)) ∧ ∃ e ∈ t, Updates e c

/-- What an iteration of a loop may call after the calls and replies `t`. -/
def Task.MayCall (t : Service.Trace) : Task → ServiceCall → Prop
  | .supervise handler, c => handler.MayCall ctx t c
  | .swbCrank, c => c.MayUpdate t
  | _, c => ¬ c.Sends

variable {ctx} {cfg : Config} {sdk : Sdk} {y : Ydelta} {signers : Signers}

theorem HandlerKind.onlyReads_shouldSkipLowBalance (handler : HandlerKind) :
    OnlyReads handler.shouldSkipLowBalance := by
  unfold HandlerKind.shouldSkipLowBalance
  split
  · exact Fallible.makes_ask trivial
  · exact Fallible.makes_pure _

theorem HandlerKind.supervise_obeys (handler : HandlerKind) :
    (handler.supervise ctx).Spec fun t _ => Obeys (handler.MayCall ctx) t := by
  refine spec_onlyReads_bind handler.onlyReads_shouldSkipLowBalance fun low => ?_
  split
  · exact Fallible.spec_pure (obeys_of_lists (List.forall_mem_nil _))
  have htick : (Service.caught (handler.tick ctx)).Spec fun t _ => Obeys (handler.MayCall ctx) t :=
    Fallible.spec_attempt handler.tick_obeys (fun _ _ h => h) (fun _ _ _ h _ => h) fun _ _ h _ => h
  refine Fallible.spec_bind htick (fun _ _ h => h) fun t _ ht => Fallible.spec_pure ?_
  rwa [List.append_nil]

theorem not_sends_discoverFromMarkets (marginfiProgram : Pubkey) (chain : ChainReader) :
    (BankRegistry.discoverFromMarkets sdk marginfiProgram y chain).Makes
      fun c : ServiceCall => ¬ c.Sends := by
  have hrefresh : (chain.refreshMarkets y).Makes fun c : ServiceCall => ¬ c.Sends :=
    (lists_refreshMarkets chain y).mono fun _ hc => hc.not_sends
  refine hrefresh.mapError.bind fun markets t r hr e he => ?_
  obtain ⟨pks, hcall⟩ := (BankRegistry.discovery_of_runs markets t r hr).calls e he
  rw [hcall]
  exact Bool.false_ne_true

theorem not_sends_refreshBanks :
    (cfg.refreshBanks sdk y).Makes fun c : ServiceCall => ¬ c.Sends := by
  refine (not_sends_discoverFromMarkets _ _).bind fun fresh => ?_
  split
  · exact Fallible.makes_pure _
  refine Fallible.Makes.bind (Fallible.makes_ask Bool.false_ne_true) fun merged => ?_
  cases merged
  · exact Fallible.makes_throw _
  · exact Fallible.makes_pure _

section Calls

variable {G : ServiceCall → Prop}

theorem makes_solBalanceLoop (hbalance : G (.client (.getBalance ctx.signers.feePayer)))
    (hread : G (.process .feePayerLow)) (hset : ∀ low, G (.process (.setFeePayerLow low))) :
    (solBalanceLoop ctx).Makes G := by
  refine Fallible.Makes.bind (Fallible.makes_ask hbalance) fun r => ?_
  cases r with
  | error e => exact Fallible.makes_pure _
  | ok lamports =>
    refine Fallible.Makes.bind (Fallible.makes_ask hread) fun wasLow => ?_
    simp only
    split
    · exact Fallible.makes_ask (hset _)
    · exact Fallible.makes_pure _

theorem makes_crank (cranker : SwbCranker) (oracles : List Pubkey)
    (hfetch : ∀ gateway, G (.process (.fetchUpdateConsensusIx gateway oracles cranker.payer)))
    (hhash : G (.client .getLatestBlockhash))
    (hsend : ∀ tx, G (.client (.sendAndConfirmTransaction tx))) :
    (cranker.crank sdk oracles).Makes G := by
  have htry : ∀ gateway, (cranker.tryCrank sdk oracles gateway).Makes G := by
    intro gateway
    refine (makes_fetchUpdateVia cranker gateway (hfetch gateway)).bind fun ⟨ixs, luts⟩ => ?_
    refine Fallible.Makes.bind (Fallible.makes_ask hhash) fun blockhash => ?_
    refine Fallible.Makes.bind (Fallible.makes_result _) fun msg => ?_
    refine Fallible.Makes.bind (Fallible.makes_result _) fun tx => ?_
    exact Fallible.makes_ask (hsend tx)
  have hfrom : ∀ gateways lastErr, (cranker.crankFrom sdk oracles gateways lastErr).Makes G := by
    intro gateways
    induction gateways with
    | nil => exact fun _ => Fallible.makes_throw _
    | cons gateway rest ih =>
      refine fun _ => (htry gateway).attempt.bind fun r => ?_
      cases r with
      | ok sig => exact Fallible.makes_pure _
      | error e => exact ih (some e)
  unfold SwbCranker.crank
  split
  · exact Fallible.makes_pure _
  · exact hfrom cranker.gateways none

theorem makes_swbCrankLoop (hread : G (.process .banksRead))
    (hfetch : ∀ gateway oracles payer,
      G (.process (.fetchUpdateConsensusIx gateway oracles payer)))
    (hhash : G (.client .getLatestBlockhash))
    (hsend : ∀ tx, G (.client (.sendAndConfirmTransaction tx))) :
    (swbCrankLoop ctx).Makes G := by
  unfold swbCrankLoop
  split
  · exact Fallible.makes_pure _
  rename_i cranker _
  refine (makes_banksSnapshot hread).bind fun banks => ?_
  simp only
  split
  · exact Fallible.makes_pure _
  · exact (makes_crank cranker _ (fun gateway => hfetch gateway _ _) hhash hsend).attempt.bind
      fun _ => Fallible.makes_pure _

variable (cfg sdk y signers) in
/-- What the boot does once it has discovered the banks. -/
def bootRest (swbQueue : Pubkey) : Async Service HandlerContext := do
  let banks ← Config.banksSnapshot
  let () ← withContext "ensure_atas_for failed" (banks.ensureAtasFor sdk signers.feePayer)
  let () ← ensureCuratorAtas sdk signers.curators
  let _slot ← Service.client .getSlot orClientError
  let swbCranker ← bootSwbCranker signers swbQueue
  return { cfg := cfg, sdk := sdk, y := y, signers := signers, swbCranker := swbCranker }

theorem boot_eq (swbQueue : Pubkey) : boot cfg sdk y signers swbQueue = (do
    let () ← withContext "discover_banks_from_markets failed" (cfg.discoverBanksFromMarkets sdk y)
    bootRest cfg sdk y signers swbQueue) := rfl

theorem makes_bootRest {swbQueue : Pubkey} (hread : G (.process .banksRead))
    (hget : ∀ pks, G (.client (.getMultipleAccounts pks))) (hslot : G (.client .getSlot))
    (hfetch : ∀ queue, G (.process (.fetchGateways queue)))
    (hsend : ∀ owner ∈ signers.feePayer :: signers.curators, ∀ ixs,
      G (.rpc (.sendSignedLabeled "create_atas" ixs [owner]))) :
    (bootRest cfg sdk y signers swbQueue).Makes G := by
  refine (makes_banksSnapshot hread).bind fun banks => ?_
  have hatas := makes_ensureAtasFor sdk hget (hsend _ List.mem_cons_self) banks
  refine hatas.mapError.bind fun _ => ?_
  refine (makes_ensureCuratorAtas sdk hread hget fun c hc =>
    hsend c (List.mem_cons_of_mem _ hc)).bind fun _ => ?_
  refine Fallible.Makes.bind (Fallible.makes_ask hslot) fun slot => ?_
  exact (makes_bootSwbCranker signers hread hfetch swbQueue).bind fun _ => Fallible.makes_pure _

end Calls

/-- The transaction of an update carries what a gateway has answered. -/
theorem updated_tryCrank (cranker : SwbCranker) (oracles : List Pubkey) (gateway : Gateway) :
    (cranker.tryCrank sdk oracles gateway).Spec fun t _ =>
      Permitted ServiceCall.Sends Updates t := by
  refine permitted_fetch_bind (fun _ hc => hc) (makes_fetchUpdateVia cranker gateway trivial)
    (replied_fetchUpdateVia cranker oracles gateway) fun t ⟨ixs, luts⟩ hreplied => ?_
  refine Fallible.Makes.bind (Fallible.makes_ask nofun) fun blockhash => ?_
  refine makes_liftError_bind fun msg hmsg => makes_liftError_bind fun tx htx => ?_
  obtain ⟨hixs, hluts, -⟩ := Rpc.carriesOut_of_tryNew hmsg htx
  refine Fallible.makes_ask fun _ => RepliedIn.updates ?_
  rwa [ServiceCall.update, hixs, hluts]

theorem updated_crankFrom (cranker : SwbCranker) (oracles : List Pubkey) (gateways : List Gateway)
    (lastErr : Option Error) : (cranker.crankFrom sdk oracles gateways lastErr).Spec fun t _ =>
      Permitted ServiceCall.Sends Updates t := by
  induction gateways generalizing lastErr with
  | nil => exact Fallible.spec_throw .nil
  | cons gateway rest ih =>
    have htry : (Service.caught (cranker.tryCrank sdk oracles gateway)).Spec fun t _ =>
        Permitted ServiceCall.Sends Updates t :=
      Fallible.spec_attempt (updated_tryCrank cranker oracles gateway) (fun _ _ h => h)
        (fun _ _ _ h _ => h) fun _ _ h _ => h
    refine Fallible.spec_permitted_bind htry fun r => ?_
    cases r with
    | ok sig => exact Fallible.spec_pure .nil
    | error e => exact ih (some e)

theorem updated_swbCrankLoop : (swbCrankLoop ctx).Spec fun t _ =>
    Permitted ServiceCall.Sends Updates t := by
  unfold swbCrankLoop
  split
  · exact Fallible.spec_pure .nil
  rename_i cranker _
  refine Fallible.spec_permitted_bind (Fallible.spec_permitted_of_makes
    (onlyReads_banksSnapshot.mono fun _ hc => hc.not_sends)) fun banks => ?_
  simp only
  split
  · exact Fallible.spec_pure .nil
  have hcrank : ∀ oracles, (cranker.crank ctx.sdk oracles).Spec fun t _ =>
      Permitted ServiceCall.Sends Updates t := by
    intro oracles
    unfold SwbCranker.crank
    split
    · exact Fallible.spec_pure .nil
    · exact updated_crankFrom cranker oracles cranker.gateways none
  have hcaught : ∀ oracles, (Service.caught (cranker.crank ctx.sdk oracles)).Spec fun t _ =>
      Permitted ServiceCall.Sends Updates t := fun oracles =>
    Fallible.spec_attempt (hcrank oracles) (fun _ _ h => h) (fun _ _ _ h _ => h) fun _ _ h _ => h
  exact Fallible.spec_permitted_bind (hcaught _) fun _ => Fallible.spec_pure .nil

/-- The warm-keeper sends the answers of the gateways. -/
theorem mayUpdate_swbCrankLoop : (swbCrankLoop ctx).Spec fun t _ =>
    Obeys (fun s c => ServiceCall.MayUpdate s c) t := by
  have hsends : (swbCrankLoop ctx).Makes fun c : ServiceCall =>
      c.Sends → ∃ tx, c = .client (.sendAndConfirmTransaction tx) :=
    makes_swbCrankLoop nofun (fun _ _ _ => nofun) nofun fun tx _ => ⟨tx, rfl⟩
  refine (Fallible.Spec.and hsends updated_swbCrankLoop).mono fun t _ ht t₁ e t₂ hsplit hc => ?_
  exact ⟨ht.1 e (hsplit ▸ List.mem_append_right _ List.mem_cons_self) hc, ht.2 t₁ e t₂ hsplit hc⟩

/-- A program with rules that do not look back. -/
theorem spec_obeys_of_makes {may : ServiceCall → Prop} {x : Async Service Unit} (h : x.Makes may) :
    x.Spec fun t _ => Obeys (I := Service) (fun _ c => may c) t :=
  Fallible.Spec.mono h fun _ _ ht => obeys_of_forall_mem fun e he _ => ht e he

/-- **What an iteration of a loop may call.** -/
theorem Task.obeys (task : Task) : (task.run ctx).Spec fun t _ =>
    Obeys (fun s c => task.MayCall ctx s c) t := by
  cases task with
  | supervise handler => exact handler.supervise_obeys
  | solBalance =>
    exact spec_obeys_of_makes (makes_solBalanceLoop Bool.false_ne_true Bool.false_ne_true
      fun _ => Bool.false_ne_true)
  | bankRefresh =>
    exact spec_obeys_of_makes (not_sends_refreshBanks.attempt.bind fun _ => Fallible.makes_pure _)
  | swbCrank => exact mayUpdate_swbCrankLoop
  | listMarkets =>
    have hlist : (ctx.chain.listMarkets ctx.y).Makes fun c : ServiceCall => ¬ c.Sends :=
      (lists_listMarkets ctx.chain ctx.y).mono fun _ hc => hc.not_sends
    exact spec_obeys_of_makes (hlist.attempt.bind fun _ => Fallible.makes_pure _)

/-- Every call of a loop belongs to an iteration, and may be made after what the iteration has
done so far. -/
def ProcessRun.Lawful (run : ProcessRun cfg sdk y signers) : Prop :=
  ∀ i, ∀ x ∈ Env.stepsOf i run.events, ∃ task u₁ u₂, run.Iteration i task (u₁ ++ x :: u₂) ∧
    task.MayCall run.ctx (u₁.map Prod.snd) x.2.call

/-- **Every loop is lawful**, in every run of the process. -/
theorem ProcessRun.lawful (run : ProcessRun cfg sdk y signers) : run.Lawful := by
  intro i x hx
  obtain ⟨task, u, hiter, hu⟩ := run.exists_iteration hx
  obtain ⟨u₁, u₂, rfl⟩ := List.append_of_mem hu
  refine ⟨task, u₁, u₂, hiter, ?_⟩
  obtain ⟨-, -, -, -, -, -, -, p, hp⟩ := hiter
  -- the iteration could go on to its end
  obtain ⟨t', r, hruns⟩ := hp.exists_runs service_reply_nonempty
  refine (task.obeys _ _ hruns).of_append _ _ (u₂.map Prod.snd) ?_
  rw [List.map_append, List.map_cons]

end Process

end YdeltaCrankers
