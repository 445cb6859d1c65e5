import YdeltaCrankers.Handlers.Reads
import YdeltaCrankers.Interaction.Permits
import YdeltaCrankers.Service.Implement

/-!
# What is simulated and what is sent

Five functions send a transaction after simulating it.  The promoter and the claimer simulate with
`Rpc.simulate`, which prepends the compute-budget preamble of the send; the match cranker and the
liquidator simulate with `Rpc.simulateV0`, which stays bare, while their send prepends a preamble.

**Main theorem** (`GatedSubmission.simulated_before_sent`): every broadcast comes after a successful
simulation, in the same attempt, of the same bundle with the same tables and payer.  The two
transactions carry the same preamble only in the promoter and the claimer
(`GatedSubmission.not_simulatesWhatItSends`).
-/

namespace YdeltaCrankers

open Interaction

/-- An attempt to send a transaction that a simulation gates. -/
inductive GatedSubmission where
  | promote (market : MarketView) (entry : PendingMatchedLoan)
  | sweep (entry : PendingVaultClaim)
  | crank (market : MarketView)
  | settle (market : MarketView) (loan : LoanView)
  | liquidate (market : MarketView) (loan : LoanView)

namespace GatedSubmission

/-- The function that makes the attempt. -/
def attempt (ctx : HandlerContext) : GatedSubmission → Async Service Bool
  | promote market entry => PromoterHandler.promoteOne ctx market entry
  | sweep entry => ClaimerHandler.sweepOne ctx entry
  | crank market => MatchCrankerHandler.crankOne ctx market
  | settle market loan => LiquidatorHandler.trySettleMatured ctx market loan
  | liquidate market loan => LiquidatorHandler.tryLiquidateLtv ctx market loan

/-- The kind of message it sends. -/
def version : GatedSubmission → MessageVersion
  | promote _ _ | sweep _ => .legacy
  | crank _ | settle _ _ | liquidate _ _ => .v0

end GatedSubmission

/-- What a simulation puts before the bundle. -/
def MessageVersion.simPreamble (rpc : Rpc) : MessageVersion → List Instruction
  | .legacy => rpc.priorityFeePreamble rpc.computeUnitLimit
  | .v0 => []

/-- What a send puts before the bundle. -/
def MessageVersion.sendPreamble (rpc : Rpc) : MessageVersion → List Instruction
  | .legacy => rpc.priorityFeePreamble rpc.computeUnitLimit
  | .v0 => rpc.priorityFeePreamble v0ComputeUnitLimit

/-- Every broadcast comes after a successful simulation of a transaction that `R` relates to it. -/
def SimulatedBefore (R : Transaction → Transaction → Prop) (t : Service.Trace) : Prop :=
  ∀ t₁ tx reply t₂, t = t₁ ++ ⟨.client (.sendAndConfirmTransaction tx), reply⟩ :: t₂ →
    ∃ simTx result, (⟨.client (.simulateTransaction simTx), .ok result⟩ : Service.Event) ∈ t₁ ∧
      result.err = none ∧ R simTx tx

/-- The two transactions carry one bundle behind these preambles, with one payer and the same
tables. -/
def SameBundle (simPreamble sendPreamble : List Instruction) (simTx tx : Transaction) : Prop :=
  simTx.message.payer = tx.message.payer ∧ simTx.message.luts = tx.message.luts ∧
    ∃ bundle, simTx.message.ixs = simPreamble ++ bundle ∧ tx.message.ixs = sendPreamble ++ bundle

/-! ### The calls of the attempts -/

/-- A successful simulation of what the call sends. -/
inductive SimulatedFor : MessageVersion → Service.Event → ServiceCall → Prop
  | legacy {ixs : List Instruction} {payer : Pubkey} {sim : SimulationResult} {ixLabel : String}
      {signers : List Pubkey} (h : sim.ok = true) :
      SimulatedFor .legacy ⟨.rpc (.simulate ixs payer), .ok sim⟩
        (.rpc (.sendSignedLabeled ixLabel ixs (payer :: signers)))
  | v0 {ixs : List Instruction} {luts : List AddressLookupTableAccount} {payer : Pubkey}
      {sim : SimulationResult} {ixLabel : String} {signers : List Pubkey} (h : sim.ok = true) :
      SimulatedFor .v0 ⟨.rpc (.simulateV0 ixs luts payer), .ok sim⟩
        (.rpc (.sendSignedV0Labeled ixLabel ixs luts (payer :: signers)))

section Attempts

variable {ctx : HandlerContext} {version : MessageVersion} {t : Service.Trace} {α β : Type}

/-- After `t`, every send of `x` comes after a simulation of it. -/
abbrev Gated (version : MessageVersion) (t : Service.Trace) (x : Async Service α) : Prop :=
  x.Respects ServiceCall.Sends (SimulatedFor version) t

/-- Reading needs no simulation. -/
theorem gated_bind {x : Async Service α} {f : α → Async Service β}
    (h : Permitted ServiceCall.Sends (SimulatedFor version) t) (hx : OnlyReads x)
    (hf : ∀ t' a, Permitted ServiceCall.Sends (SimulatedFor version) (t ++ t') →
      Gated version (t ++ t') (f a)) : Gated version t (x >>= f) := by
  have hmakes : x.Makes fun (c : ServiceCall) => c.Sends → ∃ e ∈ t, SimulatedFor version e c :=
    Fallible.Makes.mono hx fun c hc hs => absurd hs (ServiceCall.Reads.not_sends hc)
  refine Fallible.respects_bind h hmakes fun t' a hr => hf t' a (h.append ?_)
  exact hmakes t' _ hr

/-- A simulation, and what is done when it succeeds or fails. -/
theorem gated_simulate {c : RpcCall} {f : c.Result → Async Service β}
    (h : Permitted ServiceCall.Sends (SimulatedFor version) t) (hc : (ServiceCall.rpc c).Reads)
    (hf : ∀ sim, Permitted ServiceCall.Sends (SimulatedFor version) (t ++ [⟨.rpc c, .ok sim⟩]) →
      Gated version (t ++ [⟨.rpc c, .ok sim⟩]) (f sim)) :
    Gated version t (Service.rpc c >>= f) := by
  have happend : ∀ r, Permitted ServiceCall.Sends (SimulatedFor version) (t ++ [⟨.rpc c, r⟩]) := by
    refine fun r => h.append fun e he hs => absurd hs ?_
    cases List.mem_singleton.1 he
    exact hc.not_sends
  refine Fallible.spec_ask_bind (fun r e _ => happend r) ?_
  rintro _ sim rfl
  refine (hf sim (happend _)).mono fun t' r ht' => ?_
  rwa [List.append_assoc] at ht'

/-- The end of an attempt: the send of what was simulated. -/
theorem gated_send {c : RpcCall}
    (h : Permitted ServiceCall.Sends (SimulatedFor version) t)
    (hsim : ∃ e ∈ t, SimulatedFor version e (.rpc c)) :
    Gated version t (do let _sig ← Service.rpc c; return true) := by
  refine Fallible.respects_bind h (Fallible.makes_ask fun _ => hsim) fun t' sig hr => ?_
  refine Fallible.respects_pure (h.append fun e he _ => ?_)
  obtain ⟨r, _, rfl, rfl, -⟩ := hr
  cases List.mem_singleton.1 he
  exact hsim

/-- The end of the promoter and of the claimer. -/
theorem gated_simulateAndSend {ixs : List Instruction} {payer : Pubkey} {ixLabel : String}
    (h : Permitted ServiceCall.Sends (SimulatedFor .legacy) t) :
    Gated .legacy t (do
      let sim ← Service.rpc (.simulate ixs payer)
      if !sim.ok then return false
      else do
        let _sig ← Service.rpc (.sendSignedLabeled ixLabel ixs [payer])
        return true) := by
  refine gated_simulate h trivial fun sim h => ?_
  split
  · exact Fallible.respects_pure h
  rename_i hok
  refine gated_send h ⟨_, List.mem_append_right _ List.mem_cons_self, .legacy ?_⟩
  simpa using hok

theorem gated_promoteOne (market : MarketView) (entry : PendingMatchedLoan) :
    Gated .legacy [] (PromoterHandler.promoteOne ctx market entry) := by
  refine gated_bind .nil onlyReads_banksSnapshot fun _ banks h => ?_
  refine gated_bind h (onlyReads_liftError _) fun _ debtBank h => ?_
  refine gated_bind h (PromoterHandler.onlyReads_assembleVaultSettle ctx _ _ _ _)
    fun _ addrs h => ?_
  exact gated_simulateAndSend h

theorem gated_sweepOne (entry : PendingVaultClaim) :
    Gated .legacy [] (ClaimerHandler.sweepOne ctx entry) := by
  refine gated_bind .nil onlyReads_banksSnapshot fun _ banks h => ?_
  refine gated_bind h (onlyReads_liftError _) fun _ debtBank h => ?_
  exact gated_simulateAndSend h

theorem gated_crankOne (market : MarketView) :
    Gated .v0 [] (MatchCrankerHandler.crankOne ctx market) := by
  refine gated_bind .nil onlyReads_banksSnapshot fun _ banks h => ?_
  refine gated_bind h (onlyReads_liftError _) fun _ pair h => ?_
  refine gated_bind h (MatchCrankerHandler.onlyReads_fetchSwbBundle ctx _ _) fun _ swb h => ?_
  refine gated_simulate h trivial fun sim h => ?_
  split
  · exact Fallible.respects_pure h
  rename_i hok
  split
  · exact Fallible.respects_pure h
  refine gated_send h ⟨_, List.mem_append_right _ List.mem_cons_self, .v0 ?_⟩
  simpa using hok

theorem gated_tryClose (market : MarketView) (loan : LoanView)
    (closing : LiquidatorHandler.Closing) :
    Gated .v0 [] (LiquidatorHandler.tryClose ctx market loan closing) := by
  refine gated_bind .nil onlyReads_banksSnapshot fun _ banks h => ?_
  refine gated_bind h (onlyReads_liftError _) fun _ pair h => ?_
  refine gated_bind h (LiquidatorHandler.onlyReads_fetchSwbBundle ctx _) fun _ swb h => ?_
  refine gated_simulate h trivial fun sim h => ?_
  split
  · exact Fallible.respects_pure h
  split
  · exact Fallible.respects_pure h
  refine gated_bind h (LiquidatorHandler.onlyReads_pickRepayAmount ctx _ _) fun _ amount h => ?_
  cases amount with
  | none => exact Fallible.respects_pure h
  | some repayAtomsMax =>
    refine gated_simulate h trivial fun confirm h => ?_
    split
    · exact Fallible.respects_pure h
    rename_i hok
    refine gated_send h ⟨_, List.mem_append_right _ List.mem_cons_self, .v0 ?_⟩
    simpa using hok

theorem GatedSubmission.gated (ctx : HandlerContext) (s : GatedSubmission) :
    Gated s.version [] (s.attempt ctx) :=
  match s with
  | .promote market entry => gated_promoteOne market entry
  | .sweep entry => gated_sweepOne entry
  | .crank market => gated_crankOne market
  | .settle market loan => gated_tryClose market loan _
  | .liquidate market loan => gated_tryClose market loan _

end Attempts

/-! ### The transactions -/

section Transactions

variable {rpc : Rpc} {sdk : Sdk}

/-- A successful simulation of a transaction with the bundle of the one the call broadcasts. -/
def TxSimulatedFor (simPreamble sendPreamble : List Instruction) (e : Service.Event)
    (c : ServiceCall) : Prop :=
  ∃ simTx result, e = ⟨.client (.simulateTransaction simTx), .ok result⟩ ∧ result.err = none ∧
    ∀ tx, c = .client (.sendAndConfirmTransaction tx) →
      SameBundle simPreamble sendPreamble simTx tx

/-- The client events of a method broadcast only what the method does. -/
theorem broadcasts_of_runs {c : RpcCall} {P : Transaction → Prop} {t : Service.Trace}
    {r : Except Failure c.Result} (hc : (c.prog rpc sdk).Makes (Rpc.BroadcastsOnly P))
    (h : (Service.implement rpc sdk (.rpc c)).Runs t r) {e : Service.Event} (he : e ∈ t)
    (hs : e.call.Sends) : ∃ tx, e.call = .client (.sendAndConfirmTransaction tx) ∧ P tx := by
  obtain ⟨u, hu, rfl⟩ := Service.runs_implement_rpc h
  obtain ⟨⟨call, reply⟩, hmem, rfl⟩ := List.mem_map.1 he
  have hP := hc u r hu _ hmem
  cases call with
  | sendAndConfirmTransaction tx => exact ⟨tx, rfl, hP⟩
  | _ => cases hs

/-- Only the sends broadcast. -/
theorem implement_idle {c : ServiceCall} (hc : ¬ c.Sends) {t : Service.Trace} {r : c.Reply}
    (h : (Service.implement rpc sdk c).Runs t r) {e : Service.Event} (he : e ∈ t) :
    ¬ e.call.Sends := by
  intro hs
  cases c with
  | rpc c =>
    have hidle : (c.prog rpc sdk).Makes (Rpc.BroadcastsOnly fun _ => False) := by
      cases c with
      | getAccountData pk => exact Rpc.getAccountData_makes pk
      | simulate ixs payer => exact Rpc.simulateV0_makes
      | simulateV0 ixs luts payer => exact Rpc.simulateV0_makes
      | sendSignedLabeled ixLabel ixs signers => exact absurd rfl hc
      | sendSignedV0Labeled ixLabel ixs luts signers => exact absurd rfl hc
    obtain ⟨tx, -, hfalse⟩ := broadcasts_of_runs hidle h he hs
    exact hfalse
  | client c =>
    obtain ⟨r', t', rfl, rfl, -⟩ := h
    cases List.mem_singleton.1 he
    exact hc hs
  | process c =>
    obtain ⟨r', t', rfl, rfl, -⟩ := h
    cases List.mem_singleton.1 he
    exact hc hs

/-- A successful simulation of a bundle, and a send of it. -/
theorem txSimulatedFor_of_runs {simPreamble sendPreamble bundle : List Instruction}
    {luts : List AddressLookupTableAccount} {payer : Pubkey} {u : Client.Trace}
    {sim : SimulationResult} {c : RpcCall} {t : Service.Trace} {r : Except Failure c.Result}
    (hu : (Rpc.simulateV0 sdk (simPreamble ++ bundle) luts payer).run.Runs u (.ok sim))
    (hok : sim.ok = true)
    (hc : (c.prog rpc sdk).Makes
      (Rpc.BroadcastsOnly (Rpc.CarriesOut (sendPreamble ++ bundle) luts payer)))
    (ht : (Service.implement rpc sdk (.rpc c)).Runs t r) {e : Service.Event} (he : e ∈ t)
    (hs : e.call.Sends) :
    ∃ e' ∈ u.map Service.clientEvent, TxSimulatedFor simPreamble sendPreamble e' e.call := by
  obtain ⟨simTx, result, hmem, herr, hixs, hluts, hpayer⟩ := Rpc.simulateV0_ok hu hok
  obtain ⟨tx, hcall, hixs', hluts', hpayer'⟩ := broadcasts_of_runs hc ht he hs
  refine ⟨_, List.mem_map_of_mem hmem, simTx, result, rfl, herr, ?_⟩
  rw [hcall]
  rintro _ ⟨⟩
  exact ⟨hpayer.trans hpayer'.symm, hluts.trans hluts'.symm, bundle, hixs, hixs'⟩

/-- A simulation and the send it is for, played out. -/
theorem SimulatedFor.tx {version : MessageVersion} {e : Service.Event} {c : ServiceCall}
    (h : SimulatedFor version e c) {s s' : Service.Trace} {r : c.Reply}
    (hs : (Service.implement rpc sdk e.call).Runs s e.reply)
    (hs' : (Service.implement rpc sdk c).Runs s' r) {x : Service.Event} (hx : x ∈ s')
    (hsends : x.call.Sends) :
    ∃ x' ∈ s, TxSimulatedFor (version.simPreamble rpc) (version.sendPreamble rpc) x' x.call := by
  cases h with
  | @legacy ixs payer sim ixLabel signers hok =>
    obtain ⟨u, hu, rfl⟩ := Service.runs_implement_rpc hs
    exact txSimulatedFor_of_runs hu hok
      (Rpc.sendSignedLabeled_makes rpc sdk ixLabel ixs payer signers) hs' hx hsends
  | @v0 ixs luts payer sim ixLabel signers hok =>
    obtain ⟨u, hu, rfl⟩ := Service.runs_implement_rpc hs
    have hsim : (Rpc.simulateV0 sdk ([] ++ ixs) luts payer).run.Runs u (.ok sim) := hu
    exact txSimulatedFor_of_runs hsim hok
      (Rpc.sendSignedV0Labeled_makes rpc sdk ixLabel ixs luts payer signers) hs' hx hsends

end Transactions

namespace GatedSubmission

variable {ctx : HandlerContext} {rpc : Rpc} {sdk : Sdk}

/-- **What is simulated is what is sent, up to the preamble.** -/
theorem simulated_before_sent (s : GatedSubmission) {t : Service.Trace} {r : Except Failure Bool}
    (h : ((s.attempt ctx).run.interp (Service.implement rpc sdk)).Runs t r) :
    SimulatedBefore
      (SameBundle (s.version.simPreamble rpc) (s.version.sendPreamble rpc)) t := by
  obtain ⟨u, hu, himp⟩ := Prog.runs_interp.1 h
  have hpermitted : Permitted ServiceCall.Sends (SimulatedFor s.version) u :=
    s.gated ctx u r hu
  have hclient := himp.permitted hpermitted
    (fun c hc t r hr e he => implement_idle hc hr he)
    fun e c hpermit t ht t' r ht' x hx hsends => hpermit.tx ht ht' hx hsends
  intro t₁ tx reply t₂ ht
  obtain ⟨e, hmem, simTx, result, rfl, herr, hsame⟩ := hclient t₁ _ t₂ ht rfl
  exact ⟨simTx, result, hmem, herr, hsame tx rfl⟩

/-! ### A send behind a longer preamble -/

/-- Every broadcast of the attempt comes after a successful simulation of the same instructions. -/
def SimulatesWhatItSends (ctx : HandlerContext) (rpc : Rpc) (sdk : Sdk) (s : GatedSubmission) :
    Prop :=
  ∀ t r, ((s.attempt ctx).run.interp (Service.implement rpc sdk)).Runs t r →
    SimulatedBefore (fun simTx tx => simTx.message.ixs = tx.message.ixs) t

/-- An attempt of the match cranker that sends. -/
def sampleAttempt : Service.Trace × Except Failure Bool :=
  (((crank sampleMarket).attempt sampleHandlerContext).run.interp
    (Service.implement sampleRpc .plain)).answered (sampleReply [] sampleBanks)

/-- The instructions the event broadcasts. -/
def broadcastIxs : Service.Event → Option (List Instruction)
  | ⟨.client (.sendAndConfirmTransaction tx), _⟩ => some tx.message.ixs
  | _ => none

/-- The instructions the event simulates. -/
def simulatedIxs : Service.Event → Option (List Instruction)
  | ⟨.client (.simulateTransaction tx), _⟩ => some tx.message.ixs
  | _ => none

theorem sampleAttempt_runs : (((crank sampleMarket).attempt sampleHandlerContext).run.interp
    (Service.implement sampleRpc .plain)).Runs sampleAttempt.1 sampleAttempt.2 := by
  unfold sampleAttempt
  exact Prog.runs_answered _ _

theorem exists_broadcast {t : Service.Trace} {ixs : List Instruction}
    (h : ixs ∈ t.filterMap broadcastIxs) : ∃ t₁ tx reply t₂,
      t = t₁ ++ ⟨.client (.sendAndConfirmTransaction tx), reply⟩ :: t₂ ∧ tx.message.ixs = ixs := by
  obtain ⟨e, he, hixs⟩ := List.mem_filterMap.1 h
  obtain ⟨t₁, t₂, rfl⟩ := List.append_of_mem he
  unfold broadcastIxs at hixs
  split at hixs
  · cases hixs
    exact ⟨t₁, _, _, t₂, rfl, rfl⟩
  · cases hixs

/-- The match cranker broadcasts its bundle behind a preamble that no simulation had. -/
theorem not_simulatesWhatItSends :
    ¬ (crank sampleMarket).SimulatesWhatItSends sampleHandlerContext sampleRpc .plain := by
  intro h
  have hrun := h sampleAttempt.1 sampleAttempt.2 sampleAttempt_runs
  have hixs : ∃ ixs ∈ sampleAttempt.1.filterMap broadcastIxs,
      ixs ∉ sampleAttempt.1.filterMap simulatedIxs := by decide
  obtain ⟨ixs, hmem, hnot⟩ := hixs
  obtain ⟨t₁, tx, reply, t₂, ht, rfl⟩ := exists_broadcast hmem
  obtain ⟨simTx, result, hsim, -, hsame⟩ := hrun t₁ tx reply t₂ ht
  refine hnot (List.mem_filterMap.2 ⟨⟨.client (.simulateTransaction simTx), .ok result⟩, ?_, ?_⟩)
  · rw [ht]
    exact List.mem_append_left _ hsim
  · rw [← hsame]
    rfl

/-- An attempt that sends. -/
theorem simulated_before_sent_sample : sampleAttempt.1.filterMap broadcastIxs ≠ [] ∧
    SimulatedBefore (SameBundle [] (sampleRpc.priorityFeePreamble v0ComputeUnitLimit))
      sampleAttempt.1 := by
  refine ⟨by decide, ?_⟩
  exact simulated_before_sent (crank sampleMarket) sampleAttempt_runs

end GatedSubmission

end YdeltaCrankers
