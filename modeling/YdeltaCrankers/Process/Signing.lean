import YdeltaCrankers.Discovery.Entries
import YdeltaCrankers.Handlers.Reads
import YdeltaCrankers.Process.Basic

/-!
# Who signs what

Every loop signs with keys of its own: the curator fee claimer with those of the curators, the
other handlers and the Switchboard warm-keeper with that of the fee payer, the rest with none.
None but the balance loop sets the `fee_payer_low` flag.

* `ServiceCall.signers` : the keys that sign what a call sends.
* `Signs keys x` : all that `x` sends is signed by `keys`, and `x` leaves the flag alone.

There is one lemma for each function that makes calls; `Task.signs` and `boot_signs` put them
together.
-/

namespace YdeltaCrankers

open Interaction

/-- The keys that sign what the call sends. -/
def ServiceCall.signers : ServiceCall → List Pubkey
  | .rpc (.sendSignedLabeled _ _ signers) | .rpc (.sendSignedV0Labeled _ _ _ signers) => signers
  | .client (.sendAndConfirmTransaction tx) => [tx.message.payer]
  | _ => []

/-- What the call sends is signed by these keys, and it leaves the flag alone. -/
def ServiceCall.SignedBy (keys : List Pubkey) (c : ServiceCall) : Prop :=
  (∀ low, c ≠ .process (.setFeePayerLow low)) ∧ c.signers ⊆ keys

/-- All that `x` sends is signed by these keys, and it leaves the flag alone. -/
abbrev Signs {α : Type} (keys : List Pubkey) (x : Async Service α) : Prop :=
  Fallible.Makes (I := Service) (ServiceCall.SignedBy keys) x

section Rules

variable {α β : Type} {keys : List Pubkey}

theorem ServiceCall.Reads.signers_eq_nil {c : ServiceCall} (h : c.Reads) : c.signers = [] := by
  cases c with
  | rpc c => cases c <;> first | exact h.elim | rfl
  | client c => cases c <;> first | exact h.elim | rfl
  | process c => rfl

theorem ServiceCall.Reads.signedBy {c : ServiceCall} (h : c.Reads) : c.SignedBy keys := by
  refine ⟨?_, ?_⟩
  · rintro low rfl
    exact h
  · rw [h.signers_eq_nil]
    exact List.nil_subset keys

theorem signs_of_onlyReads {x : Async Service α} (h : OnlyReads x) : Signs keys x :=
  Fallible.Makes.mono h fun _ hc => hc.signedBy

/-- A call that sends nothing and is not the one that sets the flag. -/
theorem signs_process {c : ProcessCall} (h : ∀ low, c ≠ .setFeePayerLow low) :
    Signs keys (Service.process c) := by
  refine Fallible.makes_ask ⟨fun low hcall => ?_, List.nil_subset keys⟩
  cases hcall
  exact h low rfl

theorem signs_rpc {c : RpcCall} (h : (ServiceCall.rpc c).signers ⊆ keys) :
    Signs keys (Service.rpc c) :=
  Fallible.makes_ask ⟨fun _ => nofun, h⟩

theorem signs_client {c : ClientCall} {conv : c.Reply → Except Failure α}
    (h : (ServiceCall.client c).signers ⊆ keys) : Signs keys (Service.client c conv) :=
  Fallible.makes_ask ⟨fun _ => nofun, h⟩

end Rules

/-! ### Markets and the registry -/

section Markets

variable {keys : List Pubkey} (chain : ChainReader) (sdk : Sdk) (y : Ydelta)

theorem ServiceCall.Lists.signedBy {c : ServiceCall} (h : c.Lists) : c.SignedBy keys := by
  rcases h with hreads | ⟨markets, rfl⟩
  · exact hreads.signedBy
  · exact ⟨fun _ => nofun, List.nil_subset keys⟩

theorem signs_listMarkets : Signs keys (chain.listMarkets y) :=
  (lists_listMarkets chain y).mono fun _ hc => hc.signedBy

theorem signs_discoverFromMarkets (marginfiProgram : Pubkey) :
    Signs keys (BankRegistry.discoverFromMarkets sdk marginfiProgram y chain) := by
  have hrefresh : Signs keys (chain.refreshMarkets y) :=
    (lists_refreshMarkets chain y).mono fun _ hc => hc.signedBy
  refine hrefresh.mapError.bind fun markets t r hr e he => ?_
  -- discovery asks for accounts and nothing else
  obtain ⟨pks, hcall⟩ := (BankRegistry.discovery_of_runs markets t r hr).calls e he
  rw [hcall]
  exact ⟨fun _ => nofun, List.nil_subset keys⟩

theorem signs_refreshBanks (cfg : Config) : Signs keys (cfg.refreshBanks sdk y) := by
  refine (signs_discoverFromMarkets _ sdk y _).bind fun fresh => ?_
  split
  · exact Fallible.makes_pure _
  refine (signs_process (by simp)).bind fun merged => ?_
  cases merged
  · exact Fallible.makes_throw _
  · exact Fallible.makes_pure _

theorem signs_banksSnapshot : Signs keys Config.banksSnapshot :=
  signs_of_onlyReads onlyReads_banksSnapshot

end Markets

/-! ### The handlers -/

section Handlers

variable {keys : List Pubkey} (ctx : HandlerContext)

theorem signs_withInflight {key : InflightKey} {body : Async Service Bool}
    (h : Signs keys body) : Signs keys (withInflight key body) :=
  makes_withInflight ⟨fun _ => nofun, List.nil_subset keys⟩ ⟨fun _ => nofun, List.nil_subset keys⟩ h

/-- The end of the promoter and of the claimer. -/
theorem signs_simulateAndSend {ixs : List Instruction} {payer : Pubkey} {ixLabel : String}
    (hpayer : payer ∈ keys) : Signs keys (do
      let sim ← Service.rpc (.simulate ixs payer)
      if !sim.ok then return false
      else do
        let _sig ← Service.rpc (.sendSignedLabeled ixLabel ixs [payer])
        return true) :=
  makes_simulateAndSend ⟨fun _ => nofun, List.nil_subset keys⟩
    ⟨fun _ => nofun, List.cons_subset.2 ⟨hpayer, List.nil_subset _⟩⟩

section FeePayer

variable (hpayer : ctx.signers.feePayer ∈ keys)

include hpayer

theorem PromoterHandler.signs_promoteOne (market : MarketView) (entry : PendingMatchedLoan) :
    Signs keys (promoteOne ctx market entry) := by
  refine signs_banksSnapshot.bind fun banks => ?_
  refine (Fallible.makes_result _).bind fun debtBank => ?_
  refine (signs_of_onlyReads (onlyReads_assembleVaultSettle ctx _ _ _ _)).bind fun settle => ?_
  exact signs_simulateAndSend hpayer

theorem PromoterHandler.signs_promoteEntries (market : MarketView)
    (entries : List PendingMatchedLoan) : Signs keys (promoteEntries ctx market entries) := by
  induction entries with
  | nil => exact Fallible.makes_pure _
  | cons entry entries ih =>
    exact (signs_withInflight (signs_promoteOne ctx hpayer market entry)).bind fun _ => ih

theorem PromoterHandler.signs_promoteMarkets (markets : List MarketView) :
    Signs keys (promoteMarkets ctx markets) := by
  induction markets with
  | nil => exact Fallible.makes_pure _
  | cons market markets ih =>
    unfold promoteMarkets
    split
    · exact ih
    refine (signs_of_onlyReads
      (onlyReads_readPendingMatchedLoans ctx.y market.address)).attempt.bind fun r => ?_
    cases r with
    | error e => exact ih
    | ok pending => exact (signs_promoteEntries ctx hpayer market pending).bind fun _ => ih

theorem ClaimerHandler.signs_sweepOne (entry : PendingVaultClaim) :
    Signs keys (sweepOne ctx entry) := by
  refine signs_banksSnapshot.bind fun banks => ?_
  refine (Fallible.makes_result _).bind fun debtBank => ?_
  exact signs_simulateAndSend hpayer

theorem ClaimerHandler.signs_sweepAll (entries : List PendingVaultClaim) :
    Signs keys (sweepAll ctx entries) := by
  induction entries with
  | nil => exact Fallible.makes_pure _
  | cons entry entries ih =>
    exact (signs_withInflight (signs_sweepOne ctx hpayer entry)).bind fun _ => ih

theorem ClaimerHandler.signs_tick : Signs keys (tick ctx) := by
  refine (signs_of_onlyReads (onlyReads_listSubVaults _ _)).bind fun subVaults => ?_
  split
  · exact Fallible.makes_pure _
  refine (signs_listMarkets _ _).bind fun markets => ?_
  split
  · exact Fallible.makes_pure _
  refine (signs_of_onlyReads (onlyReads_listPendingVaultClaims _ _)).bind fun claims => ?_
  exact signs_sweepAll ctx hpayer _

theorem MatchCrankerHandler.signs_crankOne (market : MarketView) :
    Signs keys (crankOne ctx market) := by
  refine signs_banksSnapshot.bind fun banks => ?_
  refine (Fallible.makes_result _).bind fun ⟨debtBank, collateralBank⟩ => ?_
  have hsigners : [ctx.signers.feePayer] ⊆ keys := List.cons_subset.2 ⟨hpayer, List.nil_subset _⟩
  exact makes_crankWith ctx (fun _ _ _ => ⟨fun _ => nofun, List.nil_subset keys⟩)
    (fun _ _ => ⟨fun _ => nofun, List.nil_subset keys⟩) fun _ _ => ⟨fun _ => nofun, hsigners⟩

theorem MatchCrankerHandler.signs_scanMarket (market : MarketView) :
    Signs keys (scanMarket ctx market) := by
  refine (signs_of_onlyReads (onlyReads_marketIsRateCrossed _ _)).bind fun crossed => ?_
  split
  · refine (signs_withInflight (signs_crankOne ctx hpayer market)).bind fun r => ?_
    cases r
    · exact Fallible.makes_throw _
    · exact Fallible.makes_pure _
  · exact Fallible.makes_pure _

theorem MatchCrankerHandler.signs_scanMarkets (markets : List MarketView) :
    Signs keys (scanMarkets ctx markets) := by
  induction markets with
  | nil => exact Fallible.makes_pure _
  | cons market markets ih =>
    unfold scanMarkets
    split
    · exact ih
    · exact (signs_scanMarket ctx hpayer market).attempt.bind fun _ => ih

theorem LiquidatorHandler.signs_tryClose (market : MarketView) (loan : LoanView)
    (closing : Closing) : Signs keys (tryClose ctx market loan closing) := by
  refine signs_banksSnapshot.bind fun banks => ?_
  refine (Fallible.makes_result _).bind fun ⟨debtBank, collateralBank⟩ => ?_
  have hsigners : [ctx.signers.feePayer] ⊆ keys := List.cons_subset.2 ⟨hpayer, List.nil_subset _⟩
  exact makes_closeWith ctx (fun _ _ _ => ⟨fun _ => nofun, List.nil_subset keys⟩)
    (fun _ _ => ⟨fun _ => nofun, List.nil_subset keys⟩)
    (fun _ => ⟨fun _ => nofun, List.nil_subset keys⟩)
    (fun _ _ _ => ⟨fun _ => nofun, List.nil_subset keys⟩) fun _ _ => ⟨fun _ => nofun, hsigners⟩

theorem LiquidatorHandler.signs_scanLoans (market : MarketView) (tNow : Int64)
    (loans : List LoanView) : Signs keys (scanLoans ctx market tNow loans) :=
  makes_scanLoans ctx (fun _ _ => ⟨⟨fun _ => nofun, List.nil_subset keys⟩, fun _ => nofun,
    List.nil_subset keys⟩) (fun loan _ => signs_tryClose ctx hpayer market loan _)
    fun loan _ _ => signs_tryClose ctx hpayer market loan _

theorem LiquidatorHandler.signs_scanMarkets (markets : List MarketView) :
    Signs keys (scanMarkets ctx markets) := by
  induction markets with
  | nil => exact Fallible.makes_pure _
  | cons market markets ih =>
    have hmarket : Signs keys (scanMarket ctx market) := by
      refine (signs_of_onlyReads (onlyReads_listLoansForMarket _ _ _)).bind fun loans => ?_
      refine (signs_process (by simp)).bind fun tNow => ?_
      exact signs_scanLoans ctx hpayer market tNow loans
    unfold scanMarkets
    split
    · exact ih
    · exact hmarket.attempt.bind fun _ => ih

end FeePayer

namespace CuratorFeeClaimerHandler

theorem signs_claimOne {curatorPk : Pubkey} (hcurator : curatorPk ∈ keys)
    (subVault : SubVaultView) (banks : BankRegistry) :
    Signs keys (claimOne ctx subVault banks curatorPk) := by
  unfold claimOne
  split
  · exact Fallible.makes_throw _
  split
  · exact Fallible.makes_throw _
  have hsigners : [curatorPk] ⊆ keys := List.cons_subset.2 ⟨hcurator, List.nil_subset _⟩
  exact (signs_rpc hsigners).bind fun _ => Fallible.makes_pure _

/-- A claim is made only for a curator whose key is there. -/
theorem signs_claimAll (banks : BankRegistry) (subVaults : List SubVaultView) :
    Signs ctx.signers.curators (claimAll ctx banks subVaults) := by
  induction subVaults with
  | nil => exact Fallible.makes_pure _
  | cons subVault subVaults ih =>
    unfold claimAll
    split
    · exact ih
    split
    · exact ih
    split
    · exact ih
    rename_i hkey
    have hcurator : subVault.curator ∈ ctx.signers.curators := not_not.1 hkey
    exact (signs_withInflight (signs_claimOne ctx hcurator subVault banks)).bind fun _ => ih

theorem signs_tick : Signs ctx.signers.curators (tick ctx) := by
  unfold tick
  split
  · exact Fallible.makes_pure _
  refine (signs_of_onlyReads (onlyReads_listSubVaults _ _)).bind fun subVaults => ?_
  refine signs_banksSnapshot.bind fun banks => ?_
  exact signs_claimAll ctx banks subVaults

end CuratorFeeClaimerHandler

end Handlers

/-! ### The Switchboard cranker -/

namespace SwbCranker

variable (cranker : SwbCranker) (sdk : Sdk) (oracles : List Pubkey)

theorem signs_tryCrank (gateway : Gateway) :
    Signs [cranker.payer] (cranker.tryCrank sdk oracles gateway) := by
  have hfetch : Signs [cranker.payer] (cranker.fetchUpdateVia oracles gateway) :=
    makes_fetchUpdateVia cranker gateway ⟨fun _ => nofun, List.nil_subset _⟩
  refine hfetch.bind fun ⟨ixs, luts⟩ => ?_
  refine (signs_client (List.nil_subset _)).bind fun blockhash => ?_
  refine makes_liftError_bind fun msg hmsg => makes_liftError_bind fun tx htx => ?_
  -- the payer of the message signs it
  have hpayer : tx.message.payer = cranker.payer := (Rpc.carriesOut_of_tryNew hmsg htx).2.2
  refine signs_client ?_
  simp [ServiceCall.signers, hpayer]

theorem signs_crankFrom (gateways : List Gateway) (lastErr : Option Error) :
    Signs [cranker.payer] (cranker.crankFrom sdk oracles gateways lastErr) := by
  induction gateways generalizing lastErr with
  | nil => exact Fallible.makes_throw _
  | cons gateway rest ih =>
    refine (signs_tryCrank cranker sdk oracles gateway).attempt.bind fun r => ?_
    cases r with
    | ok sig => exact Fallible.makes_pure _
    | error e => exact ih (some e)

theorem signs_crank : Signs [cranker.payer] (cranker.crank sdk oracles) := by
  unfold crank
  split
  · exact Fallible.makes_pure _
  · exact signs_crankFrom cranker sdk oracles cranker.gateways none

end SwbCranker

/-! ### The loops -/

section Loops

variable (ctx : HandlerContext)

/-- The keys a handler signs with. -/
def HandlerKind.keys (handler : HandlerKind) : List Pubkey :=
  if handler.requiresFeePayer then [ctx.signers.feePayer] else ctx.signers.curators

theorem HandlerKind.signs_tick (handler : HandlerKind) :
    Signs (handler.keys ctx) (handler.tick ctx) := by
  have hpayer : ctx.signers.feePayer ∈ [ctx.signers.feePayer] := List.mem_singleton_self _
  cases handler with
  | promoter =>
    exact (signs_listMarkets _ _).bind fun _ => PromoterHandler.signs_promoteMarkets ctx hpayer _
  | claimer => exact ClaimerHandler.signs_tick ctx hpayer
  | liquidator =>
    exact (signs_listMarkets _ _).bind fun _ => LiquidatorHandler.signs_scanMarkets ctx hpayer _
  | curatorFeeClaimer => exact CuratorFeeClaimerHandler.signs_tick ctx
  | matchCranker =>
    exact (signs_listMarkets _ _).bind fun _ => MatchCrankerHandler.signs_scanMarkets ctx hpayer _

/-- The keys a loop signs with. -/
def Task.keys : Task → List Pubkey
  | .supervise handler => handler.keys ctx
  | .swbCrank => (ctx.swbCranker.map SwbCranker.payer).toList
  | .solBalance | .bankRefresh | .listMarkets => []

theorem HandlerKind.signs_supervise (handler : HandlerKind) :
    Signs (handler.keys ctx) (handler.supervise ctx) := by
  have hskip : Signs (handler.keys ctx) handler.shouldSkipLowBalance := by
    unfold HandlerKind.shouldSkipLowBalance
    split
    · exact signs_process (by simp)
    · exact Fallible.makes_pure _
  refine hskip.bind fun low => ?_
  split
  · exact Fallible.makes_pure _
  · exact (handler.signs_tick ctx).attempt.bind fun _ => Fallible.makes_pure _

/-- **A loop signs with its own keys**, and only the balance loop sets the flag. -/
theorem Task.signs {task : Task} (h : task ≠ .solBalance) :
    Signs (task.keys ctx) (task.run ctx) := by
  cases task with
  | supervise handler => exact handler.signs_supervise ctx
  | solBalance => exact absurd rfl h
  | bankRefresh =>
    exact (signs_refreshBanks ctx.sdk ctx.y ctx.cfg).attempt.bind fun _ => Fallible.makes_pure _
  | listMarkets =>
    exact (signs_listMarkets ctx.chain ctx.y).attempt.bind fun _ => Fallible.makes_pure _
  | swbCrank =>
    change Signs _ (swbCrankLoop ctx)
    unfold swbCrankLoop Task.keys
    cases ctx.swbCranker with
    | none => exact Fallible.makes_pure _
    | some cranker =>
      refine signs_banksSnapshot.bind fun banks => ?_
      simp only
      split
      · exact Fallible.makes_pure _
      · exact (cranker.signs_crank ctx.sdk _).attempt.bind fun _ => Fallible.makes_pure _

end Loops

/-! ### Booting -/

section Boot

variable (cfg : Config) (sdk : Sdk) (y : Ydelta) (signers : Signers)

section Makes

variable {G : ServiceCall → Prop}

theorem makes_ensureAtasFor {feePayer : Pubkey}
    (hget : ∀ pks, G (.client (.getMultipleAccounts pks)))
    (hsend : ∀ ixs, G (.rpc (.sendSignedLabeled "create_atas" ixs [feePayer])))
    (registry : BankRegistry) : (registry.ensureAtasFor sdk feePayer).Makes G := by
  unfold BankRegistry.ensureAtasFor
  split
  · exact Fallible.makes_pure _
  refine (Fallible.makes_ask (hget _)).bind fun existing => ?_
  refine (Fallible.makes_result _).bind fun missing => ?_
  split
  · exact Fallible.makes_pure _
  · exact (Fallible.makes_ask (hsend _)).mapError.bind fun _ => Fallible.makes_pure _

theorem makes_ensureCuratorAtas {curators : List Pubkey} (hread : G (.process .banksRead))
    (hget : ∀ pks, G (.client (.getMultipleAccounts pks)))
    (hsend : ∀ curator ∈ curators, ∀ ixs,
      G (.rpc (.sendSignedLabeled "create_atas" ixs [curator]))) :
    (ensureCuratorAtas sdk curators).Makes G := by
  induction curators with
  | nil => exact Fallible.makes_pure _
  | cons curator curators ih =>
    refine (makes_banksSnapshot hread).bind fun banks => ?_
    have hone := makes_ensureAtasFor sdk hget (hsend curator List.mem_cons_self) banks
    exact hone.attempt.bind fun _ => ih fun c hc => hsend c (List.mem_cons_of_mem _ hc)

theorem makes_bootSwbCranker (hread : G (.process .banksRead))
    (hfetch : ∀ queue, G (.process (.fetchGateways queue))) (swbQueue : Pubkey) :
    (bootSwbCranker signers swbQueue).Makes G := by
  have hnew : (SwbCranker.new swbQueue signers.feePayer).Makes G := by
    refine Fallible.Makes.bind (Fallible.makes_ask (hfetch swbQueue)) fun r => ?_
    cases r with
    | error e => exact Fallible.makes_throw _
    | ok gateways =>
      simp only
      split
      · exact Fallible.makes_throw _
      · exact Fallible.makes_pure _
  refine (makes_banksSnapshot hread).bind fun banks => ?_
  split
  · refine hnew.attempt.bind fun r => ?_
    cases r <;> exact Fallible.makes_pure _
  · exact Fallible.makes_pure _

end Makes

/-- The boot signs with all keys there are, and leaves the flag alone. -/
theorem boot_signs (swbQueue : Pubkey) :
    Signs (signers.feePayer :: signers.curators) (boot cfg sdk y signers swbQueue) := by
  have hdiscover : Signs (signers.feePayer :: signers.curators)
      (cfg.discoverBanksFromMarkets sdk y) := by
    refine (signs_discoverFromMarkets _ sdk y _).bind fun fresh => ?_
    refine (signs_process (by simp)).bind fun stored => ?_
    cases stored
    · exact Fallible.makes_throw _
    · exact Fallible.makes_pure _
  have hread : ∀ c : ServiceCall, c.Reads →
      c.SignedBy (signers.feePayer :: signers.curators) := fun _ hc => hc.signedBy
  -- token accounts are paid for by their owners
  have hsend : ∀ owner ∈ signers.feePayer :: signers.curators, ∀ ixs,
      (ServiceCall.rpc (.sendSignedLabeled "create_atas" ixs [owner])).SignedBy
        (signers.feePayer :: signers.curators) := fun owner howner ixs =>
    ⟨fun _ => nofun, List.cons_subset.2 ⟨howner, List.nil_subset _⟩⟩
  refine hdiscover.mapError.bind fun _ => ?_
  refine signs_banksSnapshot.bind fun banks => ?_
  have hatas := makes_ensureAtasFor sdk (fun _ => hread _ trivial)
    (hsend _ List.mem_cons_self) banks
  refine hatas.mapError.bind fun _ => ?_
  refine (makes_ensureCuratorAtas sdk (hread _ trivial) (fun _ => hread _ trivial) fun c hc =>
    hsend c (List.mem_cons_of_mem _ hc)).bind fun _ => ?_
  refine (signs_client (List.nil_subset _)).bind fun slot => ?_
  exact (makes_bootSwbCranker signers (hread _ trivial) (fun _ => hread _ trivial)
    swbQueue).bind fun _ => Fallible.makes_pure _

end Boot

end YdeltaCrankers
