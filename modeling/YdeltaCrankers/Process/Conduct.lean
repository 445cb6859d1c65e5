import YdeltaCrankers.Process.Promise

/-!
# Every loop keeps the promise

One lemma for each function that makes calls, in the order of the calls: reading markets and the
registry, refreshing it, the Switchboard bundles, the five handlers, and the loops themselves.
-/

namespace YdeltaCrankers

open Interaction

namespace Seen

variable {y : Ydelta} {mayOverwrite : Prop} {w : Seen}

/-! ### Markets and the registry -/

theorem keeps_fetchMarkets (chain : ChainReader) :
    Keeps y mayOverwrite (fun markets w' => markets ⊆ w') (chain.fetchMarkets y) w := by
  refine (keeps_client (Q := fun accounts w' => y.decodeMarkets accounts ⊆ w') ?_).bind
    fun accounts w' _ h => keeps_pure fun w'' hw => List.Subset.trans h hw
  intro r w₁ w₂ _ hlearn hw accounts hr
  cases r <;> cases hr
  simp only [Learns, Memory.fetchedRows, if_true] at hlearn
  exact List.Subset.trans hlearn hw

theorem keeps_marketsCacheGet :
    Keeps y mayOverwrite (fun r w' => ∀ markets, r = some markets → markets ⊆ w')
      (Service.process .marketsCacheGet) w :=
  keeps_process (c := .marketsCacheGet) (fun _ _ => trivial)
    fun _ _ _ _ hlearn hw markets hr => List.Subset.trans (hlearn markets hr) hw

theorem keeps_marketsCacheStale :
    Keeps y mayOverwrite (fun r w' => ∀ markets, r = some markets → markets ⊆ w')
      (Service.process .marketsCacheStale) w :=
  keeps_process (c := .marketsCacheStale) (fun _ _ => trivial)
    fun _ _ _ _ hlearn hw markets hr => List.Subset.trans (hlearn markets hr) hw

theorem keeps_marketsCachePut {markets : List MarketView} (h : markets ⊆ w) :
    Keeps y mayOverwrite (fun _ _ => True) (Service.process (.marketsCachePut markets)) w :=
  keeps_process (c := .marketsCachePut markets) (fun _ hw => List.Subset.trans h hw)
    fun _ _ _ _ _ _ => trivial

theorem keeps_banksRead :
    Keeps y mayOverwrite
      (fun r w' => ∀ registry, r = some registry → BankRegistry.BackedBy w' registry)
      (Service.process .banksRead) w :=
  keeps_process (c := .banksRead) (fun _ _ => trivial)
    fun _ _ _ _ hlearn hw registry hr => (hlearn registry hr).mono hw

/-- Fetched rows may go to the cache. -/
theorem keeps_put {fresh : List MarketView} (h : fresh ⊆ w) :
    Keeps y mayOverwrite (fun markets w' => markets ⊆ w')
      (do let () ← Service.process (.marketsCachePut fresh); return fresh) w :=
  (keeps_marketsCachePut h).bind fun _ _ hw₁ _ =>
    keeps_pure fun _ hw => List.Subset.trans h (List.Subset.trans hw₁ hw)

theorem keeps_listMarkets (chain : ChainReader) :
    Keeps y mayOverwrite (fun markets w' => markets ⊆ w') (chain.listMarkets y) w := by
  refine keeps_marketsCacheGet.bind fun r w₁ _ hr => ?_
  cases r with
  | some cached => exact keeps_pure fun w' hw => List.Subset.trans (hr cached rfl) hw
  | none =>
    refine (keeps_fetchMarkets chain).bind fun fresh w₂ _ hfresh => ?_
    split
    · refine keeps_marketsCacheStale.bind fun r w₃ hw₃ hr => ?_
      cases r with
      | some stale => exact keeps_pure fun w' hw => List.Subset.trans (hr stale rfl) hw
      | none =>
        exact keeps_pure fun w' hw => List.Subset.trans hfresh (List.Subset.trans hw₃ hw)
    · exact keeps_put hfresh

theorem keeps_refreshMarkets (chain : ChainReader) :
    Keeps y mayOverwrite (fun markets w' => markets ⊆ w') (chain.refreshMarkets y) w := by
  refine (keeps_fetchMarkets chain).bind fun fresh w₁ _ hfresh => ?_
  split
  · exact keeps_pure fun w' hw => List.Subset.trans hfresh hw
  · exact keeps_put hfresh

theorem keeps_banksSnapshot :
    Keeps y mayOverwrite (fun banks w' => banks.BackedBy w') Config.banksSnapshot w := by
  refine keeps_banksRead.bind fun r w₁ _ hr => ?_
  cases r with
  | some registry => exact keeps_pure fun w' hw => (hr registry rfl).mono hw
  | none => exact keeps_pure fun w' _ => BankRegistry.backedBy_default

/-- Discovery makes no promised call. -/
theorem keeps_discover (sdk : Sdk) (marginfiProgram : Pubkey) (markets : List MarketView) :
    Keeps y mayOverwrite (fun fresh _ => fresh.WellFormed ∧ fresh.BackedBy markets)
      (BankRegistry.discover sdk marginfiProgram markets) w := by
  refine Env.Safe.of_spec (Q := fun r : Except Failure BankRegistry => ∀ fresh, r = .ok fresh →
    fresh.WellFormed ∧ fresh.BackedBy markets) service_reply_nonempty fun t r hr => ⟨?_, ?_⟩
  · intro e he w
    have hdiscovery := BankRegistry.discovery_of_runs markets t r hr
    obtain ⟨pks, hcall⟩ := hdiscovery.calls e he
    rw [hcall]
    trivial
  · rintro fresh rfl
    exact BankRegistry.registry_of_runs hr

theorem keeps_discoverFromMarkets (sdk : Sdk) (marginfiProgram : Pubkey) (chain : ChainReader) :
    Keeps y mayOverwrite (fun fresh w' => fresh.WellFormed ∧ fresh.BackedBy w')
      (BankRegistry.discoverFromMarkets sdk marginfiProgram y chain) w := by
  refine (keeps_refreshMarkets chain).withContext.bind fun markets w₁ _ hmarkets => ?_
  exact (keeps_discover sdk marginfiProgram markets).mono fun fresh w₂ hw₂ h =>
    ⟨h.1, h.2.mono (List.Subset.trans hmarkets hw₂)⟩

theorem keeps_refreshBanks (cfg : Config) (sdk : Sdk) :
    Keeps y mayOverwrite (fun _ _ => True) (cfg.refreshBanks sdk y) w := by
  refine (keeps_discoverFromMarkets sdk _ _).bind fun fresh w₁ _ hfresh => ?_
  split
  · exact keeps_pure fun _ _ => trivial
  · refine (keeps_process (c := .banksMerge fresh) (Q := fun _ _ => True)
      (fun _ hw => ⟨hfresh.1, hfresh.2.mono hw⟩) fun _ _ _ _ _ _ => trivial).bind
        fun merged _ _ _ => ?_
    cases merged
    · exact Env.ensures_throw _
    · exact keeps_pure fun _ _ => trivial

/-! ### Switchboard -/

theorem keeps_fetchUpdateVia (cranker : SwbCranker) (oracles : List Pubkey) (gateway : Gateway) :
    Keeps y mayOverwrite (fun _ _ => True) (cranker.fetchUpdateVia oracles gateway) w := by
  refine (keeps_process_idle (c := .fetchUpdateConsensusIx gateway oracles cranker.payer)
    fun _ => trivial).bind fun r _ _ _ => ?_
  cases r with
  | ok bundle => exact keeps_pure fun _ _ => trivial
  | error e => exact Env.ensures_throw _

theorem keeps_fetchUpdateFrom (cranker : SwbCranker) (oracles : List Pubkey)
    (gateways : List Gateway) (lastErr : Option Error) :
    Keeps y mayOverwrite (fun _ _ => True) (cranker.fetchUpdateFrom oracles gateways lastErr)
      w := by
  induction gateways generalizing w lastErr with
  | nil => exact Env.ensures_throw _
  | cons gateway rest ih =>
    refine (keeps_fetchUpdateVia cranker oracles gateway).caught.bind fun r _ _ _ => ?_
    cases r with
    | ok bundle => exact keeps_pure fun _ _ => trivial
    | error e => exact ih (some e)

theorem keeps_fetchUpdateIxs (cranker : SwbCranker) (oracles : List Pubkey) :
    Keeps y mayOverwrite (fun _ _ => True) (cranker.fetchUpdateIxs oracles) w := by
  unfold SwbCranker.fetchUpdateIxs
  split
  · exact keeps_pure fun _ _ => trivial
  · exact keeps_fetchUpdateFrom cranker oracles cranker.gateways none

theorem keeps_tryCrank (cranker : SwbCranker) (sdk : Sdk) (oracles : List Pubkey)
    (gateway : Gateway) :
    Keeps y mayOverwrite (fun _ _ => True) (cranker.tryCrank sdk oracles gateway) w := by
  refine (keeps_fetchUpdateVia cranker oracles gateway).bind fun bundle _ _ _ => ?_
  refine keeps_client_idle.bind fun blockhash _ _ _ => ?_
  refine (keeps_liftError (Q := fun _ _ => True) fun _ _ _ _ => trivial).bind fun msg _ _ _ => ?_
  refine (keeps_liftError (Q := fun _ _ => True) fun _ _ _ _ => trivial).bind fun tx _ _ _ => ?_
  exact keeps_client_idle

theorem keeps_crankFrom (cranker : SwbCranker) (sdk : Sdk) (oracles : List Pubkey)
    (gateways : List Gateway) (lastErr : Option Error) :
    Keeps y mayOverwrite (fun _ _ => True) (cranker.crankFrom sdk oracles gateways lastErr) w := by
  induction gateways generalizing w lastErr with
  | nil => exact Env.ensures_throw _
  | cons gateway rest ih =>
    refine (keeps_tryCrank cranker sdk oracles gateway).caught.bind fun r _ _ _ => ?_
    cases r with
    | ok sig => exact keeps_pure fun _ _ => trivial
    | error e => exact ih (some e)

theorem keeps_crank (cranker : SwbCranker) (sdk : Sdk) (oracles : List Pubkey) :
    Keeps y mayOverwrite (fun _ _ => True) (cranker.crank sdk oracles) w := by
  unfold SwbCranker.crank
  split
  · exact keeps_pure fun _ _ => trivial
  · exact keeps_crankFrom cranker sdk oracles cranker.gateways none

theorem keeps_fetchBundle (cranker : SwbCranker) (oracles : List Pubkey) :
    Keeps y mayOverwrite (fun _ _ => True)
      (do match ← Service.caught (cranker.fetchUpdateIxs oracles) with
        | .ok bundle => return bundle
        | .error _ => return ([], [])) w := by
  refine (keeps_fetchUpdateIxs cranker oracles).caught.bind fun r _ _ _ => ?_
  cases r <;> exact keeps_pure fun _ _ => trivial

/-! ### What the handlers share -/

variable (ctx : HandlerContext)

theorem keeps_withInflight {key : InflightKey} {body : Async Service Bool}
    (h : ∀ w', w ⊆ w' → Keeps y mayOverwrite (fun _ _ => True) body w') :
    Keeps y mayOverwrite (fun _ _ => True) (withInflight key body) w := by
  refine (keeps_process_idle (c := .claimInflight key) fun _ => trivial).bind
    fun claimed w₁ hw₁ _ => ?_
  split
  · refine (h w₁ hw₁).caught.bind fun res _ _ _ => ?_
    refine (keeps_process_idle (c := .releaseInflight key) fun _ => trivial).bind
      fun _ _ _ _ => ?_
    exact keeps_pure fun _ _ => trivial
  · exact keeps_pure fun _ _ => trivial

theorem keeps_bankOf {banks : BankRegistry} {name : String} {mint : Pubkey} :
    Keeps y mayOverwrite (fun bank _ => banks.get mint = some bank)
      (liftError (bankOf banks name mint)) w := by
  refine keeps_liftError fun bank h _ _ => ?_
  unfold bankOf at h
  split at h
  · cases h
  · cases h; assumption

theorem bankPair_ok {banks : BankRegistry} {debtMint collateralMint : Pubkey}
    {pair : BankInfo × BankInfo} (h : bankPair banks debtMint collateralMint = .ok pair) :
    banks.get debtMint = some pair.1 ∧ banks.get collateralMint = some pair.2 := by
  simp only [bankPair, bankOf, except_bind_eq_ok] at h
  obtain ⟨debtBank, hdebt, collateralBank, hcollateral, hpair⟩ := h
  cases hpair
  split at hdebt <;> cases hdebt
  split at hcollateral <;> cases hcollateral
  exact ⟨by assumption, by assumption⟩

theorem keeps_bankPair {banks : BankRegistry} {debtMint collateralMint : Pubkey} :
    Keeps y mayOverwrite
      (fun pair _ => banks.get debtMint = some pair.1 ∧ banks.get collateralMint = some pair.2)
      (liftError (bankPair banks debtMint collateralMint)) w :=
  keeps_liftError fun _ h _ _ => bankPair_ok h

/-- An instruction for a market on the list, with the registry's banks of its mints. -/
theorem banksAgree_of_backed {banks : BankRegistry} {w' : Seen} {m : MarketView}
    (hbacked : banks.BackedBy w) (hw : w ⊆ w') (hm : m ∈ w) (hpaused : m.isPaused = false)
    {debtBank : BankInfo} (hdebt : banks.get m.debtMint = some debtBank)
    (collateralBank : Option BankInfo)
    (hcollateral : ∀ info ∈ collateralBank, banks.get m.collateralMint = some info)
    {ix : Instruction}
    (hix : ix.marketBanks = some (m.address, debtBank.bank, collateralBank.map BankInfo.bank))
    (hs : SingleBanked w') : BanksAgree w' ix := by
  intro market debt collateral h
  rw [hix] at h
  cases h
  have hs := hs.anti hw
  refine ⟨m, hw hm, rfl, hpaused, hbacked.bank_eq hs hm List.mem_cons_self hdebt, ?_⟩
  intro bank hbank
  obtain ⟨info, hinfo, rfl⟩ := Option.map_eq_some_iff.1 hbank
  exact hbacked.bank_eq hs hm (List.mem_cons_of_mem _ List.mem_cons_self) (hcollateral info hinfo)

end Seen

end YdeltaCrankers
