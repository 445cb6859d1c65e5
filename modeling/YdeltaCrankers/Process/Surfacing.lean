import YdeltaCrankers.Discovery.Snapshot
import YdeltaCrankers.Process.Stability

/-!
# When a new mint surfaces

A refresh resolves all markets anew with the resolver of the boot, which stops at the first check
that fails.  So a refresh whose requests all succeed adds a new mint only if every other mint of
every market is in order as well.

**Main theorem** (`refreshBanks_surfaces_iff`): a mint that is not in the registry, is bound to one
bank and has valid accounts is added by such a refresh exactly when the authority of its bank
derives and every other mint of the markets is bound to one bank and resolves.
-/

namespace YdeltaCrankers

open Interaction

/-- The market accounts are answered with these rows. -/
def FetchesRows (rows : List (Pubkey × Account)) (e : Service.Event) : Prop :=
  ∀ programId filters r, e = ⟨.client (.getProgramAccounts programId filters), r⟩ → r = .ok rows

/-- Every binding of the markets is the only one of its mint, and resolves. -/
def AllResolve (sdk : Sdk) (marginfiProgram : Pubkey) (accts : Accounts)
    (markets : List MarketView) : Prop :=
  SingleBanked markets ∧
    ∀ mint bank, Binds markets mint bank → Resolvable sdk marginfiProgram accts mint bank

/-- Every other mint of the markets is bound to one bank, and resolves. -/
def OthersResolve (sdk : Sdk) (marginfiProgram : Pubkey) (accts : Accounts)
    (markets : List MarketView) (mint : Pubkey) : Prop :=
  ∀ mint' bank', mint' ≠ mint → Binds markets mint' bank' →
    (∀ bank'', Binds markets mint' bank'' → bank'' = bank') ∧
      Resolvable sdk marginfiProgram accts mint' bank'

theorem allResolve_iff {sdk : Sdk} {marginfiProgram : Pubkey} {accts : Accounts}
    {markets : List MarketView} {mint bank : Pubkey} (hbinds : Binds markets mint bank)
    (honly : ∀ bank', Binds markets mint bank' → bank' = bank)
    (hvalid : ValidBinding marginfiProgram accts mint bank) :
    AllResolve sdk marginfiProgram accts markets ↔
      HasAuthority sdk marginfiProgram accts bank ∧
        OthersResolve sdk marginfiProgram accts markets mint := by
  constructor
  · rintro ⟨hsingle, hall⟩
    exact ⟨(hall mint bank hbinds).2, fun mint' bank' _ h =>
      ⟨fun bank'' h' => hsingle mint' bank'' bank' h' h, hall mint' bank' h⟩⟩
  · rintro ⟨hauthority, hothers⟩
    constructor
    · intro mint' bank₁ bank₂ h₁ h₂
      by_cases heq : mint' = mint
      · subst heq
        rw [honly bank₁ h₁, honly bank₂ h₂]
      · exact (hothers mint' bank₂ heq h₂).1 bank₁ h₁
    · intro mint' bank' h
      by_cases heq : mint' = mint
      · subst heq
        rw [honly bank' h]
        exact ⟨hvalid, hauthority⟩
      · exact (hothers mint' bank' heq h).2

section Refresh

variable {cfg : Config} {sdk : Sdk} {y : Ydelta} {rows : List (Pubkey × Account)}
  {accts : Accounts}

/-- The markets listed are those of the rows. -/
theorem refreshMarkets_rows (chain : ChainReader) :
    (chain.refreshMarkets y).Spec fun t r => (∀ e ∈ t, FetchesRows rows e) →
      r = .ok (y.decodeMarkets rows) := by
  have hfetch : (chain.fetchMarkets y).Spec fun t r => (∀ e ∈ t, FetchesRows rows e) →
      r = .ok (y.decodeMarkets rows) := by
    refine Fallible.spec_ask_bind (fun r e hr h => ?_) fun r accounts hr =>
      Fallible.spec_pure fun h => ?_
    all_goals
      have hreply : r = .ok rows := h _ List.mem_cons_self _ _ _ rfl
      subst hreply
      cases hr
    rfl
  refine Fallible.spec_bind hfetch (fun t e h hall => h hall) fun t fresh h => ?_
  split
  · refine Fallible.spec_pure fun hall => h fun e he => hall e (List.mem_append_left _ he)
  · refine Fallible.spec_query_bind fun _ => Fallible.spec_pure fun hall => ?_
    exact h fun e he => hall e (List.mem_append_left _ he)

/-- The registry discovered is that of the mints of the rows. -/
theorem discoverFromMarkets_rows (marginfiProgram : Pubkey) (chain : ChainReader) :
    (BankRegistry.discoverFromMarkets sdk marginfiProgram y chain).Spec fun t r =>
      (∀ e ∈ t, FetchesRows rows e) → (∀ e ∈ t, AnswersFrom accts e) →
        ((∃ fresh, r = .ok fresh) ↔
          AllResolve sdk marginfiProgram accts (y.decodeMarkets rows)) ∧
        ∀ fresh, r = .ok fresh → ∀ mint, mint ∈ fresh.mints ↔
          Mentions (y.decodeMarkets rows) mint := by
  have hmarkets : ∀ msg, (withContext msg (chain.refreshMarkets y)).Spec fun t r =>
      (∀ e ∈ t, FetchesRows rows e) → r = .ok (y.decodeMarkets rows) := fun msg =>
    Fallible.spec_mapError (refreshMarkets_rows chain) (fun _ _ h => h)
      fun _ _ h hrows => nomatch h hrows
  refine Fallible.spec_bind (hmarkets _) (fun t e h hrows => nomatch h hrows) fun t markets h => ?_
  intro t' r hrun hrows haccts
  obtain rfl := Except.ok.inj (h fun e he => hrows e (List.mem_append_left t' he))
  have haccts' : ∀ e ∈ t', AnswersFrom accts e := fun e he =>
    haccts e (List.mem_append_right t he)
  refine ⟨BankRegistry.discover_ok_iff hrun haccts', fun fresh hr => ?_⟩
  -- each reply is as long as its request
  have hfull : ∀ (pks : List Pubkey) (replies : List (Option Account)),
      (⟨.client (.getMultipleAccounts pks), .ok replies⟩ : Service.Event) ∈ t' →
        replies.length = pks.length := by
    intro pks replies hmem
    rw [Except.ok.inj (haccts' _ hmem _ _ rfl), List.length_map]
  exact ((BankRegistry.discover_exact hrun hfull).2.2.2 fresh hr).1

/-- **What a refresh on these rows and accounts does**: it merges the mints of all markets, or it
fails. -/
theorem refreshBanks_rows {t : Service.Trace} {r : Except Failure Unit}
    (hrun : (cfg.refreshBanks sdk y).run.Runs t r) (hrows : ∀ e ∈ t, FetchesRows rows e)
    (haccts : ∀ e ∈ t, AnswersFrom accts e) (hmarkets : y.decodeMarkets rows ≠ []) :
    ¬ AllResolve sdk cfg.marginfiProgramId accts (y.decodeMarkets rows) ∧ r ≠ .ok () ∨
      AllResolve sdk cfg.marginfiProgramId accts (y.decodeMarkets rows) ∧ ∃ t₁ fresh merged,
        t = t₁ ++ [⟨.process (.banksMerge fresh), merged⟩] ∧ (∀ e ∈ t₁, ¬ e.call.WritesBanks) ∧
          ∀ mint, mint ∈ fresh.mints ↔ Mentions (y.decodeMarkets rows) mint := by
  rcases Fallible.runs_bind hrun with ⟨err, hfail, rfl⟩ | ⟨t₁, fresh, t₂, rfl, hdiscover, hmerge⟩
  · have hiff := (discoverFromMarkets_rows _ _ _ _ hfail hrows haccts).1
    refine .inl ⟨fun hall => ?_, nofun⟩
    obtain ⟨fresh, hok⟩ := hiff.2 hall
    cases hok
  · obtain ⟨hiff, hmints⟩ := discoverFromMarkets_rows _ _ _ _ hdiscover
      (fun e he => hrows e (List.mem_append_left t₂ he))
      fun e he => haccts e (List.mem_append_left t₂ he)
    have hmints := hmints fresh rfl
    have hquiet := (discoverFromMarkets_spec sdk _ y _ _ _ hdiscover).1
    refine .inr ⟨hiff.1 ⟨fresh, rfl⟩, ?_⟩
    -- some market has a mint, so there is something to merge
    obtain ⟨m, hm⟩ := List.exists_mem_of_ne_nil _ hmarkets
    obtain ⟨info, hinfo⟩ := BankRegistry.mem_mints.1 ((hmints m.debtMint).2 ⟨m, hm, .inl rfl⟩)
    have hne : ¬ fresh.isEmpty = true := fun hempty => by
      rw [BankRegistry.isEmpty_iff.1 hempty] at hinfo
      cases hinfo
    rw [if_neg hne] at hmerge
    obtain ⟨merged, t₃, rfl, hrest⟩ := hmerge
    have hlast : t₃ = [] := by
      cases merged <;> exact hrest.1
    exact ⟨t₁, fresh, merged, by rw [hlast], hquiet, hmints⟩

/-- **A new mint surfaces exactly when everything else resolves.**  A refresh whose requests succeed
adds a mint that is bound to one bank and has valid accounts exactly when the authority of its bank
derives and every other mint of the markets is bound to one bank and resolves. -/
theorem refreshBanks_surfaces_iff {s s' : Memory} {T : List (Memory × Service.Event)}
    {r : Except Failure Unit} {mint bank : Pubkey}
    (hT : ((Memory.env y).rely fun s s' => s'.banks = s.banks).Timeline s T s')
    (hrun : (cfg.refreshBanks sdk y).run.Runs (T.map Prod.snd) r)
    (hrows : ∀ e ∈ T.map Prod.snd, FetchesRows rows e)
    (haccts : ∀ e ∈ T.map Prod.snd, AnswersFrom accts e) (hnew : s.banks.get mint = none)
    (hbinds : Binds (y.decodeMarkets rows) mint bank)
    (honly : ∀ bank', Binds (y.decodeMarkets rows) mint bank' → bank' = bank)
    (hvalid : ValidBinding cfg.marginfiProgramId accts mint bank) :
    (∃ info, s'.banks.get mint = some info) ↔
      HasAuthority sdk cfg.marginfiProgramId accts bank ∧
        OthersResolve sdk cfg.marginfiProgramId accts (y.decodeMarkets rows) mint := by
  rw [← allResolve_iff hbinds honly hvalid]
  have hmarkets : y.decodeMarkets rows ≠ [] := by
    obtain ⟨m, hm, -⟩ := hbinds
    exact List.ne_nil_of_mem hm
  -- either nothing resolves and nothing is merged, or all of it does
  rcases refreshBanks_rows hrun hrows haccts hmarkets with
    ⟨hnot, hfail⟩ | ⟨hall, t₁, fresh, merged, ht, hquiet, hmints⟩
  · have hbanks := refreshBanks_unchanged cfg sdk hT hrun (.inl hfail)
    rw [hbanks, hnew]
    exact ⟨nofun, fun hall => absurd hall hnot⟩
  · refine ⟨fun _ => hall, fun _ => ?_⟩
    obtain ⟨T₁, T₂, rfl, rfl, hlast⟩ := List.map_eq_append_iff.1 ht
    obtain ⟨⟨s₁, e⟩, T₃, rfl, rfl, hnil⟩ := List.map_eq_cons_iff.1 hlast
    obtain rfl := List.map_eq_nil_iff.1 hnil
    obtain ⟨s₀, hT₁, hs₁, s₂, ⟨-, rfl⟩, hs'⟩ := Env.timeline_append.1 hT
    -- until the merge nobody else writes the banks
    have hbanks₁ : s₁.banks = s.banks := (banks_of_ticks hs₁).trans (banks_of_calls hT₁ hquiet)
    obtain ⟨info, hinfo⟩ := BankRegistry.mem_mints.1
      ((hmints mint).2 (mentions_iff.2 ⟨bank, hbinds⟩))
    refine ⟨info, ?_⟩
    have hmerged : s'.banks = s₁.banks.mergeFrom fresh := banks_of_ticks hs'
    rw [hmerged, BankRegistry.get_mergeFrom, hbanks₁, hnew, hinfo]
    rfl

/-! ### A mint kept out by another market -/

variable (cfg sdk y) in
/-- Whatever the other markets look like, a refresh whose requests succeed adds every new mint that
is bound to one bank and has valid accounts. -/
def NewMintsSurface : Prop :=
  ∀ s s' T r rows accts mint bank,
    ((Memory.env y).rely fun s s' => s'.banks = s.banks).Timeline s T s' →
    (cfg.refreshBanks sdk y).run.Runs (T.map Prod.snd) r →
    (∀ e ∈ T.map Prod.snd, FetchesRows rows e) → (∀ e ∈ T.map Prod.snd, AnswersFrom accts e) →
    s.banks.get mint = none → Binds (y.decodeMarkets rows) mint bank →
    (∀ bank', Binds (y.decodeMarkets rows) mint bank' → bank' = bank) →
    ValidBinding cfg.marginfiProgramId accts mint bank → ∃ info, s'.banks.get mint = some info

/-- A node with these market accounts and the banks of two mints. -/
def surfacingReply (rows : List (Pubkey × Account)) : (c : ServiceCall) → c.Reply
  | .client (.getProgramAccounts _ _) => .ok rows
  | .client (.getMultipleAccounts pks) => .ok (pks.map BankRegistry.sampleAccount)
  | c => c.refused

/-- A refresh on this node, of an empty registry. -/
def sampleRefresh (rows : List (Pubkey × Account)) :
    List (Memory × Service.Event) × Except Failure Unit × Memory :=
  (Memory.start 0).exec .plain (surfacingReply rows) (sampleConfig.refreshBanks .plain .plain).run

theorem sampleRefresh_runs (rows : List (Pubkey × Account)) :
    (sampleConfig.refreshBanks .plain .plain).run.Runs ((sampleRefresh rows).1.map Prod.snd)
      (sampleRefresh rows).2.1 :=
  Env.runs_exec _ _

theorem sampleRefresh_timeline (rows : List (Pubkey × Account)) :
    ((Memory.env .plain).rely fun s s' => s'.banks = s.banks).Timeline (Memory.start 0)
      (sampleRefresh rows).1 (sampleRefresh rows).2.2 :=
  Env.timeline_exec (E := (Memory.env .plain).rely fun s s' => s'.banks = s.banks)
    (fun s c => ⟨s.allows_reply (surfacingReply rows) c, rfl⟩) _ _

theorem sampleRefresh_rows (rows : List (Pubkey × Account)) :
    ∀ e ∈ (sampleRefresh rows).1.map Prod.snd, FetchesRows rows e := by
  intro e he programId filters r heq
  obtain ⟨⟨s, e⟩, hx, rfl⟩ := List.mem_map.1 he
  obtain rfl := heq
  exact Env.mem_exec hx

theorem sampleRefresh_accounts (rows : List (Pubkey × Account)) :
    ∀ e ∈ (sampleRefresh rows).1.map Prod.snd, AnswersFrom BankRegistry.sampleAccount e := by
  intro e he pks r heq
  obtain ⟨⟨s, e⟩, hx, rfl⟩ := List.mem_map.1 he
  obtain rfl := heq
  exact Env.mem_exec hx

/-- Two markets that bind the mint at 1 to the banks at 11 and 13. -/
def conflictingRows : List (Pubkey × Account) :=
  [sampleMarketRow 31 1 2 11 12, sampleMarketRow 32 1 3 13 14]

/-- The mint at 2 is new and valid, and stays out because of the mint at 1. -/
theorem not_newMintsSurface : ¬ NewMintsSurface sampleConfig .plain .plain := by
  intro h
  have hbinds : ∃ m ∈ Ydelta.plain.decodeMarkets conflictingRows,
      (.fill 32 2, .fill 32 12) ∈ m.bindings := by decide +kernel
  have honly : ∀ m ∈ Ydelta.plain.decodeMarkets conflictingRows, ∀ p ∈ m.bindings,
      p.1 = .fill 32 2 → p.2 = .fill 32 12 := by decide +kernel
  obtain ⟨info, hinfo⟩ := h _ _ _ _ _ _ (.fill 32 2) (.fill 32 12)
    (sampleRefresh_timeline conflictingRows) (sampleRefresh_runs conflictingRows)
    (sampleRefresh_rows conflictingRows) (sampleRefresh_accounts conflictingRows) rfl hbinds
    (fun bank' ⟨m, hm, hp⟩ => honly m hm _ hp rfl) BankRegistry.sampleAccount_second.1
  have hnone : (sampleRefresh conflictingRows).2.2.banks.get (.fill 32 2) = none := by
    decide +kernel
  rw [hnone] at hinfo
  cases hinfo

/-- Without the second market, the mint surfaces. -/
theorem refreshBanks_surfaces_sample :
    ∃ info, (sampleRefresh [sampleMarketRow 31 1 2 11 12]).2.2.banks.get (.fill 32 2) =
      some info := by
  have hbinds : ∃ m ∈ Ydelta.plain.decodeMarkets [sampleMarketRow 31 1 2 11 12],
      (.fill 32 2, .fill 32 12) ∈ m.bindings := by decide +kernel
  have honly : ∀ m ∈ Ydelta.plain.decodeMarkets [sampleMarketRow 31 1 2 11 12],
      ∀ p ∈ m.bindings, p.1 = .fill 32 2 → p.2 = .fill 32 12 := by decide +kernel
  have hfirst : ∀ m ∈ Ydelta.plain.decodeMarkets [sampleMarketRow 31 1 2 11 12],
      ∀ p ∈ m.bindings, p.1 ≠ .fill 32 2 → p = (.fill 32 1, .fill 32 11) := by decide +kernel
  have hothers : OthersResolve .plain sampleConfig.marginfiProgramId BankRegistry.sampleAccount
      (Ydelta.plain.decodeMarkets [sampleMarketRow 31 1 2 11 12]) (.fill 32 2) := by
    rintro mint' bank' hne ⟨m, hm, hp⟩
    cases hfirst m hm _ hp hne
    refine ⟨fun bank'' ⟨m', hm', hp'⟩ => ?_, BankRegistry.sampleAccount_first⟩
    exact (Prod.mk.inj (hfirst m' hm' _ hp' hne)).2
  exact (refreshBanks_surfaces_iff (sampleRefresh_timeline _) (sampleRefresh_runs _)
    (sampleRefresh_rows _) (sampleRefresh_accounts _) rfl hbinds
    (fun bank' ⟨m, hm, hp⟩ => honly m hm _ hp rfl) BankRegistry.sampleAccount_second.1).2
    ⟨BankRegistry.sampleAccount_second.2, hothers⟩

end Refresh

end YdeltaCrankers
