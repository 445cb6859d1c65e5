import YdeltaCrankers.Process.Loops

/-!
# What holds at every moment of a run

`Memory.Sound` is the invariant of the process: every entry of the registry passed the checks of
discovery, and the registry and the market cache are backed by rows that have been fetched.  As
long as everybody keeps the promise, memory behaves as `Seen.env` says (`abstracts_memory`), so
the promise and the invariant hold throughout (`ProcessRun.sound`).

**Main theorem** (`ProcessRun.registry_stable`): from one moment of a run to a later one the
registry only grows and no entry changes; every entry passed the checks; and a refresh that fails
or sees no market leaves the registry as it was.
-/

namespace YdeltaCrankers

open Interaction

/-- The invariant of the process. -/
structure Memory.Sound (s : Memory) : Prop where
  wellFormed : s.banks.WellFormed
  backed : s.banks.BackedBy s.fetched
  cached : ∀ c, s.marketsCache = some c → c.markets ⊆ s.fetched

namespace Memory

variable {y : Ydelta} {mayOverwrite : Prop} {s : Memory} {c : ServiceCall} {r : c.Reply}

theorem sound_start (clock : ℕ) : (start clock).Sound where
  wellFormed := BankRegistry.wellFormed_default
  backed := BankRegistry.backedBy_default
  cached := nofun

theorem fetched_subset_after (y : Ydelta) (s : Memory) (c : ServiceCall) (r : c.Reply) :
    s.fetched ⊆ (s.after y c r).fetched := by
  cases c with
  | rpc c => cases c <;> exact List.Subset.refl _
  | client c => cases c <;> first | exact List.subset_append_left _ _ | exact List.Subset.refl _
  | process c => cases c <;> exact List.Subset.refl _

/-- A promised call keeps the invariant. -/
theorem Sound.after (hs : s.Sound) (hG : Promise mayOverwrite s.fetched c) :
    (s.after y c r).Sound := by
  have hfetched := fetched_subset_after y s c r
  cases c with
  | rpc c => cases c <;> exact ⟨hs.wellFormed, hs.backed, hs.cached⟩
  | client c =>
    cases c with
    | getProgramAccounts programId filters =>
      exact ⟨hs.wellFormed, hs.backed.mono hfetched,
        fun c hc => List.Subset.trans (hs.cached c hc) hfetched⟩
    | _ => exact ⟨hs.wellFormed, hs.backed, hs.cached⟩
  | process c =>
    cases c with
    | banksSet fresh => exact ⟨hG.2.1, hG.2.2, hs.cached⟩
    | banksMerge fresh =>
      exact ⟨hs.wellFormed.mergeFrom hG.1, hs.backed.mergeFrom hG.2, hs.cached⟩
    | marketsCachePut markets =>
      refine ⟨hs.wellFormed, hs.backed, ?_⟩
      rintro c ⟨⟩
      exact hG
    | _ => exact ⟨hs.wellFormed, hs.backed, hs.cached⟩

/-- What memory answers is what the abstract view says can be learnt. -/
theorem Sound.learns (hs : s.Sound) (hallow : s.Allows c r) :
    Seen.Learns y (s.after y c r).fetched c r := by
  cases c with
  | rpc c => trivial
  | client c =>
    cases c with
    | getProgramAccounts programId filters => exact List.subset_append_right _ _
    | _ => trivial
  | process c =>
    cases c with
    | banksRead =>
      rintro registry rfl
      cases hallow
      exact hs.backed
    | marketsCacheGet =>
      rintro markets rfl
      obtain ⟨c, hc, rfl⟩ := MarketCache.fresh_eq_some hallow.symm
      exact hs.cached c hc
    | marketsCacheStale =>
      rintro markets rfl
      obtain ⟨c, hc, rfl⟩ := Option.map_eq_some_iff.1 hallow.symm
      exact hs.cached c hc
    | _ => trivial

/-- As long as everybody keeps the promise, memory behaves as the abstract view says. -/
theorem abstracts_memory (y : Ydelta) (mayOverwrite : Prop) :
    Env.Abstracts (Seen.env y) (Memory.env y) Memory.fetched Memory.Sound
      (Promise mayOverwrite) where
  tick := by
    rintro s _ hs ⟨clock, -, rfl⟩
    exact ⟨⟨hs.wellFormed, hs.backed, hs.cached⟩, .refl⟩
  answer := by
    rintro s c r _ hs hG ⟨hallow, rfl⟩
    have hsub := fetched_subset_after y s c r
    exact ⟨hs.after hG, ⟨hsub, hs.learns hallow⟩, .single hsub⟩

end Memory

/-! ### Runs -/

theorem boot_ctx (cfg : Config) (sdk : Sdk) (y : Ydelta) (signers : Signers)
    (swbQueue : Pubkey) : (boot cfg sdk y signers swbQueue).Spec fun _ r => ∀ ctx, r = .ok ctx →
      ctx.cfg = cfg ∧ ctx.sdk = sdk ∧ ctx.y = y ∧ ctx.signers = signers := by
  have next : ∀ {α β : Type} {x : Async Service α} {f : α → Async Service β} {P : β → Prop},
      (∀ a, (f a).Spec fun _ r => ∀ b, r = .ok b → P b) →
        (x >>= f).Spec fun _ r => ∀ b, r = .ok b → P b := fun h =>
    Fallible.spec_bind (Q := fun _ _ => True) (fun _ _ _ => trivial) (fun _ _ _ _ h => nomatch h)
      fun _ a _ => h a
  refine next fun _ => next fun _ => next fun _ => next fun _ => next fun _ => next fun _ => ?_
  refine Fallible.spec_pure ?_
  rintro ctx ⟨⟩
  exact ⟨rfl, rfl, rfl, rfl⟩

variable {cfg : Config} {sdk : Sdk} {y : Ydelta} {signers : Signers}

theorem Launch.ctx_eq (launch : Launch cfg sdk y signers) :
    launch.ctx.cfg = cfg ∧ launch.ctx.sdk = sdk ∧ launch.ctx.y = y ∧
      launch.ctx.signers = signers :=
  boot_ctx cfg sdk y signers launch.swbQueue _ _ launch.runs launch.ctx rfl

theorem Launch.sound (launch : Launch cfg sdk y signers) : launch.booted.Sound :=
  ((Memory.abstracts_memory y True).sound (Memory.sound_start launch.clock)
    (fun _ => Seen.boot_keeps cfg sdk signers launch.swbQueue)
    (Env.interleaving_of_timeline () launch.timeline launch.runs.reaches)).1

/-- The invariant holds at every moment, and every call keeps the promise. -/
theorem ProcessRun.sound (run : ProcessRun cfg sdk y signers) :
    run.reached.Sound ∧
      ∀ x ∈ run.events, x.2.1.Sound ∧ Promise False x.2.1.fetched x.2.2.call :=
  (Memory.abstracts_memory y False).sound run.toLaunch.sound
    (fun i => Seen.runTasks_keeps run.ctx run.toLaunch.ctx_eq.2.2.1 (run.loops i))
    run.interleaving

/-- The states of a run from the end of the boot on. -/
def ProcessRun.states (run : ProcessRun cfg sdk y signers) : List Memory :=
  run.booted :: run.events.map (fun x => x.2.1) ++ [run.reached]

theorem Memory.extends_after (s : Memory) {c : ServiceCall} {r : c.Reply}
    (hc : ∀ fresh, c ≠ .process (.banksSet fresh)) :
    s.banks.Extends (s.after y c r).banks := by
  cases c with
  | rpc c => cases c <;> exact .refl _
  | client c => cases c <;> exact .refl _
  | process c =>
    cases c with
    | banksSet fresh => exact absurd rfl (hc fresh)
    | banksMerge fresh => exact BankRegistry.extends_mergeFrom _ _
    | _ => exact .refl _

/-- Without an overwrite the registry only grows, from each state of a timeline to each later
one. -/
theorem pairwise_extends {s s' : Memory} {T : List (Memory × Service.Event)}
    (hT : (Memory.env y).Timeline s T s')
    (hcalls : ∀ x ∈ T, ∀ fresh, x.2.call ≠ .process (.banksSet fresh)) :
    (s :: T.map Prod.fst ++ [s']).Pairwise fun s s' => s.banks.Extends s'.banks := by
  have hticks : ∀ {s s' : Memory}, (Memory.env y).Ticks s s' → s.banks.Extends s'.banks := by
    intro s s' h
    refine h.invariant (P := fun x => s.banks.Extends x.banks) (.refl _) ?_
    rintro s₁ _ h₁ ⟨clock, -, rfl⟩
    exact h₁
  induction T generalizing s with
  | nil =>
    refine List.pairwise_pair.2 (hticks hT)
  | cons x T ih =>
    obtain ⟨s₁, e⟩ := x
    obtain ⟨hs, s₂, ⟨-, rfl⟩, hT⟩ := hT
    have hrest := ih hT fun x hx => hcalls x (List.mem_cons_of_mem _ hx)
    have hstep : s₁.banks.Extends (s₁.after y e.call e.reply).banks :=
      s₁.extends_after (hcalls (s₁, e) List.mem_cons_self)
    rw [List.cons_append, List.pairwise_cons] at hrest
    have hlater : ∀ s ∈ T.map Prod.fst ++ [s'], s₁.banks.Extends s.banks := fun s hs =>
      hstep.trans (hrest.1 s hs)
    refine List.pairwise_cons.2 ⟨?_, List.pairwise_cons.2 ⟨hlater, hrest.2⟩⟩
    intro s hmem
    rcases List.mem_cons.1 hmem with rfl | hmem
    · exact hticks hs
    · exact (hticks hs).trans (hlater s hmem)

/-! ### One refresh -/

/-- The call changes the registry. -/
def ServiceCall.WritesBanks (c : ServiceCall) : Prop :=
  ∃ fresh, c = .process (.banksSet fresh) ∨ c = .process (.banksMerge fresh)

theorem Memory.banks_after (s : Memory) {c : ServiceCall} {r : c.Reply} (h : ¬ c.WritesBanks) :
    (s.after y c r).banks = s.banks := by
  cases c with
  | rpc c => cases c <;> rfl
  | client c => cases c <;> rfl
  | process c =>
    cases c with
    | banksSet fresh => exact absurd ⟨fresh, .inl rfl⟩ h
    | banksMerge fresh => exact absurd ⟨fresh, .inr rfl⟩ h
    | _ => rfl

/-- Some reply of the trace brought a market row. -/
def SeesMarket (y : Ydelta) (t : Service.Trace) : Prop :=
  ∃ programId filters accounts,
    (⟨.client (.getProgramAccounts programId filters), .ok accounts⟩ : Service.Event) ∈ t ∧
      y.decodeMarkets accounts ≠ []

theorem fetchMarkets_spec (chain : ChainReader) (y : Ydelta) :
    (chain.fetchMarkets y).Spec fun t r => (∀ e ∈ t, ¬ e.call.WritesBanks) ∧
      ∀ markets, r = .ok markets → markets ≠ [] → SeesMarket y t := by
  refine Fallible.spec_ask_bind (fun r e _ => ⟨?_, nofun⟩) fun r accounts hr =>
    Fallible.spec_pure ⟨?_, ?_⟩
  · rintro e (_ | ⟨_, ⟨⟩⟩) ⟨fresh, h | h⟩ <;> cases h
  · rintro e (_ | ⟨_, ⟨⟩⟩) ⟨fresh, h | h⟩ <;> cases h
  · rintro markets ⟨⟩ hne
    cases r <;> cases hr
    exact ⟨_, _, accounts, List.mem_cons_self, hne⟩

theorem refreshMarkets_spec (chain : ChainReader) (y : Ydelta) :
    (chain.refreshMarkets y).Spec fun t r => (∀ e ∈ t, ¬ e.call.WritesBanks) ∧
      ∀ markets, r = .ok markets → markets ≠ [] → SeesMarket y t := by
  refine Fallible.spec_bind (fetchMarkets_spec chain y) (fun t e h => ⟨h.1, nofun⟩)
    fun t fresh h => ?_
  split
  · exact Fallible.spec_pure (by simpa using h)
  · refine Fallible.spec_query_bind fun r => Fallible.spec_pure ⟨fun e he => ?_, ?_⟩
    · rcases List.mem_append.1 he with he | he
      · exact h.1 e he
      · cases List.mem_singleton.1 he
        rintro ⟨fresh, h | h⟩ <;> cases h
    · rintro markets ⟨⟩ hne
      obtain ⟨programId, filters, accounts, hmem, hrows⟩ := h.2 fresh rfl hne
      exact ⟨programId, filters, accounts, List.mem_append_left _ hmem, hrows⟩

theorem discover_spec (sdk : Sdk) (marginfiProgram : Pubkey) (markets : List MarketView) :
    (BankRegistry.discover sdk marginfiProgram markets).Spec fun t r =>
      (∀ e ∈ t, ¬ e.call.WritesBanks) ∧
        ∀ fresh, r = .ok fresh → fresh.isEmpty = false → markets ≠ [] := by
  refine (BankRegistry.discovery_of_runs markets).mono fun t r h => ⟨fun e he => ?_, ?_⟩
  · obtain ⟨pks, hcall⟩ := h.calls e he
    rintro ⟨fresh, h | h⟩ <;> rw [hcall] at h <;> cases h
  · rintro fresh rfl hfresh rfl
    cases h with
    | noMarkets => cases hfresh
    | resolve hmarkets => exact hmarkets rfl

theorem discoverFromMarkets_spec (sdk : Sdk) (marginfiProgram : Pubkey) (y : Ydelta)
    (chain : ChainReader) :
    (BankRegistry.discoverFromMarkets sdk marginfiProgram y chain).Spec fun t r =>
      (∀ e ∈ t, ¬ e.call.WritesBanks) ∧
        ∀ fresh, r = .ok fresh → fresh.isEmpty = false → SeesMarket y t := by
  have hrefresh : ∀ msg, (withContext msg (chain.refreshMarkets y)).Spec fun t r =>
      (∀ e ∈ t, ¬ e.call.WritesBanks) ∧
        ∀ markets, r = .ok markets → markets ≠ [] → SeesMarket y t := fun msg =>
    Fallible.spec_mapError (refreshMarkets_spec chain y) (fun _ _ h => h)
      fun _ _ h => ⟨h.1, nofun⟩
  refine Fallible.spec_bind (hrefresh _) (fun t e h => ⟨h.1, nofun⟩) fun t markets h => ?_
  refine (discover_spec sdk marginfiProgram markets).mono fun t' r h' => ⟨fun e he => ?_, ?_⟩
  · exact (List.mem_append.1 he).elim (h.1 e) (h'.1 e)
  · intro fresh hr hfresh
    obtain ⟨programId, filters, accounts, hmem, hrows⟩ :=
      h.2 markets rfl (h'.2 fresh hr hfresh)
    exact ⟨programId, filters, accounts, List.mem_append_left _ hmem, hrows⟩

/-- A refresh that writes the registry saw a market, merges, and fails only if the merge did. -/
theorem refreshBanks_spec (cfg : Config) (sdk : Sdk) (y : Ydelta) :
    (cfg.refreshBanks sdk y).Spec fun t r => ∀ e ∈ t, e.call.WritesBanks → SeesMarket y t ∧
      ∃ fresh merged, e = ⟨.process (.banksMerge fresh), merged⟩ ∧
        (merged = true → r = .ok ()) := by
  refine Fallible.spec_bind (discoverFromMarkets_spec sdk _ y _)
    (fun t e h e' he' hw => absurd hw (h.1 e' he')) fun t fresh h => ?_
  refine Fallible.spec_ite (fun _ => Fallible.spec_pure ?_) fun hfresh => ?_
  · rw [List.append_nil]
    exact fun e he hw => absurd hw (h.1 e he)
  have hsees : ∀ t', SeesMarket y (t ++ t') := fun t' =>
    let ⟨programId, filters, accounts, hmem, hrows⟩ := h.2 fresh rfl (by simpa using hfresh)
    ⟨programId, filters, accounts, List.mem_append_left _ hmem, hrows⟩
  refine Fallible.spec_query_bind fun merged => ?_
  refine Fallible.spec_ite (fun _ => Fallible.spec_pure ?_) fun hmerged => Fallible.spec_throw ?_
  all_goals
    intro e he hw
    rcases List.mem_append.1 he with he | he
    · exact absurd hw (h.1 e he)
    cases List.mem_singleton.1 he
  · exact ⟨hsees _, fresh, merged, rfl, fun _ => rfl⟩
  · exact ⟨hsees _, fresh, merged, rfl, fun h => absurd h hmerged⟩

section Rely

variable {s s' : Memory}

/-- Nobody else writes the registry. -/
theorem banks_of_ticks (h : ((Memory.env y).rely fun s s' => s'.banks = s.banks).Ticks s s') :
    s'.banks = s.banks :=
  h.invariant (P := fun x => x.banks = s.banks) rfl fun _ _ hs ht => ht.trans hs

/-- Calls that do not write the registry leave it as it was. -/
theorem banks_of_calls {T : List (Memory × Service.Event)}
    (hT : ((Memory.env y).rely fun s s' => s'.banks = s.banks).Timeline s T s')
    (hcalls : ∀ e ∈ T.map Prod.snd, ¬ e.call.WritesBanks) : s'.banks = s.banks := by
  refine hT.invariant (P := fun x => x.banks = s.banks) rfl (fun _ _ hs ht => ht.trans hs) ?_
  rintro s₁ e _ hs₁ ⟨-, rfl⟩ hmem
  rw [← hs₁]
  exact s₁.banks_after (hcalls e (List.mem_map_of_mem hmem))

end Rely

/-- While nobody else writes the registry, a refresh that fails or sees no market leaves it as it
was. -/
theorem refreshBanks_unchanged (cfg : Config) (sdk : Sdk) {s s' : Memory}
    {T : List (Memory × Service.Event)} {r : Except Failure Unit}
    (hT : ((Memory.env y).rely fun s s' => s'.banks = s.banks).Timeline s T s')
    (hrun : (cfg.refreshBanks sdk y).run.Runs (T.map Prod.snd) r)
    (h : r ≠ .ok () ∨ ¬ SeesMarket y (T.map Prod.snd)) : s'.banks = s.banks := by
  have hspec := refreshBanks_spec cfg sdk y _ r hrun
  refine banks_of_calls hT fun e he hw => ?_
  obtain ⟨hsees, fresh, merged, rfl, hok⟩ := hspec e he hw
  obtain ⟨⟨s₁, e⟩, hx, rfl⟩ := List.mem_map.1 he
  obtain ⟨s₂, hallow, -⟩ := hT.answered hx
  exact h.elim (fun h => h (hok hallow)) fun h => h hsees

/-- **The registry is stable.**  In every run of the process, after the boot: from one moment to any
later one the registry keeps all its entries unchanged; every entry passed the checks of
discovery; and a refresh that fails or sees no market leaves the registry as it was. -/
theorem ProcessRun.registry_stable (run : ProcessRun cfg sdk y signers) :
    run.states.Pairwise (fun s s' => s.banks.Extends s'.banks) ∧
    (∀ s ∈ run.states, s.banks.WellFormed) ∧
    ∀ s s' T r, ((Memory.env y).rely fun s s' => s'.banks = s.banks).Timeline s T s' →
      (cfg.refreshBanks sdk y).run.Runs (T.map Prod.snd) r →
      r ≠ .ok () ∨ ¬ SeesMarket y (T.map Prod.snd) → s'.banks = s.banks := by
  refine ⟨?_, ?_, fun s s' T r => refreshBanks_unchanged cfg sdk⟩
  · have hcalls : ∀ x ∈ run.events.map Prod.snd, ∀ fresh,
        x.2.call ≠ .process (.banksSet fresh) := by
      intro x hx fresh hcall
      obtain ⟨x', hx', rfl⟩ := List.mem_map.1 hx
      have hpromise := (run.sound.2 x' hx').2
      rw [hcall] at hpromise
      exact hpromise.1
    have h := pairwise_extends run.interleaving.timeline hcalls
    rwa [List.map_map] at h
  · intro s hs
    rcases List.mem_append.1 hs with hs | hs
    · rcases List.mem_cons.1 hs with rfl | hs
      · exact run.toLaunch.sound.wellFormed
      · obtain ⟨x, hx, rfl⟩ := List.mem_map.1 hs
        exact (run.sound.2 x hx).1.wellFormed
    · cases List.mem_singleton.1 hs
      exact run.sound.1.wellFormed

end YdeltaCrankers
