import YdeltaCrankers.Liquidation.Amounts

/-!
# Which feeds the handlers refresh

Three of the instructions take the oracles of both banks of a market: the two that close a loan, and
the match crank.  Before each of them a handler asks the Switchboard gateways for an update.  The
match cranker asks for the feed of every bank that is refreshed this way; the liquidator asks for
that of the collateral only.

**Main theorem**: `feeds_requested`.
-/

namespace YdeltaCrankers

open Interaction

/-! ### Requests -/

/-- The feeds that a call asks a gateway to update. -/
def requestOf : ServiceCall → Option (List Pubkey)
  | .process (.fetchUpdateConsensusIx _ feeds _) => some feeds
  | _ => none

/-- The requests of a run. -/
def requests (t : Service.Trace) : List (List Pubkey) := t.filterMap fun e => requestOf e.call

theorem mem_requests {t : Service.Trace} {feeds : List Pubkey} :
    feeds ∈ requests t ↔ ∃ e ∈ t, requestOf e.call = some feeds :=
  List.mem_filterMap

theorem requests_append (t t' : Service.Trace) :
    requests (t ++ t') = requests t ++ requests t' :=
  List.filterMap_append

/-- All requests of the run are for these feeds, and there is one unless there are none to make. -/
def RequestsOnly (feeds : List Pubkey) (t : Service.Trace) : Prop :=
  (∀ request ∈ requests t, request = feeds) ∧ (requests t = [] ↔ feeds = [])

/-- Some gateway is asked for these feeds. -/
abbrev Requests {α : Type} (feeds : List Pubkey) (x : Async Service α) : Prop :=
  x.Spec fun t _ => feeds ∈ requests t

section Requests

variable {α β : Type} {feeds : List Pubkey} {x : Async Service α}

theorem Requests.bind (h : Requests feeds x) (f : α → Async Service β) :
    Requests feeds (x >>= f) := by
  refine Fallible.spec_bind h (fun _ _ ht => ht) fun t a ht => ?_
  intro t' r _
  rw [requests_append]
  exact List.mem_append_left _ ht

theorem Requests.attempt {recover : Failure → Option Error} (h : Requests feeds x) :
    Requests feeds (x.attempt recover) :=
  Fallible.spec_attempt h (fun _ _ ht => ht) (fun _ _ _ ht _ => ht) fun _ _ ht _ => ht

/-- The first gateway is always asked. -/
theorem requests_fetchUpdateIxs {cranker : SwbCranker} (hgateways : cranker.gateways ≠ [])
    (hfeeds : feeds ≠ []) : Requests feeds (cranker.fetchUpdateIxs feeds) := by
  obtain ⟨gateway, rest, hcons⟩ := List.exists_cons_of_ne_nil hgateways
  have hvia : Requests feeds (cranker.fetchUpdateVia feeds gateway) := by
    refine Fallible.spec_query_bind fun r t _ _ => ?_
    exact List.mem_cons_self
  unfold SwbCranker.fetchUpdateIxs
  rw [if_neg (by simpa using hfeeds), hcons]
  exact hvia.attempt.bind _

end Requests

/-- The run reads the registry and finds these two banks in it. -/
def ReadsPair (market : MarketView) (debtBank collateralBank : BankInfo) (t : Service.Trace) :
    Prop :=
  ∃ t₀ t₁ banks, t = t₀ ++ t₁ ∧ Config.banksSnapshot.run.Runs t₀ (.ok banks) ∧
    bankPair banks market.debtMint market.collateralMint = .ok (debtBank, collateralBank)

/-- Reading the registry asks for nothing, so that what comes after decides. -/
theorem requestsOnly_of_readsPair {α : Type} {market : MarketView}
    {debtBank collateralBank : BankInfo} {feeds : List Pubkey}
    {f : BankInfo → BankInfo → Async Service α} {t : Service.Trace} {r : Except Failure α}
    (hrun : (do
      let banks ← Config.banksSnapshot
      let (debtBank, collateralBank) ←
        liftError (bankPair banks market.debtMint market.collateralMint)
      f debtBank collateralBank : Async Service α).run.Runs t r)
    (hpair : ReadsPair market debtBank collateralBank t)
    (hmakes : (f debtBank collateralBank).Makes fun c =>
      ∀ request, requestOf c = some request → request = feeds ∧ feeds ≠ [])
    (hasks : feeds ≠ [] → Requests feeds (f debtBank collateralBank)) : RequestsOnly feeds t := by
  obtain ⟨t₀, t₁, banks, rfl, hbanks, hok⟩ := hpair
  -- the registry is read from memory
  have hnone : requests t₀ = [] := by
    refine List.filterMap_eq_nil_iff.2 fun e he => ?_
    exact makes_banksSnapshot (G := fun c => requestOf c = none) rfl _ _ hbanks e he
  have hrest := Fallible.runs_of_bind hrun hbanks
  rw [hok] at hrest
  have hall : ∀ request ∈ requests t₁, request = feeds ∧ feeds ≠ [] := by
    intro request hmem
    obtain ⟨e, he, hrequest⟩ := mem_requests.1 hmem
    exact hmakes t₁ r hrest e he request hrequest
  rw [RequestsOnly, requests_append, hnone, List.nil_append]
  -- the crank is asked for once there is a feed, and for nothing else
  refine ⟨fun request hmem => (hall request hmem).1, fun hnil => ?_, fun hnil => ?_⟩
  · by_contra hfeeds
    have hmem : feeds ∈ requests t₁ := hasks hfeeds t₁ r hrest
    rw [hnil] at hmem
    exact absurd hmem List.not_mem_nil
  · refine List.eq_nil_iff_forall_not_mem.2 fun request hmem => ?_
    exact (hall request hmem).2 hnil

/-! ### The handlers -/

section Handlers

variable {ctx : HandlerContext} {cranker : SwbCranker} {market : MarketView} {loan : LoanView}
  {debtBank collateralBank : BankInfo} {t : Service.Trace} {r : Except Failure Bool}

theorem LiquidatorHandler.asks_fetchSwbBundle (hcranker : ctx.swbCranker = some cranker)
    (hgateways : cranker.gateways ≠ []) (hfeeds : collateralFeeds collateralBank ≠ []) :
    Requests (collateralFeeds collateralBank) (fetchSwbBundle ctx collateralBank) := by
  unfold fetchSwbBundle
  split
  · rename_i hpush
    rw [Bool.not_eq_true'] at hpush
    simp only [collateralFeeds, hpush] at hfeeds
    exact absurd rfl hfeeds
  rename_i hpull
  rw [Bool.not_eq_true, Bool.not_eq_false'] at hpull
  simp only [collateralFeeds, hpull, if_true, hcranker] at hfeeds ⊢
  exact (requests_fetchUpdateIxs hgateways hfeeds).attempt.bind _

theorem MatchCrankerHandler.asks_fetchSwbBundle (hcranker : ctx.swbCranker = some cranker)
    (hgateways : cranker.gateways ≠ []) (hfeeds : pullFeeds debtBank collateralBank ≠ []) :
    Requests (pullFeeds debtBank collateralBank)
      (fetchSwbBundle ctx debtBank collateralBank) := by
  simp only [fetchSwbBundle, hcranker]
  rw [if_neg (by simpa using hfeeds)]
  exact (requests_fetchUpdateIxs hgateways hfeeds).attempt.bind _

theorem LiquidatorHandler.requests_tryClose {closing : Closing}
    (hcranker : ctx.swbCranker = some cranker) (hgateways : cranker.gateways ≠ [])
    (hrun : (tryClose ctx market loan closing).run.Runs t r)
    (hpair : ReadsPair market debtBank collateralBank t) :
    RequestsOnly (collateralFeeds collateralBank) t := by
  unfold tryClose at hrun
  refine requestsOnly_of_readsPair hrun hpair ?_ fun hfeeds => ?_
  · refine makes_closeWith ctx (fun hfeeds gateway payer request hrequest => ?_)
      (fun _ _ => nofun) (fun _ => nofun) (fun _ _ _ => nofun) fun _ _ => nofun
    exact ⟨(Option.some.inj hrequest).symm, hfeeds⟩
  · exact (asks_fetchSwbBundle hcranker hgateways hfeeds).bind _

theorem MatchCrankerHandler.requests_crankOne
    (hcranker : ctx.swbCranker = some cranker) (hgateways : cranker.gateways ≠ [])
    (hrun : (crankOne ctx market).run.Runs t r)
    (hpair : ReadsPair market debtBank collateralBank t) :
    RequestsOnly (pullFeeds debtBank collateralBank) t := by
  unfold crankOne at hrun
  refine requestsOnly_of_readsPair hrun hpair ?_ fun hfeeds => ?_
  · refine makes_crankWith ctx (fun hfeeds gateway payer request hrequest => ?_)
      (fun _ _ => nofun) fun _ _ => nofun
    exact ⟨(Option.some.inj hrequest).symm, hfeeds⟩
  · exact (asks_fetchSwbBundle hcranker hgateways hfeeds).bind _

end Handlers

/-! ### The feeds of a pair of banks -/

section Pair

open LiquidatorHandler MatchCrankerHandler

variable {debtBank collateralBank : BankInfo}

theorem mem_collateralFeeds {feed : Pubkey} : feed ∈ collateralFeeds collateralBank ↔
    collateralBank.isSwitchboardPull = true ∧ feed = collateralBank.primaryOracle := by
  unfold collateralFeeds
  split <;> simp_all

theorem mem_pullFeeds {feed : Pubkey} : feed ∈ pullFeeds debtBank collateralBank ↔
    (debtBank.isSwitchboardPull = true ∧ feed = debtBank.primaryOracle) ∨
      (collateralBank.isSwitchboardPull = true ∧ feed = collateralBank.primaryOracle) := by
  rw [pullFeeds, List.mem_append, ← collateralFeeds, ← collateralFeeds, mem_collateralFeeds,
    mem_collateralFeeds]

theorem nodup_collateralFeeds : (collateralFeeds collateralBank).Nodup := by
  unfold collateralFeeds
  split
  · exact List.nodup_singleton _
  · exact List.nodup_nil

theorem nodup_pullFeeds (hne : debtBank.isSwitchboardPull = true →
    collateralBank.isSwitchboardPull = true →
      debtBank.primaryOracle ≠ collateralBank.primaryOracle) :
    (pullFeeds debtBank collateralBank).Nodup := by
  refine List.Nodup.append nodup_collateralFeeds nodup_collateralFeeds ?_
  intro feed hdebt hcollateral
  obtain ⟨hpull, hfeed⟩ := mem_collateralFeeds.1 hdebt
  obtain ⟨hpull', hfeed'⟩ := mem_collateralFeeds.1 hcollateral
  exact hne hpull hpull' (hfeed.symm.trans hfeed')

/-- The liquidator asks for as much as the match cranker does unless the debt bank has a pull feed
of its own. -/
theorem same_feeds_iff :
    (∀ feed, feed ∈ collateralFeeds collateralBank ↔ feed ∈ pullFeeds debtBank collateralBank) ↔
      (debtBank.isSwitchboardPull = true → collateralBank.isSwitchboardPull = true ∧
        debtBank.primaryOracle = collateralBank.primaryOracle) := by
  simp only [mem_collateralFeeds, mem_pullFeeds]
  constructor
  · intro hsame hdebt
    exact (hsame debtBank.primaryOracle).2 (.inl ⟨hdebt, rfl⟩)
  · intro hdebt feed
    refine ⟨.inr, fun h => ?_⟩
    rcases h with ⟨hpull, rfl⟩ | hcollateral
    · exact hdebt hpull
    · exact hcollateral

end Pair

/-! ### Agreement -/

open LiquidatorHandler MatchCrankerHandler

/-- An attempt of the liquidator at a loan, by either path. -/
def Attempts (ctx : HandlerContext) (market : MarketView) (loan : LoanView) (t : Service.Trace)
    (r : Except Failure Bool) : Prop :=
  (tryLiquidateLtv ctx market loan).run.Runs t r ∨ (trySettleMatured ctx market loan).run.Runs t r

/-- **Which feeds are requested.**  The liquidator asks for the primary oracle of the collateral
bank if that is a pull feed, and the match cranker for those of both banks.  They ask for the same
feeds unless the debt bank has a pull feed of its own. -/
theorem feeds_requested {ctx : HandlerContext} {cranker : SwbCranker}
    (hcranker : ctx.swbCranker = some cranker) (hgateways : cranker.gateways ≠ [])
    (market : MarketView) (loan : LoanView) (debtBank collateralBank : BankInfo) :
    (∀ t r, ReadsPair market debtBank collateralBank t → Attempts ctx market loan t r →
      RequestsOnly (collateralFeeds collateralBank) t) ∧
    (∀ t r, ReadsPair market debtBank collateralBank t → (crankOne ctx market).run.Runs t r →
      RequestsOnly (pullFeeds debtBank collateralBank) t) ∧
    (collateralFeeds collateralBank).Nodup ∧
    (∀ feed, feed ∈ collateralFeeds collateralBank ↔
      collateralBank.isSwitchboardPull = true ∧ feed = collateralBank.primaryOracle) ∧
    ((debtBank.isSwitchboardPull = true → collateralBank.isSwitchboardPull = true →
      debtBank.primaryOracle ≠ collateralBank.primaryOracle) →
        (pullFeeds debtBank collateralBank).Nodup) ∧
    (∀ feed, feed ∈ pullFeeds debtBank collateralBank ↔
      ∃ bank ∈ [debtBank, collateralBank],
        bank.isSwitchboardPull = true ∧ feed = bank.primaryOracle) ∧
    ((∀ feed, feed ∈ collateralFeeds collateralBank ↔
        feed ∈ pullFeeds debtBank collateralBank) ↔
      (debtBank.isSwitchboardPull = true → collateralBank.isSwitchboardPull = true ∧
        debtBank.primaryOracle = collateralBank.primaryOracle)) := by
  refine ⟨fun t r hpair hruns => ?_, fun t r hpair hruns => ?_, nodup_collateralFeeds,
    fun feed => mem_collateralFeeds, nodup_pullFeeds, fun feed => ?_, same_feeds_iff⟩
  · rcases hruns with hruns | hruns
    · exact requests_tryClose hcranker hgateways hruns hpair
    · exact requests_tryClose hcranker hgateways hruns hpair
  · exact requests_crankOne hcranker hgateways hruns hpair
  · rw [mem_pullFeeds]
    simp only [List.mem_cons, List.not_mem_nil, or_false, exists_eq_or_imp, exists_eq_left]

/-! ### A feed left out -/

/-- The feeds asked for are those of the pull banks of the pair, each once. -/
def CoversPair (debtBank collateralBank : BankInfo) (t : Service.Trace) : Prop :=
  ∃ feeds, RequestsOnly feeds t ∧ feeds.Nodup ∧ ∀ feed, feed ∈ feeds ↔
    ∃ bank ∈ [debtBank, collateralBank], bank.isSwitchboardPull = true ∧ feed = bank.primaryOracle

/-- Every run of either handler covers the pair of banks that it reads. -/
def FeedsCovered (ctx : HandlerContext) (market : MarketView) (loan : LoanView)
    (debtBank collateralBank : BankInfo) : Prop :=
  ∀ t r, ReadsPair market debtBank collateralBank t →
    Attempts ctx market loan t r ∨ (crankOne ctx market).run.Runs t r →
      CoversPair debtBank collateralBank t

/-- A bank with this Switchboard feed. -/
def samplePullBank (mint bank oracle : UInt8) : BankInfo :=
  { sampleBank mint bank with
    oracles := [.fill 32 oracle], oracleSetup := oracleSetupSwitchboardPull }

/-- The banks of the two mints of `sampleMarket`, with these feeds. -/
def samplePullBanks (debtOracle collateralOracle : UInt8) : BankRegistry :=
  ⟨((∅ : HashMap Pubkey BankInfo).insert (.fill 32 2) (samplePullBank 2 12 collateralOracle)).insert
    (.fill 32 1) (samplePullBank 1 11 debtOracle)⟩

/-- A cranker with one gateway. -/
def sampleSwbContext : HandlerContext :=
  { sampleHandlerContext with swbCranker := some ⟨[⟨"gateway"⟩], .fill 32 50⟩ }

/-- An attempt to liquidate when the two banks have feeds of their own. -/
def sampleAttempt : Service.Trace × Except Failure Bool :=
  (tryLiquidateLtv sampleSwbContext sampleMarket (sampleLoan 0 1000 1100)).run.answered
    (sampleReply [] (samplePullBanks 71 72))

/-- A crank when the two banks share a feed. -/
def sampleCrank : Service.Trace × Except Failure Bool :=
  (crankOne sampleSwbContext sampleMarket).run.answered (sampleReply [] (samplePullBanks 71 71))

theorem runs_banksSnapshot (banks : BankRegistry) :
    Config.banksSnapshot.run.Runs [⟨.process .banksRead, some banks⟩] (.ok banks) :=
  ⟨some banks, [], rfl, rfl, rfl⟩

theorem sampleAttempt_attempts : Attempts sampleSwbContext sampleMarket (sampleLoan 0 1000 1100)
    sampleAttempt.1 sampleAttempt.2 := by
  unfold sampleAttempt
  exact .inl (Prog.runs_answered _ _)

theorem sampleAttempt_readsPair :
    ReadsPair sampleMarket (samplePullBank 1 11 71) (samplePullBank 2 12 72) sampleAttempt.1 :=
  ⟨_, sampleAttempt.1.tail, samplePullBanks 71 72, rfl, runs_banksSnapshot _, by rfl⟩

theorem sampleCrank_readsPair :
    ReadsPair sampleMarket (samplePullBank 1 11 71) (samplePullBank 2 12 71) sampleCrank.1 :=
  ⟨_, sampleCrank.1.tail, samplePullBanks 71 71, rfl, runs_banksSnapshot _, by rfl⟩

/-- The liquidator leaves out the feed of the debt bank, and the match cranker asks twice for a feed
that the banks share. -/
theorem not_feedsCovered :
    ¬ FeedsCovered sampleSwbContext sampleMarket (sampleLoan 0 1000 1100)
        (samplePullBank 1 11 71) (samplePullBank 2 12 72) ∧
      ¬ FeedsCovered sampleSwbContext sampleMarket (sampleLoan 0 1000 1100)
        (samplePullBank 1 11 71) (samplePullBank 2 12 71) := by
  constructor
  · intro hcovered
    obtain ⟨feeds, honly, -, hmem⟩ :=
      hcovered _ _ sampleAttempt_readsPair (.inl sampleAttempt_attempts)
    have hrequests : requests sampleAttempt.1 = [[.fill 32 72]] := by rfl
    have hfeeds : [.fill 32 72] = feeds :=
      honly.1 _ (hrequests ▸ List.mem_singleton_self _)
    have hdebt : (samplePullBank 1 11 71).primaryOracle ∈ feeds :=
      (hmem _).2 ⟨samplePullBank 1 11 71, List.mem_cons_self, by rfl, rfl⟩
    rw [← hfeeds] at hdebt
    revert hdebt
    decide
  · intro hcovered
    have hrun : (crankOne sampleSwbContext sampleMarket).run.Runs sampleCrank.1 sampleCrank.2 := by
      unfold sampleCrank
      exact Prog.runs_answered _ _
    obtain ⟨feeds, honly, hnodup, -⟩ := hcovered _ _ sampleCrank_readsPair (.inr hrun)
    have hrequests : requests sampleCrank.1 = [[.fill 32 71, .fill 32 71]] := by rfl
    have hfeeds : [.fill 32 71, .fill 32 71] = feeds :=
      honly.1 _ (hrequests ▸ List.mem_singleton_self _)
    rw [← hfeeds] at hnodup
    exact List.not_nodup_pair _ hnodup

theorem feeds_requested_sample : RequestsOnly [.fill 32 72] sampleAttempt.1 := by
  have honly := (@feeds_requested sampleSwbContext _ rfl (List.cons_ne_nil _ _) sampleMarket
    (sampleLoan 0 1000 1100) (samplePullBank 1 11 71) (samplePullBank 2 12 72)).1 _ _
      sampleAttempt_readsPair sampleAttempt_attempts
  exact honly

end YdeltaCrankers
