import YdeltaCrankers.Process.Conduct

/-!
# The handlers and the loops keep the promise

Every instruction a handler builds is for a market that was on its list and not paused, with banks
taken from a snapshot of the registry.  The loops are the handlers' supervisors and the loops that
feed them.
-/

namespace YdeltaCrankers

open Interaction

namespace Seen

variable {y : Ydelta} {mayOverwrite : Prop} {w : Seen} (ctx : HandlerContext)

/-- The end of the promoter and of the claimer. -/
theorem keeps_simulateAndSend {ix : Instruction} {payer : Pubkey} {ixLabel : String}
    (h : ∀ w', w ⊆ w' → SingleBanked w' → BanksAgree w' ix) :
    Keeps y mayOverwrite (fun _ _ => True)
      (do
        let sim ← Service.rpc (.simulate [ix] payer)
        if !sim.ok then return false
        else do
          let _sig ← Service.rpc (.sendSignedLabeled ixLabel [ix] [payer])
          return true) w := by
  refine (keeps_rpc (Q := fun _ _ => True) (fun w' hw' hs ix' hix => ?_)
    fun _ _ _ => trivial).bind fun sim w₁ hw₁ _ => ?_
  · cases hix
    exact h w' hw' hs
  split
  · exact keeps_pure fun _ _ => trivial
  refine (keeps_rpc (Q := fun _ _ => True) (fun w' hw' hs ix' hix => ?_)
    fun _ _ _ => trivial).bind fun sig _ _ _ => ?_
  · cases hix
    exact h w' (List.Subset.trans hw₁ hw') hs
  exact keeps_pure fun _ _ => trivial

/-! ### The promoter -/

theorem keeps_marketData (market : Pubkey) :
    Keeps y mayOverwrite (fun _ _ => True) (ChainReader.marketData market) w := by
  refine (keeps_getAccountData market).bind fun data _ _ _ => ?_
  cases data with
  | some data => exact keeps_pure fun _ _ => trivial
  | none => exact Env.ensures_throw _

theorem keeps_readPendingMatchedLoans (y' : Ydelta) (market : Pubkey) :
    Keeps y mayOverwrite (fun _ _ => True) (ChainReader.readPendingMatchedLoans y' market) w := by
  refine (keeps_marketData market).bind fun data _ _ _ => ?_
  refine (keeps_liftError (Q := fun _ _ => True) fun _ _ _ _ => trivial).bind fun _ _ _ _ => ?_
  simp only
  split <;> exact keeps_pure fun _ _ => trivial

theorem keeps_assembleVaultSettle (market : Pubkey) (entry : PendingMatchedLoan)
    (debtMint : Pubkey) (debtBank : BankInfo) :
    Keeps y mayOverwrite (fun _ _ => True)
      (PromoterHandler.assembleVaultSettle ctx market entry debtMint debtBank) w := by
  unfold PromoterHandler.assembleVaultSettle
  split
  · exact keeps_pure fun _ _ => trivial
  refine (keeps_getAccountData market).bind fun data _ _ _ => ?_
  cases data with
  | none => exact Env.ensures_throw _
  | some data =>
    refine (keeps_lift (Q := fun _ _ => True) fun _ _ _ _ => trivial).bind fun seat _ _ _ => ?_
    split
    · exact keeps_pure fun _ _ => trivial
    refine (keeps_liftError (Q := fun _ _ => True) fun _ _ _ _ => trivial).bind fun _ _ _ _ => ?_
    exact keeps_pure fun _ _ => trivial

theorem keeps_promoteOne {market : MarketView} (hm : market ∈ w) (hpaused : market.isPaused = false)
    (entry : PendingMatchedLoan) :
    Keeps y mayOverwrite (fun _ _ => True) (PromoterHandler.promoteOne ctx market entry) w := by
  refine keeps_banksSnapshot.bind fun banks w₁ hw₁ hbacked => ?_
  refine keeps_bankOf.bind fun debtBank w₂ hw₂ hdebt => ?_
  refine (keeps_assembleVaultSettle ctx _ _ _ _).bind fun vaultSettle w₃ hw₃ _ => ?_
  exact keeps_simulateAndSend fun w' hw' hs =>
    banksAgree_of_backed hbacked
      (List.Subset.trans hw₂ (List.Subset.trans hw₃ hw')) (hw₁ hm) hpaused hdebt none nofun rfl hs

theorem keeps_promoteEntries {market : MarketView} (hm : market ∈ w)
    (hpaused : market.isPaused = false) (entries : List PendingMatchedLoan) :
    Keeps y mayOverwrite (fun _ _ => True) (PromoterHandler.promoteEntries ctx market entries)
      w := by
  induction entries generalizing w with
  | nil => exact keeps_pure fun _ _ => trivial
  | cons entry entries ih =>
    refine (keeps_withInflight fun w' hw' => keeps_promoteOne ctx (hw' hm) hpaused entry).bind
      fun _ w₁ hw₁ _ => ?_
    exact ih (hw₁ hm)

theorem keeps_promoteMarkets {markets : List MarketView} (hm : markets ⊆ w) :
    Keeps y mayOverwrite (fun _ _ => True) (PromoterHandler.promoteMarkets ctx markets) w := by
  induction markets generalizing w with
  | nil => exact keeps_pure fun _ _ => trivial
  | cons market markets ih =>
    obtain ⟨hmarket, hmarkets⟩ := List.cons_subset.1 hm
    unfold PromoterHandler.promoteMarkets
    split
    · exact ih hmarkets
    rename_i hpaused
    refine (keeps_readPendingMatchedLoans ctx.y market.address).caught.bind fun r w₁ hw₁ _ => ?_
    cases r with
    | error e => exact ih (List.Subset.trans hmarkets hw₁)
    | ok pending =>
      refine (keeps_promoteEntries ctx (hw₁ hmarket) (by simpa using hpaused) pending).bind
        fun _ w₂ hw₂ _ => ?_
      exact ih (List.Subset.trans hmarkets (List.Subset.trans hw₁ hw₂))

/-! ### The claimer -/

theorem decodePendingClaims_market {market : MarketView} {data : List UInt8}
    {entry : PendingVaultClaim} (h : entry ∈ y.decodePendingClaims market data) :
    entry.market = market.address ∧ entry.debtMint = market.debtMint := by
  unfold Ydelta.decodePendingClaims at h
  split at h
  · cases h
  split at h
  · cases h
  obtain ⟨seat, -, hseat⟩ := List.mem_filterMap.1 h
  split at hseat
  · cases hseat
  split at hseat
  · cases hseat
  cases hseat
  exact ⟨rfl, rfl⟩

/-- Every seat to sweep is one of a market on the list that is not paused. -/
def ClaimsOf (markets : List MarketView) (claims : List PendingVaultClaim) : Prop :=
  ∀ entry ∈ claims, ∃ market ∈ markets, market.isPaused = false ∧
    entry.market = market.address ∧ entry.debtMint = market.debtMint

theorem keeps_listPendingVaultClaims (y' : Ydelta) (markets : List MarketView) :
    Keeps y mayOverwrite (fun claims _ => ClaimsOf markets claims)
      (ChainReader.listPendingVaultClaims y' markets) w := by
  induction markets generalizing w with
  | nil => exact keeps_pure fun _ _ => List.forall_mem_nil _
  | cons market rest ih =>
    have hrest : ∀ claims, ClaimsOf rest claims → ClaimsOf (market :: rest) claims :=
      fun claims h entry hentry => (h entry hentry).imp fun m hm =>
        ⟨List.mem_cons_of_mem _ hm.1, hm.2⟩
    unfold ChainReader.listPendingVaultClaims
    split
    · exact ih.mono fun claims _ _ h => hrest claims h
    rename_i hpaused
    refine (keeps_getAccountData market.address).bind fun data _ _ _ => ?_
    cases data with
    | none => exact ih.mono fun claims _ _ h => hrest claims h
    | some data =>
      refine ih.bind fun claims _ _ h => keeps_pure fun _ _ entry hentry => ?_
      rcases List.mem_append.1 hentry with hentry | hentry
      · exact ⟨market, List.mem_cons_self, by simpa using hpaused,
          decodePendingClaims_market hentry⟩
      · exact hrest claims h entry hentry

theorem keeps_sweepOne {markets : List MarketView} (hm : markets ⊆ w) {entry : PendingVaultClaim}
    (hentry : ∃ market ∈ markets, market.isPaused = false ∧ entry.market = market.address ∧
      entry.debtMint = market.debtMint) :
    Keeps y mayOverwrite (fun _ _ => True) (ClaimerHandler.sweepOne ctx entry) w := by
  obtain ⟨market, hmem, hpaused, haddress, hmint⟩ := hentry
  refine keeps_banksSnapshot.bind fun banks w₁ hw₁ hbacked => ?_
  refine keeps_bankOf.bind fun debtBank w₂ hw₂ hdebt => ?_
  rw [hmint] at hdebt
  refine keeps_simulateAndSend fun w' hw' hs => ?_
  refine banksAgree_of_backed hbacked (List.Subset.trans hw₂ hw')
    (hw₁ (hm hmem)) hpaused hdebt none nofun ?_ hs
  rw [← haddress]
  rfl

theorem keeps_sweepAll {markets : List MarketView} (hm : markets ⊆ w)
    {entries : List PendingVaultClaim} (h : ClaimsOf markets entries) :
    Keeps y mayOverwrite (fun _ _ => True) (ClaimerHandler.sweepAll ctx entries) w := by
  induction entries generalizing w with
  | nil => exact keeps_pure fun _ _ => trivial
  | cons entry entries ih =>
    refine (keeps_withInflight fun w' hw' => keeps_sweepOne ctx (List.Subset.trans hm hw')
      (h entry List.mem_cons_self)).bind fun _ w₁ hw₁ _ => ?_
    exact ih (List.Subset.trans hm hw₁) fun e he => h e (List.mem_cons_of_mem _ he)

theorem keeps_listSubVaults (chain : ChainReader) (y' : Ydelta) :
    Keeps y mayOverwrite (fun _ _ => True) (chain.listSubVaults y') w :=
  keeps_client_idle.bind fun _ _ _ _ => keeps_pure fun _ _ => trivial

theorem keeps_claimerTick (hy : ctx.y = y) :
    Keeps y mayOverwrite (fun _ _ => True) (ClaimerHandler.tick ctx) w := by
  refine (keeps_listSubVaults _ _).bind fun subVaults _ _ _ => ?_
  split
  · exact keeps_pure fun _ _ => trivial
  rw [hy]
  refine (keeps_listMarkets _).bind fun markets w₂ _ hmarkets => ?_
  split
  · exact keeps_pure fun _ _ => trivial
  refine (keeps_listPendingVaultClaims y markets).bind fun claims w₃ hw₃ hclaims => ?_
  exact keeps_sweepAll ctx (List.Subset.trans hmarkets hw₃)
    fun entry hentry => hclaims entry (List.mem_of_mem_filter hentry)

/-! ### The match cranker -/

/-- A v0 simulation or send of a bundle around an instruction whose banks agree. -/
theorem promise_of_built {c : RpcCall} {swbIxs : List Instruction} {ix : Instruction}
    (hc : c.built = (swbIxs ++ [ix]).getLast?) (h : SingleBanked w → BanksAgree w ix) :
    Promise mayOverwrite w (.rpc c) := by
  intro hs ix' hix
  rw [hc, List.getLast?_concat] at hix
  cases hix
  exact h hs

theorem keeps_matchFetchSwbBundle (debtBank collateralBank : BankInfo) :
    Keeps y mayOverwrite (fun _ _ => True)
      (MatchCrankerHandler.fetchSwbBundle ctx debtBank collateralBank) w := by
  unfold MatchCrankerHandler.fetchSwbBundle
  cases ctx.swbCranker with
  | none => exact keeps_pure fun _ _ => trivial
  | some cranker =>
    simp only
    split
    · exact keeps_pure fun _ _ => trivial
    · exact keeps_fetchBundle cranker _

theorem keeps_crankOne {market : MarketView} (hm : market ∈ w)
    (hpaused : market.isPaused = false) :
    Keeps y mayOverwrite (fun _ _ => True) (MatchCrankerHandler.crankOne ctx market) w := by
  refine keeps_banksSnapshot.bind fun banks w₁ hw₁ hbacked => ?_
  refine keeps_bankPair.bind fun ⟨debtBank, collateralBank⟩ w₂ hw₂ ⟨hdebt, hcollateral⟩ => ?_
  refine (keeps_matchFetchSwbBundle ctx debtBank collateralBank).bind
    fun ⟨swbIxs, swbLuts⟩ w₃ hw₃ _ => ?_
  have hagree : ∀ w' ix, w₃ ⊆ w' →
      ix.marketBanks = some (market.address, debtBank.bank, some collateralBank.bank) →
      SingleBanked w' → BanksAgree w' ix := fun w' ix hw' hix =>
    banksAgree_of_backed hbacked
      (List.Subset.trans hw₂ (List.Subset.trans hw₃ hw')) (hw₁ hm) hpaused hdebt
      (some collateralBank) (by rintro info ⟨⟩; exact hcollateral) hix
  refine (keeps_rpc (Q := fun _ _ => True) (fun w' hw' => promise_of_built rfl
    (hagree w' _ hw' rfl)) fun _ _ _ => trivial).bind fun sim w₄ hw₄ _ => ?_
  split
  · exact keeps_pure fun _ _ => trivial
  split
  · exact keeps_pure fun _ _ => trivial
  refine (keeps_rpc (Q := fun _ _ => True) (fun w' hw' => promise_of_built rfl
    (hagree w' _ (List.Subset.trans hw₄ hw') rfl)) fun _ _ _ => trivial).bind fun sig _ _ _ => ?_
  exact keeps_pure fun _ _ => trivial

theorem keeps_marketIsRateCrossed (y' : Ydelta) (market : Pubkey) :
    Keeps y mayOverwrite (fun _ _ => True) (ChainReader.marketIsRateCrossed y' market) w := by
  refine (keeps_marketData market).bind fun data _ _ _ => ?_
  refine (keeps_liftError (Q := fun _ _ => True) fun _ _ _ _ => trivial).bind
    fun ⟨fixed, dyn⟩ _ _ _ => ?_
  simp only
  split
  · exact keeps_pure fun _ _ => trivial
  split
  · exact keeps_pure fun _ _ => trivial
  · exact Env.ensures_throw _

theorem keeps_matchScanMarket {market : MarketView} (hm : market ∈ w)
    (hpaused : market.isPaused = false) :
    Keeps y mayOverwrite (fun _ _ => True) (MatchCrankerHandler.scanMarket ctx market) w := by
  refine (keeps_marketIsRateCrossed ctx.y market.address).bind fun crossed w₁ hw₁ _ => ?_
  split
  · refine (keeps_withInflight fun w' hw' =>
      keeps_crankOne ctx (hw' (hw₁ hm)) hpaused).bind fun res _ _ _ => ?_
    cases res with
    | ok cranked => exact keeps_pure fun _ _ => trivial
    | error e => exact Env.ensures_throw _
  · exact keeps_pure fun _ _ => trivial

theorem keeps_matchScanMarkets {markets : List MarketView} (hm : markets ⊆ w) :
    Keeps y mayOverwrite (fun _ _ => True) (MatchCrankerHandler.scanMarkets ctx markets) w := by
  induction markets generalizing w with
  | nil => exact keeps_pure fun _ _ => trivial
  | cons market markets ih =>
    obtain ⟨hmarket, hmarkets⟩ := List.cons_subset.1 hm
    unfold MatchCrankerHandler.scanMarkets
    split
    · exact ih hmarkets
    rename_i hpaused
    refine (keeps_matchScanMarket ctx hmarket (by simpa using hpaused)).caught.bind
      fun _ w₁ hw₁ _ => ?_
    exact ih (List.Subset.trans hmarkets hw₁)

/-! ### The liquidator -/

theorem keeps_liquidatorFetchSwbBundle (collateralBank : BankInfo) :
    Keeps y mayOverwrite (fun _ _ => True)
      (LiquidatorHandler.fetchSwbBundle ctx collateralBank) w := by
  unfold LiquidatorHandler.fetchSwbBundle
  split
  · exact keeps_pure fun _ _ => trivial
  cases ctx.swbCranker with
  | none => exact keeps_pure fun _ _ => trivial
  | some cranker => exact keeps_fetchBundle cranker _

theorem keeps_pickRepayAmount (ata : Pubkey) (loan : LoanView) :
    Keeps y mayOverwrite (fun _ _ => True) (LiquidatorHandler.pickRepayAmount ctx ata loan) w := by
  refine (keeps_getAccountData ata).bind fun data _ _ _ => ?_
  cases data with
  | none => exact keeps_pure fun _ _ => trivial
  | some acct =>
    simp only
    split
    · exact Env.ensures_throw _
    · exact keeps_pure fun _ _ => trivial

theorem keeps_tryClose {market : MarketView} (hm : market ∈ w) (hpaused : market.isPaused = false)
    (loan : LoanView) {closing : LiquidatorHandler.Closing}
    (hcheck : ∀ debtBank collateralBank, ∃ c : Option BankInfo,
      (∀ info ∈ c, info = collateralBank) ∧
      (closing.check debtBank collateralBank).marketBanks =
        some (market.address, debtBank.bank, c.map BankInfo.bank))
    (hbuild : ∀ args, (closing.build args).marketBanks =
      some (args.market, args.debtBank, some args.collateralBank)) :
    Keeps y mayOverwrite (fun _ _ => True) (LiquidatorHandler.tryClose ctx market loan closing)
      w := by
  refine keeps_banksSnapshot.bind fun banks w₁ hw₁ hbacked => ?_
  refine keeps_bankPair.bind fun ⟨debtBank, collateralBank⟩ w₂ hw₂ ⟨hdebt, hcollateral⟩ => ?_
  refine (keeps_liquidatorFetchSwbBundle ctx collateralBank).bind
    fun ⟨swbIxs, swbLuts⟩ w₃ hw₃ _ => ?_
  -- every instruction of the attempt names banks of this one snapshot
  have hagree : ∀ w' ix (c : Option BankInfo), w₃ ⊆ w' → (∀ info ∈ c, info = collateralBank) →
      ix.marketBanks = some (market.address, debtBank.bank, c.map BankInfo.bank) →
      SingleBanked w' → BanksAgree w' ix := fun w' ix c hw' hc hix =>
    banksAgree_of_backed hbacked (List.Subset.trans hw₂ (List.Subset.trans hw₃ hw')) (hw₁ hm)
      hpaused hdebt c (fun info hinfo => hc info hinfo ▸ hcollateral) hix
  obtain ⟨c, hc, hcheck⟩ := hcheck debtBank collateralBank
  refine (keeps_rpc (Q := fun _ _ => True) (fun w' hw' => promise_of_built rfl
    (hagree w' _ c hw' hc hcheck)) fun _ _ _ => trivial).bind fun sim w₄ hw₄ _ => ?_
  split
  · exact keeps_pure fun _ _ => trivial
  split
  · exact keeps_pure fun _ _ => trivial
  refine (keeps_pickRepayAmount ctx _ loan).bind fun amount w₅ hw₅ _ => ?_
  cases amount with
  | none => exact keeps_pure fun _ _ => trivial
  | some repayAtomsMax =>
    have hix := hbuild (LiquidatorHandler.closeLoan ctx market loan debtBank collateralBank
      repayAtomsMax)
    have hw₃₅ := List.Subset.trans hw₄ hw₅
    have hc' : ∀ info ∈ some collateralBank, info = collateralBank := by rintro info ⟨⟩; rfl
    refine (keeps_rpc (Q := fun _ _ => True) (fun w' hw' => promise_of_built rfl
      (hagree w' _ (some collateralBank) (List.Subset.trans hw₃₅ hw') hc' hix))
      fun _ _ _ => trivial).bind fun confirm w₆ hw₆ _ => ?_
    split
    · exact keeps_pure fun _ _ => trivial
    refine (keeps_rpc (Q := fun _ _ => True) (fun w' hw' => promise_of_built rfl
      (hagree w' _ (some collateralBank)
        (List.Subset.trans hw₃₅ (List.Subset.trans hw₆ hw')) hc' hix))
      fun _ _ _ => trivial).bind fun sig _ _ _ => ?_
    exact keeps_pure fun _ _ => trivial

theorem keeps_trySettleMatured {market : MarketView} (hm : market ∈ w)
    (hpaused : market.isPaused = false) (loan : LoanView) :
    Keeps y mayOverwrite (fun _ _ => True) (LiquidatorHandler.trySettleMatured ctx market loan)
      w :=
  keeps_tryClose ctx hm hpaused loan (fun _ _ => ⟨none, nofun, rfl⟩) fun _ => rfl

theorem keeps_tryLiquidateLtv {market : MarketView} (hm : market ∈ w)
    (hpaused : market.isPaused = false) (loan : LoanView) :
    Keeps y mayOverwrite (fun _ _ => True) (LiquidatorHandler.tryLiquidateLtv ctx market loan)
      w :=
  keeps_tryClose ctx hm hpaused loan
    (fun _ collateralBank => ⟨some collateralBank, by rintro info ⟨⟩; rfl, rfl⟩) fun _ => rfl

theorem keeps_trySettleOrLiquidate {market : MarketView} (hm : market ∈ w)
    (hpaused : market.isPaused = false) (loan : LoanView) (matured maybeLtvBreach : Bool) :
    Keeps y mayOverwrite (fun _ _ => True)
      (LiquidatorHandler.trySettleOrLiquidate ctx market loan matured maybeLtvBreach) w := by
  unfold LiquidatorHandler.trySettleOrLiquidate
  split
  · refine (keeps_tryLiquidateLtv ctx hm hpaused loan).bind fun liquidated w₁ hw₁ _ => ?_
    split
    · exact keeps_pure fun _ _ => trivial
    split
    · exact keeps_trySettleMatured ctx (hw₁ hm) hpaused loan
    · exact keeps_pure fun _ _ => trivial
  split
  · exact keeps_trySettleMatured ctx hm hpaused loan
  · exact keeps_pure fun _ _ => trivial

theorem keeps_scanLoan {market : MarketView} (hm : market ∈ w) (hpaused : market.isPaused = false)
    (tNow : Int64) (loan : LoanView) :
    Keeps y mayOverwrite (fun _ _ => True) (LiquidatorHandler.scanLoan ctx market tNow loan) w := by
  unfold LiquidatorHandler.scanLoan
  split
  · exact keeps_pure fun _ _ => trivial
  simp only
  split
  · exact keeps_pure fun _ _ => trivial
  refine (keeps_withInflight fun w' hw' =>
    keeps_trySettleOrLiquidate ctx (hw' hm) hpaused loan _ _).bind fun res _ _ _ => ?_
  cases res <;> exact keeps_pure fun _ _ => trivial

theorem keeps_scanLoans {market : MarketView} (hm : market ∈ w) (hpaused : market.isPaused = false)
    (tNow : Int64) (loans : List LoanView) :
    Keeps y mayOverwrite (fun _ _ => True) (LiquidatorHandler.scanLoans ctx market tNow loans)
      w := by
  induction loans generalizing w with
  | nil => exact keeps_pure fun _ _ => trivial
  | cons loan loans ih =>
    refine (keeps_scanLoan ctx hm hpaused tNow loan).bind fun submitted w₁ hw₁ _ => ?_
    refine (ih (hw₁ hm)).bind fun count _ _ _ => ?_
    exact keeps_pure fun _ _ => trivial

theorem keeps_scanMarket {market : MarketView} (hm : market ∈ w)
    (hpaused : market.isPaused = false) :
    Keeps y mayOverwrite (fun _ _ => True) (LiquidatorHandler.scanMarket ctx market) w := by
  refine (keeps_client_idle.bind fun _ _ _ _ => keeps_pure (Q := fun _ _ => True)
    fun _ _ => trivial).bind fun loans w₁ hw₁ _ => ?_
  refine (keeps_process_idle (c := .nowUnix) fun _ => trivial).bind fun tNow w₂ hw₂ _ => ?_
  exact keeps_scanLoans ctx (hw₂ (hw₁ hm)) hpaused tNow loans

theorem keeps_scanMarkets {markets : List MarketView} (hm : markets ⊆ w) :
    Keeps y mayOverwrite (fun _ _ => True) (LiquidatorHandler.scanMarkets ctx markets) w := by
  induction markets generalizing w with
  | nil => exact keeps_pure fun _ _ => trivial
  | cons market markets ih =>
    obtain ⟨hmarket, hmarkets⟩ := List.cons_subset.1 hm
    unfold LiquidatorHandler.scanMarkets
    split
    · exact ih hmarkets
    rename_i hpaused
    refine (keeps_scanMarket ctx hmarket (by simpa using hpaused)).caught.bind
      fun _ w₁ hw₁ _ => ?_
    exact ih (List.Subset.trans hmarkets hw₁)

/-! ### The curator fee claimer -/

theorem keeps_claimOne (subVault : SubVaultView) (banks : BankRegistry) (curatorPk : Pubkey) :
    Keeps y mayOverwrite (fun _ _ => True)
      (CuratorFeeClaimerHandler.claimOne ctx subVault banks curatorPk) w := by
  unfold CuratorFeeClaimerHandler.claimOne
  split
  · exact Env.ensures_throw _
  split
  · exact Env.ensures_throw _
  refine (keeps_rpc (Q := fun _ _ => True) (fun w' hw' hs ix hix => ?_)
    fun _ _ _ => trivial).bind fun sig _ _ _ => ?_
  · cases hix
    exact fun _ _ _ h => nomatch h
  exact keeps_pure fun _ _ => trivial

theorem keeps_claimAll (banks : BankRegistry) (subVaults : List SubVaultView) :
    Keeps y mayOverwrite (fun _ _ => True)
      (CuratorFeeClaimerHandler.claimAll ctx banks subVaults) w := by
  induction subVaults generalizing w with
  | nil => exact keeps_pure fun _ _ => trivial
  | cons subVault subVaults ih =>
    unfold CuratorFeeClaimerHandler.claimAll
    split
    · exact ih
    split
    · exact ih
    split
    · exact ih
    refine (keeps_withInflight fun w' _ => keeps_claimOne ctx subVault banks _).bind
      fun _ _ _ _ => ?_
    exact ih

theorem keeps_curatorTick :
    Keeps y mayOverwrite (fun _ _ => True) (CuratorFeeClaimerHandler.tick ctx) w := by
  unfold CuratorFeeClaimerHandler.tick
  split
  · exact keeps_pure fun _ _ => trivial
  refine (keeps_listSubVaults _ _).bind fun subVaults _ _ _ => ?_
  refine keeps_banksSnapshot.bind fun banks _ _ _ => ?_
  exact keeps_claimAll ctx banks subVaults

/-! ### The loops -/

theorem keeps_tick (hy : ctx.y = y) (handler : HandlerKind) :
    Keeps y mayOverwrite (fun _ _ => True) (handler.tick ctx) w := by
  have hmarkets : Keeps y mayOverwrite (fun markets w' => markets ⊆ w')
      (ctx.chain.listMarkets ctx.y) w := hy ▸ keeps_listMarkets _
  cases handler with
  | promoter => exact hmarkets.bind fun _ _ _ h => keeps_promoteMarkets ctx h
  | claimer => exact keeps_claimerTick ctx hy
  | liquidator => exact hmarkets.bind fun _ _ _ h => keeps_scanMarkets ctx h
  | curatorFeeClaimer => exact keeps_curatorTick ctx
  | matchCranker => exact hmarkets.bind fun _ _ _ h => keeps_matchScanMarkets ctx h

theorem keeps_supervise (hy : ctx.y = y) (handler : HandlerKind) :
    Keeps y mayOverwrite (fun _ _ => True) (handler.supervise ctx) w := by
  have hskip : Keeps y mayOverwrite (fun _ _ => True) handler.shouldSkipLowBalance w := by
    unfold HandlerKind.shouldSkipLowBalance
    split
    · exact keeps_process_idle (c := .feePayerLow) fun _ => trivial
    · exact keeps_pure fun _ _ => trivial
  refine hskip.bind fun low _ _ _ => ?_
  split
  · exact keeps_pure fun _ _ => trivial
  · exact (keeps_tick ctx hy handler).caught.bind fun _ _ _ _ => keeps_pure fun _ _ => trivial

theorem keeps_solBalanceLoop :
    Keeps y mayOverwrite (fun _ _ => True) (solBalanceLoop ctx) w := by
  refine keeps_client_idle.bind fun r _ _ _ => ?_
  cases r with
  | error e => exact keeps_pure fun _ _ => trivial
  | ok lamports =>
    refine (keeps_process_idle (c := .feePayerLow) fun _ => trivial).bind fun wasLow _ _ _ => ?_
    simp only
    split
    · exact keeps_process_idle fun _ => trivial
    · exact keeps_pure fun _ _ => trivial

theorem keeps_swbCrankLoop :
    Keeps y mayOverwrite (fun _ _ => True) (swbCrankLoop ctx) w := by
  unfold swbCrankLoop
  cases ctx.swbCranker with
  | none => exact keeps_pure fun _ _ => trivial
  | some cranker =>
    refine keeps_banksSnapshot.bind fun banks _ _ _ => ?_
    simp only
    split
    · exact keeps_pure fun _ _ => trivial
    · exact (keeps_crank cranker ctx.sdk _).caught.bind fun _ _ _ _ => keeps_pure fun _ _ => trivial

/-- Every iteration of every loop keeps the promise. -/
theorem task_keeps (hy : ctx.y = y) (task : Task) :
    Keeps y mayOverwrite (fun _ _ => True) (task.run ctx) w := by
  subst hy
  cases task with
  | supervise handler => exact keeps_supervise ctx rfl handler
  | solBalance => exact keeps_solBalanceLoop ctx
  | bankRefresh =>
    exact (keeps_refreshBanks ctx.cfg ctx.sdk).caught.bind fun _ _ _ _ =>
      keeps_pure fun _ _ => trivial
  | swbCrank => exact keeps_swbCrankLoop ctx
  | listMarkets =>
    exact (keeps_listMarkets ctx.chain).caught.bind fun _ _ _ _ => keeps_pure fun _ _ => trivial

theorem runTasks_keeps (hy : ctx.y = y) (tasks : List Task) :
    Keeps y mayOverwrite (fun _ _ => True) (runTasks ctx tasks) w := by
  induction tasks generalizing w with
  | nil => exact keeps_pure fun _ _ => trivial
  | cons task tasks ih => exact (task_keeps ctx hy task).bind fun _ _ _ _ => ih

/-! ### Booting -/

/-- The transaction that creates token accounts is about no market. -/
theorem keeps_ensureAtasFor (sdk : Sdk) (registry : BankRegistry) (feePayer : Pubkey) :
    Keeps y mayOverwrite (fun _ _ => True) (registry.ensureAtasFor sdk feePayer) w := by
  unfold BankRegistry.ensureAtasFor
  split
  · exact keeps_pure fun _ _ => trivial
  refine keeps_client_idle.bind fun existing _ _ _ => ?_
  refine (keeps_lift (Q := fun _ _ => True) fun _ _ _ _ => trivial).bind fun missing _ _ _ => ?_
  split
  · exact keeps_pure fun _ _ => trivial
  refine (keeps_rpc (Q := fun _ _ => True) (fun w' _ _ ix hix => ?_)
    fun _ _ _ => trivial).withContext.bind fun sig _ _ _ => keeps_pure fun _ _ => trivial
  obtain ⟨_, -, rfl⟩ := List.mem_map.1 (List.mem_of_getLast? hix)
  exact fun _ _ _ h => nomatch h

theorem keeps_ensureCuratorAtas (sdk : Sdk) (curators : List Pubkey) :
    Keeps y mayOverwrite (fun _ _ => True) (ensureCuratorAtas sdk curators) w := by
  induction curators generalizing w with
  | nil => exact keeps_pure fun _ _ => trivial
  | cons curator curators ih =>
    refine keeps_banksSnapshot.bind fun banks _ _ _ => ?_
    exact (keeps_ensureAtasFor sdk banks curator).caught.bind fun _ _ _ _ => ih

theorem keeps_bootSwbCranker (signers : Signers) (swbQueue : Pubkey) :
    Keeps y mayOverwrite (fun _ _ => True) (bootSwbCranker signers swbQueue) w := by
  refine keeps_banksSnapshot.bind fun banks _ _ _ => ?_
  split
  · have hnew : ∀ w', Keeps y mayOverwrite (fun _ _ => True)
        (SwbCranker.new swbQueue signers.feePayer) w' := by
      intro w'
      refine (keeps_process_idle (c := .fetchGateways swbQueue) fun _ => trivial).bind
        fun r _ _ _ => ?_
      cases r with
      | error e => exact Env.ensures_throw _
      | ok gateways =>
        simp only
        split
        · exact Env.ensures_throw _
        · exact keeps_pure fun _ _ => trivial
    refine (hnew _).caught.bind fun r _ _ _ => ?_
    cases r <;> exact keeps_pure fun _ _ => trivial
  · exact keeps_pure fun _ _ => trivial

/-- The boot keeps the promise, and overwrites the registry. -/
theorem boot_keeps (cfg : Config) (sdk : Sdk) (signers : Signers) (swbQueue : Pubkey) :
    Keeps y True (fun _ _ => True) (boot cfg sdk y signers swbQueue) w := by
  have hdiscover : Keeps y True (fun _ _ => True) (cfg.discoverBanksFromMarkets sdk y) w := by
    refine (keeps_discoverFromMarkets sdk _ _).bind fun fresh w₁ _ hfresh => ?_
    refine (keeps_process (c := .banksSet fresh) (Q := fun _ _ => True)
      (fun _ hw => ⟨trivial, hfresh.1, hfresh.2.mono hw⟩) fun _ _ _ _ _ _ => trivial).bind
        fun stored _ _ _ => ?_
    split
    · exact keeps_pure fun _ _ => trivial
    · exact Env.ensures_throw _
  refine hdiscover.withContext.bind fun _ _ _ _ => ?_
  refine keeps_banksSnapshot.bind fun banks _ _ _ => ?_
  refine (keeps_ensureAtasFor sdk banks signers.feePayer).withContext.bind fun _ _ _ _ => ?_
  refine (keeps_ensureCuratorAtas sdk signers.curators).bind fun _ _ _ _ => ?_
  refine keeps_client_idle.bind fun slot _ _ _ => ?_
  exact (keeps_bootSwbCranker signers swbQueue).bind fun _ _ _ _ => keeps_pure fun _ _ => trivial

end Seen

end YdeltaCrankers
