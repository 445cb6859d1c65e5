import YdeltaCrankers.Handlers.Claimer
import YdeltaCrankers.Handlers.Liquidator
import YdeltaCrankers.Handlers.MatchCranker
import YdeltaCrankers.Handlers.Promoter

/-!
# The parts of the handlers that only read

Before it sends, a handler takes a snapshot of the registry, asks the Switchboard gateways for a
bundle, reads accounts and simulates.  None of these calls sends a transaction or touches the
memory of the process.
-/

namespace YdeltaCrankers

open Interaction

/-- The call neither sends a transaction nor changes the memory of the process. -/
def ServiceCall.Reads : ServiceCall → Prop
  | .rpc (.sendSignedLabeled _ _ _) | .rpc (.sendSignedV0Labeled _ _ _ _) => False
  | .rpc _ => True
  | .client (.sendAndConfirmTransaction _) => False
  | .client _ => True
  | .process (.claimInflight _) | .process (.releaseInflight _) | .process (.banksSet _)
  | .process (.banksMerge _) | .process (.marketsCachePut _) | .process (.setFeePayerLow _) => False
  | .process _ => True

/-- The call stays inside the process or asks a gateway. -/
def ServiceCall.IsProcess : ServiceCall → Prop
  | .process _ => True
  | _ => False

/-- The call sends a transaction. -/
def ServiceCall.sends : ServiceCall → Bool
  | .rpc (.sendSignedLabeled _ _ _) | .rpc (.sendSignedV0Labeled _ _ _ _)
  | .client (.sendAndConfirmTransaction _) => true
  | _ => false

/-- The call sends a transaction. -/
abbrev ServiceCall.Sends (c : ServiceCall) : Prop := c.sends = true

theorem ServiceCall.Reads.not_sends {c : ServiceCall} (h : c.Reads) : ¬ c.Sends := by
  cases c with
  | rpc c => cases c <;> first | exact h.elim | exact Bool.false_ne_true
  | client c => cases c <;> first | exact h.elim | exact Bool.false_ne_true
  | process c => exact Bool.false_ne_true

/-- No call of the trace sends. -/
def Quiet (t : Service.Trace) : Prop := ∀ e ∈ t, ¬ e.call.Sends

theorem quiet_nil : Quiet [] := List.forall_mem_nil _

theorem quiet_of_reads {t : Service.Trace} (h : ∀ e ∈ t, e.call.Reads) : Quiet t :=
  fun e he => (h e he).not_sends

/-- All the calls of `x` are reads. -/
abbrev OnlyReads {α : Type} (x : Async Service α) : Prop := x.Makes ServiceCall.Reads

theorem onlyReads_liftError {α : Type} (r : Except Error α) : OnlyReads (liftError r) :=
  Fallible.makes_result _

theorem onlyReads_liftExcept {α : Type} (r : Except Failure α) : OnlyReads (liftExcept r) :=
  Fallible.makes_result _

theorem makes_banksSnapshot {G : ServiceCall → Prop} (hG : G (.process .banksRead)) :
    Config.banksSnapshot.Makes G := by
  refine Fallible.Makes.bind (Fallible.makes_ask hG) fun r => ?_
  cases r <;> exact Fallible.makes_pure _

theorem onlyReads_banksSnapshot : OnlyReads Config.banksSnapshot := makes_banksSnapshot trivial

theorem onlyReads_getAccountData (pk : Pubkey) : OnlyReads (Service.rpc (.getAccountData pk)) :=
  Fallible.makes_ask trivial

/-! ### The steps of the handlers -/

section Steps

variable {G : ServiceCall → Prop} {α β : Type}

/-- Going on with a value computed without calls. -/
theorem makes_liftError_bind {r : Except Error α} {f : α → Async Service β}
    (h : ∀ a, r = .ok a → (f a).Makes G) : (liftError r >>= f).Makes G := by
  cases r with
  | error e => exact Fallible.makes_throw _
  | ok a => exact h a rfl

/-- The end of the promoter and of the claimer. -/
theorem makes_simulateAndSend {ixs : List Instruction} {payer : Pubkey} {ixLabel : String}
    (hsim : G (.rpc (.simulate ixs payer)))
    (hsend : G (.rpc (.sendSignedLabeled ixLabel ixs [payer]))) :
    Fallible.Makes G (do
      let sim ← Service.rpc (.simulate ixs payer)
      if !sim.ok then return false
      else do
        let _sig ← Service.rpc (.sendSignedLabeled ixLabel ixs [payer])
        return true : Async Service Bool) := by
  refine Fallible.Makes.bind (Fallible.makes_ask hsim) fun sim => ?_
  split
  · exact Fallible.makes_pure _
  · exact Fallible.Makes.bind (Fallible.makes_ask hsend) fun _ => Fallible.makes_pure _

end Steps

/-! ### The chain -/

section Chain

variable (chain : ChainReader) (y : Ydelta)

theorem onlyReads_getProgramAccounts (filters : List RpcFilterType) :
    OnlyReads (chain.getProgramAccounts filters) :=
  Fallible.makes_ask trivial

theorem onlyReads_listLoansForMarket (market : Pubkey) :
    OnlyReads (chain.listLoansForMarket y market) :=
  (onlyReads_getProgramAccounts chain _).bind fun _ => Fallible.makes_pure _

theorem onlyReads_listSubVaults : OnlyReads (chain.listSubVaults y) :=
  (onlyReads_getProgramAccounts chain _).bind fun _ => Fallible.makes_pure _

theorem onlyReads_listPendingVaultClaims (markets : List MarketView) :
    OnlyReads (ChainReader.listPendingVaultClaims y markets) := by
  induction markets with
  | nil => exact Fallible.makes_pure _
  | cons market rest ih =>
    unfold ChainReader.listPendingVaultClaims
    split
    · exact ih
    refine (onlyReads_getAccountData market.address).bind fun data => ?_
    cases data with
    | none => exact ih
    | some data => exact ih.bind fun _ => Fallible.makes_pure _

theorem onlyReads_marketData (market : Pubkey) : OnlyReads (ChainReader.marketData market) := by
  refine (onlyReads_getAccountData market).bind fun data => ?_
  cases data
  · exact Fallible.makes_throw _
  · exact Fallible.makes_pure _

theorem onlyReads_readPendingMatchedLoans (market : Pubkey) :
    OnlyReads (ChainReader.readPendingMatchedLoans y market) := by
  refine (onlyReads_marketData market).bind fun data => ?_
  refine (onlyReads_liftError _).bind fun fixed => ?_
  simp only
  split <;> exact Fallible.makes_pure _

theorem onlyReads_marketIsRateCrossed (market : Pubkey) :
    OnlyReads (ChainReader.marketIsRateCrossed y market) := by
  refine (onlyReads_marketData market).bind fun data => ?_
  refine (onlyReads_liftError _).bind fun fixed => ?_
  simp only
  split
  · exact Fallible.makes_pure _
  split
  · exact Fallible.makes_pure _
  · exact Fallible.makes_throw _

/-- The call reads, or stores the market list. -/
def ServiceCall.Lists (c : ServiceCall) : Prop :=
  c.Reads ∨ ∃ markets, c = .process (.marketsCachePut markets)

theorem ServiceCall.Lists.not_sends {c : ServiceCall} (h : c.Lists) : ¬ c.Sends := by
  rcases h with hreads | ⟨markets, rfl⟩
  · exact hreads.not_sends
  · exact Bool.false_ne_true

theorem lists_fetchMarkets : (chain.fetchMarkets y).Makes ServiceCall.Lists :=
  Fallible.Makes.bind (Fallible.makes_ask (.inl trivial)) fun _ => Fallible.makes_pure _

/-- A fetch that is stored, unless it is empty. -/
theorem lists_put (fresh : List MarketView) :
    Fallible.Makes (I := Service) ServiceCall.Lists
      (do let () ← Service.process (.marketsCachePut fresh); return fresh) :=
  Fallible.Makes.bind (Fallible.makes_ask (.inr ⟨fresh, rfl⟩)) fun _ => Fallible.makes_pure _

theorem lists_listMarkets : (chain.listMarkets y).Makes ServiceCall.Lists := by
  refine Fallible.Makes.bind (Fallible.makes_ask (.inl trivial)) fun r => ?_
  cases r with
  | some cached => exact Fallible.makes_pure _
  | none =>
    refine (lists_fetchMarkets chain y).bind fun fresh => ?_
    split
    · refine Fallible.Makes.bind (Fallible.makes_ask (.inl trivial)) fun stale => ?_
      cases stale <;> exact Fallible.makes_pure _
    · exact lists_put fresh

theorem lists_refreshMarkets : (chain.refreshMarkets y).Makes ServiceCall.Lists := by
  refine (lists_fetchMarkets chain y).bind fun fresh => ?_
  split
  · exact Fallible.makes_pure _
  · exact lists_put fresh

end Chain

/-! ### Switchboard -/

section Gateways

variable {G : ServiceCall → Prop} {oracles : List Pubkey}

theorem makes_fetchUpdateVia (cranker : SwbCranker) (gateway : Gateway)
    (hG : G (.process (.fetchUpdateConsensusIx gateway oracles cranker.payer))) :
    (cranker.fetchUpdateVia oracles gateway).Makes G := by
  refine Fallible.Makes.bind (Fallible.makes_ask hG) fun r => ?_
  cases r with
  | ok bundle => exact Fallible.makes_pure _
  | error e => exact Fallible.makes_throw _

theorem makes_fetchUpdateFrom (cranker : SwbCranker) (gateways : List Gateway)
    (lastErr : Option Error)
    (hG : ∀ gateway, G (.process (.fetchUpdateConsensusIx gateway oracles cranker.payer))) :
    (cranker.fetchUpdateFrom oracles gateways lastErr).Makes G := by
  induction gateways generalizing lastErr with
  | nil => exact Fallible.makes_throw _
  | cons gateway rest ih =>
    refine (makes_fetchUpdateVia cranker gateway (hG gateway)).attempt.bind fun r => ?_
    cases r with
    | ok bundle => exact Fallible.makes_pure _
    | error e => exact ih (some e)

/-- A handler goes on without a bundle when no gateway answers. -/
theorem makes_fetchBundle (cranker : SwbCranker)
    (hG : ∀ gateway, G (.process (.fetchUpdateConsensusIx gateway oracles cranker.payer))) :
    Fallible.Makes G (do match ← Service.caught (cranker.fetchUpdateIxs oracles) with
      | .ok bundle => return bundle
      | .error _ => return ([], []) : Async Service SwbBundle) := by
  have hfetch : (cranker.fetchUpdateIxs oracles).Makes G := by
    unfold SwbCranker.fetchUpdateIxs
    split
    · exact Fallible.makes_pure _
    · exact makes_fetchUpdateFrom cranker cranker.gateways none hG
  refine hfetch.attempt.bind fun r => ?_
  cases r <;> exact Fallible.makes_pure _

variable (ctx : HandlerContext)

/-- The feeds the liquidator asks for: that of the collateral. -/
def LiquidatorHandler.collateralFeeds (collateralBank : BankInfo) : List Pubkey :=
  if collateralBank.isSwitchboardPull then [collateralBank.primaryOracle] else []

theorem LiquidatorHandler.makes_fetchSwbBundle (collateralBank : BankInfo)
    (hG : collateralFeeds collateralBank ≠ [] → ∀ gateway payer,
      G (.process (.fetchUpdateConsensusIx gateway (collateralFeeds collateralBank) payer))) :
    (fetchSwbBundle ctx collateralBank).Makes G := by
  unfold fetchSwbBundle
  split
  · exact Fallible.makes_pure _
  rename_i hpull
  rw [Bool.not_eq_true, Bool.not_eq_false'] at hpull
  simp only [collateralFeeds, hpull, if_true] at hG
  split
  · exact Fallible.makes_pure _
  · exact makes_fetchBundle _ fun gateway => hG (List.cons_ne_nil _ _) gateway _

theorem MatchCrankerHandler.makes_fetchSwbBundle (debtBank collateralBank : BankInfo)
    (hG : pullFeeds debtBank collateralBank ≠ [] → ∀ gateway payer,
      G (.process (.fetchUpdateConsensusIx gateway (pullFeeds debtBank collateralBank) payer))) :
    (fetchSwbBundle ctx debtBank collateralBank).Makes G := by
  unfold fetchSwbBundle
  split
  · exact Fallible.makes_pure _
  simp only
  split
  · exact Fallible.makes_pure _
  rename_i hfeeds
  exact makes_fetchBundle _ fun gateway => hG (by simpa using hfeeds) gateway _

end Gateways

/-! ### Replies of the gateways -/

/-- In `t`, a gateway has answered with this bundle. -/
def RepliedIn (t : Service.Trace) (bundle : SwbBundle) : Prop :=
  ∃ gateway oracles payer,
    (⟨.process (.fetchUpdateConsensusIx gateway oracles payer), .ok bundle⟩ : Service.Event) ∈ t

theorem RepliedIn.mono {t t' : Service.Trace} {bundle : SwbBundle} (h : RepliedIn t bundle)
    (ht : t ⊆ t') : RepliedIn t' bundle := by
  obtain ⟨gateway, oracles, payer, hmem⟩ := h
  exact ⟨gateway, oracles, payer, ht hmem⟩

/-- The bundle that `x` returns is empty, or a gateway has answered with it. -/
def Fetches (x : Async Service SwbBundle) : Prop :=
  x.Spec fun t r => ∀ bundle, r = .ok bundle → bundle = ([], []) ∨ RepliedIn t bundle

theorem fetches_nothing : Fetches (pure ([], [])) :=
  Fallible.spec_pure fun _ h => .inl (Except.ok.inj h).symm

section Fetches

variable (cranker : SwbCranker) (oracles : List Pubkey)

theorem replied_fetchUpdateVia (gateway : Gateway) :
    (cranker.fetchUpdateVia oracles gateway).Spec fun t r =>
      ∀ bundle, r = .ok bundle → RepliedIn t bundle := by
  refine Fallible.spec_query_bind fun reply => ?_
  cases reply with
  | error e => exact Fallible.spec_throw nofun
  | ok bundle =>
    refine Fallible.spec_pure fun bundle' h => ?_
    cases h
    exact ⟨gateway, oracles, cranker.payer, List.mem_cons_self⟩

/-- The reply of the first gateway that answers. -/
theorem replied_fetchUpdateFrom (gateways : List Gateway) (lastErr : Option Error) :
    (cranker.fetchUpdateFrom oracles gateways lastErr).Spec fun t r =>
      ∀ bundle, r = .ok bundle → RepliedIn t bundle := by
  induction gateways generalizing lastErr with
  | nil => exact Fallible.spec_throw nofun
  | cons gateway rest ih =>
    have hvia : (Service.caught (cranker.fetchUpdateVia oracles gateway)).Spec fun t r =>
        ∀ bundle, r = .ok (.ok bundle) → RepliedIn t bundle := by
      refine Fallible.spec_attempt (replied_fetchUpdateVia cranker oracles gateway)
        (fun t bundle h bundle' heq => ?_) (fun _ _ _ _ _ => nofun) fun _ _ _ _ => nofun
      cases heq
      exact h _ rfl
    refine Fallible.spec_bind hvia (fun _ _ _ => nofun) fun t r h => ?_
    cases r with
    | ok bundle =>
      refine Fallible.spec_pure fun bundle' heq => ?_
      cases heq
      exact (h bundle rfl).mono (List.subset_append_left _ _)
    | error e =>
      exact (ih _).mono fun t' r h' bundle heq =>
        (h' bundle heq).mono (List.subset_append_right _ _)

/-- A handler takes the reply of a gateway, or goes on without a bundle. -/
theorem fetches_fetchBundle : Fetches (do
      match ← Service.caught (cranker.fetchUpdateIxs oracles) with
      | .ok bundle => return bundle
      | .error _ => return ([], [])) := by
  have hfetch : Fetches (cranker.fetchUpdateIxs oracles) := by
    unfold SwbCranker.fetchUpdateIxs
    split
    · exact fetches_nothing
    · exact (replied_fetchUpdateFrom cranker oracles _ none).mono fun _ _ h bundle heq =>
        .inr (h bundle heq)
  have hcaught : (Service.caught (cranker.fetchUpdateIxs oracles)).Spec fun t r =>
      ∀ bundle, r = .ok (.ok bundle) → bundle = ([], []) ∨ RepliedIn t bundle := by
    refine Fallible.spec_attempt hfetch (fun t bundle h bundle' heq => ?_)
      (fun _ _ _ _ _ => nofun) fun _ _ _ _ => nofun
    cases heq
    exact h _ rfl
  refine Fallible.spec_bind hcaught (fun _ _ _ => nofun) fun t r h => ?_
  cases r with
  | ok bundle =>
    refine Fallible.spec_pure fun bundle' heq => ?_
    cases heq
    exact (h bundle rfl).imp_right fun hr => hr.mono (List.subset_append_left _ _)
  | error e => exact Fallible.spec_pure fun _ heq => .inl (Except.ok.inj heq).symm

variable (ctx : HandlerContext)

theorem LiquidatorHandler.fetches_fetchSwbBundle (collateralBank : BankInfo) :
    Fetches (fetchSwbBundle ctx collateralBank) := by
  unfold fetchSwbBundle
  split
  · exact fetches_nothing
  split
  · exact fetches_nothing
  · exact fetches_fetchBundle _ _

theorem MatchCrankerHandler.fetches_fetchSwbBundle (debtBank collateralBank : BankInfo) :
    Fetches (fetchSwbBundle ctx debtBank collateralBank) := by
  unfold fetchSwbBundle
  split
  · exact fetches_nothing
  simp only
  split
  · exact fetches_nothing
  · exact fetches_fetchBundle _ _

end Fetches

variable (ctx : HandlerContext)

theorem LiquidatorHandler.onlyReads_fetchSwbBundle (collateralBank : BankInfo) :
    OnlyReads (fetchSwbBundle ctx collateralBank) :=
  makes_fetchSwbBundle ctx collateralBank fun _ _ _ => trivial

theorem MatchCrankerHandler.onlyReads_fetchSwbBundle (debtBank collateralBank : BankInfo) :
    OnlyReads (fetchSwbBundle ctx debtBank collateralBank) :=
  makes_fetchSwbBundle ctx debtBank collateralBank fun _ _ _ => trivial

/-! ### The handlers -/

theorem LiquidatorHandler.onlyReads_pickRepayAmount (liquidatorDebtAta : Pubkey)
    (loan : LoanView) : OnlyReads (pickRepayAmount ctx liquidatorDebtAta loan) := by
  refine (onlyReads_getAccountData liquidatorDebtAta).bind fun r => ?_
  cases r with
  | none => exact Fallible.makes_pure _
  | some acct =>
    simp only
    split
    · exact Fallible.makes_throw _
    · exact Fallible.makes_pure _

/-! ### The handlers, call by call -/

section Calls

variable {G : ServiceCall → Prop}

theorem makes_withInflight {key : InflightKey} {body : Async Service Bool}
    (hclaim : G (.process (.claimInflight key))) (hrelease : G (.process (.releaseInflight key)))
    (h : body.Makes G) : (withInflight key body).Makes G := by
  refine Fallible.Makes.bind (Fallible.makes_ask hclaim) fun claimed => ?_
  split
  · refine h.attempt.bind fun res => ?_
    exact Fallible.Makes.bind (Fallible.makes_ask hrelease) fun _ => Fallible.makes_pure _
  · exact Fallible.makes_pure _

namespace LiquidatorHandler

/-- The calls of an attempt at a closing, once it has the two banks. -/
theorem makes_closeWith {market : MarketView} {loan : LoanView} {closing : Closing}
    {debtBank collateralBank : BankInfo}
    (hfetch : collateralFeeds collateralBank ≠ [] → ∀ gateway payer,
      G (.process (.fetchUpdateConsensusIx gateway (collateralFeeds collateralBank) payer)))
    (hcheck : ∀ ixs luts, G (.rpc (.simulateV0
      (ixs ++ [closing.check debtBank collateralBank]) luts ctx.signers.feePayer)))
    (haccount : ∀ pk, G (.rpc (.getAccountData pk)))
    (hbuild : ∀ ixs luts args, G (.rpc (.simulateV0
      (ixs ++ [closing.build args]) luts ctx.signers.feePayer)))
    (hsend : ∀ ixs luts,
      G (.rpc (.sendSignedV0Labeled closing.ixLabel ixs luts [ctx.signers.feePayer]))) :
    (closeWith ctx market loan closing debtBank collateralBank).Makes G := by
  refine (makes_fetchSwbBundle ctx collateralBank hfetch).bind fun bundle => ?_
  refine Fallible.Makes.bind (Fallible.makes_ask (hcheck _ _)) fun sim => ?_
  split
  · exact Fallible.makes_pure _
  split
  · exact Fallible.makes_pure _
  -- one account is read for the amount
  have hpick : ∀ ata, (pickRepayAmount ctx ata loan).Makes G := by
    intro ata
    refine Fallible.Makes.bind (Fallible.makes_ask (haccount _)) fun r => ?_
    cases r with
    | none => exact Fallible.makes_pure _
    | some acct =>
      simp only
      split
      · exact Fallible.makes_throw _
      · exact Fallible.makes_pure _
  refine (hpick _).bind fun amount => ?_
  cases amount with
  | none => exact Fallible.makes_pure _
  | some repayAtomsMax =>
    refine Fallible.Makes.bind (Fallible.makes_ask (hbuild _ _ _)) fun confirm => ?_
    split
    · exact Fallible.makes_pure _
    · exact Fallible.Makes.bind (Fallible.makes_ask (hsend _ _)) fun _ => Fallible.makes_pure _

/-- The calls for the loans of a pass, if those of the attempts at each loan are known. -/
theorem makes_scanLoans {market : MarketView} {tNow : Int64} {loans : List LoanView}
    (hkey : ∀ loan ∈ loans, G (.process (.claimInflight (.liquidator loan.address))) ∧
      G (.process (.releaseInflight (.liquidator loan.address))))
    (hliquidate : ∀ loan ∈ loans, (tryLiquidateLtv ctx market loan).Makes G)
    (hsettle : ∀ loan ∈ loans, isMatured ctx market loan tNow = true →
      (trySettleMatured ctx market loan).Makes G) :
    (scanLoans ctx market tNow loans).Makes G := by
  induction loans with
  | nil => exact Fallible.makes_pure _
  | cons loan loans ih =>
    obtain ⟨hkey, hkeys⟩ := List.forall_mem_cons.1 hkey
    obtain ⟨hliq, hliqs⟩ := List.forall_mem_cons.1 hliquidate
    obtain ⟨hset, hsets⟩ := List.forall_mem_cons.1 hsettle
    -- a loan is settled only if it is matured, first or after a liquidation that did nothing
    have hattempts : (trySettleOrLiquidate ctx market loan (isMatured ctx market loan tNow)
        (maybeLtvBreach ctx loan)).Makes G := by
      unfold trySettleOrLiquidate
      split
      · refine hliq.bind fun liquidated => ?_
        split
        · exact Fallible.makes_pure _
        split
        · rename_i hmatured
          exact hset hmatured
        · exact Fallible.makes_pure _
      split
      · rename_i hmatured
        exact hset hmatured
      · exact Fallible.makes_pure _
    have hloan : (scanLoan ctx market tNow loan).Makes G := by
      unfold scanLoan
      split
      · exact Fallible.makes_pure _
      simp only
      split
      · exact Fallible.makes_pure _
      refine (makes_withInflight hkey.1 hkey.2 hattempts).bind fun res => ?_
      cases res <;> exact Fallible.makes_pure _
    exact hloan.bind fun _ => (ih hkeys hliqs hsets).bind fun _ => Fallible.makes_pure _

end LiquidatorHandler

namespace MatchCrankerHandler

/-- The calls of a crank, once it has the two banks. -/
theorem makes_crankWith {market : MarketView} {debtBank collateralBank : BankInfo}
    (hfetch : pullFeeds debtBank collateralBank ≠ [] → ∀ gateway payer,
      G (.process (.fetchUpdateConsensusIx gateway (pullFeeds debtBank collateralBank) payer)))
    (hsim : ∀ ixs luts, G (.rpc (.simulateV0 ixs luts ctx.signers.feePayer)))
    (hsend : ∀ ixs luts,
      G (.rpc (.sendSignedV0Labeled "match_crank" ixs luts [ctx.signers.feePayer]))) :
    (crankWith ctx market debtBank collateralBank).Makes G := by
  refine (makes_fetchSwbBundle ctx debtBank collateralBank hfetch).bind fun bundle => ?_
  refine Fallible.Makes.bind (Fallible.makes_ask (hsim _ _)) fun sim => ?_
  split
  · exact Fallible.makes_pure _
  split
  · exact Fallible.makes_pure _
  · exact Fallible.Makes.bind (Fallible.makes_ask (hsend _ _)) fun _ => Fallible.makes_pure _

end MatchCrankerHandler

end Calls

theorem PromoterHandler.onlyReads_assembleVaultSettle (market : Pubkey)
    (entry : PendingMatchedLoan) (debtMint : Pubkey) (debtBank : BankInfo) :
    OnlyReads (assembleVaultSettle ctx market entry debtMint debtBank) := by
  unfold assembleVaultSettle
  split
  · exact Fallible.makes_pure _
  refine (onlyReads_getAccountData market).bind fun r => ?_
  cases r with
  | none => exact Fallible.makes_throw _
  | some marketData =>
    refine (onlyReads_liftExcept _).bind fun seat => ?_
    split
    · exact Fallible.makes_pure _
    · exact (onlyReads_liftError _).bind fun _ => Fallible.makes_pure _

end YdeltaCrankers
