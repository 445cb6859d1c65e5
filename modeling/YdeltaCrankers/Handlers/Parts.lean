import YdeltaCrankers.Handlers.CuratorFeeClaimer
import YdeltaCrankers.Handlers.Reads

/-!
# The parts of a pass

A pass of a handler is put together from reads, from claims and releases of keys, and from attempts.
A property of programs is `Composable` if reads, claims and releases have it and putting programs
together keeps it.  There is one lemma for each handler: such a property holds of a pass if it holds
of every attempt the pass can make.
-/

namespace YdeltaCrankers

open Interaction

/-- A property that putting programs together keeps. -/
structure Composable (P : ∀ α : Type, Async Service α → Prop) : Prop where
  reads : ∀ {α : Type} {x : Async Service α}, OnlyReads x → P α x
  claims : ∀ key, P Bool (Service.process (.claimInflight key))
  releases : ∀ key, P Unit (Service.process (.releaseInflight key))
  bind : ∀ {α β : Type} {x : Async Service α} {f : α → Async Service β}, P α x →
    (∀ t a, x.run.Runs t (.ok a) → P β (f a)) → P β (x >>= f)
  caught : ∀ {α : Type} {x : Async Service α}, P α x → P (Except Error α) (Service.caught x)

namespace Composable

variable {P : ∀ α : Type, Async Service α → Prop} {α : Type}

theorem pure (h : Composable P) (a : α) : P α (Pure.pure a) := h.reads (Fallible.makes_pure a)

theorem throw (h : Composable P) (err : Failure) : P α (throw err) :=
  h.reads (Fallible.makes_throw err)

/-- An attempt behind its key. -/
theorem withInflight (h : Composable P) {key : InflightKey} {body : Async Service Bool}
    (hbody : P Bool body) : P _ (withInflight key body) := by
  refine h.bind (h.claims key) fun _ claimed _ => ?_
  split
  · refine h.bind (h.caught hbody) fun _ res _ => ?_
    exact h.bind (h.releases key) fun _ _ _ => h.pure _
  · exact h.pure _

variable {ctx : HandlerContext}

/-! ### The handlers -/

theorem promoteMarkets (h : Composable P) {markets : List MarketView}
    (hone : ∀ market ∈ markets, market.isPaused = false →
      ∀ entry, P Bool (PromoterHandler.promoteOne ctx market entry)) :
    P Unit (PromoterHandler.promoteMarkets ctx markets) := by
  induction markets with
  | nil => exact h.pure _
  | cons market markets ih =>
    obtain ⟨hmarket, hmarkets⟩ := List.forall_mem_cons.1 hone
    unfold PromoterHandler.promoteMarkets
    split
    · exact ih hmarkets
    rename_i hpaused
    refine h.bind (h.caught (h.reads (onlyReads_readPendingMatchedLoans ctx.y market.address)))
      fun _ r _ => ?_
    cases r with
    | error e => exact ih hmarkets
    | ok pending =>
      have hentries : ∀ entries, P Unit (PromoterHandler.promoteEntries ctx market entries) := by
        intro entries
        induction entries with
        | nil => exact h.pure _
        | cons entry entries ih =>
          exact h.bind (h.withInflight (hmarket (by simpa using hpaused) entry)) fun _ _ _ => ih
      exact h.bind (hentries pending) fun _ _ _ => ih hmarkets

theorem sweepAll (h : Composable P) {entries : List PendingVaultClaim}
    (hone : ∀ entry ∈ entries, P Bool (ClaimerHandler.sweepOne ctx entry)) :
    P Unit (ClaimerHandler.sweepAll ctx entries) := by
  induction entries with
  | nil => exact h.pure _
  | cons entry entries ih =>
    obtain ⟨hentry, hentries⟩ := List.forall_mem_cons.1 hone
    exact h.bind (h.withInflight hentry) fun _ _ _ => ih hentries

theorem claimAll (h : Composable P) {banks : BankRegistry} {subVaults : List SubVaultView}
    (hone : ∀ subVault curator,
      P Bool (CuratorFeeClaimerHandler.claimOne ctx subVault banks curator)) :
    P Unit (CuratorFeeClaimerHandler.claimAll ctx banks subVaults) := by
  induction subVaults with
  | nil => exact h.pure _
  | cons subVault subVaults ih =>
    unfold CuratorFeeClaimerHandler.claimAll
    split
    · exact ih
    split
    · exact ih
    split
    · exact ih
    · exact h.bind (h.withInflight (hone subVault _)) fun _ _ _ => ih

theorem crankMarkets (h : Composable P) {markets : List MarketView}
    (hone : ∀ market ∈ markets, market.isPaused = false →
      P Bool (MatchCrankerHandler.crankOne ctx market)) :
    P Unit (MatchCrankerHandler.scanMarkets ctx markets) := by
  induction markets with
  | nil => exact h.pure _
  | cons market markets ih =>
    obtain ⟨hmarket, hmarkets⟩ := List.forall_mem_cons.1 hone
    unfold MatchCrankerHandler.scanMarkets
    split
    · exact ih hmarkets
    rename_i hpaused
    have hscan : P Bool (MatchCrankerHandler.scanMarket ctx market) := by
      refine h.bind (h.reads (onlyReads_marketIsRateCrossed _ _)) fun _ crossed _ => ?_
      split
      · refine h.bind (h.withInflight (hmarket (by simpa using hpaused))) fun _ r _ => ?_
        cases r with
        | ok cranked => exact h.pure _
        | error e => exact h.throw _
      · exact h.pure _
    exact h.bind (h.caught hscan) fun _ _ _ => ih hmarkets

/-- The attempts at one loan: a liquidation, a settlement, or one after the other. -/
theorem trySettleOrLiquidate (h : Composable P) {market : MarketView} {loan : LoanView}
    (hliquidate : P Bool (LiquidatorHandler.tryLiquidateLtv ctx market loan))
    (hsettle : P Bool (LiquidatorHandler.trySettleMatured ctx market loan))
    (matured maybeLtvBreach : Bool) :
    P Bool (LiquidatorHandler.trySettleOrLiquidate ctx market loan matured maybeLtvBreach) := by
  unfold LiquidatorHandler.trySettleOrLiquidate
  split
  · refine h.bind hliquidate fun _ liquidated _ => ?_
    split
    · exact h.pure _
    split
    · exact hsettle
    · exact h.pure _
  split
  · exact hsettle
  · exact h.pure _

theorem closeMarkets (h : Composable P) {markets : List MarketView}
    (hliquidate : ∀ market ∈ markets, market.isPaused = false →
      ∀ loan, P Bool (LiquidatorHandler.tryLiquidateLtv ctx market loan))
    (hsettle : ∀ market ∈ markets, market.isPaused = false →
      ∀ loan, P Bool (LiquidatorHandler.trySettleMatured ctx market loan)) :
    P Unit (LiquidatorHandler.scanMarkets ctx markets) := by
  induction markets with
  | nil => exact h.pure _
  | cons market markets ih =>
    obtain ⟨hliq, hliqs⟩ := List.forall_mem_cons.1 hliquidate
    obtain ⟨hset, hsets⟩ := List.forall_mem_cons.1 hsettle
    unfold LiquidatorHandler.scanMarkets
    split
    · exact ih hliqs hsets
    rename_i hpaused
    replace hpaused : market.isPaused = false := by simpa using hpaused
    have hloan : ∀ tNow loan, P Bool (LiquidatorHandler.scanLoan ctx market tNow loan) := by
      intro tNow loan
      unfold LiquidatorHandler.scanLoan
      split
      · exact h.pure _
      simp only
      split
      · exact h.pure _
      refine h.bind (h.withInflight
        (h.trySettleOrLiquidate (hliq hpaused loan) (hset hpaused loan) _ _)) fun _ res _ => ?_
      cases res <;> exact h.pure _
    have hloans : ∀ tNow loans, P ℕ (LiquidatorHandler.scanLoans ctx market tNow loans) := by
      intro tNow loans
      induction loans with
      | nil => exact h.pure _
      | cons loan loans ih =>
        exact h.bind (hloan tNow loan) fun _ _ _ => h.bind ih fun _ _ _ => h.pure _
    have hscan : P ℕ (LiquidatorHandler.scanMarket ctx market) := by
      refine h.bind (h.reads (onlyReads_listLoansForMarket _ _ _)) fun _ loans _ => ?_
      exact h.bind (h.reads (Fallible.makes_ask trivial)) fun _ tNow _ => hloans tNow loans
    exact h.bind (h.caught hscan) fun _ _ _ => ih hliqs hsets

end Composable

end YdeltaCrankers
