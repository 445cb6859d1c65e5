import YdeltaCrankers.Handlers.Inflight
import YdeltaCrankers.Interaction.Walk

/-!
# What one pass of a handler does

A pass lists what there is to do and then goes through the list in order, each entry while its key
is in the in-flight set.  What goes wrong at one entry or in one market is logged there.

* `HandlerKind.tick_ok` : a tick that returns `Ok` has been through its whole list (`PassRun`).
* `HandlerKind.tick_error` : a tick that returns `Err` has failed to list, and has done nothing but
  read and store market lists.
-/

namespace YdeltaCrankers

open Interaction

/-! ### Errors that are caught -/

section Caught

variable {α β : Type}

/-- `x` fails with panics only. -/
def PanicsOnly (x : Async Service α) : Prop := ∀ t e, ¬ x.run.Runs t (.error (.error e))

theorem panicsOnly_pure (a : α) : PanicsOnly (pure a : Async Service α) := by
  rintro t e ⟨-, h⟩
  cases h

theorem panicsOnly_process (c : ProcessCall) : PanicsOnly (Service.process c) := by
  rintro t e ⟨r, t', -, -, h⟩
  cases h

theorem PanicsOnly.bind {x : Async Service α} {f : α → Async Service β} (h : PanicsOnly x)
    (hf : ∀ a, PanicsOnly (f a)) : PanicsOnly (x >>= f) := by
  intro t e hr
  rcases Fallible.runs_bind hr with ⟨err, hfail, heq⟩ | ⟨t₁, a, t₂, -, -, hrest⟩
  · cases heq
    exact h t e hfail
  · exact hf a t₂ e hrest

theorem panicsOnly_caught (x : Async Service α) : PanicsOnly (Service.caught x) := by
  have hspec : (Service.caught x).Spec fun _ r => ∀ e, r ≠ .error (.error e) := by
    refine Fallible.spec_attempt (fun _ _ h => h) (fun _ _ _ _ => nofun) (fun _ _ _ _ _ _ => nofun)
      fun t err _ hpanic e heq => ?_
    cases heq
    cases hpanic
  exact fun t e hr => hspec t _ hr e rfl

theorem panicsOnly_withInflight (key : InflightKey) (body : Async Service Bool) :
    PanicsOnly (withInflight key body) := by
  refine (panicsOnly_process _).bind fun claimed => ?_
  split
  · refine (panicsOnly_caught body).bind fun res => ?_
    exact (panicsOnly_process _).bind fun _ => panicsOnly_pure _
  · exact panicsOnly_pure _

/-- An attempt that does not panic is a window of its key. -/
theorem window_of_runs {key : InflightKey} {body : Async Service Bool} {t : Service.Trace}
    {res : Except Error Bool} (h : (withInflight key body).run.Runs t (.ok res)) :
    Window key body t := by
  have hspec : (withInflight key body).Spec fun t r => ∀ res, r = .ok res → Window key body t := by
    refine Fallible.spec_query_bind fun claimed => ?_
    cases claimed with
    | false =>
      exact Fallible.spec_ite nofun fun _ => Fallible.spec_pure fun _ _ => .skipped
    | true =>
      refine Fallible.spec_ite (fun _ => ?_) fun h => absurd rfl h
      refine Fallible.spec_runs_bind (fun _ _ _ => nofun) fun t res hbody => ?_
      refine Fallible.spec_query_bind fun _ => Fallible.spec_pure fun _ _ => ?_
      rcases Fallible.runs_attempt_inv hbody with ⟨a, -, hruns⟩ | ⟨e, e', -, -, hruns⟩
      · exact .ran hruns
      · exact .ran hruns
  exact hspec t _ h res rfl

end Caught

variable (ctx : HandlerContext)

/-! ### The promoter -/

namespace PromoterHandler

/-- What a pass does in one market: the pending matches are gone through, if they can be read. -/
inductive MarketRun (market : MarketView) : Service.Trace → Prop
  | paused (hpaused : market.isPaused = true) : MarketRun market []
  | unreadable {t : Service.Trace} {e : Error} (hpaused : market.isPaused = false)
      (hread : (ChainReader.readPendingMatchedLoans ctx.y market.address).run.Runs t
        (.error (.error e))) : MarketRun market t
  | visited {t t' : Service.Trace} {pending : List PendingMatchedLoan}
      (hpaused : market.isPaused = false)
      (hread : (ChainReader.readPendingMatchedLoans ctx.y market.address).run.Runs t (.ok pending))
      (hpending : Walks (fun entry => Window (.promoter entry.market entry.sequence)
        (promoteOne ctx market entry)) pending t') : MarketRun market (t ++ t')

variable {ctx}

theorem promoteEntries_walks {market : MarketView} {entries : List PendingMatchedLoan}
    {t : Service.Trace} (h : (promoteEntries ctx market entries).run.Runs t (.ok ())) :
    Walks (fun entry => Window (.promoter entry.market entry.sequence)
      (promoteOne ctx market entry)) entries t := by
  induction entries generalizing t with
  | nil =>
    obtain ⟨rfl, -⟩ := h
    exact .nil
  | cons entry entries ih =>
    obtain ⟨t₁, res, t₂, rfl, hentry, hrest⟩ := Fallible.runs_bind_inv h
    exact .cons (window_of_runs hentry) (ih hrest)

theorem promoteMarkets_walks {markets : List MarketView} {t : Service.Trace}
    (h : (promoteMarkets ctx markets).run.Runs t (.ok ())) : Walks (MarketRun ctx) markets t := by
  induction markets generalizing t with
  | nil =>
    obtain ⟨rfl, -⟩ := h
    exact .nil
  | cons market markets ih =>
    unfold promoteMarkets at h
    split at h
    · rename_i hpaused
      exact .cons_nil (.paused hpaused) (ih h)
    rename_i hpaused
    rw [Bool.not_eq_true] at hpaused
    obtain ⟨t₁, r, t₂, rfl, hcaught, h⟩ := Fallible.runs_bind_inv h
    rcases Fallible.runs_attempt_inv hcaught with ⟨pending, rfl, hread⟩ | ⟨e, e', rfl, he, hread⟩
    · obtain ⟨t₃, _, t₄, rfl, hentries, hrest⟩ := Fallible.runs_bind_inv h
      rw [← List.append_assoc]
      exact .cons (.visited hpaused hread (promoteEntries_walks hentries)) (ih hrest)
    · cases e with
      | error e => exact .cons (.unreadable hpaused hread) (ih h)
      | panic msg => cases he

theorem panicsOnly_promoteMarkets (markets : List MarketView) :
    PanicsOnly (promoteMarkets ctx markets) := by
  have hentries : ∀ market entries, PanicsOnly (promoteEntries ctx market entries) := by
    intro market entries
    induction entries with
    | nil => exact panicsOnly_pure ()
    | cons entry entries ih => exact (panicsOnly_withInflight _ _).bind fun _ => ih
  induction markets with
  | nil => exact panicsOnly_pure ()
  | cons market markets ih =>
    unfold promoteMarkets
    split
    · exact ih
    refine (panicsOnly_caught _).bind fun r => ?_
    cases r with
    | error e => exact ih
    | ok pending => exact (hentries market pending).bind fun _ => ih

end PromoterHandler

/-! ### The liquidator -/

namespace LiquidatorHandler

/-- A scan at `tNow` tries the loan: it is active with debt left, and due or past the prefilter. -/
def Considers (market : MarketView) (tNow : Int64) (loan : LoanView) : Prop :=
  loan.state = ctx.y.loanStateActive ∧ loan.outstandingDebtAtoms ≠ 0 ∧
    (isMatured ctx market loan tNow = true ∨ maybeLtvBreach ctx loan = true)

/-- What a scan does with one loan. -/
inductive LoanRun (market : MarketView) (tNow : Int64) (loan : LoanView) : Service.Trace → Prop
  | skipped (h : ¬ Considers ctx market tNow loan) : LoanRun market tNow loan []
  | tried {t : Service.Trace} (h : Considers ctx market tNow loan)
      (hwindow : Window (.liquidator loan.address) (trySettleOrLiquidate ctx market loan
        (isMatured ctx market loan tNow) (maybeLtvBreach ctx loan)) t) : LoanRun market tNow loan t

/-- What a pass does in one market: the loans are gone through, if they can be listed. -/
inductive MarketRun (market : MarketView) : Service.Trace → Prop
  | paused (hpaused : market.isPaused = true) : MarketRun market []
  | unlisted {t : Service.Trace} {e : Error} (hpaused : market.isPaused = false)
      (hlist : (ctx.chain.listLoansForMarket ctx.y market.address).run.Runs t
        (.error (.error e))) : MarketRun market t
  | scanned {t t' : Service.Trace} {loans : List LoanView} {tNow : Int64}
      (hpaused : market.isPaused = false)
      (hlist : (ctx.chain.listLoansForMarket ctx.y market.address).run.Runs t (.ok loans))
      (hloans : Walks (LoanRun ctx market tNow) loans t') :
      MarketRun market (t ++ (⟨.process .nowUnix, tNow⟩ :: t'))

variable {ctx}

theorem loanRun_of_runs {market : MarketView} {tNow : Int64} {loan : LoanView}
    {t : Service.Trace} {submitted : Bool}
    (h : (scanLoan ctx market tNow loan).run.Runs t (.ok submitted)) :
    LoanRun ctx market tNow loan t := by
  unfold scanLoan at h
  split at h
  · rename_i hnone
    obtain ⟨rfl, -⟩ := h
    exact .skipped fun hconsiders => hnone.elim (fun hne => hne hconsiders.1) hconsiders.2.1
  rename_i hsome
  rw [not_or, not_not] at hsome
  simp only at h
  split at h
  · rename_i hneither
    obtain ⟨rfl, -⟩ := h
    refine .skipped fun hconsiders => ?_
    rcases hconsiders.2.2 with hdue | hdue <;> simp [hdue] at hneither
  · rename_i heither
    have hdue : isMatured ctx market loan tNow = true ∨ maybeLtvBreach ctx loan = true := by
      by_contra hnone
      rw [not_or, Bool.not_eq_true, Bool.not_eq_true] at hnone
      exact heither (by rw [hnone.1, hnone.2]; rfl)
    obtain ⟨t₁, res, t₂, rfl, hwindow, hrest⟩ := Fallible.runs_bind_inv h
    have hnil : t₂ = [] := by cases res <;> exact hrest.1
    rw [hnil, List.append_nil]
    exact .tried ⟨hsome.1, hsome.2, hdue⟩ (window_of_runs hwindow)

theorem scanLoans_walks {market : MarketView} {tNow : Int64} {loans : List LoanView}
    {t : Service.Trace} {count : ℕ}
    (h : (scanLoans ctx market tNow loans).run.Runs t (.ok count)) :
    Walks (LoanRun ctx market tNow) loans t := by
  induction loans generalizing t count with
  | nil =>
    obtain ⟨rfl, -⟩ := h
    exact .nil
  | cons loan loans ih =>
    obtain ⟨t₁, submitted, t₂, rfl, hloan, h⟩ := Fallible.runs_bind_inv h
    obtain ⟨t₃, n, t₄, rfl, hloans, ⟨rfl, -⟩⟩ := Fallible.runs_bind_inv h
    rw [List.append_nil]
    exact .cons (loanRun_of_runs hloan) (ih hloans)

theorem panicsOnly_scanLoans (market : MarketView) (tNow : Int64) (loans : List LoanView) :
    PanicsOnly (scanLoans ctx market tNow loans) := by
  have hloan : ∀ loan, PanicsOnly (scanLoan ctx market tNow loan) := by
    intro loan
    unfold scanLoan
    split
    · exact panicsOnly_pure _
    simp only
    split
    · exact panicsOnly_pure _
    · refine (panicsOnly_withInflight _ _).bind fun res => ?_
      cases res <;> exact panicsOnly_pure _
  induction loans with
  | nil => exact panicsOnly_pure _
  | cons loan loans ih => exact (hloan loan).bind fun _ => ih.bind fun _ => panicsOnly_pure _

theorem scanMarkets_walks {markets : List MarketView} {t : Service.Trace}
    (h : (scanMarkets ctx markets).run.Runs t (.ok ())) : Walks (MarketRun ctx) markets t := by
  induction markets generalizing t with
  | nil =>
    obtain ⟨rfl, -⟩ := h
    exact .nil
  | cons market markets ih =>
    unfold scanMarkets at h
    split at h
    · rename_i hpaused
      exact .cons_nil (.paused hpaused) (ih h)
    rename_i hpaused
    rw [Bool.not_eq_true] at hpaused
    obtain ⟨t₁, r, t₂, rfl, hcaught, hrest⟩ := Fallible.runs_bind_inv h
    refine .cons ?_ (ih hrest)
    rcases Fallible.runs_attempt_inv hcaught with ⟨count, -, hscan⟩ | ⟨e, e', -, he, hscan⟩
    · obtain ⟨u, loans, u', rfl, hlist, hscan⟩ := Fallible.runs_bind_inv hscan
      obtain ⟨tNow, u'', rfl, hloans⟩ := hscan
      exact .scanned hpaused hlist (scanLoans_walks hloans)
    · cases e with
      | panic msg => cases he
      | error e =>
        -- only the listing fails with an error
        rcases Fallible.runs_bind hscan with ⟨err, hlist, heq⟩ | ⟨u, loans, u', -, -, hscan⟩
        · cases heq
          exact .unlisted hpaused hlist
        · refine absurd hscan (PanicsOnly.bind (panicsOnly_process _) (fun tNow => ?_) u' e)
          exact panicsOnly_scanLoans market tNow loans

theorem panicsOnly_scanMarkets (markets : List MarketView) :
    PanicsOnly (scanMarkets ctx markets) := by
  induction markets with
  | nil => exact panicsOnly_pure ()
  | cons market markets ih =>
    unfold scanMarkets
    split
    · exact ih
    · exact (panicsOnly_caught _).bind fun _ => ih

end LiquidatorHandler

/-! ### The match cranker -/

namespace MatchCrankerHandler

/-- What a pass does in one market: it is cranked, if its best rates can be read and cross. -/
inductive MarketRun (market : MarketView) : Service.Trace → Prop
  | paused (hpaused : market.isPaused = true) : MarketRun market []
  | unreadable {t : Service.Trace} {e : Error} (hpaused : market.isPaused = false)
      (hread : (ChainReader.marketIsRateCrossed ctx.y market.address).run.Runs t
        (.error (.error e))) : MarketRun market t
  | uncrossed {t : Service.Trace} (hpaused : market.isPaused = false)
      (hread : (ChainReader.marketIsRateCrossed ctx.y market.address).run.Runs t (.ok false)) :
      MarketRun market t
  | crossed {t t' : Service.Trace} (hpaused : market.isPaused = false)
      (hread : (ChainReader.marketIsRateCrossed ctx.y market.address).run.Runs t (.ok true))
      (hwindow : Window (.matchCranker market.address) (crankOne ctx market) t') :
      MarketRun market (t ++ t')

variable {ctx}

theorem scanMarket_spec {market : MarketView} (hpaused : market.isPaused = false) :
    (scanMarket ctx market).Spec fun t r => (∀ msg, r ≠ .error (.panic msg)) →
      MarketRun ctx market t := by
  refine Fallible.spec_runs_bind (fun t err hread hr => ?_) fun t crossed hread => ?_
  · cases err with
    | error e => exact .unreadable hpaused hread
    | panic msg => exact absurd rfl (hr msg)
  cases crossed with
  | false =>
    refine Fallible.spec_ite nofun fun _ => Fallible.spec_pure fun _ => ?_
    rw [List.append_nil]
    exact .uncrossed hpaused hread
  | true =>
    refine Fallible.spec_ite (fun _ => ?_) fun h => absurd rfl h
    refine Fallible.spec_runs_bind (fun t' err hfail hr => ?_) fun t' res hwindow => ?_
    · cases err with
      | error e => exact absurd hfail (panicsOnly_withInflight _ _ t' e)
      | panic msg => exact absurd rfl (hr msg)
    · have hcrossed : MarketRun ctx market (t ++ (t' ++ [])) := by
        rw [List.append_nil]
        exact .crossed hpaused hread (window_of_runs hwindow)
      cases res with
      | ok cranked => exact Fallible.spec_pure fun _ => hcrossed
      | error e => exact Fallible.spec_throw fun _ => hcrossed

theorem scanMarkets_walks {markets : List MarketView} {t : Service.Trace}
    (h : (scanMarkets ctx markets).run.Runs t (.ok ())) : Walks (MarketRun ctx) markets t := by
  induction markets generalizing t with
  | nil =>
    obtain ⟨rfl, -⟩ := h
    exact .nil
  | cons market markets ih =>
    unfold scanMarkets at h
    split at h
    · rename_i hpaused
      exact .cons_nil (.paused hpaused) (ih h)
    rename_i hpaused
    rw [Bool.not_eq_true] at hpaused
    obtain ⟨t₁, r, t₂, rfl, hcaught, hrest⟩ := Fallible.runs_bind_inv h
    refine .cons ?_ (ih hrest)
    rcases Fallible.runs_attempt_inv hcaught with ⟨cranked, -, hscan⟩ | ⟨e, e', -, he, hscan⟩
    · exact scanMarket_spec hpaused _ _ hscan nofun
    · cases e with
      | panic msg => cases he
      | error e => exact scanMarket_spec hpaused _ _ hscan nofun

theorem panicsOnly_scanMarkets (markets : List MarketView) :
    PanicsOnly (scanMarkets ctx markets) := by
  induction markets with
  | nil => exact panicsOnly_pure ()
  | cons market markets ih =>
    unfold scanMarkets
    split
    · exact ih
    · exact (panicsOnly_caught _).bind fun _ => ih

end MatchCrankerHandler

/-! ### The claimer -/

namespace ClaimerHandler

/-- What a sweep does with one seat. -/
abbrev SeatRun (entry : PendingVaultClaim) : Service.Trace → Prop :=
  Window (.claimer entry.market entry.lenderGlobalVault entry.subVaultId) (sweepOne ctx entry)

variable {ctx}

theorem sweepAll_walks {entries : List PendingVaultClaim} {t : Service.Trace}
    (h : (sweepAll ctx entries).run.Runs t (.ok ())) : Walks (SeatRun ctx) entries t := by
  induction entries generalizing t with
  | nil =>
    obtain ⟨rfl, -⟩ := h
    exact .nil
  | cons entry entries ih =>
    obtain ⟨t₁, res, t₂, rfl, hentry, hrest⟩ := Fallible.runs_bind_inv h
    exact .cons (window_of_runs hentry) (ih hrest)

theorem panicsOnly_sweepAll (entries : List PendingVaultClaim) :
    PanicsOnly (sweepAll ctx entries) := by
  induction entries with
  | nil => exact panicsOnly_pure ()
  | cons entry entries ih => exact (panicsOnly_withInflight _ _).bind fun _ => ih

end ClaimerHandler

/-! ### The curator fee claimer -/

namespace CuratorFeeClaimerHandler

/-- The fees of the sub-vault are to be claimed: its vault is not paused, they reach the floor, and
its curator's key is there. -/
def Considers (subVault : SubVaultView) : Prop :=
  subVault.vaultIsPaused = false ∧
    ctx.cfg.thresholds.minCuratorFeeClaimAtoms ≤ subVault.accumulatedCuratorFeeAtoms ∧
      subVault.curator ∈ ctx.signers.curators

/-- What a pass does with one sub-vault. -/
inductive SubVaultRun (banks : BankRegistry) (subVault : SubVaultView) : Service.Trace → Prop
  | skipped (h : ¬ Considers ctx subVault) : SubVaultRun banks subVault []
  | tried {t : Service.Trace} (h : Considers ctx subVault)
      (hwindow : Window (.curatorFeeClaimer subVault.vault subVault.subVaultId)
        (claimOne ctx subVault banks subVault.curator) t) : SubVaultRun banks subVault t

variable {ctx}

theorem claimAll_walks {banks : BankRegistry} {subVaults : List SubVaultView} {t : Service.Trace}
    (h : (claimAll ctx banks subVaults).run.Runs t (.ok ())) :
    Walks (SubVaultRun ctx banks) subVaults t := by
  induction subVaults generalizing t with
  | nil =>
    obtain ⟨rfl, -⟩ := h
    exact .nil
  | cons subVault subVaults ih =>
    unfold claimAll at h
    split at h
    · rename_i hpaused
      refine .cons_nil (.skipped fun hconsiders => ?_) (ih h)
      rw [hconsiders.1] at hpaused
      cases hpaused
    rename_i hpaused
    split at h
    · rename_i hfloor
      exact .cons_nil (.skipped fun hc => UInt64.not_lt.2 hc.2.1 hfloor) (ih h)
    rename_i hfloor
    split at h
    · rename_i hkey
      exact .cons_nil (.skipped fun hc => hkey hc.2.2) (ih h)
    rename_i hkey
    obtain ⟨t₁, res, t₂, rfl, hwindow, hrest⟩ := Fallible.runs_bind_inv h
    have hconsiders : Considers ctx subVault :=
      ⟨by simpa using hpaused, UInt64.not_lt.1 hfloor, not_not.1 hkey⟩
    exact .cons (.tried hconsiders (window_of_runs hwindow)) (ih hrest)

theorem panicsOnly_claimAll (banks : BankRegistry) (subVaults : List SubVaultView) :
    PanicsOnly (claimAll ctx banks subVaults) := by
  induction subVaults with
  | nil => exact panicsOnly_pure ()
  | cons subVault subVaults ih =>
    unfold claimAll
    split
    · exact ih
    split
    · exact ih
    split
    · exact ih
    · exact (panicsOnly_withInflight _ _).bind fun _ => ih

end CuratorFeeClaimerHandler

/-! ### All handlers -/

/-- What a tick that returns `Ok` has done. -/
inductive HandlerKind.PassRun : HandlerKind → Service.Trace → Prop
  | promoter {t t' : Service.Trace} {markets : List MarketView}
      (hlist : (ctx.chain.listMarkets ctx.y).run.Runs t (.ok markets))
      (hwalk : Walks (PromoterHandler.MarketRun ctx) markets t') : PassRun .promoter (t ++ t')
  | liquidator {t t' : Service.Trace} {markets : List MarketView}
      (hlist : (ctx.chain.listMarkets ctx.y).run.Runs t (.ok markets))
      (hwalk : Walks (LiquidatorHandler.MarketRun ctx) markets t') : PassRun .liquidator (t ++ t')
  | matchCranker {t t' : Service.Trace} {markets : List MarketView}
      (hlist : (ctx.chain.listMarkets ctx.y).run.Runs t (.ok markets))
      (hwalk : Walks (MatchCrankerHandler.MarketRun ctx) markets t') :
      PassRun .matchCranker (t ++ t')
  /-- No sub-vault has anything to claim. -/
  | claimerIdle {t : Service.Trace} {subVaults : List SubVaultView}
      (hlist : (ctx.chain.listSubVaults ctx.y).run.Runs t (.ok subVaults))
      (hnone : ClaimerHandler.claimable subVaults = []) : PassRun .claimer t
  | claimer {t t' u v : Service.Trace} {subVaults : List SubVaultView}
      {markets : List MarketView} {claims : List PendingVaultClaim}
      (hsubVaults : (ctx.chain.listSubVaults ctx.y).run.Runs t (.ok subVaults))
      (hmarkets : (ctx.chain.listMarkets ctx.y).run.Runs t' (.ok markets))
      (hclaims : (ChainReader.listPendingVaultClaims ctx.y markets).run.Runs u (.ok claims))
      (hwalk : Walks (ClaimerHandler.SeatRun ctx) (ClaimerHandler.seatsToSweep subVaults claims)
        v) : PassRun .claimer (t ++ (t' ++ (u ++ v)))
  /-- There is no curator key. -/
  | curatorIdle (hnone : ctx.signers.curators = []) : PassRun .curatorFeeClaimer []
  | curatorFeeClaimer {t t' u : Service.Trace} {subVaults : List SubVaultView}
      {banks : BankRegistry}
      (hlist : (ctx.chain.listSubVaults ctx.y).run.Runs t (.ok subVaults))
      (hbanks : Config.banksSnapshot.run.Runs t' (.ok banks))
      (hwalk : Walks (CuratorFeeClaimerHandler.SubVaultRun ctx banks) subVaults u) :
      PassRun .curatorFeeClaimer (t ++ (t' ++ u))

variable {ctx}

/-- **A tick that returns `Ok` has gone through all it had listed**, entry by entry and in order,
whatever went wrong at other entries or in other markets. -/
theorem HandlerKind.tick_ok (handler : HandlerKind) {t : Service.Trace}
    (h : (handler.tick ctx).run.Runs t (.ok ())) : handler.PassRun ctx t := by
  cases handler with
  | promoter =>
    obtain ⟨t₁, markets, t₂, rfl, hlist, hrest⟩ := Fallible.runs_bind_inv h
    exact .promoter hlist (PromoterHandler.promoteMarkets_walks hrest)
  | liquidator =>
    obtain ⟨t₁, markets, t₂, rfl, hlist, hrest⟩ := Fallible.runs_bind_inv h
    exact .liquidator hlist (LiquidatorHandler.scanMarkets_walks hrest)
  | matchCranker =>
    obtain ⟨t₁, markets, t₂, rfl, hlist, hrest⟩ := Fallible.runs_bind_inv h
    exact .matchCranker hlist (MatchCrankerHandler.scanMarkets_walks hrest)
  | claimer =>
    obtain ⟨t₁, subVaults, t₂, rfl, hsubVaults, h⟩ := Fallible.runs_bind_inv h
    split at h
    · rename_i hnone
      obtain ⟨rfl, -⟩ := h
      rw [List.append_nil]
      exact .claimerIdle hsubVaults (List.isEmpty_iff.1 hnone)
    obtain ⟨t₃, markets, t₄, rfl, hmarkets, h⟩ := Fallible.runs_bind_inv h
    split at h
    · -- without markets there are no seats
      rename_i hnone
      obtain ⟨rfl, -⟩ := h
      have hclaims : (ChainReader.listPendingVaultClaims ctx.y markets).run.Runs [] (.ok []) := by
        rw [List.isEmpty_iff.1 hnone]
        exact ⟨rfl, rfl⟩
      exact .claimer hsubVaults hmarkets hclaims .nil
    · obtain ⟨t₅, claims, t₆, rfl, hclaims, hrest⟩ := Fallible.runs_bind_inv h
      exact .claimer hsubVaults hmarkets hclaims (ClaimerHandler.sweepAll_walks hrest)
  | curatorFeeClaimer =>
    change (CuratorFeeClaimerHandler.tick ctx).run.Runs t (.ok ()) at h
    unfold CuratorFeeClaimerHandler.tick at h
    split at h
    · rename_i hnone
      obtain ⟨rfl, -⟩ := h
      exact .curatorIdle (List.isEmpty_iff.1 hnone)
    · obtain ⟨t₁, subVaults, t₂, rfl, hlist, h⟩ := Fallible.runs_bind_inv h
      obtain ⟨t₃, banks, t₄, rfl, hbanks, hrest⟩ := Fallible.runs_bind_inv h
      exact .curatorFeeClaimer hlist hbanks (CuratorFeeClaimerHandler.claimAll_walks hrest)

/-- A node with one market and one loan, on which simulations and sends succeed. -/
def oneLoanReply : (c : ServiceCall) → c.Reply
  | .client (.getProgramAccounts _ filters) =>
    .ok (if filters.length = 1 then [sampleMarketRow 31 1 2 11 12]
      else [sampleLoanRow 31 1 1000 1000])
  | c => sampleReply [] sampleBanks c

/-- The liquidator goes through the market, and sends. -/
theorem HandlerKind.tick_ok_sample : ∃ t : Service.Trace,
    t.any (fun e => e.call.sends) = true ∧
      HandlerKind.liquidator.PassRun sampleHandlerContext t := by
  let p := (HandlerKind.liquidator.tick sampleHandlerContext).run
  have hruns : p.Runs (p.answered oneLoanReply).1 (p.answered oneLoanReply).2 :=
    Prog.runs_answered _ _
  have hok : (p.answered oneLoanReply).2.isOk = true := by decide +kernel
  cases hr : (p.answered oneLoanReply).2 with
  | error err =>
    rw [hr] at hok
    cases hok
  | ok u =>
    rw [hr] at hruns
    exact ⟨_, by decide +kernel, HandlerKind.liquidator.tick_ok hruns⟩

/-- When `x` returns an error, it has only read, and stored market lists. -/
def ErrsReading {α : Type} (x : Async Service α) : Prop :=
  x.Spec fun t r => ∀ e, r = .error (.error e) → ∀ ev ∈ t, ev.call.Lists

theorem PanicsOnly.errsReading {α : Type} {x : Async Service α} (h : PanicsOnly x) :
    ErrsReading x := by
  rintro t _ hr e rfl
  exact absurd hr (h t e)

theorem errsReading_bind {α β : Type} {x : Async Service α} {f : α → Async Service β}
    (h : x.Makes ServiceCall.Lists) (hf : ∀ a, ErrsReading (f a)) : ErrsReading (x >>= f) := by
  refine Fallible.spec_bind h (fun _ _ ht _ _ => ht) fun t a ht => ?_
  exact (hf a).mono fun t' r h' e hr => List.forall_mem_append.2 ⟨ht, h' e hr⟩

/-- **A tick that returns `Err` has failed to list**: it has only read, and stored market lists. -/
theorem HandlerKind.tick_error (handler : HandlerKind) {t : Service.Trace} {e : Error}
    (h : (handler.tick ctx).run.Runs t (.error (.error e))) : ∀ ev ∈ t, ev.call.Lists := by
  have hsubVaults : (ctx.chain.listSubVaults ctx.y).Makes ServiceCall.Lists :=
    (onlyReads_listSubVaults _ _).mono fun _ => .inl
  have htick : ErrsReading (handler.tick ctx) := by
    cases handler with
    | promoter =>
      exact errsReading_bind (lists_listMarkets _ _) fun markets =>
        (PromoterHandler.panicsOnly_promoteMarkets markets).errsReading
    | liquidator =>
      exact errsReading_bind (lists_listMarkets _ _) fun markets =>
        (LiquidatorHandler.panicsOnly_scanMarkets markets).errsReading
    | matchCranker =>
      exact errsReading_bind (lists_listMarkets _ _) fun markets =>
        (MatchCrankerHandler.panicsOnly_scanMarkets markets).errsReading
    | claimer =>
      refine errsReading_bind hsubVaults fun subVaults => ?_
      split
      · exact (panicsOnly_pure ()).errsReading
      refine errsReading_bind (lists_listMarkets _ _) fun markets => ?_
      split
      · exact (panicsOnly_pure ()).errsReading
      have hclaims : (ChainReader.listPendingVaultClaims ctx.y markets).Makes ServiceCall.Lists :=
        (onlyReads_listPendingVaultClaims _ _).mono fun _ => .inl
      exact errsReading_bind hclaims fun claims =>
        (ClaimerHandler.panicsOnly_sweepAll _).errsReading
    | curatorFeeClaimer =>
      change ErrsReading (CuratorFeeClaimerHandler.tick ctx)
      unfold CuratorFeeClaimerHandler.tick
      split
      · exact (panicsOnly_pure ()).errsReading
      refine errsReading_bind hsubVaults fun subVaults => ?_
      have hbanks : Config.banksSnapshot.Makes ServiceCall.Lists :=
        onlyReads_banksSnapshot.mono fun _ => .inl
      exact errsReading_bind hbanks fun banks =>
        (CuratorFeeClaimerHandler.panicsOnly_claimAll banks subVaults).errsReading
  exact htick t _ h e rfl

/-- The markets cannot be listed. -/
theorem HandlerKind.tick_error_sample : ∃ (t : Service.Trace) (e : Error), t.length = 2 ∧
    (HandlerKind.promoter.tick sampleHandlerContext).run.Runs t (.error (.error e)) ∧
      ∀ ev ∈ t, ev.call.Lists := by
  let p := (HandlerKind.promoter.tick sampleHandlerContext).run
  have hruns : p.Runs (p.answered ServiceCall.refused).1 (p.answered ServiceCall.refused).2 :=
    Prog.runs_answered _ _
  have herror : ∃ e, (p.answered ServiceCall.refused).2 = .error (.error e) := ⟨_, rfl⟩
  obtain ⟨e, he⟩ := herror
  rw [he] at hruns
  exact ⟨_, e, rfl, hruns, HandlerKind.promoter.tick_error hruns⟩

end YdeltaCrankers
