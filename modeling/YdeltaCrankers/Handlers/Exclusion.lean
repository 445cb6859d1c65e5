import YdeltaCrankers.Handlers.Sweeping
import YdeltaCrankers.Interaction.Guard

/-!
# The in-flight sets exclude and do not leak

Any number of ticks of one handler run side by side, and the rest of the process moves as it likes
around its in-flight set (`inflightEnv`).  A tick *attempts* a key between a successful claim and
the release of the key (`Attempting`).

* `Bracketed` : a program releases only keys it has claimed, and none is left when it returns.
* `HandlerKind.bracketed_tick` : the ticks of all five handlers are.
* `HandlerKind.inflight_exclusive` : at each moment the in-flight set is exactly the set of the keys
  attempted, each by one tick, and it is empty when no tick runs.

A release is not tied to a scope: a tick that panics leaves its key behind.  A panic ends the
process, and with it the set.
-/

namespace YdeltaCrankers

open Interaction

/-- What an event does to the in-flight sets. -/
def inflightTouch : Service.Event → Touch InflightKey
  | ⟨.process (.claimInflight key), true⟩ => .take key
  | ⟨.process (.claimInflight key), false⟩ => .refuse key
  | ⟨.process (.releaseInflight key), _⟩ => .give key
  | _ => .idle

theorem inflightTouch_idle {e : Service.Event} (h : ¬ e.call.TouchesInflight) :
    inflightTouch e = .idle := by
  obtain ⟨c, r⟩ := e
  cases c with
  | rpc c => rfl
  | client c => rfl
  | process c =>
    cases c with
    | claimInflight key => exact absurd ⟨key, .inl rfl⟩ h
    | releaseInflight key => exact absurd ⟨key, .inr rfl⟩ h
    | _ => rfl

theorem inflightTouch_eq_take {e : Service.Event} {key : InflightKey}
    (h : inflightTouch e = .take key) : e = ⟨.process (.claimInflight key), true⟩ := by
  unfold inflightTouch at h
  split at h <;> cases h
  rfl

theorem inflightTouch_eq_refuse {e : Service.Event} {key : InflightKey}
    (h : inflightTouch e = .refuse key) : e = ⟨.process (.claimInflight key), false⟩ := by
  unfold inflightTouch at h
  split at h <;> cases h
  rfl

theorem inflightTouch_eq_give {e : Service.Event} {key : InflightKey}
    (h : inflightTouch e = .give key) : e = ⟨.process (.releaseInflight key), ()⟩ := by
  unfold inflightTouch at h
  split at h <;> cases h
  rfl

/-- After these events, the tick is between a successful claim of the key and its release. -/
abbrev Attempting (t : Service.Trace) (key : InflightKey) : Prop := Holds inflightTouch t key

/-- `x` releases only keys it has claimed, and unless it panics none is left in the end. -/
abbrev Bracketed {α : Type} (x : Async Service α) : Prop :=
  x.Brackets inflightTouch Failure.IsError

/-! ### The ticks -/

section Ticks

variable {α β : Type}

theorem bracketed_of_makes {x : Async Service α} {G : ServiceCall → Prop} (h : x.Makes G)
    (hG : ∀ c, G c → ¬ c.TouchesInflight) : Bracketed x :=
  Fallible.brackets_of_idle (Fallible.Spec.mono h fun _ _ ht e he =>
    inflightTouch_idle (hG e.call (ht e he)))

theorem bracketed_of_onlyReads {x : Async Service α} (h : OnlyReads x) : Bracketed x :=
  bracketed_of_makes h fun _ hc => ServiceCall.not_touchesInflight (.inl hc)

theorem bracketed_caught {x : Async Service α} (h : Bracketed x) :
    Bracketed (Service.caught x) := by
  refine Fallible.Brackets.attempt h fun err err' hrec => ?_
  cases err with
  | error e => exact ⟨e, rfl⟩
  | panic msg => cases hrec

theorem bracketed_listMarkets (chain : ChainReader) (y : Ydelta) :
    Bracketed (chain.listMarkets y) := by
  refine bracketed_of_makes (lists_listMarkets chain y) fun c hc => ?_
  rcases hc with hc | ⟨markets, rfl⟩
  · exact ServiceCall.not_touchesInflight (.inl hc)
  · rintro ⟨key, h | h⟩ <;> cases h

/-- **A key is claimed, attempted and released.** -/
theorem bracketed_withInflight {key : InflightKey} {body : Async Service Bool}
    (h : body.Makes fun (c : ServiceCall) => c.Reads ∨ c.Sends) :
    Bracketed (withInflight key body) := by
  have hidle : body.Spec fun t _ => ∀ e ∈ t, inflightTouch e = .idle :=
    Fallible.Spec.mono h fun _ _ ht e he =>
      inflightTouch_idle (ServiceCall.not_touchesInflight (ht e he))
  refine Fallible.spec_query_bind fun claimed => ?_
  cases claimed with
  | false =>
    -- the key is attempted elsewhere, and is left alone
    refine Fallible.spec_ite nofun fun _ => Fallible.spec_pure ⟨disciplined_singleton nofun, ?_⟩
    intro _ k hk
    cases holds_singleton.1 hk
  | true =>
    refine Fallible.spec_ite (fun _ => ?_) fun h => absurd rfl h
    have hcaught : (Service.caught body).Spec fun t r => (∀ e ∈ t, inflightTouch e = .idle) ∧
        ∀ err, r = .error err → ¬ err.IsError :=
      Fallible.spec_attempt hidle (fun _ _ h => ⟨h, fun _ => nofun⟩)
        (fun _ _ _ h _ => ⟨h, fun _ => nofun⟩) fun t err h hrec => ⟨h, by
          rintro _ ⟨⟩ ⟨e, rfl⟩
          cases hrec⟩
    refine Fallible.spec_bind hcaught (fun t err ht => ?_) fun t res ht => ?_
    · -- only a panic gets past the release
      exact ⟨disciplined_open (k := key) rfl ht.1, fun hP => absurd (hP err rfl) (ht.2 err rfl)⟩
    · refine Fallible.spec_query_bind fun _ => Fallible.spec_pure ?_
      have htake : inflightTouch ⟨.process (.claimInflight key), true⟩ = .take key := rfl
      have hgive : inflightTouch ⟨.process (.releaseInflight key), ()⟩ = .give key := rfl
      have hwindow := brackets_window htake ht.1 hgive
      exact ⟨hwindow.1, fun _ => hwindow.2⟩

/-! ### What an attempt calls -/

variable (ctx : HandlerContext)

namespace PromoterHandler

theorem promoteOne_makes (market : MarketView) (entry : PendingMatchedLoan) :
    (promoteOne ctx market entry).Makes fun (c : ServiceCall) => c.Reads ∨ c.Sends := by
  refine (makes_banksSnapshot (.inl trivial)).bind fun banks => ?_
  refine (Fallible.makes_result _).bind fun debtBank => ?_
  refine ((onlyReads_assembleVaultSettle ctx _ _ _ _).mono fun _ => .inl).bind fun settle => ?_
  exact makes_simulateAndSend (.inl trivial) (.inr rfl)

theorem bracketed_promoteEntries (market : MarketView) (entries : List PendingMatchedLoan) :
    Bracketed (promoteEntries ctx market entries) := by
  induction entries with
  | nil => exact Fallible.brackets_pure _
  | cons entry entries ih =>
    exact (bracketed_withInflight (promoteOne_makes ctx market entry)).bind fun _ => ih

theorem bracketed_promoteMarkets (markets : List MarketView) :
    Bracketed (promoteMarkets ctx markets) := by
  induction markets with
  | nil => exact Fallible.brackets_pure _
  | cons market markets ih =>
    unfold promoteMarkets
    split
    · exact ih
    have hpending := onlyReads_readPendingMatchedLoans ctx.y market.address
    refine (bracketed_caught (bracketed_of_onlyReads hpending)).bind fun r => ?_
    cases r with
    | error e => exact ih
    | ok pending => exact (bracketed_promoteEntries ctx market pending).bind fun _ => ih

end PromoterHandler

namespace ClaimerHandler

theorem bracketed_sweepAll (entries : List PendingVaultClaim) :
    Bracketed (sweepAll ctx entries) := by
  induction entries with
  | nil => exact Fallible.brackets_pure _
  | cons entry entries ih =>
    exact (bracketed_withInflight (sweepOne_makes entry)).bind fun _ => ih

theorem bracketed_tick : Bracketed (tick ctx) := by
  refine (bracketed_of_onlyReads (onlyReads_listSubVaults _ _)).bind fun subVaults => ?_
  split
  · exact Fallible.brackets_pure _
  refine (bracketed_listMarkets _ _).bind fun markets => ?_
  split
  · exact Fallible.brackets_pure _
  refine (bracketed_of_onlyReads (onlyReads_listPendingVaultClaims _ _)).bind fun claims => ?_
  exact bracketed_sweepAll ctx _

end ClaimerHandler

namespace LiquidatorHandler

theorem tryClose_makes (market : MarketView) (loan : LoanView) (closing : Closing) :
    (tryClose ctx market loan closing).Makes fun (c : ServiceCall) => c.Reads ∨ c.Sends := by
  refine (makes_banksSnapshot (.inl trivial)).bind fun banks => ?_
  refine (Fallible.makes_result _).bind fun ⟨debtBank, collateralBank⟩ => ?_
  exact makes_closeWith ctx (fun _ _ _ => .inl trivial) (fun _ _ => .inl trivial)
    (fun _ => .inl trivial) (fun _ _ _ => .inl trivial) fun _ _ => .inr rfl

theorem trySettleOrLiquidate_makes (market : MarketView) (loan : LoanView)
    (matured maybeLtvBreach : Bool) :
    (trySettleOrLiquidate ctx market loan matured maybeLtvBreach).Makes
      fun (c : ServiceCall) => c.Reads ∨ c.Sends := by
  unfold trySettleOrLiquidate
  split
  · refine (tryClose_makes ctx market loan _).bind fun liquidated => ?_
    split
    · exact Fallible.makes_pure _
    split
    · exact tryClose_makes ctx market loan _
    · exact Fallible.makes_pure _
  split
  · exact tryClose_makes ctx market loan _
  · exact Fallible.makes_pure _

theorem bracketed_scanLoan (market : MarketView) (tNow : Int64) (loan : LoanView) :
    Bracketed (scanLoan ctx market tNow loan) := by
  unfold scanLoan
  split
  · exact Fallible.brackets_pure _
  simp only
  split
  · exact Fallible.brackets_pure _
  refine (bracketed_withInflight (trySettleOrLiquidate_makes ctx market loan _ _)).bind
    fun res => ?_
  cases res <;> exact Fallible.brackets_pure _

theorem bracketed_scanLoans (market : MarketView) (tNow : Int64) (loans : List LoanView) :
    Bracketed (scanLoans ctx market tNow loans) := by
  induction loans with
  | nil => exact Fallible.brackets_pure _
  | cons loan loans ih =>
    exact (bracketed_scanLoan ctx market tNow loan).bind fun _ =>
      ih.bind fun _ => Fallible.brackets_pure _

theorem bracketed_scanMarket (market : MarketView) : Bracketed (scanMarket ctx market) := by
  refine (bracketed_of_onlyReads (onlyReads_listLoansForMarket _ _ _)).bind fun loans => ?_
  have hnow : OnlyReads (Service.process .nowUnix) := Fallible.makes_ask trivial
  refine (bracketed_of_onlyReads hnow).bind fun tNow => ?_
  exact bracketed_scanLoans ctx market tNow loans

theorem bracketed_scanMarkets (markets : List MarketView) :
    Bracketed (scanMarkets ctx markets) := by
  induction markets with
  | nil => exact Fallible.brackets_pure _
  | cons market markets ih =>
    unfold scanMarkets
    split
    · exact ih
    · exact (bracketed_caught (bracketed_scanMarket ctx market)).bind fun _ => ih

end LiquidatorHandler

namespace CuratorFeeClaimerHandler

theorem claimOne_makes (subVault : SubVaultView) (banks : BankRegistry) (curatorPk : Pubkey) :
    (claimOne ctx subVault banks curatorPk).Makes
      fun (c : ServiceCall) => c.Reads ∨ c.Sends := by
  unfold claimOne
  split
  · exact Fallible.makes_throw _
  split
  · exact Fallible.makes_throw _
  · exact Fallible.Makes.bind (Fallible.makes_ask (.inr rfl)) fun _ => Fallible.makes_pure _

theorem bracketed_claimAll (banks : BankRegistry) (subVaults : List SubVaultView) :
    Bracketed (claimAll ctx banks subVaults) := by
  induction subVaults with
  | nil => exact Fallible.brackets_pure _
  | cons subVault subVaults ih =>
    unfold claimAll
    split
    · exact ih
    split
    · exact ih
    split
    · exact ih
    exact (bracketed_withInflight (claimOne_makes ctx subVault banks _)).bind fun _ => ih

theorem bracketed_tick : Bracketed (tick ctx) := by
  unfold tick
  split
  · exact Fallible.brackets_pure _
  refine (bracketed_of_onlyReads (onlyReads_listSubVaults _ _)).bind fun subVaults => ?_
  refine (bracketed_of_onlyReads onlyReads_banksSnapshot).bind fun banks => ?_
  exact bracketed_claimAll ctx banks subVaults

end CuratorFeeClaimerHandler

namespace MatchCrankerHandler

theorem crankOne_makes (market : MarketView) :
    (crankOne ctx market).Makes fun (c : ServiceCall) => c.Reads ∨ c.Sends := by
  refine (makes_banksSnapshot (.inl trivial)).bind fun banks => ?_
  refine (Fallible.makes_result _).bind fun ⟨debtBank, collateralBank⟩ => ?_
  exact makes_crankWith ctx (fun _ _ _ => .inl trivial) (fun _ _ => .inl trivial)
    fun _ _ => .inr rfl

theorem bracketed_scanMarket (market : MarketView) : Bracketed (scanMarket ctx market) := by
  refine (bracketed_of_onlyReads (onlyReads_marketIsRateCrossed _ _)).bind fun crossed => ?_
  split
  · refine (bracketed_withInflight (crankOne_makes ctx market)).bind fun r => ?_
    cases r
    · exact Fallible.brackets_throw _
    · exact Fallible.brackets_pure _
  · exact Fallible.brackets_pure _

theorem bracketed_scanMarkets (markets : List MarketView) :
    Bracketed (scanMarkets ctx markets) := by
  induction markets with
  | nil => exact Fallible.brackets_pure _
  | cons market markets ih =>
    unfold scanMarkets
    split
    · exact ih
    · exact (bracketed_caught (bracketed_scanMarket ctx market)).bind fun _ => ih

end MatchCrankerHandler

/-- **Every handler releases what it claims.** -/
theorem HandlerKind.bracketed_tick (handler : HandlerKind) : Bracketed (handler.tick ctx) := by
  cases handler with
  | promoter =>
    exact (bracketed_listMarkets _ _).bind (PromoterHandler.bracketed_promoteMarkets ctx)
  | claimer => exact ClaimerHandler.bracketed_tick ctx
  | liquidator =>
    exact (bracketed_listMarkets _ _).bind (LiquidatorHandler.bracketed_scanMarkets ctx)
  | curatorFeeClaimer => exact CuratorFeeClaimerHandler.bracketed_tick ctx
  | matchCranker =>
    exact (bracketed_listMarkets _ _).bind (MatchCrankerHandler.bracketed_scanMarkets ctx)

end Ticks

/-! ### Ticks side by side -/

/-- Memory, while the ticks alone touch the in-flight set of their handler. -/
abbrev inflightEnv (y : Ydelta) : Env Service Memory :=
  (Memory.env y).rely fun s s' => s'.inflight = s.inflight

/-- A key is claimed only while it is not in the set, and only claims and releases change the
set. -/
theorem handsOut_inflight (y : Ydelta) :
    Env.HandsOut inflightTouch (inflightEnv y) fun s => (s.inflight : Set InflightKey) where
  tick h := by
    change _ = _ at h
    rw [h]
  idle {s c r s'} ha h := by
    obtain ⟨-, rfl⟩ := ha
    rw [Memory.inflight_after s r]
    rintro ⟨key, rfl | rfl⟩
    · cases r <;> cases h
    · cases h
  take {s c r s' k} ha h := by
    obtain ⟨hallow, rfl⟩ := ha
    cases inflightTouch_eq_take h
    have hfree : true = decide (k ∉ s.inflight) := hallow
    exact ⟨of_decide_eq_true hfree.symm, Finset.coe_insert k s.inflight⟩
  refuse {s c r s' k} ha h := by
    obtain ⟨hallow, rfl⟩ := ha
    cases inflightTouch_eq_refuse h
    have hin : false = decide (k ∉ s.inflight) := hallow
    have hmem : k ∈ s.inflight := not_not.1 (of_decide_eq_false hin.symm)
    refine ⟨hmem, ?_⟩
    change ((insert k s.inflight : Finset InflightKey) : Set InflightKey) = _
    rw [Finset.insert_eq_of_mem hmem]
  give {s c r s' k} ha h := by
    obtain ⟨-, rfl⟩ := ha
    cases inflightTouch_eq_give h
    exact Finset.coe_erase k s.inflight

/-- The tick has made no call yet, or it has returned. -/
def NotRunning (t : Service.Trace) (p : Prog Service (Except Failure Unit)) : Prop :=
  t = [] ∨ ∃ r, p = .ret r ∧ NoPanic r

section Instance

variable {ι : Type} [DecidableEq ι] {ctx : HandlerContext} {s s' : Memory}
  {T : List (ι × Memory × Service.Event)} {ps' : ι → Prog Service (Except Failure Unit)}

open Env in
/-- **The in-flight set excludes and does not leak.**  In every run of any number of ticks of one
handler, begun with an empty in-flight set: no two ticks attempt the same key, the set is exactly
that of the keys attempted, it is empty when no tick runs, and a claim is refused only while some
tick attempts the key. -/
theorem HandlerKind.inflight_exclusive (handler : HandlerKind) (hs : s.inflight = ∅)
    (hT : (inflightEnv ctx.y).Interleaving (fun _ : ι => (handler.tick ctx).run) s T ps' s') :
    (∀ i j key, Attempting (eventsOf i T) key → Attempting (eventsOf j T) key → i = j) ∧
    (∀ key, key ∈ s'.inflight ↔ ∃ i, Attempting (eventsOf i T) key) ∧
    ((∀ i, NotRunning (eventsOf i T) (ps' i)) → s'.inflight = ∅) ∧
    ∀ T₁ i s₁ key T₂, T = T₁ ++ (i, s₁, ⟨.process (.claimInflight key), false⟩) :: T₂ →
      ∃ j, Attempting (eventsOf j T₁) key := by
  have hE := handsOut_inflight ctx.y
  have hempty : (s.inflight : Set InflightKey) = ∅ := by rw [hs, Finset.coe_empty]
  have hbrackets := handler.bracketed_tick ctx
  have hps : ∀ i, Disciplined inflightTouch (eventsOf i T) := fun i =>
    hbrackets.disciplined service_reply_nonempty (hT.reaches i)
  have hheld := hE.holders hempty hps hT
  refine ⟨fun i j key => hheld.unique, hheld.mem_iff, fun hidle => ?_, ?_⟩
  · refine Finset.coe_eq_empty.1 (hE.none_out hempty hps hT fun i key => ?_)
    rcases hidle i with hnil | ⟨r, hr, hpanic⟩
    · rw [hnil]
      exact not_holds_nil
    · have hreach := hT.reaches i
      rw [hr] at hreach
      refine hbrackets.none_held hreach (fun err herr => ?_) key
      cases err with
      | error e => exact ⟨e, rfl⟩
      | panic msg => exact absurd herr (hpanic msg)
  · intro T₁ i s₁ key T₂ hsplit
    exact hE.refused hempty hps hT hsplit rfl

end Instance

/-- A memory with a cached market. -/
def cachedMarket : Memory := { Memory.start 0 with marketsCache := some ⟨0, [sampleMarket]⟩ }

/-- Two ticks of the liquidator over one loan: the first claims it, the second is refused. -/
def twoTicks : List (Fin 2 × Memory × Service.Event) ×
    (Fin 2 → Prog Service (Except Failure Unit)) × Memory :=
  Env.scheduled (Memory.reply (sampleReply [sampleLoanRow 31 1 1000 1000] sampleBanks))
    (Memory.after .plain) [0, 0, 0, 0, 1, 1, 1, 1]
    (fun _ => (HandlerKind.liquidator.tick sampleHandlerContext).run) cachedMarket

open Env in
theorem HandlerKind.inflight_exclusive_sample :
    ∃ i, Attempting (eventsOf i twoTicks.1) (.liquidator (.fill 32 41)) ∧
      ∀ j, Attempting (eventsOf j twoTicks.1) (.liquidator (.fill 32 41)) → j = i := by
  have hT : (inflightEnv sampleHandlerContext.y).Interleaving
      (fun _ : Fin 2 => (HandlerKind.liquidator.tick sampleHandlerContext).run) cachedMarket
      twoTicks.1 twoTicks.2.1 twoTicks.2.2 :=
    interleaving_scheduled (E := inflightEnv sampleHandlerContext.y)
      (fun s c => ⟨s.allows_reply _ c, rfl⟩) _ _ _
  obtain ⟨hunique, hmem, -⟩ := inflight_exclusive .liquidator rfl hT
  have hclaimed : InflightKey.liquidator (.fill 32 41) ∈ twoTicks.2.2.inflight := by
    decide +kernel
  obtain ⟨i, hi⟩ := (hmem _).1 hclaimed
  exact ⟨i, hi, fun j hj => hunique j i _ hj hi⟩

end YdeltaCrankers
