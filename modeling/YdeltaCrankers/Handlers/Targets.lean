import YdeltaCrankers.Handlers.Exclusion
import YdeltaCrankers.Handlers.Passes
import YdeltaCrankers.Interaction.Windows
import YdeltaCrankers.MarginfiBank.Layout

/-!
# What a tick sends for

A tick lists what there is to do, and sends for some of it.  `Target` is what a send is for: a
matched loan, a seat, a loan, the book of a market, or the fees of a sub-vault.  The targets listed
can be read off the replies the tick gets outside of its attempts (`listedTargets`), and the targets
sent for off its sends (`sentTargets`).

* `HandlerKind.sent_sublist` : the targets a tick sends for are among those it has listed, in the
  order of the list, and none is sent for more often than it is listed.
-/

namespace YdeltaCrankers

open Interaction

/-- What a send is for. -/
inductive Target where
  | matchedLoan (market : Pubkey) (sequence : UInt64)
  | seat (market vault : Pubkey) (subVaultId : UInt16)
  | loan (market : Pubkey) (sequence : UInt64)
  | curatorFee (vaultBank : Pubkey) (subVaultId : UInt16)
  | book (market : Pubkey)
  /-- Anything else. -/
  | other
deriving DecidableEq

/-! ### What is sent -/

/-- What the instruction is for. -/
def Instruction.target : Instruction → Target
  | .processMatchedLoan args => .matchedLoan args.market args.sequence
  | .claimRepaymentForSubVault args => .seat args.market args.lenderGlobalVault args.subVaultId
  | .settleMaturedLoan args | .liquidateLoan args => .loan args.market args.sequence
  | .claimCuratorFee args => .curatorFee args.vaultBank args.subVaultId
  | .matchCrank args => .book args.market
  | _ => .other

/-- What a bundle is for: the instructions before the last one are feed updates. -/
def bundleTarget (ixs : List Instruction) : Target :=
  (ixs.getLast?.map Instruction.target).getD .other

/-- What the call sends for, if it sends. -/
def ServiceCall.sentTarget : ServiceCall → Option Target
  | .rpc (.sendSignedLabeled _ ixs _) => some (bundleTarget ixs)
  | .rpc (.sendSignedV0Labeled _ ixs _ _) => some (bundleTarget ixs)
  | .client (.sendAndConfirmTransaction tx) => some (bundleTarget tx.message.ixs)
  | _ => none

/-- The targets sent for, in order. -/
def sentTargets (t : Service.Trace) : List Target := t.filterMap fun e => e.call.sentTarget

theorem ServiceCall.sentTarget_eq_none {c : ServiceCall} (h : ¬ c.Sends) : c.sentTarget = none := by
  cases c with
  | rpc c => cases c <;> first | rfl | exact absurd rfl h
  | client c => cases c <;> first | rfl | exact absurd rfl h
  | process c => rfl

theorem Quiet.sentTargets {t : Service.Trace} (h : Quiet t) : sentTargets t = [] :=
  List.filterMap_eq_nil_iff.2 fun e he => ServiceCall.sentTarget_eq_none (h e he)

theorem bundleTarget_append (swbIxs : List Instruction) (ix : Instruction) :
    bundleTarget (swbIxs ++ [ix]) = ix.target := by
  rw [bundleTarget, List.getLast?_concat, Option.map_some, Option.getD_some]

/-! ### What is listed -/

namespace Ydelta

variable (y : Ydelta)

/-- The matched loans of a market account. -/
def matchedLoanTargets (market : Pubkey) (data : List UInt8) : List Target :=
  match y.splitMarket data with
  | .error _ => []
  | .ok (fixed, dyn) =>
    if fixed.matchedLoansRootIndex = y.nil then []
    else (y.matchedLoans dyn fixed.matchedLoansRootIndex).map fun node =>
      .matchedLoan market node.sequence

/-- The vault-owned seats of a market account with shares to sweep. -/
def seatTargets (market : Pubkey) (data : List UInt8) : List Target :=
  match y.splitMarket data with
  | .error _ => []
  | .ok (fixed, dyn) =>
    if fixed.claimedSeatsRootIndex = y.nil then []
    else (y.claimedSeats dyn fixed.claimedSeatsRootIndex).filterMap fun seat =>
      if seat.ownerKind ≠ y.ownerKindSubVault then none
      else if seat.debtWithdrawableShares = 0 then none
      else some (.seat market seat.owner seat.subVaultId)

end Ydelta

/-- The targets a handler is shown by one of its reads. -/
def HandlerKind.lists (y : Ydelta) : HandlerKind → Service.Event → List Target
  | .promoter, ⟨.rpc (.getAccountData market), .ok (some data)⟩ => y.matchedLoanTargets market data
  | .claimer, ⟨.rpc (.getAccountData market), .ok (some data)⟩ => y.seatTargets market data
  | .liquidator,
      ⟨.client (.getProgramAccounts _ [.dataSize _, .memcmp _ _, .memcmp _ market]), .ok accts⟩ =>
    (y.decodeLoans accts).map fun loan => .loan (keyAt market 0) loan.matchedLoanSequence
  | .curatorFeeClaimer, ⟨.client (.getProgramAccounts _ _), .ok accts⟩ =>
    (accts.flatMap fun (pk, acct) => y.decodeSubVaults pk acct.data).map fun subVault =>
      .curatorFee subVault.vaultBank subVault.subVaultId
  | .matchCranker, ⟨.rpc (.getAccountData market), .ok (some _)⟩ => [.book market]
  | _, _ => []

/-- The targets a tick is shown outside of its attempts, in order. -/
def HandlerKind.listedTargets (y : Ydelta) (handler : HandlerKind) (t : Service.Trace) :
    List Target :=
  (outside inflightTouch t).flatMap (handler.lists y)

/-! ### One send for each attempt -/

section Once

variable {α β : Type} {target : Target}

/-- `x` sends at most once, for the target, and has not sent when it returns `false`. -/
def SendsOnce (target : Target) (x : Async Service Bool) : Prop :=
  x.Spec fun t r => (sentTargets t).Sublist [target] ∧ (r = .ok false → sentTargets t = [])

theorem sendsOnce_quiet {x : Async Service Bool} (h : x.Spec fun t _ => Quiet t) :
    SendsOnce target x :=
  Fallible.Spec.mono h fun _ _ ht => ⟨by rw [ht.sentTargets]; exact List.nil_sublist _,
    fun _ => ht.sentTargets⟩

theorem sendsOnce_pure (b : Bool) : SendsOnce target (pure b) :=
  sendsOnce_quiet (Fallible.spec_pure quiet_nil)

theorem sendsOnce_throw (err : Failure) : SendsOnce target (throw err) :=
  sendsOnce_quiet (Fallible.spec_throw quiet_nil)

theorem sendsOnce_bind {x : Async Service α} {f : α → Async Service Bool} (h : OnlyReads x)
    (hf : ∀ a, SendsOnce target (f a)) : SendsOnce target (x >>= f) := by
  refine Fallible.spec_bind h (fun t e ht => ?_) fun t a ht => (hf a).mono fun t' r h' => ?_
  · rw [(quiet_of_reads ht).sentTargets]
    exact ⟨List.nil_sublist _, nofun⟩
  · rw [sentTargets, List.filterMap_append]
    have hnil := (quiet_of_reads ht).sentTargets
    rw [sentTargets] at hnil
    rw [hnil]
    exact h'

/-- The send at the end of an attempt. -/
theorem sendsOnce_send {c : RpcCall} (h : (ServiceCall.rpc c).sentTarget = some target) :
    SendsOnce target (do let _sig ← Service.rpc c; return true) := by
  have hsent : ∀ r, sentTargets [⟨.rpc c, r⟩] = [target] := fun r => by
    simp [sentTargets, h]
  refine Fallible.spec_ask_bind (fun r e _ => ?_) fun r sig _ => Fallible.spec_pure ?_
  · rw [hsent r]
    exact ⟨.refl _, nofun⟩
  · rw [hsent r]
    exact ⟨.refl _, nofun⟩

/-- The end of the promoter and of the claimer. -/
theorem sendsOnce_simulateAndSend {ix : Instruction} {payer : Pubkey} {ixLabel : String}
    (h : ix.target = target) : SendsOnce target (do
      let sim ← Service.rpc (.simulate [ix] payer)
      if !sim.ok then return false
      else do
        let _sig ← Service.rpc (.sendSignedLabeled ixLabel [ix] [payer])
        return true) := by
  refine sendsOnce_bind (Fallible.makes_ask trivial) fun sim => ?_
  split
  · exact sendsOnce_pure _
  · exact sendsOnce_send (by rw [ServiceCall.sentTarget, ← h]; rfl)

/-- What is tried only when the first attempt has not sent. -/
theorem sendsOnce_orElse {x y : Async Service Bool} (h : SendsOnce target x)
    (h' : SendsOnce target y) :
    SendsOnce target (do if ← x then return true else y) := by
  refine Fallible.spec_bind h (fun t e ht => ⟨ht.1, nofun⟩) fun t b ht => ?_
  cases b with
  | true =>
    refine Fallible.spec_ite (fun _ => Fallible.spec_pure ?_) fun h => absurd rfl h
    rw [List.append_nil]
    exact ⟨ht.1, nofun⟩
  | false =>
    refine Fallible.spec_ite nofun fun _ => Fallible.Spec.mono h' fun t' r ht' => ?_
    have hnil := ht.2 rfl
    rw [sentTargets] at hnil
    rw [sentTargets, List.filterMap_append, hnil, List.nil_append]
    exact ht'

variable (ctx : HandlerContext)

theorem PromoterHandler.sendsOnce_promoteOne (market : MarketView) (entry : PendingMatchedLoan) :
    SendsOnce (.matchedLoan market.address entry.sequence) (promoteOne ctx market entry) := by
  refine sendsOnce_bind onlyReads_banksSnapshot fun banks => ?_
  refine sendsOnce_bind (onlyReads_liftError _) fun debtBank => ?_
  refine sendsOnce_bind (onlyReads_assembleVaultSettle ctx _ _ _ _) fun vaultSettle => ?_
  exact sendsOnce_simulateAndSend rfl

theorem ClaimerHandler.sendsOnce_sweepOne (entry : PendingVaultClaim) :
    SendsOnce (.seat entry.market entry.lenderGlobalVault entry.subVaultId)
      (sweepOne ctx entry) := by
  refine sendsOnce_bind onlyReads_banksSnapshot fun banks => ?_
  refine sendsOnce_bind (onlyReads_liftError _) fun debtBank => ?_
  exact sendsOnce_simulateAndSend rfl

theorem CuratorFeeClaimerHandler.sendsOnce_claimOne (subVault : SubVaultView)
    (banks : BankRegistry) (curatorPk : Pubkey) :
    SendsOnce (.curatorFee subVault.vaultBank subVault.subVaultId)
      (claimOne ctx subVault banks curatorPk) := by
  unfold claimOne
  split
  · exact sendsOnce_throw _
  split
  · exact sendsOnce_throw _
  · exact sendsOnce_send rfl

theorem MatchCrankerHandler.sendsOnce_crankOne (market : MarketView) :
    SendsOnce (.book market.address) (crankOne ctx market) := by
  refine sendsOnce_bind onlyReads_banksSnapshot fun banks => ?_
  refine sendsOnce_bind (onlyReads_liftError _) fun ⟨debtBank, collateralBank⟩ => ?_
  refine sendsOnce_bind (onlyReads_fetchSwbBundle ctx _ _) fun ⟨swbIxs, swbLuts⟩ => ?_
  refine sendsOnce_bind (Fallible.makes_ask trivial) fun sim => ?_
  split
  · exact sendsOnce_pure _
  split
  · exact sendsOnce_pure _
  · exact sendsOnce_send (congrArg some (bundleTarget_append _ _))

namespace LiquidatorHandler

theorem sendsOnce_tryClose {market : MarketView} {loan : LoanView} {closing : Closing}
    (h : ∀ args, (closing.build args).target = .loan args.market args.sequence) :
    SendsOnce (.loan market.address loan.matchedLoanSequence)
      (tryClose ctx market loan closing) := by
  refine sendsOnce_bind onlyReads_banksSnapshot fun banks => ?_
  refine sendsOnce_bind (onlyReads_liftError _) fun ⟨debtBank, collateralBank⟩ => ?_
  refine sendsOnce_bind (onlyReads_fetchSwbBundle ctx _) fun ⟨swbIxs, swbLuts⟩ => ?_
  refine sendsOnce_bind (Fallible.makes_ask trivial) fun sim => ?_
  split
  · exact sendsOnce_pure _
  split
  · exact sendsOnce_pure _
  refine sendsOnce_bind (onlyReads_pickRepayAmount ctx _ loan) fun amount => ?_
  cases amount with
  | none => exact sendsOnce_pure _
  | some repayAtomsMax =>
    refine sendsOnce_bind (Fallible.makes_ask trivial) fun confirm => ?_
    split
    · exact sendsOnce_pure _
    · exact sendsOnce_send (congrArg some ((bundleTarget_append _ _).trans (h _)))

theorem sendsOnce_trySettleOrLiquidate (market : MarketView) (loan : LoanView)
    (matured maybeLtvBreach : Bool) :
    SendsOnce (.loan market.address loan.matchedLoanSequence)
      (trySettleOrLiquidate ctx market loan matured maybeLtvBreach) := by
  have hsettle : SendsOnce (.loan market.address loan.matchedLoanSequence)
      (if matured then trySettleMatured ctx market loan else return false) := by
    split
    · exact sendsOnce_tryClose ctx fun _ => rfl
    · exact sendsOnce_pure _
  unfold trySettleOrLiquidate
  split
  · exact sendsOnce_orElse (sendsOnce_tryClose ctx fun _ => rfl) hsettle
  · exact hsettle

end LiquidatorHandler

end Once

/-! ### What the listings show -/

section Listings

variable {ctx : HandlerContext} {t : Service.Trace}

theorem idle_of_lists (h : ∀ e ∈ t, e.call.Lists) : ∀ e ∈ t, inflightTouch e = .idle := by
  refine fun e he => inflightTouch_idle ?_
  rcases h e he with hreads | ⟨markets, hput⟩
  · exact ServiceCall.not_touchesInflight (.inl hreads)
  · rintro ⟨key, hkey | hkey⟩ <;> rw [hkey] at hput <;> cases hput

theorem sentTargets_of_lists (h : ∀ e ∈ t, e.call.Lists) : sentTargets t = [] :=
  Quiet.sentTargets fun e he => (h e he).not_sends

theorem lists_of_onlyReads {α : Type} {x : Async Service α} {r : Except Failure α}
    (h : OnlyReads x) (hr : x.run.Runs t r) : ∀ e ∈ t, e.call.Lists :=
  fun e he => .inl (h t r hr e he)

/-- The account of a market that is there. -/
theorem marketData_runs {market : Pubkey} {data : List UInt8}
    (h : (ChainReader.marketData market).run.Runs t (.ok data)) :
    t = [⟨.rpc (.getAccountData market), .ok (some data)⟩] := by
  obtain ⟨t₁, reply, t₂, rfl, ⟨r, _, rfl, rfl, hr⟩, hrest⟩ := Fallible.runs_bind_inv h
  cases hr
  cases reply with
  | none => cases hrest.2
  | some data' =>
    obtain ⟨rfl, hdata⟩ := hrest
    cases hdata
    rfl

theorem getProgramAccounts_runs {filters : List RpcFilterType} {accts : List (Pubkey × Account)}
    (h : (ctx.chain.getProgramAccounts filters).run.Runs t (.ok accts)) :
    t = [⟨.client (.getProgramAccounts ctx.chain.programId filters), .ok accts⟩] := by
  obtain ⟨r, _, rfl, rfl, hr⟩ := h
  cases r with
  | error e => cases hr
  | ok accts' =>
    cases hr
    rfl

theorem PromoterHandler.pending_listed {market : Pubkey} {pending : List PendingMatchedLoan}
    (h : (ChainReader.readPendingMatchedLoans ctx.y market).run.Runs t (.ok pending)) :
    pending.map (fun entry => .matchedLoan market entry.sequence) =
      t.flatMap (HandlerKind.promoter.lists ctx.y) := by
  obtain ⟨t₁, data, t₂, rfl, hdata, hparts⟩ := Fallible.runs_bind_inv h
  obtain rfl := marketData_runs hdata
  have hlists : HandlerKind.promoter.lists ctx.y
      ⟨.rpc (.getAccountData market), .ok (some data)⟩ = ctx.y.matchedLoanTargets market data := rfl
  rw [Ydelta.matchedLoanTargets] at hlists
  cases hsplit : ctx.y.splitMarket data with
  | error e =>
    rw [hsplit] at hparts
    obtain ⟨t₃, parts, t₄, rfl, ⟨-, hr⟩, -⟩ := Fallible.runs_bind_inv hparts
    cases hr
  | ok parts =>
    rw [hsplit] at hparts hlists
    obtain ⟨t₃, parts', t₄, rfl, ⟨rfl, hr⟩, hpending⟩ := Fallible.runs_bind_inv hparts
    cases hr
    simp only at hpending hlists
    rw [List.nil_append, List.singleton_append, List.flatMap_cons, hlists]
    split at hpending
    · rename_i hnil
      obtain ⟨rfl, hr⟩ := hpending
      cases hr
      simp [hnil]
    · rename_i hnil
      obtain ⟨rfl, hr⟩ := hpending
      cases hr
      simp [hnil]

theorem Ydelta.decodePendingClaims_targets (y : Ydelta) (market : MarketView) (data : List UInt8) :
    (y.decodePendingClaims market data).map
        (fun entry => Target.seat entry.market entry.lenderGlobalVault entry.subVaultId) =
      y.seatTargets market.address data := by
  unfold Ydelta.decodePendingClaims Ydelta.seatTargets
  cases y.splitMarket data with
  | error e => rfl
  | ok parts =>
    simp only
    split
    · rfl
    rw [List.map_filterMap]
    refine List.filterMap_congr fun seat _ => ?_
    by_cases hkind : seat.ownerKind ≠ y.ownerKindSubVault
    · rw [if_pos hkind, if_pos hkind, Option.map_none]
    by_cases hshares : seat.debtWithdrawableShares = 0
    · rw [if_neg hkind, if_neg hkind, if_pos hshares, if_pos hshares, Option.map_none]
    · rw [if_neg hkind, if_neg hkind, if_neg hshares, if_neg hshares, Option.map_some]

theorem ClaimerHandler.claims_listed {markets : List MarketView} {claims : List PendingVaultClaim}
    (h : (ChainReader.listPendingVaultClaims ctx.y markets).run.Runs t (.ok claims)) :
    claims.map (fun entry => .seat entry.market entry.lenderGlobalVault entry.subVaultId) =
      t.flatMap (HandlerKind.claimer.lists ctx.y) := by
  induction markets generalizing t claims with
  | nil =>
    obtain ⟨rfl, h⟩ := h
    cases h
    rfl
  | cons market markets ih =>
    unfold ChainReader.listPendingVaultClaims at h
    split at h
    · exact ih h
    obtain ⟨t₁, reply, t₂, rfl, ⟨r, _, rfl, rfl, hr⟩, hmarket⟩ := Fallible.runs_bind_inv h
    cases hr
    cases reply with
    | none =>
      rw [ih hmarket]
      rfl
    | some data =>
      obtain ⟨t₃, rest, t₄, rfl, hrest, ⟨rfl, hr⟩⟩ := Fallible.runs_bind_inv hmarket
      cases hr
      rw [List.map_append, ih hrest, ctx.y.decodePendingClaims_targets, List.append_nil]
      rfl

theorem LiquidatorHandler.loans_listed {market : Pubkey} {loans : List LoanView}
    (h : (ctx.chain.listLoansForMarket ctx.y market).run.Runs t (.ok loans)) :
    loans.map (fun loan => .loan market loan.matchedLoanSequence) =
      t.flatMap (HandlerKind.liquidator.lists ctx.y) := by
  obtain ⟨t₁, accts, t₂, rfl, haccts, ⟨rfl, hr⟩⟩ := Fallible.runs_bind_inv h
  cases hr
  obtain rfl := getProgramAccounts_runs haccts
  have hmarket : keyAt market.toList 0 = market :=
    keyAt_of_bytesAt (List.take_of_length_le market.length_eq.le)
  rw [List.append_nil, List.flatMap_singleton, HandlerKind.lists, hmarket]

theorem CuratorFeeClaimerHandler.subVaults_listed {subVaults : List SubVaultView}
    (h : (ctx.chain.listSubVaults ctx.y).run.Runs t (.ok subVaults)) :
    subVaults.map (fun subVault => .curatorFee subVault.vaultBank subVault.subVaultId) =
      t.flatMap (HandlerKind.curatorFeeClaimer.lists ctx.y) := by
  obtain ⟨t₁, accts, t₂, rfl, haccts, ⟨rfl, hr⟩⟩ := Fallible.runs_bind_inv h
  cases hr
  obtain rfl := getProgramAccounts_runs haccts
  rw [List.append_nil, List.flatMap_singleton, HandlerKind.lists]

theorem MatchCrankerHandler.book_listed {market : Pubkey} {crossed : Bool}
    (h : (ChainReader.marketIsRateCrossed ctx.y market).run.Runs t (.ok crossed)) :
    [.book market] = t.flatMap (HandlerKind.matchCranker.lists ctx.y) := by
  obtain ⟨t₁, data, t₂, rfl, hdata, hparts⟩ := Fallible.runs_bind_inv h
  obtain rfl := marketData_runs hdata
  have hquiet : t₂ = [] := by
    obtain ⟨t₃, parts, t₄, rfl, ⟨rfl, -⟩, hrates⟩ := Fallible.runs_bind_inv hparts
    simp only at hrates
    split at hrates
    · exact hrates.1
    split at hrates
    · exact hrates.1
    · exact hrates.1
  rw [hquiet]
  rfl

end Listings

/-! ### The ticks -/

section Ticks

variable {ctx : HandlerContext} {handler : HandlerKind} {t t' : Service.Trace}

/-- What a tick sends for is drawn from what it lists. -/
abbrev HandlerKind.Draws (ctx : HandlerContext) (handler : HandlerKind) (t : Service.Trace) :
    Prop :=
  Interaction.Draws inflightTouch (fun e => e.call.sentTarget) (handler.lists ctx.y) t

/-- What an attempt does outside of its window lists nothing, and it sends for `targets` at most. -/
abbrev HandlerKind.Spends (ctx : HandlerContext) (handler : HandlerKind) (targets : List Target)
    (t : Service.Trace) : Prop :=
  Interaction.Spends inflightTouch (fun e => e.call.sentTarget) (handler.lists ctx.y) targets t

theorem draws_of_lists (h : ∀ e ∈ t, e.call.Lists) : handler.Draws ctx t :=
  draws_of_idle (idle_of_lists h) (sentTargets_of_lists h)

/-- The attempt at one entry. -/
theorem spends_of_window {key : InflightKey} {body : Async Service Bool} {target : Target}
    (h : Window key body t) (hsends : SendsOnce target body)
    (hmakes : body.Makes fun (c : ServiceCall) => c.Reads ∨ c.Sends) :
    handler.Spends ctx [target] t := by
  cases h with
  | skipped =>
    refine ⟨fun _ => rfl, ?_, List.nil_sublist _⟩
    cases handler <;> rfl
  | @ran t r hr =>
    have hidle : ∀ e ∈ t, inflightTouch e = .idle := fun e he =>
      inflightTouch_idle (ServiceCall.not_touchesInflight (hmakes t r hr e he))
    exact spends_window (k := key) rfl hidle rfl rfl rfl (hsends t r hr).1

/-- Entries that are listed, and then gone through. -/
theorem draws_of_listed {α : Type} {seg : α → Service.Trace → Prop} {as : List α}
    (target : α → Target) (h : ∀ e ∈ t, e.call.Lists)
    (hlisted : (as.map target).Sublist (t.flatMap (handler.lists ctx.y))) (hwalk : Walks seg as t')
    (hseg : ∀ a ∈ as, ∀ u, seg a u → handler.Spends ctx [target a] u) :
    handler.Draws ctx (t ++ t') := by
  refine draws_of_walk (idle_of_lists h) (sentTargets_of_lists h) ?_ hwalk hseg
  rw [← List.map_eq_flatMap]
  exact hlisted

theorem PromoterHandler.draws_marketRun {market : MarketView} (h : MarketRun ctx market t) :
    HandlerKind.promoter.Draws ctx t := by
  cases h with
  | paused => exact draws_nil
  | unreadable _ hread =>
    exact draws_of_lists (lists_of_onlyReads (onlyReads_readPendingMatchedLoans _ _) hread)
  | visited _ hread hpending =>
    refine draws_of_listed (fun entry => .matchedLoan market.address entry.sequence)
      (lists_of_onlyReads (onlyReads_readPendingMatchedLoans _ _) hread) ?_ hpending
      fun entry _ u hwindow => ?_
    · rw [pending_listed hread]
    · exact spends_of_window hwindow (sendsOnce_promoteOne ctx market entry)
        (promoteOne_makes ctx market entry)

theorem LiquidatorHandler.draws_marketRun {market : MarketView} (h : MarketRun ctx market t) :
    HandlerKind.liquidator.Draws ctx t := by
  cases h with
  | paused => exact draws_nil
  | unlisted _ hlist =>
    exact draws_of_lists (lists_of_onlyReads (onlyReads_listLoansForMarket _ _ _) hlist)
  | @scanned t₁ t₂ loans tNow _ hlist hloans =>
    have hreads := lists_of_onlyReads (onlyReads_listLoansForMarket _ _ _) hlist
    rw [← List.singleton_append, ← List.append_assoc]
    refine draws_of_listed (fun loan => .loan market.address loan.matchedLoanSequence) ?_ ?_ hloans
      fun loan _ u hrun => ?_
    · refine List.forall_mem_append.2 ⟨hreads, ?_⟩
      exact List.forall_mem_singleton.2 (.inl trivial)
    · rw [List.flatMap_append, loans_listed hlist]
      exact List.sublist_append_left _ _
    · cases hrun with
      | skipped => exact spends_nil _
      | tried _ hwindow =>
        exact spends_of_window hwindow (sendsOnce_trySettleOrLiquidate ctx market loan _ _)
          (trySettleOrLiquidate_makes ctx market loan _ _)

theorem MatchCrankerHandler.draws_marketRun {market : MarketView} (h : MarketRun ctx market t) :
    HandlerKind.matchCranker.Draws ctx t := by
  have hreads {t r} (hread : (ChainReader.marketIsRateCrossed ctx.y market.address).run.Runs t r) :
      ∀ e ∈ t, e.call.Lists := lists_of_onlyReads (onlyReads_marketIsRateCrossed _ _) hread
  cases h with
  | paused => exact draws_nil
  | unreadable _ hread => exact draws_of_lists (hreads hread)
  | uncrossed _ hread => exact draws_of_lists (hreads hread)
  | crossed _ hread hwindow =>
    have hwalk : Walks (Window (.matchCranker market.address) ∘ crankOne ctx) [market] _ :=
      .cons hwindow .nil
    rw [List.append_nil] at hwalk
    refine draws_of_listed (fun market => .book market.address) (hreads hread) ?_ hwalk ?_
    · rw [← book_listed hread, List.map_singleton]
    · refine List.forall_mem_singleton.2 fun u hwindow => ?_
      exact spends_of_window hwindow (sendsOnce_crankOne ctx market) (crankOne_makes ctx market)

/-- **The sends of a tick are drawn from its lists.** -/
theorem HandlerKind.PassRun.draws (h : handler.PassRun ctx t) : handler.Draws ctx t := by
  cases h with
  | promoter hlist hwalk =>
    exact (draws_of_lists (lists_listMarkets _ _ _ _ hlist)).append
      (draws_of_walks hwalk fun _ _ _ => PromoterHandler.draws_marketRun)
  | liquidator hlist hwalk =>
    exact (draws_of_lists (lists_listMarkets _ _ _ _ hlist)).append
      (draws_of_walks hwalk fun _ _ _ => LiquidatorHandler.draws_marketRun)
  | matchCranker hlist hwalk =>
    exact (draws_of_lists (lists_listMarkets _ _ _ _ hlist)).append
      (draws_of_walks hwalk fun _ _ _ => MatchCrankerHandler.draws_marketRun)
  | claimerIdle hlist =>
    exact draws_of_lists (lists_of_onlyReads (onlyReads_listSubVaults _ _) hlist)
  | claimer hsubVaults hmarkets hclaims hwalk =>
    refine (draws_of_lists (lists_of_onlyReads (onlyReads_listSubVaults _ _) hsubVaults)).append ?_
    refine (draws_of_lists (lists_listMarkets _ _ _ _ hmarkets)).append ?_
    refine draws_of_listed
      (fun entry => .seat entry.market entry.lenderGlobalVault entry.subVaultId)
      (lists_of_onlyReads (onlyReads_listPendingVaultClaims _ _) hclaims) ?_ hwalk
      fun entry _ u hwindow => ?_
    · rw [← ClaimerHandler.claims_listed hclaims]
      exact List.Sublist.map _ List.filter_sublist
    · exact spends_of_window hwindow (ClaimerHandler.sendsOnce_sweepOne ctx entry)
        (ClaimerHandler.sweepOne_makes entry)
  | curatorIdle => exact draws_nil
  | @curatorFeeClaimer t₁ t₂ u subVaults banks hlist hbanks hwalk =>
    have hreads := lists_of_onlyReads (onlyReads_listSubVaults _ _) hlist
    rw [← List.append_assoc]
    refine draws_of_listed
      (fun subVault => .curatorFee subVault.vaultBank subVault.subVaultId) ?_ ?_ hwalk
      fun subVault _ u hrun => ?_
    · exact List.forall_mem_append.2 ⟨hreads, lists_of_onlyReads onlyReads_banksSnapshot hbanks⟩
    · rw [List.flatMap_append, CuratorFeeClaimerHandler.subVaults_listed hlist]
      exact List.sublist_append_left _ _
    · cases hrun with
      | skipped => exact spends_nil _
      | tried _ hwindow =>
        exact spends_of_window hwindow
          (CuratorFeeClaimerHandler.sendsOnce_claimOne ctx subVault banks _)
          (CuratorFeeClaimerHandler.claimOne_makes ctx subVault banks _)

/-- **A tick sends only for what it has listed, in the order of its lists, and for nothing more
often than it is listed**, unless it panics. -/
theorem HandlerKind.sent_sublist (handler : HandlerKind) {r : Except Failure Unit}
    (h : (handler.tick ctx).run.Runs t r) (hr : ∀ msg, r ≠ .error (.panic msg)) :
    (sentTargets t).Sublist (handler.listedTargets ctx.y t) := by
  cases r with
  | ok u => exact (handler.tick_ok h).draws.drawn
  | error err =>
    cases err with
    | panic msg => exact absurd rfl (hr msg)
    | error e =>
      rw [sentTargets_of_lists (handler.tick_error h)]
      exact List.nil_sublist _

/-- The liquidator sends for the one loan that is listed. -/
theorem HandlerKind.sent_sublist_sample : ∃ t : Service.Trace,
    sentTargets t = [.loan (.fill 32 31) 7] ∧
      (sentTargets t).Sublist (HandlerKind.liquidator.listedTargets .plain t) := by
  let p := (HandlerKind.liquidator.tick sampleHandlerContext).run
  have hruns : p.Runs (p.answered oneLoanReply).1 (p.answered oneLoanReply).2 :=
    Prog.runs_answered _ _
  have hok : (p.answered oneLoanReply).2.isOk = true := by decide +kernel
  refine ⟨_, by decide +kernel, HandlerKind.liquidator.sent_sublist hruns fun msg heq => ?_⟩
  rw [heq] at hok
  cases hok

end Ticks

end YdeltaCrankers
