import YdeltaCrankers.Rpc.Attempt
import YdeltaCrankers.Rpc.Landing

/-!
# What a successful send means

The retry loops return `Ok(sig)` in two places: when a transaction is confirmed, and when a
status query shows that the transaction of the last attempt has landed.  The second one does not
look at the status, so a loop can report a transaction that failed on chain.  It reports the
truth exactly when no status query of the run shows a landed failure.
-/

namespace YdeltaCrankers

open Interaction

namespace Chain

/-- A status query that shows a landed failure. -/
def ShowsFailure : Client.Event → Prop
  | ⟨.getSignatureStatuses _, r⟩ => ∃ status, shown r = some status ∧ status.err ≠ none
  | _ => False

/-- A success reports a transaction the call broadcast and that executed without an error. -/
def Truthful (r : Except Failure Signature) (s : Chain) : Prop :=
  ∀ sig, r = .ok sig → s.Executed sig

theorem Executed.after {s s' : Chain} {sig : Signature} (h : s.Executed sig) (hs : s.After s') :
    s'.Executed sig :=
  ⟨hs.1 ▸ h.1, by rw [hs.2 sig h.1 (by simp [h.2]), h.2]⟩

theorem shown_eq_some {r : Except ClientError (List (Option TransactionStatus))}
    {status : TransactionStatus} (h : shown r = some status) :
    ∃ rest, r = .ok (some status :: rest) := by
  rcases r with e | (_ | ⟨_ | status', rest⟩)
  all_goals cases h
  exact ⟨rest, rfl⟩

/-- While no landed failure is shown, what the loop returns executed. -/
theorem successRule : LoopRule (fun _ e => ¬ ShowsFailure e) (fun _ _ => True) (fun _ => True)
    (fun _ _ => True) (fun _ => True) (fun r s => s.Truthful r) where
  head_sound _ := trivial
  head_after _ _ := trivial
  sign_sound _ := trivial
  sign_after _ _ := trivial
  error _ _ := nofun
  first _ := trivial
  silent _ _ _ := trivial
  status {prev s r status} _ ha hA hr := by
    -- the status shown is the one `prev` landed with, and it is no failure
    obtain ⟨rest, rfl⟩ := shown_eq_some hr
    obtain ⟨hprev, -⟩ := List.forall₂_cons.1 (ha.2 _ rfl)
    obtain ⟨hmem, hstate⟩ := hprev status rfl
    have herr : status.err = none := by
      by_contra hne
      exact hA ⟨status, rfl, hne⟩
    have hexec : Executed s prev := ⟨hmem, herr ▸ hstate⟩
    refine fun s' hs => ⟨trivial, ?_⟩
    rintro _ ⟨⟩
    exact hexec.after hs
  broadcast _ _ := trivial
  confirmed {s tx sig sig' s'} _ hsig ha := by
    simp only [network, Answer, hsig] at ha
    obtain ⟨rfl, rfl, -⟩ := ha
    have hexec : Executed ((s.broadcast sig').set sig' (.landed none)) sig' :=
      ⟨mem_broadcast s sig', set_state_self ..⟩
    refine fun s'' hs => ⟨trivial, ?_⟩
    rintro _ ⟨⟩
    exact hexec.after hs
  lost _ := trivial

/-! ### A failure shown -/

/-- A status query that shows a status ends the loop: the signature queried is returned. -/
def ReturnsShown (t : Client.Trace) (r : Except Failure Signature) : Prop :=
  ∀ e ∈ t, match e with
    | ⟨.getSignatureStatuses sigs, reply⟩ =>
      ∀ status, shown reply = some status → ∃ sig, sigs = [sig] ∧ r = .ok sig
    | _ => True

theorem returnsShown_nil {r : Except Failure Signature} : ReturnsShown [] r :=
  List.forall_mem_nil _

theorem returnsShown_append {t t' : Client.Trace} {r : Except Failure Signature}
    (h : ReturnsShown t r) (h' : ReturnsShown t' r) : ReturnsShown (t ++ t') r :=
  List.forall_mem_append.2 ⟨h, h'⟩

theorem returnsShown_retryLoop (rpc : Rpc) (build : Hash → Except Failure Transaction)
    (attempts : List ℕ) (last : Option Signature) :
    (rpc.retryLoop build attempts last).Spec ReturnsShown := by
  induction attempts generalizing last with
  | nil => exact Fallible.spec_throw returnsShown_nil
  | cons attempt rest ih =>
    refine (rpc.retryLoop_runs build attempt rest last).mono fun t r hrun => ?_
    cases hrun with
    | stopped hstop => exact hstop.forall_mem fun _ => trivial
    | landed hstop hstatus =>
      refine returnsShown_append (hstop.forall_mem fun _ => trivial) ?_
      cases hstatus
      exact List.forall_mem_singleton.2 fun _ _ => ⟨_, rfl, rfl⟩
    | signs hstop hstatus hsign =>
      refine returnsShown_append (hstop.forall_mem fun _ => trivial) (returnsShown_append ?_ ?_)
      · -- a query that shows a status would have ended the attempt
        cases hstatus with
        | first => exact returnsShown_nil
        | failed => exact List.forall_mem_singleton.2 nofun
        | silent h =>
          refine List.forall_mem_singleton.2 fun status hshown => ?_
          obtain ⟨statuses, heq⟩ := shown_eq_some hshown
          cases heq
          cases h
      · cases hsign with
        | noBlockhash | notBuilt | unsigned => exact List.forall_mem_singleton.2 trivial
        | confirmed | rejected =>
          exact List.forall_mem_cons.2 ⟨trivial, List.forall_mem_singleton.2 trivial⟩
        | retried htx hsig htransient hattempt hrest =>
          exact List.forall_mem_cons.2 ⟨trivial, List.forall_mem_cons.2 ⟨trivial,
            List.forall_mem_cons.2 ⟨trivial, ih _ _ _ hrest⟩⟩⟩

/-! ### Exactly when a success is the truth -/

/-- A broadcast leaves alone what has landed or is dropped. -/
theorem settled_of_broadcast {s s' : Chain} {tx : Transaction} {r : Except ClientError Signature}
    {sig : Signature} (ha : network.answer s (.sendAndConfirmTransaction tx) r s')
    (hmem : sig ∈ s.sent) (hne : s.state sig ≠ .pending) :
    sig ∈ s'.sent ∧ s'.state sig = s.state sig := by
  cases hsig : tx.signatures.head? with
  | none =>
    simp only [network, Answer, hsig] at ha
    rw [ha]
    exact ⟨hmem, rfl⟩
  | some sig' =>
    obtain ⟨hmem', hstate⟩ := s.broadcast_state_of_mem sig' hmem
    simp only [network, Answer, hsig] at ha
    cases r with
    | error e =>
      rw [ha]
      exact ⟨hmem', hstate⟩
    | ok sig₁ =>
      obtain ⟨-, rfl, hok⟩ := ha
      refine ⟨hmem', ?_⟩
      by_cases heq : sig = sig'
      · -- it was confirmed, so the state it had settled in is success
        subst heq
        rw [set_state_self, ← hstate, hok.resolve_left (hstate ▸ hne)]
      · rw [set_state_of_ne heq, hstate]

theorem settled_of_timeline {s s' : Chain} {sig : Signature} {T : List (Chain × Client.Event)}
    (hT : network.Timeline s T s') (hmem : sig ∈ s.sent) (hne : s.state sig ≠ .pending) :
    sig ∈ s'.sent ∧ s'.state sig = s.state sig := by
  refine hT.invariant (P := fun s₁ => sig ∈ s₁.sent ∧ s₁.state sig = s.state sig) ⟨hmem, rfl⟩ ?_ ?_
  · rintro s₁ s₂ ⟨hmem₁, hstate⟩ ht
    have hafter := Tick.after ht
    exact ⟨hafter.1 ▸ hmem₁, (hafter.2 sig hmem₁ (hstate ▸ hne)).trans hstate⟩
  · rintro s₁ ⟨c, r⟩ s₂ ⟨hmem₁, hstate⟩ ha -
    by_cases hb : IsBroadcast ⟨c, r⟩
    · cases c
      case sendAndConfirmTransaction tx =>
        obtain ⟨hmem₂, hstate₂⟩ := settled_of_broadcast ha hmem₁ (hstate ▸ hne)
        exact ⟨hmem₂, hstate₂.trans hstate⟩
      all_goals exact hb.elim
    · rw [after_of_answer hb ha]
      exact ⟨hmem₁, hstate⟩

/-- **A success is the truth exactly when no landed failure is shown.**  In a finished run of a
retry loop, `Ok(sig)` means that the call broadcast `sig` and that it executed without an error,
if and only if no status query of the run shows a failure. -/
theorem truthful_iff (rpc : Rpc) (sdk : Sdk) (call : RetryCall)
    {T : List (Chain × Client.Event)} {s' : Chain} {r : Except Failure Signature}
    (hT : network.Timeline start T s') (hr : (call.prog rpc sdk).run.Runs (T.map Prod.snd) r) :
    s'.Truthful r ↔ ∀ x ∈ T, ¬ ShowsFailure x.2 := by
  constructor
  · rintro htrue ⟨s, c, reply⟩ hx hfail
    cases c
    case getSignatureStatuses sigs =>
      obtain ⟨status, hshown, herr⟩ := hfail
      -- the loop has returned the signature queried, which had landed with an error
      have hret := returnsShown_retryLoop rpc (call.build sdk) [0, 1, 2] none _ r
        (RetryCall.prog_eq rpc sdk call ▸ hr) _ (List.mem_map_of_mem hx)
      obtain ⟨sig, rfl, rfl⟩ := hret status hshown
      obtain ⟨T₁, T₂, rfl⟩ := List.append_of_mem hx
      obtain ⟨s₁, -, -, s₂, ha, hT₂⟩ := Env.timeline_append.1 hT
      obtain ⟨rest, rfl⟩ := shown_eq_some hshown
      obtain ⟨rfl, hforall⟩ := ha
      obtain ⟨hprev, -⟩ := List.forall₂_cons.1 (hforall _ rfl)
      obtain ⟨hmem, hstate⟩ := hprev status rfl
      have hsettled := settled_of_timeline hT₂ hmem (by simp [hstate])
      have hexec := (htrue sig rfl).2
      rw [hsettled.2, hstate] at hexec
      exact herr (TxState.landed.inj hexec)
    all_goals exact hfail
  · intro hfail
    exact ((successRule.prog rpc sdk call trivial).sound hT hr.reaches hfail).2.2 r rfl

/-- A run that reaches `Ok` through a status query: the reply to the broadcast is lost, the
transaction executes during the sleep, and both sides hold. -/
theorem truthful_iff_confirmed : ∃ (T : List (Chain × Client.Event)) (s' : Chain),
    network.Timeline start T s' ∧
      ((RetryCall.legacy [] [.zero 32] (.zero 32)).prog ⟨0, 200000, false⟩ .plain).run.Runs
        (T.map Prod.snd) (.ok (plainSignature (.zero 32))) ∧
      (∃ x ∈ T, x.2 = ⟨.getSignatureStatuses [plainSignature (.zero 32)], .ok [some ⟨none⟩]⟩) ∧
      (s'.Truthful (.ok (plainSignature (.zero 32))) ↔ ∀ x ∈ T, ¬ ShowsFailure x.2) ∧
      ∀ x ∈ T, ¬ ShowsFailure x.2 := by
  let h : Hash := .zero 32
  let tx : Transaction := ⟨[plainSignature h], ⟨.legacy, .zero 32, [], [], h⟩⟩
  let lost : ClientError := ⟨.io "connection reset", "connection reset"⟩
  let s₁ := start.broadcast (plainSignature h)
  let s₂ := s₁.set (plainSignature h) (.landed none)
  let T : List (Chain × Client.Event) := [(start, ⟨.getLatestBlockhash, .ok h⟩),
    (start, ⟨.sendAndConfirmTransaction tx, .error lost⟩), (s₁, ⟨.sleep 500, ()⟩),
    (s₂, ⟨.getSignatureStatuses [plainSignature h], .ok [some ⟨none⟩]⟩)]
  have hland : network.Ticks s₁ s₂ :=
    .single (.settle (mem_broadcast _ _) (by simp [s₁, start, broadcast])
      (TxState.landed_ne_pending _))
  have hT : network.Timeline start T s₂ := by
    refine ⟨.refl, start, rfl, .refl, s₁, rfl, .refl, s₁, rfl, hland, s₂, ⟨rfl, ?_⟩, .refl⟩
    rintro _ ⟨⟩
    refine .cons ?_ .nil
    rintro _ ⟨⟩
    exact ⟨mem_broadcast _ _, set_state_self ..⟩
  have hr : ((RetryCall.legacy [] [.zero 32] (.zero 32)).prog ⟨0, 200000, false⟩ .plain).run.Runs
      (T.map Prod.snd) (.ok (plainSignature h)) :=
    ⟨.ok h, _, rfl, .error lost, _, rfl, (), _, rfl, .ok [some ⟨none⟩], _, rfl, rfl, rfl⟩
  have hshows : ∀ x ∈ T, ¬ ShowsFailure x.2 := by
    simp only [T, List.forall_mem_cons]
    refine ⟨id, id, id, ?_, List.forall_mem_nil _⟩
    rintro ⟨status, hshown, herr⟩
    cases hshown
    exact herr rfl
  exact ⟨T, s₂, hT, hr,
    ⟨(s₂, ⟨.getSignatureStatuses [plainSignature h], .ok [some ⟨none⟩]⟩), by simp [T], rfl⟩,
    truthful_iff ⟨0, 200000, false⟩ .plain _ hT hr, hshows⟩

/-! ### The other runs -/

/-- The promise without the condition: a success is the truth. -/
def SuccessIsTruthful (rpc : Rpc) (sdk : Sdk) (call : RetryCall) : Prop :=
  ∀ (T : List (Chain × Client.Event)) (s' : Chain) (r : Except Failure Signature),
    network.Timeline start T s' → (call.prog rpc sdk).run.Runs (T.map Prod.snd) r → s'.Truthful r

/-- A transaction that lands with an error after its broadcast was lost is reported as a
success. -/
theorem exists_reports_failure {rpc : Rpc} (hstop : rpc.stop = false)
    {build : Hash → Except Failure Transaction} {h : Hash} {tx : Transaction} {sig : Signature}
    (hb : build h = .ok tx) (hs : tx.signatures.head? = some sig) :
    ∃ (T : List (Chain × Client.Event)) (s' : Chain), network.Timeline start T s' ∧
      (rpc.retryLoop build [0, 1, 2] none).run.Reaches (T.map Prod.snd) (.ret (.ok sig)) ∧
      ¬ s'.Truthful (.ok sig) := by
  let lost : ClientError := ⟨.io "connection reset", "connection reset"⟩
  let failed : TransactionStatus := ⟨some (.instructionError 2 6001)⟩
  let s₁ := start.broadcast sig
  let s₂ := s₁.set sig (.landed failed.err)
  have hland : network.Ticks s₁ s₂ :=
    .single (.settle (mem_broadcast _ _) (by simp [s₁, start, broadcast])
      (TxState.landed_ne_pending _))
  refine ⟨[(start, ⟨.getLatestBlockhash, .ok h⟩),
    (start, ⟨.sendAndConfirmTransaction tx, .error lost⟩), (s₁, ⟨.sleep 500, ()⟩),
    (s₂, ⟨.getSignatureStatuses [sig], .ok [some failed]⟩)], s₂, ?_,
    Rpc.retryLoop_reaches_lost hstop hb hs rfl (by decide)
      (Rpc.retryLoop_reaches_landed hstop), ?_⟩
  · refine ⟨.refl, start, rfl, .refl, s₁, ?_, .refl, s₁, rfl, hland, s₂, ⟨rfl, ?_⟩, .refl⟩
    · simp [network, Answer, hs, s₁]
    · rintro _ ⟨⟩
      refine .cons ?_ .nil
      rintro _ ⟨⟩
      exact ⟨mem_broadcast _ _, set_state_self ..⟩
  · intro htrue
    have hexec := (htrue sig rfl).2
    rw [set_state_self] at hexec
    cases hexec

/-- Both loops can report a transaction that failed as a success. -/
theorem not_successIsTruthful :
    ¬ SuccessIsTruthful ⟨0, 200000, false⟩ .plain (.legacy [] [.zero 32] (.zero 32)) ∧
    ¬ SuccessIsTruthful ⟨0, 200000, false⟩ .plain (.v0 [] [] [.zero 32] (.zero 32)) := by
  have reports : ∀ call : RetryCall, (∃ tx, call.build .plain (.zero 32) = .ok tx ∧
      tx.signatures.head? = some (plainSignature (.zero 32))) →
      ¬ SuccessIsTruthful ⟨0, 200000, false⟩ .plain call := by
    intro call hcall htrue
    obtain ⟨tx, hb, hs⟩ := hcall
    have hstop : (⟨0, 200000, false⟩ : Rpc).stop = false := rfl
    obtain ⟨T, s', hT, hr, hfalse⟩ := exists_reports_failure hstop hb hs
    have hruns := hr.runs ⟨rfl, rfl⟩
    rw [List.append_nil, ← RetryCall.prog_eq] at hruns
    exact hfalse (htrue T s' _ hT hruns)
  exact ⟨reports _ ⟨_, rfl, rfl⟩, reports _ ⟨_, rfl, rfl⟩⟩

end Chain

end YdeltaCrankers
