import YdeltaCrankers.Rpc.Success

/-!
# What a failed send means

A retry loop gives up with `Err` at several places, and the idempotency check at the head of an
attempt stands before only some of them.  The loop *gives up* on a transaction it has broadcast at
one of three steps: when the status query for it shows nothing and the loop signs the next one, when
the stop flag ends the call before that query, and when its own send error ends the call.  At none
of them does the loop know whether the transaction can still land.

* `Chain.followedUp_retryLoop` : in a call that fails, the steps above are the only ways in which it
  leaves a transaction behind;
* `Chain.failure_truthful` (**main theorem**) : if every transaction is dropped when the loop gives
  up on it, an error means that nothing has landed, and nothing will; if one is not, the same
  answers of the RPC can leave a transaction landed behind the error.
-/

namespace YdeltaCrankers

open Interaction

namespace Chain

/-! ### What becomes of a broadcast -/

/-- The transaction that the event broadcasts. -/
def broadcastOf : Client.Event → Option Signature
  | ⟨.sendAndConfirmTransaction tx, _⟩ => tx.signatures.head?
  | _ => none

/-- The transaction whose status the event asks for. -/
def askedFor : Client.Event → Option Signature
  | ⟨.getSignatureStatuses [sig], _⟩ => some sig
  | _ => none

/-- What comes after a broadcast of `sig` in a call that fails. -/
inductive FollowUp (sig : Signature) : Client.Trace → Prop
  /-- The transaction is asked for. -/
  | asked {t : Client.Trace} (h : ∃ y ∈ t, askedFor y = some sig) : FollowUp sig t
  /-- The stop flag ends the call before anything is asked for. -/
  | stopped {t : Client.Trace} (h : ∀ y ∈ t, askedFor y = none) :
      FollowUp sig (t ++ [⟨.stopRequested, true⟩])
  /-- The broadcast is the end of the call. -/
  | last : FollowUp sig []

/-- Every broadcast of the trace is followed up. -/
def FollowedUp : Client.Trace → Prop
  | [] => True
  | e :: t => (∀ sig, broadcastOf e = some sig → FollowUp sig t) ∧ FollowedUp t

theorem followedUp_append {t t' : Client.Trace} (ht : ∀ e ∈ t, broadcastOf e = none)
    (ht' : FollowedUp t') : FollowedUp (t ++ t') := by
  induction t with
  | nil => exact ht'
  | cons e t ih =>
    obtain ⟨he, ht⟩ := List.forall_mem_cons.1 ht
    refine ⟨fun sig hsig => ?_, ih ht⟩
    rw [he] at hsig
    cases hsig

theorem FollowedUp.of_append {t t' : Client.Trace} {e : Client.Event} {sig : Signature}
    (h : FollowedUp (t ++ e :: t')) (he : broadcastOf e = some sig) : FollowUp sig t' := by
  induction t with
  | nil => exact h.1 sig he
  | cons e' t ih => exact ih h.2

variable (rpc : Rpc) (build : Hash → Except Failure Transaction)

/-- An attempt that begins with a transaction asks for it, unless it is stopped. -/
theorem asks_retryLoop (attempt : ℕ) (rest : List ℕ) (sig : Signature) :
    (rpc.retryLoop build (attempt :: rest) (some sig)).Spec fun t _ =>
      t = [⟨.stopRequested, true⟩] ∨ ∃ y ∈ t, askedFor y = some sig := by
  refine (rpc.retryLoop_runs build attempt rest (some sig)).mono fun t r hrun => ?_
  have hasks : ∀ {t' r'}, Rpc.StatusRun (some sig) t' r' → ∃ y ∈ t', askedFor y = some sig := by
    intro t' r' hstatus
    cases hstatus with
    | failed => exact ⟨_, List.mem_singleton_self _, rfl⟩
    | silent => exact ⟨_, List.mem_singleton_self _, rfl⟩
    | shown => exact ⟨_, List.mem_singleton_self _, rfl⟩
  cases hrun with
  | stopped hstop =>
    cases hstop
    exact .inl rfl
  | landed hstop hstatus =>
    obtain ⟨y, hy, hsig⟩ := hasks hstatus
    exact .inr ⟨y, List.mem_append_right _ hy, hsig⟩
  | signs hstop hstatus hsign =>
    obtain ⟨y, hy, hsig⟩ := hasks hstatus
    exact .inr ⟨y, List.mem_append_right _ (List.mem_append_left _ hy), hsig⟩

/-- **Every broadcast of a call that fails is followed up**, when the attempts end with attempt 2:
a broadcast that is retried has an attempt after it. -/
theorem followedUp_retryLoop (attempts : List ℕ) (last : Option Signature)
    (hattempts : attempts.getLast? = some 2) :
    (rpc.retryLoop build attempts last).Spec fun t r =>
      (∃ err, r = .error err) → FollowedUp t := by
  induction attempts generalizing last with
  | nil => cases hattempts
  | cons attempt rest ih =>
    refine (rpc.retryLoop_runs build attempt rest last).mono fun t r hrun hfails => ?_
    have hquiet : ∀ {t : Client.Trace}, (∀ e ∈ t, broadcastOf e = none) → FollowedUp t := by
      intro t ht
      rw [← List.append_nil t]
      exact followedUp_append ht trivial
    cases hrun with
    | stopped hstop => exact hquiet (hstop.forall_mem fun _ => rfl)
    | landed hstop hstatus =>
      obtain ⟨err, herr⟩ := hfails
      cases herr
    | signs hstop hstatus hsign =>
      refine followedUp_append (hstop.forall_mem fun _ => rfl)
        (followedUp_append (hstatus.forall_mem fun _ _ => rfl) ?_)
      cases hsign with
      | noBlockhash | notBuilt | unsigned => exact hquiet (List.forall_mem_singleton.2 rfl)
      | confirmed =>
        obtain ⟨err, herr⟩ := hfails
        cases herr
      | rejected => exact ⟨nofun, fun _ _ => .last, trivial⟩
      | @retried h tx sig e t r htx hsig htransient hattempt hrest =>
        -- what is left of the run is that of an attempt that begins with this transaction
        cases rest with
        | nil => exact absurd (Option.some.inj hattempts) hattempt
        | cons attempt' rest =>
          rw [List.getLast?_cons_cons] at hattempts
          refine ⟨nofun, fun sig' hsig' => ?_, nofun, ih _ hattempts _ _ hrest hfails⟩
          obtain rfl : sig = sig' := Option.some.inj (hsig.symm.trans hsig')
          rcases asks_retryLoop rpc build attempt' rest sig t r hrest with rfl | ⟨y, hy, hasked⟩
          · exact .stopped (t := [⟨.sleep 500, ()⟩]) (List.forall_mem_singleton.2 rfl)
          · exact .asked ⟨y, List.mem_cons_of_mem _ hy, hasked⟩

/-! ### What a call that fails is answered -/

/-- A broadcast that fails, and a status query that shows nothing. -/
def Unshown : Client.Event → Prop
  | ⟨.sendAndConfirmTransaction _, r⟩ => ∃ e, r = .error e
  | ⟨.getSignatureStatuses sigs, r⟩ => (∃ sig, sigs = [sig]) ∧ shown r = none
  | _ => True

/-- A call fails only if no broadcast is confirmed and no status is shown. -/
theorem unshown_retryLoop (attempts : List ℕ) (last : Option Signature) :
    (rpc.retryLoop build attempts last).Spec fun t r =>
      (∃ err, r = .error err) → ∀ e ∈ t, Unshown e := by
  induction attempts generalizing last with
  | nil => exact Fallible.spec_throw fun _ => List.forall_mem_nil _
  | cons attempt rest ih =>
    refine (rpc.retryLoop_runs build attempt rest last).mono fun t r hrun hfails => ?_
    cases hrun with
    | stopped hstop => exact hstop.forall_mem fun _ => trivial
    | landed hstop hstatus =>
      obtain ⟨err, herr⟩ := hfails
      cases herr
    | signs hstop hstatus hsign =>
      refine List.forall_mem_append.2 ⟨hstop.forall_mem fun _ => trivial,
        List.forall_mem_append.2 ⟨?_, ?_⟩⟩
      · cases hstatus with
        | first => exact List.forall_mem_nil _
        | failed => exact List.forall_mem_singleton.2 ⟨⟨_, rfl⟩, rfl⟩
        | @silent _ statuses h =>
          refine List.forall_mem_singleton.2 ⟨⟨_, rfl⟩, ?_⟩
          rcases statuses with _ | ⟨_ | status, statuses⟩
          · rfl
          · rfl
          · cases h
      · cases hsign with
        | noBlockhash | notBuilt | unsigned => exact List.forall_mem_singleton.2 trivial
        | confirmed =>
          obtain ⟨err, herr⟩ := hfails
          cases herr
        | rejected =>
          exact List.forall_mem_cons.2 ⟨trivial, List.forall_mem_singleton.2 ⟨_, rfl⟩⟩
        | retried htx hsig htransient hattempt hrest =>
          exact List.forall_mem_cons.2 ⟨trivial, List.forall_mem_cons.2 ⟨⟨_, rfl⟩,
            List.forall_mem_cons.2 ⟨trivial, ih _ _ _ hrest hfails⟩⟩⟩

/-! ### When an error is the truth -/

/-- A status query is answered, and shows every transaction that has landed. -/
def CorrectStatus (s : Chain) : Client.Event → Prop
  | ⟨.getSignatureStatuses sigs, r⟩ => ∃ statuses, r = .ok statuses ∧
      List.Forall₂ (fun sig st => s.Landed sig → st ≠ none) sigs statuses
  | _ => True

/-- No transaction the call broadcast has landed. -/
def NothingLanded (s : Chain) : Prop := ∀ sig ∈ s.sent, ¬ s.Landed sig

/-- In the run with this timeline, which ends in `s`, the call gives up on the transaction `sig`
when the network is in the last state. -/
inductive GivesUpOn (T : List (Chain × Client.Event)) (s : Chain) (sig : Signature) : Chain → Prop
  /-- Its status is not shown, and neither asked for nor broadcast again. -/
  | notShown {T₁ T₂ : List (Chain × Client.Event)} {s₁ : Chain}
      {r : Except ClientError (List (Option TransactionStatus))}
      (hT : T = T₁ ++ (s₁, ⟨.getSignatureStatuses [sig], r⟩) :: T₂) (hr : shown r = none)
      (hlast : ∀ y ∈ T₂, askedFor y.2 ≠ some sig ∧ broadcastOf y.2 ≠ some sig) :
      GivesUpOn T s sig s₁
  /-- The stop flag is read set after its broadcast, before its status is asked for. -/
  | stopped {T₁ T₂ : List (Chain × Client.Event)} {x : Chain × Client.Event} {s₁ : Chain}
      (hT : T = T₁ ++ x :: (T₂ ++ [(s₁, ⟨.stopRequested, true⟩)]))
      (hsig : broadcastOf x.2 = some sig) (hasked : ∀ y ∈ T₂, askedFor y.2 = none) :
      GivesUpOn T s sig s₁
  /-- Its own send error ends the call. -/
  | sendFailed {T₁ : List (Chain × Client.Event)} {s₁ : Chain} {tx : Transaction}
      {e : ClientError} (hT : T = T₁ ++ [(s₁, ⟨.sendAndConfirmTransaction tx, .error e⟩)])
      (hsig : tx.signatures.head? = some sig) : GivesUpOn T s sig s

/-- **The condition**: the call gives up only on transactions that can no longer land. -/
def GivesUpOnDropped (T : List (Chain × Client.Event)) (s : Chain) : Prop :=
  ∀ sig ∈ s.sent, ∀ s₁, GivesUpOn T s sig s₁ → s₁.state sig = .dropped

theorem mem_sent_of_broadcast {s s' : Chain} {tx : Transaction}
    {r : Except ClientError Signature} (ha : network.answer s (.sendAndConfirmTransaction tx) r s')
    {sig : Signature} (hmem : sig ∈ s'.sent) :
    sig ∈ s.sent ∨ tx.signatures.head? = some sig := by
  cases hhead : tx.signatures.head? with
  | none =>
    simp only [network, Answer, hhead] at ha
    exact .inl (ha ▸ hmem)
  | some sig₁ =>
    have hsent : s'.sent = (s.broadcast sig₁).sent := by
      simp only [network, Answer, hhead] at ha
      cases r with
      | error e => rw [ha]
      | ok sig' =>
        rw [ha.2.1]
        rfl
    rw [hsent, broadcast] at hmem
    split at hmem
    · exact .inl hmem
    · rcases List.mem_cons.1 hmem with rfl | hmem
      · exact .inr rfl
      · exact .inl hmem

/-- Only what is broadcast is sent. -/
theorem exists_broadcastOf {s s' : Chain} {T : List (Chain × Client.Event)}
    (hT : network.Timeline s T s') {sig : Signature} (hmem : sig ∈ s'.sent) :
    sig ∈ s.sent ∨ ∃ x ∈ T, broadcastOf x.2 = some sig := by
  refine hT.invariant
    (P := fun s₁ => ∀ sig ∈ s₁.sent, sig ∈ s.sent ∨ ∃ x ∈ T, broadcastOf x.2 = some sig)
    (fun _ => .inl) ?_ ?_ sig hmem
  · intro s₁ s₂ hall ht
    rw [(Tick.after ht).1]
    exact hall
  · rintro s₁ ⟨c, r⟩ s₂ hall ha hx
    have hsent : ∀ sig ∈ s₂.sent, sig ∈ s₁.sent ∨ broadcastOf ⟨c, r⟩ = some sig := by
      intro sig hmem
      by_cases hb : IsBroadcast ⟨c, r⟩
      · cases c
        case sendAndConfirmTransaction tx => exact mem_sent_of_broadcast ha hmem
        all_goals exact hb.elim
      · rw [after_of_answer hb ha] at hmem
        exact .inl hmem
    intro sig hmem
    rcases hsent sig hmem with hmem | hsig
    · exact hall sig hmem
    · exact .inr ⟨_, hx, hsig⟩

/-- A transaction that is dropped, and not broadcast again, has not landed at the end. -/
theorem not_landed_of_dropped {s s' : Chain} {T : List (Chain × Client.Event)}
    (hT : network.Timeline s T s') {sig : Signature} (hmem : sig ∈ s'.sent)
    (hT' : ∀ y ∈ T, broadcastOf y.2 ≠ some sig) (hdropped : s.state sig = .dropped) :
    ¬ s'.Landed sig := by
  have hsent : sig ∈ s.sent := (exists_broadcastOf hT hmem).resolve_right
    fun ⟨y, hy, hsig⟩ => hT' y hy hsig
  have hsettled := settled_of_timeline hT hsent (hdropped ▸ TxState.dropped_ne_pending)
  rintro ⟨err, hlanded⟩
  rw [hsettled.2, hdropped] at hlanded
  cases hlanded

theorem askedFor_eq_some {e : Client.Event} {sig : Signature} (h : askedFor e = some sig) :
    ∃ r, e = ⟨.getSignatureStatuses [sig], r⟩ := by
  unfold askedFor at h
  split at h
  · cases h
    exact ⟨_, rfl⟩
  · cases h

theorem broadcastOf_eq_some {e : Client.Event} {sig : Signature} (h : broadcastOf e = some sig) :
    ∃ tx r, e = ⟨.sendAndConfirmTransaction tx, r⟩ ∧ tx.signatures.head? = some sig := by
  unfold broadcastOf at h
  split at h
  · exact ⟨_, _, rfl, h⟩
  · cases h

/-- **A call that fails gives up on every transaction it has broadcast**, and from then on the
transaction is not broadcast again. -/
theorem exists_givesUpOn (call : RetryCall) (sdk : Sdk) {T : List (Chain × Client.Event)}
    {s' : Chain} {e : Failure} (hT : network.Timeline start T s')
    (hr : (call.prog rpc sdk).run.Runs (T.map Prod.snd) (.error e)) {sig : Signature}
    (hmem : sig ∈ s'.sent) :
    ∃ s₁ T₂, GivesUpOn T s' sig s₁ ∧ network.Timeline s₁ T₂ s' ∧
      ∀ y ∈ T₂, broadcastOf y.2 ≠ some sig := by
  rw [RetryCall.prog_eq] at hr
  have hunshown := unshown_retryLoop rpc (call.build sdk) [0, 1, 2] none _ _ hr ⟨e, rfl⟩
  have hfollowed := followedUp_retryLoop rpc (call.build sdk) [0, 1, 2] none rfl _ _ hr ⟨e, rfl⟩
  -- the last event that broadcasts the transaction or asks for it
  have hlast : ∃ x ∈ T, broadcastOf x.2 = some sig ∨ askedFor x.2 = some sig := by
    obtain ⟨x, hx, hsig⟩ := (exists_broadcastOf hT hmem).resolve_left List.not_mem_nil
    exact ⟨x, hx, .inl hsig⟩
  obtain ⟨T₁, ⟨s₁, event⟩, T₂, rfl, hx, hT₂⟩ := Env.exists_last
    (P := fun x => broadcastOf x = some sig ∨ askedFor x = some sig) hlast
  obtain ⟨s₀, -, -, s₂, ha, htail⟩ := Env.timeline_append.1 hT
  have hnot : ∀ y ∈ T₂, askedFor y.2 ≠ some sig ∧ broadcastOf y.2 ≠ some sig :=
    fun y hy => ⟨fun h => hT₂ y hy (.inr h), fun h => hT₂ y hy (.inl h)⟩
  rcases hx with hsig | hasked
  · rw [List.map_append, List.map_cons] at hfollowed
    obtain ⟨tx, r, rfl, hhead⟩ := broadcastOf_eq_some hsig
    generalize hmap : T₂.map Prod.snd = t₂ at hfollowed
    cases hfollowed.of_append hsig with
    | asked h =>
      obtain ⟨y, hy, hasked⟩ := h
      obtain ⟨x, hx, rfl⟩ := List.mem_map.1 (hmap ▸ hy)
      exact absurd hasked (hnot x hx).1
    | @stopped t h =>
      obtain ⟨T₃, T₄, rfl, rfl, hstop⟩ := List.map_eq_append_iff.1 hmap
      obtain ⟨⟨s₃, _⟩, rfl, rfl⟩ := List.map_eq_singleton_iff.1 hstop
      obtain ⟨-, -, hticks, s₄, ha', hend⟩ := Env.timeline_append.1 htail
      exact ⟨s₃, [(s₃, ⟨.stopRequested, true⟩)],
        .stopped rfl hsig (List.forall_mem_map.1 h), ⟨.refl, s₄, ha', hend⟩,
        List.forall_mem_singleton.2 nofun⟩
    | last =>
      obtain rfl := List.map_eq_nil_iff.1 hmap
      obtain ⟨err, rfl⟩ := hunshown _ (List.mem_map_of_mem (List.mem_append_right _
        List.mem_cons_self))
      exact ⟨s', [], .sendFailed rfl hhead, .refl, List.forall_mem_nil _⟩
  · obtain ⟨r, rfl⟩ := askedFor_eq_some hasked
    have hshown := (hunshown _ (List.mem_map_of_mem (List.mem_append_right _
      List.mem_cons_self))).2
    exact ⟨s₁, (s₁, ⟨.getSignatureStatuses [sig], r⟩) :: T₂, .notShown rfl hshown hnot,
      ⟨.refl, s₂, ha, htail⟩, List.forall_mem_cons.2 ⟨nofun, fun y hy => (hnot y hy).2⟩⟩

/-! ### The same answers when nothing settles -/

/-- The state after the event when nothing has settled. -/
def pend (s : Chain) (e : Client.Event) : Chain :=
  match broadcastOf e with
  | some sig => s.broadcast sig
  | none => s

/-- The timeline of the events in which nothing settles. -/
def unsettled : Chain → Client.Trace → List (Chain × Client.Event)
  | _, [] => []
  | s, e :: t => (s, e) :: unsettled (s.pend e) t

/-- A broadcast that fails, and a status query that is answered and shows nothing. -/
def AnsweredUnshown : Client.Event → Prop
  | ⟨.sendAndConfirmTransaction _, r⟩ => ∃ e, r = .error e
  | ⟨.getSignatureStatuses sigs, r⟩ => ∃ sig, sigs = [sig] ∧ r = .ok [none]
  | _ => True

theorem AnsweredUnshown.of_correct {s : Chain} {e : Client.Event} (h : Unshown e)
    (hcorrect : s.CorrectStatus e) : AnsweredUnshown e := by
  obtain ⟨c, r⟩ := e
  cases c
  case sendAndConfirmTransaction tx => exact h
  case getSignatureStatuses sigs =>
    obtain ⟨⟨sig, rfl⟩, hshown⟩ := h
    obtain ⟨statuses, rfl, hforall⟩ := hcorrect
    obtain ⟨st, rest, -, hrest, rfl⟩ := List.forall₂_cons_left_iff.1 hforall
    cases hrest
    cases st with
    | none => exact ⟨sig, rfl, rfl⟩
    | some status => cases hshown
  all_goals trivial

theorem map_unsettled (s : Chain) (t : Client.Trace) : (unsettled s t).map Prod.snd = t := by
  induction t generalizing s with
  | nil => rfl
  | cons e t ih => rw [unsettled, List.map_cons, ih]

theorem answer_pend {s : Chain} {e : Client.Event} (he : AnsweredUnshown e) :
    network.answer s e.call e.reply (s.pend e) := by
  obtain ⟨c, r⟩ := e
  cases c
  case sendAndConfirmTransaction tx =>
    obtain ⟨e, rfl⟩ := he
    cases hsig : tx.signatures.head? with
    | none => simp [network, Answer, pend, broadcastOf, hsig]
    | some sig => simp [network, Answer, pend, broadcastOf, hsig]
  case getSignatureStatuses sigs =>
    obtain ⟨sig, rfl, rfl⟩ := he
    refine ⟨rfl, ?_⟩
    rintro _ ⟨⟩
    refine .cons ?_ .nil
    rintro status ⟨⟩
  all_goals rfl

theorem timeline_unsettled {t : Client.Trace} (ht : ∀ e ∈ t, AnsweredUnshown e) (s : Chain) :
    network.Timeline s (unsettled s t) (t.foldl pend s) := by
  induction t generalizing s with
  | nil => exact .refl
  | cons e t ih =>
    obtain ⟨he, ht⟩ := List.forall_mem_cons.1 ht
    exact ⟨.refl, s.pend e, answer_pend he, ih ht _⟩

/-- Nothing has settled. -/
def AllPending (s : Chain) : Prop := ∀ sig, s.state sig = .pending

theorem AllPending.pend {s : Chain} (h : s.AllPending) (e : Client.Event) :
    (s.pend e).AllPending := by
  unfold Chain.pend
  split
  · unfold broadcast
    split
    · exact h
    · intro sig
      change Function.update s.state _ TxState.pending sig = .pending
      rw [Function.update_apply]
      split
      · rfl
      · exact h sig
  · exact h

theorem AllPending.correctStatus {s : Chain} (h : s.AllPending) {e : Client.Event}
    (he : AnsweredUnshown e) : s.CorrectStatus e := by
  obtain ⟨c, r⟩ := e
  cases c
  case getSignatureStatuses sigs =>
    obtain ⟨sig, rfl, rfl⟩ := he
    refine ⟨_, rfl, .cons (fun ⟨err, hlanded⟩ => ?_) .nil⟩
    rw [h sig] at hlanded
    cases hlanded
  all_goals trivial

theorem correctStatus_unsettled {s : Chain} (hs : s.AllPending) {t : Client.Trace}
    (ht : ∀ e ∈ t, AnsweredUnshown e) : ∀ x ∈ unsettled s t, x.1.CorrectStatus x.2 := by
  induction t generalizing s with
  | nil => exact List.forall_mem_nil _
  | cons e t ih =>
    obtain ⟨he, ht⟩ := List.forall_mem_cons.1 ht
    exact List.forall_mem_cons.2 ⟨hs.correctStatus he, ih (hs.pend e) ht⟩

theorem AllPending.foldl {s : Chain} (h : s.AllPending) (t : Client.Trace) :
    (t.foldl Chain.pend s).AllPending := by
  induction t generalizing s with
  | nil => exact h
  | cons e t ih => exact ih (h.pend e)

theorem subset_pend (s : Chain) (e : Client.Event) : s.sent ⊆ (s.pend e).sent := by
  unfold pend
  split
  · exact fun sig hmem => (s.broadcast_state_of_mem _ hmem).1
  · exact fun _ => id

theorem subset_foldl_pend (s : Chain) (t : Client.Trace) : s.sent ⊆ (t.foldl pend s).sent := by
  induction t generalizing s with
  | nil => exact fun _ => id
  | cons e t ih => exact List.Subset.trans (s.subset_pend e) (ih _)

theorem mem_foldl_pend {t : Client.Trace} {e : Client.Event} (he : e ∈ t) {sig : Signature}
    (hsig : broadcastOf e = some sig) (s : Chain) : sig ∈ (t.foldl pend s).sent := by
  obtain ⟨t₁, t₂, rfl⟩ := List.append_of_mem he
  rw [List.foldl_append, List.foldl_cons]
  refine subset_foldl_pend _ t₂ ?_
  rw [pend, hsig]
  exact mem_broadcast _ _

/-- **The answers do not rule out a landing**: what a call that fails has broadcast may have landed
by the time it returns, whatever it was answered. -/
theorem exists_lands_unseen (call : RetryCall) (sdk : Sdk) {T : List (Chain × Client.Event)}
    {s' : Chain} {e : Failure} (hT : network.Timeline start T s')
    (hr : (call.prog rpc sdk).run.Runs (T.map Prod.snd) (.error e))
    (hcorrect : ∀ x ∈ T, x.1.CorrectStatus x.2) {sig : Signature} (hmem : sig ∈ s'.sent) :
    ∃ T' s'', T'.map Prod.snd = T.map Prod.snd ∧ network.Timeline start T' s'' ∧
      (∀ x ∈ T', x.1.CorrectStatus x.2) ∧ ¬ s''.NothingLanded := by
  rw [RetryCall.prog_eq] at hr
  have hunshown := unshown_retryLoop rpc (call.build sdk) [0, 1, 2] none _ _ hr ⟨e, rfl⟩
  have hanswered : ∀ x ∈ T.map Prod.snd, AnsweredUnshown x := by
    intro x hx
    obtain ⟨y, hy, rfl⟩ := List.mem_map.1 hx
    exact .of_correct (hunshown _ hx) (hcorrect y hy)
  have hstart : start.AllPending := fun _ => rfl
  -- nothing settles before the end, and then the transaction lands
  obtain ⟨x, hx, hsig⟩ := (exists_broadcastOf hT hmem).resolve_left List.not_mem_nil
  have hsent := mem_foldl_pend (List.mem_map_of_mem (f := Prod.snd) hx) hsig start
  have hland : network.Ticks ((T.map Prod.snd).foldl pend start)
      (((T.map Prod.snd).foldl pend start).set sig (.landed none)) :=
    .single (.settle hsent (hstart.foldl _ sig) (TxState.landed_ne_pending _))
  refine ⟨unsettled start (T.map Prod.snd), _, map_unsettled _ _,
    (timeline_unsettled hanswered start).ticks_right hland,
    correctStatus_unsettled hstart hanswered, fun hnone => ?_⟩
  exact hnone sig hsent ⟨none, set_state_self ..⟩

/-- **A failure is the truth when the loop gives up on nothing that can still land.**  In a run of a
retry loop that returns an error:

* if every transaction is dropped when the loop gives up on it, then nothing the call broadcast has
  landed at the return or lands afterwards;
* if one is not, and the status queries are answered correctly, then the same events, with status
  queries answered correctly, are those of a run at whose end a transaction has landed. -/
theorem failure_truthful (rpc : Rpc) (sdk : Sdk) (call : RetryCall)
    {T : List (Chain × Client.Event)} {s' : Chain} {e : Failure}
    (hT : network.Timeline start T s')
    (hr : (call.prog rpc sdk).run.Runs (T.map Prod.snd) (.error e)) :
    (GivesUpOnDropped T s' → ∀ s'', network.Ticks s' s'' → s''.NothingLanded) ∧
    ((∀ x ∈ T, x.1.CorrectStatus x.2) → ¬ GivesUpOnDropped T s' →
      ∃ T' s'', T'.map Prod.snd = T.map Prod.snd ∧ network.Timeline start T' s'' ∧
        (∀ x ∈ T', x.1.CorrectStatus x.2) ∧ ¬ s''.NothingLanded) := by
  constructor
  · intro hdropped s'' hticks sig hmem
    rw [(after_of_ticks hticks).1] at hmem
    obtain ⟨s₁, T₂, hgives, hT₂, hnot⟩ := exists_givesUpOn rpc call sdk hT hr hmem
    have hmem'' : sig ∈ s''.sent := (after_of_ticks hticks).1 ▸ hmem
    exact not_landed_of_dropped (hT₂.ticks_right hticks) hmem'' hnot (hdropped sig hmem s₁ hgives)
  · intro hcorrect hnot
    simp only [GivesUpOnDropped, not_forall] at hnot
    obtain ⟨sig, hmem, -⟩ := hnot
    exact exists_lands_unseen rpc call sdk hT hr hcorrect hmem

/-- The first transaction is lost and asked for when it is dropped, the second one is rejected and
dropped before the call returns: the failure is the truth. -/
theorem failure_truthful_sample : ∃ (T : List (Chain × Client.Event)) (s' : Chain) (e : Error),
    network.Timeline start T s' ∧
      ((RetryCall.legacy [] [.zero 32] (.zero 32)).prog ⟨0, 200000, false⟩ .plain).run.Runs
        (T.map Prod.snd) (.error (.error e)) ∧
      (∃ x ∈ T, askedFor x.2 = some (plainSignature (.zero 32))) ∧ s'.sent.length = 2 ∧
      GivesUpOnDropped T s' ∧ ∀ s'', network.Ticks s' s'' → s''.NothingLanded := by
  let call : RetryCall := .legacy [] [.zero 32] (.zero 32)
  let tx (h : Hash) : Transaction := ⟨[plainSignature h], ⟨.legacy, .zero 32, [], [], h⟩⟩
  let h₀ : Hash := .zero 32
  let h₁ : Hash := .fill 32 1
  let lost : ClientError := ⟨.io "connection reset", "connection reset"⟩
  let rejected : ClientError := ⟨.transactionError (.instructionError 2 6001), "program error"⟩
  let s₁ := start.broadcast (plainSignature h₀)
  let s₂ := s₁.set (plainSignature h₀) .dropped
  let s₃ := s₂.broadcast (plainSignature h₁)
  let s₄ := s₃.set (plainSignature h₁) .dropped
  let T : List (Chain × Client.Event) := [(start, ⟨.getLatestBlockhash, .ok h₀⟩),
    (start, ⟨.sendAndConfirmTransaction (tx h₀), .error lost⟩), (s₁, ⟨.sleep 500, ()⟩),
    (s₂, ⟨.getSignatureStatuses [plainSignature h₀], .ok [none]⟩),
    (s₂, ⟨.getLatestBlockhash, .ok h₁⟩),
    (s₂, ⟨.sendAndConfirmTransaction (tx h₁), .error rejected⟩)]
  have hdrop : network.Ticks s₁ s₂ :=
    .single (.settle (mem_broadcast _ _) (by simp [s₁, start, broadcast])
      TxState.dropped_ne_pending)
  have hdrop' : network.Ticks s₃ s₄ :=
    .single (.settle (mem_broadcast _ _) (by decide) TxState.dropped_ne_pending)
  have hT : network.Timeline start T s₄ := by
    refine ⟨.refl, start, rfl, .refl, s₁, rfl, .refl, s₁, rfl, hdrop, s₂, ⟨rfl, ?_⟩, .refl, s₂,
      rfl, .refl, s₃, rfl, hdrop'⟩
    rintro _ ⟨⟩
    refine .cons ?_ .nil
    rintro _ ⟨⟩
  have hr : (call.prog ⟨0, 200000, false⟩ .plain).run.Runs (T.map Prod.snd)
      (.error (.error (.anyhow s!"send_and_confirm_transaction: {rejected}"))) :=
    ⟨.ok h₀, _, rfl, .error lost, _, rfl, (), _, rfl, .ok [none], _, rfl, .ok h₁, _, rfl,
      .error rejected, _, rfl, rfl, rfl⟩
  -- the first transaction is dropped when it is asked for, and the second one at the return
  have hgone : GivesUpOnDropped T s₄ := by
    have hevent : ∀ {T₁ T₂ : List (Chain × Client.Event)} {x}, T = T₁ ++ x :: T₂ → x ∈ T :=
      fun h => h ▸ List.mem_append_right _ List.mem_cons_self
    intro sig hmem s hgives
    cases hgives with
    | notShown hsplit =>
      have hx := hevent hsplit
      simp only [T, List.mem_cons, Prod.mk.injEq, List.not_mem_nil, or_false] at hx
      rcases hx with ⟨-, hx⟩ | ⟨-, hx⟩ | ⟨-, hx⟩ | ⟨rfl, hx⟩ | ⟨-, hx⟩ | ⟨-, hx⟩
      case inr.inr.inr.inl =>
        cases hx
        exact set_state_self ..
      all_goals cases hx
    | stopped hsplit =>
      have hx := hevent (hsplit.trans (List.append_assoc _ (_ :: _) [_]).symm)
      simp only [T, List.mem_cons, Prod.mk.injEq, List.not_mem_nil, or_false] at hx
      rcases hx with ⟨-, hx⟩ | ⟨-, hx⟩ | ⟨-, hx⟩ | ⟨-, hx⟩ | ⟨-, hx⟩ | ⟨-, hx⟩
      all_goals cases hx
    | sendFailed =>
      have hdropped : ∀ sig ∈ [plainSignature h₁, plainSignature h₀], s₄.state sig = .dropped := by
        decide
      exact hdropped sig hmem
  exact ⟨T, s₄, _, hT, hr,
    ⟨(s₂, ⟨.getSignatureStatuses [plainSignature h₀], .ok [none]⟩), by simp [T], rfl⟩, by decide,
    hgone, (failure_truthful ⟨0, 200000, false⟩ .plain call hT hr).1 hgone⟩

/-! ### The other runs -/

/-- The promise without the condition: when a call fails, nothing has landed. -/
def FailureIsTruthful (rpc : Rpc) (sdk : Sdk) (call : RetryCall) : Prop :=
  ∀ (T : List (Chain × Client.Event)) (s' : Chain) (e : Error), network.Timeline start T s' →
    (call.prog rpc sdk).run.Runs (T.map Prod.snd) (.error (.error e)) →
      (∀ x ∈ T, x.1.CorrectStatus x.2) → s'.NothingLanded

/-- The first broadcast fails for good, and the loop gives up. -/
theorem retryLoop_runs_rejected {rpc : Rpc} (hstop : rpc.stop = false)
    {build : Hash → Except Failure Transaction} {h : Hash} {tx : Transaction} {sig : Signature}
    {e : ClientError} (hb : build h = .ok tx) (hs : tx.signatures.head? = some sig)
    (he : isTransient e = false) :
    (rpc.retryLoop build [0, 1, 2] none).run.Runs
      [⟨.getLatestBlockhash, .ok h⟩, ⟨.sendAndConfirmTransaction tx, .error e⟩]
      (.error (.error (.anyhow s!"send_and_confirm_transaction: {e}"))) := by
  rw [Rpc.retryLoop_cons]
  simp only [Rpc.stopped, hstop]
  refine ⟨.ok h, _, rfl, ?_⟩
  change Prog.Runs (rpc.signOn build 0 [1, 2] h).run _ _
  rw [rpc.signOn_eq 0 [1, 2] hb hs]
  refine ⟨.error e, _, rfl, ?_⟩
  change Prog.Runs (ExceptT.run (if (!isTransient e || 0 == 2) = true then _ else _)) _ _
  rw [he]
  exact ⟨rfl, rfl⟩

/-- What the client says when it gives up waiting for a confirmation. -/
def unconfirmed : ClientError :=
  ⟨.rpcError (.forUser "unable to confirm transaction"), "unable to confirm transaction"⟩

theorem isTransient_unconfirmed : isTransient unconfirmed = false := by decide +kernel

/-- The timeline in which the first broadcast is not confirmed, and then ends in `s'`. -/
def unconfirmedTimeline (h : Hash) (tx : Transaction) : List (Chain × Client.Event) :=
  [(start, ⟨.getLatestBlockhash, .ok h⟩),
    (start, ⟨.sendAndConfirmTransaction tx, .error unconfirmed⟩)]

theorem timeline_unconfirmed {h : Hash} {tx : Transaction} {sig : Signature} {x : TxState}
    (hs : tx.signatures.head? = some sig) (hx : x ≠ .pending) :
    network.Timeline start (unconfirmedTimeline h tx) ((start.broadcast sig).set sig x) := by
  have hsettle : network.Ticks (start.broadcast sig) ((start.broadcast sig).set sig x) :=
    .single (.settle (mem_broadcast _ _) (by simp [start, broadcast]) hx)
  refine ⟨.refl, start, rfl, .refl, start.broadcast sig, ?_, hsettle⟩
  simp [network, Answer, hs]

theorem correctStatus_unconfirmed {h : Hash} {tx : Transaction} :
    ∀ x ∈ unconfirmedTimeline h tx, x.1.CorrectStatus x.2 :=
  List.forall_mem_cons.2 ⟨trivial, List.forall_mem_singleton.2 trivial⟩

/-- Both loops report a transaction that lands after its confirmation has timed out as failed. -/
theorem not_failureIsTruthful :
    ¬ FailureIsTruthful ⟨0, 200000, false⟩ .plain (.legacy [] [.zero 32] (.zero 32)) ∧
    ¬ FailureIsTruthful ⟨0, 200000, false⟩ .plain (.v0 [] [] [.zero 32] (.zero 32)) := by
  have lands : ∀ call : RetryCall, (∃ tx, call.build .plain (.zero 32) = .ok tx ∧
      tx.signatures.head? = some (plainSignature (.zero 32))) →
      ¬ FailureIsTruthful ⟨0, 200000, false⟩ .plain call := by
    intro call hcall htrue
    obtain ⟨tx, hb, hs⟩ := hcall
    have hstop : (⟨0, 200000, false⟩ : Rpc).stop = false := rfl
    have hruns := retryLoop_runs_rejected hstop hb hs isTransient_unconfirmed
    rw [← RetryCall.prog_eq] at hruns
    have hnone := htrue (unconfirmedTimeline (.zero 32) tx) _ _
      (timeline_unconfirmed (x := .landed none) hs nofun) hruns correctStatus_unconfirmed
    exact hnone _ (mem_broadcast _ _) ⟨none, set_state_self ..⟩
  exact ⟨lands _ ⟨_, rfl, rfl⟩, lands _ ⟨_, rfl, rfl⟩⟩

end Chain

end YdeltaCrankers
