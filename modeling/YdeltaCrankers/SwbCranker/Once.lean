import YdeltaCrankers.Rpc.Failure
import YdeltaCrankers.SwbCranker

/-!
# One update for each crank

`SwbCranker.crank` asks one gateway after the other and sends what it gets.  A gateway that gives
nothing costs nothing, but a send may fail after its transaction was broadcast, and that transaction
may still land.  The cranker treats both alike and goes on to the next gateway, so that it pays
again unless the transaction was that of the last one.

* `SwbCranker.TryRun` : the runs of an update through one gateway;
* `SwbCranker.crank_once_iff` (**main theorem**) : when a crank pays for one update only.
-/

namespace YdeltaCrankers

open Interaction

/-! ### The network behind the cranker -/

/-- The replies to the cranker, with the state of the network after them.  A send may fail before it
gets to the network. -/
def swbAnswer (s : Chain) : (c : ServiceCall) → c.Reply → Chain → Prop
  | .client (.sendAndConfirmTransaction tx), .error e, s' =>
    s' = s ∨ Chain.Answer s (.sendAndConfirmTransaction tx) (.error e) s'
  | .client c, r, s' => Chain.Answer s c r s'
  | _, _, s' => s' = s

/-- The network as an environment of the cranker. -/
def swbNetwork : Env Service Chain := ⟨Chain.Tick, swbAnswer⟩

theorem sent_of_swbTicks {s s' : Chain} (h : swbNetwork.Ticks s s') : s'.sent = s.sent :=
  h.invariant (P := fun x => x.sent = s.sent) rfl fun _ _ hs ht => (Chain.Tick.after ht).1.trans hs

namespace SwbCranker

/-- A gateway is asked for an update. -/
def asksGateway : Service.Event → Bool
  | ⟨.process (.fetchUpdateConsensusIx _ _ _), _⟩ => true
  | _ => false

/-- A transaction is sent. -/
def sends : Service.Event → Bool
  | ⟨.client (.sendAndConfirmTransaction _), _⟩ => true
  | _ => false

/-- A transaction is sent, and the call fails. -/
def failsSend : Service.Event → Bool
  | ⟨.client (.sendAndConfirmTransaction _), .error _⟩ => true
  | _ => false

/-- Nothing but a send broadcasts. -/
theorem sent_of_answer {s s' : Chain} {e : Service.Event} (he : sends e = false)
    (ha : swbNetwork.answer s e.call e.reply s') : s'.sent = s.sent := by
  obtain ⟨c, r⟩ := e
  cases c with
  | rpc c => exact congrArg Chain.sent ha
  | process c => exact congrArg Chain.sent ha
  | client c =>
    cases c
    case sendAndConfirmTransaction => cases he
    case getSignatureStatuses => exact congrArg Chain.sent ha.1
    all_goals exact congrArg Chain.sent ha

/-- A send broadcasts one transaction at most. -/
theorem sent_of_send {s s' : Chain} {tx : Transaction} {r : Except ClientError Signature}
    (hs : s.sent = []) (ha : swbNetwork.answer s (.client (.sendAndConfirmTransaction tx)) r s') :
    ∀ sig ∈ s'.sent, tx.signatures.head? = some sig := by
  intro sig hmem
  have hnone : sig ∉ s.sent := by simp [hs]
  cases r with
  | ok sig' =>
    exact (Chain.mem_sent_of_broadcast (r := .ok sig') ha hmem).resolve_left hnone
  | error e =>
    rcases ha with rfl | ha
    · exact absurd hmem hnone
    · exact (Chain.mem_sent_of_broadcast (r := .error e) ha hmem).resolve_left hnone

/-! ### The runs of a crank -/

variable (cranker : SwbCranker) (sdk : Sdk) (oracles : List Pubkey)

/-- The request to a gateway, with its reply. -/
abbrev asked (gateway : Gateway) (reply : Except Error SwbBundle) : Service.Event :=
  ⟨.process (.fetchUpdateConsensusIx gateway oracles cranker.payer), reply⟩

/-- The runs of an update through one gateway, one for each way out. -/
inductive TryRun (gateway : Gateway) : Service.Trace → Except Failure Signature → Prop
  | noBundle {e err : Error} :
      TryRun gateway [cranker.asked oracles gateway (.error e)] (.error (.error err))
  | noBlockhash {bundle : SwbBundle} {e : ClientError} {err : Error} :
      TryRun gateway [cranker.asked oracles gateway (.ok bundle),
        ⟨.client .getLatestBlockhash, .error e⟩] (.error (.error err))
  | unsigned {bundle : SwbBundle} {h : Hash} {err : Error} :
      TryRun gateway [cranker.asked oracles gateway (.ok bundle),
        ⟨.client .getLatestBlockhash, .ok h⟩] (.error (.error err))
  | confirmed {bundle : SwbBundle} {h : Hash} {tx : Transaction} {sig : Signature} :
      TryRun gateway [cranker.asked oracles gateway (.ok bundle),
        ⟨.client .getLatestBlockhash, .ok h⟩,
        ⟨.client (.sendAndConfirmTransaction tx), .ok sig⟩] (.ok sig)
  | lost {bundle : SwbBundle} {h : Hash} {tx : Transaction} {e : ClientError} {err : Error} :
      TryRun gateway [cranker.asked oracles gateway (.ok bundle),
        ⟨.client .getLatestBlockhash, .ok h⟩,
        ⟨.client (.sendAndConfirmTransaction tx), .error e⟩] (.error (.error err))

theorem fetchUpdateVia_runs (gateway : Gateway) :
    (cranker.fetchUpdateVia oracles gateway).Spec fun t r =>
      (∃ e err, t = [cranker.asked oracles gateway (.error e)] ∧ r = .error (.error err)) ∨
        ∃ bundle, t = [cranker.asked oracles gateway (.ok bundle)] ∧ r = .ok bundle := by
  refine Fallible.spec_query_bind fun reply => ?_
  cases reply with
  | error e => exact Fallible.spec_throw (.inl ⟨e, _, rfl, rfl⟩)
  | ok bundle => exact Fallible.spec_pure (.inr ⟨bundle, rfl, rfl⟩)

theorem tryCrank_runs (gateway : Gateway) :
    (cranker.tryCrank sdk oracles gateway).Spec (TryRun cranker oracles gateway) := by
  refine Fallible.spec_bind (cranker.fetchUpdateVia_runs oracles gateway) ?_ ?_
  · rintro t err (⟨e, _, rfl, heq⟩ | ⟨_, -, heq⟩)
    · cases heq
      exact .noBundle
    · cases heq
  rintro t bundle (⟨_, _, -, heq⟩ | ⟨_, rfl, heq⟩)
  · cases heq
  cases heq
  refine Fallible.spec_ask_bind (fun r err hr => ?_) fun r h hr => ?_
  · cases r <;> cases hr
    exact .noBlockhash
  cases r <;> cases hr
  change Fallible.Spec (liftError (Message.tryCompile sdk cranker.payer _ _ h) >>= _) _
  cases hmsg : Message.tryCompile sdk cranker.payer bundle.1 bundle.2 h with
  | error err => exact Fallible.spec_throw .unsigned
  | ok msg =>
    change Fallible.Spec (liftError (Transaction.tryNew sdk msg [cranker.payer]) >>= _) _
    cases htx : Transaction.tryNew sdk msg [cranker.payer] with
    | error err => exact Fallible.spec_throw .unsigned
    | ok tx =>
      refine Fallible.spec_ask fun r => ?_
      cases r with
      | error e => exact .lost
      | ok sig => exact .confirmed

/-- A crank ends with the first gateway whose update is confirmed, and goes on after any other. -/
theorem crankFrom_runs (gateway : Gateway) (rest : List Gateway) (lastErr : Option Error) :
    (cranker.crankFrom sdk oracles (gateway :: rest) lastErr).Spec fun t r =>
      (∃ sig, TryRun cranker oracles gateway t (.ok sig)) ∨
      ∃ t₁ t₂ e, t = t₁ ++ t₂ ∧ TryRun cranker oracles gateway t₁ (.error (.error e)) ∧
        (cranker.crankFrom sdk oracles rest (some e)).run.Runs t₂ r := by
  refine Fallible.spec_bind (Q := fun t r => ∃ r', r = .ok r' ∧
    TryRun cranker oracles gateway t (r'.mapError Failure.error)) ?_ (fun _ _ h => ?_) ?_
  · refine Fallible.spec_attempt (tryCrank_runs cranker sdk oracles gateway)
      (fun t a h => ⟨.ok a, rfl, h⟩) (fun t e e' h he => ?_) fun t e h he => ?_
    · cases h <;> cases he
      exacts [⟨_, rfl, .noBundle⟩, ⟨_, rfl, .noBlockhash⟩, ⟨_, rfl, .unsigned⟩, ⟨_, rfl, .lost⟩]
    · cases h <;> cases he
  · obtain ⟨_, heq, -⟩ := h
    cases heq
  · rintro t reply ⟨_, heq, htry⟩
    cases heq
    cases reply with
    | ok sig =>
      refine Fallible.spec_pure (.inl ⟨sig, ?_⟩)
      rwa [List.append_nil]
    | error e => exact fun t₂ r h => .inr ⟨t, t₂, e, rfl, htry, h⟩

theorem TryRun.head {gateway : Gateway} {t : Service.Trace} {r : Except Failure Signature}
    (h : TryRun cranker oracles gateway t r) : ∃ e t', t = e :: t' ∧ asksGateway e = true := by
  cases h <;> exact ⟨_, _, rfl, rfl⟩

/-- As long as gateways are left, the crank begins by asking one. -/
theorem head_crankFrom {gateway : Gateway} {rest : List Gateway} {lastErr : Option Error}
    {t : Service.Trace} {r : Except Failure (Option Signature)}
    (hr : (cranker.crankFrom sdk oracles (gateway :: rest) lastErr).run.Runs t r) :
    ∃ e t', t = e :: t' ∧ asksGateway e = true := by
  rcases cranker.crankFrom_runs sdk oracles gateway rest lastErr t r hr with
    ⟨_, htry⟩ | ⟨t₁, t₂, _, rfl, htry, -⟩
  · exact htry.head
  · obtain ⟨e, t', rfl, he⟩ := htry.head
    exact ⟨e, t' ++ t₂, rfl, he⟩

/-! ### Paying once -/

/-- The state in which the next event is answered; at the end, the last state. -/
def stateAt (s' : Chain) : List (Chain × Service.Event) → Chain
  | [] => s'
  | x :: _ => x.1

/-- A crank pays for one update at most. -/
structure PaidOnce (T : List (Chain × Service.Event)) (s' : Chain) : Prop where
  /-- At most one transaction lands. -/
  landed : s'.AtMostOneLanded
  /-- A gateway is asked only when those before it have broadcast nothing. -/
  failover : ∀ x ∈ T, asksGateway x.2 = true → x.1.sent = []

theorem paidOnce_cons {x : Chain × Service.Event} {T : List (Chain × Service.Event)} {s' : Chain} :
    PaidOnce (x :: T) s' ↔ (asksGateway x.2 = true → x.1.sent = []) ∧ PaidOnce T s' := by
  constructor
  · rintro ⟨hlanded, hfailover⟩
    obtain ⟨hx, hT⟩ := List.forall_mem_cons.1 hfailover
    exact ⟨hx, hlanded, hT⟩
  · rintro ⟨hx, hlanded, hT⟩
    exact ⟨hlanded, List.forall_mem_cons.2 ⟨hx, hT⟩⟩

/-- A send fails, a transaction has been broadcast by then, and fewer than `n` gateways have been
asked. -/
def LosesEarly (n : ℕ) (T : List (Chain × Service.Event)) (s' : Chain) : Prop :=
  ∃ T₁ x T₂, T = T₁ ++ x :: T₂ ∧ failsSend x.2 = true ∧ (stateAt s' T₂).sent ≠ [] ∧
    T₁.countP (fun y => asksGateway y.2) < n

theorem not_losesEarly_nil (n : ℕ) (s' : Chain) : ¬ LosesEarly n [] s' := by
  rintro ⟨T₁, x, T₂, h, -⟩
  exact List.append_ne_nil_of_right_ne_nil T₁ (List.cons_ne_nil x T₂) h.symm

theorem losesEarly_cons {n : ℕ} {x : Chain × Service.Event} {T : List (Chain × Service.Event)}
    {s' : Chain} : LosesEarly n (x :: T) s' ↔
      (failsSend x.2 = true ∧ (stateAt s' T).sent ≠ [] ∧ 0 < n) ∨
        LosesEarly (n - if asksGateway x.2 then 1 else 0) T s' := by
  constructor
  · rintro ⟨_ | ⟨y, T₁⟩, z, T₂, h, hfails, hsent, hcount⟩
    · cases h
      exact .inl ⟨hfails, hsent, hcount⟩
    · cases h
      rw [List.countP_cons] at hcount
      exact .inr ⟨T₁, z, T₂, rfl, hfails, hsent, Nat.lt_sub_of_add_lt hcount⟩
  · rintro (⟨hfails, hsent, hn⟩ | ⟨T₁, y, T₂, rfl, hfails, hsent, hcount⟩)
    · exact ⟨[], x, T, rfl, hfails, hsent, hn⟩
    · refine ⟨x :: T₁, y, T₂, rfl, hfails, hsent, ?_⟩
      rw [List.countP_cons]
      exact Nat.add_lt_of_lt_sub hcount

theorem failsSend_eq_false {e : Service.Event} (he : sends e = false) : failsSend e = false := by
  revert he
  unfold failsSend
  split
  · exact nofun
  · exact fun _ => rfl

/-- The events decide how often is paid: after nothing has been broadcast, once exactly when none of
them loses a transaction early. -/
def Decides (s' : Chain) (n : ℕ) (t : Service.Trace) : Prop :=
  ∀ (T : List (Chain × Service.Event)) (s : Chain), s.sent = [] → swbNetwork.Timeline s T s' →
    T.map Prod.snd = t → (PaidOnce T s' ↔ ¬ LosesEarly n T s')

section Decides

variable {s' : Chain} {n : ℕ} {t : Service.Trace}

theorem decides_nil : Decides s' n [] := by
  intro T s hs hT hmap
  obtain rfl := List.map_eq_nil_iff.1 hmap
  have hsent : s'.sent = [] := (sent_of_swbTicks hT).trans hs
  refine iff_of_true ⟨?_, List.forall_mem_nil _⟩ (not_losesEarly_nil n s')
  simp [Chain.AtMostOneLanded, hsent]

/-- A call that sends nothing decides nothing. -/
theorem Decides.cons {e : Service.Event} (he : sends e = false)
    (h : Decides s' (n - if asksGateway e then 1 else 0) t) : Decides s' n (e :: t) := by
  intro T s hs hT hmap
  obtain ⟨x, T', rfl, rfl, hmap'⟩ := List.map_eq_cons_iff.1 hmap
  obtain ⟨hticks, s₂, ha, hT'⟩ := hT
  have hs₁ : x.1.sent = [] := (sent_of_swbTicks hticks).trans hs
  have hs₂ : s₂.sent = [] := (sent_of_answer he ha).trans hs₁
  have hfails : failsSend x.2 ≠ true := by
    rw [failsSend_eq_false he]
    exact nofun
  rw [paidOnce_cons, and_iff_right fun _ => hs₁, losesEarly_cons, or_iff_right fun h => hfails h.1]
  exact h T' s₂ hs₂ hT' hmap'

/-- Neither do a request to a gateway and the blockhash fetched after it. -/
theorem Decides.prepared {gateway : Gateway} {bundle : SwbBundle}
    {reply : Except ClientError Hash} (h : Decides s' n t) :
    Decides s' (n + 1) (cranker.asked oracles gateway (.ok bundle) ::
      ⟨.client .getLatestBlockhash, reply⟩ :: t) :=
  .cons rfl (.cons rfl h)

/-- When the first thing broadcast is sent by the last call, the crank pays once. -/
theorem paidOnce_of_send {x : Chain × Service.Event} {tx : Transaction}
    {r : Except ClientError Signature} {s : Chain} (hs : s.sent = [])
    (hT : swbNetwork.Timeline s [x] s')
    (hx : x.2 = ⟨.client (.sendAndConfirmTransaction tx), r⟩) : PaidOnce [x] s' := by
  obtain ⟨s₁, _⟩ := x
  subst hx
  obtain ⟨hticks, s₂, ha, hticks'⟩ := hT
  have hs₁ : s₁.sent = [] := (sent_of_swbTicks hticks).trans hs
  have hsent : ∀ sig ∈ s'.sent, tx.signatures.head? = some sig := by
    intro sig hmem
    rw [sent_of_swbTicks hticks'] at hmem
    exact sent_of_send hs₁ ha sig hmem
  refine ⟨fun a ha b hb _ _ => ?_, List.forall_mem_singleton.2 nofun⟩
  exact Option.some.inj ((hsent a ha).symm.trans (hsent b hb))

theorem decides_confirmed {tx : Transaction} {sig : Signature} :
    Decides s' n [⟨.client (.sendAndConfirmTransaction tx), .ok sig⟩] := by
  intro T s hs hT hmap
  obtain ⟨x, rfl, hx⟩ := List.map_eq_singleton_iff.1 hmap
  refine iff_of_true (paidOnce_of_send hs hT hx) ?_
  rw [losesEarly_cons, hx]
  rintro (⟨hfails, -⟩ | hloses)
  · cases hfails
  · exact not_losesEarly_nil _ s' hloses

/-- After a failed send, a crank with a gateway left pays once only if nothing was broadcast. -/
theorem Decides.lost {rest : List Gateway} {lastErr : Option Error} {tx : Transaction}
    {e : ClientError} {r : Except Failure (Option Signature)}
    (hr : (cranker.crankFrom sdk oracles rest lastErr).run.Runs t r)
    (h : Decides s' rest.length t) :
    Decides s' rest.length (⟨.client (.sendAndConfirmTransaction tx), .error e⟩ :: t) := by
  intro T s hs hT hmap
  obtain ⟨x, T', rfl, hx, hmap'⟩ := List.map_eq_cons_iff.1 hmap
  have hfails : failsSend x.2 = true := by rw [hx]; rfl
  have hasks : asksGateway x.2 = false := by rw [hx]; rfl
  cases rest with
  | nil =>
    obtain ⟨rfl, -⟩ := hr
    obtain rfl := List.map_eq_nil_iff.1 hmap'
    -- no gateway is left to ask
    refine iff_of_true (paidOnce_of_send hs hT hx) ?_
    rintro ⟨_, _, _, -, -, -, hcount⟩
    exact absurd hcount (Nat.not_lt_zero _)
  | cons gateway rest =>
    obtain ⟨_, t', rfl, hask⟩ := cranker.head_crankFrom sdk oracles hr
    obtain ⟨y, T'', rfl, rfl, -⟩ := List.map_eq_cons_iff.1 hmap'
    obtain ⟨-, s₂, -, -, hT''⟩ := hT
    by_cases hsent : y.1.sent = []
    · -- the transaction did not get out: from here on the crank is one through the gateways left
      have hgo := h (y :: T'') y.1 hsent ⟨.refl, hT''⟩ hmap'
      have hfree : ¬ (failsSend x.2 = true ∧ (stateAt s' (y :: T'')).sent ≠ [] ∧
          0 < (gateway :: rest).length) := fun h => h.2.1 hsent
      have hquiet : asksGateway x.2 = true → x.1.sent = [] := by
        rw [hasks]
        exact nofun
      rw [paidOnce_cons, and_iff_right hquiet, losesEarly_cons, or_iff_right hfree, hasks]
      exact hgo
    · -- it did, and the next gateway is asked all the same
      refine iff_of_false (fun hpaid => ?_) (not_not.2 (losesEarly_cons.2 (.inl ?_)))
      · exact hsent (hpaid.failover y (List.mem_cons_of_mem _ List.mem_cons_self) hask)
      · exact ⟨hfails, hsent, Nat.succ_pos _⟩

end Decides

/-- **What a crank through these gateways costs**, if nothing has been broadcast before. -/
theorem decides_crankFrom (gateways : List Gateway) (lastErr : Option Error) (s' : Chain) :
    (cranker.crankFrom sdk oracles gateways lastErr).Spec fun t _ =>
      Decides s' gateways.length t := by
  induction gateways generalizing lastErr with
  | nil => exact Fallible.spec_throw decides_nil
  | cons gateway rest ih =>
    refine (cranker.crankFrom_runs sdk oracles gateway rest lastErr).mono fun t r h => ?_
    rcases h with ⟨sig, htry⟩ | ⟨t₁, t₂, e, rfl, htry, hrest⟩
    · cases htry with
      | confirmed => exact .prepared cranker oracles decides_confirmed
    · have hgo : Decides s' rest.length t₂ := ih (some e) t₂ r hrest
      cases htry with
      | noBundle => exact .cons rfl hgo
      | noBlockhash => exact .prepared cranker oracles hgo
      | unsigned => exact .prepared cranker oracles hgo
      | lost => exact .prepared cranker oracles (.lost cranker sdk oracles hrest hgo)

/-- **A crank pays for one update exactly when it loses none early.**  In a run of a crank, at most
one transaction lands and a gateway is asked only when nothing has been broadcast, if and only if no
send fails with its transaction broadcast while gateways are left. -/
theorem crank_once_iff {T : List (Chain × Service.Event)} {s' : Chain}
    {r : Except Failure (Option Signature)} (hT : swbNetwork.Timeline .start T s')
    (hr : (cranker.crank sdk oracles).run.Runs (T.map Prod.snd) r) :
    PaidOnce T s' ↔ ¬ LosesEarly cranker.gateways.length T s' := by
  unfold crank at hr
  split at hr
  · exact decides_nil T .start rfl hT hr.1
  · exact cranker.decides_crankFrom sdk oracles cranker.gateways none s' _ _ hr T .start rfl hT rfl

/-! ### Paying twice -/

/-- The promise without the condition. -/
def CranksOnce (cranker : SwbCranker) (sdk : Sdk) : Prop :=
  ∀ (oracles : List Pubkey) (T : List (Chain × Service.Event)) (s' : Chain)
    (r : Except Failure (Option Signature)), swbNetwork.Timeline .start T s' →
      (cranker.crank sdk oracles).run.Runs (T.map Prod.snd) r → PaidOnce T s'

/-- The update instruction a gateway returns. -/
def sampleBundle : SwbBundle := ([.raw (.fill 32 60) [] [1]], [])

/-- The transaction that sends it. -/
def sampleUpdate (h : Hash) : Transaction :=
  ⟨[plainSignature h], ⟨.v0, .fill 32 50, sampleBundle.1, [], h⟩⟩

/-- The events of an update through one gateway, from its request to the reply to the send. -/
def sampleTry (gateway : Gateway) (h : Hash) (r : Except ClientError Signature) : Service.Trace :=
  [⟨.process (.fetchUpdateConsensusIx gateway [.fill 32 71] (.fill 32 50)), .ok sampleBundle⟩,
    ⟨.client .getLatestBlockhash, .ok h⟩,
    ⟨.client (.sendAndConfirmTransaction (sampleUpdate h)), r⟩]

theorem timeline_sampleTry (gateway : Gateway) {s s₁ s' : Chain} {h : Hash}
    {r : Except ClientError Signature} {T : List (Chain × Service.Event)}
    (ha : swbNetwork.answer s (.client (.sendAndConfirmTransaction (sampleUpdate h))) r s₁)
    (hT : swbNetwork.Timeline s₁ T s') :
    swbNetwork.Timeline s ((sampleTry gateway h r).map (Prod.mk s) ++ T) s' :=
  ⟨.refl, s, rfl, .refl, s, rfl, .refl, s₁, ha, hT⟩

/-- A broadcast transaction is confirmed. -/
theorem answer_confirmed {s : Chain} {h : Hash} (hfresh : plainSignature h ∉ s.sent) :
    swbNetwork.answer s (.client (.sendAndConfirmTransaction (sampleUpdate h)))
      (.ok (plainSignature h))
      ((s.broadcast (plainSignature h)).set (plainSignature h) (.landed none)) := by
  refine ⟨rfl, rfl, .inl ?_⟩
  rw [Chain.broadcast, if_neg hfresh]
  exact Function.update_self ..

/-- The first update lands after the send has failed; the second gateway is paid for another. -/
theorem not_cranksOnce :
    ¬ CranksOnce ⟨[⟨"gateway 1"⟩, ⟨"gateway 2"⟩], .fill 32 50⟩ .plain := by
  intro honce
  let sig₀ := plainSignature (.zero 32)
  let sig₁ := plainSignature (.fill 32 1)
  have hne : sig₁ ≠ sig₀ := by decide
  let s₁ := Chain.start.broadcast sig₀
  let s₂ := s₁.set sig₀ (.landed none)
  let s₃ := (s₂.broadcast sig₁).set sig₁ (.landed none)
  let T := (sampleTry ⟨"gateway 1"⟩ (.zero 32) (.error Chain.unconfirmed)).map
    (Prod.mk Chain.start) ++ (sampleTry ⟨"gateway 2"⟩ (.fill 32 1) (.ok sig₁)).map (Prod.mk s₂)
  have hsent : s₂.sent = [sig₀] := by simp [s₂, s₁, Chain.set, Chain.broadcast, Chain.start]
  have hT : swbNetwork.Timeline .start T s₃ := by
    -- the first transaction lands while the second gateway is asked
    have hsettle : swbNetwork.Ticks s₁ s₂ :=
      .single (.settle (Chain.mem_broadcast _ _) (by simp [s₁, Chain.broadcast, Chain.start])
        (TxState.landed_ne_pending _))
    refine timeline_sampleTry _ (.inr rfl) (Env.Timeline.ticks_left hsettle ?_)
    rw [← List.append_nil (List.map _ _)]
    exact timeline_sampleTry _ (answer_confirmed (by simpa [hsent] using hne)) .refl
  have hr : ((⟨[⟨"gateway 1"⟩, ⟨"gateway 2"⟩], .fill 32 50⟩ : SwbCranker).crank .plain
      [.fill 32 71]).run.Runs (T.map Prod.snd) (.ok (some sig₁)) :=
    ⟨.ok sampleBundle, _, rfl, .ok (.zero 32), _, rfl, .error Chain.unconfirmed, _, rfl,
      .ok sampleBundle, _, rfl, .ok (.fill 32 1), _, rfl, .ok sig₁, _, rfl, rfl, rfl⟩
  have hbroadcast := s₂.broadcast_state_of_mem sig₁ (hsent ▸ List.mem_singleton_self sig₀)
  have hlanded₀ : s₃.Landed sig₀ := by
    refine ⟨none, (Chain.set_state_of_ne hne.symm).trans (hbroadcast.2.trans ?_)⟩
    exact Chain.set_state_self ..
  have hlanded₁ : s₃.Landed sig₁ := ⟨none, Chain.set_state_self ..⟩
  exact hne ((honce _ T s₃ _ hT hr).landed _ (Chain.mem_broadcast _ _) _ hbroadcast.1 hlanded₁
    hlanded₀)

/-- The send of the first update does not get to the network, and the second gateway is paid. -/
theorem crank_once_sample : ∃ T s' sig, swbNetwork.Timeline .start T s' ∧
    ((⟨[⟨"gateway 1"⟩, ⟨"gateway 2"⟩], .fill 32 50⟩ : SwbCranker).crank .plain
      [.fill 32 71]).run.Runs (T.map Prod.snd) (.ok (some sig)) ∧
    (∃ x ∈ T, failsSend x.2 = true) ∧ PaidOnce T s' := by
  let refused : ClientError := ⟨.io "connection refused", "connection refused"⟩
  let sig := plainSignature (.fill 32 1)
  let s' := (Chain.start.broadcast sig).set sig (.landed none)
  let T := (sampleTry ⟨"gateway 1"⟩ (.zero 32) (.error refused)).map (Prod.mk Chain.start) ++
    (sampleTry ⟨"gateway 2"⟩ (.fill 32 1) (.ok sig)).map (Prod.mk Chain.start)
  have hT : swbNetwork.Timeline .start T s' := by
    refine timeline_sampleTry _ (.inl rfl) ?_
    rw [← List.append_nil (List.map _ _)]
    exact timeline_sampleTry _ (answer_confirmed List.not_mem_nil) .refl
  have hr : ((⟨[⟨"gateway 1"⟩, ⟨"gateway 2"⟩], .fill 32 50⟩ : SwbCranker).crank .plain
      [.fill 32 71]).run.Runs (T.map Prod.snd) (.ok (some sig)) :=
    ⟨.ok sampleBundle, _, rfl, .ok (.zero 32), _, rfl, .error refused, _, rfl,
      .ok sampleBundle, _, rfl, .ok (.fill 32 1), _, rfl, .ok sig, _, rfl, rfl, rfl⟩
  refine ⟨T, s', sig, hT, hr, ⟨(.start, ⟨.client (.sendAndConfirmTransaction
    (sampleUpdate (.zero 32))), .error refused⟩), by simp [T, sampleTry], rfl⟩,
    (crank_once_iff _ _ _ hT hr).2 ?_⟩
  -- nothing had been broadcast when the one send failed
  simp [T, sampleTry, losesEarly_cons, not_losesEarly_nil, failsSend, stateAt, Chain.start]

end SwbCranker

end YdeltaCrankers
