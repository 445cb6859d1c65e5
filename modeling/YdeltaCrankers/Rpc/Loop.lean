import YdeltaCrankers.Rpc.Network

/-!
# The retry loop in the network

The rule for proving a promise about the retry loop: what has to hold at the head of an attempt
(`Head`), what has to hold when an attempt goes on to sign (`Sign`), and what each of the two
calls that matter, the status query and the broadcast, makes of it.

## Main definitions

* `Chain.LoopRule` : the conditions, one for each step of an attempt.
* `Chain.LoopRule.retryLoop` : the promise holds of the loop.
-/

namespace YdeltaCrankers

open Interaction

namespace Chain

/-- The status a status query shows, if any: `Some(Some(status)) = resp.value.first()`. -/
def shown : Except ClientError (List (Option TransactionStatus)) → Option TransactionStatus
  | .ok (some status :: _) => some status
  | _ => none

/-- The event is a broadcast. -/
def IsBroadcast : Client.Event → Prop
  | ⟨.sendAndConfirmTransaction _, _⟩ => True
  | _ => False

theorem after_of_answer {s s' : Chain} {e : Client.Event} (he : ¬ IsBroadcast e)
    (h : network.answer s e.call e.reply s') : s' = s := by
  obtain ⟨c, r⟩ := e
  cases c
  case sendAndConfirmTransaction tx => exact absurd trivial he
  case getSignatureStatuses sigs => exact h.1
  all_goals exact h

/-- While nothing is broadcast, the network only settles what was broadcast before. -/
theorem after_of_timeline {s s' : Chain} {T : List (Chain × Client.Event)}
    (h : network.Timeline s T s') (hT : ∀ x ∈ T, ¬ IsBroadcast x.2) : s.After s' := by
  refine h.invariant (P := fun x => s.After x) (After.refl s)
    (fun _ _ hx ht => hx.trans (Tick.after ht)) fun s₁ e s₂ hx ha hmem => ?_
  rw [after_of_answer (hT _ hmem) ha]
  exact hx

/-- What keeps a promise in every attempt: as long as the events satisfy `A`, every broadcast
satisfies `G`, every state `J`, and the loop returns with `Q`. -/
structure LoopRule (A : Chain → Client.Event → Prop) (G : Chain → Transaction → Prop)
    (J : Chain → Prop) (Head : Option Signature → Chain → Prop) (Sign : Chain → Prop)
    (Q : Except Failure Signature → Chain → Prop) : Prop where
  head_sound : ∀ {last s}, Head last s → J s
  head_after : ∀ {last s s'}, Head last s → s.After s' → Head last s'
  sign_sound : ∀ {s}, Sign s → J s
  sign_after : ∀ {s s'}, Sign s → s.After s' → Sign s'
  error : ∀ e s, Q (.error e) s
  first : ∀ {s}, Head none s → Sign s
  silent : ∀ {prev s r}, Head (some prev) s → A s ⟨.getSignatureStatuses [prev], r⟩ →
    shown r = none → Sign s
  status : ∀ {prev s r status}, Head (some prev) s →
    network.answer s (.getSignatureStatuses [prev]) r s →
    A s ⟨.getSignatureStatuses [prev], r⟩ → shown r = some status →
    ∀ s', s.After s' → J s' ∧ Q (.ok prev) s'
  broadcast : ∀ {s tx sig}, Sign s → tx.signatures.head? = some sig → G s tx
  confirmed : ∀ {s tx sig sig' s'}, Sign s → tx.signatures.head? = some sig →
    network.answer s (.sendAndConfirmTransaction tx) (.ok sig') s' →
    ∀ s'', s'.After s'' → J s'' ∧ Q (.ok sig') s''
  lost : ∀ {s sig}, Sign s → Head (some sig) (s.broadcast sig)

/-- The promise about calls: every broadcast satisfies `G`. -/
def BroadcastIs (G : Chain → Transaction → Prop) (s : Chain) : ClientCall → Prop
  | .sendAndConfirmTransaction tx => G s tx
  | _ => True

namespace LoopRule

variable {A : Chain → Client.Event → Prop} {G : Chain → Transaction → Prop} {J : Chain → Prop}
  {Head : Option Signature → Chain → Prop} {Sign : Chain → Prop}
  {Q : Except Failure Signature → Chain → Prop} {s : Chain}

/-- The promise of a part of the loop, as a rule for following its text. -/
abbrev Keeps (A : Chain → Client.Event → Prop) (G : Chain → Transaction → Prop)
    (J : Chain → Prop) {α : Type} (Q : Except Failure α → Chain → Prop) (x : Async Client α)
    (s : Chain) : Prop :=
  network.Safe A (BroadcastIs G) J Q x.run s

theorem keeps_ret {α : Type} {Q : Except Failure α → Chain → Prop} {r : Except Failure α}
    (h : ∀ s', s.After s' → J s' ∧ Q r s') : network.Safe A (BroadcastIs G) J Q (.ret r) s :=
  fun s' hs => h s' (after_of_ticks hs)

theorem keeps_stopped (rpc : Rpc) (hJ : ∀ s', s.After s' → J s') :
    Keeps A G J (fun r s' => s.After s' ∧ ∃ b, r = .ok b) rpc.stopped s := by
  unfold Rpc.stopped
  split
  · intro s₁ ht
    have h₁ := after_of_ticks ht
    refine ⟨hJ s₁ h₁, trivial, fun r s₂ ha _ => ?_⟩
    cases ha
    exact keeps_ret fun s' h' => ⟨hJ s' (h₁.trans h'), h₁.trans h', r, rfl⟩
  · exact keeps_ret fun s' h' => ⟨hJ s' h', h', false, rfl⟩

variable (h : LoopRule A G J Head Sign Q)

include h

/-- The idempotency check: it ends the loop, or the attempt may sign. -/
theorem keeps_landedBefore {last : Option Signature} (hs : Head last s) :
    Keeps A G J (fun r s' =>
      (∃ sig, r = .ok (some sig) ∧ ∀ s'', s'.After s'' → J s'' ∧ Q (.ok sig) s'') ∨
        r = .ok none ∧ Sign s') (Rpc.landedBefore last) s := by
  cases last with
  | none =>
    exact keeps_ret fun s' h' =>
      ⟨h.head_sound (h.head_after hs h'), .inr ⟨rfl, h.first (h.head_after hs h')⟩⟩
  | some prev =>
    intro s₁ ht
    have h₁ := h.head_after hs (after_of_ticks ht)
    refine ⟨h.head_sound h₁, trivial, fun r s₂ ha hA => ?_⟩
    obtain rfl : s₂ = s₁ := ha.1
    have silent : shown r = none → ∀ s', s₂.After s' → J s' ∧ Sign s' := fun hr s' h' =>
      have hsign := h.sign_after (h.silent h₁ hA hr) h'
      ⟨h.sign_sound hsign, hsign⟩
    rcases r with e | (_ | ⟨_ | status, rest⟩)
    · exact keeps_ret fun s' h' => (silent rfl s' h').imp_right fun h => .inr ⟨rfl, h⟩
    · exact keeps_ret fun s' h' => (silent rfl s' h').imp_right fun h => .inr ⟨rfl, h⟩
    · exact keeps_ret fun s' h' => (silent rfl s' h').imp_right fun h => .inr ⟨rfl, h⟩
    · have hQ := h.status h₁ ha hA rfl
      exact keeps_ret fun s' h' =>
        ⟨(hQ s' h').1, .inl ⟨prev, rfl, fun s'' h'' => hQ s'' (h'.trans h'')⟩⟩

/-- The broadcast of an attempt. -/
theorem keeps_broadcast (rpc : Rpc) (build : Hash → Except Failure Transaction)
    (rest : List ℕ) (attempt : ℕ) (tx : Transaction) (hs : Sign s)
    (ih : ∀ {last : Option Signature} {s : Chain}, Head last s →
      Keeps A G J Q (rpc.retryLoop build rest last) s) :
    Keeps A G J Q (match tx.signatures.head? with
      | none => bail "tx has no signature"
      | some sig => do
        match ← Client.query (.sendAndConfirmTransaction tx) with
        | .ok sig => return sig
        | .error e =>
          if !isTransient e || attempt == 2 then bail s!"send_and_confirm_transaction: {e}"
          else do
            let () ← Client.query (.sleep 500)
            rpc.retryLoop build rest (some sig) : Async Client Signature) s := by
  cases hsig : tx.signatures.head? with
  | none => exact keeps_ret fun s' h' => ⟨h.sign_sound (h.sign_after hs h'), h.error _ s'⟩
  | some sig =>
    refine Env.safe_ask_bind fun s₁ ht => ?_
    have h₁ := h.sign_after hs (after_of_ticks ht)
    refine ⟨h.sign_sound h₁, h.broadcast h₁ hsig, fun r s₂ ha _ => ?_⟩
    cases r with
    | ok sig' => exact keeps_ret (h.confirmed h₁ hsig ha)
    | error e =>
      simp only [network, Answer, hsig] at ha
      cases ha
      -- the transaction may have got out, so the next attempt begins with its signature
      have hlost : Head (some sig) (s₁.broadcast sig) := h.lost h₁
      simp only
      split
      · exact keeps_ret fun s' h' => ⟨h.head_sound (h.head_after hlost h'), h.error _ s'⟩
      · refine Env.safe_ask_bind fun s₃ ht => ?_
        have h₃ := h.head_after hlost (after_of_ticks ht)
        refine ⟨h.head_sound h₃, trivial, fun r s₄ ha _ => ?_⟩
        cases ha
        exact ih h₃

/-- The loop keeps the promise from every state that may begin an attempt. -/
theorem retryLoop (rpc : Rpc) (build : Hash → Except Failure Transaction) (attempts : List ℕ)
    {last : Option Signature} (hs : Head last s) :
    Keeps A G J Q (rpc.retryLoop build attempts last) s := by
  induction attempts generalizing last s with
  | nil => exact keeps_ret fun s' h' => ⟨h.head_sound (h.head_after hs h'), h.error _ s'⟩
  | cons attempt rest ih =>
    refine Env.Safe.bindFallible
      ((keeps_stopped rpc fun s' h' => h.head_sound (h.head_after hs h')).mono ?_)
    rintro _ s₁ ⟨h', b, rfl⟩
    have h₁ := h.head_after hs h'
    cases b with
    | true => exact keeps_ret fun s' h' => ⟨h.head_sound (h.head_after h₁ h'), h.error _ s'⟩
    | false =>
      refine Env.Safe.bindFallible ((h.keeps_landedBefore h₁).mono ?_)
      rintro _ s₂ (⟨sig, rfl, hQ⟩ | ⟨rfl, h₂⟩)
      · exact keeps_ret hQ
      · refine Env.safe_ask_bind fun s₃ ht => ?_
        have h₃ := h.sign_after h₂ (after_of_ticks ht)
        have herror : ∀ e, network.Safe A (BroadcastIs G) J Q (.ret (.error e)) s₃ := fun e =>
          keeps_ret fun s' h' => ⟨h.sign_sound (h.sign_after h₃ h'), h.error _ s'⟩
        refine ⟨h.sign_sound h₃, trivial, fun r s₄ ha _ => ?_⟩
        cases ha
        cases r with
        | error e => exact herror _
        | ok blockhash =>
          change Keeps A G J Q (liftExcept (build blockhash) >>= _) s₃
          cases build blockhash with
          | error e => exact herror _
          | ok tx => exact h.keeps_broadcast rpc build rest attempt tx h₃ ih

/-- Both retry loops keep the promise. -/
theorem prog (rpc : Rpc) (sdk : Sdk) (call : RetryCall) (hs : Head none s) :
    Keeps A G J Q (call.prog rpc sdk) s := by
  rw [RetryCall.prog_eq]
  exact h.retryLoop rpc (call.build sdk) [0, 1, 2] hs

end LoopRule

end Chain

end YdeltaCrankers
