import YdeltaCrankers.Interaction.Env
import YdeltaCrankers.Rpc.Retry

/-!
# The network behind the client

What happens to the transactions one call broadcasts.  A broadcast transaction is *pending*: it
may land, successfully or with an error, at any later moment, or be dropped, which is when its
blockhash expires (or when it never got past the node it was sent to).  Landed and dropped are
final.  A transaction is identified by its first signature, as on Solana; sending it again
changes nothing.

The replies are those the client is documented to give, and otherwise arbitrary:

* `send_and_confirm_transaction` broadcasts, and succeeds only if the transaction executed
  without an error; it may fail in any way whether or not the transaction lands, then or later;
* `get_signature_statuses` shows a status only of a transaction that has landed, with the error
  it landed with.  It may miss one that has just landed, and it may fail.

Sending is answered in one step: a transaction that lands during the call lands before it or
after it as far as the caller can tell.
-/

namespace YdeltaCrankers

open Interaction

/-- Where a broadcast transaction stands. -/
inductive TxState where
  /-- It may still land. -/
  | pending
  /-- It landed, with this error if any. -/
  | landed (err : Option TransactionError)
  /-- It can no longer land. -/
  | dropped
deriving DecidableEq

theorem TxState.landed_ne_pending (err : Option TransactionError) :
    TxState.landed err ≠ .pending := by
  intro h
  cases h

theorem TxState.dropped_ne_pending : TxState.dropped ≠ .pending := by
  intro h
  cases h

/-- The transactions one call has broadcast, and where each stands. -/
structure Chain where
  /-- Their signatures, the latest first. -/
  sent : List Signature
  /-- Where each of them stands. -/
  state : Signature → TxState

namespace Chain

/-- Nothing has been broadcast. -/
def start : Chain := ⟨[], fun _ => .pending⟩

/-- Move the transaction `sig` to state `x`. -/
def set (s : Chain) (sig : Signature) (x : TxState) : Chain :=
  { s with state := Function.update s.state sig x }

/-- Broadcast the transaction `sig`. -/
def broadcast (s : Chain) (sig : Signature) : Chain :=
  if sig ∈ s.sent then s else ⟨sig :: s.sent, Function.update s.state sig .pending⟩

@[simp] theorem set_state_self (s : Chain) (sig : Signature) (x : TxState) :
    (s.set sig x).state sig = x := Function.update_self ..

theorem set_state_of_ne {s : Chain} {sig sig' : Signature} {x : TxState} (h : sig' ≠ sig) :
    (s.set sig x).state sig' = s.state sig' := Function.update_of_ne h ..

/-- The network moves: a pending transaction lands or is dropped. -/
inductive Tick : Chain → Chain → Prop
  | settle {s : Chain} {sig : Signature} {x : TxState} (hmem : sig ∈ s.sent)
      (hpending : s.state sig = .pending) (hx : x ≠ .pending) : Tick s (s.set sig x)

/-- The replies of the network, with the state after them. -/
def Answer (s : Chain) : (c : ClientCall) → c.Reply → Chain → Prop
  | .getSignatureStatuses sigs, r, s' => s' = s ∧ ∀ statuses, r = .ok statuses →
      List.Forall₂ (fun sig st => ∀ status, st = some status →
        sig ∈ s.sent ∧ s.state sig = .landed status.err) sigs statuses
  | .sendAndConfirmTransaction tx, r, s' => match tx.signatures.head? with
      | none => s' = s
      | some sig => match r with
        | .ok sig' => sig' = sig ∧ s' = (s.broadcast sig).set sig (.landed none) ∧
            ((s.broadcast sig).state sig = .pending ∨
              (s.broadcast sig).state sig = .landed none)
        | .error _ => s' = s.broadcast sig
  | _, _, s' => s' = s

/-- The network as an environment of the client. -/
def network : Env Client Chain := ⟨Tick, Answer⟩

/-! ### What can be said of a transaction -/

/-- `sig` has landed, successfully or not. -/
def Landed (s : Chain) (sig : Signature) : Prop := ∃ err, s.state sig = .landed err

/-- `sig` executed on chain without an error. -/
def Executed (s : Chain) (sig : Signature) : Prop := sig ∈ s.sent ∧ s.state sig = .landed none

/-- Nothing the call broadcast has landed or can still land. -/
def AllDropped (s : Chain) : Prop := ∀ sig ∈ s.sent, s.state sig = .dropped

/-- At most one of the transactions the call broadcast has landed. -/
def AtMostOneLanded (s : Chain) : Prop :=
  ∀ a ∈ s.sent, ∀ b ∈ s.sent, s.Landed a → s.Landed b → a = b

/-- At most one of the transactions the call broadcast has landed or can still land. -/
def AtMostOneAlive (s : Chain) : Prop :=
  ∀ a ∈ s.sent, ∀ b ∈ s.sent, s.state a ≠ .dropped → s.state b ≠ .dropped → a = b

/-- `s'` comes after `s` with no broadcast in between. -/
def After (s s' : Chain) : Prop :=
  s'.sent = s.sent ∧ ∀ sig ∈ s.sent, s.state sig ≠ .pending → s'.state sig = s.state sig

theorem After.refl (s : Chain) : s.After s := ⟨rfl, fun _ _ _ => rfl⟩

theorem After.trans {s₁ s₂ s₃ : Chain} (h : s₁.After s₂) (h' : s₂.After s₃) : s₁.After s₃ := by
  refine ⟨h'.1.trans h.1, fun sig hmem hne => ?_⟩
  have h₂ := h.2 sig hmem hne
  rw [h'.2 sig (h.1 ▸ hmem) (h₂ ▸ hne), h₂]

theorem Tick.after {s s' : Chain} (h : Tick s s') : s.After s' := by
  obtain ⟨_, hpending, _⟩ := h
  refine ⟨rfl, fun sig' _ hne => ?_⟩
  have hsig : sig' ≠ _ := fun heq => hne (heq ▸ hpending)
  exact set_state_of_ne hsig

theorem after_of_ticks {s s' : Chain} (h : network.Ticks s s') : s.After s' :=
  h.invariant (P := fun x => s.After x) (After.refl s) fun _ _ hx ht => hx.trans (Tick.after ht)

theorem AllDropped.after {s s' : Chain} (h : s.AllDropped) (hs : s.After s') : s'.AllDropped := by
  intro sig hmem
  rw [hs.1] at hmem
  rw [hs.2 sig hmem (by simp [h sig hmem]), h sig hmem]

theorem AtMostOneAlive.after {s s' : Chain} (h : s.AtMostOneAlive) (hs : s.After s') :
    s'.AtMostOneAlive := by
  have alive : ∀ sig ∈ s.sent, s'.state sig ≠ .dropped → s.state sig ≠ .dropped :=
    fun sig hmem hne heq => hne (by rw [hs.2 sig hmem (by simp [heq]), heq])
  intro a ha b hb hna hnb
  rw [hs.1] at ha hb
  exact h a ha b hb (alive a ha hna) (alive b hb hnb)

theorem AtMostOneAlive.atMostOneLanded {s : Chain} (h : s.AtMostOneAlive) :
    s.AtMostOneLanded := by
  rintro a ha b hb ⟨ea, hea⟩ ⟨eb, heb⟩
  exact h a ha b hb (by simp [hea]) (by simp [heb])

theorem AllDropped.atMostOneAlive {s : Chain} (h : s.AllDropped) : s.AtMostOneAlive :=
  fun a ha _ _ hna _ => absurd (h a ha) hna

theorem start_allDropped : start.AllDropped := by simp [start, AllDropped]

/-! ### Broadcasting -/

theorem mem_broadcast (s : Chain) (sig : Signature) : sig ∈ (s.broadcast sig).sent := by
  unfold broadcast
  split
  · assumption
  · exact List.mem_cons_self

/-- A transaction broadcast before keeps its state when another one is. -/
theorem broadcast_state_of_mem (s : Chain) (sig : Signature) {sig' : Signature}
    (h : sig' ∈ s.sent) :
    sig' ∈ (s.broadcast sig).sent ∧ (s.broadcast sig).state sig' = s.state sig' := by
  unfold broadcast
  split
  · exact ⟨h, rfl⟩
  · rename_i hsig
    refine ⟨List.mem_cons_of_mem _ h, Function.update_of_ne ?_ _ _⟩
    rintro rfl; exact hsig h

/-- Broadcasting when everything else is dropped leaves one transaction alive. -/
theorem broadcast_atMostOneAlive {s : Chain} {sig : Signature}
    (h : ∀ sig' ∈ s.sent, sig' ≠ sig → s.state sig' = .dropped) :
    (s.broadcast sig).AtMostOneAlive := by
  have key : ∀ a ∈ (s.broadcast sig).sent, (s.broadcast sig).state a ≠ .dropped → a = sig := by
    intro a ha hne
    by_contra hsig
    have hmem : a ∈ s.sent := by
      unfold broadcast at ha
      split at ha
      · exact ha
      · exact (List.mem_cons.1 ha).resolve_left hsig
    exact hne ((s.broadcast_state_of_mem sig hmem).2.trans (h a hmem hsig))
  intro a ha b hb hna hnb
  rw [key a ha hna, key b hb hnb]

theorem set_atMostOneAlive {s : Chain} {sig : Signature} {x : TxState}
    (h : s.AtMostOneAlive) (hsig : s.state sig ≠ .dropped) : (s.set sig x).AtMostOneAlive := by
  have alive : ∀ a, (s.set sig x).state a ≠ .dropped → s.state a ≠ .dropped := by
    intro a hne
    by_cases ha : a = sig
    · exact ha ▸ hsig
    · rwa [set_state_of_ne ha] at hne
  exact fun a ha b hb hna hnb => h a ha b hb (alive a hna) (alive b hnb)

end Chain

end YdeltaCrankers
