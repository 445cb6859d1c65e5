import YdeltaCrankers.Rpc.Rejection
import YdeltaCrankers.Solana.Codec

/-!
# The two retry loops agree

A `Schedule` fixes what every call of a retry loop is answered: the readings of the stop flag, the
replies to the status queries, the blockhashes and the results of the broadcasts, each kind in its
own order.  Played against one schedule, `send_with_retry` and `send_v0_with_retry` go through the
same steps to the same outcome; only their transactions differ, one for one.

* `Rpc.Agree` : two runs go in step.  Constructors correspond to the calls of the loop.
* `Rpc.agree_retryLoop` : two loops go in step if both can build and sign.
* `RetryCall.loops_agree` (**main theorem**) : the two loops of the source do.
-/

namespace YdeltaCrankers

open Interaction

namespace Rpc

/-! ### Schedules -/

/-- The replies to come, of each kind of call. -/
structure Schedule where
  /-- The readings of the stop flag. -/
  stops : ℕ → Bool
  /-- The replies to status queries. -/
  statuses : ℕ → Except ClientError (List (Option TransactionStatus))
  /-- The replies to requests for a blockhash. -/
  blockhashes : ℕ → Except ClientError Hash
  /-- The results of broadcasts; a success returns the signature of the transaction. -/
  sends : ℕ → Except ClientError Unit

namespace Schedule

variable (σ : Schedule)

/-- The reply to a call. -/
def reply : (c : ClientCall) → c.Reply
  | .stopRequested => σ.stops 0
  | .getSignatureStatuses _ => σ.statuses 0
  | .getLatestBlockhash => σ.blockhashes 0
  | .sendAndConfirmTransaction tx =>
    (σ.sends 0).map fun _ => tx.signatures.head?.getD default
  | c => c.refused

/-- The replies left after a call. -/
def next : (c : ClientCall) → c.Reply → Schedule
  | .stopRequested, _ => { σ with stops := fun n => σ.stops (n + 1) }
  | .getSignatureStatuses _, _ => { σ with statuses := fun n => σ.statuses (n + 1) }
  | .getLatestBlockhash, _ => { σ with blockhashes := fun n => σ.blockhashes (n + 1) }
  | .sendAndConfirmTransaction _, _ => { σ with sends := fun n => σ.sends (n + 1) }
  | _, _ => σ

/-- The run against the schedule: its events and its outcome. -/
def play (p : Prog Client (Except Failure Signature)) :
    Client.Trace × Except Failure Signature :=
  ((Env.exec reply next p σ).1.map Prod.snd, (Env.exec reply next p σ).2.1)

theorem runs_play (p : Prog Client (Except Failure Signature)) :
    p.Runs (σ.play p).1 (σ.play p).2 :=
  Env.runs_exec p σ

end Schedule

/-! ### Runs in step -/

/-- Two runs go in step.  `last` has the signatures of the last transactions they broadcast: these
are what they ask for, and what they return. -/
inductive Agree : Option (Signature × Signature) → Client.Trace × Except Failure Signature →
    Client.Trace × Except Failure Signature → Prop
  | stop {last : Option (Signature × Signature)} {t₁ t₂ : Client.Trace}
      {r₁ r₂ : Except Failure Signature} (b : Bool) (h : Agree last (t₁, r₁) (t₂, r₂)) :
      Agree last (⟨.stopRequested, b⟩ :: t₁, r₁) (⟨.stopRequested, b⟩ :: t₂, r₂)
  | status {sig₁ sig₂ : Signature} {t₁ t₂ : Client.Trace} {r₁ r₂ : Except Failure Signature}
      (reply : Except ClientError (List (Option TransactionStatus)))
      (h : Agree (some (sig₁, sig₂)) (t₁, r₁) (t₂, r₂)) :
      Agree (some (sig₁, sig₂)) (⟨.getSignatureStatuses [sig₁], reply⟩ :: t₁, r₁)
        (⟨.getSignatureStatuses [sig₂], reply⟩ :: t₂, r₂)
  | blockhash {last : Option (Signature × Signature)} {t₁ t₂ : Client.Trace}
      {r₁ r₂ : Except Failure Signature} (reply : Except ClientError Hash)
      (h : Agree last (t₁, r₁) (t₂, r₂)) :
      Agree last (⟨.getLatestBlockhash, reply⟩ :: t₁, r₁) (⟨.getLatestBlockhash, reply⟩ :: t₂, r₂)
  | confirmed {last : Option (Signature × Signature)} {tx₁ tx₂ : Transaction}
      {sig₁ sig₂ : Signature} {t₁ t₂ : Client.Trace} {r₁ r₂ : Except Failure Signature}
      (hsig₁ : tx₁.signatures.head? = some sig₁) (hsig₂ : tx₂.signatures.head? = some sig₂)
      (h : Agree (some (sig₁, sig₂)) (t₁, r₁) (t₂, r₂)) :
      Agree last (⟨.sendAndConfirmTransaction tx₁, .ok sig₁⟩ :: t₁, r₁)
        (⟨.sendAndConfirmTransaction tx₂, .ok sig₂⟩ :: t₂, r₂)
  | failed {last : Option (Signature × Signature)} {tx₁ tx₂ : Transaction}
      {sig₁ sig₂ : Signature} {t₁ t₂ : Client.Trace} {r₁ r₂ : Except Failure Signature}
      (e : ClientError) (hsig₁ : tx₁.signatures.head? = some sig₁)
      (hsig₂ : tx₂.signatures.head? = some sig₂)
      (h : Agree (some (sig₁, sig₂)) (t₁, r₁) (t₂, r₂)) :
      Agree last (⟨.sendAndConfirmTransaction tx₁, .error e⟩ :: t₁, r₁)
        (⟨.sendAndConfirmTransaction tx₂, .error e⟩ :: t₂, r₂)
  | sleep {last : Option (Signature × Signature)} {t₁ t₂ : Client.Trace}
      {r₁ r₂ : Except Failure Signature} (millis : ℕ) (h : Agree last (t₁, r₁) (t₂, r₂)) :
      Agree last (⟨.sleep millis, ()⟩ :: t₁, r₁) (⟨.sleep millis, ()⟩ :: t₂, r₂)
  | returns {sig₁ sig₂ : Signature} :
      Agree (some (sig₁, sig₂)) ([], .ok sig₁) ([], .ok sig₂)
  | fails {last : Option (Signature × Signature)} (e : Error) :
      Agree last ([], .error (.error e)) ([], .error (.error e))

/-- The kinds of calls of the loops. -/
inductive Step where
  | stopCheck
  | statusQuery
  | blockhashFetch
  | broadcast
  | sleep
  | other
deriving DecidableEq

/-- The kind of a call. -/
def Step.ofCall : ClientCall → Step
  | .stopRequested => .stopCheck
  | .getSignatureStatuses _ => .statusQuery
  | .getLatestBlockhash => .blockhashFetch
  | .sendAndConfirmTransaction _ => .broadcast
  | .sleep _ => .sleep
  | _ => .other

/-- The steps of a run. -/
def steps (t : Client.Trace) : List Step := t.map fun e => .ofCall e.call

section Agree

variable {last : Option (Signature × Signature)} {t₁ t₂ : Client.Trace}
  {r₁ r₂ : Except Failure Signature}

theorem Agree.steps_eq {run₁ run₂ : Client.Trace × Except Failure Signature}
    (h : Agree last run₁ run₂) : steps run₁.1 = steps run₂.1 := by
  induction h with
  | stop b h ih => exact congrArg (Step.stopCheck :: ·) ih
  | status reply h ih => exact congrArg (Step.statusQuery :: ·) ih
  | blockhash reply h ih => exact congrArg (Step.blockhashFetch :: ·) ih
  | confirmed hsig₁ hsig₂ h ih => exact congrArg (Step.broadcast :: ·) ih
  | failed e hsig₁ hsig₂ h ih => exact congrArg (Step.broadcast :: ·) ih
  | sleep millis h ih => exact congrArg (Step.sleep :: ·) ih
  | returns => rfl
  | fails e => rfl

/-- Neither of two runs in step has panicked. -/
theorem Agree.noPanic {run₁ run₂ : Client.Trace × Except Failure Signature}
    (h : Agree last run₁ run₂) : NoPanic run₁.2 ∧ NoPanic run₂.2 := by
  induction h with
  | stop b h ih => exact ih
  | status reply h ih => exact ih
  | blockhash reply h ih => exact ih
  | confirmed hsig₁ hsig₂ h ih => exact ih
  | failed e hsig₁ hsig₂ h ih => exact ih
  | sleep millis h ih => exact ih
  | returns => exact ⟨noPanic_ok _, noPanic_ok _⟩
  | fails e => exact ⟨noPanic_error e, noPanic_error e⟩

end Agree

/-! ### The loops -/

/-- Every blockhash gives a transaction with a signature. -/
def Builds (build : Hash → Except Failure Transaction) : Prop :=
  ∀ h, ∃ tx sig, build h = .ok tx ∧ tx.signatures.head? = some sig

section Loop

variable {rpc : Rpc} {build build₁ build₂ : Hash → Except Failure Transaction} {attempt : ℕ}
  {rest : List ℕ} {σ : Schedule} {last : Option (Signature × Signature)}

/-- Two programs go in step when they are played against the schedule. -/
def InStep (last : Option (Signature × Signature)) (σ : Schedule)
    (p₁ p₂ : Prog Client (Except Failure Signature)) : Prop := Agree last (σ.play p₁) (σ.play p₂)

theorem play_call (σ : Schedule) (c : ClientCall)
    (k : c.Reply → Prog Client (Except Failure Signature)) : σ.play (.call c k) =
      (⟨c, σ.reply c⟩ :: ((σ.next c (σ.reply c)).play (k (σ.reply c))).1,
        ((σ.next c (σ.reply c)).play (k (σ.reply c))).2) := rfl

theorem inStep_stop {k₁ k₂ : Bool → Prog Client (Except Failure Signature)}
    (h : ∀ b σ, InStep last σ (k₁ b) (k₂ b)) :
    InStep last σ (.call .stopRequested k₁) (.call .stopRequested k₂) :=
  .stop _ (h _ _)

theorem inStep_status {sig₁ sig₂ : Signature}
    {k₁ k₂ : Except ClientError (List (Option TransactionStatus)) →
      Prog Client (Except Failure Signature)}
    (h : ∀ reply σ, InStep (some (sig₁, sig₂)) σ (k₁ reply) (k₂ reply)) :
    InStep (some (sig₁, sig₂)) σ (.call (.getSignatureStatuses [sig₁]) k₁)
      (.call (.getSignatureStatuses [sig₂]) k₂) :=
  .status _ (h _ _)

theorem inStep_blockhash {k₁ k₂ : Except ClientError Hash → Prog Client (Except Failure Signature)}
    (h : ∀ reply σ, InStep last σ (k₁ reply) (k₂ reply)) :
    InStep last σ (.call .getLatestBlockhash k₁) (.call .getLatestBlockhash k₂) :=
  .blockhash _ (h _ _)

theorem inStep_broadcast {tx₁ tx₂ : Transaction} {sig₁ sig₂ : Signature}
    {k₁ k₂ : Except ClientError Signature → Prog Client (Except Failure Signature)}
    (hsig₁ : tx₁.signatures.head? = some sig₁) (hsig₂ : tx₂.signatures.head? = some sig₂)
    (hok : ∀ σ, InStep (some (sig₁, sig₂)) σ (k₁ (.ok sig₁)) (k₂ (.ok sig₂)))
    (herror : ∀ σ e, InStep (some (sig₁, sig₂)) σ (k₁ (.error e)) (k₂ (.error e))) :
    InStep last σ (.call (.sendAndConfirmTransaction tx₁) k₁)
      (.call (.sendAndConfirmTransaction tx₂) k₂) := by
  rw [InStep, play_call, play_call]
  cases hsend : σ.sends 0 with
  | ok u =>
    have hreply₁ : σ.reply (.sendAndConfirmTransaction tx₁) = .ok sig₁ := by
      simp only [Schedule.reply, hsend, hsig₁]
      rfl
    have hreply₂ : σ.reply (.sendAndConfirmTransaction tx₂) = .ok sig₂ := by
      simp only [Schedule.reply, hsend, hsig₂]
      rfl
    rw [hreply₁, hreply₂]
    exact .confirmed hsig₁ hsig₂ (hok _)
  | error e =>
    have hreply₁ : σ.reply (.sendAndConfirmTransaction tx₁) = .error e := by
      simp only [Schedule.reply, hsend]
      rfl
    have hreply₂ : σ.reply (.sendAndConfirmTransaction tx₂) = .error e := by
      simp only [Schedule.reply, hsend]
      rfl
    rw [hreply₁, hreply₂]
    exact .failed e hsig₁ hsig₂ (herror _ e)

theorem inStep_signAttempt (hb₁ : Builds build₁) (hb₂ : Builds build₂)
    (hrest : attempt ≠ 2 → ∀ σ sig₁ sig₂, InStep (some (sig₁, sig₂)) σ
      (rpc.retryLoop build₁ rest (some sig₁)).run (rpc.retryLoop build₂ rest (some sig₂)).run) :
    InStep last σ (rpc.signAttempt build₁ attempt rest).run
      (rpc.signAttempt build₂ attempt rest).run := by
  refine inStep_blockhash fun reply σ => ?_
  cases reply with
  | error e => exact .fails _
  | ok h =>
    obtain ⟨tx₁, sig₁, hbuild₁, hsig₁⟩ := hb₁ h
    obtain ⟨tx₂, sig₂, hbuild₂, hsig₂⟩ := hb₂ h
    change InStep _ _ (rpc.signOn build₁ attempt rest h).run (rpc.signOn build₂ attempt rest h).run
    rw [rpc.signOn_eq attempt rest hbuild₁ hsig₁, rpc.signOn_eq attempt rest hbuild₂ hsig₂]
    refine inStep_broadcast hsig₁ hsig₂ (fun σ => .returns) fun σ e => ?_
    change InStep _ _ (ExceptT.run (if (!isTransient e || attempt == 2) = true then _ else _))
      (ExceptT.run (if (!isTransient e || attempt == 2) = true then _ else _))
    split
    · exact .fails _
    · rename_i hretry
      simp only [Bool.or_eq_true, Bool.not_eq_true', beq_iff_eq, not_or] at hretry
      exact .sleep 500 (hrest hretry.2 _ sig₁ sig₂)

/-- **Two loops that build and sign go in step.**  The attempts end with the one that gives up. -/
theorem inStep_retryLoop (hb₁ : Builds build₁) (hb₂ : Builds build₂) {attempts : List ℕ}
    (hends : attempts.getLast? = some 2) :
    InStep last σ (rpc.retryLoop build₁ attempts (last.map Prod.fst)).run
      (rpc.retryLoop build₂ attempts (last.map Prod.snd)).run := by
  induction attempts generalizing last σ with
  | nil => cases hends
  | cons attempt rest ih =>
    have hrest : attempt ≠ 2 → ∀ σ sig₁ sig₂, InStep (some (sig₁, sig₂)) σ
        (rpc.retryLoop build₁ rest (some sig₁)).run
        (rpc.retryLoop build₂ rest (some sig₂)).run := by
      intro hne σ sig₁ sig₂
      refine @ih σ (some (sig₁, sig₂)) ?_
      cases rest with
      | nil => exact absurd (Option.some.inj hends) hne
      | cons next rest => rwa [List.getLast?_cons_cons] at hends
    -- the status query, and then signing unless it shows the last transaction
    have hattempt : ∀ σ, InStep last σ
        (ExceptT.run (landedBefore (last.map Prod.fst) >>= rpc.unlessLanded build₁ attempt rest))
        (ExceptT.run (landedBefore (last.map Prod.snd) >>=
          rpc.unlessLanded build₂ attempt rest)) := by
      intro σ
      cases last with
      | none => exact inStep_signAttempt hb₁ hb₂ hrest
      | some sigs =>
        refine inStep_status fun reply σ => ?_
        rcases reply with e | (_ | ⟨_ | status, statuses⟩)
        · exact inStep_signAttempt hb₁ hb₂ hrest
        · exact inStep_signAttempt hb₁ hb₂ hrest
        · exact inStep_signAttempt hb₁ hb₂ hrest
        · exact .returns
    rw [retryLoop_cons, retryLoop_cons]
    simp only [stopped]
    cases rpc.stop with
    | false => exact hattempt σ
    | true =>
      refine inStep_stop fun b σ => ?_
      cases b with
      | false => exact hattempt σ
      | true => exact .fails _

/-- Each attempt broadcasts once at most. -/
theorem broadcasts_retryLoop_le (rpc : Rpc) (build : Hash → Except Failure Transaction)
    (attempts : List ℕ) (lastSig : Option Signature) :
    (rpc.retryLoop build attempts lastSig).Spec fun t _ =>
      Rejection.broadcasts t ≤ attempts.length := by
  induction attempts generalizing lastSig with
  | nil => exact Fallible.spec_throw le_rfl
  | cons attempt rest ih =>
    refine (rpc.retryLoop_runs build attempt rest lastSig).mono fun t r hrun => ?_
    rw [List.length_cons]
    cases hrun with
    | stopped hstop =>
      rw [Rejection.broadcasts_of_quiet (hstop.forall_mem fun _ => id)]
      exact Nat.zero_le _
    | landed hstop hstatus =>
      rw [Rejection.broadcasts_of_quiet (List.forall_mem_append.2
        ⟨hstop.forall_mem fun _ => id, hstatus.forall_mem fun _ _ => id⟩)]
      exact Nat.zero_le _
    | @signs t t' u r hstop hstatus hsign =>
      have hquiet : ∀ e ∈ t ++ t', ¬ Chain.IsBroadcast e := List.forall_mem_append.2
        ⟨hstop.forall_mem fun _ => id, hstatus.forall_mem fun _ _ => id⟩
      -- only signing broadcasts
      have hcount : Rejection.broadcasts (t ++ (t' ++ u)) = Rejection.broadcasts u := by
        rw [← List.append_assoc, Rejection.broadcasts, List.countP_append, ← Rejection.broadcasts,
          ← Rejection.broadcasts, Rejection.broadcasts_of_quiet hquiet, Nat.zero_add]
      rw [hcount]
      cases hsign with
      | noBlockhash | notBuilt | unsigned => exact Nat.zero_le _
      | confirmed | rejected => exact Nat.le_add_left 1 rest.length
      | @retried h tx sig e t r htx hsig htransient hattempt hrest =>
        have hone : Rejection.broadcasts ([⟨.getLatestBlockhash, .ok h⟩] ++
            ⟨.sendAndConfirmTransaction tx, .error e⟩ :: ⟨.sleep 500, ()⟩ :: t) =
              Rejection.broadcasts t + 1 :=
          Rejection.broadcasts_append_cons (List.forall_mem_singleton.2 id)
        rw [List.singleton_append] at hone
        rw [hone]
        exact Nat.succ_le_succ (ih _ _ _ hrest)

end Loop

theorem builds_legacy {sdk : Sdk} {allIxs : List Instruction} {signers : List Pubkey}
    {feePayer : Pubkey} (hsigners : signers ≠ []) :
    Builds (buildLegacy sdk allIxs signers feePayer) := by
  obtain ⟨signer, rest, rfl⟩ := List.exists_cons_of_ne_nil hsigners
  exact fun h => ⟨_, _, rfl, rfl⟩

theorem builds_v0 {sdk : Sdk} {allIxs : List Instruction} {luts : List AddressLookupTableAccount}
    {signers : List Pubkey} {feePayer : Pubkey} (hsigners : signers ≠ [])
    (hcompile : ∀ h, sdk.compileError feePayer allIxs luts h = none)
    (hsign : ∀ h, sdk.signError ⟨.v0, feePayer, allIxs, luts, h⟩ signers = none) :
    Builds (buildV0 sdk allIxs luts signers feePayer) := by
  obtain ⟨signer, rest, rfl⟩ := List.exists_cons_of_ne_nil hsigners
  intro h
  simp only [buildV0, Message.tryCompile, hcompile, Transaction.tryNew, hsign]
  exact ⟨_, _, rfl, rfl⟩

end Rpc

open Rpc in
/-- **The two retry loops agree.**  Against every schedule of replies, a legacy send and a v0 send
that can build and sign go in step: the same steps, the same replies, the same attempt's signature
or the same error.  Neither broadcasts more than three times or panics. -/
theorem RetryCall.loops_agree (rpc : Rpc) (sdk : Sdk) {allIxs₁ allIxs₂ : List Instruction}
    {luts : List AddressLookupTableAccount} {signers₁ signers₂ : List Pubkey}
    {feePayer₁ feePayer₂ : Pubkey} (hsigners₁ : signers₁ ≠ []) (hsigners₂ : signers₂ ≠ [])
    (hcompile : ∀ h, sdk.compileError feePayer₂ allIxs₂ luts h = none)
    (hsign : ∀ h, sdk.signError ⟨.v0, feePayer₂, allIxs₂, luts, h⟩ signers₂ = none)
    (σ : Schedule) :
    let run₁ := σ.play ((RetryCall.legacy allIxs₁ signers₁ feePayer₁).prog rpc sdk).run
    let run₂ := σ.play ((RetryCall.v0 allIxs₂ luts signers₂ feePayer₂).prog rpc sdk).run
    Agree none run₁ run₂ ∧ steps run₁.1 = steps run₂.1 ∧
      (Rejection.broadcasts run₁.1 ≤ 3 ∧ Rejection.broadcasts run₂.1 ≤ 3) ∧
      NoPanic run₁.2 ∧ NoPanic run₂.2 := by
  have hagree : Agree none
      (σ.play ((RetryCall.legacy allIxs₁ signers₁ feePayer₁).prog rpc sdk).run)
      (σ.play ((RetryCall.v0 allIxs₂ luts signers₂ feePayer₂).prog rpc sdk).run) := by
    rw [RetryCall.prog_eq, RetryCall.prog_eq]
    exact inStep_retryLoop (builds_legacy hsigners₁) (builds_v0 hsigners₂ hcompile hsign) rfl
  have hcount : ∀ call : RetryCall,
      Rejection.broadcasts (σ.play (call.prog rpc sdk).run).1 ≤ 3 := by
    intro call
    rw [RetryCall.prog_eq]
    exact broadcasts_retryLoop_le rpc _ _ _ _ _ (σ.runs_play _)
  exact ⟨hagree, hagree.steps_eq, ⟨hcount _, hcount _⟩, hagree.noPanic⟩

/-- A node that answers nothing, with the stop flag never set. -/
def silentSchedule : Rpc.Schedule where
  stops _ := false
  statuses _ := .ok [none]
  blockhashes n := .ok (.fill 32 (UInt8.ofNat n))
  sends _ := .error ⟨.io "timed out", "timed out"⟩

theorem RetryCall.loops_agree_sample :
    Rpc.Agree none
        (silentSchedule.play
          ((RetryCall.legacy [] [.zero 32] (.zero 32)).prog ⟨0, 200000, true⟩ .plain).run)
        (silentSchedule.play
          ((RetryCall.v0 [] [] [.zero 32] (.zero 32)).prog ⟨0, 200000, true⟩ .plain).run) ∧
      Rejection.broadcasts (silentSchedule.play
        ((RetryCall.legacy [] [.zero 32] (.zero 32)).prog ⟨0, 200000, true⟩ .plain).run).1 = 3 := by
  refine ⟨(RetryCall.loops_agree ⟨0, 200000, true⟩ .plain (List.cons_ne_nil _ _)
    (List.cons_ne_nil _ _) (fun _ => rfl) (fun _ => rfl) silentSchedule).1, ?_⟩
  rfl

end YdeltaCrankers
