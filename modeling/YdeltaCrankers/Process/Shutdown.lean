import YdeltaCrankers.Interaction.Leave
import YdeltaCrankers.Process.Outgoing

/-!
# What is broadcast after a stop

With a stop flag, every attempt of a send starts with a poll of it, so that a poll that reads no
stop gives leave for one broadcast.

**Main result** (`broadcasts_after_stop`): once the stop flag is set, a loop of the process other
than the Switchboard warm-keeper broadcasts one more transaction at most, however many sends it
still goes through, and whatever the other loops do.
-/

namespace YdeltaCrankers

open Interaction

/-! ### A send -/

namespace Rpc

/-- A poll that reads no stop gives leave for one broadcast. -/
def leave : Client.Event → Leave
  | ⟨.stopRequested, stop⟩ => if stop then .idle else .gives
  | ⟨.sendAndConfirmTransaction _, _⟩ => .uses
  | _ => .idle

variable {rpc : Rpc} {sdk : Sdk} {build : Hash → Except Failure Transaction}

theorem StatusRun.idle {last : Option Signature} {t : Client.Trace}
    {r : Except Failure (Option Signature)} (h : StatusRun last t r) :
    ∀ e ∈ t, leave e = .idle :=
  h.forall_mem fun _ _ => rfl

/-- An attempt that holds a leave uses it for its broadcast. -/
theorem SignRun.asksLeave {attempt : ℕ} {rest : List ℕ} {t : Client.Trace}
    {r : Except Failure Signature} (h : SignRun rpc build attempt rest t r)
    (hrest : ∀ last, (rpc.retryLoop build rest last).Spec fun t _ => AsksLeave leave false t) :
    AsksLeave leave true t := by
  cases h with
  | noBlockhash | notBuilt | unsigned => exact trivial
  | confirmed | rejected =>
    exact (AsksLeave.cons_idle rfl).2 ((AsksLeave.cons_uses rfl).2 ⟨rfl, trivial⟩)
  | retried hbuild hsig htransient hattempt hruns =>
    have hsleep : AsksLeave leave false (⟨.sleep 500, ()⟩ :: _) :=
      (AsksLeave.cons_idle rfl).2 (hrest _ _ _ hruns)
    exact (AsksLeave.cons_idle rfl).2 ((AsksLeave.cons_uses rfl).2 ⟨rfl, hsleep⟩)

/-- With a stop flag, each attempt asks leave for its broadcast. -/
theorem retryLoop_asksLeave (hstop : rpc.stop = true) (attempts : List ℕ)
    (last : Option Signature) :
    (rpc.retryLoop build attempts last).Spec fun t _ => AsksLeave leave false t := by
  induction attempts generalizing last with
  | nil => exact Fallible.spec_throw trivial
  | cons attempt rest ih =>
    rw [retryLoop_cons]
    unfold stopped
    rw [if_pos hstop]
    refine Fallible.spec_query_bind fun stop => ?_
    cases stop with
    | true => exact Fallible.spec_throw ((AsksLeave.cons_idle rfl).2 trivial)
    | false =>
      refine Fallible.spec_bind (landedBefore_runs last) (fun t e h => nomatch h)
        fun t landed hstatus => ?_
      cases landed with
      | some prev =>
        refine Fallible.spec_pure ?_
        rw [List.append_nil]
        exact (AsksLeave.cons_gives rfl).2 (.of_idle hstatus.idle)
      | none =>
        refine (rpc.signAttempt_runs build attempt rest).mono fun u r hsign => ?_
        exact (AsksLeave.cons_gives rfl).2 (.idle_append hstatus.idle (hsign.asksLeave ih))

theorem sendSignedLabeled_asksLeave (hstop : rpc.stop = true) (ixLabel : String)
    (ixs : List Instruction) (signers : List Pubkey) :
    (rpc.sendSignedLabeled sdk ixLabel ixs signers).Spec fun t _ => AsksLeave leave false t := by
  unfold sendSignedLabeled
  split
  · exact Fallible.spec_throw trivial
  · rw [sendWithRetry_eq]
    exact retryLoop_asksLeave hstop _ _

theorem sendSignedV0Labeled_asksLeave (hstop : rpc.stop = true) (ixLabel : String)
    (ixs : List Instruction) (luts : List AddressLookupTableAccount) (signers : List Pubkey) :
    (rpc.sendSignedV0Labeled sdk ixLabel ixs luts signers).Spec fun t _ =>
      AsksLeave leave false t := by
  unfold sendSignedV0Labeled
  split
  · exact Fallible.spec_throw trivial
  · rw [sendV0WithRetry_eq]
    exact retryLoop_asksLeave hstop _ _

theorem asksLeave_of_broadcastsOnly {t : Client.Trace}
    (h : ∀ e ∈ t, BroadcastsOnly (fun _ => False) e.call) : AsksLeave leave false t := by
  refine AsksLeave.of_ne_uses fun e he huses => ?_
  have hcall := h e he
  obtain ⟨c, r⟩ := e
  cases c with
  | sendAndConfirmTransaction tx => exact hcall
  | stopRequested => cases r <;> cases huses
  | _ => cases huses

end Rpc

/-- With a stop flag, a method asks leave for each of its broadcasts. -/
theorem RpcCall.asksLeave {rpc : Rpc} (hstop : rpc.stop = true) (sdk : Sdk) (c : RpcCall) :
    (c.prog rpc sdk).Spec fun t _ => AsksLeave Rpc.leave false t := by
  cases c with
  | getAccountData pk =>
    exact Fallible.Spec.mono (Rpc.getAccountData_makes pk) fun _ _ =>
      Rpc.asksLeave_of_broadcastsOnly
  | simulate ixs feePayer =>
    exact Fallible.Spec.mono Rpc.simulateV0_makes fun _ _ => Rpc.asksLeave_of_broadcastsOnly
  | simulateV0 ixs luts feePayer =>
    exact Fallible.Spec.mono Rpc.simulateV0_makes fun _ _ => Rpc.asksLeave_of_broadcastsOnly
  | sendSignedLabeled ixLabel ixs signers =>
    exact Rpc.sendSignedLabeled_asksLeave hstop ixLabel ixs signers
  | sendSignedV0Labeled ixLabel ixs luts signers =>
    exact Rpc.sendSignedV0Labeled_asksLeave hstop ixLabel ixs luts signers

/-! ### A loop -/

namespace Service

/-- The same, of the calls of a loop. -/
def leave : Service.Event → Leave
  | ⟨.client c, r⟩ => Rpc.leave ⟨c, r⟩
  | _ => .idle

/-- The call does not broadcast by itself. -/
def NotBroadcast (c : ServiceCall) : Prop := ∀ tx, c ≠ .client (.sendAndConfirmTransaction tx)

theorem implement_asksLeave {rpc : Rpc} (hstop : rpc.stop = true) {sdk : Sdk} {c : ServiceCall}
    (hc : NotBroadcast c) {t : Service.Trace} {r : c.Reply} (h : (implement rpc sdk c).Runs t r) :
    AsksLeave leave false t := by
  cases c with
  | rpc c =>
    obtain ⟨u, hu, rfl⟩ := runs_implement_rpc h
    exact AsksLeave.map (fun _ => rfl) (c.asksLeave hstop sdk u r hu)
  | client c =>
    obtain ⟨_, _, rfl, rfl, rfl⟩ := h
    refine AsksLeave.of_ne_uses (List.forall_mem_singleton.2 fun huses => ?_)
    cases c with
    | sendAndConfirmTransaction tx => exact hc tx rfl
    | stopRequested => cases r <;> cases huses
    | _ => cases huses
  | process c =>
    obtain ⟨_, _, rfl, rfl, rfl⟩ := h
    exact AsksLeave.of_idle (List.forall_mem_singleton.2 rfl)

end Service

section Loops

variable {ctx : HandlerContext} {rpc : Rpc} {sdk : Sdk}

theorem notBroadcast_of_not_sends {c : ServiceCall} (h : ¬ c.Sends) : Service.NotBroadcast c := by
  rintro tx rfl
  exact h rfl

/-- Only the warm-keeper broadcasts without the retry loop. -/
theorem Task.notBroadcast {task : Task} (h : task ≠ .swbCrank) :
    (task.run ctx).Makes Service.NotBroadcast := by
  refine task.obeys.mono fun t _ ht e he => ?_
  obtain ⟨t₁, t₂, hsplit⟩ := List.append_of_mem he
  have hmay := ht t₁ e t₂ hsplit
  cases task with
  | supervise handler =>
    intro tx htx
    have hconducted := hmay.conducted
    rw [htx] at hconducted
    exact hconducted
  | solBalance | bankRefresh | listMarkets => exact notBroadcast_of_not_sends hmay
  | swbCrank => exact absurd rfl h

theorem runTasks_notBroadcast {tasks : List Task} (h : .swbCrank ∉ tasks) :
    (runTasks ctx tasks).Makes Service.NotBroadcast := by
  induction tasks with
  | nil => exact Fallible.makes_pure _
  | cons task tasks ih =>
    obtain ⟨htask, htasks⟩ := not_or.1 (mt List.mem_cons.2 h)
    exact (Task.notBroadcast (Ne.symm htask)).bind fun _ => ih htasks

/-- A loop with its sends played out asks leave for each broadcast. -/
theorem runTasks_asksLeave (hstop : rpc.stop = true) {tasks : List Task} (h : .swbCrank ∉ tasks) :
    ((runTasks ctx tasks).run.interp (Service.implement rpc sdk)).Spec fun t _ =>
      AsksLeave Service.leave false t := by
  intro t r hr
  obtain ⟨u, hu, himp⟩ := Prog.runs_interp.1 hr
  exact AsksLeave.of_implements himp fun e he s hs =>
    Service.implement_asksLeave hstop (runTasks_notBroadcast h u r hu e he) hs

end Loops

/-! ### The process -/

section Process

variable {σ : Type}

/-- The stop flag in an environment: where it is `stopping` it stays so, and a poll reads it. -/
structure StopFlag (E : Env Service σ) (stopping : σ → Prop) : Prop where
  tick : ∀ {s s'}, stopping s → E.tick s s' → stopping s'
  answer : ∀ {s c r s'}, stopping s → E.answer s c r s' → stopping s'
  polled : ∀ {s stop s'}, stopping s → E.answer s (.client .stopRequested) stop s' → stop = true

/-- The event is a broadcast. -/
def Service.isBroadcast : Service.Event → Bool
  | ⟨.client (.sendAndConfirmTransaction _), _⟩ => true
  | _ => false

/-- The number of broadcasts. -/
def broadcasts (t : Service.Trace) : ℕ := t.countP Service.isBroadcast

theorem uses_leave (t : Service.Trace) : uses Service.leave t = broadcasts t := by
  refine List.countP_congr fun e _ => ?_
  rw [decide_eq_true_iff]
  obtain ⟨c, r⟩ := e
  cases c with
  | client c =>
    cases c with
    | stopRequested => cases r <;> decide
    | sendAndConfirmTransaction tx => exact ⟨fun _ => rfl, fun _ => rfl⟩
    | _ => exact ⟨nofun, nofun⟩
  | _ => exact ⟨nofun, nofun⟩

variable {E : Env Service σ} {stopping : σ → Prop} {ctx : HandlerContext} {rpc : Rpc} {sdk : Sdk}
  {loops : ℕ → List Task} {rest : ℕ → Prog Service (Except Failure Unit)} {s s' : σ}
  {T₁ T₂ : List (ℕ × σ × Service.Event)}

/-- After the stop flag is set, no poll gives leave. -/
theorem StopFlag.not_gives (hE : StopFlag E stopping) {T : List (σ × Service.Event)}
    (h : E.Timeline s T s') (hs : ∀ x ∈ T.head?, stopping x.1) :
    ∀ x ∈ T, Service.leave x.2 ≠ .gives := by
  have hstopping : ∀ x ∈ T, stopping x.1 := by
    cases T with
    | nil => exact List.forall_mem_nil _
    | cons x T =>
      obtain ⟨-, s₂, ha, hT⟩ := h
      have hx : stopping x.1 := hs x rfl
      exact List.forall_mem_cons.2 ⟨hx, hT.invariant_mem (hE.answer hx ha)
        (fun _ _ hP ht => hE.tick hP ht) fun _ _ _ hP ha _ => hE.answer hP ha⟩
  intro x hx hgives
  obtain ⟨s₂, ha⟩ := h.answered hx
  have hx := hstopping x hx
  obtain ⟨s₁, c, r⟩ := x
  cases c with
  | client c =>
    cases c with
    | stopRequested =>
      obtain rfl : r = true := hE.polled hx ha
      cases hgives
    | _ => cases hgives
  | _ => cases hgives

/-- **After the stop flag is set, a loop broadcasts one more transaction at most.** -/
theorem broadcasts_after_stop (hE : StopFlag E stopping) (hstop : rpc.stop = true)
    (h : E.Interleaving (fun i => (runTasks ctx (loops i)).run.interp (Service.implement rpc sdk))
      s (T₁ ++ T₂) rest s') (hs : ∀ x ∈ T₂.head?, stopping x.2.1) {i : ℕ}
    (hi : .swbCrank ∉ loops i) : broadcasts (Env.eventsOf i T₂) ≤ 1 := by
  have hasks := AsksLeave.of_reaches service_reply_nonempty (runTasks_asksLeave hstop hi)
    (h.reaches i)
  rw [Env.eventsOf_append] at hasks
  rw [← uses_leave]
  refine hasks.uses_le_one fun e he => ?_
  obtain ⟨s₁, hmem⟩ := Env.mem_eventsOf.1 he
  have htimeline := h.timeline
  rw [List.map_append] at htimeline
  obtain ⟨s₂, -, hT₂⟩ := Env.timeline_append.1 htimeline
  refine hE.not_gives hT₂ ?_ (s₁, e) (List.mem_map_of_mem hmem)
  intro x hx
  rw [List.head?_map] at hx
  obtain ⟨y, hy, rfl⟩ := Option.map_eq_some_iff.1 hx
  exact hs y hy

end Process

/-! ### A stop between the poll and the broadcast -/

/-- The stop flag is set after fourteen calls; the chain has one market with one loan. -/
def stoppedReply (n : ℕ) : (c : ServiceCall) → c.Reply
  | .client .stopRequested => decide (14 ≤ n)
  | .client (.getProgramAccounts _ filters) =>
    .ok (if filters.length = 1 then [sampleMarketRow 31 1 2 11 12]
      else [sampleLoanRow 31 1 1000 1000])
  | c => sampleReply [] sampleBanks c

/-- The environment with these replies, which counts calls. -/
def stoppedEnv : Env Service ℕ where
  tick _ _ := False
  answer n c r n' := r = stoppedReply n c ∧ n' = n + 1

theorem stoppedEnv_stopFlag : StopFlag stoppedEnv fun n => 14 ≤ n where
  tick _ h := h.elim
  answer h ha := by
    obtain ⟨-, rfl⟩ := ha
    exact Nat.le_succ_of_le h
  polled h ha := by
    obtain ⟨rfl, -⟩ := ha
    exact decide_eq_true h

/-- Two iterations of the liquidator, with its sends played out. -/
def stoppedLoop : Prog Service (Except Failure Unit) :=
  (runTasks sampleHandlerContext [.supervise .liquidator, .supervise .liquidator]).run.interp
    (Service.implement { sampleRpc with stop := true } .plain)

/-- What the loop does. -/
def stoppedEvents : List (ℕ × ℕ × Service.Event) :=
  (Env.exec stoppedReply (fun n _ _ => n + 1) stoppedLoop 0).1.map fun x => (0, x)

/-- The first iteration broadcasts after the stop flag is set, and the second does not. -/
theorem broadcasts_after_stop_sample :
    broadcasts (Env.eventsOf 0 (stoppedEvents.drop 14)) = 1 ∧
      broadcasts (Env.eventsOf 0 (stoppedEvents.drop 14)) ≤ 1 := by
  refine ⟨by decide +kernel, ?_⟩
  have hexec : ∀ n c, stoppedEnv.answer n c (stoppedReply n c) (n + 1) := fun n c => ⟨rfl, rfl⟩
  have htimeline : stoppedEnv.Timeline 0
      (Env.exec stoppedReply (fun n _ _ => n + 1) stoppedLoop 0).1 _ :=
    Env.timeline_exec hexec stoppedLoop 0
  -- only the first of the loops runs
  have hinterleaving : stoppedEnv.Interleaving (fun _ => stoppedLoop) 0 stoppedEvents _ _ :=
    Env.interleaving_of_timeline 0 htimeline (Env.runs_exec stoppedLoop 0).reaches
  rw [← List.take_append_drop 14 stoppedEvents] at hinterleaving
  exact broadcasts_after_stop (i := 0) stoppedEnv_stopFlag rfl hinterleaving (by decide +kernel)
    (by decide)

end YdeltaCrankers
