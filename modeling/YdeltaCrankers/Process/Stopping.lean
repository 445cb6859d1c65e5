import YdeltaCrankers.Interaction.Leave
import YdeltaCrankers.Process.Pacing

/-!
# How the loops stop

A poll that reads the stop flag clear gives a loop leave for one run of its work or for one nap, and
no loop goes on for more than nine calls without such a poll.

**Main theorem** (`Daemon.Run.stops`): once the stop flag is set, a loop runs its work once more at
most, or naps once more, and has returned after at most nine calls.
-/

namespace YdeltaCrankers

open Interaction

namespace Daemon

variable {daemon : Daemon} {interval : ℕ} {s : HostState}

/-- A poll that reads no stop gives leave for one run of the work or one nap. -/
def leave : Host.Event → Leave
  | ⟨.stopRequested, stop⟩ => if stop then .idle else .gives
  | ⟨.run _, _⟩ | ⟨.sleep _, _⟩ => .uses
  | _ => .idle

theorem spends_skipsTick (handler : HandlerKind) : handler.skipsTick.Spends leave 1 0 := by
  unfold HandlerKind.skipsTick
  split
  · exact Fallible.spends_idle_bind (fun _ => rfl) fun _ => Fallible.spends_result
  · exact Fallible.spends_result.mono (Nat.zero_le 1) (Nat.le_refl 0)

theorem spends_outcome (handler : HandlerKind) (skip : Bool) :
    (handler.outcome skip).Spends leave 2 1 := by
  unfold HandlerKind.outcome
  split
  · exact Fallible.spends_result.mono (Nat.zero_le 2) (Nat.zero_le 1)
  refine Fallible.spends_act_bind (fun _ => rfl) fun r => ?_
  rcases r with (e | msg) | u
  · exact Fallible.spends_idle_bind (fun _ => rfl) fun _ => Fallible.spends_result
  · exact Fallible.spends_result.mono (Nat.zero_le 1) (Nat.le_refl 0)
  · exact Fallible.spends_result.mono (Nat.zero_le 1) (Nat.le_refl 0)

theorem spends_deadline : Fallible.Spends leave 1 0 (do
    let now ← Host.query .now
    let deadline ← liftExcept (addInstant now interval)
    return some (Phase.waiting deadline) : Async Host (Option Phase)) := by
  refine Fallible.spends_idle_bind (fun _ => rfl) fun now => ?_
  exact Fallible.Spends.bind Fallible.spends_result fun _ => Fallible.spends_result

/-- The calls of a loop between the poll at its head and its wait. -/
def calls : Daemon → ℕ
  | handler _ => 8
  | _ => 2

theorem spends_superviseOnce (handler : HandlerKind) :
    (handler.superviseOnce interval).Spends leave (1 + 7) (0 + 1) := by
  refine (spends_skipsTick handler).bind fun skip => ?_
  refine Fallible.spends_idle_bind (fun _ => rfl) fun t0 => ?_
  have hrest : ∀ outcome, Fallible.Spends leave 4 0 (do
      let t1 ← Host.query .now
      let () ← Host.query (.increment mTicksTotal
        [("handler", handler.name), ("outcome", outcome)])
      let () ← Host.query (.record mTickDuration [("handler", handler.name)] (t1 - t0))
      let now ← Host.query .now
      let deadline ← liftExcept (addInstant now interval)
      return some (Phase.waiting deadline) : Async Host (Option Phase)) := by
    intro outcome
    refine Fallible.spends_idle_bind (fun _ => rfl) fun t1 => ?_
    refine Fallible.spends_idle_bind (fun _ => rfl) fun _ => ?_
    exact Fallible.spends_idle_bind (fun _ => rfl) fun _ => spends_deadline
  exact (spends_outcome handler skip).bind hrest

theorem spends_once : (daemon.once interval).Spends leave daemon.calls 1 := by
  have hwork : ∀ d : Daemon, d.work.Spends leave 1 1 := by
    intro d
    refine Fallible.spends_act_bind (fun _ => rfl) fun r => ?_
    cases r <;> exact Fallible.spends_result
  cases daemon with
  | handler h => exact spends_superviseOnce h
  | swbCrank =>
    exact ((hwork _).bind fun _ => Fallible.spends_result).mono (Nat.le_succ 1) (Nat.le_refl 1)
  | solBalance | ataBalance | bankRefresh => exact (hwork _).bind fun _ => spends_deadline

/-- How many calls a loop makes in a phase before it has returned, when it reads a stop. -/
def callsToReturn : Daemon → Phase → ℕ
  | handler _, _ => 1
  | _, .waiting _ => 2
  | _, _ => 1

theorem callsToReturn_pos (p : Phase) : 0 < daemon.callsToReturn p := by
  unfold callsToReturn
  split <;> decide

theorem callsToReturn_le (p : Phase) : daemon.callsToReturn p ≤ 2 := by
  unfold callsToReturn
  split <;> decide

theorem calls_add_callsToReturn_le (p : Phase) : daemon.calls + daemon.callsToReturn p ≤ 9 := by
  unfold calls callsToReturn
  split <;> split <;> simp_all

/-- The trace of a loop from one of its phases: it asks leave, and often enough. -/
def Polite (daemon : Daemon) (p : Phase) (t : Host.Trace) : Prop :=
  AsksLeave leave false t ∧ GivenWithin leave 9 (daemon.callsToReturn p) t

theorem polite_nil (p : Phase) : Polite daemon p [] := ⟨trivial, trivial⟩

/-- What is shown of a round. -/
def PoliteRound (daemon : Daemon) (p : Phase) (t : Host.Trace) :
    Except Failure (Option Phase) → Prop
  | .ok (some p') => ∀ t', Polite daemon p' t' → Polite daemon p (t ++ t')
  | _ => Polite daemon p t

/-- A poll that reads a stop. -/
theorem Polite.stopped {p p' : Phase} {t : Host.Trace} (h : Polite daemon p' t)
    (hp : daemon.callsToReturn p' < daemon.callsToReturn p) :
    Polite daemon p ((⟨.stopRequested, true⟩ : Host.Event) :: t) := by
  refine ⟨(AsksLeave.cons_idle rfl).2 h.1, (GivenWithin.cons_of_ne (by nofun)).2 ?_⟩
  exact ⟨daemon.callsToReturn p - 1, by omega, h.2.mono (by omega)⟩

/-- A poll that reads no stop, and what follows on the leave it gives. -/
theorem Polite.polled {p p' : Phase} {u t : Host.Trace} {k : ℕ}
    (hu : (∀ e ∈ u, leave e ≠ .gives) ∧ u.length ≤ k ∧ uses leave u ≤ 1)
    (hk : k + daemon.callsToReturn p' ≤ 9) (h : Polite daemon p' t) :
    Polite daemon p ((⟨.stopRequested, false⟩ : Host.Event) :: (u ++ t)) := by
  obtain ⟨hno, hlen, huses⟩ := hu
  refine ⟨(AsksLeave.cons_gives rfl).2 ?_, (GivenWithin.cons_gives rfl).2 ?_⟩
  · exact AsksLeave.append (AsksLeave.of_uses_le huses) h.1
  · exact (GivenWithin.append hno h.2).mono (by omega)

/-- A poll, and what the loop does when it reads no stop. -/
theorem spec_poll {p : Phase} {onStop : Option Phase} {x : Async Host (Option Phase)} {k : ℕ}
    (hx : x.Spends leave k 1) (hk : ∀ p', k + daemon.callsToReturn p' ≤ 9)
    (hstop : ∀ p', onStop = some p' → daemon.callsToReturn p' < daemon.callsToReturn p) :
    Fallible.Spec (do if ← Host.query .stopRequested then return onStop else x : Async Host _)
      (PoliteRound daemon p) := by
  refine Fallible.spec_query_bind fun stop => ?_
  cases stop with
  | true =>
    refine Fallible.spec_pure ?_
    cases honStop : onStop with
    | none =>
      refine ⟨trivial, (GivenWithin.cons_of_ne (by nofun)).2 ⟨daemon.callsToReturn p - 1, ?_⟩⟩
      exact ⟨by have := daemon.callsToReturn_pos p; omega, trivial⟩
    | some p' => exact fun t' h' => h'.stopped (hstop p' honStop)
  | false =>
    refine Fallible.Spec.mono hx fun u r hu => ?_
    have hend : Polite daemon p ((⟨.stopRequested, false⟩ : Host.Event) :: (u ++ [])) :=
      Polite.polled hu (hk .head) (polite_nil .head)
    rw [List.append_nil] at hend
    rcases r with e | (_ | p')
    · exact hend
    · exact hend
    · exact fun t' h' => Polite.polled hu (hk p') h'

theorem spec_round (p : Phase) : (daemon.round interval p).Spec (PoliteRound daemon p) := by
  cases p with
  | head => exact spec_poll spends_once calls_add_callsToReturn_le (fun _ => nofun)
  | waiting deadline =>
    refine spec_poll (k := 2) ?_ (fun p' => ?_) fun p' hp' => ?_
    · refine Fallible.spends_idle_bind (fun _ => rfl) fun now => ?_
      split
      · exact Fallible.spends_result.mono (Nat.zero_le 1) (Nat.zero_le 1)
      · exact Fallible.spends_act_bind (fun _ => rfl) fun _ => Fallible.spends_result
    · have hle := daemon.callsToReturn_le p'
      omega
    · -- only a loop that goes back to its head has more to do
      unfold onStop at hp'
      split at hp' <;> cases hp'
      cases daemon with
      | handler h => simp at *
      | _ => exact Nat.lt_succ_self 1
  | counting elapsed =>
    change (sleepInSteps interval elapsed).Spec _
    unfold sleepInSteps
    split
    · refine spec_poll (k := 1) ?_ (fun p' => ?_) (fun _ => nofun)
      · exact Fallible.spends_act_bind (fun _ => rfl) fun _ => Fallible.spends_result
      · have hle := daemon.callsToReturn_le p'
        omega
    · refine Fallible.spec_pure fun t' h' => ⟨h'.1, h'.2.mono ?_⟩
      unfold callsToReturn
      split <;> simp_all

/-- A loop asks leave, and often enough. -/
theorem polite_spawn (n : ℕ) : (daemon.spawn interval n).Spec fun t _ => Polite daemon .head t := by
  refine Fallible.spec_rounds (Q := fun p t _ => Polite daemon p t) polite_nil (fun p => ?_) n .head
  refine (spec_round p).mono fun t r h => ?_
  rcases r with e | (_ | p')
  · exact h
  · exact h
  · exact fun t' _ h' => h t' h'

theorem Run.polite (run : Run daemon interval) :
    AsksLeave leave false (run.events.map Prod.snd) ∧
      ∃ m ≤ 9, GivenWithin leave 9 m (run.events.map Prod.snd) := by
  obtain ⟨t, r, hrun⟩ := run.reaches.exists_runs host_reply_nonempty
  have hpolite := polite_spawn run.rounds _ r hrun
  have hle := daemon.callsToReturn_le .head
  exact ⟨hpolite.1.of_append.1, _, by omega, (hpolite.2.of_append (by omega)).1⟩

theorem stopping_of_answer {s' : HostState} {c : HostCall} {r : c.Reply} (h : s.Answer c r s')
    (hs : s.stopping = true) : s'.stopping = true := by
  cases c with
  | stopRequested | now => exact h.2 ▸ hs
  | feePayerLow | record | increment =>
    obtain rfl : s' = _ := h
    exact hs
  | sleep | run => exact h.1.2 hs

/-- Once the stop flag is set, it stays set. -/
theorem Run.stopping {run : Run daemon interval} {T T' : List (HostState × Host.Event)}
    (hT : run.events = T ++ T') (hstop : ∀ x ∈ T'.head?, x.1.stopping = true) :
    ∀ x ∈ T', x.1.stopping = true := by
  cases T' with
  | nil => exact List.forall_mem_nil _
  | cons x T' =>
    have hx : x.1.stopping = true := hstop x rfl
    have htimeline := run.timeline
    rw [hT] at htimeline
    refine List.forall_mem_cons.2 ⟨hx, (htimeline.since rfl (P := fun s => s.stopping = true)
      (fun s₂ ha => stopping_of_answer ha hx) ?_ ?_).1⟩
    · exact fun s s' hs ht => ht.1.2 hs
    · exact fun s e s' hs ha _ => stopping_of_answer ha hs

/-- A loop that has not returned can go on. -/
theorem Run.extend (run : Run daemon interval) {c : HostCall}
    {k : c.Reply → Prog Host (Except Failure (Option Phase))} (hrest : run.rest = .call c k) :
    ∃ (run' : Run daemon interval) (x : HostState × Host.Event),
      run'.events = run.events ++ [x] ∧ x.1 = run.reached := by
  have hanswer : ∃ r s', run.reached.Answer c r s' := by
    cases c with
    | stopRequested | now => exact ⟨_, _, rfl, rfl⟩
    | feePayerLow => exact ⟨false, _, rfl⟩
    | record | increment => exact ⟨(), _, rfl⟩
    | sleep nanos =>
      refine ⟨(), ⟨run.reached.time + nanos, run.reached.stopping, run.reached.ran,
        run.reached.naps + 1⟩, ⟨Nat.le_add_right _ _, fun h => h⟩, Nat.le_refl _, rfl, rfl⟩
    | run d =>
      refine ⟨.ok (), ⟨run.reached.time, run.reached.stopping,
        (run.reached.time, run.reached.time) :: run.reached.ran, 0⟩, ?_, rfl, rfl⟩
      exact ⟨Nat.le_refl _, fun h => h⟩
  obtain ⟨r, s', ha⟩ := hanswer
  refine ⟨⟨run.startTime, run.rounds, run.events ++ [(run.reached, ⟨c, r⟩)], k r, s', ?_, ?_⟩,
    (run.reached, ⟨c, r⟩), rfl, rfl⟩
  · exact Env.timeline_append.2 ⟨_, run.timeline, .refl, s', ha, .refl⟩
  · rw [List.map_append]
    exact run.reaches.snoc hrest

/-- **Once the stop flag is set, a loop runs its work once more at most, or naps once more, and
after at most nine calls it has returned.** -/
theorem Run.stops (run : Run daemon interval) {T T' : List (HostState × Host.Event)}
    (hT : run.events = T ++ T') (hstop : ∀ x ∈ T'.head?, x.1.stopping = true) :
    uses leave (T'.map Prod.snd) ≤ 1 ∧ T'.length ≤ 9 ∧
      (T'.length = 9 → ∃ r, run.rest = .ret r) := by
  have hbound : ∀ (run : Run daemon interval) {T T' : List (HostState × Host.Event)},
      run.events = T ++ T' → (∀ x ∈ T'.head?, x.1.stopping = true) →
      uses leave (T'.map Prod.snd) ≤ 1 ∧ T'.length ≤ 9 := by
    intro run T T' hT hstop
    -- a poll of a flag that is set gives no leave
    have hno : ∀ e ∈ T'.map Prod.snd, leave e ≠ .gives := by
      intro e he
      obtain ⟨⟨s, ⟨c, r⟩⟩, hx, rfl⟩ := List.mem_map.1 he
      have hs : s.stopping = true := run.stopping hT hstop _ hx
      obtain ⟨s₂, ha⟩ := run.timeline.answered (hT ▸ List.mem_append_right T hx)
      cases c with
      | stopRequested =>
        obtain rfl : r = s.stopping := ha.1
        change (if s.stopping then Leave.idle else Leave.gives) ≠ .gives
        rw [hs]
        nofun
      | _ => nofun
    obtain ⟨hasks, m, hm, hgiven⟩ := run.polite
    rw [hT, List.map_append] at hasks hgiven
    refine ⟨hasks.uses_le_one hno, ?_⟩
    simpa using hgiven.length_le_of_append hm hno
  refine ⟨(hbound run hT hstop).1, (hbound run hT hstop).2, fun hlen => ?_⟩
  cases hrest : run.rest with
  | ret r => exact ⟨r, rfl⟩
  | call c k =>
    obtain ⟨run', x, hevents, -⟩ := run.extend hrest
    rw [hT, List.append_assoc] at hevents
    have hlong := (hbound run' hevents ?_).2
    · rw [List.length_append, hlen] at hlong
      exact absurd hlong (by simp)
    · cases T' with
      | nil => cases hlen
      | cons y T' => exact hstop

/-- A promoter that is stopped during its second tick. -/
def Run.sample : Run (.handler .promoter) (5 * second) := .compute _ _ (7 * second) 20

theorem Run.stops_sample : ∃ T T', Run.sample.events = T ++ T' ∧ T'.length = 5 ∧
    uses leave (T'.map Prod.snd) ≤ 1 := by
  refine ⟨Run.sample.events.takeWhile fun x => !x.1.stopping,
    Run.sample.events.dropWhile fun x => !x.1.stopping, List.takeWhile_append_dropWhile.symm,
    by decide +kernel, ?_⟩
  exact (Run.sample.stops List.takeWhile_append_dropWhile.symm (by decide +kernel)).1

end Daemon

end YdeltaCrankers
