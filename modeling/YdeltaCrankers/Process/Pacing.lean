import YdeltaCrankers.Process.Daemons

/-!
# How the loops keep time

`HostState.env` is the process around a loop: a clock that does not go back, a stop flag that is
never cleared, and a nap that lasts at least as long as it was asked to.  `Daemon.Run` is a run of a
loop there, as far as it has got.

* `Daemon.Run.runs_spaced` : between two runs of its work, a loop lets its interval pass; so in a
  window of length `w` at most `w / interval + 1` of them start; and in each of its waits, one after
  every iteration, it naps only as often as the interval takes.

This follows from one promise, `Daemon.Punctual`: the work is run only when the interval has passed,
and naps are taken only before that.
-/

namespace YdeltaCrankers

open Interaction

/-- The process around a loop, and what the loop did so far. -/
structure HostState where
  /-- The clock. -/
  time : ℕ
  /-- The stop flag. -/
  stopping : Bool
  /-- History: when each run of the work started and ended, the last one first. -/
  ran : List (ℕ × ℕ)
  /-- History: the naps of the wait it is in.  An iteration ends with a run of the work, or with a
  counter where a supervisor has left the work out. -/
  naps : ℕ

namespace HostState

/-- Time passes from the first state to the second. -/
def Before (s s' : HostState) : Prop := s.time ≤ s'.time ∧ (s.stopping = true → s'.stopping = true)

/-- Time passes, and the stop flag may be set. -/
def Tick (s s' : HostState) : Prop := s.Before s' ∧ s'.ran = s.ran ∧ s'.naps = s.naps

/-- The replies of the process. -/
def Answer (s : HostState) : (c : HostCall) → c.Reply → HostState → Prop
  | .stopRequested, r, s' => r = s.stopping ∧ s' = s
  | .now, r, s' => r = s.time ∧ s' = s
  | .sleep nanos, _, s' =>
    s.Before s' ∧ s.time + nanos ≤ s'.time ∧ s'.ran = s.ran ∧ s'.naps = s.naps + 1
  | .run _, _, s' => s.Before s' ∧ s'.ran = (s.time, s'.time) :: s.ran ∧ s'.naps = 0
  | .increment _ _, _, s' => s' = { s with naps := 0 }
  | .feePayerLow, _, s' | .record _ _ _, _, s' => s' = s

/-- The process around a loop. -/
def env : Env Host HostState := ⟨Tick, fun s c r s' => s.Answer c r s'⟩

/-- The loop starts. -/
def start (time : ℕ) : HostState := ⟨time, false, [], 0⟩

end HostState

namespace HostState

variable {s s' s'' : HostState}

theorem Before.trans (h : s.Before s') (h' : s'.Before s'') : s.Before s'' :=
  ⟨h.1.trans h'.1, fun hs => h'.2 (h.2 hs)⟩

theorem tick_of_ticks (h : env.Ticks s s') : s.Tick s' := by
  induction h with
  | refl => exact ⟨⟨Nat.le_refl _, fun h => h⟩, rfl, rfl⟩
  | tail _ ht ih =>
    obtain ⟨hbefore, hran, hnaps⟩ := ht
    exact ⟨ih.1.trans hbefore, hran.trans ih.2.1, hnaps.trans ih.2.2⟩

/-- The last run is over. -/
def Past (s : HostState) : Prop := ∀ last ∈ s.ran.head?, last.2 ≤ s.time

/-- The interval has passed since the last run. -/
def Ready (interval : ℕ) (s : HostState) : Prop := ∀ last ∈ s.ran.head?, last.2 + interval ≤ s.time

theorem Past.tick (h : s.Past) (ht : s.Tick s') : s'.Past := by
  intro last hlast
  rw [ht.2.1] at hlast
  exact (h last hlast).trans ht.1.1

theorem Ready.tick {interval : ℕ} (h : s.Ready interval) (ht : s.Tick s') : s'.Ready interval := by
  intro last hlast
  rw [ht.2.1] at hlast
  exact (h last hlast).trans ht.1.1

theorem Ready.past {interval : ℕ} (h : s.Ready interval) : s.Past :=
  fun last hlast => (Nat.le_add_right last.2 interval).trans (h last hlast)

/-- After a run. -/
theorem past_of_run {daemon : Daemon} {r : Except Failure Unit} (h : s.Answer (.run daemon) r s') :
    s'.Past := by
  intro last hlast
  rw [h.2.1, List.head?_cons] at hlast
  cases hlast
  exact Nat.le_refl _

end HostState

namespace Daemon

/-! ### Keeping time -/

/-- The longest nap of a loop. -/
def nap : Daemon → ℕ
  | swbCrank => second / 2
  | _ => second

variable {daemon : Daemon} {interval : ℕ} {s : HostState}

/-- The loop runs its work when the interval has passed, and naps only before that. -/
def Punctual (daemon : Daemon) (interval : ℕ) (s : HostState) : HostCall → Prop
  | .run d => d = daemon ∧ s.Ready interval
  | .sleep nanos => nanos ≤ daemon.nap ∧ s.naps * daemon.nap < interval
  | _ => True

/-- What holds between two rounds. -/
def Between (daemon : Daemon) (interval : ℕ) : Phase → HostState → Prop
  | .head, s => s.stopping = false → s.Ready interval
  | .waiting deadline, s => daemon.nap = second ∧
    (∀ last ∈ s.ran.head?, last.2 + interval ≤ deadline) ∧
      (deadline ≤ s.time ∨ s.naps * second + deadline ≤ s.time + interval)
  | .counting elapsed, s => daemon.nap = second / 2 ∧
    (∀ last ∈ s.ran.head?, last.2 + elapsed ≤ s.time) ∧ s.naps * (second / 2) = elapsed

/-- The promise of a part of the loop. -/
abbrev Keeps {α : Type} (daemon : Daemon) (interval : ℕ) (Q : α → HostState → Prop)
    (x : Async Host α) (s : HostState) : Prop :=
  HostState.env.Ensures (fun _ _ => True) (Punctual daemon interval) Q x s

theorem keeps_query {c : HostCall} {Q : c.Reply → HostState → Prop}
    (h : ∀ s₁, s.Tick s₁ → Punctual daemon interval s₁ c ∧ ∀ r s₂, s₁.Answer c r s₂ →
      ∀ s₃, s₂.Tick s₃ → Q r s₃) : Keeps daemon interval Q (Host.query c) s := by
  refine Env.ensures_query fun s₁ hs => ?_
  obtain ⟨hG, hQ⟩ := h s₁ (HostState.tick_of_ticks hs)
  exact ⟨hG, fun r s₂ ha _ s₃ hs₃ => hQ r s₂ ha s₃ (HostState.tick_of_ticks hs₃)⟩

/-- A call that neither runs nor naps. -/
theorem keeps_idle {c : HostCall} {P : HostState → Prop} (hs : P s)
    (htick : ∀ s s', P s → s.Tick s' → P s') (hG : ∀ s, Punctual daemon interval s c)
    (hanswer : ∀ s r s', P s → s.Answer c r s' → P s') :
    Keeps daemon interval (fun _ => P) (Host.query c) s :=
  keeps_query fun s₁ h₁ => ⟨hG s₁, fun r s₂ ha s₃ h₃ =>
    htick s₂ s₃ (hanswer s₁ r s₂ (htick s s₁ hs h₁) ha) h₃⟩

theorem keeps_pure {α : Type} {Q : α → HostState → Prop} {a : α} (h : ∀ s', s.Tick s' → Q a s') :
    Keeps daemon interval Q (pure a) s :=
  Env.ensures_pure fun s' hs => h s' (HostState.tick_of_ticks hs)

/-- The end of a round: the deadline is an interval away. -/
theorem keeps_deadline (hnap : daemon.nap = second) (hs : s.Past) (hnaps : s.naps = 0) :
    Keeps daemon interval (fun o s' => ∀ p, o = some p → Between daemon interval p s') (do
      let now ← Host.query .now
      let deadline ← liftExcept (addInstant now interval)
      return some (.waiting deadline)) s := by
  refine Env.Ensures.bind (Q := fun now s' => now ≤ s'.time ∧ s'.naps = 0 ∧
    ∀ last ∈ s'.ran.head?, last.2 ≤ now) (keeps_query fun s₁ h₁ => ⟨trivial, ?_⟩) ?_
  · rintro r s₂ ⟨rfl, rfl⟩ s₃ h₃
    refine ⟨h₃.1.1, by rw [h₃.2.2, h₁.2.2, hnaps], fun last hlast => ?_⟩
    rw [h₃.2.1] at hlast
    exact hs.tick h₁ last hlast
  · rintro now s₁ ⟨hnow, hnaps₁, hlast⟩
    unfold addInstant
    split
    · refine keeps_pure fun s₂ h₂ p hp => ?_
      cases hp
      refine ⟨hnap, fun last hl => ?_, .inr ?_⟩
      · rw [h₂.2.1] at hl
        exact Nat.add_le_add_right (hlast last hl) interval
      · rw [h₂.2.2, hnaps₁, Nat.zero_mul, Nat.zero_add]
        exact Nat.add_le_add_right (hnow.trans h₂.1.1) interval
    · exact Env.ensures_throw _

/-- The work leaves a loop that has just run it. -/
theorem keeps_work (hs : s.Ready interval) :
    Keeps daemon interval (fun _ s' => s'.Past ∧ s'.naps = 0) daemon.work s := by
  refine Env.Ensures.bind (Q := fun _ s' => s'.Past ∧ s'.naps = 0)
    (keeps_query fun s₁ h₁ => ⟨⟨rfl, hs.tick h₁⟩, fun r s₂ ha s₃ h₃ => ?_⟩) fun r s₁ h₁ => ?_
  · exact ⟨(HostState.past_of_run ha).tick h₃, h₃.2.2.trans ha.2.2⟩
  · cases r with
    | error e => exact Env.ensures_throw _
    | ok u => exact keeps_pure fun s₂ h₂ => ⟨h₁.1.tick h₂, h₂.2.2.trans h₁.2⟩

/-- A supervisor runs its handler when the interval has passed. -/
theorem keeps_tickOutcome {handler : HandlerKind} (hs : s.Ready interval) :
    Keeps (.handler handler) interval (fun _ s' => s'.Past) handler.tickOutcome s := by
  refine Env.Ensures.bind (Q := fun _ s' => s'.Past)
    (keeps_query fun s₁ h₁ => ⟨⟨rfl, hs.tick h₁⟩, fun r s₂ ha s₃ h₃ => ?_⟩) fun r s₁ h₁ => ?_
  · exact (HostState.past_of_run ha).tick h₃
  · rcases r with (e | msg) | u
    · refine Env.Ensures.bind (keeps_idle (P := HostState.Past) h₁ (fun _ _ h ht => h.tick ht)
        (fun _ => trivial) ?_) fun _ s₂ h₂ => keeps_pure fun s₃ h₃ => h₂.tick h₃
      rintro s r s' h rfl
      exact h
    · exact Env.ensures_throw _
    · exact keeps_pure fun s₂ h₂ => h₁.tick h₂

theorem keeps_superviseOnce {handler : HandlerKind} (hs : s.Ready interval) :
    Keeps (.handler handler) interval
      (fun o s' => ∀ p, o = some p → Between (.handler handler) interval p s')
      (handler.superviseOnce interval) s := by
  have hready : ∀ s s' : HostState, s.Ready interval → s.Tick s' → s'.Ready interval :=
    fun _ _ h ht => h.tick ht
  have hpast : ∀ s s' : HostState, s.Past → s.Tick s' → s'.Past := fun _ _ h ht => h.tick ht
  have hskip : Keeps (.handler handler) interval (fun _ s' => s'.Ready interval)
      handler.skipsTick s := by
    unfold HandlerKind.skipsTick
    split
    · refine keeps_idle hs hready (fun _ => trivial) ?_
      rintro s r s' h rfl
      exact h
    · exact keeps_pure fun s' h' => hs.tick h'
  refine hskip.bind fun skip s₁ h₁ => ?_
  refine Env.Ensures.bind (keeps_idle h₁ hready (fun _ => trivial) ?_) fun t0 s₂ h₂ => ?_
  · rintro s r s' h ⟨-, rfl⟩
    exact h
  have houtcome : Keeps (.handler handler) interval (fun _ s' => s'.Past)
      (handler.outcome skip) s₂ := by
    unfold HandlerKind.outcome
    split
    · exact keeps_pure fun s' h' => h₂.past.tick h'
    · exact keeps_tickOutcome h₂
  refine houtcome.bind fun outcome s₃ h₃ => ?_
  refine Env.Ensures.bind (keeps_idle h₃ hpast (fun _ => trivial) ?_) fun t1 s₄ h₄ => ?_
  · rintro s r s' h ⟨-, rfl⟩
    exact h
  -- the metric marks the end of the iteration
  refine Env.Ensures.bind (Q := fun _ s' => s'.Past ∧ s'.naps = 0)
    (keeps_query fun s₅ h₅ => ⟨trivial, ?_⟩) fun _ s₆ h₆ => ?_
  · intro r s₆ ha s₇ h₇
    rw [ha] at h₇
    refine ⟨fun last hlast => ?_, h₇.2.2⟩
    rw [h₇.2.1] at hlast
    exact ((h₄.tick h₅) last hlast).trans h₇.1.1
  refine Env.Ensures.bind (keeps_idle (P := fun s => s.Past ∧ s.naps = 0) h₆
    (fun _ _ h ht => ⟨h.1.tick ht, ht.2.2.trans h.2⟩) (fun _ => trivial) ?_) fun _ s₇ h₇ => ?_
  · rintro s r s' h rfl
    exact h
  exact keeps_deadline rfl h₇.1 h₇.2

theorem keeps_once (hs : s.Ready interval) :
    Keeps daemon interval (fun o s' => ∀ p, o = some p → Between daemon interval p s')
      (daemon.once interval) s := by
  cases daemon with
  | handler h => exact keeps_superviseOnce hs
  | swbCrank =>
    refine (keeps_work hs).bind fun _ s₁ h₁ => keeps_pure fun s₂ h₂ p hp => ?_
    cases hp
    refine ⟨rfl, fun last hlast => (h₁.1.tick h₂) last hlast, ?_⟩
    rw [h₂.2.2, h₁.2, Nat.zero_mul]
  | solBalance | ataBalance | bankRefresh =>
    exact (keeps_work hs).bind fun _ s₁ h₁ => keeps_deadline rfl h₁.1 h₁.2

theorem Between.tick {p : Phase} {s' : HostState} (h : Between daemon interval p s)
    (ht : s.Tick s') : Between daemon interval p s' := by
  cases p with
  | head =>
    intro hrunning
    refine (h ?_).tick ht
    by_contra hstop
    rw [Bool.not_eq_false] at hstop
    rw [ht.1.2 hstop] at hrunning
    cases hrunning
  | waiting deadline =>
    obtain ⟨hnap, hlast, hnaps⟩ := h
    refine ⟨hnap, by rwa [ht.2.1], ?_⟩
    rw [ht.2.2]
    exact hnaps.imp (fun h => h.trans ht.1.1) fun h =>
      h.trans (Nat.add_le_add_right ht.1.1 interval)
  | counting elapsed =>
    obtain ⟨hnap, hlast, hnaps⟩ := h
    rw [Between, ht.2.1, ht.2.2]
    exact ⟨hnap, fun last hl => (hlast last hl).trans ht.1.1, hnaps⟩

/-- A poll of the stop flag, between two rounds. -/
theorem keeps_poll {p : Phase} (hs : Between daemon interval p s) :
    Keeps daemon interval
      (fun stop s' => Between daemon interval p s' ∧ (stop = true → s'.stopping = true) ∧
        (p = .head → stop = false → s'.Ready interval))
      (Host.query .stopRequested) s := by
  refine keeps_query fun s₁ h₁ => ⟨trivial, fun stop s₂ ha s₃ h₃ => ?_⟩
  obtain ⟨hstop, hs₂⟩ := ha
  rw [hs₂] at h₃
  refine ⟨(hs.tick h₁).tick h₃, fun h => h₃.1.2 (hstop ▸ h), fun hp h => ?_⟩
  subst hp
  exact (hs.tick h₁ (hstop ▸ h)).tick h₃

/-- A nap of the wait on the clock. -/
theorem keeps_nap {deadline now : ℕ} (hs : Between daemon interval (.waiting deadline) s)
    (hnow : now ≤ s.time) (hlt : now < deadline)
    (hleft : s.naps * second + deadline ≤ now + interval) :
    Keeps daemon interval (fun _ s' => Between daemon interval (.waiting deadline) s')
      (Host.query (.sleep (min (deadline - now) second))) s := by
  obtain ⟨hnap, hlast, -⟩ := hs
  refine keeps_query fun s₁ h₁ => ⟨⟨?_, ?_⟩, fun _ s₂ ha s₃ h₃ => ?_⟩
  · rw [hnap]
    exact min_le_right _ _
  · rw [hnap, h₁.2.2]
    omega
  · obtain ⟨hbefore, hslept, hran, hnaps⟩ := ha
    refine Between.tick ⟨hnap, by rwa [hran, h₁.2.1], ?_⟩ h₃
    rw [hnaps, h₁.2.2, Nat.succ_mul]
    -- a whole nap is paid for by the clock, a shorter one reaches the deadline
    have hnow₁ := hnow.trans h₁.1.1
    by_cases hshort : deadline - now ≤ second
    · rw [min_eq_left hshort] at hslept
      exact .inl (by omega)
    · rw [min_eq_right (Nat.le_of_not_le hshort)] at hslept
      exact .inr (by omega)

/-- The wait on the clock. -/
theorem keeps_sleepUntilOrStop {deadline : ℕ}
    (hs : Between daemon interval (.waiting deadline) s) :
    Keeps daemon interval (fun o s' => ∀ p, o = some p → Between daemon interval p s')
      (sleepUntilOrStop daemon.onStop deadline) s := by
  refine Env.Ensures.bind (keeps_poll hs) fun stop s₁ h₁ => ?_
  obtain ⟨hs₁, hstop, -⟩ := h₁
  split
  · rename_i hstopped
    refine keeps_pure fun s₂ h₂ p hp => ?_
    -- the loop goes back to its head, where it finds the flag set
    have hhead : p = .head := by
      unfold onStop at hp
      split at hp <;> cases hp
      rfl
    subst hhead
    intro hrunning
    rw [h₂.1.2 (hstop hstopped)] at hrunning
    cases hrunning
  refine Env.Ensures.bind (Q := fun now s' => Between daemon interval (.waiting deadline) s' ∧
    now ≤ s'.time ∧ (now < deadline → s'.naps * second + deadline ≤ now + interval))
    (keeps_query fun s₂ h₂ => ⟨trivial, ?_⟩) fun now s₂ h₂ => ?_
  · intro now s₃ ha s₄ h₄
    obtain ⟨hnow, hs₃⟩ := ha
    rw [hs₃] at h₄
    have hs₂ := hs₁.tick h₂
    refine ⟨hs₂.tick h₄, by rw [hnow]; exact h₄.1.1, fun hlt => ?_⟩
    rw [h₄.2.2, hnow]
    rw [hnow] at hlt
    exact hs₂.2.2.resolve_left (Nat.not_le_of_lt hlt)
  obtain ⟨hs₂, hnow, hleft⟩ := h₂
  split
  · rename_i hdue
    refine keeps_pure fun s₃ h₃ p hp => ?_
    cases hp
    intro _ last hl
    rw [h₃.2.1] at hl
    exact (hs₂.2.1 last hl).trans (hdue.trans (hnow.trans h₃.1.1))
  · rename_i hdue
    have hlt : now < deadline := Nat.lt_of_not_le hdue
    refine Env.Ensures.bind (keeps_nap hs₂ hnow hlt (hleft hlt)) fun _ s₃ h₃ =>
      keeps_pure fun s₄ h₄ p hp => ?_
    cases hp
    exact h₃.tick h₄

/-- The wait of the warm-keeper. -/
theorem keeps_sleepInSteps {elapsed : ℕ} (hs : Between daemon interval (.counting elapsed) s) :
    Keeps daemon interval (fun o s' => ∀ p, o = some p → Between daemon interval p s')
      (sleepInSteps interval elapsed) s := by
  unfold sleepInSteps
  split
  · rename_i hlt
    refine Env.Ensures.bind (keeps_poll hs) fun stop s₁ h₁ => ?_
    obtain ⟨hs₁, -, -⟩ := h₁
    split
    · exact keeps_pure fun _ _ _ => nofun
    refine Env.Ensures.bind
      (Q := fun _ s' => Between daemon interval (.counting (elapsed + second / 2)) s')
      (keeps_query fun s₂ h₂ => ?_) fun _ s₂ h₂ => keeps_pure fun s₃ h₃ p hp => ?_
    · obtain ⟨hnap, hlast, hnaps⟩ := hs₁.tick h₂
      refine ⟨⟨hnap ▸ Nat.le_refl _, ?_⟩, fun _ s₃ ha s₄ h₄ => Between.tick ⟨hnap, ?_, ?_⟩ h₄⟩
      · rw [hnap, hnaps]
        exact hlt
      · intro last hl
        rw [ha.2.2.1] at hl
        have hpast := hlast last hl
        have hslept := ha.2.1
        omega
      · rw [ha.2.2.2, Nat.succ_mul, hnaps]
    · cases hp
      exact h₂.tick h₃
  · rename_i hdone
    refine keeps_pure fun s₁ h₁ p hp => ?_
    cases hp
    intro _ last hl
    obtain ⟨-, hlast, -⟩ := hs.tick h₁
    exact (Nat.add_le_add_left (Nat.le_of_not_lt hdone) last.2).trans (hlast last hl)

theorem keeps_round {p : Phase} (hs : Between daemon interval p s) :
    Keeps daemon interval (fun o s' => ∀ p, o = some p → Between daemon interval p s')
      (daemon.round interval p) s := by
  cases p with
  | head =>
    refine Env.Ensures.bind (keeps_poll hs) fun stop s₁ h₁ => ?_
    split
    · exact keeps_pure fun _ _ _ => nofun
    · rename_i hrunning
      exact keeps_once (h₁.2.2 rfl (by simpa using hrunning))
  | waiting deadline => exact keeps_sleepUntilOrStop hs
  | counting elapsed => exact keeps_sleepInSteps hs

/-- A loop is punctual. -/
theorem keeps_spawn (n : ℕ) (hs : Between daemon interval .head s) :
    Keeps daemon interval (fun _ _ => True) (daemon.spawn interval n) s :=
  Env.Ensures.rounds (fun _ _ h => keeps_round h) n hs

/-! ### What was kept -/

/-- Between two runs of the work, the interval passed. -/
def Spaced (interval : ℕ) (ran : List (ℕ × ℕ)) : Prop :=
  ran.Pairwise fun later earlier => earlier.2 + interval ≤ later.1

/-- Every run started before it ended, an interval after the one before, and the naps of the wait
are few. -/
structure Kept (daemon : Daemon) (interval : ℕ) (s : HostState) : Prop where
  spaced : Spaced interval s.ran
  started : ∀ x ∈ s.ran, x.1 ≤ x.2
  naps_le : s.naps ≤ (interval + daemon.nap - 1) / daemon.nap

theorem nap_pos (daemon : Daemon) : 0 < daemon.nap := by
  unfold nap
  split <;> decide

/-- Every run is over when the next one starts. -/
theorem Kept.le_of_ready (h : Kept daemon interval s) (hs : s.Ready interval) :
    ∀ x ∈ s.ran, x.2 + interval ≤ s.time := by
  obtain ⟨hspaced, hstarted, -⟩ := h
  intro x hx
  cases hran : s.ran with
  | nil =>
    rw [hran] at hx
    cases hx
  | cons last ran =>
    have hlast : last.2 + interval ≤ s.time := hs last (by rw [hran]; rfl)
    rw [hran] at hx hspaced hstarted
    rcases List.mem_cons.1 hx with rfl | hx
    · exact hlast
    · have hgap := List.rel_of_pairwise_cons hspaced hx
      have hle := hstarted last List.mem_cons_self
      omega

theorem Kept.answer {s' : HostState} {c : HostCall} {r : c.Reply} (h : Kept daemon interval s)
    (hG : Punctual daemon interval s c) (ha : s.Answer c r s') : Kept daemon interval s' := by
  cases c with
  | stopRequested | now => exact ha.2 ▸ h
  | feePayerLow | record =>
    obtain rfl : s' = s := ha
    exact h
  | increment =>
    obtain rfl : s' = _ := ha
    exact ⟨h.spaced, h.started, Nat.zero_le _⟩
  | sleep nanos =>
    obtain ⟨-, -, hran, hnaps⟩ := ha
    obtain ⟨-, hleft⟩ := hG
    refine ⟨hran ▸ h.spaced, hran ▸ h.started, ?_⟩
    rw [hnaps, Nat.le_div_iff_mul_le daemon.nap_pos, Nat.succ_mul]
    have hpos := daemon.nap_pos
    omega
  | run d =>
    obtain ⟨hbefore, hran, hnaps⟩ := ha
    refine ⟨?_, ?_, hnaps ▸ Nat.zero_le _⟩
    · rw [hran]
      exact List.pairwise_cons.2 ⟨h.le_of_ready hG.2, h.spaced⟩
    · rw [hran]
      exact List.forall_mem_cons.2 ⟨hbefore.1, h.started⟩

/-- Runs that are spaced do not fit a short window. -/
theorem length_le_of_spaced (hpos : 0 < interval) {ran : List (ℕ × ℕ)} (h : Spaced interval ran)
    (hstarted : ∀ x ∈ ran, x.1 ≤ x.2) {a w : ℕ} (hmem : ∀ x ∈ ran, a ≤ x.1 ∧ x.1 ≤ a + w) :
    ran.length ≤ w / interval + 1 := by
  have hfirst : ∀ (ran : List (ℕ × ℕ)) (x : ℕ × ℕ), Spaced interval (x :: ran) →
      (∀ y ∈ x :: ran, y.1 ≤ y.2) → (∀ y ∈ x :: ran, a ≤ y.1) →
      ran.length * interval + a ≤ x.1 := by
    intro ran
    induction ran with
    | nil =>
      intro x _ _ ha
      simpa using ha x List.mem_cons_self
    | cons y ran ih =>
      intro x hspaced hle ha
      have hy := ih y hspaced.of_cons (fun z hz => hle z (List.mem_cons_of_mem _ hz))
        fun z hz => ha z (List.mem_cons_of_mem _ hz)
      have hgap := List.rel_of_pairwise_cons hspaced List.mem_cons_self
      have hyle := hle y (List.mem_cons_of_mem _ List.mem_cons_self)
      rw [List.length_cons, Nat.succ_mul]
      omega
  cases ran with
  | nil => exact Nat.zero_le _
  | cons x ran =>
    have hle := hfirst ran x h hstarted fun y hy => (hmem y hy).1
    have hx := (hmem x List.mem_cons_self).2
    rw [List.length_cons]
    exact Nat.succ_le_succ ((Nat.le_div_iff_mul_le hpos).2 (by omega))

/-- A run of a loop, as far as it has got. -/
structure Run (daemon : Daemon) (interval : ℕ) where
  /-- The time of the start. -/
  startTime : ℕ
  /-- The rounds it may make. -/
  rounds : ℕ
  /-- What it asked for so far, and the state it was in. -/
  events : List (HostState × Host.Event)
  /-- What is left of it. -/
  rest : Prog Host (Except Failure (Option Phase))
  /-- The state reached. -/
  reached : HostState
  timeline : HostState.env.Timeline (.start startTime) events reached
  reaches : (daemon.spawn interval rounds).run.Reaches (events.map Prod.snd) rest

namespace Run

variable (run : Run daemon interval)

theorem punctual : ∀ x ∈ run.events, Punctual daemon interval x.1 x.2.call := by
  have hstart : Between daemon interval .head (.start run.startTime) := by
    intro _ last hlast
    cases hlast
  intro x hx
  have hkeeps := keeps_spawn run.rounds hstart
  exact ((hkeeps.sound run.timeline run.reaches fun _ _ => trivial).2.1 x hx).2

theorem kept : Kept daemon interval run.reached := by
  refine run.timeline.invariant ⟨List.Pairwise.nil, List.forall_mem_nil _, Nat.zero_le _⟩ ?_ ?_
  · rintro s s' h ⟨-, hran, hnaps⟩
    exact ⟨hran ▸ h.spaced, hran ▸ h.started, hnaps ▸ h.naps_le⟩
  · exact fun s e s' h ha he => h.answer (run.punctual (s, e) he) ha

/-- **A loop keeps its pace.**  However it is scheduled, between the end of one run of its work and
the start of the next its interval passes, so that few runs start in any window; and in the wait it
is in, the one after its last iteration, it has napped only as often as the interval takes. -/
theorem runs_spaced : Spaced interval run.reached.ran ∧
    run.reached.naps ≤ (interval + daemon.nap - 1) / daemon.nap ∧
    ∀ a w, 0 < interval → run.reached.ran.countP (fun x => decide (a ≤ x.1 ∧ x.1 ≤ a + w)) ≤
      w / interval + 1 := by
  obtain ⟨hspaced, hstarted, hnaps⟩ := run.kept
  refine ⟨hspaced, hnaps, fun a w hpos => ?_⟩
  rw [List.countP_eq_length_filter]
  refine length_le_of_spaced (a := a) hpos (List.Pairwise.sublist List.filter_sublist hspaced)
    (fun x hx => hstarted x (List.mem_of_mem_filter hx)) fun x hx => ?_
  exact of_decide_eq_true (List.mem_filter.1 hx).2

end Run

end Daemon

/-! ### Computed runs -/

namespace HostState

/-- The replies of a process in which nothing fails. -/
def reply (s : HostState) : (c : HostCall) → c.Reply
  | .stopRequested => s.stopping
  | .feePayerLow => false
  | .now => s.time
  | .sleep _ | .increment _ _ | .record _ _ _ => ()
  | .run _ => .ok ()

/-- A run of the work takes a second, and the stop flag is set at `stopAt`. -/
def after (stopAt : ℕ) (s : HostState) : (c : HostCall) → c.Reply → HostState
  | .sleep nanos, _ =>
    ⟨s.time + nanos, s.stopping || decide (stopAt ≤ s.time + nanos), s.ran, s.naps + 1⟩
  | .run _, _ => ⟨s.time + second, s.stopping || decide (stopAt ≤ s.time + second),
    (s.time, s.time + second) :: s.ran, 0⟩
  | .increment _ _, _ => { s with naps := 0 }
  | _, _ => s

theorem answer_after (stopAt : ℕ) (s : HostState) (c : HostCall) :
    s.Answer c (s.reply c) (s.after stopAt c (s.reply c)) := by
  cases c with
  | stopRequested | now => exact ⟨rfl, rfl⟩
  | feePayerLow | increment | record => rfl
  | sleep nanos =>
    exact ⟨⟨Nat.le_add_right _ _, fun h => by simp [after, h]⟩, Nat.le_refl _, rfl, rfl⟩
  | run d => exact ⟨⟨Nat.le_add_right _ _, fun h => by simp [after, h]⟩, rfl, rfl⟩

end HostState

/-- The run of a loop in that process. -/
def Daemon.Run.compute (daemon : Daemon) (interval stopAt rounds : ℕ) : Run daemon interval where
  startTime := 0
  rounds := rounds
  events := (Env.exec HostState.reply (HostState.after stopAt) (daemon.spawn interval rounds).run
    (.start 0)).1
  rest := .ret (Env.exec HostState.reply (HostState.after stopAt)
    (daemon.spawn interval rounds).run (.start 0)).2.1
  reached := (Env.exec HostState.reply (HostState.after stopAt)
    (daemon.spawn interval rounds).run (.start 0)).2.2
  timeline := Env.timeline_exec (E := HostState.env) (fun s c => s.answer_after stopAt c) _ _
  reaches := (Env.runs_exec _ _).reaches

/-- A promoter that runs three times. -/
theorem Daemon.Run.runs_spaced_sample :
    (compute (.handler .promoter) (5 * second) (100 * second) 20).reached.ran =
        [(12 * second, 13 * second), (6 * second, 7 * second), (0, second)] ∧
      (compute (.handler .promoter) (5 * second) (100 * second) 20).reached.ran.countP
        (fun x => decide (0 ≤ x.1 ∧ x.1 ≤ 0 + 10 * second)) ≤ 10 * second / (5 * second) + 1 :=
  ⟨by decide +kernel, (compute (.handler .promoter) (5 * second) (100 * second) 20).runs_spaced.2.2
    0 (10 * second) (by decide)⟩

end YdeltaCrankers
