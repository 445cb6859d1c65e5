import YdeltaCrankers.Process.Daemons

/-!
# What the loops do

* `Daemon.spawn_accounted` : the metrics of a supervisor agree with its ticks, over the whole run.
* `Daemon.spawn_refines` : seen from the services, a loop is `runTasks` on a list of its own task.

Both follow from the list of what one iteration of a supervisor can be (`superviseOnce_runs`).
-/

namespace YdeltaCrankers

open Interaction

/-! ### One iteration of a supervisor -/

section Runs

variable (handler : HandlerKind)

/-- How a supervisor finds out whether to skip the tick. -/
inductive SkipRun : Host.Trace → Bool → Prop
  | free (h : handler.requiresFeePayer = false) : SkipRun [] false
  | read (h : handler.requiresFeePayer = true) (low : Bool) : SkipRun [⟨.feePayerLow, low⟩] low

/-- How a tick can end. -/
inductive TickRun : Host.Trace → Except Failure String → Prop
  | ok : TickRun [⟨.run (.handler handler), .ok ()⟩] (.ok "ok")
  | err (e : Error) : TickRun [⟨.run (.handler handler), .error (.error e)⟩,
      ⟨.increment mTxFailuresTotal [("handler", handler.name), ("reason", classifyHandlerError e)],
        ()⟩] (.ok "err")
  | panicked (msg : String) :
      TickRun [⟨.run (.handler handler), .error (.panic msg)⟩] (.error (.panic msg))

/-- The end of an iteration. -/
def ending (outcome : String) (t0 t1 t2 : ℕ) : Host.Trace :=
  [⟨.now, t1⟩, ⟨.increment mTicksTotal [("handler", handler.name), ("outcome", outcome)], ()⟩,
    ⟨.record mTickDuration [("handler", handler.name)] (t1 - t0), ()⟩, ⟨.now, t2⟩]

/-- What an iteration can be. -/
inductive SuperviseRun : Host.Trace → Except Failure (Option Phase) → Prop
  | paused {t : Host.Trace} (hskip : SkipRun handler t true) (t0 t1 t2 : ℕ)
      (r : Except Failure (Option Phase)) :
      SuperviseRun (t ++ ⟨.now, t0⟩ :: ending handler "paused_low_balance" t0 t1 t2) r
  | ticked {t u : Host.Trace} {outcome : String} (hskip : SkipRun handler t false)
      (htick : TickRun handler u (.ok outcome)) (t0 t1 t2 : ℕ)
      (r : Except Failure (Option Phase)) :
      SuperviseRun (t ++ ⟨.now, t0⟩ :: (u ++ ending handler outcome t0 t1 t2)) r
  | panicked {t u : Host.Trace} {err : Failure} (hskip : SkipRun handler t false)
      (htick : TickRun handler u (.error err)) (t0 : ℕ) :
      SuperviseRun (t ++ ⟨.now, t0⟩ :: u) (.error err)

variable {handler}

theorem skipsTick_runs : handler.skipsTick.Spec fun t r => ∃ skip, r = .ok skip ∧
    SkipRun handler t skip := by
  unfold HandlerKind.skipsTick
  split
  · rename_i h
    exact Fallible.spec_ask fun low => ⟨low, rfl, .read h low⟩
  · rename_i h
    exact Fallible.spec_pure ⟨false, rfl, .free (by simpa using h)⟩

theorem tickOutcome_runs : handler.tickOutcome.Spec (TickRun handler) := by
  refine Fallible.spec_query_bind fun r => ?_
  rcases r with (e | msg) | ⟨⟨⟩⟩
  · exact Fallible.spec_query_bind fun _ => Fallible.spec_pure (.err e)
  · exact Fallible.spec_throw (.panicked msg)
  · exact Fallible.spec_pure .ok

theorem superviseOnce_runs (interval : ℕ) :
    (handler.superviseOnce interval).Spec (SuperviseRun handler) := by
  refine Fallible.spec_bind skipsTick_runs (fun _ _ => nofun) fun t skip hskip => ?_
  obtain ⟨_, ⟨⟩, hskip⟩ := hskip
  refine Fallible.spec_query_bind fun t0 => ?_
  have hending : ∀ (outcome : String) (u : Host.Trace),
      (∀ t1 t2 r,
        SuperviseRun handler (t ++ ⟨.now, t0⟩ :: (u ++ ending handler outcome t0 t1 t2)) r) →
      Fallible.Spec (do
        let t1 ← Host.query .now
        let () ← Host.query (.increment mTicksTotal
          [("handler", handler.name), ("outcome", outcome)])
        let () ← Host.query (.record mTickDuration [("handler", handler.name)] (t1 - t0))
        let now ← Host.query .now
        let deadline ← liftExcept (addInstant now interval)
        return some (Phase.waiting deadline) : Async Host (Option Phase))
        fun t' r => SuperviseRun handler (t ++ ⟨.now, t0⟩ :: (u ++ t')) r := by
    intro outcome u h
    refine Fallible.spec_query_bind fun t1 => Fallible.spec_query_bind fun _ => ?_
    refine Fallible.spec_query_bind fun _ => Fallible.spec_query_bind fun t2 => ?_
    unfold addInstant
    split <;> exact Fallible.spec_result (h t1 t2 _)
  cases skip with
  | true => exact hending _ [] fun t1 t2 r => .paused hskip t0 t1 t2 r
  | false =>
    refine Fallible.spec_bind tickOutcome_runs (fun u err h => .panicked hskip h t0) fun u o h => ?_
    exact hending o u fun t1 t2 r => .ticked hskip h t0 t1 t2 r

end Runs

/-! ### The metrics of a supervisor -/

/-- The value of a label, if the event increments that counter. -/
def counted (name key : String) : Host.Event → Option String
  | ⟨.increment n labels, _⟩ => if n = name then labels.lookup key else none
  | _ => none

/-- The outcome of an iteration, if the event decides it. -/
def outcomeOf : Host.Event → Option String
  | ⟨.run _, .ok ()⟩ => some "ok"
  | ⟨.run _, .error (.error _)⟩ => some "err"
  | ⟨.feePayerLow, true⟩ => some "paused_low_balance"
  | _ => none

/-- Why a tick failed, if the event is one that did. -/
def reasonOf : Host.Event → Option String
  | ⟨.run _, .error (.error e)⟩ => some (classifyHandlerError e)
  | _ => none

/-- The labels counted are those of the iterations and of the failed ticks, in their order. -/
structure Accounted (handler : HandlerKind) (t : Host.Trace) : Prop where
  outcomes : t.filterMap (counted mTicksTotal "outcome") = t.filterMap outcomeOf
  reasons : t.filterMap (counted mTxFailuresTotal "reason") = t.filterMap reasonOf
  /-- Only a handler that needs the fee payer is paused. -/
  paused : "paused_low_balance" ∈ t.filterMap outcomeOf → handler.requiresFeePayer = true

namespace Accounted

variable {handler : HandlerKind} {t t' : Host.Trace}

theorem nil : Accounted handler [] := ⟨rfl, rfl, fun h => absurd h List.not_mem_nil⟩

theorem append (h : Accounted handler t) (h' : Accounted handler t') :
    Accounted handler (t ++ t') where
  outcomes := by rw [List.filterMap_append, List.filterMap_append, h.outcomes, h'.outcomes]
  reasons := by rw [List.filterMap_append, List.filterMap_append, h.reasons, h'.reasons]
  paused := by
    rw [List.filterMap_append, List.mem_append]
    exact fun hmem => hmem.elim h.paused h'.paused

/-- Calls that decide and count nothing. -/
theorem of_idle (h : ∀ e ∈ t, counted mTicksTotal "outcome" e = none ∧
    counted mTxFailuresTotal "reason" e = none ∧ outcomeOf e = none ∧ reasonOf e = none) :
    Accounted handler t := by
  have hnone : ∀ f : Host.Event → Option String, (∀ e ∈ t, f e = none) → t.filterMap f = [] :=
    fun f => List.filterMap_eq_nil_iff.2
  constructor
  · rw [hnone _ fun e he => (h e he).1, hnone _ fun e he => (h e he).2.2.1]
  · rw [hnone _ fun e he => (h e he).2.1, hnone _ fun e he => (h e he).2.2.2]
  · rw [hnone _ fun e he => (h e he).2.2.1]
    exact fun hmem => absurd hmem List.not_mem_nil

/-- An iteration counts its outcome, and the reason of a failed tick; a tick that panics has no
outcome. -/
theorem of_superviseRun {r : Except Failure (Option Phase)} (h : SuperviseRun handler t r) :
    Accounted handler t := by
  cases h with
  | paused hskip t0 t1 t2 r =>
    cases hskip with
    | read hfee => exact ⟨rfl, rfl, fun _ => hfee⟩
  | ticked hskip htick t0 t1 t2 r =>
    have hpaused : "paused_low_balance" ∉ ["ok"] ∧ "paused_low_balance" ∉ ["err"] := by decide
    cases htick with
    | ok =>
      cases hskip with
      | free => exact ⟨rfl, rfl, fun h => absurd h hpaused.1⟩
      | read => exact ⟨rfl, rfl, fun h => absurd h hpaused.1⟩
    | err e =>
      cases hskip with
      | free => exact ⟨rfl, rfl, fun h => absurd h hpaused.2⟩
      | read => exact ⟨rfl, rfl, fun h => absurd h hpaused.2⟩
  | panicked hskip htick t0 =>
    cases htick with
    | panicked msg =>
      cases hskip with
      | free => exact ⟨rfl, rfl, fun h => absurd h List.not_mem_nil⟩
      | read => exact ⟨rfl, rfl, fun h => absurd h List.not_mem_nil⟩

end Accounted

/-- The calls of a wait. -/
def HostCall.Waits : HostCall → Prop
  | .stopRequested | .now | .sleep _ => True
  | _ => False

theorem sleepUntilOrStop_waits (onStop : Option Phase) (deadline : ℕ) :
    (sleepUntilOrStop onStop deadline).Makes HostCall.Waits := by
  refine Fallible.Makes.bind (Fallible.makes_ask trivial) fun stop => ?_
  split
  · exact Fallible.makes_pure _
  refine Fallible.Makes.bind (Fallible.makes_ask trivial) fun now => ?_
  split
  · exact Fallible.makes_pure _
  · exact Fallible.Makes.bind (Fallible.makes_ask trivial) fun _ => Fallible.makes_pure _

theorem sleepInSteps_waits (interval elapsed : ℕ) :
    (sleepInSteps interval elapsed).Makes HostCall.Waits := by
  unfold sleepInSteps
  split
  · refine Fallible.Makes.bind (Fallible.makes_ask trivial) fun stop => ?_
    split
    · exact Fallible.makes_pure _
    · exact Fallible.Makes.bind (Fallible.makes_ask trivial) fun _ => Fallible.makes_pure _
  · exact Fallible.makes_pure _

theorem Accounted.of_waits {handler : HandlerKind} {t : Host.Trace}
    (h : ∀ e ∈ t, e.call.Waits) : Accounted handler t := by
  refine Accounted.of_idle ?_
  rintro ⟨c, r⟩ he
  have hc : c.Waits := h _ he
  cases c with
  | stopRequested | now | sleep => exact ⟨rfl, rfl, rfl, rfl⟩
  | feePayerLow | run | increment | record => exact hc.elim

/-- **The metrics of a supervisor are exact.**  Over a whole run, of however many rounds and however
it ends, the outcomes counted are the outcomes of its iterations and the reasons counted are those
of its failed ticks, in their order. -/
theorem Daemon.spawn_accounted (handler : HandlerKind) (interval n : ℕ) {t : Host.Trace}
    {r : Except Failure (Option Phase)}
    (h : ((Daemon.handler handler).spawn interval n).run.Runs t r) : Accounted handler t := by
  have hspec : ((Daemon.handler handler).spawn interval n).Spec fun t _ => Accounted handler t := by
    refine Fallible.spec_rounds (Q := fun _ t _ => Accounted handler t) (fun _ => .nil)
      (fun p => ?_) n Phase.head
    have hround : ((Daemon.handler handler).round interval p).Spec fun t _ =>
        Accounted handler t := by
      cases p with
      | head =>
        refine Fallible.spec_query_bind fun stop => ?_
        split
        · exact Fallible.spec_pure ⟨rfl, rfl, fun h => absurd h List.not_mem_nil⟩
        · refine (superviseOnce_runs interval).mono fun t r hrun => ?_
          have hpoll : Accounted handler [(⟨.stopRequested, stop⟩ : Host.Event)] :=
            ⟨rfl, rfl, fun h => absurd h List.not_mem_nil⟩
          exact hpoll.append (Accounted.of_superviseRun hrun)
      | waiting deadline =>
        exact Fallible.Spec.mono (sleepUntilOrStop_waits _ deadline) fun _ _ => Accounted.of_waits
      | counting elapsed =>
        exact Fallible.Spec.mono (sleepInSteps_waits interval elapsed) fun _ _ => Accounted.of_waits
    refine hround.mono fun t r hr => ?_
    rcases r with e | (_ | p')
    · exact hr
    · exact hr
    · exact fun t' _ hr' => hr.append hr'
  exact hspec t r h

/-- A process without a clock in which every tick fails. -/
def failingTicks : (c : HostCall) → c.Reply
  | .stopRequested | .feePayerLow => false
  | .now => 0
  | .sleep _ | .increment _ _ | .record _ _ _ => ()
  | .run _ => .error (.error (.anyhow "rpc call timed out"))

/-- The first rounds of a supervisor in that process. -/
def failingRounds : Host.Trace × Except Failure (Option Phase) :=
  ((Daemon.handler .promoter).spawn 0 3).run.answered failingTicks

theorem Daemon.spawn_accounted_sample : Accounted .promoter failingRounds.1 ∧
    failingRounds.1.filterMap reasonOf = ["rpc_error", "rpc_error"] := by
  refine ⟨?_, by decide +kernel⟩
  have hruns : ((Daemon.handler .promoter).spawn 0 3).run.Runs failingRounds.1
      failingRounds.2 := by
    unfold failingRounds
    exact Prog.runs_answered (I := Host) failingTicks _
  exact Daemon.spawn_accounted .promoter 0 3 hruns

/-! ### The loops refine lists of tasks -/

/-- The iterations of a loop, as tasks.  The token balance loop, which spawns its reads, is none of
the tasks. -/
def Daemon.task : Daemon → Option Task
  | .handler h => some (.supervise h)
  | .solBalance => some .solBalance
  | .bankRefresh => some .bankRefresh
  | .swbCrank => some .swbCrank
  | .ataBalance => none

section Refinement

variable (ctx : HandlerContext)

/-- What is left of a task when its loop does the rest: a supervisor only ticks. -/
def Task.work : Task → Async Service Unit
  | .supervise handler => handler.tick ctx
  | task => task.run ctx

/-- What the services see of one event of a loop. -/
def Shows : Host.Event → Service.Trace → Prop
  | ⟨.run daemon, r⟩, v => ∃ task, daemon.task = some task ∧ (task.work ctx).run.Runs v r
  | ⟨.feePayerLow, low⟩, v => v = [⟨.process .feePayerLow, low⟩]
  | _, v => v = []

/-- What the services see of a loop. -/
def Plays : Host.Trace → Service.Trace → Prop
  | [], v => v = []
  | e :: t, v => ∃ v₁ v₂, v = v₁ ++ v₂ ∧ Shows ctx e v₁ ∧ Plays t v₂

variable {ctx}

theorem runs_of_shows {daemon : Daemon} {task : Task} (htask : daemon.task = some task)
    {r : Except Failure Unit} {v : Service.Trace} (h : Shows ctx ⟨.run daemon, r⟩ v) :
    (task.work ctx).run.Runs v r := by
  obtain ⟨task', htask', hrun⟩ := h
  obtain rfl : task = task' := Option.some.inj (htask.symm.trans htask')
  exact hrun

theorem plays_append {t t' : Host.Trace} {v : Service.Trace} :
    Plays ctx (t ++ t') v ↔ ∃ v₁ v₂, v = v₁ ++ v₂ ∧ Plays ctx t v₁ ∧ Plays ctx t' v₂ := by
  induction t generalizing v with
  | nil => exact ⟨fun h => ⟨[], v, rfl, rfl, h⟩, fun ⟨_, _, hv, h, h'⟩ => by rw [hv, h]; exact h'⟩
  | cons e t ih =>
    constructor
    · rintro ⟨v₁, v₂, rfl, he, h⟩
      obtain ⟨v₃, v₄, rfl, ht, ht'⟩ := ih.1 h
      exact ⟨v₁ ++ v₃, v₄, (List.append_assoc _ _ _).symm, ⟨v₁, v₃, rfl, he, ht⟩, ht'⟩
    · rintro ⟨_, v₄, rfl, ⟨v₁, v₃, rfl, he, ht⟩, ht'⟩
      exact ⟨v₁, v₃ ++ v₄, List.append_assoc _ _ _, he, ih.2 ⟨v₃, v₄, rfl, ht, ht'⟩⟩

/-- An event the services do not see. -/
theorem plays_cons_of_silent {e : Host.Event} {t : Host.Trace} {v : Service.Trace}
    (he : ∀ v, Shows ctx e v ↔ v = []) : Plays ctx (e :: t) v ↔ Plays ctx t v := by
  constructor
  · rintro ⟨v₁, v₂, rfl, h, ht⟩
    rw [(he v₁).1 h]
    exact ht
  · exact fun ht => ⟨[], v, rfl, (he []).2 rfl, ht⟩

theorem plays_of_silent {t : Host.Trace} {v : Service.Trace}
    (ht : ∀ e ∈ t, ∀ v, Shows ctx e v ↔ v = []) (h : Plays ctx t v) : v = [] := by
  induction t with
  | nil => exact h
  | cons e t ih =>
    obtain ⟨he, ht⟩ := List.forall_mem_cons.1 ht
    exact ih ht ((plays_cons_of_silent he).1 h)

/-- The calls of a wait are not seen. -/
theorem shows_nil_of_waits {t : Host.Trace} (h : ∀ e ∈ t, e.call.Waits) :
    ∀ e ∈ t, ∀ v, Shows ctx e v ↔ v = [] := by
  rintro ⟨c, r⟩ he v
  have hc : c.Waits := h _ he
  cases c with
  | stopRequested | now | sleep => exact Iff.rfl
  | feePayerLow | run | increment | record => exact hc.elim

theorem shouldSkipLowBalance_runs {handler : HandlerKind} {t : Host.Trace} {skip : Bool}
    {v : Service.Trace} (h : SkipRun handler t skip) (hplay : Plays ctx t v) :
    handler.shouldSkipLowBalance.run.Runs v (.ok skip) := by
  unfold HandlerKind.shouldSkipLowBalance
  cases h with
  | free hfee =>
    rw [hfee]
    exact ⟨hplay, rfl⟩
  | read hfee low =>
    obtain ⟨v₁, v₂, rfl, hlow, hnil⟩ := hplay
    obtain rfl : v₁ = _ := hlow
    obtain rfl : v₂ = [] := hnil
    rw [hfee]
    exact ⟨skip, [], rfl, rfl, rfl⟩

/-- The end of an iteration is not seen. -/
theorem eq_nil_of_plays_ending {handler : HandlerKind} {outcome : String} {t0 t1 t2 : ℕ}
    {v : Service.Trace} (h : Plays ctx (ending handler outcome t0 t1 t2) v) : v = [] := by
  refine plays_of_silent (fun e he v => ?_) h
  unfold ending at he
  simp only [List.mem_cons, List.not_mem_nil, or_false] at he
  rcases he with rfl | rfl | rfl | rfl <;> exact Iff.rfl

/-- A supervisor shows the run of its tick. -/
theorem tick_of_shows {handler : HandlerKind} {r : Except Failure Unit} {v : Service.Trace}
    (h : Shows ctx ⟨.run (.handler handler), r⟩ v) : (handler.tick ctx).run.Runs v r := by
  have htask : (Daemon.handler handler).task = some (.supervise handler) := rfl
  exact runs_of_shows htask h

/-- The tick of an iteration is seen whole, and its error is caught. -/
theorem caught_tick_runs {handler : HandlerKind} {t : Host.Trace} {r : Except Failure String}
    {v : Service.Trace} (h : TickRun handler t r) (hplay : Plays ctx t v) :
    ∃ res, (Service.caught (handler.tick ctx)).run.Runs v res ∧
      ((∃ outcome, r = .ok outcome) → ∃ a, res = .ok a) := by
  cases h with
  | ok =>
    obtain ⟨v₁, v₂, rfl, htick, hnil⟩ := hplay
    obtain rfl : v₂ = [] := hnil
    rw [List.append_nil]
    exact ⟨_, Fallible.runs_attempt_ok (tick_of_shows htick), fun _ => ⟨_, rfl⟩⟩
  | err e =>
    obtain ⟨v₁, v₂, rfl, htick, hrest⟩ := hplay
    obtain rfl : v₂ = [] := (plays_cons_of_silent fun _ => Iff.rfl).1 hrest
    rw [List.append_nil]
    exact ⟨_, Fallible.runs_attempt_recovered (tick_of_shows htick) rfl, fun _ => ⟨_, rfl⟩⟩
  | panicked msg =>
    obtain ⟨v₁, v₂, rfl, htick, hnil⟩ := hplay
    obtain rfl : v₂ = [] := hnil
    rw [List.append_nil]
    exact ⟨_, Fallible.runs_attempt_failed (tick_of_shows htick) rfl, fun ⟨_, h⟩ => nomatch h⟩

/-- An iteration of a supervisor is seen as one of the task, which fails only by a panic. -/
theorem supervise_runs {handler : HandlerKind} {t : Host.Trace}
    {r : Except Failure (Option Phase)} {v : Service.Trace} (h : SuperviseRun handler t r)
    (hplay : Plays ctx t v) : ∃ res, (handler.supervise ctx).run.Runs v res ∧
      ((∃ o, r = .ok o) → res = .ok ()) := by
  have hsilent : ∀ t0 : ℕ, ∀ v, Shows ctx ⟨.now, t0⟩ v ↔ v = [] := fun _ _ => Iff.rfl
  -- an iteration that ticks, up to the end of the tick
  have hticked : ∀ {v₁ v₂ : Service.Trace} {t u : Host.Trace} {r' : Except Failure String},
      SkipRun handler t false → Plays ctx t v₁ → TickRun handler u r' → Plays ctx u v₂ →
      ∃ res, (handler.supervise ctx).run.Runs (v₁ ++ v₂) res ∧
        ((∃ outcome, r' = .ok outcome) → res = .ok ()) := by
    intro v₁ v₂ t u r' hskip hlow htick hrun
    obtain ⟨res, hres, hok⟩ := caught_tick_runs htick hrun
    have hlow := shouldSkipLowBalance_runs hskip hlow
    cases res with
    | ok a =>
      refine ⟨.ok (), Fallible.runs_bind_ok hlow ?_, fun _ => rfl⟩
      rw [← List.append_nil v₂]
      exact Fallible.runs_bind_ok hres ⟨rfl, rfl⟩
    | error err =>
      refine ⟨.error err, Fallible.runs_bind_ok hlow (Fallible.runs_bind_error hres), fun h => ?_⟩
      obtain ⟨a, ha⟩ := hok h
      cases ha
  cases h with
  | paused hskip t0 t1 t2 r =>
    obtain ⟨v₁, v₂, rfl, hlow, hrest⟩ := plays_append.1 hplay
    obtain rfl := eq_nil_of_plays_ending ((plays_cons_of_silent (hsilent t0)).1 hrest)
    exact ⟨.ok (), Fallible.runs_bind_ok (shouldSkipLowBalance_runs hskip hlow) ⟨rfl, rfl⟩,
      fun _ => rfl⟩
  | ticked hskip htick t0 t1 t2 r =>
    obtain ⟨v₁, v₂, rfl, hlow, hrest⟩ := plays_append.1 hplay
    obtain ⟨v₃, v₄, rfl, hrun, hend⟩ := plays_append.1 ((plays_cons_of_silent (hsilent t0)).1 hrest)
    obtain rfl := eq_nil_of_plays_ending hend
    obtain ⟨res, hres, hok⟩ := hticked hskip hlow htick hrun
    rw [List.append_nil]
    exact ⟨res, hres, fun _ => hok ⟨_, rfl⟩⟩
  | panicked hskip htick t0 =>
    obtain ⟨v₁, v₂, rfl, hlow, hrest⟩ := plays_append.1 hplay
    obtain ⟨res, hres, -⟩ := hticked hskip hlow htick ((plays_cons_of_silent (hsilent t0)).1 hrest)
    exact ⟨res, hres, fun ⟨_, h⟩ => nomatch h⟩

/-- The work of a loop that is no supervisor, and what it does after it. -/
theorem work_runs {daemon : Daemon} {task : Task} (htask : daemon.task = some task)
    {f : Unit → Async Host (Option Phase)} (hf : ∀ u, (f u).Makes HostCall.Waits) :
    (daemon.work >>= f).Spec fun t r => ∀ v, Plays ctx t v →
      ∃ res, (task.work ctx).run.Runs v res ∧ ((∃ o, r = .ok o) → res = .ok ()) := by
  have hwork : daemon.work.Spec fun t r => t = [⟨.run daemon, r⟩] := by
    refine Fallible.spec_query_bind fun r => ?_
    cases r with
    | error err => exact Fallible.spec_throw rfl
    | ok u => exact Fallible.spec_pure rfl
  refine Fallible.spec_bind hwork (fun t err ht v hv => ?_) fun t u ht => ?_
  · subst ht
    obtain ⟨v₁, v₂, rfl, hrun, hnil⟩ := hv
    obtain rfl : v₂ = [] := hnil
    rw [List.append_nil]
    exact ⟨_, runs_of_shows htask hrun, fun ⟨_, h⟩ => nomatch h⟩
  · subst ht
    refine Fallible.Spec.mono (hf u) fun t r ht v hv => ?_
    obtain ⟨v₁, v₂, rfl, hrun, hrest⟩ := hv
    obtain rfl := plays_of_silent (shows_nil_of_waits ht) hrest
    rw [List.append_nil]
    exact ⟨_, runs_of_shows htask hrun, fun _ => rfl⟩

/-- What one round of a loop is to the services: an iteration of its task, or nothing. -/
theorem round_runs {daemon : Daemon} {task : Task} (htask : daemon.task = some task)
    {interval : ℕ} (p : Phase) : (daemon.round interval p).Spec fun t r =>
      ∀ v, Plays ctx t v → v = [] ∨ ∃ res, (task.run ctx).run.Runs v res ∧
        ((∃ o, r = .ok o) → res = .ok ()) := by
  have hwait : ∀ x : Async Host (Option Phase), x.Makes HostCall.Waits →
      x.Spec fun t r => ∀ v, Plays ctx t v → v = [] ∨ ∃ res, (task.run ctx).run.Runs v res ∧
        ((∃ o, r = .ok o) → res = .ok ()) := by
    exact fun x hx => Fallible.Spec.mono hx fun t r ht v hv =>
      .inl (plays_of_silent (shows_nil_of_waits ht) hv)
  cases p with
  | waiting deadline => exact hwait _ (sleepUntilOrStop_waits _ deadline)
  | counting elapsed => exact hwait _ (sleepInSteps_waits interval elapsed)
  | head =>
    refine Fallible.spec_query_bind fun stop => ?_
    have hpoll : ∀ t v, Plays ctx (⟨.stopRequested, stop⟩ :: t) v ↔ Plays ctx t v :=
      fun t v => plays_cons_of_silent fun _ => Iff.rfl
    split
    · exact Fallible.spec_pure fun v hv => .inl ((hpoll [] v).1 hv)
    have honce : (daemon.once interval).Spec fun t r => ∀ v, Plays ctx t v →
        ∃ res, (task.run ctx).run.Runs v res ∧ ((∃ o, r = .ok o) → res = .ok ()) := by
      have hdeadline : Fallible.Makes HostCall.Waits (do
          let now ← Host.query .now
          let deadline ← liftExcept (addInstant now interval)
          return some (Phase.waiting deadline) : Async Host (Option Phase)) :=
        Fallible.Makes.bind (Fallible.makes_ask trivial) fun _ =>
          (Fallible.makes_result _).bind fun _ => Fallible.makes_pure _
      cases daemon with
      | handler h =>
        cases htask
        exact (superviseOnce_runs interval).mono fun _ _ hrun _ hv => supervise_runs hrun hv
      | ataBalance => cases htask
      | swbCrank =>
        have hwork : Daemon.swbCrank.task = some .swbCrank := rfl
        cases htask
        exact work_runs hwork fun _ => Fallible.makes_pure _
      | solBalance =>
        have hwork : Daemon.solBalance.task = some .solBalance := rfl
        cases htask
        exact work_runs hwork fun _ => hdeadline
      | bankRefresh =>
        have hwork : Daemon.bankRefresh.task = some .bankRefresh := rfl
        cases htask
        exact work_runs hwork fun _ => hdeadline
    exact honce.mono fun t r h v hv => .inr (h v ((hpoll t v).1 hv))

/-- **A loop is its list of tasks.**  Whatever a loop that has a task does, for however many rounds,
the services see a run of `runTasks` on a list of its own task. -/
theorem Daemon.spawn_refines {daemon : Daemon} {task : Task} (htask : daemon.task = some task)
    (interval n : ℕ) {t : Host.Trace} {r : Except Failure (Option Phase)}
    (h : (daemon.spawn interval n).run.Runs t r) {v : Service.Trace} (hv : Plays ctx t v) :
    ∃ k res, (runTasks ctx (List.replicate k task)).run.Runs v res := by
  have hspec : (daemon.spawn interval n).Spec fun t _ => ∀ v, Plays ctx t v →
      ∃ k res, (runTasks ctx (List.replicate k task)).run.Runs v res := by
    refine Fallible.spec_rounds (Q := fun _ t _ => ∀ v, Plays ctx t v →
      ∃ k res, (runTasks ctx (List.replicate k task)).run.Runs v res)
      (fun _ v hv => ⟨0, .ok (), hv, rfl⟩) (fun p => ?_) n Phase.head
    refine (@round_runs ctx daemon task htask interval p).mono fun t r hround => ?_
    -- a round that ends the loop is an iteration followed by none
    have hlast : ∀ v, Plays ctx t v →
        ∃ k res, (runTasks ctx (List.replicate k task)).run.Runs v res := by
      intro v hv
      rcases hround v hv with rfl | ⟨res, hres, -⟩
      · exact ⟨0, .ok (), rfl, rfl⟩
      cases res with
      | error err => exact ⟨1, .error err, Fallible.runs_bind_error hres⟩
      | ok u =>
        refine ⟨1, .ok (), ?_⟩
        rw [← List.append_nil v]
        exact Fallible.runs_bind_ok hres ⟨rfl, rfl⟩
    rcases r with e | (_ | p')
    · exact hlast
    · exact hlast
    · intro t' _ hrest v hv
      obtain ⟨v₁, v₂, rfl, hv₁, hv₂⟩ := plays_append.1 hv
      obtain ⟨k, res', hres'⟩ := hrest v₂ hv₂
      rcases hround v₁ hv₁ with rfl | ⟨res, hres, hok⟩
      · exact ⟨k, res', hres'⟩
      · rw [hok ⟨_, rfl⟩] at hres
        exact ⟨k + 1, res', Fallible.runs_bind_ok hres hres'⟩
  exact hspec t _ h v hv

end Refinement

/-- A balance loop that reads an empty account and sets the flag. -/
theorem Daemon.spawn_refines_sample : ∃ (ctx : HandlerContext) (v : Service.Trace) (k : ℕ)
    (res : Except Failure Unit), v.length = 3 ∧
      (runTasks ctx (List.replicate k .solBalance)).run.Runs v res := by
  let ctx : HandlerContext :=
    { sampleHandlerContext with cfg := { sampleConfig with minSignerBalanceLamports := 1 } }
  let v : Service.Trace := [⟨.client (.getBalance ctx.signers.feePayer), .ok 0⟩,
    ⟨.process .feePayerLow, false⟩, ⟨.process (.setFeePayerLow true), ()⟩]
  let t : Host.Trace := [⟨.stopRequested, false⟩, ⟨.run .solBalance, .ok ()⟩, ⟨.now, 0⟩]
  have hv : (solBalanceLoop ctx).run.Runs v (.ok ()) :=
    ⟨_, _, rfl, _, _, rfl, _, _, rfl, rfl, rfl⟩
  have ht : (Daemon.solBalance.spawn 0 1).run.Runs t (.ok (some (.waiting 0))) :=
    ⟨_, _, rfl, _, _, rfl, _, _, rfl, rfl, rfl⟩
  have hplays : Plays ctx t v :=
    ⟨[], v, rfl, rfl, v, [], rfl, ⟨.solBalance, rfl, hv⟩, [], [], rfl, rfl, rfl⟩
  obtain ⟨k, res, hruns⟩ := Daemon.spawn_refines rfl 0 1 ht hplays
  exact ⟨ctx, v, k, res, rfl, hruns⟩

end YdeltaCrankers
