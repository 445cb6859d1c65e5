import YdeltaCrankers.Process.Agreement
import YdeltaCrankers.Process.Signing

/-!
# A fee payer that is low

The balance loop keeps the `fee_payer_low` flag; the supervisors of the handlers that need the fee
payer look at it before every tick.  The Switchboard warm-keeper, which pays with the same key,
does not.

* `ProcessRun.TracksBalance` : the flag is what the last successful reading of the balance says,
  but for a reading whose update is under way.
* `ProcessRun.Iteration` : what an iteration of a loop has done so far.
* `ProcessRun.SpendsNothingWhenLow` : an iteration that starts with the flag set sends nothing
  that the fee payer signs.
* `ProcessRun.CuratorsGoOn` : a handler that does not need the fee payer ticks whatever the flag
  says, and signs with the keys of curators only.

**Main theorem** (`ProcessRun.low_fee_payer_spends_nothing`): all of this holds of every run in
which no iteration of the warm-keeper that starts with the flag set finds a feed to update, and
the fee payer is not a curator.
-/

namespace YdeltaCrankers

open Interaction

/-! ### The readings -/

/-- The balance the event reads. -/
def balanceReading : Service.Event → Option UInt64
  | ⟨.client (.getBalance _), .ok lamports⟩ => some lamports
  | _ => none

/-- The last successful reading of the balance. -/
def lastReading (t : Service.Trace) : Option UInt64 := (t.filterMap balanceReading).getLast?

/-- What the flag should be after this reading; `false` before the first. -/
def Config.lowAt (cfg : Config) : Option UInt64 → Bool
  | some lamports => decide (lamports < cfg.minSignerBalanceLamports)
  | none => false

theorem lastReading_append (t u : Service.Trace) :
    lastReading (t ++ u) = (lastReading u).or (lastReading t) := by
  unfold lastReading
  rw [List.filterMap_append, List.getLast?_append]

/-! ### The flag -/

/-- The flag after the event. -/
def lowStep (low : Bool) (e : Service.Event) : Bool :=
  match e.call with
  | .process (.setFeePayerLow low') => low'
  | _ => low

/-- The flag after the events of a trace. -/
def lowAfter (t : Service.Trace) (low : Bool) : Bool := t.foldl lowStep low

theorem lowAfter_append (t u : Service.Trace) (low : Bool) :
    lowAfter (t ++ u) low = lowAfter u (lowAfter t low) :=
  List.foldl_append

theorem lowStep_of_ne {low : Bool} {e : Service.Event}
    (h : ∀ low', e.call ≠ .process (.setFeePayerLow low')) : lowStep low e = low := by
  unfold lowStep
  split
  · rename_i low' hcall
    exact absurd hcall (h low')
  · rfl

theorem lowAfter_of_ne {t : Service.Trace} {low : Bool}
    (h : ∀ e ∈ t, ∀ low', e.call ≠ .process (.setFeePayerLow low')) : lowAfter t low = low := by
  induction t with
  | nil => rfl
  | cons e t ih =>
    have hrest := ih fun e he => h e (List.mem_cons_of_mem _ he)
    change lowAfter t (lowStep low e) = low
    rw [lowStep_of_ne (h e List.mem_cons_self), hrest]

namespace Memory

variable {y : Ydelta} {s s' : Memory}

theorem feePayerLow_after (s : Memory) (e : Service.Event) :
    (s.after y e.call e.reply).feePayerLow = lowStep s.feePayerLow e := by
  obtain ⟨c, r⟩ := e
  cases c with
  | rpc c => cases c <;> rfl
  | client c => cases c <;> rfl
  | process c => cases c <;> rfl

/-- The flag is what the calls have made it. -/
theorem feePayerLow_of_timeline {T : List (Memory × Service.Event)}
    (hT : (Memory.env y).Timeline s T s') :
    s'.feePayerLow = lowAfter (T.map Prod.snd) s.feePayerLow := by
  have hticks : ∀ {s s' : Memory}, (Memory.env y).Ticks s s' → s'.feePayerLow = s.feePayerLow := by
    intro s s' h
    refine h.invariant (P := fun x => x.feePayerLow = s.feePayerLow) rfl ?_
    rintro s₁ _ h₁ ⟨clock, -, rfl⟩
    exact h₁
  induction T generalizing s with
  | nil => exact hticks hT
  | cons x T ih =>
    obtain ⟨s₁, e⟩ := x
    obtain ⟨hs, s₂, ⟨-, rfl⟩, hT⟩ := hT
    have hrest := ih hT
    rw [feePayerLow_after, hticks hs] at hrest
    exact hrest

end Memory

/-! ### One iteration of the balance loop -/

/-- A reading has arrived, and the flag is still to be set: the loop has not looked at the flag
yet, or it has and the flag was the opposite. -/
def UpdateUnderWay (ctx : HandlerContext) (t : Service.Trace) : Prop :=
  ∃ lamports, t = [⟨.client (.getBalance ctx.signers.feePayer), .ok lamports⟩] ∨
    t = [⟨.client (.getBalance ctx.signers.feePayer), .ok lamports⟩,
      ⟨.process .feePayerLow, !ctx.cfg.lowAt (some lamports)⟩]

/-- Every look at the flag sees what the calls before it have made it. -/
def Coherent (t : Service.Trace) : Prop :=
  ∀ t₁ r t₂, t = t₁ ++ ⟨.process .feePayerLow, r⟩ :: t₂ → r = lowAfter t₁ false

theorem Coherent.prefix {t u : Service.Trace} (h : Coherent (t ++ u)) : Coherent t := by
  rintro t₁ r t₂ rfl
  exact h t₁ r (t₂ ++ u) (List.append_assoc t₁ _ u)

/-- The flag is what the last reading says. -/
def Settled (ctx : HandlerContext) (t : Service.Trace) : Prop :=
  lowAfter t false = ctx.cfg.lowAt (lastReading t)

/-- The flag is what the last reading says, but for one whose update is under way. -/
def Tracks (ctx : HandlerContext) (t : Service.Trace) (low : Bool) : Prop :=
  ∃ t₁ t₂, t = t₁ ++ t₂ ∧ (t₂ = [] ∨ UpdateUnderWay ctx t₂) ∧ low = ctx.cfg.lowAt (lastReading t₁)

section Iteration

variable {ctx : HandlerContext} {t u : Service.Trace}

theorem Settled.tracks (h : Settled ctx t) : Tracks ctx t (lowAfter t false) :=
  ⟨t, [], (List.append_nil t).symm, .inl rfl, h⟩

/-- What is left of an iteration once the balance is known. -/
def updateFlag (ctx : HandlerContext) (lamports : UInt64) (wasLow : Bool) : Async Service Unit :=
  let isLow := decide (lamports < ctx.cfg.minSignerBalanceLamports)
  if isLow != wasLow then Service.process (.setFeePayerLow isLow) else return ()

/-- The update sets the flag to what the reading says, unless it is that already. -/
theorem updateFlag_reaches {lamports : UInt64} {wasLow : Bool} {p : Prog Service _}
    (h : (updateFlag ctx lamports wasLow).run.Reaches u p) :
    u = [] ∧ (wasLow = ctx.cfg.lowAt (some lamports) ∨
        wasLow = (!ctx.cfg.lowAt (some lamports)) ∧ ∀ r, p ≠ .ret r) ∨
      u = [⟨.process (.setFeePayerLow (ctx.cfg.lowAt (some lamports))), ()⟩] := by
  unfold updateFlag at h
  by_cases hlow : wasLow = ctx.cfg.lowAt (some lamports)
  · have hsame : (decide (lamports < ctx.cfg.minSignerBalanceLamports) != wasLow) = false := by
      rw [hlow]
      exact bne_self_eq_false _
    simp only [hsame] at h
    exact .inl ⟨Prog.eq_nil_of_reaches_ret h, .inl hlow⟩
  · have hother : (decide (lamports < ctx.cfg.minSignerBalanceLamports) != wasLow) = true :=
      bne_iff_ne.2 fun heq => hlow heq.symm
    simp only [hother, if_true] at h
    cases u with
    | nil =>
      cases h
      exact .inl ⟨rfl, .inr ⟨Bool.eq_not.2 hlow, fun r => nofun⟩⟩
    | cons e u =>
      obtain ⟨r, rfl, h⟩ := h
      obtain rfl := Prog.eq_nil_of_reaches_ret h
      exact .inr rfl

/-- An iteration keeps the flag at what the last reading says, and leaves it there. -/
theorem solBalanceLoop_tracks {p : Prog Service _} (ht : Settled ctx t)
    (hc : Coherent (t ++ u)) (h : (solBalanceLoop ctx).run.Reaches u p) :
    Tracks ctx (t ++ u) (lowAfter (t ++ u) false) ∧
      ((∃ r, p = .ret r) → Settled ctx (t ++ u)) := by
  have hsettled : Settled ctx (t ++ u) → Tracks ctx (t ++ u) (lowAfter (t ++ u) false) ∧
      ((∃ r, p = .ret r) → Settled ctx (t ++ u)) := fun h => ⟨h.tracks, fun _ => h⟩
  cases u with
  | nil => exact hsettled (by rwa [List.append_nil])
  | cons e u =>
    obtain ⟨reply, rfl, h⟩ := h
    cases reply with
    | error e =>
      -- a failed reading changes nothing
      obtain rfl := Prog.eq_nil_of_reaches_ret h
      refine hsettled ?_
      rw [Settled, lowAfter_append, lastReading_append]
      exact ht
    | ok lamports =>
      have hlow : lowAfter (t ++ [⟨.client (.getBalance ctx.signers.feePayer), .ok lamports⟩])
          false = lowAfter t false := lowAfter_append t _ false
      cases u with
      | nil =>
        cases h
        refine ⟨⟨t, _, rfl, .inr ⟨lamports, .inl rfl⟩, hlow.trans ht⟩, ?_⟩
        rintro ⟨r, ⟨⟩⟩
      | cons e u =>
        obtain ⟨wasLow, rfl, h⟩ := h
        have hread : wasLow = lowAfter t false := by
          rw [← hlow]
          exact hc _ wasLow u (by simp)
        rcases updateFlag_reaches h with ⟨rfl, hsame | ⟨hother, hp⟩⟩ | rfl
        · refine hsettled ?_
          rw [Settled, lowAfter_append, lastReading_append]
          exact hread.symm.trans hsame
        · refine ⟨⟨t, _, rfl, .inr ⟨lamports, .inr (by rw [hother])⟩, ?_⟩, ?_⟩
          · rw [lowAfter_append]
            exact ht
          · rintro ⟨r, hr⟩
            exact absurd hr (hp r)
        · refine hsettled ?_
          rw [Settled, lowAfter_append, lastReading_append]
          rfl

/-- The balance loop keeps the flag at what the last reading says. -/
theorem runTasks_tracks {tasks : List Task} (htasks : ∀ task ∈ tasks, task = .solBalance)
    {p : Prog Service _} (ht : Settled ctx t) (hc : Coherent (t ++ u))
    (h : (runTasks ctx tasks).run.Reaches u p) :
    Tracks ctx (t ++ u) (lowAfter (t ++ u) false) := by
  induction tasks generalizing t u with
  | nil =>
    obtain rfl := Prog.eq_nil_of_reaches_ret h
    rw [List.append_nil]
    exact ht.tracks
  | cons task tasks ih =>
    obtain rfl := htasks task List.mem_cons_self
    rcases Fallible.reaches_bind h with ⟨p', hloop⟩ | ⟨u₁, _, u₂, rfl, hloop, hrest⟩
    · exact (solBalanceLoop_tracks ht hc hloop).1
    · rw [← List.append_assoc] at hc ⊢
      have hsettled := (solBalanceLoop_tracks ht hc.prefix hloop.reaches).2 ⟨_, rfl⟩
      exact ih (fun task h => htasks task (List.mem_cons_of_mem _ h)) hsettled hc hrest

/-- The other loops leave the flag alone. -/
theorem runTasks_leaves {tasks : List Task} (htasks : ∀ task ∈ tasks, task ≠ .solBalance) :
    Fallible.Makes (I := Service) (fun c => ∀ low, c ≠ .process (.setFeePayerLow low))
      (runTasks ctx tasks) := by
  induction tasks with
  | nil => exact Fallible.makes_pure _
  | cons task tasks ih =>
    have htask := Task.signs ctx (htasks task List.mem_cons_self)
    exact (Fallible.Makes.mono htask fun _ hc => hc.1).bind fun _ =>
      ih fun task h => htasks task (List.mem_cons_of_mem _ h)

end Iteration

/-! ### The flag along a run -/

section Runs

variable {cfg : Config} {sdk : Sdk} {y : Ydelta} {signers : Signers}
  (run : ProcessRun cfg sdk y signers)

/-- After the events `T` of the run the memory is `s`: the next event finds it so, or the run ends
with it. -/
def ProcessRun.StateAfter (T : List (ℕ × Memory × Service.Event)) (s : Memory) : Prop :=
  (∃ i e T', run.events = T ++ (i, s, e) :: T') ∨ run.events = T ∧ s = run.reached

/-- Loop `b` is the balance loop, and there is no other. -/
def ProcessRun.BalanceLoop (b : ℕ) : Prop :=
  ∀ i, ∀ task ∈ run.loops i, task = .solBalance ↔ i = b

/-- At every moment the flag is what the last successful reading says, but for one whose update is
under way; it is not set before the first reading. -/
def ProcessRun.TracksBalance (b : ℕ) : Prop :=
  ∀ T s, run.StateAfter T s → Tracks run.ctx (Env.eventsOf b T) s.feePayerLow

/-- The boot leaves the flag as it is. -/
theorem Launch.booted_feePayerLow (launch : Launch cfg sdk y signers) :
    launch.booted.feePayerLow = false := by
  have hboot := boot_signs cfg sdk y signers launch.swbQueue _ _ launch.runs
  rw [Memory.feePayerLow_of_timeline launch.timeline]
  exact lowAfter_of_ne fun e he => (hboot e he).1

variable {run} {b : ℕ}

/-- Only the balance loop sets the flag. -/
theorem ProcessRun.BalanceLoop.sets_only (hb : run.BalanceLoop b)
    {x : ℕ × Memory × Service.Event} (hx : x ∈ run.events) (hne : x.1 ≠ b) (low : Bool) :
    x.2.2.call ≠ .process (.setFeePayerLow low) := by
  have hmem : x.2.2 ∈ Env.eventsOf x.1 run.events := Env.mem_eventsOf.2 ⟨x.2.1, hx⟩
  have htasks : ∀ task ∈ run.loops x.1, task ≠ .solBalance := fun task htask htask' =>
    hne ((hb x.1 task htask).1 htask')
  have hmakes := Prog.Reaches.forall_mem service_reply_nonempty (runTasks_leaves htasks)
    (run.interleaving.reaches x.1)
  exact hmakes x.2.2 hmem low

/-- What the calls of the balance loop make of the flag is what all calls make of it. -/
theorem lowAfter_eventsOf {T : List (ℕ × Memory × Service.Event)} {low : Bool}
    (h : ∀ x ∈ T, x.1 ≠ b → ∀ low', x.2.2.call ≠ .process (.setFeePayerLow low')) :
    lowAfter (T.map fun x => x.2.2) low = lowAfter (Env.eventsOf b T) low := by
  induction T generalizing low with
  | nil => rfl
  | cons x T ih =>
    obtain ⟨i, s, e⟩ := x
    have hrest : ∀ {low : Bool}, lowAfter (T.map fun x => x.2.2) low =
        lowAfter (Env.eventsOf b T) low := ih fun x hx => h x (List.mem_cons_of_mem _ hx)
    by_cases hi : i = b
    · subst hi
      rw [Env.eventsOf_cons_self]
      exact hrest
    · rw [Env.eventsOf_cons_of_ne hi]
      change lowAfter (T.map fun x => x.2.2) (lowStep low e) = _
      rw [lowStep_of_ne (h (i, s, e) List.mem_cons_self hi), hrest]

theorem ProcessRun.StateAfter.timeline {T : List (ℕ × Memory × Service.Event)} {s : Memory}
    (h : run.StateAfter T s) : (Memory.env y).Timeline run.booted (T.map Prod.snd) s := by
  have htimeline := run.interleaving.timeline
  rcases h with ⟨i, e, T', hT⟩ | ⟨rfl, rfl⟩
  · rw [hT, List.map_append] at htimeline
    obtain ⟨s₁, h₁, hs, -⟩ := Env.timeline_append.1 htimeline
    exact h₁.ticks_right hs
  · exact htimeline

theorem ProcessRun.StateAfter.prefix {T : List (ℕ × Memory × Service.Event)} {s : Memory}
    (h : run.StateAfter T s) : ∃ T', run.events = T ++ T' := by
  rcases h with ⟨i, e, T', hT⟩ | ⟨hT, -⟩
  · exact ⟨_, hT⟩
  · exact ⟨[], by rw [hT, List.append_nil]⟩

/-- At every moment the flag is what the calls of the balance loop have made it. -/
theorem ProcessRun.BalanceLoop.feePayerLow_eq (hb : run.BalanceLoop b)
    {T : List (ℕ × Memory × Service.Event)} {s : Memory} (h : run.StateAfter T s) :
    s.feePayerLow = lowAfter (Env.eventsOf b T) false := by
  obtain ⟨T', hT⟩ := h.prefix
  have hflag := Memory.feePayerLow_of_timeline h.timeline
  rw [run.booted_feePayerLow, List.map_map] at hflag
  refine hflag.trans (lowAfter_eventsOf fun x hx hne => hb.sets_only ?_ hne)
  rw [hT]
  exact List.mem_append_left T' hx

/-- The balance loop sees the flag as its own calls have made it. -/
theorem ProcessRun.BalanceLoop.coherent (hb : run.BalanceLoop b) :
    Coherent (Env.eventsOf b run.events) := by
  intro t₁ r t₂ ht
  obtain ⟨T, s, T', hT, rfl⟩ := Env.eventsOf_eq_append_cons ht
  have hstate : run.StateAfter T s := .inl ⟨b, _, T', hT⟩
  have hmem : (s, (⟨.process .feePayerLow, r⟩ : Service.Event)) ∈ run.events.map Prod.snd := by
    rw [hT]
    simp
  obtain ⟨-, hread, -⟩ := run.interleaving.timeline.answered hmem
  rw [← hb.feePayerLow_eq hstate]
  exact hread

/-- **The flag tracks the balance.** -/
theorem ProcessRun.BalanceLoop.tracksBalance (hb : run.BalanceLoop b) : run.TracksBalance b := by
  intro T s h
  obtain ⟨T', hT⟩ := h.prefix
  have hcoherent := hb.coherent
  have hreaches := run.interleaving.reaches b
  rw [hT, Env.eventsOf_append] at hcoherent hreaches
  obtain ⟨p, hreaches⟩ := hreaches.prefix
  have htasks : ∀ task ∈ run.loops b, task = .solBalance := fun task htask =>
    (hb b task htask).2 rfl
  rw [hb.feePayerLow_eq h]
  exact runTasks_tracks (t := []) htasks rfl hcoherent.prefix hreaches

/-! ### Iterations -/

variable (run) in
/-- In loop `i`, the iteration `task` has done `u` so far. -/
def ProcessRun.Iteration (i : ℕ) (task : Task) (u : List (Memory × Service.Event)) : Prop :=
  ∃ done more T T', run.loops i = done ++ task :: more ∧
    Env.stepsOf i run.events = T ++ u ++ T' ∧
    (runTasks run.ctx done).run.Runs (T.map Prod.snd) (.ok ()) ∧
    ∃ p, (task.run run.ctx).run.Reaches (u.map Prod.snd) p

/-- A loop, as far as it has got, is cut into iterations. -/
theorem runTasks_iterations {ctx : HandlerContext} {tasks : List Task}
    {S : List (Memory × Service.Event)} {p : Prog Service _} {x : Memory × Service.Event}
    (h : (runTasks ctx tasks).run.Reaches (S.map Prod.snd) p) (hx : x ∈ S) :
    ∃ done task more T u T', tasks = done ++ task :: more ∧ S = T ++ u ++ T' ∧ x ∈ u ∧
      (runTasks ctx done).run.Runs (T.map Prod.snd) (.ok ()) ∧
      ∃ p, (task.run ctx).run.Reaches (u.map Prod.snd) p := by
  induction tasks generalizing S with
  | nil =>
    have hnil : S = [] := List.map_eq_nil_iff.1 (Prog.eq_nil_of_reaches_ret h)
    rw [hnil] at hx
    cases hx
  | cons task tasks ih =>
    rcases Fallible.reaches_bind h with htask | ⟨t₁, _, t₂, hS, htask, hrest⟩
    · exact ⟨[], task, tasks, [], S, [], rfl, (List.append_nil S).symm, hx, ⟨rfl, rfl⟩, htask⟩
    obtain ⟨S₁, S₂, rfl, rfl, rfl⟩ := List.map_eq_append_iff.1 hS
    rcases List.mem_append.1 hx with hx | hx
    · exact ⟨[], task, tasks, [], S₁, S₂, rfl, rfl, hx, ⟨rfl, rfl⟩, _, htask.reaches⟩
    · obtain ⟨done, task', more, T, u, T', rfl, rfl, hu, hdone, hp⟩ := ih hrest hx
      refine ⟨task :: done, task', more, S₁ ++ T, u, T', rfl, by simp, hu, ?_, hp⟩
      rw [List.map_append]
      exact Prog.runs_bind.2 ⟨_, _, _, rfl, htask, hdone⟩

/-- Every event of a loop is one of an iteration. -/
theorem ProcessRun.exists_iteration (run : ProcessRun cfg sdk y signers) {i : ℕ}
    {x : Memory × Service.Event} (hx : x ∈ Env.stepsOf i run.events) :
    ∃ task u, run.Iteration i task u ∧ x ∈ u := by
  have hreaches := run.interleaving.reaches i
  rw [← Env.map_stepsOf] at hreaches
  obtain ⟨done, task, more, T, u, T', hloops, hS, hu, hdone, hp⟩ :=
    runTasks_iterations hreaches hx
  exact ⟨task, u, ⟨done, more, T, T', hloops, hS, hdone, hp⟩, hu⟩

variable (run) in
/-- An iteration that starts with the flag set sends nothing that the fee payer signs. -/
def ProcessRun.SpendsNothingWhenLow : Prop :=
  ∀ i task x u, run.Iteration i task (x :: u) → x.1.feePayerLow = true →
    ∀ e ∈ x :: u, signers.feePayer ∉ e.2.call.signers

variable (run) in
/-- A handler that does not need the fee payer ticks in every iteration, and signs with the keys
of curators only. -/
def ProcessRun.CuratorsGoOn : Prop :=
  ∀ i (handler : HandlerKind) u, handler.requiresFeePayer = false →
    run.Iteration i (.supervise handler) u →
      (∃ p, (handler.tick run.ctx).run.Reaches (u.map Prod.snd) p) ∧
        ∀ e ∈ u, e.2.call.signers ⊆ signers.curators

/-- An iteration of this loop that starts in this memory does not spend from the fee payer: the
warm-keeper has no feed to update, and the fee payer is not one of the curators. -/
def Task.Spares (signers : Signers) (s : Memory) : Task → Prop
  | .swbCrank => s.banks.switchboardPullOracles = []
  | .supervise handler => handler.requiresFeePayer = false → signers.feePayer ∉ signers.curators
  | .solBalance | .bankRefresh | .listMarkets => True

variable (run) in
/-- Every iteration that starts with the flag set does not spend from the fee payer. -/
def ProcessRun.SparesFeePayer : Prop :=
  ∀ i task x u, run.Iteration i task (x :: u) → x.1.feePayerLow = true → task.Spares signers x.1

theorem ProcessRun.Iteration.mem_events {i : ℕ} {task : Task} {u : List (Memory × Service.Event)}
    (h : run.Iteration i task u) {x : Memory × Service.Event} (hx : x ∈ u) :
    (i, x) ∈ run.events := by
  obtain ⟨done, more, T, T', -, hS, -⟩ := h
  have hmem : x ∈ Env.stepsOf i run.events := by
    rw [hS]
    exact List.mem_append_left T' (List.mem_append_right T hx)
  exact Env.mem_of_mem_stepsOf hmem

/-- The event of an iteration is an answer of the memory. -/
theorem ProcessRun.Iteration.allows {i : ℕ} {task : Task} {u : List (Memory × Service.Event)}
    (h : run.Iteration i task u) {x : Memory × Service.Event} (hx : x ∈ u) :
    x.1.Allows x.2.call x.2.reply := by
  have hevent : x ∈ run.events.map Prod.snd :=
    List.mem_map_of_mem (f := Prod.snd) (h.mem_events hx)
  obtain ⟨-, hallow, -⟩ := run.interleaving.timeline.answered hevent
  exact hallow

/-- What an iteration of another loop than the balance loop sends is signed by the loop's keys. -/
theorem ProcessRun.Iteration.signed_by {i : ℕ} {task : Task} {u : List (Memory × Service.Event)}
    (h : run.Iteration i task u) (htask : task ≠ .solBalance) :
    ∀ e ∈ u, e.2.call.signers ⊆ task.keys run.ctx := by
  obtain ⟨done, more, T, T', -, -, -, p, hp⟩ := h
  intro e he
  have hsigned := Prog.Reaches.forall_mem service_reply_nonempty (Task.signs run.ctx htask) hp
  exact (hsigned e.2 (List.mem_map_of_mem he)).2

/-- The balance loop sends nothing. -/
theorem solBalanceLoop_signers {ctx : HandlerContext} {t : Service.Trace} {p : Prog Service _}
    (h : (solBalanceLoop ctx).run.Reaches t p) : ∀ e ∈ t, e.call.signers = [] := by
  have hmakes : Fallible.Makes (I := Service) (fun c => ServiceCall.signers c = [])
      (solBalanceLoop ctx) := by
    refine Fallible.Makes.bind (Fallible.makes_ask rfl) fun r => ?_
    cases r with
    | error e => exact Fallible.makes_pure _
    | ok lamports =>
      refine Fallible.Makes.bind (Fallible.makes_ask rfl) fun wasLow => ?_
      simp only
      split
      · exact Fallible.makes_ask rfl
      · exact Fallible.makes_pure _
  exact Prog.Reaches.forall_mem service_reply_nonempty hmakes h

/-- A supervisor that sees the flag set does nothing more. -/
theorem supervise_paused {ctx : HandlerContext} {handler : HandlerKind}
    (hneeds : handler.requiresFeePayer = true) {e : Service.Event} {t : Service.Trace}
    {p : Prog Service _} (h : (handler.supervise ctx).run.Reaches (e :: t) p) :
    ∃ low, e = ⟨.process .feePayerLow, low⟩ ∧ (low = true → t = []) := by
  unfold HandlerKind.supervise HandlerKind.shouldSkipLowBalance at h
  rw [hneeds] at h
  obtain ⟨low, rfl, h⟩ := h
  refine ⟨low, rfl, ?_⟩
  rintro rfl
  exact Prog.eq_nil_of_reaches_ret h

/-- A warm-keeper that finds no feed does nothing more. -/
theorem swbCrankLoop_idle {ctx : HandlerContext} {e : Service.Event} {t : Service.Trace}
    {p : Prog Service _} (h : (swbCrankLoop ctx).run.Reaches (e :: t) p) :
    ∃ banks, e = ⟨.process .banksRead, banks⟩ ∧
      ∀ registry, banks = some registry → registry.switchboardPullOracles = [] → t = [] := by
  unfold swbCrankLoop at h
  cases hcranker : ctx.swbCranker with
  | none =>
    rw [hcranker] at h
    exact h.elim
  | some cranker =>
    rw [hcranker] at h
    obtain ⟨banks, rfl, h⟩ := h
    refine ⟨banks, rfl, ?_⟩
    rintro registry rfl hnone
    change Prog.Reaches (ExceptT.run (if registry.switchboardPullOracles.isEmpty then _ else _))
      t p at h
    rw [hnone] at h
    exact Prog.eq_nil_of_reaches_ret h

/-- An iteration that starts with the flag set, and spares the fee payer, has it sign nothing. -/
theorem ProcessRun.Iteration.spends_nothing {i : ℕ} {task : Task} {x : Memory × Service.Event}
    {u : List (Memory × Service.Event)} (h : run.Iteration i task (x :: u))
    (hlow : x.1.feePayerLow = true) (hspares : task.Spares signers x.1) :
    ∀ e ∈ x :: u, signers.feePayer ∉ e.2.call.signers := by
  have hctx : run.ctx.signers = signers := run.toLaunch.ctx_eq.2.2.2
  have hkeys : ∀ keys, task ≠ .solBalance → task.keys run.ctx = keys → signers.feePayer ∉ keys →
      ∀ e ∈ x :: u, signers.feePayer ∉ e.2.call.signers := by
    rintro keys htask rfl hpayer e he hmem
    exact hpayer (h.signed_by htask e he hmem)
  have hallow := h.allows List.mem_cons_self
  obtain ⟨done, more, T, T', -, -, -, p, hp⟩ := id h
  obtain ⟨s, e₀⟩ := x
  -- an iteration that makes one call only, and not one that sends
  have halone : e₀.call.signers = [] → u.map Prod.snd = [] →
      ∀ e ∈ (s, e₀) :: u, signers.feePayer ∉ e.2.call.signers := by
    intro hnone hnil e he hmem
    rw [List.map_eq_nil_iff.1 hnil] at he
    cases List.mem_singleton.1 he
    rw [hnone] at hmem
    cases hmem
  cases task with
  | bankRefresh => exact hkeys [] nofun rfl List.not_mem_nil
  | listMarkets => exact hkeys [] nofun rfl List.not_mem_nil
  | solBalance =>
    intro e he hmem
    rw [solBalanceLoop_signers hp e.2 (List.mem_map_of_mem he)] at hmem
    cases hmem
  | swbCrank =>
    obtain ⟨banks, rfl, hidle⟩ := swbCrankLoop_idle hp
    exact halone rfl (hidle s.banks hallow hspares)
  | supervise handler =>
    by_cases hneeds : handler.requiresFeePayer = true
    · obtain ⟨low, rfl, hpaused⟩ := supervise_paused hneeds hp
      exact halone rfl (hpaused (hallow.trans hlow))
    · rw [Bool.not_eq_true] at hneeds
      refine hkeys signers.curators nofun ?_ (hspares hneeds)
      simp [Task.keys, HandlerKind.keys, hneeds, hctx]

/-- A handler that does not need the fee payer ticks in every iteration. -/
theorem ProcessRun.curators_go_on (run : ProcessRun cfg sdk y signers) : run.CuratorsGoOn := by
  intro i handler u hneeds h
  have hctx : run.ctx.signers = signers := run.toLaunch.ctx_eq.2.2.2
  refine ⟨?_, fun e he => ?_⟩
  · obtain ⟨done, more, T, T', -, -, -, p, hp⟩ := h
    change Prog.Reaches (handler.supervise run.ctx).run _ p at hp
    unfold HandlerKind.supervise HandlerKind.shouldSkipLowBalance at hp
    rw [hneeds] at hp
    rcases Fallible.reaches_bind (x := Service.caught (handler.tick run.ctx)) hp with
      ⟨q, hq⟩ | ⟨t₁, _, t₂, ht, htick, hrest⟩
    · exact Fallible.reaches_of_attempt hq
    · obtain rfl := Prog.eq_nil_of_reaches_ret hrest
      rw [ht, List.append_nil]
      exact Fallible.reaches_of_attempt htick.reaches
  · have hkeys := h.signed_by nofun e he
    simp only [Task.keys, HandlerKind.keys, hneeds, hctx] at hkeys
    exact hkeys

/-- **A low fee payer spends nothing**, where the warm-keeper has nothing to do and no curator is
the fee payer.  In every run of the process the flag tracks the balance, and the handler that does
not need the fee payer goes on; as long as the iterations that start with the flag set spare the
fee payer, none of them sends anything it signs. -/
theorem ProcessRun.low_fee_payer_spends_nothing (run : ProcessRun cfg sdk y signers) {b : ℕ}
    (hb : run.BalanceLoop b) (hspares : run.SparesFeePayer) :
    run.TracksBalance b ∧ run.SpendsNothingWhenLow ∧ run.CuratorsGoOn := by
  refine ⟨hb.tracksBalance, fun i task x u h hlow => ?_, run.curators_go_on⟩
  exact h.spends_nothing hlow (hspares i task x u h hlow)

/-- When a loop has one task, all it has done is one iteration. -/
theorem ProcessRun.iteration_of_single {i : ℕ} {task : Task} (h : run.loops i = [task]) :
    run.Iteration i task (Env.stepsOf i run.events) := by
  refine ⟨[], [], [], [], h, by simp, ⟨rfl, rfl⟩, ?_⟩
  have hreaches := run.interleaving.reaches i
  rw [← Env.map_stepsOf, h] at hreaches
  rcases Fallible.reaches_bind hreaches with htask | ⟨t₁, _, t₂, ht, htask, hrest⟩
  · exact htask
  · obtain rfl := Prog.eq_nil_of_reaches_ret hrest
    rw [ht, List.append_nil]
    exact ⟨_, htask.reaches⟩

end Runs

/-! ### A run with a low fee payer -/

/-- A threshold of one lamport. -/
def lowConfig : Config := { sampleConfig with minSignerBalanceLamports := 1 }

/-- A fee payer and one curator. -/
def lowSigners : Signers := ⟨.fill 32 50, [.fill 32 51]⟩

/-- A chain on which the fee payer has no lamports, and a gateway that answers. -/
def lowChain (rows : List (Pubkey × Account)) : (c : ServiceCall) → c.Reply
  | .client (.getBalance _) => .ok 0
  | .client .getLatestBlockhash => .ok default
  | .client (.sendAndConfirmTransaction _) => .ok default
  | .process (.fetchUpdateConsensusIx _ _ _) => .ok ([], [])
  | c => sampleChain rows c

/-- The balance loop, a handler that needs the fee payer, one that does not, and the
warm-keeper. -/
def lowLoops : ℕ → List Task
  | 0 => [.solBalance]
  | 1 => [.supervise .promoter]
  | 2 => [.supervise .curatorFeeClaimer]
  | 3 => [.swbCrank]
  | _ => []

/-- The boot sees these rows; then the balance is read, and the other loops go on. -/
def lowRun (rows : List (Pubkey × Account))
    (h : (bootExec lowConfig .plain .plain lowSigners (lowChain rows)).2.1.isOk = true) :
    ProcessRun lowConfig .plain .plain lowSigners :=
  (Launch.ofBoot _ _ _ _ (lowChain rows) h).interleave (lowChain rows) lowLoops
    [0, 0, 0, 1, 2, 2, 3, 3, 3, 3]

theorem lowRun_balanceLoop (rows : List (Pubkey × Account)) (h) :
    (lowRun rows h).BalanceLoop 0 := by
  intro i task htask
  change task ∈ lowLoops i at htask
  unfold lowLoops at htask
  split at htask <;> simp_all

/-- The first market has a pull feed.  The flag is set, the promoter pauses, and the warm-keeper
sends an update that the fee payer signs. -/
theorem not_low_fee_payer_spends_nothing :
    ¬ ∀ (run : ProcessRun lowConfig .plain .plain lowSigners) (b : ℕ), run.BalanceLoop b →
      run.TracksBalance b ∧ run.SpendsNothingWhenLow ∧ run.CuratorsGoOn := by
  intro h
  let run := lowRun [sampleMarketRow 32 1 2 11 12] (by decide +kernel)
  obtain ⟨-, hspends, -⟩ := h run 0 (lowRun_balanceLoop _ _)
  have hiteration : run.Iteration 3 .swbCrank (Env.stepsOf 3 run.events) :=
    ProcessRun.iteration_of_single rfl
  have hlow : (Env.stepsOf 3 run.events).head?.map (fun x => x.1.feePayerLow) = some true := by
    decide +kernel
  have hsigned : (Env.stepsOf 3 run.events).any
      (fun e => decide (lowSigners.feePayer ∈ e.2.call.signers)) = true := by decide +kernel
  obtain ⟨e, he, hpayer⟩ := List.any_eq_true.1 hsigned
  cases hsteps : Env.stepsOf 3 run.events with
  | nil =>
    rw [hsteps] at he
    cases he
  | cons x u =>
    rw [hsteps] at hiteration hlow he
    exact hspends 3 _ x u hiteration (Option.some.inj hlow) e he (of_decide_eq_true hpayer)

/-- A run that never sees a pull feed spares the fee payer, if that is not a curator. -/
theorem sparesFeePayer_of_all {cfg : Config} {sdk : Sdk} {y : Ydelta} {signers : Signers}
    {run : ProcessRun cfg sdk y signers} (hpayer : signers.feePayer ∉ signers.curators)
    (h : run.events.all (fun x => x.2.1.banks.switchboardPullOracles.isEmpty) = true) :
    run.SparesFeePayer := by
  intro i task x u hiteration _
  have hnone := List.all_eq_true.1 h _ (hiteration.mem_events List.mem_cons_self)
  cases task with
  | swbCrank => exact List.isEmpty_iff.1 hnone
  | supervise handler => exact fun _ => hpayer
  | solBalance => trivial
  | bankRefresh => trivial
  | listMarkets => trivial

/-- No market has a pull feed: the flag is set, the promoter pauses, and the curator fee claimer
goes on. -/
theorem low_fee_payer_spends_nothing_sample :
    (lowRun [sampleMarketRow 32 1 1 11 11] (by decide +kernel)).TracksBalance 0 ∧
      (lowRun [sampleMarketRow 32 1 1 11 11] (by decide +kernel)).SpendsNothingWhenLow ∧
      (lowRun [sampleMarketRow 32 1 1 11 11] (by decide +kernel)).CuratorsGoOn :=
  ProcessRun.low_fee_payer_spends_nothing _ (lowRun_balanceLoop _ _)
    (sparesFeePayer_of_all (by decide) (by decide +kernel))

end YdeltaCrankers
