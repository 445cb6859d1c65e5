import YdeltaCrankers.Process.Memory

/-!
# The market cache keeps its snapshot

`list_markets` and `refresh_markets` share the market cache.  Each of them looks the cache up,
fetches and stores in separate steps, so that any number of calls may be between two steps at any
time, and snapshots expire meanwhile.

* `CallRun` : what one call does, one constructor for each way to end.
* `CacheRun` : a run of any number of calls side by side.
* `CacheRun.keeps_snapshot` (**main theorem**): once a non-empty snapshot is stored, the cache
  always holds one that some fetch returned; no later `list_markets` returns an empty list; and a
  `list_markets` whose fetch fails leaves the cache as it was.
-/

namespace YdeltaCrankers

open Interaction

/-! ### One call -/

/-- A call of a function that shares the market cache. -/
inductive MarketCall where
  | listMarkets
  | refreshMarkets
deriving DecidableEq

namespace MarketCall

variable (chain : ChainReader) (y : Ydelta)

/-- The program of the call. -/
def prog : MarketCall → Async Service (List MarketView)
  | listMarkets => chain.listMarkets y
  | refreshMarkets => chain.refreshMarkets y

/-- What a call does before it fetches: `list_markets` has not found a fresh snapshot. -/
def missed : MarketCall → Service.Trace
  | listMarkets => [⟨.process .marketsCacheGet, none⟩]
  | refreshMarkets => []

end MarketCall

/-- The fetch of a call, with this reply. -/
def fetchEvent (chain : ChainReader) (y : Ydelta)
    (r : Except ClientError (List (Pubkey × Account))) : Service.Event :=
  ⟨.client (.getProgramAccounts chain.programId
    [.memcmp 0 (leBytes 8 y.marketFixedDiscriminant.toNat)]), r⟩

/-- The store of a snapshot. -/
def putEvent (markets : List MarketView) : Service.Event :=
  ⟨.process (.marketsCachePut markets), ()⟩

/-- The runs of a call. -/
inductive CallRun (chain : ChainReader) (y : Ydelta) (call : MarketCall) :
    Service.Trace → Except Failure (List MarketView) → Prop
  /-- A fresh snapshot is there. -/
  | cached {markets : List MarketView} (hcall : call = .listMarkets) :
      CallRun chain y call [⟨.process .marketsCacheGet, some markets⟩] (.ok markets)
  /-- The fetch fails. -/
  | failed {e : ClientError} {err : Failure} :
      CallRun chain y call (call.missed ++ [fetchEvent chain y (.error e)]) (.error err)
  /-- The fetch is empty, and the old snapshot is served if there is one. -/
  | stale {accounts : List (Pubkey × Account)} {r : Option (List MarketView)}
      (hcall : call = .listMarkets) (hempty : y.decodeMarkets accounts = []) :
      CallRun chain y call (call.missed ++ [fetchEvent chain y (.ok accounts),
        ⟨.process .marketsCacheStale, r⟩]) (.ok (r.getD []))
  /-- The fetch is empty, and that is the result. -/
  | empty {accounts : List (Pubkey × Account)} (hcall : call = .refreshMarkets)
      (hempty : y.decodeMarkets accounts = []) :
      CallRun chain y call (call.missed ++ [fetchEvent chain y (.ok accounts)]) (.ok [])
  /-- The snapshot fetched is stored. -/
  | stored {accounts : List (Pubkey × Account)} (hne : y.decodeMarkets accounts ≠ []) :
      CallRun chain y call (call.missed ++ [fetchEvent chain y (.ok accounts),
        putEvent (y.decodeMarkets accounts)]) (.ok (y.decodeMarkets accounts))

section Calls

variable (chain : ChainReader) (y : Ydelta)

/-- What a call does after it has missed the cache. -/
theorem fetchMarkets_bind_spec {α : Type} {f : List MarketView → Async Service α}
    {Q : Service.Trace → Except Failure α → Prop}
    (herr : ∀ e err, Q [fetchEvent chain y (.error e)] (.error err))
    (hok : ∀ accounts, (f (y.decodeMarkets accounts)).Spec fun t r =>
      Q (fetchEvent chain y (.ok accounts) :: t) r) : (chain.fetchMarkets y >>= f).Spec Q := by
  have hfetch : (chain.fetchMarkets y).Spec fun t r =>
      (∃ e err, t = [fetchEvent chain y (.error e)] ∧ r = .error err) ∨
        ∃ accounts, t = [fetchEvent chain y (.ok accounts)] ∧
          r = .ok (y.decodeMarkets accounts) := by
    refine Fallible.spec_ask_bind (fun r e hr => ?_) fun r accounts hr => Fallible.spec_pure ?_
    · cases r with
      | error e' => exact .inl ⟨e', e, rfl, rfl⟩
      | ok accounts => cases hr
    · cases r with
      | error e' => cases hr
      | ok accounts' =>
        cases hr
        exact .inr ⟨accounts, rfl, rfl⟩
  refine Fallible.spec_bind hfetch ?_ ?_
  · rintro t err (⟨e, err', rfl, h⟩ | ⟨accounts, -, h⟩)
    · exact herr e err
    · cases h
  · rintro t markets (⟨e, err', -, h⟩ | ⟨accounts, rfl, h⟩)
    · cases h
    · cases h
      exact hok accounts

/-- **What a call does.** -/
theorem MarketCall.prog_spec (call : MarketCall) :
    (call.prog chain y).Spec (CallRun chain y call) := by
  cases call with
  | listMarkets =>
    refine Fallible.spec_query_bind fun r => ?_
    cases r with
    | some cached => exact Fallible.spec_pure (.cached rfl)
    | none =>
      refine fetchMarkets_bind_spec chain y (fun e err => ?_) fun accounts => ?_
      · exact .failed
      refine Fallible.spec_ite (fun hempty => ?_) fun hne => ?_
      · have hnil : y.decodeMarkets accounts = [] := List.isEmpty_iff.1 hempty
        refine Fallible.spec_query_bind fun r => ?_
        cases r with
        | some markets => exact Fallible.spec_pure (.stale rfl hnil)
        | none =>
          refine Fallible.spec_pure ?_
          rw [hnil]
          exact .stale rfl hnil
      · refine Fallible.spec_query_bind fun _ => Fallible.spec_pure ?_
        exact .stored fun hnil => hne (List.isEmpty_iff.2 hnil)
  | refreshMarkets =>
    refine fetchMarkets_bind_spec chain y (fun e err => ?_) fun accounts => ?_
    · exact .failed
    refine Fallible.spec_ite (fun hempty => Fallible.spec_pure ?_) fun hne => ?_
    · have hnil : y.decodeMarkets accounts = [] := List.isEmpty_iff.1 hempty
      rw [hnil]
      exact .empty rfl hnil
    · refine Fallible.spec_query_bind fun _ => Fallible.spec_pure ?_
      exact .stored fun hnil => hne (List.isEmpty_iff.2 hnil)

end Calls

namespace CallRun

variable {chain : ChainReader} {y : Ydelta} {call : MarketCall} {t t₁ t₂ : Service.Trace}
  {r : Except Failure (List MarketView)} {markets : List MarketView}

/-- The event stores a snapshot. -/
def IsPut (e : Service.Event) : Prop := ∃ markets, e = putEvent markets

theorem not_isPut_missed (call : MarketCall) : ∀ e ∈ call.missed, ¬ IsPut e := by
  intro e he
  cases call with
  | listMarkets =>
    cases List.mem_singleton.1 he
    exact nofun
  | refreshMarkets => exact absurd he List.not_mem_nil

theorem not_isPut_fetchEvent (r : Except ClientError (List (Pubkey × Account))) :
    ¬ IsPut (fetchEvent chain y r) := nofun

/-- A call stores last, and what it has fetched. -/
theorem of_put (h : CallRun chain y call t r) (ht : t = t₁ ++ putEvent markets :: t₂) :
    ∃ accounts, y.decodeMarkets accounts = markets ∧ markets ≠ [] ∧
      t₁ = call.missed ++ [fetchEvent chain y (.ok accounts)] ∧ t₂ = [] := by
  have hput : IsPut (putEvent markets) := ⟨markets, rfl⟩
  have hmem : putEvent markets ∈ t := ht ▸ List.mem_append_right _ List.mem_cons_self
  cases h with
  | cached hcall =>
    cases List.mem_singleton.1 hmem
  | failed =>
    rcases List.mem_append.1 hmem with hmem | hmem
    · exact absurd hput (not_isPut_missed call _ hmem)
    · cases List.mem_singleton.1 hmem
  | stale hcall hempty =>
    rcases List.mem_append.1 hmem with hmem | hmem
    · exact absurd hput (not_isPut_missed call _ hmem)
    · rcases List.mem_cons.1 hmem with hmem | hmem
      · cases hmem
      · cases List.mem_singleton.1 hmem
  | empty hcall hempty =>
    rcases List.mem_append.1 hmem with hmem | hmem
    · exact absurd hput (not_isPut_missed call _ hmem)
    · cases List.mem_singleton.1 hmem
  | @stored accounts hne =>
    -- nothing before the put is one, so that the trace splits there
    have hbefore : ∀ e ∈ call.missed ++ [fetchEvent chain y (.ok accounts)], ¬ IsPut e := by
      refine List.forall_mem_append.2 ⟨not_isPut_missed call, ?_⟩
      intro e he
      cases List.mem_singleton.1 he
      exact not_isPut_fetchEvent _
    rw [List.append_cons] at ht
    rcases split_first hbefore hput ht with ⟨rfl, heq, rfl⟩ | ⟨s, -, hs⟩
    · cases heq
      exact ⟨accounts, rfl, hne, rfl, rfl⟩
    · simp at hs

/-- A call whose fetch fails stores nothing. -/
theorem not_put_of_failed {e : ClientError} (h : CallRun chain y call t r)
    (he : fetchEvent chain y (.error e) ∈ t) : putEvent markets ∉ t := by
  intro hput
  obtain ⟨t₁, t₂, ht⟩ := List.append_of_mem hput
  obtain ⟨accounts, -, -, rfl, rfl⟩ := h.of_put ht
  rw [ht] at he
  simp [fetchEvent, putEvent] at he
  cases call <;> simp [MarketCall.missed] at he

/-- Where the result of `list_markets` comes from. -/
theorem result_of_list (h : CallRun chain y .listMarkets t (.ok markets)) :
    (⟨.process .marketsCacheGet, some markets⟩ : Service.Event) ∈ t ∨
      (∃ r, (⟨.process .marketsCacheStale, r⟩ : Service.Event) ∈ t ∧ markets = r.getD []) ∨
        markets ≠ [] := by
  cases h with
  | cached => exact .inl List.mem_cons_self
  | stale hcall hempty =>
    refine .inr (.inl ⟨_, ?_, rfl⟩)
    exact List.mem_append_right _ (List.mem_cons_of_mem _ List.mem_cons_self)
  | empty hcall => cases hcall
  | stored hne => exact .inr (.inr hne)

end CallRun

/-! ### Calls side by side -/

/-- A run of any number of calls side by side, each of them stopped anywhere. -/
structure CacheRun (chain : ChainReader) (y : Ydelta) (ι : Type) [DecidableEq ι] where
  calls : ι → MarketCall
  start : Memory
  /-- What happened, and in which call. -/
  events : List (ι × Memory × Service.Event)
  /-- What is left of each call. -/
  rest : ι → Prog Service (Except Failure (List MarketView))
  reached : Memory
  interleaving : (Memory.env y).Interleaving (fun i => ((calls i).prog chain y).run) start events
    rest reached

theorem Memory.marketsCache_after (y : Ydelta) (s : Memory) {e : Service.Event}
    (h : ¬ CallRun.IsPut e) : (s.after y e.call e.reply).marketsCache = s.marketsCache := by
  obtain ⟨c, r⟩ := e
  cases c with
  | rpc c => cases c <;> rfl
  | client c => cases c <;> rfl
  | process c =>
    cases c with
    | marketsCachePut markets => exact absurd ⟨markets, rfl⟩ h
    | _ => rfl

namespace CacheRun

variable {chain : ChainReader} {y : Ydelta} {ι : Type} [DecidableEq ι] {run : CacheRun chain y ι}
  {T₁ T₂ : List (ι × Memory × Service.Event)} {i : ι} {s : Memory} {markets : List MarketView}

/-- The events of a call are the beginning of a run of it. -/
theorem callRun (run : CacheRun chain y ι) (i : ι) :
    ∃ t r, CallRun chain y (run.calls i) (Env.eventsOf i run.events ++ t) r := by
  obtain ⟨t, r, hr⟩ := (run.interleaving.reaches i).exists_runs service_reply_nonempty
  exact ⟨t, r, (run.calls i).prog_spec chain y _ r hr⟩

/-- A call that has returned has run to its end. -/
theorem callRun_of_rest {r : Except Failure (List MarketView)} (h : run.rest i = .ret r) :
    CallRun chain y (run.calls i) (Env.eventsOf i run.events) r := by
  have hreach := run.interleaving.reaches i
  rw [h] at hreach
  have hruns := hreach.runs ⟨rfl, rfl⟩
  rw [List.append_nil] at hruns
  exact (run.calls i).prog_spec chain y _ r hruns

/-- What a call stores is what it has fetched. -/
theorem eventsOf_of_put (hT : run.events = T₁ ++ (i, s, putEvent markets) :: T₂) :
    ∃ accounts, y.decodeMarkets accounts = markets ∧ markets ≠ [] ∧
      Env.eventsOf i T₁ = (run.calls i).missed ++ [fetchEvent chain y (.ok accounts)] ∧
        Env.eventsOf i T₂ = [] := by
  obtain ⟨t, r, hrun⟩ := run.callRun i
  rw [hT, Env.eventsOf_append, Env.eventsOf_cons_self, List.append_assoc, List.cons_append] at hrun
  obtain ⟨accounts, hrows, hne, h₁, h₂⟩ := hrun.of_put rfl
  exact ⟨accounts, hrows, hne, h₁, (List.append_eq_nil_iff.1 h₂).1⟩

/-- The rows are what some fetch of the run has returned. -/
def Fetched (run : CacheRun chain y ι) (markets : List MarketView) : Prop :=
  ∃ i s accounts, (i, s, fetchEvent chain y (.ok accounts)) ∈ run.events ∧
    y.decodeMarkets accounts = markets

theorem fetched_of_put (h : (i, s, putEvent markets) ∈ run.events) :
    run.Fetched markets ∧ markets ≠ [] := by
  obtain ⟨T₁, T₂, hT⟩ := List.append_of_mem h
  obtain ⟨accounts, hrows, hne, h₁, -⟩ := eventsOf_of_put hT
  have hmem : fetchEvent chain y (.ok accounts) ∈ Env.eventsOf i T₁ :=
    h₁ ▸ List.mem_append_right _ List.mem_cons_self
  obtain ⟨s', hs'⟩ := Env.mem_eventsOf.1 hmem
  exact ⟨⟨i, s', accounts, hT ▸ List.mem_append_left _ hs', hrows⟩, hne⟩

/-- The cache holds a snapshot that is not empty and that some fetch has returned. -/
def Keeps (run : CacheRun chain y ι) (s : Memory) : Prop :=
  ∃ c, s.marketsCache = some c ∧ c.markets ≠ [] ∧ run.Fetched c.markets

/-- A snapshot once stored, the cache keeps one from then on. -/
theorem keeps_since (hT : run.events = T₁ ++ (i, s, putEvent markets) :: T₂) :
    (∀ x ∈ T₂, run.Keeps x.2.1) ∧ run.Keeps run.reached := by
  have hstored : ∀ {j s' markets'} (s'' : Memory), (j, s', putEvent markets') ∈ run.events →
      s'' = s'.after y (putEvent markets').call (putEvent markets').reply → run.Keeps s'' := by
    rintro j s' markets' _ hmem rfl
    obtain ⟨hfetched, hne⟩ := fetched_of_put hmem
    exact ⟨_, rfl, hne, hfetched⟩
  have hsplit : run.events.map Prod.snd =
      T₁.map Prod.snd ++ (s, putEvent markets) :: T₂.map Prod.snd := by
    rw [hT, List.map_append, List.map_cons]
  have hmem : (i, s, putEvent markets) ∈ run.events :=
    hT ▸ List.mem_append_right _ List.mem_cons_self
  have hanswer : ∀ s₁ e s₂, run.Keeps s₁ → (Memory.env y).answer s₁ e.call e.reply s₂ →
      (s₁, e) ∈ T₂.map Prod.snd → run.Keeps s₂ := by
    rintro s₁ e s₂ ⟨c, hc, h⟩ ⟨-, rfl⟩ he
    obtain ⟨⟨j, s', e'⟩, hx, heq⟩ := List.mem_map.1 he
    cases heq
    by_cases hput : CallRun.IsPut e
    · obtain ⟨markets', rfl⟩ := hput
      exact hstored _ (hT ▸ List.mem_append_right _ (List.mem_cons_of_mem _ hx)) rfl
    · exact ⟨c, (Memory.marketsCache_after y s₁ hput).trans hc, h⟩
  have hsince := run.interleaving.timeline.since (P := run.Keeps) hsplit
    (fun s₂ ha => hstored s₂ hmem ha.2)
    (fun s₁ _ ⟨c, hc, h⟩ ⟨clock, _, hs⟩ => hs ▸ ⟨c, hc, h⟩) hanswer
  exact ⟨fun x hx => hsince.1 x.2 (List.mem_map_of_mem hx), hsince.2⟩

/-- A `list_markets` that begins when a snapshot has been stored returns markets. -/
theorem ne_nil_of_later (hT : run.events = T₁ ++ (i, s, putEvent markets) :: T₂) {j : ι}
    {result : List MarketView} (hcall : run.calls j = .listMarkets)
    (hlater : Env.eventsOf j T₁ = []) (hresult : run.rest j = .ret (.ok result)) :
    result ≠ [] := by
  have hrun := run.callRun_of_rest hresult
  rw [hcall] at hrun
  -- a lookup of the call comes after the store, and so it finds what the cache keeps
  have hlookup : ∀ e ∈ Env.eventsOf j run.events, ¬ CallRun.IsPut e →
      ∃ s', run.Keeps s' ∧ s'.Allows e.call e.reply := by
    intro e he hput
    obtain ⟨s', hmem⟩ := Env.mem_eventsOf.1 he
    obtain ⟨s₂, hallow, -⟩ := run.interleaving.timeline.answered (List.mem_map_of_mem hmem)
    rw [hT, List.mem_append, List.mem_cons] at hmem
    rcases hmem with hmem | hmem | hmem
    · have hnot := Env.mem_eventsOf.2 ⟨s', hmem⟩
      rw [hlater] at hnot
      exact absurd hnot List.not_mem_nil
    · cases hmem
      exact absurd ⟨markets, rfl⟩ hput
    · exact ⟨s', (keeps_since hT).1 _ hmem, hallow⟩
  rcases hrun.result_of_list with hget | ⟨r, hstale, rfl⟩ | hne
  · obtain ⟨s', ⟨c, hc, hne, -⟩, hallow⟩ := hlookup _ hget nofun
    have hfresh : some result = MarketCache.fresh s'.marketsCache s'.clock := hallow
    obtain ⟨c', hc', rfl⟩ := MarketCache.fresh_eq_some hfresh.symm
    rw [hc] at hc'
    cases hc'
    exact hne
  · obtain ⟨s', ⟨c, hc, hne, -⟩, hallow⟩ := hlookup _ hstale nofun
    have hstale : r = MarketCache.stale s'.marketsCache := hallow
    rw [hstale, hc]
    exact hne
  · exact hne

/-- **The market cache keeps its snapshot.** -/
theorem keeps_snapshot (run : CacheRun chain y ι) :
    (∀ T₁ i s markets T₂, run.events = T₁ ++ (i, s, putEvent markets) :: T₂ → markets ≠ [] →
      ((∀ x ∈ T₂, run.Keeps x.2.1) ∧ run.Keeps run.reached) ∧
        ∀ j result, run.calls j = .listMarkets → Env.eventsOf j T₁ = [] →
          run.rest j = .ret (.ok result) → result ≠ []) ∧
    ∀ i e, run.calls i = .listMarkets → fetchEvent chain y (.error e) ∈ Env.eventsOf i run.events →
      ∀ s e', (i, s, e') ∈ run.events →
        (s.after y e'.call e'.reply).marketsCache = s.marketsCache := by
  constructor
  · intro T₁ i s markets T₂ hT _
    exact ⟨keeps_since hT, fun j result => ne_nil_of_later hT⟩
  · intro i e _ he s e' hmem
    refine Memory.marketsCache_after y s ?_
    rintro ⟨markets, rfl⟩
    obtain ⟨t, r, hrun⟩ := run.callRun i
    exact hrun.not_put_of_failed (List.mem_append_left t he)
      (List.mem_append_left t (Env.mem_eventsOf.2 ⟨s, hmem⟩))

/-! ### A computed run -/

/-- The run from an empty cache in which the calls take turns as the schedule says; the chain
replies as it does when these rows have been fetched. -/
def compute (chain : ChainReader) (y : Ydelta) (calls : ι → MarketCall) (schedule : List ι)
    (accounts : List MarketView → Except ClientError (List (Pubkey × Account))) :
    CacheRun chain y ι :=
  let reply : Memory → (c : ServiceCall) → c.Reply := fun s => s.reply fun
    | .client (.getProgramAccounts _ _) => accounts s.fetched
    | c => c.refused
  let out := Env.scheduled reply (Memory.after y) schedule
    (fun i => ((calls i).prog chain y).run) (Memory.start 0)
  { calls := calls
    start := Memory.start 0
    events := out.1
    rest := out.2.1
    reached := out.2.2
    interleaving := Env.interleaving_scheduled (E := Memory.env y)
      (fun s c => ⟨s.allows_reply _ c, rfl⟩) schedule _ _ }

/-- The snapshot the event stores. -/
def storedRows : Service.Event → Option (List MarketView)
  | ⟨.process (.marketsCachePut markets), _⟩ => some markets
  | _ => none

theorem eq_putEvent {e : Service.Event} (h : storedRows e = some markets) :
    e = putEvent markets := by
  unfold storedRows at h
  split at h
  · cases h
    rfl
  · cases h

/-- An event of a run, with what comes before and after it. -/
theorem events_split {n : ℕ} (h : (run.events.map fun x => (x.1, storedRows x.2.2))[n]? =
    some (i, some markets)) : ∃ s, run.events =
      run.events.take n ++ (i, s, putEvent markets) :: run.events.drop (n + 1) := by
  rw [List.getElem?_map, Option.map_eq_some_iff] at h
  obtain ⟨⟨j, s, e⟩, hx, heq⟩ := h
  obtain ⟨rfl, hrows⟩ := Prod.mk.inj heq
  obtain ⟨hn, hx⟩ := List.getElem?_eq_some_iff.1 hx
  refine ⟨s, ?_⟩
  rw [← eq_putEvent hrows, ← hx, ← List.drop_eq_getElem_cons hn, List.take_append_drop]

/-- The event is a fetch that fails. -/
def failsToFetch : Service.Event → Bool
  | ⟨.client (.getProgramAccounts _ _), .error _⟩ => true
  | _ => false

theorem eq_fetchEvent {e : Service.Event} (h : e ∈ Env.eventsOf i run.events)
    (he : failsToFetch e = true) : ∃ err, e = fetchEvent chain y (.error err) := by
  obtain ⟨t, r, hrun⟩ := run.callRun i
  have hmem := List.mem_append_left t h
  -- what the call has done so far is a part of what it would do
  generalize Env.eventsOf i run.events ++ t = t' at hrun hmem
  have hmissed : ∀ {call : MarketCall}, e ∉ call.missed := by
    intro call hmem
    cases call with
    | listMarkets =>
      cases List.mem_singleton.1 hmem
      cases he
    | refreshMarkets => exact List.not_mem_nil hmem
  cases hrun with
  | cached =>
    cases List.mem_singleton.1 hmem
    cases he
  | @failed err _ =>
    rcases List.mem_append.1 hmem with hmem | hmem
    · exact absurd hmem hmissed
    · exact ⟨err, List.mem_singleton.1 hmem⟩
  | stale =>
    rcases List.mem_append.1 hmem with hmem | hmem
    · exact absurd hmem hmissed
    · rcases List.mem_pair.1 hmem with rfl | rfl <;> cases he
  | empty =>
    rcases List.mem_append.1 hmem with hmem | hmem
    · exact absurd hmem hmissed
    · cases List.mem_singleton.1 hmem
      cases he
  | stored =>
    rcases List.mem_append.1 hmem with hmem | hmem
    · exact absurd hmem hmissed
    · rcases List.mem_pair.1 hmem with rfl | rfl <;> cases he

/-- There are three calls in the samples. -/
instance : NeZero 3 := ⟨by decide⟩

/-- A `list_markets` misses the cache, a refresh stores a snapshot, the fetch of the first call
fails, and another `list_markets` is called. -/
def sample : CacheRun ⟨.fill 32 9⟩ .plain (Fin 3) :=
  compute _ _ (fun i => if i = 1 then .refreshMarkets else .listMarkets) [0, 1, 1, 0, 2] fun
    | [] => .ok [sampleMarketRow 32 1 2 11 12]
    | _ => .error ⟨.io "connection reset", "connection reset"⟩

theorem keeps_snapshot_sample : sample.Keeps sample.reached ∧
    (∀ result, sample.rest 2 = .ret (.ok result) → result ≠ []) ∧
    ∀ s e, (0, s, e) ∈ sample.events →
      (s.after .plain e.call e.reply).marketsCache = s.marketsCache := by
  have hevents : ∃ markets ≠ [], (sample.events.map fun x => (x.1, storedRows x.2.2))[2]? =
      some (1, some markets) :=
    ⟨Ydelta.plain.decodeMarkets [sampleMarketRow 32 1 2 11 12], by decide +kernel,
      by decide +kernel⟩
  obtain ⟨markets, hne, hevent⟩ := hevents
  obtain ⟨s, hT⟩ := events_split hevent
  have hkeeps := (keeps_snapshot sample).1 _ _ s markets _ hT hne
  have hlater : Env.eventsOf 2 (sample.events.take 2) = [] := by
    have hlength : (Env.eventsOf 2 (sample.events.take 2)).length = 0 := by rfl
    exact List.eq_nil_of_length_eq_zero hlength
  have hfailed : (Env.eventsOf 0 sample.events).any failsToFetch = true := by decide +kernel
  obtain ⟨e, he, hfails⟩ := List.any_eq_true.1 hfailed
  obtain ⟨err, rfl⟩ := eq_fetchEvent he hfails
  exact ⟨hkeeps.1.2, fun result => hkeeps.2 2 result rfl hlater,
    (keeps_snapshot sample).2 0 err rfl he⟩

end CacheRun

end YdeltaCrankers
