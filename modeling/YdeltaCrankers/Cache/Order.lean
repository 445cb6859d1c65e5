import YdeltaCrankers.Cache.Retention

/-!
# The market cache and the order of fetches

A call fetches outside of the lock and stores afterwards, so that two calls can store in the other
order than the chain served them.  Nothing compares the two: the cache holds the snapshot stored
last.

**Main theorem** (`CacheRun.cache_asNewAs`): as long as no fetch that was served before another one
is stored after it, the cache holds that other snapshot or a later one, and this is what
`list_markets` returns.  When two fetches cross, the cache goes back in time
(`CacheRun.not_neverGoesBack`).
-/

namespace YdeltaCrankers

open Interaction

namespace CacheRun

variable {chain : ChainReader} {y : Ydelta} {ι : Type} [DecidableEq ι] {run : CacheRun chain y ι}
  {i : ι} {n k : ℕ} {rows : List MarketView}

/-! ### Positions -/

/-- The chain serves the fetch of call `i` as event `n`. -/
def ServedAt (run : CacheRun chain y ι) (n : ℕ) (i : ι) (rows : List MarketView) : Prop :=
  ∃ s accounts, run.events[n]? = some (i, s, fetchEvent chain y (.ok accounts)) ∧
    y.decodeMarkets accounts = rows

/-- Call `i` stores its snapshot as event `n`. -/
def StoredAt (run : CacheRun chain y ι) (n : ℕ) (i : ι) (rows : List MarketView) : Prop :=
  ∃ s, run.events[n]? = some (i, s, putEvent rows)

/-- What is stored was served before. -/
theorem StoredAt.served (h : run.StoredAt n i rows) : ∃ m < n, run.ServedAt m i rows := by
  obtain ⟨s, hs⟩ := h
  obtain ⟨hn, hget⟩ := List.getElem?_eq_some_iff.1 hs
  have hT : run.events = run.events.take n ++ (i, s, putEvent rows) :: run.events.drop (n + 1) := by
    rw [← hget, ← List.drop_eq_getElem_cons hn, List.take_append_drop]
  obtain ⟨accounts, hrows, -, hevents, -⟩ := eventsOf_of_put hT
  have hmem : fetchEvent chain y (.ok accounts) ∈ Env.eventsOf i (run.events.take n) :=
    hevents ▸ List.mem_append_right _ List.mem_cons_self
  obtain ⟨s', hs'⟩ := Env.mem_eventsOf.1 hmem
  obtain ⟨m, hm⟩ := List.mem_iff_getElem?.1 hs'
  rw [List.getElem?_take] at hm
  split at hm
  · exact ⟨m, ‹_›, s', accounts, hm, hrows⟩
  · cases hm

/-- The rows were served no earlier than event `n`, and a call stored them before event `k`. -/
def AsNewAs (run : CacheRun chain y ι) (n k : ℕ) (rows : List MarketView) : Prop :=
  ∃ i n' m, run.ServedAt n' i rows ∧ run.StoredAt m i rows ∧ n ≤ n' ∧ m < k

end CacheRun

/-! ### The snapshot stored last -/

/-- If a timeline stores a snapshot, the cache holds the one it stores last. -/
theorem last_stored {y : Ydelta} {s s' : Memory} {T : List (Memory × Service.Event)}
    (hT : (Memory.env y).Timeline s T s') (hput : ∃ x ∈ T, CallRun.IsPut x.2) :
    ∃ (n : ℕ) (s₀ : Memory) (rows : List MarketView), T[n]? = some (s₀, putEvent rows) ∧
      (∀ m x, n < m → T[m]? = some x → ¬ CallRun.IsPut x.2) ∧
        s'.marketsCache = some ⟨s₀.clock, rows⟩ := by
  obtain ⟨T₁, ⟨s₀, e⟩, T₂, rfl, ⟨rows, rfl⟩, hlast⟩ := Env.exists_last hput
  have hcache := (hT.since (P := fun s => s.marketsCache = some ⟨s₀.clock, rows⟩) rfl
    (fun s₂ ha => by rw [ha.2]; rfl) (fun s₁ _ h ⟨clock, _, hs⟩ => hs ▸ h) ?_).2
  · refine ⟨T₁.length, s₀, rows, ?_, fun m x hm hx => ?_, hcache⟩
    · simp
    · -- after the last store there is none
      rw [List.getElem?_append_right hm.le] at hx
      obtain ⟨m', hm'⟩ : ∃ m', m - T₁.length = m' + 1 := ⟨m - T₁.length - 1, by omega⟩
      rw [hm', List.getElem?_cons_succ] at hx
      exact hlast x (List.mem_of_getElem? hx)
  · rintro s₁ e s₂ h ⟨-, rfl⟩ he
    exact (Memory.marketsCache_after y s₁ (hlast (s₁, e) he)).trans h

namespace CacheRun

variable {chain : ChainReader} {y : Ydelta} {ι : Type} [DecidableEq ι] {run : CacheRun chain y ι}
  {i : ι} {n m k : ℕ} {rows : List MarketView}

/-- No fetch that was served before event `n` is stored after event `m`. -/
def NoneOvertakes (run : CacheRun chain y ι) (n m : ℕ) : Prop :=
  ∀ i n' m' rows, run.ServedAt n' i rows → run.StoredAt m' i rows → n' < n → m' < m

/-- What the cache holds when `k` events have happened, one of them the store of event `m`. -/
theorem cache_of_stored {s : Memory}
    (hT : (Memory.env y).Timeline run.start ((run.events.take k).map Prod.snd) s)
    (hstored : run.StoredAt m i rows) (hm : m < k) (hnone : run.NoneOvertakes n m) :
    ∃ c, s.marketsCache = some c ∧ run.AsNewAs n k c.markets := by
  obtain ⟨s₀, hs₀⟩ := hstored
  have hput : (run.events.take k)[m]? = some (i, s₀, putEvent rows) := by
    rw [List.getElem?_take_of_lt hm, hs₀]
  obtain ⟨m', s₁, rows', hm', hlast, hcache⟩ := last_stored hT
    ⟨(s₀, putEvent rows), List.mem_map_of_mem (List.mem_of_getElem? hput), rows, rfl⟩
  rw [List.getElem?_map, Option.map_eq_some_iff] at hm'
  obtain ⟨⟨j, x⟩, hx, rfl⟩ := hm'
  have hlt : m' < k := by
    by_contra hge
    rw [List.getElem?_take_eq_none (not_lt.1 hge)] at hx
    cases hx
  rw [List.getElem?_take_of_lt hlt] at hx
  have hstored' : run.StoredAt m' j rows' := ⟨s₁, hx⟩
  obtain ⟨n', -, hserved⟩ := hstored'.served
  refine ⟨_, hcache, j, n', m', hserved, hstored', ?_, hlt⟩
  -- a last store of an older fetch would come before the store of event `m`
  by_contra hold
  have hlater := hnone j n' m' rows' hserved hstored' (not_le.1 hold)
  have hstore : ((run.events.take k).map Prod.snd)[m]? = some (s₀, putEvent rows) := by
    rw [List.getElem?_map, hput]
    rfl
  exact hlast m _ hlater hstore ⟨rows, rfl⟩

/-- **The cache is as new as the fetches allow.**  If a fetch is stored as event `m`, and none that
was served before event `n` is stored after it, the cache holds from then on a snapshot served as
event `n` or later, and a `list_markets` that it answers returns such a snapshot.  Event `n` can be
the fetch stored as event `m`, whatever was served and stored before. -/
theorem cache_asNewAs (run : CacheRun chain y ι) {n m : ℕ} {i : ι} {rows : List MarketView}
    (hstored : run.StoredAt m i rows) (hnone : run.NoneOvertakes n m) :
    (∃ c, run.reached.marketsCache = some c ∧ run.AsNewAs n run.events.length c.markets) ∧
      ∀ k j s cached, m < k →
        run.events[k]? = some (j, s, ⟨.process .marketsCacheGet, some cached⟩) →
          run.AsNewAs n k cached := by
  constructor
  · have hm : m < run.events.length := by
      obtain ⟨s, hs⟩ := hstored
      exact (List.getElem?_eq_some_iff.1 hs).1
    refine cache_of_stored ?_ hstored hm hnone
    rw [List.take_length]
    exact run.interleaving.timeline
  · intro k j s cached hm hget
    have hevent : (run.events.map Prod.snd)[k]? =
        some (s, ⟨.process .marketsCacheGet, some cached⟩) := by
      rw [List.getElem?_map, hget]
      rfl
    have hT := run.interleaving.timeline.take hevent
    rw [← List.map_take] at hT
    obtain ⟨c, hc, hnew⟩ := cache_of_stored hT hstored hm hnone
    obtain ⟨s₂, hallow, -⟩ :=
      run.interleaving.timeline.answered (List.mem_of_getElem? hevent)
    have hfresh : some cached = MarketCache.fresh s.marketsCache s.clock := hallow
    obtain ⟨c', hc', rfl⟩ := MarketCache.fresh_eq_some hfresh.symm
    rw [hc] at hc'
    cases hc'
    exact hnew

/-! ### Two fetches that cross -/

/-- When a fetch and a later one have both been stored, the cache holds the snapshot of the later
one or a still later one, and `list_markets` returns such a snapshot while it is fresh. -/
def NeverGoesBack (run : CacheRun chain y ι) : Prop :=
  ∀ iA iB nA nB mA mB rowsA rowsB, run.ServedAt nA iA rowsA → run.ServedAt nB iB rowsB →
    rowsA ≠ [] → rowsB ≠ [] → nA < nB → run.StoredAt mA iA rowsA → run.StoredAt mB iB rowsB →
      (∃ c, run.reached.marketsCache = some c ∧ run.AsNewAs nB run.events.length c.markets) ∧
        ∀ k j s cached, mA < k → mB < k →
          run.events[k]? = some (j, s, ⟨.process .marketsCacheGet, some cached⟩) →
            run.AsNewAs nB k cached

/-- The rows the event fetches. -/
def servedRows (y : Ydelta) : Service.Event → Option (List MarketView)
  | ⟨.client (.getProgramAccounts _ _), .ok accounts⟩ => some (y.decodeMarkets accounts)
  | _ => none

theorem ServedAt.servedRows (h : run.ServedAt n i rows) :
    (run.events.map fun x => (x.1, servedRows y x.2.2))[n]? = some (i, some rows) := by
  obtain ⟨s, accounts, hs, rfl⟩ := h
  rw [List.getElem?_map, hs]
  rfl

theorem storedAt_of_storedRows (h : (run.events.map fun x => (x.1, storedRows x.2.2))[n]? =
    some (i, some rows)) : run.StoredAt n i rows := by
  rw [List.getElem?_map, Option.map_eq_some_iff] at h
  obtain ⟨⟨j, s, e⟩, hx, heq⟩ := h
  obtain ⟨rfl, hrows⟩ := Prod.mk.inj heq
  exact ⟨s, eq_putEvent hrows ▸ hx⟩

/-- An account layout with the pause flag behind the four keys of a market. -/
def pausable : Ydelta :=
  { Ydelta.plain with
    castMarketFixed := fun data => { Ydelta.plain.castMarketFixed data with
      isPaused := data.getD 136 0 }
    marketFixedSize := 137 }

/-- The account of a market with this pause flag. -/
def pausableRow (isPaused : UInt8) : Pubkey × Account :=
  ((sampleMarketRow 32 1 2 11 12).1,
    ⟨.fill 32 9, (sampleMarketRow 32 1 2 11 12).2.data ++ [isPaused]⟩)

/-- A refresh fetches; the market is paused; another refresh fetches and stores; the first one
stores; `list_markets` is called. -/
def crossing : CacheRun ⟨.fill 32 9⟩ pausable (Fin 3) :=
  compute _ _ (fun i => if i = 2 then .listMarkets else .refreshMarkets) [0, 1, 1, 0, 2] fun
    | [] => .ok [pausableRow 0]
    | _ => .ok [pausableRow 1]

/-- Of five events, calls 0 and 1 are served in the first two. -/
theorem served_first {α : Type} {a b rows : α} {i j₁ j₂ j₃ : Fin 3} {n : ℕ}
    (h : ([(0, some a), (1, some b), (j₁, none), (j₂, none), (j₃, none)] :
      List (Fin 3 × Option α))[n]? = some (i, some rows)) :
    n = 0 ∧ i = 0 ∨ n = 1 ∧ i = 1 ∧ rows = b := by
  rcases n with _ | _ | _ | _ | _ | n
  · cases h
    exact .inl ⟨rfl, rfl⟩
  · cases h
    exact .inr ⟨rfl, rfl, rfl⟩
  all_goals cases h

/-- The first fetch is stored last: the cache shows the market as open again. -/
theorem not_neverGoesBack : ¬ crossing.NeverGoesBack := by
  let openRows := pausable.decodeMarkets [pausableRow 0]
  let pausedRows := pausable.decodeMarkets [pausableRow 1]
  have hserved : (crossing.events.map fun x => (x.1, servedRows pausable x.2.2)) =
      [(0, some openRows), (1, some pausedRows), (1, none), (0, none), (2, none)] := by
    decide +kernel
  have hA : crossing.StoredAt 3 0 openRows := storedAt_of_storedRows (by decide +kernel)
  have hB : crossing.StoredAt 2 1 pausedRows := storedAt_of_storedRows (by decide +kernel)
  have hcache : crossing.reached.marketsCache.map MarketCache.markets = some openRows := by
    decide +kernel
  have hopen : openRows ≠ [] := by decide +kernel
  have hpaused : pausedRows ≠ [] := by decide +kernel
  have hne : openRows ≠ pausedRows := by decide +kernel
  -- only the first two events serve rows that decode to markets
  have honly : ∀ {n i rows}, crossing.ServedAt n i rows →
      n = 0 ∧ i = 0 ∨ n = 1 ∧ i = 1 ∧ rows = pausedRows := fun h =>
    served_first (hserved ▸ h.servedRows)
  intro hnever
  obtain ⟨nA, -, hservedA⟩ := hA.served
  obtain ⟨nB, -, hservedB⟩ := hB.served
  have hnA : nA = 0 := by
    rcases honly hservedA with ⟨h, -⟩ | ⟨-, h, -⟩
    · exact h
    · cases h
  have hnB : nB = 1 := by
    rcases honly hservedB with ⟨-, h⟩ | ⟨h, -, -⟩
    · cases h
    · exact h
  subst hnA hnB
  obtain ⟨⟨c, hc, i, n, m, hs, -, hle, -⟩, -⟩ :=
    hnever 0 1 0 1 3 2 _ _ hservedA hservedB hopen hpaused Nat.zero_lt_one hA hB
  rw [hc] at hcache
  rcases honly hs with ⟨rfl, -⟩ | ⟨-, -, hrows⟩
  · exact absurd hle (by decide)
  · exact hne ((Option.some.inj hcache).symm.trans hrows)

/-- With the stores in the order of the fetches, the cache holds the paused market. -/
def inOrder : CacheRun ⟨.fill 32 9⟩ pausable (Fin 3) :=
  compute _ _ (fun i => if i = 2 then .listMarkets else .refreshMarkets) [0, 1, 0, 1, 2] fun
    | [] => .ok [pausableRow 0]
    | _ => .ok [pausableRow 1]

theorem cache_asNewAs_sample : ∃ c, inOrder.reached.marketsCache = some c ∧
    inOrder.AsNewAs 1 inOrder.events.length c.markets := by
  let openRows := pausable.decodeMarkets [pausableRow 0]
  let pausedRows := pausable.decodeMarkets [pausableRow 1]
  have hserved : (inOrder.events.map fun x => (x.1, servedRows pausable x.2.2)) =
      [(0, some openRows), (1, some pausedRows), (0, none), (1, none), (2, none)] := by
    decide +kernel
  have hlast : ((inOrder.events.map fun x => (x.1, storedRows x.2.2)).drop 3).all
      (fun x => decide (x.1 ≠ 0)) = true := by decide +kernel
  have hB : inOrder.StoredAt 3 1 pausedRows := storedAt_of_storedRows (by decide +kernel)
  have hnone : inOrder.NoneOvertakes 1 3 := by
    intro i n m rows hs ⟨s, hm⟩ hn
    obtain rfl : i = 0 := by
      rcases served_first (hserved ▸ hs.servedRows) with ⟨-, h⟩ | ⟨rfl, -, -⟩
      · exact h
      · exact absurd hn (by decide)
    -- call 0 makes no call from event 3 on
    by_contra hge
    obtain ⟨d, rfl⟩ := Nat.exists_eq_add_of_le (not_lt.1 hge)
    have hmem : (0, storedRows (putEvent rows)) ∈
        (inOrder.events.map fun x => (x.1, storedRows x.2.2)).drop 3 := by
      refine List.mem_iff_getElem?.2 ⟨d, ?_⟩
      rw [List.getElem?_drop, List.getElem?_map, hm]
      rfl
    exact of_decide_eq_true (List.all_eq_true.1 hlast _ hmem) rfl
  exact (cache_asNewAs inOrder hB hnone).1

end CacheRun

end YdeltaCrankers
