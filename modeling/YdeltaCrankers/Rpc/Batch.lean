import YdeltaCrankers.Interaction.JoinSet
import YdeltaCrankers.Rpc.Basic

/-!
# `src/rpc.rs`: batched account reads

`batch_get_multiple_accounts` splits the addresses into chunks, spawns a task for each chunk and
writes the rows of a chunk to their place in the output when its task is joined.  At most
`maxConcurrency` tasks hold a permit of the semaphore; it is never closed, so that waiting for a
permit does not fail.

The tasks run side by side (`Interaction.JoinSet`).  An early return drops the set, and tokio
aborts the tasks in it; here they go on, and nobody sees them any more.

* `Rpc.Answers` : what is known of `getMultipleAccounts`.
* `Rpc.Collecting` : the invariant of the joins: the output is, chunk by chunk, the rows that were
  joined and `none` elsewhere.
* `Rpc.batchGetMultipleAccounts_exact` : the run ends whatever the order of the tasks, with the
  rows of all addresses in the order of the addresses, or with an error when a task failed.
-/

namespace YdeltaCrankers

open Interaction

namespace Rpc

/-- `CHUNK_SIZE`. -/
def chunkSize : ℕ := 100

/-- `MAX_CONCURRENCY`. -/
def maxConcurrency : ℕ := 16

/-- `xs.chunks(size)`. -/
def chunks {α : Type} (size : ℕ) (xs : List α) : List (List α) :=
  (List.range ((xs.length + size - 1) / size)).map fun i => (xs.drop (i * size)).take size

/-- What a chunk task ends with; a panic is what the parent gets as a `JoinError`. -/
abbrev ChunkResult := Except Failure (ℕ × List (Option Account))

/-- The calls of a program with a set of chunk tasks. -/
abbrev ChunkSet : Interface := JoinSet Client ChunkResult

/-- The task of a chunk, once it has its permit. -/
def chunkTask (idx : ℕ) (chunk : List Pubkey) : Async Client (ℕ × List (Option Account)) := do
  let res ← Client.ask (.getMultipleAccounts chunk)
    (orClientErrorWith s!"batch_get_multiple_accounts chunk {idx}")
  return (idx, res)

/-- `output[base + j] = acct` for every account. -/
def writeRows : List (Option Account) → ℕ → List (Option Account) →
    Except Failure (List (Option Account))
  | output, _, [] => .ok output
  | output, base, acct :: accounts =>
    if base < output.length then writeRows (output.set base acct) (base + 1) accounts
    else .error (.panic "index out of bounds")

/-- `joined.map_err(..)??`. -/
def joinedRows : ChunkResult → Except Error (ℕ × List (Option Account))
  | .ok rows => .ok rows
  | .error (.error e) => .error e
  | .error (.panic e) => .error (.anyhow s!"batch_get_multiple_accounts task panicked: {e}")

/-- Spawn the tasks. -/
def spawnChunks : List (List Pubkey × ℕ) → Async ChunkSet Unit
  | [] => return ()
  | (chunk, idx) :: rest => do
    let () ← @Fallible.query ChunkSet Failure (.spawn (chunkTask idx chunk).run)
    spawnChunks rest

/-- Join the `left` tasks that are left in the set. -/
def collect : ℕ → List (Option Account) → Async ChunkSet (List (Option Account))
  | 0, output => do
    match ← @Fallible.query ChunkSet Failure .joinNext with
    | none => return output
    | some _ => throw (.panic "more tasks than were spawned")
  | left + 1, output => do
    match ← @Fallible.query ChunkSet Failure .joinNext with
    | none => return output
    | some joined => do
      let (idx, accounts) ← liftError (joinedRows joined)
      let output ← liftExcept (writeRows output (idx * chunkSize) accounts)
      collect left output

/-- The accounts at the addresses, in their order. -/
def batchGetMultipleAccounts (addresses : List Pubkey) :
    Async ChunkSet (List (Option Account)) :=
  if addresses.isEmpty then return []
  else do
    let chunks := chunks chunkSize addresses
    let () ← spawnChunks chunks.zipIdx
    collect chunks.length (List.replicate addresses.length none)

/-! ### Chunks -/

section Chunks

variable {α : Type} {size : ℕ} {xs : List α}

theorem flatten_range_chunks (size : ℕ) (xs : List α) (k : ℕ) :
    ((List.range k).map fun i => (xs.drop (i * size)).take size).flatten =
      xs.take (k * size) := by
  induction k with
  | zero => simp
  | succ k ih =>
    rw [List.range_succ, List.map_append, List.flatten_append, ih, Nat.succ_mul, List.take_add]
    simp

/-- The chunks are the list. -/
theorem chunks_flatten (hsize : 0 < size) (xs : List α) : (chunks size xs).flatten = xs := by
  unfold chunks
  rw [flatten_range_chunks]
  refine List.take_of_length_le ?_
  have hlt := Nat.lt_div_mul_add hsize (a := xs.length + size - 1)
  omega

/-- A chunk begins at its index times the size. -/
theorem chunks_base (hsize : 0 < size) {l₁ l₂ : List (List α)} {c : List α}
    (h : chunks size xs = l₁ ++ c :: l₂) : l₁.flatten.length = l₁.length * size := by
  have hlen : l₁.length < (xs.length + size - 1) / size := by
    have hlength := congrArg List.length h
    unfold chunks at hlength
    simp at hlength
    omega
  have htake : l₁ = (List.range l₁.length).map fun i => (xs.drop (i * size)).take size := by
    have hl₁ : l₁ = (chunks size xs).take l₁.length := by simp [h]
    unfold chunks at hl₁
    rwa [← List.map_take, List.take_range, Nat.min_eq_left hlen.le] at hl₁
  rw [htake, flatten_range_chunks, List.length_take, List.length_map, List.length_range]
  have hmul := (Nat.le_div_iff_mul_le hsize).1 hlen
  rw [Nat.succ_mul] at hmul
  omega

end Chunks

/-! ### Writing the rows of a chunk -/

/-- Rows of the right number are written over what is there. -/
theorem writeRows_append (pre post : List (Option Account)) {old rows : List (Option Account)}
    (h : old.length = rows.length) :
    writeRows (pre ++ old ++ post) pre.length rows = .ok (pre ++ rows ++ post) := by
  induction rows generalizing pre old with
  | nil =>
    rw [List.eq_nil_of_length_eq_zero h]
    rfl
  | cons acct rows ih =>
    cases old with
    | nil => cases h
    | cons o old =>
      have hrest := ih (pre ++ [acct]) (Nat.succ.inj h)
      simp only [List.length_append, List.length_singleton, List.append_assoc,
        List.singleton_append] at hrest
      have hlt : pre.length < (pre ++ (o :: old) ++ post).length := by simp
      unfold writeRows
      rw [if_pos hlt]
      simpa using hrest

/-! ### The tasks -/

variable (R : Pubkey → Option Account → Prop)

/-- A successful `getMultipleAccounts` has one entry for each address, in order; `R` says which
entries an address can have. -/
def Answers (e : Client.Event) : Prop :=
  ∀ pks rows, e = ⟨.getMultipleAccounts pks, .ok rows⟩ → List.Forall₂ R pks rows

/-- The task panicked. -/
def Panicked (r : ChunkResult) : Prop := ∃ msg, r = .error (.panic msg)

/-- The set of chunk tasks. -/
def chunkTasks : Env ChunkSet (List (JoinSet.Stage Client ChunkResult)) :=
  JoinSet.env maxConcurrency (Answers R) Panicked

/-- The set as the parent sees it. -/
def joinedTasks : Env ChunkSet (List (Prog Client ChunkResult × Option ChunkResult)) :=
  JoinSet.spec (Answers R) Panicked

variable {R}

/-- What a chunk task can end with. -/
theorem chunkTask_endsWith {idx : ℕ} {chunk : List Pubkey} {r : ChunkResult}
    (h : JoinSet.Stage.EndsWith (Answers R) Panicked (chunkTask idx chunk).run r) :
    (∃ rows, r = .ok (idx, rows) ∧ List.Forall₂ R chunk rows) ∨ ∃ err, r = .error err := by
  rcases h with ⟨msg, rfl⟩ | ⟨t, ht, reply, t', rfl, hrun⟩
  · exact .inr ⟨_, rfl⟩
  cases reply with
  | error e => exact .inr ⟨_, hrun.2⟩
  | ok rows => exact .inl ⟨rows, hrun.2, ht _ List.mem_cons_self chunk rows rfl⟩

/-! ### The invariant of the parent -/

/-- The task of a chunk, which has not failed as far as the parent knows. -/
def Slot (R : Pubkey → Option Account → Prop) (z : List Pubkey × ℕ)
    (x : Prog Client ChunkResult × Option ChunkResult) : Prop :=
  x.1 = (chunkTask z.2 z.1).run ∧
    ∀ r, x.2 = some r → ∃ rows, r = .ok (z.2, rows) ∧ List.Forall₂ R z.1 rows

/-- The part of the output that belongs to a chunk. -/
def block (z : List Pubkey × ℕ) (x : Prog Client ChunkResult × Option ChunkResult) :
    List (Option Account) :=
  match x.2 with
  | some (.ok (_, rows)) => rows
  | _ => List.replicate z.1.length none

/-- The output, chunk by chunk. -/
def assembled (zs : List (List Pubkey × ℕ))
    (t : List (Prog Client ChunkResult × Option ChunkResult)) : List (Option Account) :=
  (List.zipWith block zs t).flatten

theorem length_block {z : List Pubkey × ℕ} {x : Prog Client ChunkResult × Option ChunkResult}
    (h : Slot R z x) : (block z x).length = z.1.length := by
  obtain ⟨p, o⟩ := x
  obtain ⟨-, hrows⟩ := h
  cases o with
  | none => exact List.length_replicate
  | some r =>
    obtain ⟨rows, rfl, hforall⟩ := hrows r rfl
    exact hforall.length_eq.symm

/-- Blocks have the length of their chunks. -/
theorem length_assembled {zs : List (List Pubkey × ℕ)}
    {t : List (Prog Client ChunkResult × Option ChunkResult)} (h : List.Forall₂ (Slot R) zs t) :
    (assembled zs t).length = (zs.map Prod.fst).flatten.length := by
  induction h with
  | nil => rfl
  | cons hz _ ih =>
    unfold assembled at ih ⊢
    rw [List.zipWith_cons_cons, List.flatten_cons, List.length_append, ih, length_block hz,
      List.map_cons, List.flatten_cons, List.length_append]

theorem assembled_split {zs₁ zs₂ : List (List Pubkey × ℕ)} {z : List Pubkey × ℕ}
    {t₁ t₂ : List (Prog Client ChunkResult × Option ChunkResult)}
    {x : Prog Client ChunkResult × Option ChunkResult} (h : zs₁.length = t₁.length) :
    assembled (zs₁ ++ z :: zs₂) (t₁ ++ x :: t₂) =
      assembled zs₁ t₁ ++ block z x ++ assembled zs₂ t₂ := by
  unfold assembled
  rw [List.zipWith_append h, List.zipWith_cons_cons, List.flatten_append, List.flatten_cons,
    List.append_assoc]

/-- What the parent has after some of the tasks were joined, when none of these has failed. -/
structure Collecting (R : Pubkey → Option Account → Prop) (addresses : List Pubkey)
    (t : List (Prog Client ChunkResult × Option ChunkResult)) (left : ℕ)
    (output : List (Option Account)) : Prop where
  slots : List.Forall₂ (Slot R) (chunks chunkSize addresses).zipIdx t
  left_eq : t.countP (·.2.isNone) = left
  output_eq : output = assembled (chunks chunkSize addresses).zipIdx t

/-- The set after the spawns. -/
def spawned (zs : List (List Pubkey × ℕ)) :
    List (Prog Client ChunkResult × Option ChunkResult) :=
  zs.map fun z => ((chunkTask z.2 z.1).run, none)

/-- Before the first join the output is empty rows. -/
theorem assembled_spawned (zs : List (List Pubkey × ℕ)) :
    assembled zs (spawned zs) = List.replicate (zs.map Prod.fst).flatten.length none := by
  induction zs with
  | nil => rfl
  | cons z zs ih =>
    unfold assembled spawned at ih ⊢
    rw [List.map_cons, List.zipWith_cons_cons, List.flatten_cons, ih]
    show List.replicate z.1.length none ++ _ = _
    rw [List.replicate_append_replicate, List.map_cons, List.flatten_cons, List.length_append]

theorem chunkSize_pos : 0 < chunkSize := by decide

variable {addresses : List Pubkey}

/-- The chunks, without their indices, are the addresses. -/
theorem flatten_map_fst_zipIdx :
    ((chunks chunkSize addresses).zipIdx.map Prod.fst).flatten = addresses := by
  rw [List.zipIdx_map_fst, chunks_flatten chunkSize_pos]

theorem collecting_spawned : Collecting R addresses
    (spawned (chunks chunkSize addresses).zipIdx) (chunks chunkSize addresses).length
    (List.replicate addresses.length none) where
  slots := by
    unfold spawned
    refine List.forall₂_map_right_iff.2 (List.forall₂_same.2 fun z _ => ⟨rfl, nofun⟩)
  left_eq := by
    simp [spawned, List.countP_map, Function.comp_def]
  output_eq := by
    rw [assembled_spawned, flatten_map_fst_zipIdx]

/-- The chunk at a place of the enumeration, with its index and its base. -/
theorem zipIdx_split {zs₁ zs₂ : List (List Pubkey × ℕ)} {chunk : List Pubkey} {idx : ℕ}
    (h : (chunks chunkSize addresses).zipIdx = zs₁ ++ (chunk, idx) :: zs₂) :
    (zs₁.map Prod.fst).flatten.length = idx * chunkSize := by
  have hfst := congrArg (List.map Prod.fst) h
  rw [List.zipIdx_map_fst, List.map_append, List.map_cons] at hfst
  have hidx : idx = zs₁.length := by
    obtain ⟨l₁, l₂, -, rfl, h₂⟩ := List.zipIdx_eq_append_iff.1 h
    cases l₂ with
    | nil => cases h₂
    | cons c l₂ =>
      rw [List.zipIdx_cons] at h₂
      cases h₂
      simp
  rw [chunks_base chunkSize_pos hfst, List.length_map, hidx]

/-- A joined task that did not fail has its rows written. -/
theorem Collecting.join {t₁ t₂ : List (Prog Client ChunkResult × Option ChunkResult)}
    {p : Prog Client ChunkResult} {left : ℕ} {output : List (Option Account)}
    (h : Collecting R addresses (t₁ ++ (p, none) :: t₂) (left + 1) output) {r : ChunkResult}
    (hr : JoinSet.Stage.EndsWith (Answers R) Panicked p r) :
    (∃ err, r = .error err) ∨ ∃ idx rows output', r = .ok (idx, rows) ∧
      writeRows output (idx * chunkSize) rows = .ok output' ∧
      Collecting R addresses (t₁ ++ (p, some r) :: t₂) left output' := by
  obtain ⟨zs₁, ⟨chunk, idx⟩, zs₂, hzs, h₁, hz, h₂⟩ := forall₂_split_right h.slots
  obtain ⟨rfl, -⟩ := hz
  rcases chunkTask_endsWith hr with ⟨rows, rfl, hrows⟩ | herr
  swap
  · exact .inl herr
  have hout : output = assembled zs₁ t₁ ++ List.replicate chunk.length none ++
      assembled zs₂ t₂ := by
    rw [h.output_eq, hzs, assembled_split h₁.length_eq]
    rfl
  have hbase : (assembled zs₁ t₁).length = idx * chunkSize := by
    rw [length_assembled h₁, zipIdx_split hzs]
  have hlen : (List.replicate chunk.length (none : Option Account)).length = rows.length := by
    rw [List.length_replicate, hrows.length_eq]
  refine .inr ⟨idx, rows, assembled zs₁ t₁ ++ rows ++ assembled zs₂ t₂, rfl, ?_, ?_, ?_, ?_⟩
  · rw [hout, ← hbase, writeRows_append _ _ hlen]
  · rw [hzs]
    refine List.rel_append h₁ (.cons ⟨rfl, ?_⟩ h₂)
    rintro r ⟨⟩
    exact ⟨rows, rfl, hrows⟩
  · simpa [← Nat.add_assoc] using h.left_eq
  · rw [hzs, assembled_split h₁.length_eq]
    rfl

/-- A joined block has an entry for each address of its chunk. -/
theorem assembled_complete {zs : List (List Pubkey × ℕ)}
    {t : List (Prog Client ChunkResult × Option ChunkResult)} (h : List.Forall₂ (Slot R) zs t)
    (hall : ∀ x ∈ t, x.2 ≠ none) :
    List.Forall₂ R (zs.map Prod.fst).flatten (assembled zs t) := by
  refine List.rel_flatten ?_
  induction h with
  | nil => exact .nil
  | @cons z x zs t hz _ ih =>
    refine .cons ?_ (ih fun y hy => hall y (List.mem_cons_of_mem _ hy))
    obtain ⟨p, o⟩ := x
    cases o with
    | none => exact absurd rfl (hall _ List.mem_cons_self)
    | some r =>
      obtain ⟨rows, rfl, hrows⟩ := hz.2 r rfl
      exact hrows

/-! ### The result -/

/-- What the parent returns, when it has these results of the tasks. -/
def Outcome (R : Pubkey → Option Account → Prop) (addresses : List Pubkey)
    (r : Except Failure (List (Option Account)))
    (t : List (Prog Client ChunkResult × Option ChunkResult)) : Prop :=
  (∃ out, r = .ok out ∧ List.Forall₂ R addresses out ∧
      ∀ x ∈ t, ∃ rows, x.2 = some (.ok rows)) ∨
    (∃ e, r = .error (.error e)) ∧ ∃ x ∈ t, ∃ err, x.2 = some (.error err)

/-- Once all tasks are joined the output has an entry for each address. -/
theorem Collecting.complete {t : List (Prog Client ChunkResult × Option ChunkResult)} {left : ℕ}
    {output : List (Option Account)} (h : Collecting R addresses t left output)
    (hall : ∀ x ∈ t, x.2 ≠ none) : Outcome R addresses (.ok output) t := by
  refine .inl ⟨output, rfl, ?_, fun x hx => ?_⟩
  · have hrows := assembled_complete h.slots hall
    rwa [flatten_map_fst_zipIdx, ← h.output_eq] at hrows
  · obtain ⟨z, -, -, hslot⟩ := forall₂_exists_left h.slots hx
    obtain ⟨r, hr⟩ := Option.ne_none_iff_exists'.1 (hall x hx)
    obtain ⟨rows, rfl, -⟩ := hslot r hr
    exact ⟨_, hr⟩

/-- A failed task is returned as an error. -/
theorem joinedRows_error (err : Failure) :
    ∃ e, joinedRows (.error err) = .error e := by
  cases err with
  | error e => exact ⟨e, rfl⟩
  | panic msg => exact ⟨_, rfl⟩

/-- The promise of the parent, from a state of the set on. -/
abbrev Keeps (R : Pubkey → Option Account → Prop) (addresses : List Pubkey)
    (x : Async ChunkSet (List (Option Account)))
    (t : List (Prog Client ChunkResult × Option ChunkResult)) : Prop :=
  (joinedTasks R).Safe (fun _ _ => True) (fun _ _ => True) (fun _ => True) (Outcome R addresses)
    x.run t

/-- A parent that returns keeps the promise with what it returns. -/
theorem keeps_ret {r : Except Failure (List (Option Account))}
    {t : List (Prog Client ChunkResult × Option ChunkResult)} (h : Outcome R addresses r t) :
    Keeps R addresses (ExceptT.mk (.ret r)) t := by
  intro t' ht
  obtain rfl := JoinSet.eq_of_ticks_spec ht
  exact ⟨trivial, h⟩

/-- The joins, from the invariant on. -/
theorem keeps_collect {left : ℕ} {output : List (Option Account)}
    {t : List (Prog Client ChunkResult × Option ChunkResult)}
    (h : Collecting R addresses t left output) : Keeps R addresses (collect left output) t := by
  induction left generalizing output t with
  | zero =>
    refine Env.safe_ask_bind fun t₁ ht => ⟨trivial, trivial, fun r t₂ ha _ => ?_⟩
    obtain rfl := JoinSet.eq_of_ticks_spec ht
    cases r with
    | none =>
      obtain ⟨rfl, hall⟩ := ha
      exact keeps_ret (h.complete hall)
    | some r =>
      -- the count of the tasks that are left says that there are none
      obtain ⟨s₁, p, s₂, rfl, -, -⟩ := ha
      have hleft := h.left_eq
      simp at hleft
  | succ left ih =>
    refine Env.safe_ask_bind fun t₁ ht => ⟨trivial, trivial, fun r t₂ ha _ => ?_⟩
    obtain rfl := JoinSet.eq_of_ticks_spec ht
    cases r with
    | none =>
      obtain ⟨rfl, hall⟩ := ha
      exact keeps_ret (h.complete hall)
    | some r =>
      obtain ⟨s₁, p, s₂, rfl, rfl, hr⟩ := ha
      rcases h.join hr with ⟨err, rfl⟩ | ⟨idx, rows, output', rfl, hwrite, hnext⟩
      · obtain ⟨e, he⟩ := joinedRows_error err
        show Keeps R addresses (liftError (joinedRows (.error err)) >>= _) _
        rw [he]
        exact keeps_ret (.inr ⟨⟨e, rfl⟩, (p, some (.error err)),
          List.mem_append_right _ List.mem_cons_self, err, rfl⟩)
      · show Keeps R addresses (liftExcept (writeRows output (idx * chunkSize) rows) >>= _) _
        rw [hwrite]
        exact ih hnext

/-- The spawns, in front of what comes after them. -/
theorem keeps_spawnChunks {x : Unit → Async ChunkSet (List (Option Account))}
    {zs : List (List Pubkey × ℕ)} {t : List (Prog Client ChunkResult × Option ChunkResult)}
    (h : Keeps R addresses (x ()) (t ++ spawned zs)) :
    Keeps R addresses (spawnChunks zs >>= x) t := by
  induction zs generalizing t with
  | nil =>
    rw [spawned, List.map_nil, List.append_nil] at h
    exact h
  | cons z zs ih =>
    intro t₁ ht
    obtain rfl := JoinSet.eq_of_ticks_spec ht
    refine ⟨trivial, trivial, fun r t₂ ha _ => ?_⟩
    obtain rfl : t₂ = _ := ha
    refine ih ?_
    rwa [List.append_assoc]

theorem keeps_batchGetMultipleAccounts (R : Pubkey → Option Account → Prop)
    (addresses : List Pubkey) : Keeps R addresses (batchGetMultipleAccounts addresses) [] := by
  unfold batchGetMultipleAccounts
  split_ifs with hempty
  · obtain rfl := List.isEmpty_iff.1 hempty
    exact keeps_ret (.inl ⟨[], rfl, .nil, by simp⟩)
  · exact keeps_spawnChunks (keeps_collect collecting_spawned)

/-- A task that has failed or panicked. -/
def Failed (st : JoinSet.Stage Client ChunkResult) : Prop :=
  ∃ err, st = .finished (.error err) ∨ st = .joined (.error err)

/-- A request can always be answered, by an error. -/
theorem exists_answers (R : Pubkey → Option Account → Prop) (c : ClientCall) :
    ∃ r, Answers R ⟨c, r⟩ := by
  refine ⟨c.refused, fun pks rows h => ?_⟩
  cases c <;> cases h

/-- The result of a run, from what the parent sees of it. -/
theorem Outcome.of_seen {r : Except Failure (List (Option Account))}
    {s : List (JoinSet.Stage Client ChunkResult)}
    {t : List (Prog Client ChunkResult × Option ChunkResult)} (h : Outcome R addresses r t)
    (hs : List.Forall₂ (JoinSet.SeenAs (Answers R) Panicked) s t) :
    (∃ out, r = .ok out ∧ List.Forall₂ R addresses out ∧ ¬ ∃ st ∈ s, Failed st) ∨
      ((∃ e, r = .error (.error e)) ∧ ∃ st ∈ s, Failed st) := by
  rcases h with ⟨out, rfl, hout, hall⟩ | ⟨he, x, hx, err, herr⟩
  · refine .inl ⟨out, rfl, hout, ?_⟩
    rintro ⟨st, hst, err, hfailed⟩
    obtain ⟨x, hx, -, hview⟩ := forall₂_exists_left hs.flip hst
    obtain ⟨rows, hrows⟩ := hall x hx
    rw [hrows] at hview
    rcases hfailed with rfl | rfl <;> cases hview
  · obtain ⟨st, hst, -, hview⟩ := forall₂_exists_left hs hx
    refine .inr ⟨he, st, hst, err, .inr ?_⟩
    rw [herr] at hview
    cases st with
    | joined a =>
      cases hview
      rfl
    | _ => cases hview

/-- What a run that has returned returned. -/
theorem result_of_run {c : Prog ChunkSet (Except Failure (List (Option Account))) ×
      List (JoinSet.Stage Client ChunkResult)}
    (hrun : Relation.ReflTransGen (chunkTasks R).Step
      ((batchGetMultipleAccounts addresses).run, []) c)
    {r : Except Failure (List (Option Account))} (hr : c.1 = .ret r) :
    (∃ out, r = .ok out ∧ List.Forall₂ R addresses out ∧ ¬ ∃ st ∈ c.2, Failed st) ∨
      ((∃ e, r = .error (.error e)) ∧ ∃ st ∈ c.2, Failed st) := by
  obtain ⟨t, hrun', hseen⟩ := JoinSet.simulates_spec.steps .nil hrun
  have hkeeps := (keeps_batchGetMultipleAccounts R addresses).steps hrun'
  rw [hr] at hkeeps
  exact (hkeeps t .refl).2.of_seen hseen

/-- When every request is answered from the same accounts, the result is what one request for all
addresses would give. -/
theorem eq_map_of_run {accts : Pubkey → Option Account} {out : List (Option Account)}
    {s : List (JoinSet.Stage Client ChunkResult)}
    (hrun : Relation.ReflTransGen (chunkTasks fun pk acct => acct = accts pk).Step
      ((batchGetMultipleAccounts addresses).run, []) (.ret (.ok out), s)) :
    out = addresses.map accts := by
  rcases result_of_run hrun rfl with ⟨_, ⟨⟩, hrows, -⟩ | ⟨⟨e, he⟩, -⟩
  · have heq : List.Forall₂ (· = ·) (addresses.map accts) out :=
      List.forall₂_map_left_iff.2 (hrows.imp fun _ _ h => h.symm)
    rw [List.forall₂_eq_eq_eq] at heq
    exact heq.symm
  · cases he

/-- **Batched reads are plain reads, in every order of the tasks.**  A run does not go on forever,
and stops only when the parent has returned.  What it returned is an error when a task has failed
or panicked, and otherwise an entry for each address, in the order of the addresses. -/
theorem batchGetMultipleAccounts_exact (R : Pubkey → Option Account → Prop)
    (addresses : List Pubkey) :
    (WellFounded fun c' c : Prog ChunkSet (Except Failure (List (Option Account))) ×
        List (JoinSet.Stage Client ChunkResult) => (chunkTasks R).Step c c') ∧
      ∀ c, Relation.ReflTransGen (chunkTasks R).Step
          ((batchGetMultipleAccounts addresses).run, []) c →
        ((∀ c', ¬ (chunkTasks R).Step c c') → ∃ r, c.1 = .ret r) ∧
        ∀ r, c.1 = .ret r →
          (∃ out, r = .ok out ∧ List.Forall₂ R addresses out ∧ ¬ ∃ st ∈ c.2, Failed st) ∨
          ((∃ e, r = .error (.error e)) ∧ ∃ st ∈ c.2, Failed st) := by
  refine ⟨JoinSet.wellFounded_step _ _ _, fun c hrun => ⟨fun hstuck => ?_, fun r hr => ?_⟩⟩
  · exact JoinSet.returned_of_stuck (by decide) (exists_answers R) hstuck
  · exact result_of_run hrun hr

/-! ### Every order of the joins -/

/-- A task as the parent sees it, when none is under way. -/
def stageOf : Prog Client ChunkResult × Option ChunkResult → JoinSet.Stage Client ChunkResult
  | (p, none) => .waiting p
  | (_, some r) => .joined r

theorem held_map_stageOf (t : List (Prog Client ChunkResult × Option ChunkResult)) :
    JoinSet.held (t.map stageOf) = 0 := by
  refine List.countP_eq_zero.2 fun st hst => ?_
  obtain ⟨⟨p, o⟩, -, rfl⟩ := List.mem_map.1 hst
  cases o <;> simp [stageOf, JoinSet.Stage.isRunning]

/-- The spawned tasks wait. -/
theorem spawnChunks_steps {x : Unit → Async ChunkSet (List (Option Account))}
    (zs : List (List Pubkey × ℕ)) (s : List (JoinSet.Stage Client ChunkResult)) :
    Relation.ReflTransGen (chunkTasks R).Step ((spawnChunks zs >>= x).run, s)
      ((x ()).run, s ++ (spawned zs).map stageOf) := by
  induction zs generalizing s with
  | nil =>
    rw [spawned, List.map_nil, List.map_nil, List.append_nil]
    exact .refl
  | cons z zs ih =>
    have hspawn : (chunkTasks R).answer s (.spawn (chunkTask z.2 z.1).run) ()
      (s ++ [.waiting (chunkTask z.2 z.1).run]) := rfl
    have hrest := ih (s ++ [.waiting (chunkTask z.2 z.1).run])
    rw [List.append_assoc] at hrest
    exact .head (.answer hspawn) hrest

theorem batchGetMultipleAccounts_steps (h : addresses ≠ []) :
    Relation.ReflTransGen (chunkTasks R).Step ((batchGetMultipleAccounts addresses).run, [])
      ((collect (chunks chunkSize addresses).length (List.replicate addresses.length none)).run,
        (spawned (chunks chunkSize addresses).zipIdx).map stageOf) := by
  unfold batchGetMultipleAccounts
  rw [if_neg (by simpa using h)]
  exact spawnChunks_steps _ []

/-- Whichever task waits can be the next one to end and to be joined. -/
theorem Collecting.exists_join {t₁ t₂ : List (Prog Client ChunkResult × Option ChunkResult)}
    {idx left : ℕ} {chunk : List Pubkey} {rows output : List (Option Account)}
    (h : Collecting R addresses (t₁ ++ ((chunkTask idx chunk).run, none) :: t₂) (left + 1) output)
    (hrows : List.Forall₂ R chunk rows) :
    ∃ output', Collecting R addresses
        (t₁ ++ ((chunkTask idx chunk).run, some (.ok (idx, rows))) :: t₂) left output' ∧
      Relation.ReflTransGen (chunkTasks R).Step
        ((collect (left + 1) output).run,
          (t₁ ++ ((chunkTask idx chunk).run, none) :: t₂).map stageOf)
        ((collect left output').run,
          (t₁ ++ ((chunkTask idx chunk).run, some (.ok (idx, rows))) :: t₂).map stageOf) := by
  have hanswer : Answers R ⟨.getMultipleAccounts chunk, .ok rows⟩ := by
    rintro pks rows ⟨⟩
    exact hrows
  have hends : JoinSet.Stage.EndsWith (Answers R) Panicked (chunkTask idx chunk).run
      (.ok (idx, rows)) :=
    .inr ⟨[⟨.getMultipleAccounts chunk, .ok rows⟩], List.forall_mem_singleton.2 hanswer,
      .ok rows, [], rfl, rfl, rfl⟩
  rcases h.join hends with ⟨err, ⟨⟩⟩ | ⟨_, _, output', ⟨⟩, hwrite, hnext⟩
  refine ⟨output', hnext, ?_⟩
  have hheld := held_map_stageOf (t₁ ++ ((chunkTask idx chunk).run, none) :: t₂)
  simp only [List.map_append, List.map_cons, stageOf] at hheld ⊢
  have hacquire : (chunkTasks R).tick
      (t₁.map stageOf ++ .waiting (chunkTask idx chunk).run :: t₂.map stageOf)
      (t₁.map stageOf ++ .running (chunkTask idx chunk).run :: t₂.map stageOf) :=
    ⟨_, _, _, _, rfl, rfl, .acquire (by rw [hheld]; decide)⟩
  have hreply : (chunkTasks R).tick
      (t₁.map stageOf ++ .running (chunkTask idx chunk).run :: t₂.map stageOf)
      (t₁.map stageOf ++ .running (.ret (.ok (idx, rows))) :: t₂.map stageOf) :=
    ⟨_, _, _, _, rfl, rfl, .reply hanswer⟩
  have hfinish : (chunkTasks R).tick
      (t₁.map stageOf ++ .running (.ret (.ok (idx, rows))) :: t₂.map stageOf)
      (t₁.map stageOf ++ .finished (.ok (idx, rows)) :: t₂.map stageOf) :=
    ⟨_, _, _, _, rfl, rfl, .finish⟩
  have hjoined : (chunkTasks R).answer
      (t₁.map stageOf ++ .finished (.ok (idx, rows)) :: t₂.map stageOf) .joinNext
      (some (.ok (idx, rows)))
      (t₁.map stageOf ++ .joined (.ok (idx, rows)) :: t₂.map stageOf) := ⟨_, _, rfl, rfl⟩
  have hjoin : (chunkTasks R).Step
      ((collect (left + 1) output).run,
        t₁.map stageOf ++ .finished (.ok (idx, rows)) :: t₂.map stageOf)
      ((liftExcept (writeRows output (idx * chunkSize) rows) >>= collect left).run,
        t₁.map stageOf ++ .joined (.ok (idx, rows)) :: t₂.map stageOf) := .answer hjoined
  rw [hwrite] at hjoin
  exact .head (.tick hacquire) (.head (.tick hreply) (.head (.tick hfinish) (.single hjoin)))

/-- Once all tasks are joined the parent returns. -/
theorem collect_returns {t : List (Prog Client ChunkResult × Option ChunkResult)} (left : ℕ)
    (output : List (Option Account)) (hall : ∀ x ∈ t, x.2 ≠ none) :
    (chunkTasks R).Step ((collect left output).run, t.map stageOf)
      (.ret (.ok output), t.map stageOf) := by
  have hempty : (chunkTasks R).answer (t.map stageOf) .joinNext none (t.map stageOf) := by
    refine ⟨rfl, fun st hst => ?_⟩
    obtain ⟨⟨p, o⟩, hx, rfl⟩ := List.mem_map.1 hst
    cases o with
    | none => exact absurd rfl (hall _ hx)
    | some r => rfl
  cases left with
  | zero => exact .answer hempty
  | succ left => exact .answer hempty

/-! ### Two chunks that end out of order -/

/-- A token account whose amount is the first byte of its address. -/
def sampleAccount (pk : Pubkey) : Account :=
  ⟨default, List.replicate 64 0 ++ pk.toList.take 1 ++ List.replicate 7 0⟩

/-- There is such an account at every address. -/
def sampleAccounts (pk : Pubkey) (acct : Option Account) : Prop := acct = some (sampleAccount pk)

/-- The rows of these accounts. -/
def accountRows (pks : List Pubkey) : List (Option Account) := pks.map (some ∘ sampleAccount)

theorem forall₂_accountRows (pks : List Pubkey) :
    List.Forall₂ sampleAccounts pks (accountRows pks) :=
  List.forall₂_map_right_iff.2 (List.forall₂_same.2 fun _ _ => rfl)

/-- The addresses of a full chunk. -/
def sampleChunk : List Pubkey := (List.range chunkSize).map fun i => .fill 32 (UInt8.ofNat i)

/-- The address after them. -/
def lastAddress : Pubkey := .fill 32 200

/-- The second task ends while the first one still waits, and all rows are in their places. -/
theorem batchGetMultipleAccounts_exact_sample : ∃ c c',
    Relation.ReflTransGen (chunkTasks sampleAccounts).Step
      ((batchGetMultipleAccounts (sampleChunk ++ [lastAddress])).run, []) c ∧
    c.2 = [.waiting (chunkTask 0 sampleChunk).run, .joined (.ok (1, accountRows [lastAddress]))] ∧
    Relation.ReflTransGen (chunkTasks sampleAccounts).Step c c' ∧
    c'.1 = .ret (.ok (accountRows (sampleChunk ++ [lastAddress]))) ∧
    ¬ ∃ st ∈ c'.2, Failed st := by
  have hspawn : Relation.ReflTransGen (chunkTasks sampleAccounts).Step
      ((batchGetMultipleAccounts (sampleChunk ++ [lastAddress])).run, [])
      ((collect 2 (List.replicate 101 none)).run,
        (spawned [(sampleChunk, 0), ([lastAddress], 1)]).map stageOf) :=
    batchGetMultipleAccounts_steps (by simp)
  have hstart : Collecting sampleAccounts (sampleChunk ++ [lastAddress])
      ([((chunkTask 0 sampleChunk).run, none)] ++ ((chunkTask 1 [lastAddress]).run, none) :: []) 2
      (List.replicate 101 none) := collecting_spawned
  obtain ⟨out₁, hsecond, hrun₁⟩ := hstart.exists_join (forall₂_accountRows [lastAddress])
  have hsecond : Collecting sampleAccounts (sampleChunk ++ [lastAddress])
      ([] ++ ((chunkTask 0 sampleChunk).run, none) ::
        [((chunkTask 1 [lastAddress]).run, some (.ok (1, accountRows [lastAddress])))]) 1 out₁ :=
    hsecond
  obtain ⟨out₂, hfirst, hrun₂⟩ := hsecond.exists_join (forall₂_accountRows sampleChunk)
  have hrun₃ := hrun₂.tail (collect_returns 0 out₂ (by simp))
  have hrun := (hspawn.trans hrun₁).trans hrun₃
  have hout : out₂ = accountRows (sampleChunk ++ [lastAddress]) := eq_map_of_run hrun
  rcases ((batchGetMultipleAccounts_exact _ _).2 _ hrun).2 _ rfl with ⟨_, -, -, h⟩ | ⟨⟨e, he⟩, -⟩
  · exact ⟨_, _, hspawn.trans hrun₁, rfl, hrun₃, by rw [hout], h⟩
  · cases he

end Rpc

end YdeltaCrankers
