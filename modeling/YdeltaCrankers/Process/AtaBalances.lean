import YdeltaCrankers.Handlers.Context
import YdeltaCrankers.Rpc.Batch

/-!
# `src/metrics.rs`: the token balances of the fee payer

The balance loop reads the token accounts of all mints in one batch and pairs the rows with the
mints by their place.  Because the batch keeps the order of the addresses, every mint gets the
balance of its own account (`ataBalances_of_run`).
-/

namespace YdeltaCrankers

open Interaction

/-- The mints of the registry with the token accounts of the fee payer. -/
def ataEntries (sdk : Sdk) (banks : BankRegistry) (feePayer : Pubkey) : List (Pubkey × Pubkey) :=
  banks.byMint.entries.map fun entry => (entry.1, entry.2.ataFor sdk feePayer)

/-- The balance in an account, 0 if there is none. -/
def ataBalance (acct : Option Account) : UInt64 :=
  (acct.bind fun a => splTokenAmount a.data).getD 0

/-- Record the balance of one entry. -/
def recordBalance (accts : List (Option Account)) (newBalances : HashMap Pubkey UInt64)
    (entry : (Pubkey × Pubkey) × ℕ) : HashMap Pubkey UInt64 :=
  newBalances.insert entry.1.1 (ataBalance (accts[entry.2]?).join)

/-- The balances of the entries, given the rows of the batch. -/
def ataBalances (entries : List (Pubkey × Pubkey)) (accts : List (Option Account)) :
    HashMap Pubkey UInt64 :=
  entries.zipIdx.foldl (recordBalance accts) ∅

section Lookup

variable {accts : List (Option Account)} {es : List ((Pubkey × Pubkey) × ℕ)} {mint ata : Pubkey}
  {i : ℕ}

/-- A mint without an entry keeps its balance. -/
theorem lookup_recordBalance_of_not_mem (m : HashMap Pubkey UInt64)
    (h : mint ∉ es.map fun e => e.1.1) :
    (es.foldl (recordBalance accts) m).lookup mint = m.lookup mint := by
  induction es generalizing m with
  | nil => rfl
  | cons e es ih =>
    rw [List.map_cons, List.mem_cons, not_or] at h
    rw [List.foldl_cons, ih _ h.2]
    exact AList.lookup_insert_ne h.1

/-- A mint with one entry gets the balance of the row at the place of the entry. -/
theorem lookup_recordBalance (m : HashMap Pubkey UInt64) (hnodup : (es.map fun e => e.1.1).Nodup)
    (h : ((mint, ata), i) ∈ es) :
    (es.foldl (recordBalance accts) m).lookup mint = some (ataBalance (accts[i]?).join) := by
  induction es generalizing m with
  | nil => cases h
  | cons e es ih =>
    rw [List.map_cons, List.nodup_cons] at hnodup
    rw [List.foldl_cons]
    rcases List.mem_cons.1 h with rfl | h
    · rw [lookup_recordBalance_of_not_mem _ hnodup.1]
      exact AList.lookup_insert _
    · exact ih _ hnodup.2 h

end Lookup

/-- Rows in the order of the entries: every mint gets the balance of its own account. -/
theorem lookup_ataBalances {R : Pubkey → Option Account → Prop}
    {entries : List (Pubkey × Pubkey)} {accts : List (Option Account)}
    (hnodup : (entries.map Prod.fst).Nodup)
    (h : List.Forall₂ R (entries.map Prod.snd) accts) {mint ata : Pubkey}
    (hmem : (mint, ata) ∈ entries) :
    ∃ acct, R ata acct ∧ (ataBalances entries accts).lookup mint = some (ataBalance acct) := by
  obtain ⟨i, hi, hget⟩ := List.getElem_of_mem hmem
  have hlen : i < accts.length := by
    rw [← h.length_eq, List.length_map]
    exact hi
  refine ⟨accts[i], ?_, ?_⟩
  · have hrow := h.get (by rwa [List.length_map]) hlen
    simp only [List.get_eq_getElem, List.getElem_map, hget] at hrow
    exact hrow
  · have hmem' : ((mint, ata), i) ∈ entries.zipIdx := by
      rw [List.mk_mem_zipIdx_iff_getElem?, List.getElem?_eq_getElem hi, hget]
    have hmints : entries.zipIdx.map (fun e => e.1.1) = entries.map Prod.fst := by
      conv_rhs => rw [← List.zipIdx_map_fst 0 entries, List.map_map]
      rfl
    unfold ataBalances
    rw [lookup_recordBalance _ (hmints ▸ hnodup) hmem', List.getElem?_eq_getElem hlen]
    rfl

/-- **The balances of a successful batch are those of the mints' own accounts.** -/
theorem ataBalances_of_run {R : Pubkey → Option Account → Prop} {sdk : Sdk}
    {banks : BankRegistry} {feePayer : Pubkey} {out : List (Option Account)}
    {s : List (JoinSet.Stage Client Rpc.ChunkResult)}
    (hrun : Relation.ReflTransGen (Rpc.chunkTasks R).Step
      ((Rpc.batchGetMultipleAccounts ((ataEntries sdk banks feePayer).map Prod.snd)).run, [])
      (.ret (.ok out), s))
    {mint : Pubkey} {info : BankInfo} (hinfo : banks.get mint = some info) :
    ∃ acct, R (info.ataFor sdk feePayer) acct ∧
      (ataBalances (ataEntries sdk banks feePayer) out).lookup mint = some (ataBalance acct) := by
  rcases Rpc.result_of_run hrun rfl with ⟨_, ⟨⟩, hrows, -⟩ | ⟨⟨_, h⟩, -⟩
  · refine lookup_ataBalances ?_ hrows ?_
    · have hkeys : (ataEntries sdk banks feePayer).map Prod.fst = banks.byMint.keys := List.map_map
      rw [hkeys]
      exact banks.byMint.keys_nodup
    · exact List.mem_map.2 ⟨⟨mint, info⟩, AList.mem_lookup_iff.1 hinfo, rfl⟩
  · cases h

/-- The token accounts of the two mints of `sampleBanks` hold 101 and 102 atoms. -/
theorem ataBalances_of_run_sample : ∃ out s,
    Relation.ReflTransGen (Rpc.chunkTasks Rpc.sampleAccounts).Step
      ((Rpc.batchGetMultipleAccounts
        ((ataEntries .plain sampleBanks sampleSigners.feePayer).map Prod.snd)).run, [])
      (.ret (.ok out), s) ∧
    (ataBalances (ataEntries .plain sampleBanks sampleSigners.feePayer) out).lookup (.fill 32 1) =
      some 101 ∧
    (ataBalances (ataEntries .plain sampleBanks sampleSigners.feePayer) out).lookup (.fill 32 2) =
      some 102 := by
  have haddresses : (ataEntries .plain sampleBanks sampleSigners.feePayer).map Prod.snd =
      [.fill 32 101, .fill 32 102] := by decide +kernel
  have hspawn := Rpc.batchGetMultipleAccounts_steps (R := Rpc.sampleAccounts)
    (List.cons_ne_nil (.fill 32 101) [.fill 32 102])
  have hstart : Rpc.Collecting Rpc.sampleAccounts [.fill 32 101, .fill 32 102]
      ([] ++ ((Rpc.chunkTask 0 [.fill 32 101, .fill 32 102]).run, none) :: []) 1 [none, none] :=
    Rpc.collecting_spawned
  obtain ⟨out, hdone, hjoin⟩ := hstart.exists_join (Rpc.forall₂_accountRows _)
  have hrun := (hspawn.trans hjoin).tail (Rpc.collect_returns 0 out (by simp))
  rw [← haddresses] at hrun
  have hbank₁ : sampleBanks.get (.fill 32 1) = some (sampleBank 1 11) := by decide +kernel
  have hbank₂ : sampleBanks.get (.fill 32 2) = some (sampleBank 2 12) := by decide +kernel
  obtain ⟨_, rfl, h₁⟩ := ataBalances_of_run (R := Rpc.sampleAccounts) hrun hbank₁
  obtain ⟨_, rfl, h₂⟩ := ataBalances_of_run (R := Rpc.sampleAccounts) hrun hbank₂
  refine ⟨out, _, hrun, ?_, ?_⟩
  · rw [h₁]
    decide +kernel
  · rw [h₂]
    decide +kernel

end YdeltaCrankers
