import YdeltaCrankers.Discovery.Snapshot
import YdeltaCrankers.Handlers.Context
import YdeltaCrankers.Process.Memory
import YdeltaCrankers.Rpc.Rejection
import YdeltaCrankers.Service.Implement
import YdeltaCrankers.Solana.WireSize

/-!
# How many mints the boot can start with

The boot asks for the accounts of all banks at once, for those of all mints at once and for those of
all its token accounts at once, and it creates the missing token accounts in one transaction.  A
node takes at most 100 addresses in one request and 1232 bytes in one transaction.

**Main theorem** (`boot_scales_iff`): on a node that refuses nothing else, the banks of `n` mints
are resolved exactly when `n` is at most 100 (and the authorities of the banks derive), and the
missing token accounts are created exactly when `n` is at most 100 and the one transaction that
creates them has at most 1232 bytes, or none is missing.  Twelve missing token accounts always fit
(`createAtasSize_le`).
-/

namespace YdeltaCrankers

open Interaction Collections

/-! ### The node -/

/-- The accounts in the list are there afterwards; those that were there before stay. -/
def Creates (created : List Pubkey) (accts accts' : Accounts) : Prop :=
  (∀ pk ∈ created, accts' pk ≠ none) ∧ ∀ pk, accts pk ≠ none → accts' pk = accts pk

/-- What a node with these accounts answers, and the accounts after it: it refuses requests for more
than 100 accounts and transactions of more than 1232 bytes, and nothing else that it is asked for
here. -/
def NodeAnswer (accts : Accounts) : (c : ServiceCall) → c.Reply → Accounts → Prop
  | .client (.getMultipleAccounts pks), r, accts' => accts' = accts ∧
    (pks.length ≤ maxMultipleAccounts → r = .ok (pks.map accts)) ∧
    (maxMultipleAccounts < pks.length → ∃ e, r = .error e)
  | .client (.sendAndConfirmTransaction tx), r, accts' => ∀ n, tx.wireSize = some n →
    (n ≤ packetDataSize → (∃ sig, r = .ok sig) ∧
      Creates (tx.message.ixs.filterMap Instruction.createdAta) accts accts') ∧
    (packetDataSize < n → (∃ e, r = .error e) ∧ accts' = accts)
  | .client .getLatestBlockhash, r, accts' => (∃ blockhash, r = .ok blockhash) ∧ accts' = accts
  | .client .stopRequested, r, accts' => r = false ∧ accts' = accts
  | _, _, accts' => accts' = accts

/-- The node as an environment; nobody else changes the accounts. -/
def nodeEnv : Env Service Accounts := ⟨fun _ _ => False, NodeAnswer⟩

/-- The call stays within the limits of the node. -/
def ServiceCall.Within : ServiceCall → Prop
  | .client (.getMultipleAccounts pks) => pks.length ≤ maxMultipleAccounts
  | .client (.sendAndConfirmTransaction tx) => ∀ n, tx.wireSize = some n → n ≤ packetDataSize
  | _ => True

/-- The call broadcasts nothing. -/
def ServiceCall.Quiet (c : ServiceCall) : Prop :=
  ∀ tx, c ≠ .client (.sendAndConfirmTransaction tx)

section Node

variable {accts accts' : Accounts}

theorem node_ticks (h : nodeEnv.Ticks accts accts') : accts' = accts :=
  h.invariant (P := fun x => x = accts) rfl fun _ _ _ ht => ht.elim

theorem nodeAnswer_quiet {c : ServiceCall} {r : c.Reply} (h : NodeAnswer accts c r accts')
    (hc : c.Quiet) : accts' = accts := by
  cases c with
  | rpc c => exact h
  | process c => exact h
  | client c =>
    cases c with
    | sendAndConfirmTransaction tx => exact absurd rfl (hc tx)
    | getMultipleAccounts pks => exact h.1
    | getLatestBlockhash => exact h.2
    | stopRequested => exact h.2
    | _ => exact h

/-- Without a broadcast, the accounts stay as they are. -/
theorem node_quiet {T : List (Accounts × Service.Event)} (hT : nodeEnv.Timeline accts T accts')
    (h : ∀ e ∈ T.map Prod.snd, e.call.Quiet) : (∀ x ∈ T, x.1 = accts) ∧ accts' = accts := by
  have hanswer : ∀ s e s', s = accts → NodeAnswer s e.call e.reply s' → (s, e) ∈ T →
      s' = accts := by
    rintro s e s' rfl ha hmem
    exact nodeAnswer_quiet ha (h e (List.mem_map_of_mem hmem))
  exact ⟨hT.invariant_mem (P := fun x => x = accts) rfl (fun _ _ _ ht => ht.elim) hanswer,
    hT.invariant (P := fun x => x = accts) rfl (fun _ _ _ ht => ht.elim) hanswer⟩

/-- A client call is played out by itself. -/
theorem implements_client_cons {rpc : Rpc} {sdk : Sdk} {c : ClientCall} {r : c.Reply}
    {u t : Service.Trace}
    (h : Implements (I := Service) (Service.implement rpc sdk) (⟨.client c, r⟩ :: u) t) :
    ∃ t', t = ⟨.client c, r⟩ :: t' ∧
      Implements (I := Service) (Service.implement rpc sdk) u t' := by
  cases h with
  | cons hc hu =>
    obtain ⟨r', t₂, rfl, rfl, rfl⟩ := hc
    exact ⟨_, rfl, hu⟩

/-- The last call, a method, is played out by client calls. -/
theorem implements_rpc {rpc : Rpc} {sdk : Sdk} {c : RpcCall} {r : Except Failure c.Result}
    {t : Service.Trace}
    (h : Implements (I := Service) (Service.implement rpc sdk) [⟨.rpc c, r⟩] t) :
    ∃ v, (c.prog rpc sdk).run.Runs v r ∧ t = v.map Service.clientEvent := by
  cases h with
  | cons hc hu =>
    obtain ⟨v, hv, rfl⟩ := Service.runs_implement_rpc hc
    obtain rfl := hu.eq_nil
    exact ⟨v, hv, List.append_nil _⟩

/-- A program that makes client calls only is run as it is. -/
theorem implements_client {rpc : Rpc} {sdk : Sdk} {u t : Service.Trace}
    (h : Implements (I := Service) (Service.implement rpc sdk) u t)
    (hu : ∀ e ∈ u, ∃ c, e.call = .client c) : t = u := by
  induction u generalizing t with
  | nil => exact h.eq_nil
  | cons e u ih =>
    obtain ⟨c, r⟩ := e
    obtain ⟨c, rfl⟩ := hu _ List.mem_cons_self
    obtain ⟨t', rfl, h'⟩ := implements_client_cons h
    rw [ih h' fun e he => hu e (List.mem_cons_of_mem _ he)]

end Node

/-! ### Resolving the banks -/

namespace BankRegistry

variable {rpc : Rpc} {sdk : Sdk} {marginfiProgram : Pubkey} {map : HashMap Pubkey Pubkey}
  {t : Service.Trace} {r : Except Failure BankRegistry}

theorem Resolution.calls (h : Resolution sdk marginfiProgram map t r) :
    ∀ e ∈ t, ∃ pks, e.call = .client (.getMultipleAccounts pks) ∧
      pks.length = map.entries.length := by
  have hbanks : (bankKeys map).length = map.entries.length := by
    rw [bankKeys, List.length_map, (sortedEntries_perm BytesLe map).length_eq, List.length_map]
  have hmints : ∀ {decoded : List DecodedBank} {bankAccts : List (Option Account)},
      decodeBanks sdk marginfiProgram (sortedEntries BytesLe map) bankAccts = .ok decoded →
        (decoded.map fun d => d.view.mint).length = map.entries.length := by
    intro decoded bankAccts hdecode
    have hlen := congrArg List.length (decodeBanks_ok hdecode).1
    rw [List.length_map, (sortedEntries_perm BytesLe map).length_eq, List.length_map] at hlen
    rw [List.length_map, hlen]
  cases h with
  | empty => exact List.forall_mem_nil _
  | banksFailed => exact List.forall_mem_singleton.2 ⟨_, rfl, hbanks⟩
  | banksRejected => exact List.forall_mem_singleton.2 ⟨_, rfl, hbanks⟩
  | mintsFailed _ _ _ hdecode | mintsRejected _ _ _ _ hdecode | resolved _ _ _ _ hdecode =>
    exact List.forall_mem_cons.2 ⟨⟨_, rfl, hbanks⟩,
      List.forall_mem_singleton.2 ⟨_, rfl, hmints hdecode⟩⟩

/-- A registry resolved has the mints of the map. -/
theorem Resolution.mints {registry : BankRegistry}
    (h : Resolution sdk marginfiProgram map t (.ok registry)) (mint : Pubkey) :
    mint ∈ registry.mints ↔ ∃ bank, map.lookup mint = some bank := by
  rw [mem_mints]
  cases h with
  | empty hnil =>
    constructor
    · rintro ⟨info, hinfo⟩
      cases hinfo
    · rintro ⟨bank, hbank⟩
      rw [← Option.mem_def, AList.mem_lookup_iff, hnil] at hbank
      cases hbank
  | resolved _ _ _ _ hdecode _ hinfos =>
    have hmap : Represents map fun mint bank => map.lookup mint = some bank := fun _ _ => Iff.rfl
    exact (resolved_entry hmap hdecode hinfos).1 mint

/-- The node answers a resolution in one state: nothing is sent. -/
theorem Resolution.answered {accts accts' : Accounts} {T : List (Accounts × Service.Event)}
    (h : Resolution sdk marginfiProgram map (T.map Prod.snd) r)
    (hT : nodeEnv.Timeline accts T accts') :
    ∀ e ∈ T.map Prod.snd, ∃ accts', NodeAnswer accts e.call e.reply accts' := by
  have hquiet : ∀ e ∈ T.map Prod.snd, e.call.Quiet := by
    intro e he tx htx
    obtain ⟨pks, hcall, -⟩ := h.calls e he
    rw [hcall] at htx
    cases htx
  intro e he
  obtain ⟨x, hx, rfl⟩ := List.mem_map.1 he
  rw [← (node_quiet hT hquiet).1 x hx]
  exact hT.answered hx

/-- The banks of `n` mints are resolved exactly when `n` is at most 100 and their authorities
derive. -/
theorem resolveFromChain_scales {accts accts' : Accounts} {T : List (Accounts × Service.Event)}
    (hvalid : ∀ mint bank, map.lookup mint = some bank →
      ValidBinding marginfiProgram accts mint bank)
    (hT : nodeEnv.Timeline accts T accts')
    (hrun : ((resolveFromChain sdk marginfiProgram map).run.interp
      (Service.implement rpc sdk)).Runs (T.map Prod.snd) r) :
    (∃ registry, r = .ok registry ∧
        (∀ mint, mint ∈ registry.mints ↔ ∃ bank, map.lookup mint = some bank) ∧
        ∀ e ∈ T.map Prod.snd, e.call.Within) ↔
      map.entries.length ≤ maxMultipleAccounts ∧
        ∀ mint bank, map.lookup mint = some bank →
          HasAuthority sdk marginfiProgram accts bank := by
  obtain ⟨u, hu, himp⟩ := Prog.runs_interp.1 hrun
  have hres := resolution_of_runs map u r hu
  have hclient : ∀ e ∈ u, ∃ c, e.call = .client c := by
    intro e he
    obtain ⟨pks, hcall, -⟩ := hres.calls e he
    exact ⟨_, hcall⟩
  obtain rfl := implements_client himp hclient
  by_cases hn : map.entries.length ≤ maxMultipleAccounts
  · -- both requests are answered from the accounts
    have haccts : ∀ e ∈ T.map Prod.snd, AnswersFrom accts e := by
      rintro e he pks reply rfl
      obtain ⟨_, -, hok, -⟩ := hres.answered hT _ he
      obtain ⟨pks', hcall, hlen⟩ := hres.calls _ he
      cases hcall
      exact hok (hlen.trans_le hn)
    have hwithin : ∀ e ∈ T.map Prod.snd, e.call.Within := by
      intro e he
      obtain ⟨pks, hcall, hlen⟩ := hres.calls e he
      rw [hcall]
      exact hlen.trans_le hn
    have hmap : Represents map fun mint bank => map.lookup mint = some bank := fun _ _ => Iff.rfl
    have hiff := resolveFromChain_ok_iff hmap hu haccts
    constructor
    · rintro ⟨registry, hr, -, -⟩
      exact ⟨hn, fun mint bank hbank => (hiff.1 ⟨registry, hr⟩ mint bank hbank).2⟩
    · rintro ⟨-, hauthority⟩
      obtain ⟨registry, rfl⟩ := hiff.2 fun mint bank hbank =>
        ⟨hvalid mint bank hbank, hauthority mint bank hbank⟩
      exact ⟨registry, rfl, hres.mints, hwithin⟩
  · -- the first request is refused
    refine ⟨fun ⟨registry, _, _, hwithin⟩ => ?_, fun h => absurd h.1 hn⟩
    have hne : map.entries ≠ [] := by
      intro hnil
      rw [hnil] at hn
      exact hn (Nat.zero_le _)
    obtain ⟨pks, reply, hmem⟩ := hres.asks hne
    obtain ⟨pks', hcall, hlen⟩ := hres.calls _ hmem
    have hle := hwithin _ hmem
    cases hcall
    exact absurd (hlen ▸ hle) hn

/-! ### Creating the token accounts -/

/-- The mint, the token account and the token program of every entry. -/
def atasOf (sdk : Sdk) (registry : BankRegistry) (feePayer : Pubkey) :
    List (Pubkey × Pubkey × Pubkey) :=
  registry.values.map fun info => (info.mint, info.ataFor sdk feePayer, info.tokenProgram)

/-- Those whose token account is not there. -/
def missingOf (sdk : Sdk) (registry : BankRegistry) (feePayer : Pubkey) (accts : Accounts) :
    List (Pubkey × Pubkey × Pubkey) :=
  (atasOf sdk registry feePayer).filter fun d => (accts d.2.1).isNone

/-- What creates the token accounts for these mints, behind the preamble. -/
def createIxs (rpc : Rpc) (sdk : Sdk) (feePayer : Pubkey)
    (missing : List (Pubkey × Pubkey × Pubkey)) : List Instruction :=
  rpc.priorityFeePreamble rpc.computeUnitLimit ++ missing.map fun (mint, _ata, tokenProgram) =>
    createAssociatedTokenAccountIdempotentIx sdk feePayer feePayer mint tokenProgram

/-- The bytes of the transaction that creates them, signed by the fee payer. -/
def createAtasSize (rpc : Rpc) (sdk : Sdk) (feePayer : Pubkey)
    (missing : List (Pubkey × Pubkey × Pubkey)) : ℕ :=
  legacySize 1 feePayer ((createIxs rpc sdk feePayer missing).filterMap Instruction.parts)

/-- What the size of one creation depends on. -/
def createParts (sdk : Sdk) (feePayer : Pubkey) (d : Pubkey × Pubkey × Pubkey) :
    InstructionParts where
  programId := ataProgramId
  accounts := [feePayer,
    sdk.findProgramAddress [feePayer.toList, d.2.2.toList, d.1.toList] ataProgramId, feePayer, d.1,
    systemProgramId, d.2.2]
  dataLen := 1

theorem parts_createIxs (feePayer : Pubkey) (missing : List (Pubkey × Pubkey × Pubkey)) :
    (createIxs rpc sdk feePayer missing).filterMap Instruction.parts =
      (rpc.priorityFeePreamble rpc.computeUnitLimit).filterMap Instruction.parts ++
        missing.map (createParts sdk feePayer) := by
  rw [createIxs, List.filterMap_append, List.filterMap_map, ← List.filterMap_eq_map]
  rfl

/-- The preamble is one or two instructions of at most 20 bytes together, without accounts. -/
theorem parts_preamble (rpc : Rpc) (units : UInt32) :
    ∃ parts, (rpc.priorityFeePreamble units).filterMap Instruction.parts = parts ∧
      parts.length ≤ 2 ∧ (parts.map InstructionParts.size).sum ≤ 20 ∧
        ∀ p ∈ parts, p.programId = computeBudgetProgramId ∧ p.accounts = [] := by
  unfold Rpc.priorityFeePreamble
  split
  · exact ⟨[⟨computeBudgetProgramId, [], 5⟩, ⟨computeBudgetProgramId, [], 9⟩], rfl, by decide,
      by decide, by simp⟩
  · exact ⟨[⟨computeBudgetProgramId, [], 5⟩], rfl, by decide, by decide, by simp⟩

/-- The keys of the transaction, some of them twice. -/
def createKeys (sdk : Sdk) (feePayer : Pubkey) (missing : List (Pubkey × Pubkey × Pubkey)) :
    List Pubkey :=
  [feePayer, ataProgramId, computeBudgetProgramId, systemProgramId, splTokenLegacyId,
    splToken2022Id] ++ missing.flatMap fun d =>
      [d.1, sdk.findProgramAddress [feePayer.toList, d.2.2.toList, d.1.toList] ataProgramId]

theorem accounts_subset_createKeys {feePayer : Pubkey} {missing : List (Pubkey × Pubkey × Pubkey)}
    {d : Pubkey × Pubkey × Pubkey} (hd : d ∈ missing)
    (hprogram : d.2.2 = splTokenLegacyId ∨ d.2.2 = splToken2022Id) :
    (createParts sdk feePayer d).accounts ⊆ createKeys sdk feePayer missing := by
  intro key hkey
  simp only [createParts, List.mem_cons, List.not_mem_nil, or_false] at hkey
  simp only [createKeys, List.mem_append, List.mem_cons, List.not_mem_nil, or_false,
    List.mem_flatMap]
  rcases hkey with rfl | rfl | rfl | rfl | rfl | rfl
  · simp
  · exact .inr ⟨d, hd, .inr rfl⟩
  · simp
  · exact .inr ⟨d, hd, .inl rfl⟩
  · simp
  · rcases hprogram with h | h <;> simp [h]

/-- **Twelve missing token accounts fit** in one transaction. -/
theorem createAtasSize_le {feePayer : Pubkey} {missing : List (Pubkey × Pubkey × Pubkey)}
    (htwelve : missing.length ≤ 12)
    (hprogram : ∀ d ∈ missing, d.2.2 = splTokenLegacyId ∨ d.2.2 = splToken2022Id) :
    createAtasSize rpc sdk feePayer missing ≤ packetDataSize := by
  obtain ⟨budget, hbudget, hcount, hsum, hbudgetKeys⟩ := parts_preamble rpc rpc.computeUnitLimit
  unfold createAtasSize
  rw [parts_createIxs, hbudget]
  -- six keys of the transaction, and two for each token account
  have hkeys : (createKeys sdk feePayer missing).length ≤ 30 := by
    simp only [createKeys, List.length_append, List.length_cons, List.length_nil,
      List.length_flatMap, List.map_const', List.sum_replicate_nat]
    omega
  have hmessage : (messageKeys feePayer (budget ++ missing.map (createParts sdk feePayer))).length ≤
      (createKeys sdk feePayer missing).length := by
    refine length_messageKeys_le (fun p hp => ?_) List.mem_cons_self
    rcases List.mem_append.1 hp with hp | hp
    · obtain ⟨hbudgetProgram, haccounts⟩ := hbudgetKeys p hp
      rw [hbudgetProgram, haccounts]
      exact ⟨by simp [createKeys], List.nil_subset _⟩
    · obtain ⟨d, hd, rfl⟩ := List.mem_map.1 hp
      exact ⟨by simp [createKeys, createParts], accounts_subset_createKeys hd (hprogram d hd)⟩
  have hsize : ((budget ++ missing.map (createParts sdk feePayer)).map InstructionParts.size).sum ≤
      140 := by
    have hten : (missing.map fun d => (createParts sdk feePayer d).size).sum =
        missing.length * 10 := by
      simp [createParts, InstructionParts.size, compactLen]
    rw [List.map_append, List.sum_append, List.map_map]
    simp only [Function.comp_def, hten]
    omega
  have hparts : compactLen (budget ++ missing.map (createParts sdk feePayer)).length ≤ 1 := by
    refine compactLen_mono (n := 14) ?_
    rw [List.length_append, List.length_map]
    omega
  refine (legacySize_le (hmessage.trans hkeys) hsize).trans ?_
  have hone : compactLen 1 = 1 := rfl
  have hthirty : compactLen 30 = 1 := rfl
  rw [hone, hthirty, packetDataSize]
  omega

theorem missingAtas_answered (accts : Accounts) (derived : List (Pubkey × Pubkey × Pubkey)) :
    missingAtas derived (derived.map fun d => accts d.2.1) =
      .ok (derived.filter fun d => (accts d.2.1).isNone) := by
  induction derived with
  | nil => rfl
  | cons d derived ih =>
    rw [List.map_cons, missingAtas, ih, List.filter_cons]
    rfl

theorem parts_isSome_preamble {ix : Instruction} {units : UInt32}
    (h : ix ∈ rpc.priorityFeePreamble units) : ix.parts.isSome = true := by
  unfold Rpc.priorityFeePreamble at h
  split at h
  · simp only [List.mem_cons, List.not_mem_nil, or_false] at h
    rcases h with rfl | rfl <;> rfl
  · rw [List.mem_singleton.1 h]
    rfl

/-- The size of the transaction does not depend on its blockhash. -/
theorem wireSize_create (feePayer : Pubkey) (missing : List (Pubkey × Pubkey × Pubkey))
    (blockhash : Hash) :
    (Transaction.newSignedWithPayer sdk (createIxs rpc sdk feePayer missing) feePayer [feePayer]
      blockhash).wireSize = some (createAtasSize rpc sdk feePayer missing) := by
  have hknown : (createIxs rpc sdk feePayer missing).all (fun ix => ix.parts.isSome) = true := by
    refine List.all_eq_true.2 fun ix hix => ?_
    rcases List.mem_append.1 hix with hix | hix
    · exact parts_isSome_preamble hix
    · obtain ⟨d, -, rfl⟩ := List.mem_map.1 hix
      rfl
  exact if_pos hknown

/-- Every token account asked for is among those the transaction creates. -/
theorem createdAta_createIxs {feePayer : Pubkey} {missing : List (Pubkey × Pubkey × Pubkey)}
    {d : Pubkey × Pubkey × Pubkey} (h : d ∈ missing) :
    sdk.findProgramAddress [feePayer.toList, d.2.2.toList, d.1.toList] ataProgramId ∈
      (createIxs rpc sdk feePayer missing).filterMap Instruction.createdAta :=
  List.mem_filterMap.2 ⟨_, List.mem_append_right _ (List.mem_map_of_mem h), by
    simp [createAssociatedTokenAccountIdempotentIx, Instruction.createdAta]⟩

/-- The runs of `ensureAtasFor`, one constructor for each way to end. -/
inductive AtaRun (sdk : Sdk) (registry : BankRegistry) (feePayer : Pubkey) :
    Service.Trace → Except Failure Unit → Prop
  | empty (hempty : registry.isEmpty = true) : AtaRun sdk registry feePayer [] (.ok ())
  | failed (hempty : registry.isEmpty = false)
      (reply : Except ClientError (List (Option Account)))
      (hreply : ∀ existing, reply = .ok existing →
        ∃ e, missingAtas (atasOf sdk registry feePayer) existing = .error e) (err : Failure) :
      AtaRun sdk registry feePayer
        [⟨.client (.getMultipleAccounts ((atasOf sdk registry feePayer).map fun d => d.2.1)),
          reply⟩] (.error err)
  | nothingMissing (hempty : registry.isEmpty = false) (existing : List (Option Account))
      (hmissing : missingAtas (atasOf sdk registry feePayer) existing = .ok []) :
      AtaRun sdk registry feePayer
        [⟨.client (.getMultipleAccounts ((atasOf sdk registry feePayer).map fun d => d.2.1)),
          .ok existing⟩] (.ok ())
  | sent (hempty : registry.isEmpty = false) (existing : List (Option Account))
      (missing : List (Pubkey × Pubkey × Pubkey))
      (hmissing : missingAtas (atasOf sdk registry feePayer) existing = .ok missing)
      (hne : missing ≠ []) (reply : Except Failure Signature) (r : Except Failure Unit)
      (hr : r = .ok () ↔ ∃ sig, reply = .ok sig) :
      AtaRun sdk registry feePayer
        [⟨.client (.getMultipleAccounts ((atasOf sdk registry feePayer).map fun d => d.2.1)),
          .ok existing⟩,
          ⟨.rpc (.sendSignedLabeled "create_atas" (missing.map fun (mint, _ata, tokenProgram) =>
            createAssociatedTokenAccountIdempotentIx sdk feePayer feePayer mint tokenProgram)
            [feePayer]), reply⟩] r

/-- The context of a failed send changes its text, not that it failed. -/
theorem withContext_rpc_spec (msg : String) (c : RpcCall) :
    (withContext msg (Service.rpc c)).Spec fun t r =>
      ∃ reply, t = [⟨.rpc c, reply⟩] ∧ ((∃ a, r = .ok a) ↔ ∃ a, reply = .ok a) := by
  have hask : (Service.rpc c).Spec fun t r =>
      ∃ reply, t = [⟨.rpc c, reply⟩] ∧ ((∃ a, r = .ok a) ↔ ∃ a, reply = .ok a) :=
    Fallible.spec_ask fun reply => ⟨reply, rfl, Iff.rfl⟩
  refine Fallible.spec_mapError hask (fun _ _ h => h) ?_
  rintro t e ⟨reply, ht, hr⟩
  have hnot : ¬ ∃ a, reply = .ok a := fun h => nomatch hr.2 h
  exact ⟨reply, ht, iff_of_false nofun hnot⟩

theorem ensureAtasFor_runs (registry : BankRegistry) (feePayer : Pubkey) :
    (ensureAtasFor sdk registry feePayer).Spec (AtaRun sdk registry feePayer) := by
  unfold ensureAtasFor
  refine Fallible.spec_ite (fun h => Fallible.spec_pure (.empty h)) fun h => ?_
  have hempty : registry.isEmpty = false := by simpa using h
  refine Fallible.spec_ask_bind (fun reply e hr => ?_) fun reply existing hr => ?_
  · cases reply <;> cases hr
    exact .failed hempty (.error _) nofun _
  cases reply <;> cases hr
  change Fallible.Spec (liftExcept (missingAtas (atasOf sdk registry feePayer) existing) >>= _) _
  cases hmissing : missingAtas (atasOf sdk registry feePayer) existing with
  | error e =>
    refine Fallible.spec_throw (.failed hempty _ ?_ e)
    rintro existing' ⟨⟩
    exact ⟨e, hmissing⟩
  | ok missing =>
    refine Fallible.spec_ite (fun hnone => Fallible.spec_pure ?_) fun hsome => ?_
    · rw [List.isEmpty_iff.1 hnone] at hmissing
      exact .nothingMissing hempty existing hmissing
    have hne : missing ≠ [] := fun hnil => hsome (List.isEmpty_iff.2 hnil)
    refine Fallible.spec_bind (withContext_rpc_spec _ _) ?_ ?_
    · rintro t e ⟨reply, rfl, hr⟩
      have hnot : ¬ ∃ a, reply = .ok a := fun h => nomatch hr.2 h
      exact .sent hempty existing missing hmissing hne reply _ (iff_of_false nofun hnot)
    · rintro t sig ⟨reply, rfl, hr⟩
      refine Fallible.spec_pure ?_
      rw [List.append_nil]
      exact .sent hempty existing missing hmissing hne reply _
        ⟨fun _ => hr.1 ⟨sig, rfl⟩, fun _ => rfl⟩

theorem AtaRun.of_empty {registry : BankRegistry} {feePayer : Pubkey} {t : Service.Trace}
    {r : Except Failure Unit} (h : AtaRun sdk registry feePayer t r)
    (hempty : registry.isEmpty = true) : t = [] ∧ r = .ok () := by
  cases h with
  | empty => exact ⟨rfl, rfl⟩
  | failed h | nothingMissing h | sent h =>
    rw [hempty] at h
    cases h

/-- The accounts of a registry that is not empty are asked for first. -/
theorem AtaRun.asks {registry : BankRegistry} {feePayer : Pubkey} {t : Service.Trace}
    {r : Except Failure Unit} (h : AtaRun sdk registry feePayer t r)
    (hempty : ¬ registry.isEmpty = true) : ∃ reply t', t = (⟨.client (.getMultipleAccounts
      ((atasOf sdk registry feePayer).map fun d => d.2.1)), reply⟩ : Service.Event) :: t' := by
  cases h with
  | empty h => exact absurd h hempty
  | failed | nothingMissing | sent => exact ⟨_, _, rfl⟩

/-- The node raises no stop flag and serves blockhashes. -/
theorem node_goesThrough {accts accts' : Accounts} {T : List (Accounts × Service.Event)}
    {v : Client.Trace} (hT : nodeEnv.Timeline accts T accts')
    (hmap : T.map Prod.snd = v.map Service.clientEvent) : ∀ e ∈ v, Rpc.GoesThrough e := by
  rintro ⟨c, r⟩ he
  have hmem : Service.clientEvent ⟨c, r⟩ ∈ T.map Prod.snd := hmap ▸ List.mem_map_of_mem he
  obtain ⟨x, hx, heq⟩ := List.mem_map.1 hmem
  obtain ⟨s', ha⟩ := hT.answered hx
  rw [heq] at ha
  cases c with
  | stopRequested => exact ha.1
  | getLatestBlockhash => exact ha.1
  | _ => trivial

/-- **The one transaction**: it is accepted, and creates the token accounts, exactly when it is not
too large. -/
theorem sendCreate_node {feePayer : Pubkey} {missing : List (Pubkey × Pubkey × Pubkey)}
    {accts accts' : Accounts} {T : List (Accounts × Service.Event)} {v : Client.Trace}
    {reply : Except Failure Signature}
    (hv : (rpc.sendSignedLabeled sdk "create_atas" (missing.map fun (mint, _ata, tokenProgram) =>
      createAssociatedTokenAccountIdempotentIx sdk feePayer feePayer mint tokenProgram)
      [feePayer]).run.Runs v reply)
    (hT : nodeEnv.Timeline accts T accts') (hmap : T.map Prod.snd = v.map Service.clientEvent) :
    if createAtasSize rpc sdk feePayer missing ≤ packetDataSize then
      (∃ sig, reply = .ok sig) ∧
        Creates ((createIxs rpc sdk feePayer missing).filterMap Instruction.createdAta) accts
          accts' ∧
          ∀ e ∈ T.map Prod.snd, e.call.Within
    else ∃ e ∈ T.map Prod.snd, ¬ e.call.Within := by
  have hloop : (rpc.retryLoop (fun blockhash => .ok (Transaction.newSignedWithPayer sdk
      (createIxs rpc sdk feePayer missing) feePayer [feePayer] blockhash)) [0, 1, 2]
      none).run.Runs v reply := by
    have h : (rpc.sendWithRetry sdk (createIxs rpc sdk feePayer missing) [feePayer]
      feePayer).run.Runs v reply := hv
    rw [Rpc.sendWithRetry_eq] at h
    exact h
  -- the first attempt decides: what comes before its broadcast only prepares it
  obtain ⟨v₀, blockhash, sent, v₁, rfl, hprepares, hend⟩ :=
    rpc.retryLoop_first (fun _ => List.cons_ne_nil _ _) 0 [1, 2] v reply hloop
      (node_goesThrough hT hmap)
  rw [List.map_append, List.map_cons] at hmap
  obtain ⟨T₀, T₂, rfl, hT₀, hT₂⟩ := List.map_eq_append_iff.1 hmap
  obtain ⟨⟨s, e⟩, T₁, rfl, rfl, hT₁⟩ := List.map_eq_cons_iff.1 hT₂
  obtain ⟨s₀, hbefore, hs, s₂, hsend, hafter⟩ := Env.timeline_append.1 hT
  have hbefore₀ : ∀ e ∈ T₀.map Prod.snd, e.call.Quiet ∧ e.call.Within := by
    intro e he
    rw [hT₀] at he
    obtain ⟨⟨c, r⟩, he', rfl⟩ := List.mem_map.1 he
    rcases hprepares _ he' with rfl | rfl
    · exact ⟨nofun, trivial⟩
    · exact ⟨nofun, trivial⟩
  have hstate : s = accts := (node_ticks hs).trans
    (node_quiet hbefore fun e he => (hbefore₀ e he).1).2
  subst hstate
  -- so the send meets the accounts as they were at the start
  obtain ⟨hfits, hlarge⟩ := hsend _ (wireSize_create feePayer missing blockhash)
  split_ifs with hsize
  · obtain ⟨⟨sig, rfl⟩, hcreates⟩ := hfits hsize
    obtain ⟨rfl, rfl⟩ := hend sig rfl
    obtain rfl := List.map_eq_nil_iff.1 hT₁
    obtain rfl := node_ticks hafter
    refine ⟨⟨sig, rfl⟩, hcreates, ?_⟩
    rw [List.map_append]
    refine List.forall_mem_append.2 ⟨fun e he => (hbefore₀ e he).2, ?_⟩
    refine List.forall_mem_singleton.2 fun n hn => ?_
    rw [wireSize_create, Option.some.injEq] at hn
    exact hn ▸ hsize
  · refine ⟨_, List.mem_map_of_mem (List.mem_append_right T₀ List.mem_cons_self), fun hwithin => ?_⟩
    exact hsize (hwithin _ (wireSize_create feePayer missing blockhash))

theorem mem_atasOf {registry : BankRegistry} {feePayer : Pubkey} {info : BankInfo}
    (h : info ∈ registry.values) :
    (info.mint, info.ataFor sdk feePayer, info.tokenProgram) ∈ atasOf sdk registry feePayer :=
  List.mem_map_of_mem h

/-- Once those that are missing are created, all token accounts are there. -/
theorem exists_of_creates {registry : BankRegistry} {feePayer : Pubkey} {accts accts' : Accounts}
    (h : Creates ((createIxs rpc sdk feePayer (missingOf sdk registry feePayer accts)).filterMap
      Instruction.createdAta) accts accts') {info : BankInfo} (hinfo : info ∈ registry.values) :
    accts' (info.ataFor sdk feePayer) ≠ none := by
  by_cases hthere : accts (info.ataFor sdk feePayer) = none
  · have hmissing : (info.mint, info.ataFor sdk feePayer, info.tokenProgram) ∈
        missingOf sdk registry feePayer accts :=
      List.mem_filter.2 ⟨mem_atasOf hinfo, by simp [hthere]⟩
    exact h.1 _ (createdAta_createIxs hmissing)
  · rw [h.2 _ hthere]
    exact hthere

/-- When none is missing, all token accounts are there. -/
theorem exists_of_missingOf_eq_nil {registry : BankRegistry} {feePayer : Pubkey} {accts : Accounts}
    (h : missingOf sdk registry feePayer accts = []) {info : BankInfo}
    (hinfo : info ∈ registry.values) : accts (info.ataFor sdk feePayer) ≠ none := by
  intro hgone
  exact List.filter_eq_nil_iff.1 h _ (mem_atasOf hinfo) (by simp [hgone])

theorem values_of_isEmpty {registry : BankRegistry} (h : registry.isEmpty = true) :
    registry.values = [] ∧ registry.len = 0 := by
  have hentries : registry.byMint.entries = [] := List.isEmpty_iff.1 h
  rw [values, len, hentries]
  exact ⟨rfl, rfl⟩

/-- The missing token accounts are created exactly when there are at most 100 mints and the one
transaction that creates them has at most 1232 bytes, or none is missing. -/
theorem ensureAtasFor_scales {registry : BankRegistry} {feePayer : Pubkey}
    {accts accts' : Accounts} {T : List (Accounts × Service.Event)} {r : Except Failure Unit}
    (hT : nodeEnv.Timeline accts T accts')
    (hrun : ((ensureAtasFor sdk registry feePayer).run.interp
      (Service.implement rpc sdk)).Runs (T.map Prod.snd) r) :
    (r = .ok () ∧ (∀ info ∈ registry.values, accts' (info.ataFor sdk feePayer) ≠ none) ∧
        ∀ e ∈ T.map Prod.snd, e.call.Within) ↔
      registry.len ≤ maxMultipleAccounts ∧
        (missingOf sdk registry feePayer accts = [] ∨
          createAtasSize rpc sdk feePayer (missingOf sdk registry feePayer accts) ≤
            packetDataSize) := by
  obtain ⟨u, hu, himp⟩ := Prog.runs_interp.1 hrun
  have hataRun : AtaRun sdk registry feePayer u r := ensureAtasFor_runs registry feePayer u r hu
  have hlen : ((atasOf sdk registry feePayer).map fun d => d.2.1).length = registry.len := by
    simp [atasOf, values, len]
  by_cases hempty : registry.isEmpty = true
  · -- nothing is done for an empty registry
    obtain ⟨hvalues, hzero⟩ := values_of_isEmpty hempty
    obtain ⟨rfl, rfl⟩ := hataRun.of_empty hempty
    rw [himp.eq_nil, missingOf, atasOf, hvalues, hzero]
    exact iff_of_true ⟨rfl, List.forall_mem_nil _, List.forall_mem_nil _⟩ ⟨Nat.zero_le _, .inl rfl⟩
  -- the token accounts are asked for first
  obtain ⟨reply, u', rfl⟩ := hataRun.asks hempty
  obtain ⟨t', ht, himp'⟩ := implements_client_cons himp
  obtain ⟨⟨s, e⟩, T', rfl, rfl, rfl⟩ := List.map_eq_cons_iff.1 ht
  obtain ⟨hs, s₂, ⟨hs₂, hok, -⟩, hT'⟩ := hT
  rw [hs₂, node_ticks hs] at hT'
  rw [node_ticks hs] at hok
  by_cases hn : registry.len ≤ maxMultipleAccounts
  · have hreply := hok (hlen.trans_le hn)
    rw [List.map_map] at hreply
    have hmissing : missingAtas (atasOf sdk registry feePayer)
        ((atasOf sdk registry feePayer).map (accts ∘ fun d => d.2.1)) =
          .ok (missingOf sdk registry feePayer accts) :=
      missingAtas_answered accts _
    have hfirst : (ServiceCall.client (.getMultipleAccounts
        ((atasOf sdk registry feePayer).map fun d => d.2.1))).Within := hlen.trans_le hn
    cases hataRun with
    | failed _ _ hfailed err =>
      obtain ⟨e, herr⟩ := hfailed _ hreply
      rw [hmissing] at herr
      cases herr
    | nothingMissing _ existing hnone =>
      obtain rfl := Except.ok.inj hreply
      have hnil := Except.ok.inj (hmissing.symm.trans hnone)
      obtain rfl := List.map_eq_nil_iff.1 himp'.eq_nil
      obtain rfl := node_ticks hT'
      refine iff_of_true ⟨rfl, fun info => exists_of_missingOf_eq_nil hnil, ?_⟩ ⟨hn, .inl hnil⟩
      exact List.forall_mem_singleton.2 hfirst
    | sent _ existing missing hsome hne reply _ hr =>
      obtain rfl := Except.ok.inj hreply
      obtain rfl := Except.ok.inj (hmissing.symm.trans hsome)
      obtain ⟨v, hv, hT'v⟩ := implements_rpc himp'
      have hsend := sendCreate_node hv hT' hT'v
      split_ifs at hsend with hsize
      · obtain ⟨hsig, hcreates, hwithin⟩ := hsend
        refine iff_of_true ⟨hr.2 hsig, fun info => exists_of_creates hcreates, ?_⟩ ⟨hn, .inr hsize⟩
        exact List.forall_mem_cons.2 ⟨hfirst, hwithin⟩
      · obtain ⟨e, he, hlarge⟩ := hsend
        constructor
        · rintro ⟨-, -, hwithin⟩
          exact absurd (hwithin e (List.mem_cons_of_mem _ he)) hlarge
        · rintro ⟨-, hnil | hle⟩
          · exact absurd hnil hne
          · exact absurd hle hsize
  · -- that request is too large
    refine ⟨?_, fun h => absurd h.1 hn⟩
    rintro ⟨-, -, hwithin⟩
    have hle : _ ≤ maxMultipleAccounts := hwithin _ List.mem_cons_self
    exact absurd (hlen ▸ hle) hn

/-! ### Both -/

/-- A registry of exactly the mints of the map is returned, within the limits of the node. -/
def ResolvesAll (map : HashMap Pubkey Pubkey) (t : Service.Trace)
    (r : Except Failure BankRegistry) : Prop :=
  ∃ registry, r = .ok registry ∧
    (∀ mint, mint ∈ registry.mints ↔ ∃ bank, map.lookup mint = some bank) ∧
    ∀ e ∈ t, e.call.Within

/-- All token accounts are there in the end, within the limits of the node. -/
def CreatesAll (sdk : Sdk) (registry : BankRegistry) (feePayer : Pubkey) (accts' : Accounts)
    (t : Service.Trace) (r : Except Failure Unit) : Prop :=
  r = .ok () ∧ (∀ info ∈ registry.values, accts' (info.ataFor sdk feePayer) ≠ none) ∧
    ∀ e ∈ t, e.call.Within

/-- **How far the boot scales.**  Valid banks of `n` mints are resolved exactly when `n` is at most
100 and their authorities derive; and the missing token accounts of `n` mints are created exactly
when `n` is at most 100 and either none is missing or the one transaction that creates them has at
most 1232 bytes. -/
theorem boot_scales_iff (rpc : Rpc) (sdk : Sdk) (marginfiProgram feePayer : Pubkey) :
    (∀ map accts accts' T r,
      (∀ mint bank, map.lookup mint = some bank → ValidBinding marginfiProgram accts mint bank) →
      nodeEnv.Timeline accts T accts' →
      ((resolveFromChain sdk marginfiProgram map).run.interp (Service.implement rpc sdk)).Runs
        (T.map Prod.snd) r →
      (ResolvesAll map (T.map Prod.snd) r ↔ map.entries.length ≤ maxMultipleAccounts ∧
        ∀ mint bank, map.lookup mint = some bank →
          HasAuthority sdk marginfiProgram accts bank)) ∧
    ∀ registry accts accts' T r, nodeEnv.Timeline accts T accts' →
      ((ensureAtasFor sdk registry feePayer).run.interp (Service.implement rpc sdk)).Runs
        (T.map Prod.snd) r →
      (CreatesAll sdk registry feePayer accts' (T.map Prod.snd) r ↔
        registry.len ≤ maxMultipleAccounts ∧ (missingOf sdk registry feePayer accts = [] ∨
          createAtasSize rpc sdk feePayer (missingOf sdk registry feePayer accts) ≤
            packetDataSize)) :=
  ⟨fun _ _ _ _ _ hvalid hT hrun => resolveFromChain_scales hvalid hT hrun,
    fun _ _ _ _ _ hT hrun => ensureAtasFor_scales hT hrun⟩

/-! ### Fourteen mints are too many -/

/-- The boot scales to any number of mints. -/
def BootScales (rpc : Rpc) (sdk : Sdk) (marginfiProgram feePayer : Pubkey) : Prop :=
  (∀ map accts accts' T r,
    (∀ mint bank, map.lookup mint = some bank → Resolvable sdk marginfiProgram accts mint bank) →
    nodeEnv.Timeline accts T accts' →
    ((resolveFromChain sdk marginfiProgram map).run.interp (Service.implement rpc sdk)).Runs
      (T.map Prod.snd) r → ResolvesAll map (T.map Prod.snd) r) ∧
  ∀ registry accts accts' T r, nodeEnv.Timeline accts T accts' →
    ((ensureAtasFor sdk registry feePayer).run.interp (Service.implement rpc sdk)).Runs
      (T.map Prod.snd) r → CreatesAll sdk registry feePayer accts' (T.map Prod.snd) r

/-- A node that answers as `NodeAnswer` says. -/
def nodeReply (accts : Accounts) : (c : ServiceCall) → c.Reply
  | .client (.getMultipleAccounts pks) =>
    if pks.length ≤ maxMultipleAccounts then .ok (pks.map accts)
    else .error ⟨.custom "too many", "too many"⟩
  | .client (.sendAndConfirmTransaction tx) =>
    if tx.wireSize.any (packetDataSize < ·) then .error ⟨.custom "too large", "too large"⟩
    else .ok default
  | .client .getLatestBlockhash => .ok default
  | c => c.refused

/-- The accounts after its reply. -/
def nodeNext (accts : Accounts) : (c : ServiceCall) → c.Reply → Accounts
  | .client (.sendAndConfirmTransaction tx), .ok _ => fun pk =>
    (accts pk).or (if (tx.message.ixs.filterMap Instruction.createdAta).contains pk then
      some (sampleTokenAccount 0) else none)
  | _, _ => accts

theorem nodeAnswer_nodeReply (accts : Accounts) (c : ServiceCall) :
    NodeAnswer accts c (nodeReply accts c) (nodeNext accts c (nodeReply accts c)) := by
  cases c with
  | rpc c => rfl
  | process c => rfl
  | client c =>
    cases c with
    | getMultipleAccounts pks =>
      refine ⟨rfl, fun h => if_pos h, fun h => ⟨_, if_neg (Nat.not_le.2 h)⟩⟩
    | sendAndConfirmTransaction tx =>
      intro n hn
      constructor
      · intro hfits
        have hreply : nodeReply accts (.client (.sendAndConfirmTransaction tx)) = .ok default := by
          simp [nodeReply, hn, hfits]
        rw [hreply]
        -- an account that was there stays as it was
        refine ⟨⟨_, rfl⟩, fun pk hpk => ?_, fun pk hpk => ?_⟩
        · cases hold : accts pk with
          | none => simp [nodeNext, hold, hpk]
          | some acct => simp [nodeNext, hold]
        · obtain ⟨acct, hold⟩ := Option.ne_none_iff_exists'.1 hpk
          simp [nodeNext, hold]
      · intro hlarge
        have hreply : nodeReply accts (.client (.sendAndConfirmTransaction tx)) =
            .error ⟨.custom "too large", "too large"⟩ := by
          simp [nodeReply, hn, hlarge]
        rw [hreply]
        exact ⟨⟨_, rfl⟩, rfl⟩
    | getLatestBlockhash => exact ⟨⟨_, rfl⟩, rfl⟩
    | stopRequested => exact ⟨rfl, rfl⟩
    | _ => rfl

section Samples

variable {α : Type} (p : Async Service α) (accts : Accounts)

/-- A run on this node. -/
def nodeExec : List (Accounts × Service.Event) × Except Failure α × Accounts :=
  Env.exec nodeReply nodeNext (p.run.interp (Service.implement sampleRpc .plain)) accts

theorem nodeExec_runs : (p.run.interp (Service.implement sampleRpc .plain)).Runs
    ((nodeExec p accts).1.map Prod.snd) (nodeExec p accts).2.1 :=
  Env.runs_exec _ _

theorem nodeExec_timeline :
    nodeEnv.Timeline accts (nodeExec p accts).1 (nodeExec p accts).2.2 :=
  Env.timeline_exec (E := nodeEnv) nodeAnswer_nodeReply _ _

end Samples

/-- A registry of the mints from 1 to 14. -/
def fourteenBanks : BankRegistry :=
  ⟨((List.range 14).map fun i => UInt8.ofNat (i + 1)).foldl (fun byMint i =>
    byMint.insert (.fill 32 i) (sampleBank i (i + 20))) ∅⟩

/-- With no token account there, the transaction has 1306 bytes. -/
theorem not_bootScales : ¬ BootScales sampleRpc .plain (.fill 32 7) (.fill 32 50) := by
  rintro ⟨-, hcreates⟩
  have hcreates := hcreates fourteenBanks (fun _ => none) _ _ _ (nodeExec_timeline _ _)
    (nodeExec_runs (ensureAtasFor .plain fourteenBanks (.fill 32 50)) fun _ => none)
  obtain ⟨-, hnone | hsize⟩ := (ensureAtasFor_scales (nodeExec_timeline _ _)
    (nodeExec_runs (ensureAtasFor .plain fourteenBanks (.fill 32 50)) fun _ => none)).1 hcreates
  · have hfourteen : (missingOf .plain fourteenBanks (.fill 32 50) fun _ => none).length = 14 := by
      rfl
    rw [hnone] at hfourteen
    cases hfourteen
  · have hlarge : createAtasSize sampleRpc .plain (.fill 32 50)
        (missingOf .plain fourteenBanks (.fill 32 50) fun _ => none) = 1306 := by decide +kernel
    rw [hlarge] at hsize
    exact absurd hsize (by decide)

/-- The two mints of `sampleAccount`. -/
def sampleBindings : HashMap Pubkey Pubkey :=
  ((∅ : HashMap Pubkey Pubkey).insert (.fill 32 2) (.fill 32 12)).insert (.fill 32 1) (.fill 32 11)

theorem sampleBindings_resolvable (mint bank : Pubkey)
    (h : sampleBindings.lookup mint = some bank) :
    Resolvable .plain (.fill 32 7) sampleAccount mint bank := by
  have hmem : ⟨mint, bank⟩ ∈ sampleBindings.entries := AList.mem_lookup_iff.1 h
  have hentries : sampleBindings.entries =
      [⟨.fill 32 1, .fill 32 11⟩, ⟨.fill 32 2, .fill 32 12⟩] := by rfl
  rw [hentries] at hmem
  rcases List.mem_cons.1 hmem with heq | hmem
  · cases heq
    exact sampleAccount_first
  · cases List.mem_singleton.1 hmem
    exact sampleAccount_second

/-- Two mints are resolved, and their token accounts created. -/
theorem boot_scales_sample :
    (∃ T r, ((resolveFromChain .plain (.fill 32 7) sampleBindings).run.interp
        (Service.implement sampleRpc .plain)).Runs T r ∧
      ResolvesAll sampleBindings T r ∧ 0 < T.length) ∧
    ∃ accts T r, ((ensureAtasFor .plain sampleBanks (.fill 32 50)).run.interp
        (Service.implement sampleRpc .plain)).Runs T r ∧
      CreatesAll .plain sampleBanks (.fill 32 50) accts T r ∧ 0 < T.length := by
  have hscales := boot_scales_iff sampleRpc .plain (.fill 32 7) (.fill 32 50)
  constructor
  · have hrun := nodeExec_runs (resolveFromChain .plain (.fill 32 7) sampleBindings) sampleAccount
    have hn : sampleBindings.entries.length ≤ maxMultipleAccounts := by decide
    have hvalid := fun mint bank h => (sampleBindings_resolvable mint bank h).1
    have hauthority := fun mint bank h => (sampleBindings_resolvable mint bank h).2
    exact ⟨_, _, hrun, (hscales.1 _ _ _ _ _ hvalid (nodeExec_timeline _ _) hrun).2
      ⟨hn, hauthority⟩, by decide +kernel⟩
  · have hrun := nodeExec_runs (ensureAtasFor .plain sampleBanks (.fill 32 50)) fun _ => none
    have hn : sampleBanks.len ≤ maxMultipleAccounts := by decide
    have hsize : createAtasSize sampleRpc .plain (.fill 32 50)
        (missingOf .plain sampleBanks (.fill 32 50) fun _ => none) ≤ packetDataSize := by
      decide
    exact ⟨_, _, _, hrun, (hscales.2 _ _ _ _ _ (nodeExec_timeline _ _) hrun).2
      ⟨hn, .inr hsize⟩, by decide⟩

end BankRegistry

end YdeltaCrankers
