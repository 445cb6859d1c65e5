import YdeltaCrankers.Discovery.Bindings

/-!
# What discovery returns

Discovery joins four lists by index: the sorted bindings, the bank accounts, the decoded banks and
the mint accounts.  `ResolvedFrom` says what it checks of the two accounts of one binding and what
it records.

**Main theorem** (`discover_exact`): for any list of markets, discovery asks for the bank accounts
exactly when no mint is bound to two banks; the order of the markets does not matter; it never
panics when the replies are as long as the requests; and a registry it returns has exactly the
mints of the markets, each entry resolved from the accounts of its own binding.
-/

namespace YdeltaCrankers

open Interaction Collections

/-- The entry of `mint`, as checked and recorded from the account of its bank and its own. -/
def ResolvedFrom (sdk : Sdk) (marginfiProgram mint bank : Pubkey) (bankAcct mintAcct : Account)
    (info : BankInfo) : Prop :=
  bankAcct.owner = marginfiProgram ∧
  (mintAcct.owner = splTokenLegacyId ∨ mintAcct.owner = splToken2022Id) ∧
  ∃ view lva, BankView.tryFromAccountData bankAcct.data = .ok view ∧ view.mint = mint ∧
    1 ≤ view.oracles.length ∧ view.oracles.length ≤ 5 ∧
    sdk.createProgramAddress [liquidityVaultAuthoritySeed, bank.toList, [view.lvaBump]]
      marginfiProgram = .ok lva ∧
    info = {
      mint := mint
      bank := bank
      liquidityVault := view.liquidityVault
      liquidityVaultAuthority := lva
      oracles := view.oracles
      tokenProgram := mintAcct.owner
      oracleSetup := view.oracleSetup }

namespace BankRegistry

variable {sdk : Sdk} {marginfiProgram : Pubkey}

/-! ### One bank -/

theorem decodeBank_ok {mint bank : Pubkey} {acct : Option Account} {d : DecodedBank}
    (h : decodeBank sdk marginfiProgram mint bank acct = .ok d) :
    ∃ bankAcct view lva, acct = some bankAcct ∧ d = ⟨mint, bank, view, lva⟩ ∧
      bankAcct.owner = marginfiProgram ∧
      BankView.tryFromAccountData bankAcct.data = .ok view ∧ view.mint = mint ∧
      sdk.createProgramAddress [liquidityVaultAuthoritySeed, bank.toList, [view.lvaBump]]
        marginfiProgram = .ok lva := by
  unfold decodeBank at h
  cases acct with
  | none => cases h
  | some bankAcct =>
    simp only at h
    split at h
    · cases h
    rename_i howner
    cases hview : BankView.tryFromAccountData bankAcct.data with
    | error e => rw [hview] at h; cases h
    | ok view =>
      rw [hview] at h
      simp only at h
      split at h
      · cases h
      rename_i hmint
      split at h
      · cases h
      · rename_i lva hlva
        cases h
        exact ⟨bankAcct, view, lva, rfl, rfl, not_not.1 howner, hview, not_not.1 hmint, hlva⟩

theorem noPanic_decodeBank (mint bank : Pubkey) (acct : Option Account) :
    NoPanic (decodeBank sdk marginfiProgram mint bank acct) := by
  unfold decodeBank
  cases acct with
  | none => exact noPanic_error _
  | some bankAcct =>
    simp only
    split
    · exact noPanic_error _
    have hdecode := BankView.noPanic_tryFromAccountData bankAcct.data
    cases hview : BankView.tryFromAccountData bankAcct.data with
    | error e =>
      rw [hview] at hdecode
      exact hdecode.context
    | ok view =>
      simp only
      split
      · exact noPanic_error _
      split
      · exact noPanic_error _
      · exact noPanic_ok _

theorem tokenProgramOf_ok {mint tokenProgram : Pubkey} {m : Account}
    (h : tokenProgramOf mint m = .ok tokenProgram) :
    m.owner = tokenProgram ∧ (m.owner = splTokenLegacyId ∨ m.owner = splToken2022Id) := by
  unfold tokenProgramOf at h
  split at h
  · rename_i heq
    cases h
    exact ⟨heq, .inl heq⟩
  split at h
  · rename_i heq
    cases h
    exact ⟨heq, .inr heq⟩
  · cases h

theorem noPanic_tokenProgramOf (mint : Pubkey) (m : Account) : NoPanic (tokenProgramOf mint m) := by
  unfold tokenProgramOf
  split
  · exact noPanic_ok _
  split
  · exact noPanic_ok _
  · exact noPanic_error _

/-- The entry made of a decoded bank and the account of its mint. -/
theorem bankInfo_ok {d : DecodedBank} {acct : Option Account} {info : BankInfo}
    (h : bankInfo d acct = .ok info) :
    ∃ mintAcct, acct = some mintAcct ∧
      (mintAcct.owner = splTokenLegacyId ∨ mintAcct.owner = splToken2022Id) ∧
      1 ≤ d.view.oracles.length ∧ d.view.oracles.length ≤ 5 ∧
      info = {
        mint := d.mint
        bank := d.bank
        liquidityVault := d.view.liquidityVault
        liquidityVaultAuthority := d.lva
        oracles := d.view.oracles
        tokenProgram := mintAcct.owner
        oracleSetup := d.view.oracleSetup } := by
  unfold bankInfo at h
  cases acct with
  | none => cases h
  | some mintAcct =>
    obtain ⟨tokenProgram, hprogram, h⟩ := except_bind_eq_ok.1 h
    have howner := tokenProgramOf_ok hprogram
    split at h
    · cases h
    rename_i horacles
    cases h
    rw [not_or, List.isEmpty_iff_length_eq_zero] at horacles
    exact ⟨mintAcct, rfl, howner.2, by omega, by omega, by rw [howner.1]⟩

theorem noPanic_bankInfo (d : DecodedBank) (acct : Option Account) :
    NoPanic (bankInfo d acct) := by
  unfold bankInfo
  cases acct with
  | none => exact noPanic_error _
  | some mintAcct =>
    refine (noPanic_tokenProgramOf _ _).bind fun tokenProgram _ => ?_
    split
    · exact noPanic_error _
    · exact noPanic_ok _

/-! ### All banks, joined by index -/

/-- Each decoded bank comes from the account at its own index. -/
theorem decodeBanks_ok {entries : List (Pubkey × Pubkey)} {accts : List (Option Account)}
    {decoded : List DecodedBank} (h : decodeBanks sdk marginfiProgram entries accts = .ok decoded) :
    decoded.map (fun d => (d.mint, d.bank)) = entries ∧
    ∀ (i : ℕ) d, decoded[i]? = some d → ∃ bankAcct, accts[i]? = some (some bankAcct) ∧
      decodeBank sdk marginfiProgram d.mint d.bank (some bankAcct) = .ok d := by
  induction entries generalizing accts decoded with
  | nil => cases h; exact ⟨rfl, by simp⟩
  | cons entry entries ih =>
    obtain ⟨mint, bank⟩ := entry
    cases accts with
    | nil => cases h
    | cons acct accts =>
      simp only [decodeBanks, except_bind_eq_ok] at h
      obtain ⟨d, hd, rest, hrest, h⟩ := h
      cases h
      obtain ⟨bankAcct, view, lva, rfl, rfl, -⟩ := decodeBank_ok hd
      obtain ⟨hmap, hindex⟩ := ih hrest
      refine ⟨by rw [List.map_cons, hmap], fun i d hi => ?_⟩
      cases i with
      | zero =>
        cases hi
        exact ⟨bankAcct, rfl, hd⟩
      | succ i => exact hindex i d hi

theorem noPanic_decodeBanks {entries : List (Pubkey × Pubkey)} {accts : List (Option Account)}
    (h : accts.length = entries.length) :
    NoPanic (decodeBanks sdk marginfiProgram entries accts) := by
  induction entries generalizing accts with
  | nil => exact noPanic_ok _
  | cons entry entries ih =>
    cases accts with
    | nil => cases h
    | cons acct accts =>
      refine (noPanic_decodeBank _ _ _).bind fun d _ => ?_
      exact (ih (Nat.succ.inj h)).bind fun rest _ => noPanic_ok _

/-- Each entry comes from the mint account at the index of its bank. -/
theorem bankInfos_ok {decoded : List DecodedBank} {accts : List (Option Account)}
    {byMint byMint' : HashMap Pubkey BankInfo} (h : bankInfos decoded accts byMint = .ok byMint')
    (hnodup : (decoded.map DecodedBank.mint).Nodup) :
    (∀ mint, mint ∉ decoded.map DecodedBank.mint → byMint'.lookup mint = byMint.lookup mint) ∧
    ∀ (i : ℕ) d, decoded[i]? = some d → ∃ mintAcct info, accts[i]? = some (some mintAcct) ∧
      bankInfo d (some mintAcct) = .ok info ∧ byMint'.lookup d.mint = some info := by
  induction decoded generalizing accts byMint with
  | nil => cases h; simp
  | cons d decoded ih =>
    cases accts with
    | nil => cases h
    | cons acct accts =>
      simp only [bankInfos, except_bind_eq_ok] at h
      obtain ⟨info, hinfo, h⟩ := h
      obtain ⟨mintAcct, rfl, -⟩ := bankInfo_ok hinfo
      rw [List.map_cons, List.nodup_cons] at hnodup
      obtain ⟨hout, hin⟩ := ih h hnodup.2
      constructor
      · intro mint hmem
        rw [List.map_cons, List.mem_cons, not_or] at hmem
        rw [hout mint hmem.2, AList.lookup_insert_ne hmem.1]
      · intro i d' hi
        cases i with
        | zero =>
          cases hi
          exact ⟨mintAcct, info, rfl, hinfo, by rw [hout _ hnodup.1, AList.lookup_insert]⟩
        | succ i => exact hin i d' hi

theorem noPanic_bankInfos {decoded : List DecodedBank} {accts : List (Option Account)}
    {byMint : HashMap Pubkey BankInfo} (h : accts.length = decoded.length) :
    NoPanic (bankInfos decoded accts byMint) := by
  induction decoded generalizing accts byMint with
  | nil => exact noPanic_ok _
  | cons d decoded ih =>
    cases accts with
    | nil => cases h
    | cons acct accts =>
      exact (noPanic_bankInfo _ _).bind fun info _ => ih (Nat.succ.inj h)

/-! ### Every run -/

/-- The banks in the order of their mints. -/
def bankKeys (map : HashMap Pubkey Pubkey) : List Pubkey :=
  (sortedEntries BytesLe map).map Prod.snd

/-- The runs of `resolveFromChain`, one constructor for each way to end. -/
inductive Resolution (sdk : Sdk) (marginfiProgram : Pubkey) (map : HashMap Pubkey Pubkey) :
    Service.Trace → Except Failure BankRegistry → Prop
  | empty (hmap : map.entries = []) : Resolution sdk marginfiProgram map [] (.ok default)
  | banksFailed (hmap : map.entries ≠ []) (e : ClientError) :
      Resolution sdk marginfiProgram map
        [⟨.client (.getMultipleAccounts (bankKeys map)), .error e⟩]
        (.error (.error
          (e.toError.context "BANKS resolve: get_multiple_accounts(banks) failed")))
  | banksRejected (hmap : map.entries ≠ []) (bankAccts : List (Option Account)) (e : Failure)
      (hdecode : decodeBanks sdk marginfiProgram (sortedEntries BytesLe map) bankAccts = .error e) :
      Resolution sdk marginfiProgram map
        [⟨.client (.getMultipleAccounts (bankKeys map)), .ok bankAccts⟩]
        (.error e)
  | mintsFailed (hmap : map.entries ≠ []) (bankAccts : List (Option Account))
      (decoded : List DecodedBank)
      (hdecode : decodeBanks sdk marginfiProgram (sortedEntries BytesLe map) bankAccts =
        .ok decoded)
      (e : ClientError) :
      Resolution sdk marginfiProgram map
        [⟨.client (.getMultipleAccounts (bankKeys map)), .ok bankAccts⟩,
          ⟨.client (.getMultipleAccounts (decoded.map fun d => d.view.mint)), .error e⟩]
        (.error (.error
          (e.toError.context "BANKS resolve: get_multiple_accounts(mints) failed")))
  | mintsRejected (hmap : map.entries ≠ []) (bankAccts mintAccts : List (Option Account))
      (decoded : List DecodedBank)
      (hdecode : decodeBanks sdk marginfiProgram (sortedEntries BytesLe map) bankAccts =
        .ok decoded)
      (e : Failure) (hinfos : bankInfos decoded mintAccts ∅ = .error e) :
      Resolution sdk marginfiProgram map
        [⟨.client (.getMultipleAccounts (bankKeys map)), .ok bankAccts⟩,
          ⟨.client (.getMultipleAccounts (decoded.map fun d => d.view.mint)), .ok mintAccts⟩]
        (.error e)
  | resolved (hmap : map.entries ≠ []) (bankAccts mintAccts : List (Option Account))
      (decoded : List DecodedBank)
      (hdecode : decodeBanks sdk marginfiProgram (sortedEntries BytesLe map) bankAccts =
        .ok decoded)
      (byMint : HashMap Pubkey BankInfo) (hinfos : bankInfos decoded mintAccts ∅ = .ok byMint) :
      Resolution sdk marginfiProgram map
        [⟨.client (.getMultipleAccounts (bankKeys map)), .ok bankAccts⟩,
          ⟨.client (.getMultipleAccounts (decoded.map fun d => d.view.mint)), .ok mintAccts⟩]
        (.ok ⟨byMint⟩)

theorem resolution_of_runs (map : HashMap Pubkey Pubkey) :
    (resolveFromChain sdk marginfiProgram map).Spec (Resolution sdk marginfiProgram map) := by
  unfold resolveFromChain
  refine Fallible.spec_ite (fun h => ?_) fun h => ?_
  · exact Fallible.spec_pure (.empty (List.isEmpty_iff.1 h))
  rw [List.isEmpty_iff] at h
  refine Fallible.spec_ask_bind (fun r e hr => ?_) fun r bankAccts hr => ?_
  · cases r <;> cases hr
    exact .banksFailed h _
  cases r <;> cases hr
  change Fallible.Spec (liftExcept (decodeBanks _ _ _ bankAccts) >>= _) _
  cases hdecode : decodeBanks sdk marginfiProgram (sortedEntries BytesLe map) bankAccts with
  | error e => exact Fallible.spec_throw (.banksRejected h bankAccts e hdecode)
  | ok decoded =>
    refine Fallible.spec_ask_bind (fun r e hr => ?_) fun r mintAccts hr => ?_
    · cases r <;> cases hr
      exact .mintsFailed h bankAccts decoded hdecode _
    cases r <;> cases hr
    change Fallible.Spec (liftExcept (bankInfos decoded mintAccts ∅) >>= _) _
    cases hinfos : bankInfos decoded mintAccts ∅ with
    | error e => exact Fallible.spec_throw (.mintsRejected h _ _ _ hdecode e hinfos)
    | ok byMint => exact Fallible.spec_pure (.resolved h _ _ _ hdecode byMint hinfos)

/-- The runs of `discover`. -/
inductive Discovery (sdk : Sdk) (marginfiProgram : Pubkey) (markets : List MarketView) :
    Service.Trace → Except Failure BankRegistry → Prop
  | noMarkets (hmarkets : markets = []) : Discovery sdk marginfiProgram markets [] (.ok default)
  | conflict (hmarkets : markets ≠ []) (e : Error) (hbind : bindMarkets markets = .error e) :
      Discovery sdk marginfiProgram markets [] (.error (.error e))
  | resolve (hmarkets : markets ≠ []) (map : HashMap Pubkey Pubkey)
      (hbind : bindMarkets markets = .ok map) {t : Service.Trace}
      {r : Except Failure BankRegistry} (h : Resolution sdk marginfiProgram map t r) :
      Discovery sdk marginfiProgram markets t r

theorem discovery_of_runs (markets : List MarketView) :
    (discover sdk marginfiProgram markets).Spec (Discovery sdk marginfiProgram markets) := by
  unfold discover
  refine Fallible.spec_ite (fun h => ?_) fun h => ?_
  · exact Fallible.spec_pure (.noMarkets (List.isEmpty_iff.1 h))
  rw [List.isEmpty_iff] at h
  change Fallible.Spec (liftError (bindMarkets markets) >>= _) _
  cases hbind : bindMarkets markets with
  | error e => exact Fallible.spec_throw (.conflict h e hbind)
  | ok map => exact (resolution_of_runs map).mono fun t r hr => .resolve h map hbind hr

/-! ### What a run says of the registry -/

theorem entries_ne_nil {markets : List MarketView} {map : HashMap Pubkey Pubkey}
    (h : bindMarkets markets = .ok map) (hmarkets : markets ≠ []) : map.entries ≠ [] := by
  obtain ⟨m, hm⟩ := List.exists_mem_of_ne_nil markets hmarkets
  have hbinds : Binds markets m.debtMint m.debtBank := ⟨m, hm, List.mem_cons_self⟩
  rw [← represents_of_bindMarkets h, ← Option.mem_def, AList.mem_lookup_iff] at hbinds
  exact List.ne_nil_of_mem hbinds

/-- A bank that decodes, and whose mint account makes an entry, is one that the entry is resolved
from. -/
theorem resolvedFrom_of_decoded {d : DecodedBank} {bankAcct mintAcct : Account} {info : BankInfo}
    (hdecoded : decodeBank sdk marginfiProgram d.mint d.bank (some bankAcct) = .ok d)
    (hinfo : bankInfo d (some mintAcct) = .ok info) :
    d.view.mint = d.mint ∧
      ResolvedFrom sdk marginfiProgram d.mint d.bank bankAcct mintAcct info := by
  obtain ⟨mint, bank, view, lva⟩ := d
  obtain ⟨acct, view', lva', heq, hd, howner, hview, hmint, hlva⟩ := decodeBank_ok hdecoded
  cases heq
  cases hd
  obtain ⟨acct, heq, hprogram, hpos, hfive, rfl⟩ := bankInfo_ok hinfo
  cases heq
  exact ⟨hmint, howner, hprogram, view, lva, hview, hmint, hpos, hfive, hlva, rfl⟩

/-- A registry resolved from a map has the map's keys, and the entry of each is resolved from the
accounts at one index of the two replies. -/
theorem resolved_entry {map : HashMap Pubkey Pubkey} {R : Pubkey → Pubkey → Prop}
    (hmap : Represents map R) {bankAccts mintAccts : List (Option Account)}
    {decoded : List DecodedBank} {byMint : HashMap Pubkey BankInfo}
    (hdecode : decodeBanks sdk marginfiProgram (sortedEntries BytesLe map) bankAccts =
        .ok decoded)
    (hinfos : bankInfos decoded mintAccts ∅ = .ok byMint) :
    (∀ mint, (∃ info, byMint.lookup mint = some info) ↔ ∃ bank, R mint bank) ∧
    ∀ mint bank, R mint bank → ∃ (i : ℕ) (bankAcct mintAcct : Account) (info : BankInfo),
      (bankKeys map)[i]? = some bank ∧
      bankAccts[i]? = some (some bankAcct) ∧
      (decoded.map fun d => d.view.mint)[i]? = some mint ∧
      mintAccts[i]? = some (some mintAcct) ∧ byMint.lookup mint = some info ∧
      ResolvedFrom sdk marginfiProgram mint bank bankAcct mintAcct info := by
  obtain ⟨hentries, hbanks⟩ := decodeBanks_ok hdecode
  have hmints : decoded.map DecodedBank.mint = (sortedEntries BytesLe map).map Prod.fst := by
    rw [← hentries, List.map_map]
    rfl
  obtain ⟨hout, hin⟩ := bankInfos_ok hinfos (hmints ▸ sortedEntries_keys_nodup BytesLe map)
  -- the index of an entry in the sorted map is its index in both replies
  have hentry : ∀ mint bank, R mint bank → ∃ (i : ℕ) (d : DecodedBank), decoded[i]? = some d ∧
      d.mint = mint ∧ d.bank = bank := by
    intro mint bank hR
    rw [← hmap.mem_sortedEntries BytesLe, List.mem_iff_getElem?, ← hentries] at hR
    obtain ⟨i, hi⟩ := hR
    rw [List.getElem?_map, Option.map_eq_some_iff] at hi
    obtain ⟨d, hd, heq⟩ := hi
    exact ⟨i, d, hd, congrArg Prod.fst heq, congrArg Prod.snd heq⟩
  refine ⟨fun mint => ⟨?_, ?_⟩, fun mint bank hR => ?_⟩
  · -- what is looked up was put there for a bank of the map
    rintro ⟨info, hinfo⟩
    by_contra hR
    have hmem : mint ∉ decoded.map DecodedBank.mint := by
      rw [hmints, List.mem_map]
      rintro ⟨⟨mint, bank⟩, hmem, rfl⟩
      exact hR ⟨bank, (hmap.mem_sortedEntries BytesLe).1 hmem⟩
    rw [hout mint hmem, AList.lookup_empty] at hinfo
    cases hinfo
  · rintro ⟨bank, hR⟩
    obtain ⟨i, d, hd, rfl, -⟩ := hentry mint bank hR
    obtain ⟨mintAcct, info, -, -, hlookup⟩ := hin i d hd
    exact ⟨info, hlookup⟩
  · obtain ⟨i, d, hd, rfl, rfl⟩ := hentry mint bank hR
    obtain ⟨bankAcct, hbankAcct, hdecoded⟩ := hbanks i d hd
    obtain ⟨mintAcct, info, hmintAcct, hinfo, hlookup⟩ := hin i d hd
    obtain ⟨hmint, hresolved⟩ := resolvedFrom_of_decoded hdecoded hinfo
    refine ⟨i, bankAcct, mintAcct, info, ?_, hbankAcct, ?_, hmintAcct, hlookup, hresolved⟩
    · rw [bankKeys, ← hentries, List.getElem?_map, List.getElem?_map, hd]
      rfl
    · rw [List.getElem?_map, hd, Option.map_some, hmint]

theorem Resolution.noPanic {map : HashMap Pubkey Pubkey} {t : Service.Trace}
    {r : Except Failure BankRegistry} (h : Resolution sdk marginfiProgram map t r)
    (hfull : ∀ (pks : List Pubkey) (accts : List (Option Account)),
      (⟨.client (.getMultipleAccounts pks), .ok accts⟩ : Service.Event) ∈ t →
        accts.length = pks.length) : NoPanic r := by
  cases h with
  | empty => exact noPanic_ok _
  | banksFailed => exact noPanic_error _
  | mintsFailed => exact noPanic_error _
  | resolved => exact noPanic_ok _
  | banksRejected hmap bankAccts e hdecode =>
    have hlen := hfull _ _ List.mem_cons_self
    rw [bankKeys, List.length_map] at hlen
    have hbanks : NoPanic (decodeBanks sdk marginfiProgram (sortedEntries BytesLe map) bankAccts) :=
      noPanic_decodeBanks hlen
    rw [hdecode] at hbanks
    exact fun msg heq => hbanks msg (by cases heq; rfl)
  | mintsRejected hmap bankAccts mintAccts decoded hdecode e hinfos =>
    have hlen := hfull _ _ (List.mem_cons_of_mem _ List.mem_cons_self)
    rw [List.length_map] at hlen
    have hmints : NoPanic (bankInfos decoded mintAccts ∅) := noPanic_bankInfos hlen
    rw [hinfos] at hmints
    exact fun msg heq => hmints msg (by cases heq; rfl)

theorem Resolution.asks {map : HashMap Pubkey Pubkey} {t : Service.Trace}
    {r : Except Failure BankRegistry} (h : Resolution sdk marginfiProgram map t r)
    (hmap : map.entries ≠ []) :
    ∃ pks reply, (⟨.client (.getMultipleAccounts pks), reply⟩ : Service.Event) ∈ t := by
  cases h with
  | empty hnil => exact absurd hnil hmap
  | banksFailed => exact ⟨_, _, List.mem_cons_self⟩
  | banksRejected => exact ⟨_, _, List.mem_cons_self⟩
  | mintsFailed => exact ⟨_, _, List.mem_cons_self⟩
  | mintsRejected => exact ⟨_, _, List.mem_cons_self⟩
  | resolved => exact ⟨_, _, List.mem_cons_self⟩

section Discovery

variable {markets : List MarketView} {t : Service.Trace} {r : Except Failure BankRegistry}

/-- Accounts are asked for exactly when no mint is bound to two banks. -/
theorem Discovery.asks_iff (h : Discovery sdk marginfiProgram markets t r)
    (hmarkets : markets ≠ []) :
    (∃ pks reply, (⟨.client (.getMultipleAccounts pks), reply⟩ : Service.Event) ∈ t) ↔
      SingleBanked markets := by
  rw [← bindMarkets_ok_iff]
  cases h with
  | noMarkets hnil => exact absurd hnil hmarkets
  | conflict _ e hbind =>
    rw [hbind]
    exact ⟨fun ⟨_, _, hmem⟩ => absurd hmem List.not_mem_nil, nofun⟩
  | resolve _ map hbind hres =>
    exact ⟨fun _ => ⟨map, hbind⟩, fun _ => hres.asks (entries_ne_nil hbind hmarkets)⟩

theorem Discovery.noPanic (h : Discovery sdk marginfiProgram markets t r)
    (hfull : ∀ (pks : List Pubkey) (accts : List (Option Account)),
      (⟨.client (.getMultipleAccounts pks), .ok accts⟩ : Service.Event) ∈ t →
        accts.length = pks.length) : NoPanic r := by
  cases h with
  | noMarkets => exact noPanic_ok _
  | conflict => exact noPanic_error _
  | resolve _ map _ hres => exact hres.noPanic hfull

/-- A registry has exactly the mints of the markets, each with the entry resolved from its
accounts. -/
theorem Discovery.registry {registry : BankRegistry}
    (h : Discovery sdk marginfiProgram markets t (.ok registry)) :
    (∀ mint, mint ∈ registry.mints ↔ Mentions markets mint) ∧
    ∀ m ∈ markets, ∀ mint bank, (mint, bank) ∈ m.bindings →
      ∃ (banks mints : List Pubkey) (bankAccts mintAccts : List (Option Account)) (i : ℕ)
        (bankAcct mintAcct : Account) (info : BankInfo),
        t = [⟨.client (.getMultipleAccounts banks), .ok bankAccts⟩,
          ⟨.client (.getMultipleAccounts mints), .ok mintAccts⟩] ∧
        banks[i]? = some bank ∧ bankAccts[i]? = some (some bankAcct) ∧
        mints[i]? = some mint ∧ mintAccts[i]? = some (some mintAcct) ∧
        registry.get mint = some info ∧
        ResolvedFrom sdk marginfiProgram mint bank bankAcct mintAcct info := by
  cases h with
  | noMarkets hnil =>
    subst hnil
    exact ⟨fun mint => ⟨fun h => (mem_mints.1 h).elim nofun, fun ⟨m, hm, _⟩ => nomatch hm⟩,
      nofun⟩
  | resolve hmarkets map hbind hres =>
    have hrep := represents_of_bindMarkets hbind
    cases hres with
    -- markets that were bound leave an entry
    | empty hnil => exact absurd hnil (entries_ne_nil hbind hmarkets)
    | resolved _ bankAccts mintAccts decoded hdecode byMint hinfos =>
      obtain ⟨hkeys, hentry⟩ := resolved_entry hrep hdecode hinfos
      refine ⟨fun mint => by rw [mem_mints, mentions_iff]; exact hkeys mint, ?_⟩
      intro m hm mint bank hmem
      obtain ⟨i, bankAcct, mintAcct, info, h⟩ := hentry mint bank ⟨m, hm, hmem⟩
      exact ⟨_, _, bankAccts, mintAccts, i, bankAcct, mintAcct, info, rfl, h⟩

end Discovery

/-- **Discovery is exact.**  For a run of discovery on any list of markets whose account replies
are as long as their requests: it asks for accounts exactly when no mint is bound to two banks;
the order of the markets changes neither the map nor the program; it does not panic; and a
registry it returns has exactly the mints of the markets, each entry checked and recorded from
the bank account and the mint account at one index of the two replies. -/
theorem discover_exact {markets : List MarketView} {t : Service.Trace}
    {r : Except Failure BankRegistry}
    (hrun : (discover sdk marginfiProgram markets).run.Runs t r)
    (hfull : ∀ (pks : List Pubkey) (accts : List (Option Account)),
      (⟨.client (.getMultipleAccounts pks), .ok accts⟩ : Service.Event) ∈ t →
        accts.length = pks.length) :
    (markets ≠ [] → ((∃ pks reply,
      (⟨.client (.getMultipleAccounts pks), reply⟩ : Service.Event) ∈ t) ↔
        SingleBanked markets)) ∧
    (∀ markets', markets'.Perm markets → SingleBanked markets →
      (∃ map map', bindMarkets markets = .ok map ∧ bindMarkets markets' = .ok map' ∧
        ∀ mint, map'.lookup mint = map.lookup mint) ∧
      discover sdk marginfiProgram markets' = discover sdk marginfiProgram markets) ∧
    NoPanic r ∧
    ∀ registry, r = .ok registry →
      (∀ mint, mint ∈ registry.mints ↔ Mentions markets mint) ∧
      ∀ m ∈ markets, ∀ mint bank, (mint, bank) ∈ m.bindings →
        ∃ (banks mints : List Pubkey) (bankAccts mintAccts : List (Option Account)) (i : ℕ)
          (bankAcct mintAcct : Account) (info : BankInfo),
          t = [⟨.client (.getMultipleAccounts banks), .ok bankAccts⟩,
            ⟨.client (.getMultipleAccounts mints), .ok mintAccts⟩] ∧
          banks[i]? = some bank ∧ bankAccts[i]? = some (some bankAcct) ∧
          mints[i]? = some mint ∧ mintAccts[i]? = some (some mintAcct) ∧
          registry.get mint = some info ∧
          ResolvedFrom sdk marginfiProgram mint bank bankAcct mintAcct info := by
  have hdiscovery := discovery_of_runs markets t r hrun
  refine ⟨hdiscovery.asks_iff, fun markets' hperm hs => ⟨?_, discover_perm _ _ hperm hs⟩,
    hdiscovery.noPanic hfull, ?_⟩
  · obtain ⟨map, hmap⟩ := (bindMarkets_ok_iff markets).2 hs
    obtain ⟨map', hmap', hlookup, -⟩ := bindMarkets_perm hperm hmap
    exact ⟨map, map', hmap, hmap', hlookup⟩
  · rintro registry rfl
    exact hdiscovery.registry

/-- Two mints with a bank each, the second one read from a Switchboard feed. -/
def sampleAccount (pk : Pubkey) : Option Account :=
  if pk = .fill 32 11 then some ⟨.fill 32 7, bankAccountData (.fill 32 1) 3 (.fill 32 21)⟩
  else if pk = .fill 32 12 then some ⟨.fill 32 7, bankAccountData (.fill 32 2) 4 (.fill 32 22)⟩
  else if pk = .fill 32 1 then some ⟨splTokenLegacyId, []⟩
  else if pk = .fill 32 2 then some ⟨splToken2022Id, []⟩
  else none

/-- Account requests are answered from `sampleAccount`, and everything else is refused. -/
def sampleReply : (c : ServiceCall) → c.Reply
  | .client (.getMultipleAccounts pks) => .ok (pks.map sampleAccount)
  | c => c.refused

/-- A run that returns a registry. -/
theorem discover_exact_sample : ∃ t registry,
    (discover .plain (.fill 32 7) [sampleMarket]).run.Runs t (.ok registry) ∧
      (∀ mint, mint ∈ registry.mints ↔ Mentions [sampleMarket] mint) := by
  let p := (discover .plain (.fill 32 7) [sampleMarket]).run
  have hrun := p.runs_answered sampleReply
  have hfull : ∀ (pks : List Pubkey) (accts : List (Option Account)),
      (⟨.client (.getMultipleAccounts pks), .ok accts⟩ : Service.Event) ∈
        (p.answered sampleReply).1 → accts.length = pks.length := by
    intro pks accts hmem
    have hreply : Except.ok accts = Except.ok (pks.map sampleAccount) := Prog.mem_answered hmem
    cases hreply
    exact List.length_map _
  have hok : (p.answered sampleReply).2.isOk = true := by decide +kernel
  cases hr : (p.answered sampleReply).2 with
  | error e => rw [hr] at hok; cases hok
  | ok registry =>
    rw [hr] at hrun
    exact ⟨_, registry, hrun, ((discover_exact hrun hfull).2.2.2 registry rfl).1⟩

end BankRegistry

end YdeltaCrankers
