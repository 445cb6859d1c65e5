import YdeltaCrankers.Discovery.Exact

/-!
# Discovery on a fixed set of accounts

When every account request is answered from one set of accounts, whether discovery succeeds is a
matter of the markets and of these accounts alone: it returns a registry exactly when no mint is
bound to two banks and the accounts of every single binding pass the checks (`discover_ok_iff`).
One check that fails, of whichever binding, fails the whole discovery.
-/

namespace YdeltaCrankers

open Interaction Collections

/-- The accounts on chain. -/
abbrev Accounts := Pubkey → Option Account

/-- The accounts of a mint and its bank are valid: the bank belongs to marginfi and decodes, to a
bank of this mint with one to five oracles, and the mint belongs to a token program. -/
def ValidBinding (marginfiProgram : Pubkey) (accts : Accounts) (mint bank : Pubkey) : Prop :=
  ∃ bankAcct mintAcct view, accts bank = some bankAcct ∧ accts mint = some mintAcct ∧
    bankAcct.owner = marginfiProgram ∧
    (mintAcct.owner = splTokenLegacyId ∨ mintAcct.owner = splToken2022Id) ∧
    BankView.tryFromAccountData bankAcct.data = .ok view ∧ view.mint = mint ∧
    1 ≤ view.oracles.length ∧ view.oracles.length ≤ 5

/-- The authority of the bank's vault derives from the bump that the bank records. -/
def HasAuthority (sdk : Sdk) (marginfiProgram : Pubkey) (accts : Accounts) (bank : Pubkey) : Prop :=
  ∃ bankAcct view lva, accts bank = some bankAcct ∧
    BankView.tryFromAccountData bankAcct.data = .ok view ∧
    sdk.createProgramAddress [liquidityVaultAuthoritySeed, bank.toList, [view.lvaBump]]
      marginfiProgram = .ok lva

/-- The accounts of a mint and its bank pass all checks. -/
def Resolvable (sdk : Sdk) (marginfiProgram : Pubkey) (accts : Accounts) (mint bank : Pubkey) :
    Prop :=
  ValidBinding marginfiProgram accts mint bank ∧ HasAuthority sdk marginfiProgram accts bank

/-- An account request is answered from these accounts. -/
def AnswersFrom (accts : Accounts) (e : Service.Event) : Prop :=
  ∀ pks r, e = ⟨.client (.getMultipleAccounts pks), r⟩ → r = .ok (pks.map accts)

theorem Resolvable.of_resolvedFrom {sdk : Sdk} {accts : Accounts}
    {marginfiProgram mint bank : Pubkey} {bankAcct mintAcct : Account} {info : BankInfo}
    (hbank : accts bank = some bankAcct) (hmint : accts mint = some mintAcct)
    (h : ResolvedFrom sdk marginfiProgram mint bank bankAcct mintAcct info) :
    Resolvable sdk marginfiProgram accts mint bank := by
  obtain ⟨howner, hprogram, view, lva, hview, hviewMint, hpos, hfive, hlva, -⟩ := h
  exact ⟨⟨bankAcct, mintAcct, view, hbank, hmint, howner, hprogram, hview, hviewMint, hpos, hfive⟩,
    bankAcct, view, lva, hbank, hview, hlva⟩

namespace BankRegistry

variable {sdk : Sdk} {marginfiProgram : Pubkey} {accts : Accounts}

/-! ### One binding -/

/-- The bank of a resolvable binding decodes. -/
theorem decodeBank_resolvable {mint bank : Pubkey}
    (h : Resolvable sdk marginfiProgram accts mint bank) :
    ∃ d, decodeBank sdk marginfiProgram mint bank (accts bank) = .ok d := by
  obtain ⟨⟨bankAcct, mintAcct, view, hbank, -, howner, -, hview, hviewMint, -⟩, bankAcct', view',
    lva, hbank', hview', hlva⟩ := h
  obtain rfl := Option.some.inj (hbank.symm.trans hbank')
  obtain rfl := Except.ok.inj (hview.symm.trans hview')
  refine ⟨⟨mint, bank, view, lva⟩, ?_⟩
  simp only [decodeBank, hbank, howner, hview, hviewMint, hlva, ne_eq, not_true, if_false]

theorem tokenProgramOf_of_owner (mint : Pubkey) {m : Account}
    (h : m.owner = splTokenLegacyId ∨ m.owner = splToken2022Id) :
    ∃ tokenProgram, tokenProgramOf mint m = .ok tokenProgram := by
  unfold tokenProgramOf
  by_cases hlegacy : m.owner = splTokenLegacyId
  · exact ⟨_, if_pos hlegacy⟩
  · rw [if_neg hlegacy, if_pos (h.resolve_left hlegacy)]
    exact ⟨_, rfl⟩

/-- The mint of a bank so decoded gives an entry. -/
theorem bankInfo_resolvable {mint bank : Pubkey} {d : DecodedBank}
    (h : Resolvable sdk marginfiProgram accts mint bank)
    (hd : decodeBank sdk marginfiProgram mint bank (accts bank) = .ok d) :
    ∃ info, bankInfo d (accts d.view.mint) = .ok info := by
  obtain ⟨hvalid, -⟩ := h
  obtain ⟨bankAcct, mintAcct, view, hbank, hmint, -, hprogram, hview, hviewMint, hpos, hfive⟩ :=
    hvalid
  obtain ⟨bankAcct', view', lva, hbank', rfl, -, hview', -, -⟩ := decodeBank_ok hd
  obtain rfl := Option.some.inj (hbank.symm.trans hbank')
  obtain rfl := Except.ok.inj (hview.symm.trans hview')
  obtain ⟨tokenProgram, hok⟩ := tokenProgramOf_of_owner mint hprogram
  have horacles : ¬ (view.oracles.isEmpty = true ∨ 5 < view.oracles.length) := by
    rw [List.isEmpty_iff_length_eq_zero]
    omega
  simp only [hviewMint, hmint, bankInfo, hok]
  exact ⟨_, if_neg horacles⟩

/-! ### All bindings -/

theorem decodeBanks_resolvable {entries : List (Pubkey × Pubkey)}
    (h : ∀ entry ∈ entries, Resolvable sdk marginfiProgram accts entry.1 entry.2) :
    ∃ decoded, decodeBanks sdk marginfiProgram entries (entries.map fun e => accts e.2) =
      .ok decoded := by
  induction entries with
  | nil => exact ⟨[], rfl⟩
  | cons entry entries ih =>
    obtain ⟨mint, bank⟩ := entry
    obtain ⟨d, hd⟩ := decodeBank_resolvable (h _ List.mem_cons_self)
    obtain ⟨rest, hrest⟩ := ih fun e he => h e (List.mem_cons_of_mem _ he)
    refine ⟨d :: rest, ?_⟩
    simp only [List.map_cons, decodeBanks, hd, hrest]
    rfl

theorem bankInfos_resolvable {decoded : List DecodedBank}
    (h : ∀ d ∈ decoded, ∃ info, bankInfo d (accts d.view.mint) = .ok info)
    (byMint : HashMap Pubkey BankInfo) :
    ∃ byMint', bankInfos decoded (decoded.map fun d => accts d.view.mint) byMint = .ok byMint' := by
  induction decoded generalizing byMint with
  | nil => exact ⟨byMint, rfl⟩
  | cons d decoded ih =>
    obtain ⟨info, hinfo⟩ := h d List.mem_cons_self
    obtain ⟨byMint', hrest⟩ :=
      ih (fun d hd => h d (List.mem_cons_of_mem _ hd)) (byMint.insert d.mint info)
    refine ⟨byMint', ?_⟩
    simp only [List.map_cons, bankInfos, hinfo]
    exact hrest

/-- Each bank decoded from these accounts gives an entry. -/
theorem bankInfo_of_decodeBanks {entries : List (Pubkey × Pubkey)} {decoded : List DecodedBank}
    (h : ∀ entry ∈ entries, Resolvable sdk marginfiProgram accts entry.1 entry.2)
    (hdecode : decodeBanks sdk marginfiProgram entries (entries.map fun e => accts e.2) =
      .ok decoded) :
    ∀ d ∈ decoded, ∃ info, bankInfo d (accts d.view.mint) = .ok info := by
  obtain ⟨hentries, hbanks⟩ := decodeBanks_ok hdecode
  intro d hd
  obtain ⟨i, hi⟩ := List.mem_iff_getElem?.1 hd
  obtain ⟨bankAcct, hacct, hdecoded⟩ := hbanks i d hi
  have hentry : entries[i]? = some (d.mint, d.bank) := by
    rw [← hentries, List.getElem?_map, hi]
    rfl
  rw [List.getElem?_map, hentry, Option.map_some, Option.some.injEq] at hacct
  rw [← hacct] at hdecoded
  exact bankInfo_resolvable (h _ (List.mem_of_getElem? hentry)) hdecoded

/-- **One bad binding fails them all.**  On these accounts a map of bindings resolves exactly when
each of its bindings does. -/
theorem resolveFromChain_ok_iff {map : HashMap Pubkey Pubkey} {R : Pubkey → Pubkey → Prop}
    (hmap : Represents map R) {t : Service.Trace} {r : Except Failure BankRegistry}
    (hrun : (resolveFromChain sdk marginfiProgram map).run.Runs t r)
    (ht : ∀ e ∈ t, AnswersFrom accts e) :
    (∃ registry, r = .ok registry) ↔
      ∀ mint bank, R mint bank → Resolvable sdk marginfiProgram accts mint bank := by
  have hbanks : ∀ bankAccts, (⟨.client (.getMultipleAccounts (bankKeys map)), .ok bankAccts⟩ :
      Service.Event) ∈ t → bankAccts = (sortedEntries BytesLe map).map fun e => accts e.2 := by
    intro bankAccts hmem
    have hreply := Except.ok.inj (ht _ hmem _ _ rfl)
    rw [hreply, bankKeys, List.map_map]
    rfl
  have hentries : (∀ mint bank, R mint bank → Resolvable sdk marginfiProgram accts mint bank) →
      ∀ entry ∈ sortedEntries BytesLe map,
        Resolvable sdk marginfiProgram accts entry.1 entry.2 := fun h entry hentry =>
    h _ _ ((hmap.mem_sortedEntries BytesLe).1 hentry)
  cases resolution_of_runs map t r hrun with
  | empty hnil =>
    refine ⟨fun _ mint bank hR => ?_, fun _ => ⟨_, rfl⟩⟩
    rw [← hmap, ← Option.mem_def, AList.mem_lookup_iff, hnil] at hR
    cases hR
  | banksFailed _ e =>
    -- these accounts answer every request
    have hreply := ht _ List.mem_cons_self _ _ rfl
    cases hreply
  | mintsFailed _ bankAccts decoded hdecode e =>
    have hreply := ht _ (List.mem_cons_of_mem _ List.mem_cons_self) _ _ rfl
    cases hreply
  | banksRejected _ bankAccts e hdecode =>
    constructor
    · rintro ⟨registry, hregistry⟩
      cases hregistry
    intro h
    obtain ⟨decoded, hok⟩ := decodeBanks_resolvable (hentries h)
    rw [hbanks _ List.mem_cons_self, hok] at hdecode
    cases hdecode
  | mintsRejected _ bankAccts mintAccts decoded hdecode e hinfos =>
    constructor
    · rintro ⟨registry, hregistry⟩
      cases hregistry
    intro h
    rw [hbanks _ List.mem_cons_self] at hdecode
    have hmints := Except.ok.inj (ht _ (List.mem_cons_of_mem _ List.mem_cons_self) _ _ rfl)
    obtain ⟨byMint, hok⟩ := bankInfos_resolvable (bankInfo_of_decodeBanks (hentries h) hdecode) ∅
    rw [hmints, List.map_map] at hinfos
    have hcontra := hok.symm.trans hinfos
    cases hcontra
  | resolved _ bankAccts mintAccts decoded hdecode byMint hinfos =>
    refine ⟨fun _ mint bank hR => ?_, fun _ => ⟨_, rfl⟩⟩
    -- both replies are read at the index of the binding
    obtain ⟨i, bankAcct, mintAcct, info, hbank, hbankAcct, hmint, hmintAcct, -, hresolved⟩ :=
      (resolved_entry hmap hdecode hinfos).2 mint bank hR
    have hbankReply := Except.ok.inj (ht _ List.mem_cons_self _ _ rfl)
    have hmintReply := Except.ok.inj (ht _ (List.mem_cons_of_mem _ List.mem_cons_self) _ _ rfl)
    rw [hbankReply, List.getElem?_map, hbank, Option.map_some, Option.some.injEq] at hbankAcct
    rw [hmintReply, List.getElem?_map, hmint, Option.map_some, Option.some.injEq] at hmintAcct
    exact .of_resolvedFrom hbankAcct hmintAcct hresolved

/-- On these accounts, discovery succeeds exactly when no mint is bound to two banks and every
binding resolves. -/
theorem discover_ok_iff {markets : List MarketView} {t : Service.Trace}
    {r : Except Failure BankRegistry}
    (hrun : (discover sdk marginfiProgram markets).run.Runs t r)
    (ht : ∀ e ∈ t, AnswersFrom accts e) :
    (∃ registry, r = .ok registry) ↔ SingleBanked markets ∧
      ∀ mint bank, Binds markets mint bank → Resolvable sdk marginfiProgram accts mint bank := by
  have hspec : (discover sdk marginfiProgram markets).Spec fun t r =>
      (∀ e ∈ t, AnswersFrom accts e) → ((∃ registry, r = .ok registry) ↔ SingleBanked markets ∧
        ∀ mint bank, Binds markets mint bank →
          Resolvable sdk marginfiProgram accts mint bank) := by
    unfold discover
    refine Fallible.spec_ite (fun h => Fallible.spec_pure fun _ => ?_) fun h => ?_
    · obtain rfl := List.isEmpty_iff.1 h
      have hnone : ∀ mint bank, ¬ Binds [] mint bank := fun _ _ ⟨_, hm, _⟩ => nomatch hm
      exact ⟨fun _ => ⟨fun mint bank _ h => absurd h (hnone mint bank),
        fun mint bank h => absurd h (hnone mint bank)⟩, fun _ => ⟨_, rfl⟩⟩
    change Fallible.Spec (liftError (bindMarkets markets) >>= _) _
    cases hbind : bindMarkets markets with
    | error e =>
      refine Fallible.spec_throw fun _ => ⟨nofun, fun ⟨hsingle, _⟩ => ?_⟩
      obtain ⟨map, hmap⟩ := (bindMarkets_ok_iff markets).2 hsingle
      rw [hbind] at hmap
      cases hmap
    | ok map =>
      have hsingle : SingleBanked markets := (bindMarkets_ok_iff markets).1 ⟨map, hbind⟩
      intro t r hrun ht
      rw [resolveFromChain_ok_iff (represents_of_bindMarkets hbind) hrun ht]
      exact ⟨fun h => ⟨hsingle, h⟩, fun h => h.2⟩
  exact hspec t r hrun ht

/-! ### Sample accounts -/

/-- A bank that decodes to one oracle key is resolved. -/
theorem resolvable_of_account {mint bank : Pubkey} {bankAcct mintAcct : Account}
    (hbank : sampleAccount bank = some bankAcct)
    (hmint : sampleAccount mint = some mintAcct) (howner : bankAcct.owner = .fill 32 7)
    (hprogram : mintAcct.owner = splTokenLegacyId ∨ mintAcct.owner = splToken2022Id)
    (hview : (BankView.tryFromAccountData bankAcct.data).map
      (fun view => (view.mint, view.oracles.length)) = .ok (mint, 1)) :
    Resolvable .plain (.fill 32 7) sampleAccount mint bank := by
  cases hdecode : BankView.tryFromAccountData bankAcct.data with
  | error e =>
    rw [hdecode] at hview
    cases hview
  | ok view =>
    rw [hdecode] at hview
    obtain ⟨hviewMint, horacles⟩ := Prod.mk.inj (Except.ok.inj hview)
    exact ⟨⟨_, _, view, hbank, hmint, howner, hprogram, hdecode, hviewMint, horacles.ge, by omega⟩,
      _, view, _, hbank, hdecode, rfl⟩

theorem sampleAccount_first :
    Resolvable .plain (.fill 32 7) sampleAccount (.fill 32 1) (.fill 32 11) :=
  resolvable_of_account rfl rfl rfl (.inl rfl) (by decide +kernel)

theorem sampleAccount_second :
    Resolvable .plain (.fill 32 7) sampleAccount (.fill 32 2) (.fill 32 12) :=
  resolvable_of_account rfl rfl rfl (.inr rfl) (by decide +kernel)

end BankRegistry

end YdeltaCrankers
