import YdeltaCrankers.Discovery.Exact

/-!
# What every entry of the registry satisfies

`BankRegistry.WellFormed` is what the checks of discovery establish of every entry by itself,
`BankRegistry.BackedBy` that the bank of every entry is one that some market of a list declares.
Discovery establishes both (`registry_of_runs`), and merging keeps them.
-/

namespace YdeltaCrankers

open Interaction Collections

/-- The entry of a mint passed the checks of discovery. -/
structure BankInfo.WellFormed (mint : Pubkey) (info : BankInfo) : Prop where
  mint_eq : info.mint = mint
  oracles_pos : 1 ≤ info.oracles.length
  oracles_le : info.oracles.length ≤ 5
  oracles_ne_default : default ∉ info.oracles
  tokenProgram_mem : info.tokenProgram = splTokenLegacyId ∨ info.tokenProgram = splToken2022Id

namespace BankRegistry

/-- Every entry passed the checks of discovery. -/
def WellFormed (registry : BankRegistry) : Prop :=
  ∀ mint info, registry.get mint = some info → info.WellFormed mint

/-- The bank of every entry is declared by some market of the list. -/
def BackedBy (markets : List MarketView) (registry : BankRegistry) : Prop :=
  ∀ mint info, registry.get mint = some info → Binds markets mint info.bank

/-- Every entry of the first registry is in the second one, unchanged. -/
def Extends (registry registry' : BankRegistry) : Prop :=
  ∀ mint info, registry.get mint = some info → registry'.get mint = some info

variable {registry other : BankRegistry} {markets markets' : List MarketView}

theorem wellFormed_default : (default : BankRegistry).WellFormed :=
  fun mint info h => by rw [get_default] at h; cases h

theorem backedBy_default : (default : BankRegistry).BackedBy markets :=
  fun mint info h => by rw [get_default] at h; cases h

theorem BackedBy.mono (h : registry.BackedBy markets) (hsub : markets ⊆ markets') :
    registry.BackedBy markets' :=
  fun mint info hget => (h mint info hget).mono hsub

/-- The banks of a market that is itself on the list, if the list is free of conflicts. -/
theorem BackedBy.bank_eq (h : registry.BackedBy markets) (hs : SingleBanked markets)
    {m : MarketView} (hm : m ∈ markets) {mint bank : Pubkey} (hmem : (mint, bank) ∈ m.bindings)
    {info : BankInfo} (hget : registry.get mint = some info) : info.bank = bank :=
  hs mint info.bank bank (h mint info hget) ⟨m, hm, hmem⟩

/-! ### Merging -/

theorem get_mergeFrom_cases {mint : Pubkey} {info : BankInfo}
    (h : (registry.mergeFrom other).get mint = some info) :
    registry.get mint = some info ∨ other.get mint = some info := by
  rw [get_mergeFrom, Option.or_eq_some_iff] at h
  exact h.imp_right And.right

theorem WellFormed.mergeFrom (h : registry.WellFormed) (h' : other.WellFormed) :
    (registry.mergeFrom other).WellFormed :=
  fun mint info hget => (get_mergeFrom_cases hget).elim (h mint info) (h' mint info)

theorem BackedBy.mergeFrom (h : registry.BackedBy markets) (h' : other.BackedBy markets) :
    (registry.mergeFrom other).BackedBy markets :=
  fun mint info hget => (get_mergeFrom_cases hget).elim (h mint info) (h' mint info)

theorem Extends.refl (registry : BankRegistry) : registry.Extends registry := fun _ _ h => h

theorem Extends.trans {r₁ r₂ r₃ : BankRegistry} (h : r₁.Extends r₂) (h' : r₂.Extends r₃) :
    r₁.Extends r₃ :=
  fun mint info hget => h' mint info (h mint info hget)

theorem extends_mergeFrom (registry other : BankRegistry) :
    registry.Extends (registry.mergeFrom other) :=
  fun mint info hget => by rw [get_mergeFrom, hget, Option.some_or]

/-! ### Discovery -/

variable {sdk : Sdk} {marginfiProgram mint bank : Pubkey} {bankAcct mintAcct : Account}
  {info : BankInfo}

theorem wellFormed_of_resolved
    (h : ResolvedFrom sdk marginfiProgram mint bank bankAcct mintAcct info) :
    info.WellFormed mint ∧ info.bank = bank := by
  obtain ⟨-, htoken, view, lva, hview, -, hpos, hle, -, rfl⟩ := h
  exact ⟨⟨rfl, hpos, hle, (BankView.tryFromAccountData_oracles hview).2, htoken⟩, rfl⟩

/-- Discovery asks for accounts and for nothing else. -/
theorem Discovery.calls {t : Service.Trace} {r : Except Failure BankRegistry}
    (h : Discovery sdk marginfiProgram markets t r) :
    ∀ e ∈ t, ∃ pks, e.call = .client (.getMultipleAccounts pks) := by
  cases h with
  | noMarkets => exact List.forall_mem_nil _
  | conflict => exact List.forall_mem_nil _
  | resolve _ map _ hres => cases hres <;> simp

/-- A registry that discovery returns. -/
theorem registry_of_runs {t : Service.Trace}
    (h : (discover sdk marginfiProgram markets).run.Runs t (.ok registry)) :
    registry.WellFormed ∧ registry.BackedBy markets := by
  cases discovery_of_runs markets t _ h with
  | noMarkets => exact ⟨wellFormed_default, backedBy_default⟩
  | resolve hmarkets map hbind hres =>
    cases hres with
    | empty => exact ⟨wellFormed_default, backedBy_default⟩
    | resolved _ bankAccts mintAccts decoded hdecode byMint hinfos =>
      obtain ⟨hkeys, hentry⟩ := resolved_entry (represents_of_bindMarkets hbind) hdecode hinfos
      have hinfo : ∀ mint info, byMint.lookup mint = some info →
          info.WellFormed mint ∧ Binds markets mint info.bank := by
        intro mint info hget
        obtain ⟨bank, hbinds⟩ := (hkeys mint).1 ⟨info, hget⟩
        obtain ⟨i, bankAcct, mintAcct, info', -, -, -, -, hget', hres⟩ := hentry mint bank hbinds
        obtain rfl : info = info' := by rw [hget] at hget'; exact Option.some.inj hget'
        exact ⟨(wellFormed_of_resolved hres).1, (wellFormed_of_resolved hres).2 ▸ hbinds⟩
      exact ⟨fun mint info hget => (hinfo mint info hget).1,
        fun mint info hget => (hinfo mint info hget).2⟩

end BankRegistry

end YdeltaCrankers
