import YdeltaCrankers.Discovery.Basic

/-!
# The conflict check of discovery

`bindMarkets` inserts the two bindings of every market into a map and stops at the first mint bound
to another bank.  It succeeds exactly when no mint is bound to two banks anywhere in the list
(`bindMarkets_ok_iff`), and the order of the markets does not matter: not for the map
(`bindMarkets_perm`), and not for the program that goes on with it (`discover_perm`).
-/

namespace YdeltaCrankers

open Interaction Collections

/-- The two bindings of a market. -/
def MarketView.bindings (m : MarketView) : List (Pubkey × Pubkey) :=
  [(m.debtMint, m.debtBank), (m.collateralMint, m.collateralBank)]

/-- Some market of the list binds the mint to the bank. -/
def Binds (markets : List MarketView) (mint bank : Pubkey) : Prop :=
  ∃ m ∈ markets, (mint, bank) ∈ m.bindings

/-- No mint is bound to two banks anywhere in the list. -/
def SingleBanked (markets : List MarketView) : Prop := Functional (Binds markets)

/-- Some market of the list has the mint. -/
def Mentions (markets : List MarketView) (mint : Pubkey) : Prop :=
  ∃ m ∈ markets, mint = m.debtMint ∨ mint = m.collateralMint

theorem mentions_iff {markets : List MarketView} {mint : Pubkey} :
    Mentions markets mint ↔ ∃ bank, Binds markets mint bank := by
  simp only [Mentions, Binds, MarketView.bindings, List.mem_cons, List.not_mem_nil, or_false,
    Prod.mk.injEq]
  constructor
  · rintro ⟨m, hm, rfl | rfl⟩
    · exact ⟨m.debtBank, m, hm, .inl ⟨rfl, rfl⟩⟩
    · exact ⟨m.collateralBank, m, hm, .inr ⟨rfl, rfl⟩⟩
  · rintro ⟨bank, m, hm, ⟨rfl, -⟩ | ⟨rfl, -⟩⟩
    · exact ⟨m, hm, .inl rfl⟩
    · exact ⟨m, hm, .inr rfl⟩

theorem Binds.mono {markets markets' : List MarketView} (h : markets ⊆ markets')
    {mint bank : Pubkey} (hb : Binds markets mint bank) : Binds markets' mint bank := by
  obtain ⟨m, hm, hmem⟩ := hb
  exact ⟨m, h hm, hmem⟩

theorem SingleBanked.anti {markets markets' : List MarketView} (h : markets ⊆ markets')
    (hs : SingleBanked markets') : SingleBanked markets :=
  fun mint bank bank' hb hb' => hs mint bank bank' (hb.mono h) (hb'.mono h)

namespace BankRegistry

/-! ### The map -/

theorem adds_bindMint (mint bank : Pubkey) (conflict : Pubkey → String) :
    Adds (fun map => bindMint map mint bank conflict) [(mint, bank)] := by
  refine adds_insert (fun map h => ?_) fun map prev hlookup hne => ?_
  · unfold bindMint
    cases hlookup : map.lookup mint with
    | none => rfl
    | some prev => simp [h prev hlookup]
  · exact ⟨.anyhow (conflict prev), by simp [bindMint, hlookup, hne]⟩

theorem adds_bindMarket (m : MarketView) : Adds (fun map => bindMarket map m) m.bindings :=
  (adds_bindMint m.debtMint m.debtBank _).bind (adds_bindMint m.collateralMint m.collateralBank _)

theorem extend_flatMap_bindings (markets : List MarketView) :
    Extend (fun _ _ => False) (markets.flatMap MarketView.bindings) = Binds markets := by
  funext mint bank
  simp [Extend, Binds]

/-- **The conflict check is exact.** -/
theorem bindMarkets_ok_iff (markets : List MarketView) :
    (∃ map, bindMarkets markets = .ok map) ↔ SingleBanked markets := by
  have h := (Adds.foldlM adds_bindMarket markets).exists_ok_iff represents_empty
  rwa [extend_flatMap_bindings] at h

theorem represents_of_bindMarkets {markets : List MarketView} {map : HashMap Pubkey Pubkey}
    (h : bindMarkets markets = .ok map) : Represents map (Binds markets) := by
  have hrep := (Adds.foldlM adds_bindMarket markets).represents represents_empty h
  rwa [extend_flatMap_bindings] at hrep

theorem binds_perm {markets markets' : List MarketView} (h : markets'.Perm markets) :
    Binds markets' = Binds markets := by
  funext mint bank
  exact propext ⟨.mono h.subset, .mono h.symm.subset⟩

/-- The order of the markets does not matter for the map. -/
theorem bindMarkets_perm {markets markets' : List MarketView} (h : markets'.Perm markets)
    {map : HashMap Pubkey Pubkey} (hmap : bindMarkets markets = .ok map) :
    ∃ map', bindMarkets markets' = .ok map' ∧ (∀ mint, map'.lookup mint = map.lookup mint) ∧
      sortedEntries BytesLe map' = sortedEntries BytesLe map := by
  have hrep := represents_of_bindMarkets hmap
  have hsingle : SingleBanked markets' := by
    rw [SingleBanked, binds_perm h]
    exact hrep.functional
  obtain ⟨map', hmap'⟩ := (bindMarkets_ok_iff markets').2 hsingle
  have hrep' := represents_of_bindMarkets hmap'
  rw [binds_perm h] at hrep'
  refine ⟨map', hmap', fun mint => Option.ext fun bank => (hrep' mint bank).trans
    (hrep mint bank).symm, hrep'.sortedEntries_eq BytesLe hrep⟩

/-- The order of the markets does not matter for what discovery does with them. -/
theorem discover_perm (sdk : Sdk) (marginfiProgram : Pubkey) {markets markets' : List MarketView}
    (h : markets'.Perm markets) (hs : SingleBanked markets) :
    discover sdk marginfiProgram markets' = discover sdk marginfiProgram markets := by
  obtain ⟨map, hmap⟩ := (bindMarkets_ok_iff markets).2 hs
  obtain ⟨map', hmap', -, hsorted⟩ := bindMarkets_perm h hmap
  have hempty : markets'.isEmpty = markets.isEmpty := by
    cases markets <;> cases markets' <;> simp_all
  have hlength : map'.entries.isEmpty = map.entries.isEmpty := by
    have hlen := congrArg List.length hsorted
    rw [(sortedEntries_perm BytesLe map').length_eq, (sortedEntries_perm BytesLe map).length_eq,
      List.length_map, List.length_map] at hlen
    rw [Bool.eq_iff_iff, List.isEmpty_iff_length_eq_zero, List.isEmpty_iff_length_eq_zero, hlen]
  unfold discover resolveFromChain
  rw [hempty, hmap, hmap']
  change (if _ then _ else if map'.entries.isEmpty = true then _ else _) =
    (if _ then _ else if map.entries.isEmpty = true then _ else _)
  rw [hlength, hsorted]

end BankRegistry

end YdeltaCrankers
