import YdeltaCrankers.Process.Outgoing

/-!
# The accounts of what is sent

An instruction is given accounts of the banks of its market: the banks themselves, their vaults,
oracles and token programs.  A handler takes them from a snapshot of the registry, by the mints of
a market on its list.

* `Instruction.bankParts` : the accounts an instruction names for each of the two banks.
* `Instruction.DrawnFrom` : they are those of the entries of *one* registry, at the mints of *one*
  row of the market.

**Main result** (`HandlerKind.tick_draws`): this of everything a tick sends, with a registry and a
row the tick has read before.  No attempt mixes two snapshots, whatever happens to the registry
meanwhile.
-/

namespace YdeltaCrankers

open Interaction

/-- The two mints of a market. -/
inductive Side where
  | debt
  | collateral
deriving DecidableEq

/-- The mint of a market on this side. -/
def MarketView.mintOf (m : MarketView) : Side → Pubkey
  | .debt => m.debtMint
  | .collateral => m.collateralMint

/-- What an instruction is given of a bank. -/
inductive BankPart where
  | bank
  | liquidityVault
  | liquidityVaultAuthority
  | oracles
  | primaryOracle
  | tokenProgram
  /-- The token account of an owner, for the mint of the bank. -/
  | ata (owner : Pubkey)
  /-- The vault that lends to the bank. -/
  | globalVault
deriving DecidableEq

/-- The keys of a part, going by the entry of the bank. -/
def BankInfo.part (sdk : Sdk) (y : Ydelta) (info : BankInfo) : BankPart → List Pubkey
  | .bank => [info.bank]
  | .liquidityVault => [info.liquidityVault]
  | .liquidityVaultAuthority => [info.liquidityVaultAuthority]
  | .oracles => info.oracles
  | .primaryOracle => [info.primaryOracle]
  | .tokenProgram => [info.tokenProgram]
  | .ata owner => [info.ataFor sdk owner]
  | .globalVault => [y.globalVaultPda info.bank]

namespace Instruction

/-- The parts of the debt bank that the vault accounts are made of. -/
def vaultSettleParts (addrs : VaultSettleAddrs) : List (Side × BankPart × List Pubkey) :=
  [(.debt, .globalVault, [addrs.globalVault]),
    (.debt, .liquidityVault, [addrs.debtLiquidityVault]),
    (.debt, .liquidityVaultAuthority, [addrs.debtBankLiquidityVaultAuthority]),
    (.debt, .primaryOracle, addrs.debtOracles),
    (.debt, .tokenProgram, [addrs.tokenProgram])]

/-- The accounts of a settlement or a liquidation. -/
def closeLoanParts (args : CloseLoan) : List (Side × BankPart × List Pubkey) :=
  [(.debt, .bank, [args.debtBank]),
    (.debt, .ata args.liquidator, [args.liquidatorDebtAta]),
    (.debt, .liquidityVault, [args.debtLiquidityVault]),
    (.debt, .oracles, args.debtOracles),
    (.debt, .tokenProgram, [args.debtTokenProgram]),
    (.collateral, .bank, [args.collateralBank]),
    (.collateral, .ata args.liquidator, [args.liquidatorCollateralAta]),
    (.collateral, .liquidityVault, [args.collateralLiquidityVault]),
    (.collateral, .liquidityVaultAuthority, [args.collateralLiquidityVaultAuthority]),
    (.collateral, .oracles, args.collateralOracles)]

/-- The accounts the instruction names for a bank, each with the side of the bank and what it is to
be.  The bank of a curator fee is the one of the debt side. -/
def bankParts : Instruction → List (Side × BankPart × List Pubkey)
  | .processMatchedLoan args =>
    (.debt, .bank, [args.debtBank]) :: args.vaultSettle.toList.flatMap vaultSettleParts
  | .settleMaturedLoan args | .liquidateLoan args => closeLoanParts args
  | .claimRepaymentForSubVault args =>
    [(.debt, .bank, [args.debtBank]),
      (.debt, .liquidityVault, [args.debtLiquidityVault]),
      (.debt, .liquidityVaultAuthority, [args.debtLiquidityVaultAuthority]),
      (.debt, .oracles, args.debtOracles),
      (.debt, .tokenProgram, [args.debtTokenProgram])]
  | .matchCrank args =>
    [(.debt, .bank, [args.vaultBank]),
      (.debt, .bank, [args.debtBank]),
      (.debt, .oracles, args.debtOracles),
      (.collateral, .bank, [args.collateralBank]),
      (.collateral, .oracles, args.collateralOracles)]
  | .claimCuratorFee args =>
    [(.debt, .bank, [args.vaultBank]),
      (.debt, .bank, [args.bank]),
      (.debt, .ata args.curator, [args.curatorToken]),
      (.debt, .liquidityVault, [args.liquidityVault]),
      (.debt, .liquidityVaultAuthority, [args.liquidityVaultAuthority]),
      (.debt, .primaryOracle, [args.oracle]),
      (.debt, .tokenProgram, [args.tokenProgram])]
  | _ => []

/-- The mints the instruction names. -/
def mints : Instruction → List (Side × Pubkey)
  | .processMatchedLoan args => args.vaultSettle.toList.map fun addrs => (.debt, addrs.debtMint)
  | .settleMaturedLoan args | .liquidateLoan args =>
    [(.debt, args.debtMint), (.collateral, args.collateralMint)]
  | .claimRepaymentForSubVault args => [(.debt, args.debtMint)]
  | .claimCuratorFee args => [(.debt, args.vaultMint)]
  | _ => []

variable (sdk : Sdk) (y : Ydelta)

/-- Every account the instruction names for a bank is a part of the registry's entry of the mint on
its side. -/
structure AtMints (banks : BankRegistry) (mintOf : Side → Pubkey) (ix : Instruction) : Prop where
  parts : ∀ p ∈ ix.bankParts, ∃ info, banks.get (mintOf p.1) = some info ∧
    p.2.2 = info.part sdk y p.2.1
  mints : ∀ p ∈ ix.mints, p.2 = mintOf p.1

/-- The accounts of the instruction come from this registry; if it is for a market, by the mints of
a listed row of the market that is not paused. -/
def DrawnFrom (listed : MarketView → Prop) (banks : BankRegistry) (ix : Instruction) : Prop :=
  ∃ mintOf, ix.AtMints sdk y banks mintOf ∧ ∀ market ∈ ix.marketBanks.map Prod.fst,
    ∃ m, listed m ∧ m.address = market ∧ m.isPaused = false ∧ mintOf = m.mintOf

end Instruction

/-- The instruction the call sends, if it is one of a handler: feed updates go before it. -/
def ServiceCall.sentIx : ServiceCall → Option Instruction
  | .rpc (.sendSignedLabeled _ ixs _) | .rpc (.sendSignedV0Labeled _ ixs _ _) => ixs.getLast?
  | _ => none

theorem ServiceCall.sentIx_eq_none {c : ServiceCall} (h : ¬ c.Sends) : c.sentIx = none := by
  cases c with
  | rpc c => cases c <;> first | rfl | exact absurd rfl h
  | client c => rfl
  | process c => rfl

/-! ### Rules -/

section Rules

variable (ctx : HandlerContext) (listed listed' : MarketView → Prop)

/-- After the events `t`, what the call sends is drawn from a registry that has been read. -/
def MayDraw (t : Service.Trace) (c : ServiceCall) : Prop :=
  ∀ ix ∈ c.sentIx, ∃ r : Option BankRegistry, (⟨.process .banksRead, r⟩ : Service.Event) ∈ t ∧
    ix.DrawnFrom ctx.sdk ctx.y listed (r.getD default)

/-- All that `x` sends is drawn from a registry that it has read. -/
def DrawsRead {α : Type} (x : Async Service α) : Prop :=
  x.Spec fun t _ => Obeys (MayDraw ctx listed) t

/-- All that `x` sends is drawn from this registry. -/
def DrawsFrom {α : Type} (banks : BankRegistry) (x : Async Service α) : Prop :=
  Fallible.Makes (I := Service)
    (fun c => ∀ ix ∈ c.sentIx, ix.DrawnFrom ctx.sdk ctx.y listed banks) x

variable {ctx listed listed'} {α β : Type} {x : Async Service α} {banks : BankRegistry}
  {t t' : Service.Trace} {c : ServiceCall}

theorem Instruction.DrawnFrom.mono {sdk : Sdk} {y : Ydelta} {ix : Instruction}
    (h : ix.DrawnFrom sdk y listed banks) (hl : ∀ m, listed m → listed' m) :
    ix.DrawnFrom sdk y listed' banks := by
  obtain ⟨mintOf, hparts, hmarket⟩ := h
  exact ⟨mintOf, hparts, fun market hm => (hmarket market hm).imp fun m hm' =>
    ⟨hl m hm'.1, hm'.2⟩⟩

theorem MayDraw.mono (h : MayDraw ctx listed t c) (ht : t ⊆ t')
    (hl : ∀ m, listed m → listed' m) : MayDraw ctx listed' t' c := by
  intro ix hix
  obtain ⟨r, hr, hdrawn⟩ := h ix hix
  exact ⟨r, ht hr, hdrawn.mono hl⟩

/-- A call that sends nothing draws nothing. -/
theorem mayDraw_of_not_sends (h : ¬ c.Sends) : MayDraw ctx listed t c := by
  intro ix hix
  rw [ServiceCall.sentIx_eq_none h] at hix
  cases hix

theorem draws_of_not_sends (h : x.Makes fun c : ServiceCall => ¬ c.Sends) :
    DrawsRead ctx listed x :=
  Fallible.Spec.mono h fun _ _ ht => obeys_of_forall_mem fun e he _ =>
    mayDraw_of_not_sends (ht e he)

theorem drawsRead_composable (ctx : HandlerContext) (listed : MarketView → Prop) :
    Composable fun _ x => DrawsRead ctx listed x where
  reads h := draws_of_not_sends (h.mono fun _ hc => hc.not_sends)
  claims _ := draws_of_not_sends (Fallible.makes_ask Bool.false_ne_true)
  releases _ := draws_of_not_sends (Fallible.makes_ask Bool.false_ne_true)
  bind h hf := Fallible.spec_obeys_bind h fun t a ht => (hf t a ht).mono fun _ _ ht' =>
    ht'.mono fun s _ hc => hc.mono (List.subset_append_right t s) fun _ hm => hm
  caught h := Fallible.spec_attempt h (fun _ _ h => h) (fun _ _ _ h _ => h) fun _ _ h _ => h

theorem drawsFrom_of_not_sends (h : x.Makes fun c : ServiceCall => ¬ c.Sends) :
    DrawsFrom ctx listed banks x :=
  Fallible.Makes.mono h fun _ hc _ hix => by
    rw [ServiceCall.sentIx_eq_none hc] at hix
    cases hix

theorem drawsFrom_composable (ctx : HandlerContext) (listed : MarketView → Prop)
    (banks : BankRegistry) : Composable fun _ x => DrawsFrom ctx listed banks x where
  reads h := drawsFrom_of_not_sends (h.mono fun _ hc => hc.not_sends)
  claims _ := drawsFrom_of_not_sends (Fallible.makes_ask Bool.false_ne_true)
  releases _ := drawsFrom_of_not_sends (Fallible.makes_ask Bool.false_ne_true)
  bind h hf := Fallible.spec_runs_bind (fun t _ ht => h t _ ht) fun t a ht =>
    Fallible.Spec.mono (hf t a ht) fun _ _ ht' => List.forall_mem_append.2 ⟨h t _ ht, ht'⟩
  caught h := Fallible.Makes.attempt h

/-- What is drawn from the snapshot taken first is drawn from a registry that has been read. -/
theorem draws_banksSnapshot_bind {f : BankRegistry → Async Service α}
    (hf : ∀ banks, DrawsFrom ctx listed banks (f banks)) :
    DrawsRead ctx listed (Config.banksSnapshot >>= f) := by
  have hread : Config.banksSnapshot.Spec fun t r => ∃ reply : Option BankRegistry,
      t = [⟨.process .banksRead, reply⟩] ∧ r = .ok (reply.getD default) := by
    refine Fallible.spec_query_bind fun reply => ?_
    cases reply <;> exact Fallible.spec_pure ⟨_, rfl, rfl⟩
  refine Fallible.spec_bind hread (fun _ _ ⟨_, _, h⟩ => nomatch h) fun t banks ht => ?_
  obtain ⟨reply, rfl, hbanks⟩ := ht
  cases hbanks
  refine Fallible.Spec.mono (hf _) fun t' _ ht' => ?_
  rw [List.singleton_append]
  refine obeys_cons.2 ⟨mayDraw_of_not_sends Bool.false_ne_true, ?_⟩
  exact obeys_of_forall_mem fun e he s ix hix =>
    ⟨reply, List.mem_cons_self, ht' e he ix hix⟩

end Rules

/-! ### The attempts -/

section Attempts

variable {ctx : HandlerContext} {listed : MarketView → Prop} {banks : BankRegistry}
  {market : MarketView} {debtBank collateralBank : BankInfo}

/-- An instruction for a listed market, with parts of the two entries at its mints. -/
theorem drawnFrom_of_entries {ix : Instruction} (infoOf : Side → BankInfo) (hm : listed market)
    (hpaused : market.isPaused = false)
    (hparts : ∀ p ∈ ix.bankParts, banks.get (market.mintOf p.1) = some (infoOf p.1) ∧
      p.2.2 = (infoOf p.1).part ctx.sdk ctx.y p.2.1)
    (hmints : ∀ p ∈ ix.mints, p.2 = market.mintOf p.1)
    (hmarket : ∀ address ∈ ix.marketBanks.map Prod.fst, address = market.address) :
    ix.DrawnFrom ctx.sdk ctx.y listed banks :=
  ⟨market.mintOf, ⟨fun p hp => ⟨infoOf p.1, hparts p hp⟩, hmints⟩, fun address haddress =>
    ⟨market, hm, (hmarket address haddress).symm, hpaused, rfl⟩⟩

theorem bankOf_ok {name : String} {mint : Pubkey} {info : BankInfo}
    (h : bankOf banks name mint = .ok info) : banks.get mint = some info := by
  unfold bankOf at h
  split at h
  · cases h
  · cases h
    assumption

/-- The vault accounts are those of the debt bank, whose vault it is. -/
theorem vaultSettleParts_of_ok {address globalVault debtMint : Pubkey} {addrs : VaultSettleAddrs}
    (h : PromoterHandler.buildVaultSettleAddrs ctx address globalVault debtMint debtBank =
      .ok addrs) :
    (∀ p ∈ Instruction.vaultSettleParts addrs,
      p.1 = .debt ∧ p.2.2 = debtBank.part ctx.sdk ctx.y p.2.1) ∧ addrs.debtMint = debtMint := by
  unfold PromoterHandler.buildVaultSettleAddrs at h
  simp only at h
  split at h
  · cases h
  rename_i hvault
  rw [ne_eq, not_not] at hvault
  cases h
  simp [Instruction.vaultSettleParts, BankInfo.part, hvault]

theorem assembleVaultSettle_ok {address debtMint : Pubkey} {entry : PendingMatchedLoan} :
    (PromoterHandler.assembleVaultSettle ctx address entry debtMint debtBank).Spec fun _ r =>
      ∀ vaultSettle, r = .ok vaultSettle → ∀ addrs ∈ vaultSettle, ∃ globalVault,
        PromoterHandler.buildVaultSettleAddrs ctx address globalVault debtMint debtBank =
          .ok addrs := by
  have hnone : ∀ r : Except Failure (Option VaultSettleAddrs), r = .ok none →
      ∀ vaultSettle, r = .ok vaultSettle → ∀ addrs ∈ vaultSettle, ∃ globalVault,
        PromoterHandler.buildVaultSettleAddrs ctx address globalVault debtMint debtBank =
          .ok addrs := by
    rintro r rfl vaultSettle hr addrs haddrs
    cases hr
    cases haddrs
  unfold PromoterHandler.assembleVaultSettle
  refine Fallible.spec_ite (fun _ => Fallible.spec_pure (hnone _ rfl)) fun _ => ?_
  refine Fallible.spec_ask_bind (fun _ _ _ => nofun) fun _ data _ => ?_
  cases data with
  | none => exact Fallible.spec_throw nofun
  | some data =>
    refine Fallible.spec_bind (Q := fun _ _ => True) (fun _ _ _ => trivial) (fun _ _ _ => nofun)
      fun _ seat _ => ?_
    refine Fallible.spec_ite (fun _ => Fallible.spec_pure (hnone _ rfl)) fun _ => ?_
    cases haddrs : PromoterHandler.buildVaultSettleAddrs ctx address seat.owner debtMint
        debtBank with
    | error e => exact Fallible.spec_throw nofun
    | ok addrs =>
      refine Fallible.spec_pure fun vaultSettle hr addrs' hmem => ?_
      cases hr
      cases hmem
      exact ⟨seat.owner, haddrs⟩

/-- The end of the promoter and of the claimer. -/
theorem drawsFrom_simulateAndSend {ix : Instruction} {payer : Pubkey} {ixLabel : String}
    (h : ix.DrawnFrom ctx.sdk ctx.y listed banks) : DrawsFrom ctx listed banks (do
      let sim ← Service.rpc (.simulate [ix] payer)
      if !sim.ok then return false
      else do
        let _sig ← Service.rpc (.sendSignedLabeled ixLabel [ix] [payer])
        return true : Async Service Bool) := by
  refine makes_simulateAndSend nofun fun ix' hix => ?_
  cases hix
  exact h

theorem PromoterHandler.draws_promoteOne (hm : listed market) (hpaused : market.isPaused = false)
    (entry : PendingMatchedLoan) : DrawsRead ctx listed (promoteOne ctx market entry) := by
  refine draws_banksSnapshot_bind fun banks => makes_liftError_bind fun debtBank hbank => ?_
  have hdebt : banks.get (market.mintOf .debt) = some debtBank := bankOf_ok hbank
  have hcomposable := drawsFrom_composable ctx listed banks
  refine hcomposable.bind (hcomposable.reads (onlyReads_assembleVaultSettle ctx _ _ _ _))
    fun t vaultSettle ht => ?_
  have hsettle := assembleVaultSettle_ok t _ ht vaultSettle rfl
  refine drawsFrom_simulateAndSend (drawnFrom_of_entries (fun _ => debtBank) hm hpaused
    ?_ ?_ ?_)
  · refine List.forall_mem_cons.2 ⟨⟨hdebt, rfl⟩, fun p hp => ?_⟩
    obtain ⟨addrs, haddrs, hp⟩ := List.mem_flatMap.1 hp
    obtain ⟨globalVault, hok⟩ := hsettle addrs (Option.mem_toList.1 haddrs)
    obtain ⟨hside, hpart⟩ := (vaultSettleParts_of_ok hok).1 p hp
    exact ⟨hside ▸ hdebt, hpart⟩
  · intro p hp
    obtain ⟨addrs, haddrs, rfl⟩ := List.mem_map.1 hp
    obtain ⟨globalVault, hok⟩ := hsettle addrs (Option.mem_toList.1 haddrs)
    exact (vaultSettleParts_of_ok hok).2
  · rintro address ⟨⟩
    rfl

theorem ClaimerHandler.draws_sweepOne {entry : PendingVaultClaim} (hm : listed market)
    (hpaused : market.isPaused = false) (haddress : entry.market = market.address)
    (hmint : entry.debtMint = market.debtMint) :
    DrawsRead ctx listed (sweepOne ctx entry) := by
  refine draws_banksSnapshot_bind fun banks => makes_liftError_bind fun debtBank hbank => ?_
  have hdebt : banks.get (market.mintOf .debt) = some debtBank := by
    rw [MarketView.mintOf, ← hmint]
    exact bankOf_ok hbank
  refine drawsFrom_simulateAndSend (drawnFrom_of_entries (fun _ => debtBank) hm hpaused
    ?_ ?_ ?_)
  · simp [Instruction.bankParts, BankInfo.part, hdebt]
  · simp [Instruction.mints, MarketView.mintOf, hmint]
  · rintro address ⟨⟩
    exact haddress

/-- The entries of a debt and of a collateral mint, by side. -/
def entryOf (debtBank collateralBank : BankInfo) : Side → BankInfo
  | .debt => debtBank
  | .collateral => collateralBank

theorem get_entryOf (hpair : bankPair banks market.debtMint market.collateralMint =
    .ok (debtBank, collateralBank)) (side : Side) :
    banks.get (market.mintOf side) = some (entryOf debtBank collateralBank side) := by
  cases side with
  | debt => exact (Seen.bankPair_ok hpair).1
  | collateral => exact (Seen.bankPair_ok hpair).2

theorem MatchCrankerHandler.draws_crankOne (hm : listed market)
    (hpaused : market.isPaused = false) : DrawsRead ctx listed (crankOne ctx market) := by
  refine draws_banksSnapshot_bind fun banks =>
    makes_liftError_bind fun ⟨debtBank, collateralBank⟩ hpair => ?_
  have hget := get_entryOf hpair
  have hcomposable := drawsFrom_composable ctx listed banks
  refine hcomposable.bind
    (hcomposable.reads (onlyReads_fetchSwbBundle ctx debtBank collateralBank))
    fun t ⟨swbIxs, swbLuts⟩ _ => ?_
  refine Fallible.Makes.bind (Fallible.makes_ask nofun) fun sim => ?_
  split
  · exact Fallible.makes_pure _
  split
  · exact Fallible.makes_pure _
  refine Fallible.Makes.bind (Fallible.makes_ask fun ix hix => ?_) fun _ => Fallible.makes_pure _
  rw [ServiceCall.sentIx, List.getLast?_concat] at hix
  cases hix
  refine drawnFrom_of_entries (entryOf debtBank collateralBank) hm hpaused ?_ nofun ?_
  · simp [Instruction.bankParts, BankInfo.part, hget, entryOf]
  · rintro address ⟨⟩
    rfl

/-- An attempt that closes the loan with an instruction of these accounts. -/
theorem LiquidatorHandler.draws_tryClose (hm : listed market) (hpaused : market.isPaused = false)
    {loan : LoanView} {closing : Closing}
    (hparts : ∀ args, (closing.build args).bankParts = Instruction.closeLoanParts args)
    (hmints : ∀ args, (closing.build args).mints =
      [(.debt, args.debtMint), (.collateral, args.collateralMint)])
    (hmarket : ∀ args, (closing.build args).marketBanks.map Prod.fst = some args.market) :
    DrawsRead ctx listed (tryClose ctx market loan closing) := by
  refine draws_banksSnapshot_bind fun banks =>
    makes_liftError_bind fun ⟨debtBank, collateralBank⟩ hpair => ?_
  have hget := get_entryOf hpair
  have hcomposable := drawsFrom_composable ctx listed banks
  refine hcomposable.bind (hcomposable.reads (onlyReads_fetchSwbBundle ctx collateralBank))
    fun t ⟨swbIxs, swbLuts⟩ _ => ?_
  refine Fallible.Makes.bind (Fallible.makes_ask nofun) fun sim => ?_
  split
  · exact Fallible.makes_pure _
  split
  · exact Fallible.makes_pure _
  refine hcomposable.bind (hcomposable.reads (onlyReads_pickRepayAmount ctx _ loan))
    fun t amount _ => ?_
  cases amount with
  | none => exact Fallible.makes_pure _
  | some repayAtomsMax =>
    refine Fallible.Makes.bind (Fallible.makes_ask nofun) fun confirm => ?_
    split
    · exact Fallible.makes_pure _
    refine Fallible.Makes.bind (Fallible.makes_ask fun ix hix => ?_) fun _ => Fallible.makes_pure _
    rw [ServiceCall.sentIx, List.getLast?_concat] at hix
    cases hix
    refine drawnFrom_of_entries (entryOf debtBank collateralBank) hm hpaused ?_ ?_ ?_
    · simp [hparts, Instruction.closeLoanParts, closeLoan, BankInfo.part, hget, entryOf]
    · simp [hmints, closeLoan, MarketView.mintOf]
    · rw [hmarket]
      rintro address ⟨⟩
      rfl

/-- A fee claim is for no market. -/
theorem CuratorFeeClaimerHandler.draws_claimOne (subVault : SubVaultView) (curatorPk : Pubkey) :
    DrawsFrom ctx listed banks (claimOne ctx subVault banks curatorPk) := by
  unfold claimOne
  split
  · exact Fallible.makes_throw _
  rename_i bank hget
  split
  · exact Fallible.makes_throw _
  rename_i hbank
  rw [ne_eq, not_not] at hbank
  refine Fallible.Makes.bind (Fallible.makes_ask fun ix hix => ?_) fun _ => Fallible.makes_pure _
  cases hix
  refine ⟨fun _ => subVault.vaultMint, ⟨?_, ?_⟩, nofun⟩
  · simp [Instruction.bankParts, BankInfo.part, hget, hbank]
  · simp [Instruction.mints]

end Attempts

/-! ### The ticks -/

section Ticks

variable (ctx : HandlerContext)

/-- The row is on a list of markets that was read in `t`. -/
def ListedRow (t : Service.Trace) (m : MarketView) : Prop :=
  ∃ t₀ markets, t₀ <:+: t ∧ (ctx.chain.listMarkets ctx.y).run.Runs t₀ (.ok markets) ∧ m ∈ markets

/-- After the events `t`, what the call sends is drawn from a registry and a row that were read. -/
def MayDrawListed (t : Service.Trace) (c : ServiceCall) : Prop := MayDraw ctx (ListedRow ctx t) t c

variable {ctx} {t t' : Service.Trace} {c : ServiceCall}

theorem ListedRow.append_left {m : MarketView} (h : ListedRow ctx t' m) :
    ListedRow ctx (t ++ t') m := by
  obtain ⟨t₀, markets, ht₀, hruns, hm⟩ := h
  exact ⟨t₀, markets, ht₀.trans (List.suffix_append t t').isInfix, hruns, hm⟩

theorem MayDrawListed.append_left (h : MayDrawListed ctx t' c) : MayDrawListed ctx (t ++ t') c :=
  MayDraw.mono h (List.subset_append_right t t') fun _ => ListedRow.append_left

theorem obeys_draw_of_lists (h : ∀ e ∈ t, e.call.Lists) : Obeys (MayDrawListed ctx) t :=
  obeys_of_forall_mem fun e he _ => mayDraw_of_not_sends (h e he).not_sends

/-- A program that only reads comes first. -/
theorem draws_onlyReads_bind {α : Type} {x : Async Service α} {f : α → Async Service Unit}
    (h : OnlyReads x) (hf : ∀ a, (f a).Spec fun t _ => Obeys (MayDrawListed ctx) t) :
    (x >>= f).Spec fun t _ => Obeys (MayDrawListed ctx) t :=
  Fallible.spec_obeys_bind
    (Fallible.Spec.mono h fun _ _ ht => obeys_draw_of_lists fun e he => .inl (ht e he))
    fun _ a _ => (hf a).mono fun _ _ ht => ht.mono fun _ _ => .append_left

/-- A handler that lists the markets, and draws from the rows of the list. -/
theorem draws_listMarkets_bind {f : List MarketView → Async Service Unit}
    (hf : ∀ markets, DrawsRead ctx (· ∈ markets) (f markets)) :
    (ctx.chain.listMarkets ctx.y >>= f).Spec fun t _ => Obeys (MayDrawListed ctx) t := by
  refine Fallible.spec_obeys_bind (Fallible.Spec.mono (lists_listMarkets ctx.chain ctx.y)
    fun _ _ ht => obeys_draw_of_lists ht) fun t markets hlist => ?_
  refine (hf markets).mono fun t' _ h => h.mono fun s c hc => ?_
  refine hc.mono (List.subset_append_right t s) fun m hm => ?_
  exact ⟨t, markets, (List.prefix_append t s).isInfix, hlist, hm⟩

/-- **The accounts of what a tick sends** are those of one registry and, but for a fee claim, of one
row of the market, both read before in this tick. -/
theorem HandlerKind.tick_draws (handler : HandlerKind) : (handler.tick ctx).Spec fun t _ =>
    Obeys (MayDrawListed ctx) t := by
  cases handler with
  | promoter =>
    exact draws_listMarkets_bind fun markets => (drawsRead_composable ctx _).promoteMarkets
      fun _ hm hpaused entry => PromoterHandler.draws_promoteOne hm hpaused entry
  | liquidator =>
    exact draws_listMarkets_bind fun markets => (drawsRead_composable ctx _).closeMarkets
      (fun _ hm hpaused _ => LiquidatorHandler.draws_tryClose hm hpaused (fun _ => rfl)
        (fun _ => rfl) fun _ => rfl)
      fun _ hm hpaused _ => LiquidatorHandler.draws_tryClose hm hpaused (fun _ => rfl)
        (fun _ => rfl) fun _ => rfl
  | matchCranker =>
    exact draws_listMarkets_bind fun markets => (drawsRead_composable ctx _).crankMarkets
      fun _ hm hpaused => MatchCrankerHandler.draws_crankOne hm hpaused
  | curatorFeeClaimer =>
    change (CuratorFeeClaimerHandler.tick ctx).Spec _
    unfold CuratorFeeClaimerHandler.tick
    split
    · exact Fallible.spec_pure obeys_nil
    refine draws_onlyReads_bind (onlyReads_listSubVaults _ _) fun subVaults => ?_
    have hclaims : DrawsRead ctx (fun _ => False) (do
        let banks ← Config.banksSnapshot
        CuratorFeeClaimerHandler.claimAll ctx banks subVaults) :=
      draws_banksSnapshot_bind fun banks => (drawsFrom_composable ctx _ banks).claimAll
        fun subVault curatorPk => CuratorFeeClaimerHandler.draws_claimOne subVault curatorPk
    exact hclaims.mono fun _ _ h => h.mono fun _ _ hc => hc.mono (List.Subset.refl _) nofun
  | claimer =>
    refine draws_onlyReads_bind (onlyReads_listSubVaults _ _) fun subVaults => ?_
    split
    · exact Fallible.spec_pure obeys_nil
    refine draws_listMarkets_bind fun markets => ?_
    have hcomposable := drawsRead_composable ctx (· ∈ markets)
    split
    · exact hcomposable.pure ()
    refine hcomposable.bind (hcomposable.reads (onlyReads_listPendingVaultClaims _ _))
      fun t claims h => ?_
    refine hcomposable.sweepAll fun entry hentry => ?_
    obtain ⟨m, hm, hpaused, haddress, hmint⟩ := listPendingVaultClaims_claimsOf ctx.y markets t _ h
      claims rfl entry (List.mem_of_mem_filter hentry)
    exact ClaimerHandler.draws_sweepOne hm hpaused haddress hmint

end Ticks

end YdeltaCrankers
