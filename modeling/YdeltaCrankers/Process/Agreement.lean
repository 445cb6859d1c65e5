import YdeltaCrankers.Process.Stability

/-!
# The banks of the instructions

The registry is keyed by mint and never overwritten, the market list comes from a cache of its
own.  A handler takes the banks of an instruction from the registry, so they are those of *some*
row that binds the mint, not of the row of its market.

**Main theorem** (`ProcessRun.banks_agree`): an instruction gets the banks of a row of its market
whenever no mint is bound to two banks by the rows fetched so far.  When one is, it may not:
a refresh that finds a conflict fails, but only after the conflicting rows went to the market
cache (`not_banksAlwaysAgree`).
-/

namespace YdeltaCrankers

open Interaction

variable {cfg : Config} {sdk : Sdk} {y : Ydelta} {signers : Signers}

/-- Whatever a loop builds an instruction for, its banks are those of a row of its market. -/
def ProcessRun.BanksAlwaysAgree (run : ProcessRun cfg sdk y signers) : Prop :=
  ∀ x ∈ run.events, ∀ c, x.2.2.call = .rpc c → ∀ ix ∈ c.built, BanksAgree x.2.1.fetched ix

/-- **The banks agree while the rows do.**  In every run of the process, as long as the rows
fetched bind every mint to one bank, the banks of every instruction are those of a row of its
market. -/
theorem ProcessRun.banks_agree (run : ProcessRun cfg sdk y signers)
    (hs : ∀ x ∈ run.events, SingleBanked x.2.1.fetched) : run.BanksAlwaysAgree := by
  intro x hx c hcall
  have hpromise := (run.sound.2 x hx).2
  rw [hcall] at hpromise
  exact hpromise (hs x hx)

/-! ### A run with a conflict -/

/-- A chain with these market rows; simulations and sends succeed. -/
def sampleChain (rows : List (Pubkey × Account)) : (c : ServiceCall) → c.Reply
  | .client (.getProgramAccounts _ filters) =>
    .ok (if filters.length = 1 then rows else [sampleLoanRow 33 1 1000 1000])
  | .client (.getMultipleAccounts pks) => .ok (pks.map BankRegistry.sampleAccount)
  | .client .getSlot => .ok 0
  | .rpc (.simulateV0 _ _ _) => .ok ⟨true, none, []⟩
  | .rpc (.sendSignedLabeled _ _ _) => .ok default
  | .process (.fetchGateways _) => .ok [⟨"gateway"⟩]
  | c => c.refused

/-- What the loops are given when the boot sees these rows. -/
def sampleCtx (rows : List (Pubkey × Account)) : HandlerContext :=
  match (bootExec sampleConfig .plain .plain sampleSigners (sampleChain rows)).2.1 with
  | .ok ctx => ctx
  | .error _ => ⟨sampleConfig, .plain, .plain, sampleSigners, none⟩

/-- A run whose boot sees the first rows, and whose only loop sees the second ones. -/
def sampleRun (rows rows' : List (Pubkey × Account)) (tasks : List Task)
    (h : (bootExec sampleConfig .plain .plain sampleSigners (sampleChain rows)).2.1.isOk = true) :
    ProcessRun sampleConfig .plain .plain sampleSigners :=
  (Launch.compute _ _ _ _ (sampleChain rows) (sampleCtx rows) (by
    unfold sampleCtx
    cases hr : (bootExec sampleConfig .plain .plain sampleSigners (sampleChain rows)).2.1 with
    | ok ctx => rfl
    | error e => rw [hr] at h; cases h)).continue (sampleChain rows') tasks

/-- The boot on one market succeeds. -/
theorem boot_sample : (bootExec sampleConfig .plain .plain sampleSigners
    (sampleChain [sampleMarketRow 32 1 2 11 12])).2.1.isOk = true := by decide +kernel

/-- The event is about an instruction whose debt bank no fetched row of its market has. -/
def clashes (x : ℕ × Memory × Service.Event) : Bool :=
  match x.2.2.call with
  | .rpc c => match c.built.bind Instruction.marketBanks with
    | some (market, debtBank, _) => x.2.1.fetched.all fun m =>
        decide (m.address = market → debtBank ≠ m.debtBank)
    | none => false
  | _ => false

theorem not_banksAlwaysAgree_of_clash {run : ProcessRun cfg sdk y signers}
    (h : run.events.any clashes = true) : ¬ run.BanksAlwaysAgree := by
  intro hagree
  obtain ⟨x, hx, hclash⟩ := List.any_eq_true.1 h
  unfold clashes at hclash
  split at hclash
  · rename_i c hcall
    split at hclash
    · rename_i market debtBank collateralBank hbanks
      obtain ⟨ix, hix, hix'⟩ := Option.bind_eq_some_iff.1 hbanks
      obtain ⟨m, hm, haddress, -, hdebt, -⟩ := hagree x hx c hcall ix hix _ _ _ hix'
      have hne := List.all_eq_true.1 hclash m hm
      exact of_decide_eq_true hne haddress hdebt
    · cases hclash
  · cases hclash

/-- After the boot a second market binds the first mint to another bank.  The refresh fails, and
the liquidator checks a loan of that market with the bank of the first one. -/
theorem not_banksAlwaysAgree : ¬ ∀ run : ProcessRun sampleConfig .plain .plain sampleSigners,
    run.BanksAlwaysAgree := by
  intro h
  refine not_banksAlwaysAgree_of_clash ?_ (h (sampleRun [sampleMarketRow 32 1 2 11 12]
    [sampleMarketRow 32 1 2 11 12, sampleMarketRow 33 1 2 13 12]
    [.bankRefresh, .supervise .liquidator] (by decide +kernel)))
  decide +kernel

theorem singleBanked_of_isOk {markets : List MarketView}
    (h : (BankRegistry.bindMarkets markets).isOk = true) : SingleBanked markets := by
  rw [← BankRegistry.bindMarkets_ok_iff]
  cases hmap : BankRegistry.bindMarkets markets with
  | ok map => exact ⟨map, rfl⟩
  | error e => rw [hmap] at h; cases h

theorem singleBanked_of_all {run : ProcessRun cfg sdk y signers}
    (h : run.events.all (fun x => (BankRegistry.bindMarkets x.2.1.fetched).isOk) = true) :
    ∀ x ∈ run.events, SingleBanked x.2.1.fetched :=
  fun x hx => singleBanked_of_isOk (List.all_eq_true.1 h x hx)

/-- A run without a conflict: a refresh sees a second market, and the liquidator checks its
loan. -/
theorem banks_agree_sample : (sampleRun [sampleMarketRow 32 1 2 11 12]
    [sampleMarketRow 32 1 2 11 12, sampleMarketRow 33 2 1 12 11]
    [.bankRefresh, .supervise .liquidator] boot_sample).BanksAlwaysAgree :=
  ProcessRun.banks_agree _ (singleBanked_of_all (by decide +kernel))

end YdeltaCrankers
