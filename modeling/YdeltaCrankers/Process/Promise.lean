import YdeltaCrankers.Discovery.Entries
import YdeltaCrankers.Interaction.Ensures
import YdeltaCrankers.Process.Memory

/-!
# What the loops promise each other

An abstract view of the process, in which all that changes is which market rows have been fetched
(`Seen`), and the list only grows.  `Seen.env` says what a loop can learn from a reply: the
registry is backed by rows that have been fetched, and so is the market cache.  `Promise` is what
the loops do in return: they write only such registries and such caches, and the banks of every
instruction they build agree with a row that has been fetched, unless the rows fetched bind some
mint to two banks.

`task_keeps` and `boot_keeps` say that all the code keeps the promise; `abstracts_memory` that
the memory of the process behaves as the abstract view says as long as everybody does.
-/

namespace YdeltaCrankers

open Interaction

/-- The market rows fetched so far. -/
abbrev Seen := List MarketView

/-! ### The promise -/

/-- The market of an instruction, its debt bank, and its collateral bank if it has one. -/
def Instruction.marketBanks : Instruction → Option (Pubkey × Pubkey × Option Pubkey)
  | .processMatchedLoan args => some (args.market, args.debtBank, none)
  | .checkMaturityLiquidatable args => some (args.market, args.debtBank, none)
  | .checkLtvLiquidatable args => some (args.market, args.debtBank, some args.collateralBank)
  | .settleMaturedLoan args => some (args.market, args.debtBank, some args.collateralBank)
  | .liquidateLoan args => some (args.market, args.debtBank, some args.collateralBank)
  | .claimRepaymentForSubVault args => some (args.market, args.debtBank, none)
  | .matchCrank args => some (args.market, args.debtBank, some args.collateralBank)
  | _ => none

/-- The instruction a bundle is built around: the last one. -/
def RpcCall.built : RpcCall → Option Instruction
  | .getAccountData _ => none
  | .simulate ixs _ => ixs.getLast?
  | .simulateV0 ixs _ _ => ixs.getLast?
  | .sendSignedLabeled _ ixs _ => ixs.getLast?
  | .sendSignedV0Labeled _ ixs _ _ => ixs.getLast?

/-- The banks of the instruction are those of a fetched row of its market, which is not paused. -/
def BanksAgree (w : Seen) (ix : Instruction) : Prop :=
  ∀ market debtBank collateralBank, ix.marketBanks = some (market, debtBank, collateralBank) →
    ∃ m ∈ w, m.address = market ∧ m.isPaused = false ∧ debtBank = m.debtBank ∧
      ∀ bank, collateralBank = some bank → bank = m.collateralBank

/-- What the loops do.  Only the boot may overwrite the registry. -/
def Promise (mayOverwrite : Prop) (w : Seen) : ServiceCall → Prop
  | .process (.banksSet fresh) => mayOverwrite ∧ fresh.WellFormed ∧ fresh.BackedBy w
  | .process (.banksMerge fresh) => fresh.WellFormed ∧ fresh.BackedBy w
  | .process (.marketsCachePut markets) => markets ⊆ w
  | .rpc c => SingleBanked w → ∀ ix ∈ c.built, BanksAgree w ix
  | _ => True

namespace Seen

/-- What a reply tells. -/
def Learns (y : Ydelta) (w : Seen) : (c : ServiceCall) → c.Reply → Prop
  | .process .banksRead, r => ∀ registry, r = some registry → registry.BackedBy w
  | .process .marketsCacheGet, r => ∀ markets, r = some markets → markets ⊆ w
  | .process .marketsCacheStale, r => ∀ markets, r = some markets → markets ⊆ w
  | .client (.getProgramAccounts _ filters), r => Memory.fetchedRows y filters r ⊆ w
  | _, _ => True

/-- Rows are fetched, by the program and by the others. -/
def env (y : Ydelta) : Env Service Seen := ⟨(· ⊆ ·), fun w c r w' => w ⊆ w' ∧ Learns y w' c r⟩

variable {y : Ydelta} {mayOverwrite : Prop} {w w' : Seen} {α β : Type}

theorem subset_of_ticks (h : (env y).Ticks w w') : w ⊆ w' :=
  h.invariant (P := fun x => w ⊆ x) (List.Subset.refl w) fun _ _ h₁ h₂ => List.Subset.trans h₁ h₂

/-- From `w` on, `x` keeps the promise, and `Q` holds of what it returns. -/
abbrev Keeps (y : Ydelta) (mayOverwrite : Prop) (Q : α → Seen → Prop) (x : Async Service α)
    (w : Seen) : Prop :=
  (env y).Ensures (fun _ _ => True) (Promise mayOverwrite) Q x w

variable {Q : α → Seen → Prop} {S : β → Seen → Prop} {x : Async Service α}

/-! ### Rules -/

theorem keeps_pure {a : α} (h : ∀ w', w ⊆ w' → Q a w') : Keeps y mayOverwrite Q (pure a) w :=
  Env.ensures_pure fun w' hw => h w' (subset_of_ticks hw)

/-- The list of rows has only grown. -/
theorem Keeps.grow (h : Keeps y mayOverwrite Q x w) :
    Keeps y mayOverwrite (fun a w' => w ⊆ w' ∧ Q a w') x w := by
  have halong : (env y).Safe (fun _ _ => True) (Promise mayOverwrite) (fun _ => True)
      (fun r w' => w ⊆ w' ∧ ∀ a, r = .ok a → Q a w') x.run w :=
    Env.Safe.along List.Subset.refl (fun _ _ _ => List.Subset.trans) (fun _ _ h => h)
      (fun _ _ _ _ _ ha => ha.1) h
  exact halong.mono fun r w' hr a ha => ⟨hr.1, hr.2 a ha⟩

theorem Keeps.bind {f : α → Async Service β} (h : Keeps y mayOverwrite Q x w)
    (hf : ∀ a w', w ⊆ w' → Q a w' → Keeps y mayOverwrite S (f a) w') :
    Keeps y mayOverwrite S (x >>= f) w :=
  Env.Ensures.bind h.grow fun a w' ha => hf a w' ha.1 ha.2

theorem Keeps.mono {R : α → Seen → Prop} (h : Keeps y mayOverwrite Q x w)
    (hR : ∀ a w', w ⊆ w' → Q a w' → R a w') : Keeps y mayOverwrite R x w :=
  Env.Ensures.mono h.grow fun a w' ha => hR a w' ha.1 ha.2

theorem keeps_lift {r : Except Failure α} (h : ∀ a, r = .ok a → ∀ w', w ⊆ w' → Q a w') :
    Keeps y mayOverwrite Q (liftExcept r) w :=
  Env.ensures_ret fun a ha w' hw => h a ha w' (subset_of_ticks hw)

theorem keeps_liftError {r : Except Error α} (h : ∀ a, r = .ok a → ∀ w', w ⊆ w' → Q a w') :
    Keeps y mayOverwrite Q (liftError r) w :=
  keeps_lift fun a ha => h a (by cases r <;> cases ha; rfl)

theorem keeps_rpc {c : RpcCall} {Q : c.Result → Seen → Prop}
    (hG : ∀ w', w ⊆ w' → Promise mayOverwrite w' (.rpc c)) (hQ : ∀ a w', w ⊆ w' → Q a w') :
    Keeps y mayOverwrite Q (Service.rpc c) w :=
  Env.ensures_ask fun w₁ hw₁ => ⟨hG w₁ (subset_of_ticks hw₁), fun _ _ ha _ a _ w₃ hw₃ =>
    hQ a w₃ (List.Subset.trans (subset_of_ticks hw₁)
      (List.Subset.trans ha.1 (subset_of_ticks hw₃)))⟩

theorem keeps_client {c : ClientCall} {conv : c.Reply → Except Failure α}
    (hQ : ∀ r w₁ w₂, w ⊆ w₁ → Learns y w₁ (.client c) r → w₁ ⊆ w₂ → ∀ a, conv r = .ok a → Q a w₂) :
    Keeps y mayOverwrite Q (Service.client c conv) w :=
  Env.ensures_ask fun _ hw₁ => ⟨trivial, fun r w₂ ha _ a hra w₃ hw₃ =>
    hQ r w₂ w₃ (List.Subset.trans (subset_of_ticks hw₁) ha.1) ha.2 (subset_of_ticks hw₃) a hra⟩

theorem keeps_process {c : ProcessCall} {Q : c.Reply → Seen → Prop}
    (hG : ∀ w', w ⊆ w' → Promise mayOverwrite w' (.process c))
    (hQ : ∀ r w₁ w₂, w ⊆ w₁ → Learns y w₁ (.process c) r → w₁ ⊆ w₂ → Q r w₂) :
    Keeps y mayOverwrite Q (Service.process c) w :=
  Env.ensures_query fun w₁ hw₁ => ⟨hG w₁ (subset_of_ticks hw₁), fun r w₂ ha _ w₃ hw₃ =>
    hQ r w₂ w₃ (List.Subset.trans (subset_of_ticks hw₁) ha.1) ha.2 (subset_of_ticks hw₃)⟩

/-- A call inside the process that promises nothing and tells nothing of interest. -/
theorem keeps_process_idle {c : ProcessCall} (hG : ∀ w', Promise mayOverwrite w' (.process c)) :
    Keeps y mayOverwrite (fun _ _ => True) (Service.process c) w :=
  keeps_process (fun w' _ => hG w') fun _ _ _ _ _ _ => trivial

/-- A client call that tells nothing of interest. -/
theorem keeps_client_idle {c : ClientCall} {conv : c.Reply → Except Failure α} :
    Keeps y mayOverwrite (fun _ _ => True) (Service.client c conv) w :=
  keeps_client fun _ _ _ _ _ _ _ _ => trivial

/-- Fetching account data promises nothing. -/
theorem keeps_getAccountData (pk : Pubkey) :
    Keeps y mayOverwrite (fun _ _ => True) (Service.rpc (.getAccountData pk)) w :=
  keeps_rpc (fun _ _ _ _ h => nomatch h) fun _ _ _ => trivial

/-- A caught failure is not the end. -/
theorem Keeps.caught (h : Keeps y mayOverwrite Q x w) :
    Keeps y mayOverwrite (fun r w' => ∀ a, r = .ok a → Q a w') (Service.caught x) w :=
  Env.Ensures.attempt h

theorem Keeps.withContext {msg : String} (h : Keeps y mayOverwrite Q x w) :
    Keeps y mayOverwrite Q (withContext msg x) w :=
  Env.Ensures.mapError h

end Seen

end YdeltaCrankers
