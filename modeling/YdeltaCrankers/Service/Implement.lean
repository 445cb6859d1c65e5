import YdeltaCrankers.Interaction.Interp
import YdeltaCrankers.Rpc.Attempt
import YdeltaCrankers.Service.Basic

/-!
# The methods of `Rpc` in the place of their calls

`Service.implement` replaces the calls to `Rpc` in a program over `Service` by the programs of
`YdeltaCrankers.Rpc.Basic`, so that a run shows the client calls of a whole attempt: the
transactions that are simulated and the transactions that are broadcast.

The lemmas say what the client calls of each method are about: a successful simulation simulated
exactly the instructions it was given (`simulateV0_ok`), and a send broadcasts only transactions
of its instructions behind the preamble (`sendSignedLabeled_makes`, `sendSignedV0Labeled_makes`).
None of the methods panics (`RpcCall.neverPanics`).
-/

namespace YdeltaCrankers

open Interaction

/-- The program of a method. -/
def RpcCall.prog (rpc : Rpc) (sdk : Sdk) : (c : RpcCall) → Async Client c.Result
  | .getAccountData pk => Rpc.getAccountData pk
  | .simulate ixs feePayer => rpc.simulate sdk ixs feePayer
  | .simulateV0 ixs luts feePayer => Rpc.simulateV0 sdk ixs luts feePayer
  | .sendSignedLabeled ixLabel ixs signers => rpc.sendSignedLabeled sdk ixLabel ixs signers
  | .sendSignedV0Labeled ixLabel ixs luts signers =>
    rpc.sendSignedV0Labeled sdk ixLabel ixs luts signers

namespace Service

/-- A client call, made by a program over `Service`. -/
def viaClient (c : ClientCall) : Prog Service c.Reply := Prog.perform (I := Service) (.client c)

/-- The calls to `Rpc` are replaced by their programs. -/
def implement (rpc : Rpc) (sdk : Sdk) : (c : ServiceCall) → Prog Service c.Reply
  | .rpc c => (c.prog rpc sdk).run.interp (I := Client) viaClient
  | .client c => viaClient c
  | .process c => Prog.perform (I := Service) (.process c)

/-- A client event, seen by a program over `Service`. -/
def clientEvent (e : Client.Event) : Service.Event := ⟨.client e.call, e.reply⟩

theorem implements_viaClient {u : Client.Trace} {t : Service.Trace} :
    Implements viaClient u t ↔ t = u.map clientEvent := by
  constructor
  · intro h
    induction h with
    | nil => rfl
    | cons hc _ ih =>
      obtain ⟨r, t', rfl, rfl, rfl⟩ := hc
      rw [ih]
      rfl
  · rintro rfl
    induction u with
    | nil => exact .nil
    | cons e u ih =>
      have hc : (viaClient e.call).Runs [clientEvent e] e.reply := ⟨e.reply, [], rfl, rfl, rfl⟩
      exact Implements.cons hc ih

/-- The run of a method, as the client sees it. -/
theorem runs_implement_rpc {rpc : Rpc} {sdk : Sdk} {c : RpcCall} {t : Service.Trace}
    {r : Except Failure c.Result} (h : (implement rpc sdk (.rpc c)).Runs t r) :
    ∃ u, (c.prog rpc sdk).run.Runs u r ∧ t = u.map clientEvent := by
  obtain ⟨u, hu, himp⟩ := Prog.runs_interp.1 h
  exact ⟨u, hu, implements_viaClient.1 himp⟩

end Service

/-! ### What the methods simulate and broadcast -/

namespace Rpc

variable {rpc : Rpc} {sdk : Sdk} {ixs : List Instruction} {luts : List AddressLookupTableAccount}
  {feePayer : Pubkey}

/-- The transaction is made of exactly these instructions and tables. -/
def CarriesOut (ixs : List Instruction) (luts : List AddressLookupTableAccount)
    (feePayer : Pubkey) (tx : Transaction) : Prop :=
  tx.message.ixs = ixs ∧ tx.message.luts = luts ∧ tx.message.payer = feePayer

theorem tryCompile_ok {blockhash : Hash} {msg : Message}
    (h : Message.tryCompile sdk feePayer ixs luts blockhash = .ok msg) :
    msg = ⟨.v0, feePayer, ixs, luts, blockhash⟩ := by
  unfold Message.tryCompile at h
  split at h <;> cases h
  rfl

/-- What is compiled and signed carries the instructions out. -/
theorem carriesOut_of_tryNew {blockhash : Hash} {msg : Message} {signers : List Pubkey}
    {tx : Transaction} (hmsg : Message.tryCompile sdk feePayer ixs luts blockhash = .ok msg)
    (htx : Transaction.tryNew sdk msg signers = .ok tx) : CarriesOut ixs luts feePayer tx := by
  unfold Transaction.tryNew at htx
  split at htx <;> cases htx
  cases tryCompile_ok hmsg
  exact ⟨rfl, rfl, rfl⟩

/-- A successful simulation simulated exactly the instructions it was given. -/
theorem simulateV0_ok {t : Client.Trace} {sim : SimulationResult}
    (h : (simulateV0 sdk ixs luts feePayer).run.Runs t (.ok sim)) (hok : sim.ok = true) :
    ∃ tx result, (⟨.simulateTransaction tx, .ok result⟩ : Client.Event) ∈ t ∧
      result.err = none ∧ CarriesOut ixs luts feePayer tx := by
  have hspec : (simulateV0 sdk ixs luts feePayer).Spec fun t r => ∀ sim, r = .ok sim →
      sim.ok = true → ∃ tx result, (⟨.simulateTransaction tx, .ok result⟩ : Client.Event) ∈ t ∧
        result.err = none ∧ CarriesOut ixs luts feePayer tx := by
    refine Fallible.spec_ask_bind (fun _ _ _ => nofun) fun r blockhash hr => ?_
    cases hmsg : Message.tryCompile sdk feePayer ixs luts blockhash with
    | error e => exact Fallible.spec_throw nofun
    | ok msg =>
      refine Fallible.spec_ask_bind (fun _ _ _ => nofun) fun r result hr => ?_
      refine Fallible.spec_pure ?_
      rintro sim ⟨⟩ hok
      cases r <;> cases hr
      cases tryCompile_ok hmsg
      exact ⟨_, result, List.mem_cons_of_mem _ List.mem_cons_self, by simpa using hok,
        rfl, rfl, rfl⟩
  exact hspec t _ h sim rfl hok

/-- Every transaction the call broadcasts is one that `P` holds of. -/
def BroadcastsOnly (P : Transaction → Prop) : ClientCall → Prop
  | .sendAndConfirmTransaction tx => P tx
  | _ => True

/-- The retry loop broadcasts only what it builds. -/
theorem retryLoop_makes (rpc : Rpc) {build : Hash → Except Failure Transaction}
    {P : Transaction → Prop} (hbuild : ∀ h tx, build h = .ok tx → P tx) (attempts : List ℕ)
    (last : Option Signature) :
    (rpc.retryLoop build attempts last).Makes (BroadcastsOnly P) := by
  induction attempts generalizing last with
  | nil => exact Fallible.makes_throw _
  | cons attempt rest ih =>
    refine (retryLoop_runs rpc build attempt rest last).mono fun t r hrun => ?_
    cases hrun with
    | stopped hstop => exact hstop.forall_mem fun _ => trivial
    | landed hstop hstatus =>
      exact List.forall_mem_append.2
        ⟨hstop.forall_mem fun _ => trivial, hstatus.forall_mem fun _ _ => trivial⟩
    | signs hstop hstatus hsign =>
      refine List.forall_mem_append.2 ⟨hstop.forall_mem fun _ => trivial,
        List.forall_mem_append.2 ⟨hstatus.forall_mem fun _ _ => trivial, ?_⟩⟩
      cases hsign with
      | noBlockhash | notBuilt | unsigned => exact List.forall_mem_singleton.2 trivial
      | confirmed htx | rejected htx =>
        exact List.forall_mem_cons.2 ⟨trivial, List.forall_mem_singleton.2 (hbuild _ _ htx)⟩
      | retried htx hsig htransient hattempt hrest =>
        exact List.forall_mem_cons.2 ⟨trivial, List.forall_mem_cons.2 ⟨hbuild _ _ htx,
          List.forall_mem_cons.2 ⟨trivial, ih _ _ _ hrest⟩⟩⟩

theorem buildLegacy_ok {signers : List Pubkey} {blockhash : Hash} {tx : Transaction}
    (h : buildLegacy sdk ixs signers feePayer blockhash = .ok tx) :
    CarriesOut ixs [] feePayer tx := by
  cases h
  exact ⟨rfl, rfl, rfl⟩

theorem buildV0_ok {signers : List Pubkey} {blockhash : Hash} {tx : Transaction}
    (h : buildV0 sdk ixs luts signers feePayer blockhash = .ok tx) :
    CarriesOut ixs luts feePayer tx := by
  unfold buildV0 at h
  split at h
  · cases h
  rename_i msg hmsg
  split at h
  · cases h
  rename_i htx
  cases h
  exact carriesOut_of_tryNew hmsg htx

theorem sendSignedLabeled_makes (rpc : Rpc) (sdk : Sdk) (ixLabel : String)
    (ixs : List Instruction) (feePayer : Pubkey) (signers : List Pubkey) :
    (rpc.sendSignedLabeled sdk ixLabel ixs (feePayer :: signers)).Makes (BroadcastsOnly
      (CarriesOut (rpc.priorityFeePreamble rpc.computeUnitLimit ++ ixs) [] feePayer)) := by
  change (rpc.sendWithRetry sdk _ _ _).Makes _
  rw [sendWithRetry_eq]
  exact retryLoop_makes rpc (fun h tx htx => buildLegacy_ok htx) _ _

theorem sendSignedV0Labeled_makes (rpc : Rpc) (sdk : Sdk) (ixLabel : String)
    (ixs : List Instruction) (luts : List AddressLookupTableAccount) (feePayer : Pubkey)
    (signers : List Pubkey) :
    (rpc.sendSignedV0Labeled sdk ixLabel ixs luts (feePayer :: signers)).Makes (BroadcastsOnly
      (CarriesOut (rpc.priorityFeePreamble v0ComputeUnitLimit ++ ixs) luts feePayer)) := by
  change (rpc.sendV0WithRetry sdk _ _ _ _).Makes _
  rw [sendV0WithRetry_eq]
  exact retryLoop_makes rpc (fun h tx htx => buildV0_ok htx) _ _

/-- Neither a simulation nor an account read broadcasts. -/
theorem simulateV0_makes :
    (simulateV0 sdk ixs luts feePayer).Makes (BroadcastsOnly fun _ => False) := by
  refine Fallible.Makes.bind (Fallible.makes_ask trivial) fun blockhash => ?_
  refine (Fallible.makes_result _).bind fun msg => ?_
  exact Fallible.Makes.bind (Fallible.makes_ask trivial) fun result => Fallible.makes_pure _

theorem getAccountData_makes (pk : Pubkey) :
    (getAccountData pk).Makes (BroadcastsOnly fun _ => False) := by
  refine Fallible.Makes.bind (Fallible.makes_ask trivial) fun r => ?_
  cases r with
  | ok acct => exact Fallible.makes_pure _
  | error e =>
    simp only
    split
    · exact Fallible.makes_pure _
    · exact Fallible.makes_throw _

end Rpc

/-! ### No method panics -/

/-- The failure is an error, not a panic. -/
def Failure.IsError (f : Failure) : Prop := ∃ e, f = .error e

/-- `x` may fail with an error but does not panic. -/
abbrev NeverPanics {α : Type} (x : Async Client α) : Prop :=
  x.FailsOnly (fun _ => True) Failure.IsError

theorem neverPanics_liftError {α : Type} (r : Except Error α) :
    NeverPanics (liftError r : Async Client α) := by
  refine Fallible.failsOnly_result fun err h => ?_
  cases r <;> cases h
  exact ⟨_, rfl⟩

theorem neverPanics_ask {α : Type} {c : ClientCall} {conv : c.Reply → Except Failure α}
    (h : ∀ r err, conv r = .error err → err.IsError) : NeverPanics (Client.ask c conv) :=
  Fallible.failsOnly_ask fun r _ => h r

theorem orClientError_isError {α : Type} {r : Except ClientError α} {err : Failure}
    (h : orClientError r = .error err) : err.IsError := by
  cases r <;> cases h
  exact ⟨_, rfl⟩

theorem neverPanics_query (c : ClientCall) : NeverPanics (Client.query c) :=
  neverPanics_ask fun _ _ => nofun

theorem neverPanics_bail {α : Type} (msg : String) : NeverPanics (bail msg : Async Client α) :=
  Fallible.failsOnly_throw ⟨_, rfl⟩

namespace Rpc

variable {rpc : Rpc} {sdk : Sdk}

/-- The end of the loop is not reached: the attempt numbered 2 returns. -/
theorem retryLoop_neverPanics {build : Hash → Except Failure Transaction}
    (hbuild : ∀ h err, build h = .error err → err.IsError) {attempts : List ℕ} (hmem : 2 ∈ attempts)
    (last : Option Signature) : NeverPanics (rpc.retryLoop build attempts last) := by
  induction attempts generalizing last with
  | nil => exact absurd hmem List.not_mem_nil
  | cons attempt rest ih =>
    refine (retryLoop_runs rpc build attempt rest last).mono fun t r hrun _ err herr => ?_
    cases hrun with
    | stopped hstop =>
      cases herr
      exact ⟨_, rfl⟩
    | landed hstop hstatus => cases herr
    | signs hstop hstatus hsign =>
      cases hsign with
      | noBlockhash | unsigned | rejected =>
        cases herr
        exact ⟨_, rfl⟩
      | notBuilt htx =>
        cases herr
        exact hbuild _ _ htx
      | confirmed htx => cases herr
      | retried htx hsig htransient hattempt hrest =>
        -- the loop goes on, so this was not the attempt numbered 2
        have hrestmem : 2 ∈ rest := (List.mem_cons.1 hmem).resolve_left (Ne.symm hattempt)
        exact ih hrestmem _ _ _ hrest (fun _ _ => trivial) err herr

theorem simulateV0_neverPanics {ixs : List Instruction} {luts : List AddressLookupTableAccount}
    {feePayer : Pubkey} : NeverPanics (simulateV0 sdk ixs luts feePayer) := by
  refine (neverPanics_ask fun _ _ => orClientError_isError).bind fun blockhash => ?_
  refine (neverPanics_liftError _).bind fun msg => ?_
  refine (neverPanics_ask fun _ _ => orClientError_isError).bind fun result => ?_
  exact Fallible.failsOnly_pure _

theorem buildV0_isError {ixs : List Instruction} {luts : List AddressLookupTableAccount}
    {signers : List Pubkey} {feePayer : Pubkey} {blockhash : Hash} {err : Failure}
    (h : buildV0 sdk ixs luts signers feePayer blockhash = .error err) : err.IsError := by
  unfold buildV0 at h
  split at h
  · cases h
    exact ⟨_, rfl⟩
  split at h <;> cases h
  exact ⟨_, rfl⟩

theorem sendSignedLabeled_neverPanics (ixLabel : String) (ixs : List Instruction)
    (signers : List Pubkey) : NeverPanics (rpc.sendSignedLabeled sdk ixLabel ixs signers) := by
  unfold sendSignedLabeled
  split
  · exact neverPanics_bail _
  · rw [sendWithRetry_eq]
    refine retryLoop_neverPanics (fun h err herr => ?_) (by decide) none
    cases herr

theorem sendSignedV0Labeled_neverPanics (ixLabel : String) (ixs : List Instruction)
    (luts : List AddressLookupTableAccount) (signers : List Pubkey) :
    NeverPanics (rpc.sendSignedV0Labeled sdk ixLabel ixs luts signers) := by
  unfold sendSignedV0Labeled
  split
  · exact neverPanics_bail _
  · rw [sendV0WithRetry_eq]
    exact retryLoop_neverPanics (fun _ _ => buildV0_isError) (by decide) none

end Rpc

/-- No method of `Rpc` panics. -/
theorem RpcCall.neverPanics (rpc : Rpc) (sdk : Sdk) (c : RpcCall) :
    NeverPanics (c.prog rpc sdk) := by
  cases c with
  | getAccountData pk =>
    refine (neverPanics_query _).bind fun r => ?_
    cases r with
    | ok acct => exact Fallible.failsOnly_pure _
    | error e =>
      simp only
      split
      · exact Fallible.failsOnly_pure _
      · exact Fallible.failsOnly_throw ⟨_, rfl⟩
  | simulate ixs feePayer => exact Rpc.simulateV0_neverPanics
  | simulateV0 ixs luts feePayer => exact Rpc.simulateV0_neverPanics
  | sendSignedLabeled ixLabel ixs signers =>
    exact Rpc.sendSignedLabeled_neverPanics ixLabel ixs signers
  | sendSignedV0Labeled ixLabel ixs luts signers =>
    exact Rpc.sendSignedV0Labeled_neverPanics ixLabel ixs luts signers

/-- The reply of a method is one that its program gives, on some replies of the client. -/
def Service.Given (rpc : Rpc) (sdk : Sdk) : Service.Event → Prop
  | ⟨.rpc c, r⟩ => ∃ u, (c.prog rpc sdk).run.Runs u r
  | _ => True

/-- The event is not the panic of a method. -/
def Service.Calm : Service.Event → Prop
  | ⟨.rpc _, r⟩ => ∀ err, r = .error err → err.IsError
  | _ => True

theorem Service.Given.calm {rpc : Rpc} {sdk : Sdk} {e : Service.Event}
    (h : Service.Given rpc sdk e) : Service.Calm e := by
  obtain ⟨c, r⟩ := e
  cases c with
  | rpc c =>
    obtain ⟨u, hu⟩ := h
    exact c.neverPanics rpc sdk u r hu fun _ _ => trivial
  | client c => trivial
  | process c => trivial

end YdeltaCrankers
