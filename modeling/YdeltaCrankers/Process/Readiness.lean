import YdeltaCrankers.Process.Agreement
import YdeltaCrankers.Process.Signing

/-!
# What the boot prepares

Two things are decided once, from the registry of the boot: the fee payer's token accounts are
created for its mints, and the Switchboard cranker is loaded if it has a pull feed.  The registry
grows afterwards, and nothing repeats either step.

**Main theorems**
* `ProcessRun.atas_ready` : the fee payer's token account is known to exist for every mint of the
  registry as long as no refresh merges a mint that the registry does not have;
* `ProcessRun.swb_ready_iff` : a registry with a pull feed finds the Switchboard cranker exactly
  when the registry of the boot had a pull feed.
-/

namespace YdeltaCrankers

open Interaction

variable {cfg : Config} {sdk : Sdk} {y : Ydelta} {signers : Signers}

/-- What programs that do not write the registry cannot undo. -/
def Memory.Frame (s s' : Memory) : Prop := s'.banks = s.banks ∧ s.known ⊆ s'.known

/-- The program makes no call that changes the registry. -/
abbrev NoWrites {α : Type} (x : Async Service α) : Prop :=
  Fallible.Makes (I := Service) (fun c => ¬ c.WritesBanks) x

/-! ### Programs that do not write the registry -/

theorem not_writesBanks_rpc (c : RpcCall) : ¬ (ServiceCall.rpc c).WritesBanks := by
  rintro ⟨fresh, h | h⟩ <;> cases h

theorem not_writesBanks_client (c : ClientCall) : ¬ (ServiceCall.client c).WritesBanks := by
  rintro ⟨fresh, h | h⟩ <;> cases h

theorem not_writesBanks_reads {c : ServiceCall} (h : c.Reads) : ¬ c.WritesBanks := by
  rintro ⟨fresh, rfl | rfl⟩ <;> exact h

theorem noWrites_banksSnapshot : NoWrites Config.banksSnapshot :=
  makes_banksSnapshot (not_writesBanks_reads trivial)

theorem noWrites_ensureAtasFor (registry : BankRegistry) (feePayer : Pubkey) :
    NoWrites (registry.ensureAtasFor sdk feePayer) :=
  makes_ensureAtasFor sdk (fun _ => not_writesBanks_client _) (fun _ => not_writesBanks_rpc _)
    registry

theorem noWrites_ensureCuratorAtas (curators : List Pubkey) :
    NoWrites (ensureCuratorAtas sdk curators) :=
  makes_ensureCuratorAtas sdk (not_writesBanks_reads trivial) (fun _ => not_writesBanks_client _)
    fun _ _ _ => not_writesBanks_rpc _

theorem noWrites_bootSwbCranker (swbQueue : Pubkey) :
    NoWrites (bootSwbCranker signers swbQueue) := by
  refine makes_bootSwbCranker signers ?_ ?_ swbQueue
  · exact not_writesBanks_reads trivial
  · exact fun _ => not_writesBanks_reads trivial

/-! ### Boot -/

namespace Memory

variable {A : Memory → Service.Event → Prop} {s : Memory} {α : Type}

theorem Frame.refl (s : Memory) : s.Frame s := ⟨rfl, List.Subset.refl _⟩

theorem Frame.trans {s₁ s₂ s₃ : Memory} (h : s₁.Frame s₂) (h' : s₂.Frame s₃) : s₁.Frame s₃ :=
  ⟨h'.1.trans h.1, List.Subset.trans h.2 h'.2⟩

theorem frame_tick {s s' : Memory} (h : Tick s s') : s.Frame s' := by
  obtain ⟨clock, -, rfl⟩ := h
  exact .refl s

theorem frame_of_ticks {s s' : Memory} (h : (env y).Ticks s s') : s.Frame s' :=
  h.invariant (P := s.Frame) (.refl s) fun _ _ h₁ h₂ => h₁.trans (frame_tick h₂)

theorem frame_after (s : Memory) {c : ServiceCall} {r : c.Reply} (h : ¬ c.WritesBanks) :
    s.Frame (s.after y c r) := by
  refine ⟨s.banks_after h, ?_⟩
  cases c with
  | rpc c => cases c <;> first | exact List.subset_append_left _ _ | exact List.Subset.refl _
  | client c => cases c <;> first | exact List.subset_append_left _ _ | exact List.Subset.refl _
  | process c => cases c <;> exact List.Subset.refl _

/-- What `x` ensures of the memory, whatever it calls. -/
abbrev Ensures (y : Ydelta) (A : Memory → Service.Event → Prop) (Q : α → Memory → Prop)
    (x : Async Service α) (s : Memory) : Prop :=
  (env y).Ensures A (fun _ _ => True) Q x s

theorem framed {Q : α → Memory → Prop} {x : Async Service α} (hx : NoWrites x)
    (h : Ensures y A Q x s) : Ensures y A (fun a s' => s.Frame s' ∧ Q a s') x s := by
  have hanswer : ∀ (s : Memory) (c : ServiceCall) (r : c.Reply) (s' : Memory), ¬ c.WritesBanks →
      (env y).answer s c r s' → s.Frame s' := by
    rintro s c r _ hc ⟨-, rfl⟩
    exact s.frame_after hc
  exact Env.Ensures.along (I := Service) (C := fun c => ¬ c.WritesBanks) service_reply_nonempty hx
    Frame.refl (fun _ _ _ => Frame.trans) (fun _ _ => frame_tick) hanswer h

theorem framed_trivial {x : Async Service α} (hx : NoWrites x) :
    Ensures y A (fun _ s' => s.Frame s') x s :=
  (framed hx (Env.ensures_trivial x s)).mono fun _ _ h => h.1

theorem ensures_banksSnapshot :
    Ensures y A (fun banks s' => s.Frame s' ∧ banks = s.banks) Config.banksSnapshot s := by
  refine framed noWrites_banksSnapshot ?_
  have hread : Ensures y A (fun r _ => r = some s.banks) (Service.process .banksRead) s := by
    refine Env.ensures_query (E := env y) (c := ServiceCall.process .banksRead)
      fun s₁ hs₁ => ⟨trivial, ?_⟩
    rintro r _ ⟨hallow, rfl⟩ - s₃ -
    rw [← (frame_of_ticks hs₁).1]
    exact hallow
  refine Env.Ensures.bind hread fun r s' hr => ?_
  cases hr
  exact Env.ensures_pure fun _ _ => rfl

end Memory

/-- Of the derived accounts, those that are not missing were shown to exist. -/
theorem missingAtas_ok {derived : List (Pubkey × Pubkey × Pubkey)}
    {existing : List (Option Account)} {missing : List (Pubkey × Pubkey × Pubkey)}
    (h : BankRegistry.missingAtas derived existing = .ok missing) :
    ∀ d ∈ derived, d ∈ missing ∨
      d.2.1 ∈ Memory.shownAccounts (derived.map fun d => d.2.1) (.ok existing) := by
  induction derived generalizing existing missing with
  | nil => exact List.forall_mem_nil _
  | cons d derived ih =>
    cases existing with
    | nil => cases h
    | cons acct existing =>
      obtain ⟨missing', hmissing, h⟩ := except_bind_eq_ok.1 h
      have ih := ih hmissing
      intro d' hd'
      cases acct with
      | none =>
        cases h
        rcases List.mem_cons.1 hd' with rfl | hd'
        · exact .inl List.mem_cons_self
        · exact (ih d' hd').imp (List.mem_cons_of_mem _) id
      | some acct =>
        cases h
        rcases List.mem_cons.1 hd' with rfl | hd'
        · exact .inr List.mem_cons_self
        · exact (ih d' hd').imp id (List.mem_cons_of_mem _)

/-- Accounts that were shown to exist are known from then on. -/
theorem getMultipleAccounts_ensures {A : Memory → Service.Event → Prop} {s : Memory}
    (pks : List Pubkey) (msg : String) :
    Memory.Ensures y A (fun existing s' => ∀ pk ∈ Memory.shownAccounts pks (.ok existing),
      pk ∈ s'.known) (Service.client (.getMultipleAccounts pks) (orClientErrorWith msg)) s := by
  refine Env.ensures_ask (E := Memory.env y) fun s₁ _ => ⟨trivial, ?_⟩
  rintro r _ ⟨-, rfl⟩ - existing hr s₃ hs₃ pk hpk
  cases r <;> cases hr
  exact (Memory.frame_of_ticks hs₃).2 (List.mem_append_right _ hpk)

/-- Accounts whose creation was sent are known from then on, as are those known before. -/
theorem sendCreate_ensures {A : Memory → Service.Event → Prop} {s : Memory} (label : String)
    (ixs : List Instruction) (keys : List Pubkey) :
    Memory.Ensures y A (fun _ s' => ∀ pk, pk ∈ s.known ∨ pk ∈ ixs.filterMap Instruction.createdAta →
      pk ∈ s'.known) (Service.rpc (.sendSignedLabeled label ixs keys)) s := by
  refine Env.ensures_ask (E := Memory.env y) fun s₁ hs₁ => ⟨trivial, ?_⟩
  rintro r _ ⟨-, rfl⟩ - sig rfl s₂ hs₂ pk hpk
  refine (Memory.frame_of_ticks hs₂).2 ?_
  rcases hpk with hknown | hcreated
  · exact List.mem_append_left _ ((Memory.frame_of_ticks hs₁).2 hknown)
  · exact List.mem_append_right _ hcreated

/-- After `ensure_atas_for` every mint's token account is known to exist. -/
theorem ensureAtasFor_ensures {A : Memory → Service.Event → Prop} {s : Memory}
    (registry : BankRegistry) (feePayer : Pubkey) :
    Memory.Ensures y A (fun _ s' => ∀ info ∈ registry.values,
      info.ataFor sdk feePayer ∈ s'.known) (registry.ensureAtasFor sdk feePayer) s := by
  unfold BankRegistry.ensureAtasFor
  split
  · -- an empty registry has no mints
    rename_i hempty
    refine Env.ensures_pure fun _ _ info hinfo => ?_
    obtain ⟨mint, hget⟩ := BankRegistry.mem_values.1 hinfo
    rw [BankRegistry.isEmpty_iff.1 hempty mint] at hget
    cases hget
  simp only
  generalize hderived : registry.values.map (fun info =>
    (info.mint, info.ataFor sdk feePayer, info.tokenProgram)) = derived
  have hmem : ∀ info ∈ registry.values,
      (info.mint, info.ataFor sdk feePayer, info.tokenProgram) ∈ derived :=
    fun info hinfo => hderived ▸ List.mem_map_of_mem hinfo
  suffices hall : Memory.Ensures y A (fun _ s' => ∀ d ∈ derived, d.2.1 ∈ s'.known) _ s from
    Env.Ensures.mono hall fun _ s' h info hinfo => h _ (hmem info hinfo)
  have hata : ∀ d ∈ derived, (createAssociatedTokenAccountIdempotentIx sdk feePayer feePayer d.1
      d.2.2).createdAta = some d.2.1 := by
    rw [← hderived]
    intro d hd
    obtain ⟨info, -, rfl⟩ := List.mem_map.1 hd
    rfl
  refine Env.Ensures.bind (getMultipleAccounts_ensures _ _) fun existing s₁ hexisting => ?_
  refine Env.Ensures.bind (Q := fun missing s' => (∀ pk ∈ Memory.shownAccounts
      (derived.map fun d => d.2.1) (.ok existing), pk ∈ s'.known) ∧
      BankRegistry.missingAtas derived existing = .ok missing)
    (Env.ensures_ret fun missing hmissing s' hs' =>
      ⟨fun pk hpk => (Memory.frame_of_ticks hs').2 (hexisting pk hpk), hmissing⟩)
    fun missing s₂ ⟨hknown, hmissing⟩ => ?_
  have hcases := missingAtas_ok hmissing
  split
  · rename_i hnone
    refine Env.ensures_pure fun s' hs' d hd => (Memory.frame_of_ticks hs').2 ?_
    rcases hcases d hd with h | h
    · rw [List.isEmpty_iff.1 hnone] at h
      cases h
    · exact hknown _ h
  · refine Env.Ensures.bind (Env.Ensures.mapError (sendCreate_ensures _ _ _)) fun _ s₃ h₃ => ?_
    refine Env.ensures_pure fun s' hs' d hd => (Memory.frame_of_ticks hs').2 (h₃ _ ?_)
    -- what was not shown is missing, and so its creation was sent
    refine (hcases d hd).symm.imp (hknown _) fun h => ?_
    exact List.mem_filterMap.2 ⟨_, List.mem_map_of_mem h, hata d hd⟩

/-- The queue loads, with at least one gateway. -/
def QueueLoads (e : Service.Event) : Prop :=
  ∀ queue, e.call = .process (.fetchGateways queue) →
    ∃ gateway gateways, e = ⟨.process (.fetchGateways queue), .ok (gateway :: gateways)⟩

/-- The cranker is loaded only for a registry with a pull feed, and then it is if its queue
loads. -/
theorem bootSwbCranker_ensures {s : Memory} (swbQueue : Pubkey) (loads : Prop) :
    Memory.Ensures y (fun _ e => loads → QueueLoads e) (fun swbCranker _ =>
      (swbCranker.isSome → s.banks.hasSwitchboardPull = true) ∧
      (loads → s.banks.hasSwitchboardPull = true →
        ∃ cranker, swbCranker = some cranker ∧ cranker.gateways ≠ []))
      (bootSwbCranker signers swbQueue) s := by
  refine Env.Ensures.bind Memory.ensures_banksSnapshot fun banks s₁ ⟨hframe, hbanks⟩ => ?_
  subst hbanks
  split
  · rename_i hpull
    intro s₂ _
    refine ⟨trivial, trivial, fun r s₃ _ hA => ?_⟩
    have hload : loads → ∃ gateway gateways, r = .ok (gateway :: gateways) := by
      intro hloads
      obtain ⟨gateway, gateways, he⟩ := hA hloads swbQueue rfl
      cases he
      exact ⟨gateway, gateways, rfl⟩
    rcases r with e | _ | ⟨gateway, gateways⟩
    all_goals refine fun s' _ => ⟨trivial, ?_⟩; rintro _ ⟨⟩; refine ⟨fun _ => hpull, ?_⟩
    · intro hloads; obtain ⟨_, _, h⟩ := hload hloads; cases h
    · intro hloads; obtain ⟨_, _, h⟩ := hload hloads; cases h
    · exact fun _ _ => ⟨⟨gateway :: gateways, signers.feePayer⟩, rfl, List.cons_ne_nil _ _⟩
  · rename_i hpull
    exact Env.ensures_pure fun _ _ => ⟨nofun, fun _ h => absurd h hpull⟩

/-- The fee payer's token account is known to exist for every mint of the registry. -/
def Memory.AtasReady (sdk : Sdk) (feePayer : Pubkey) (s : Memory) : Prop :=
  ∀ info ∈ s.banks.values, info.ataFor sdk feePayer ∈ s.known

theorem Memory.AtasReady.frame {feePayer : Pubkey} {s s' : Memory}
    (h : s.AtasReady sdk feePayer) (hframe : s.Frame s') : s'.AtasReady sdk feePayer := by
  intro info hinfo
  rw [hframe.1] at hinfo
  exact hframe.2 (h info hinfo)

/-- What the boot prepares. -/
theorem boot_ensures {s : Memory} (swbQueue : Pubkey) (loads : Prop) :
    Memory.Ensures y (fun _ e => loads → QueueLoads e) (fun ctx s' =>
      s'.AtasReady sdk signers.feePayer ∧
      (ctx.swbCranker.isSome → s'.banks.hasSwitchboardPull = true) ∧
      (loads → s'.banks.hasSwitchboardPull = true →
        ∃ cranker, ctx.swbCranker = some cranker ∧ cranker.gateways ≠ []))
      (boot cfg sdk y signers swbQueue) s := by
  refine Env.Ensures.bind (Env.ensures_trivial _ s) fun _ s₁ _ => ?_
  refine Env.Ensures.bind Memory.ensures_banksSnapshot fun banks s₂ ⟨h₂, hbanks⟩ => ?_
  rw [← h₂.1] at hbanks
  subst hbanks
  refine Env.Ensures.bind (Memory.framed (noWrites_ensureAtasFor _ _).mapError
    (Env.Ensures.mapError (ensureAtasFor_ensures _ _))) fun _ s₃ ⟨h₃, hatas⟩ => ?_
  refine Env.Ensures.bind (Memory.framed_trivial (noWrites_ensureCuratorAtas _))
    fun _ s₄ h₄ => ?_
  refine Env.Ensures.bind (Memory.framed_trivial (Fallible.makes_ask (not_writesBanks_client _)))
    fun _ s₅ h₅ => ?_
  refine Env.Ensures.bind (Memory.framed (noWrites_bootSwbCranker _)
    (bootSwbCranker_ensures swbQueue loads)) fun swbCranker s₆ ⟨h₆, hswb⟩ => ?_
  refine Env.ensures_pure fun s' hs' => ?_
  have hlast : s₅.Frame s' := h₆.trans (Memory.frame_of_ticks hs')
  have hready : s₃.AtasReady sdk signers.feePayer := by
    intro info hinfo
    rw [h₃.1] at hinfo
    exact hatas info hinfo
  rw [hlast.1]
  exact ⟨hready.frame ((h₄.trans h₅).trans hlast), hswb⟩

theorem Launch.prepared (launch : Launch cfg sdk y signers) :
    launch.booted.AtasReady sdk signers.feePayer ∧
    (launch.ctx.swbCranker.isSome → launch.booted.banks.hasSwitchboardPull = true) ∧
    ((∀ x ∈ launch.trace, QueueLoads x.2) → launch.booted.banks.hasSwitchboardPull = true →
      ∃ cranker, launch.ctx.swbCranker = some cranker ∧ cranker.gateways ≠ []) := by
  have h := Env.Safe.sound
    (boot_ensures launch.swbQueue (∀ x ∈ launch.trace, QueueLoads x.2))
    launch.timeline launch.runs.reaches fun x hx hloads => hloads x hx
  exact h.2.2 _ rfl launch.ctx rfl

/-! ### Token accounts -/

/-- A merge that adds no mint changes nothing. -/
theorem BankRegistry.values_mergeFrom {registry other : BankRegistry}
    (h : ∀ mint ∈ other.mints, mint ∈ registry.mints) {info : BankInfo}
    (hinfo : info ∈ (registry.mergeFrom other).values) : info ∈ registry.values := by
  obtain ⟨mint, hget⟩ := BankRegistry.mem_values.1 hinfo
  refine BankRegistry.mem_values.2 ⟨mint, ?_⟩
  rw [get_mergeFrom] at hget
  cases hmint : registry.get mint with
  | some info' => rwa [hmint, Option.some_or] at hget
  | none =>
    rw [hmint, Option.none_or] at hget
    obtain ⟨info', hinfo'⟩ := mem_mints.1 (h mint (mem_mints.2 ⟨info, hget⟩))
    rw [hmint] at hinfo'
    cases hinfo'

/-- **Token accounts are ready while refreshes add no mint.**  In every run of the process, as long
as every merge brings only mints that the registry has, the fee payer's token account is known to
exist for every mint of the registry. -/
theorem ProcessRun.atas_ready (run : ProcessRun cfg sdk y signers)
    (hmerge : ∀ x ∈ run.events, ∀ fresh, x.2.2.call = .process (.banksMerge fresh) →
      ∀ mint ∈ fresh.mints, mint ∈ x.2.1.banks.mints) :
    run.reached.AtasReady sdk signers.feePayer := by
  refine run.interleaving.timeline.invariant (P := Memory.AtasReady sdk signers.feePayer)
    run.toLaunch.prepared.1 (fun _ _ hs ht => hs.frame (Memory.frame_tick ht)) ?_
  rintro s e _ hs ⟨-, rfl⟩ hmem
  obtain ⟨x, hx, hxe⟩ := List.mem_map.1 hmem
  by_cases hw : e.call.WritesBanks
  · obtain ⟨fresh, hcall | hcall⟩ := hw
    · have hpromise := (run.sound.2 x hx).2
      rw [hxe, hcall] at hpromise
      exact hpromise.1.elim
    · have hmints := hmerge x hx fresh (by rw [hxe, hcall])
      rw [hxe] at hmints
      intro info hinfo
      obtain ⟨c, r⟩ := e
      cases hcall
      exact hs info (BankRegistry.values_mergeFrom hmints hinfo)
  · exact hs.frame (s.frame_after hw)

/-- A run after whose boot a second market appears.  It brings a mint and a pull feed of its own. -/
def secondMarketRun : ProcessRun sampleConfig .plain .plain sampleSigners :=
  sampleRun [sampleMarketRow 32 1 1 11 11]
    [sampleMarketRow 32 1 1 11 11, sampleMarketRow 33 1 2 11 12] [.bankRefresh] (by decide +kernel)

/-- A refresh adds the second market's mint to the registry, and its token account is neither looked
up nor created. -/
theorem not_atas_ready : ¬ ∀ run : ProcessRun sampleConfig .plain .plain sampleSigners,
    run.reached.AtasReady .plain sampleSigners.feePayer := by
  intro h
  have hready := h secondMarketRun
  have hcheck : secondMarketRun.reached.banks.values.all (fun info => decide
      (info.ataFor .plain sampleSigners.feePayer ∈ secondMarketRun.reached.known)) = false := by
    decide +kernel
  rw [List.all_eq_true.2 fun info hinfo => decide_eq_true (hready info hinfo)] at hcheck
  cases hcheck

/-- The merges of an event bring no new mint. -/
def bringsNothingNew (x : ℕ × Memory × Service.Event) : Bool :=
  match x.2.2.call with
  | .process (.banksMerge fresh) => fresh.mints.all x.2.1.banks.mints.contains
  | _ => true

theorem bringsNothingNew_of_all {run : ProcessRun cfg sdk y signers}
    (h : run.events.all bringsNothingNew = true) {x : ℕ × Memory × Service.Event}
    (hx : x ∈ run.events) {fresh : BankRegistry}
    (hcall : x.2.2.call = .process (.banksMerge fresh)) :
    ∀ mint ∈ fresh.mints, mint ∈ x.2.1.banks.mints := by
  intro mint hmint
  have hnew := List.all_eq_true.1 h x hx
  unfold bringsNothingNew at hnew
  rw [hcall] at hnew
  exact List.contains_iff_mem.1 (List.all_eq_true.1 hnew mint hmint)

/-- A run whose refresh sees the markets of the boot again. -/
theorem atas_ready_sample : (sampleRun [sampleMarketRow 32 1 2 11 12]
    [sampleMarketRow 32 1 2 11 12] [.bankRefresh]
    boot_sample).reached.AtasReady .plain sampleSigners.feePayer :=
  ProcessRun.atas_ready _ fun _ hx _ hcall => bringsNothingNew_of_all (by decide +kernel) hx hcall

/-! ### The Switchboard cranker -/

/-- Every run of the program asks a gateway for an update of the feed. -/
def AsksFor (x : Async Service SwbBundle) (oracle : Pubkey) : Prop :=
  ∀ t r, x.run.Runs t r → ∃ e ∈ t, ∃ gateway feeds payer,
    e.call = .process (.fetchUpdateConsensusIx gateway feeds payer) ∧ oracle ∈ feeds

/-- There is a Switchboard cranker, and the liquidator and the match cranker ask for an update of
the feed of every pull bank. -/
def HandlerContext.SwbReady (ctx : HandlerContext) (banks : BankRegistry) : Prop :=
  ctx.swbCranker.isSome ∧ ∀ info ∈ banks.values, info.isSwitchboardPull = true →
    AsksFor (LiquidatorHandler.fetchSwbBundle ctx info) info.primaryOracle ∧
    ∀ other, AsksFor (MatchCrankerHandler.fetchSwbBundle ctx info other) info.primaryOracle ∧
      AsksFor (MatchCrankerHandler.fetchSwbBundle ctx other info) info.primaryOracle

theorem asksFor_fetchUpdateIxs {cranker : SwbCranker} (hgateways : cranker.gateways ≠ [])
    {feeds : List Pubkey} {oracle : Pubkey} (h : oracle ∈ feeds) :
    AsksFor (do match ← Service.caught (cranker.fetchUpdateIxs feeds) with
      | .ok bundle => return bundle
      | .error _ => return ([], [])) oracle := by
  obtain ⟨gateway, gateways, hcons⟩ := List.exists_cons_of_ne_nil hgateways
  intro t r hrun
  have hfeeds : ¬ feeds.isEmpty = true := fun hnil => by
    rw [List.isEmpty_iff.1 hnil] at h
    cases h
  rw [SwbCranker.fetchUpdateIxs, if_neg hfeeds, hcons] at hrun
  obtain ⟨reply, t', rfl, -⟩ := hrun
  exact ⟨_, List.mem_cons_self, gateway, feeds, cranker.payer, rfl, h⟩

theorem swbReady_of_cranker {ctx : HandlerContext} {cranker : SwbCranker}
    (hctx : ctx.swbCranker = some cranker) (hgateways : cranker.gateways ≠ [])
    (banks : BankRegistry) : ctx.SwbReady banks := by
  refine ⟨by rw [hctx]; rfl, fun info _ hpull => ⟨?_, fun other => ?_⟩⟩
  · unfold LiquidatorHandler.fetchSwbBundle
    rw [hpull, hctx]
    exact asksFor_fetchUpdateIxs hgateways List.mem_cons_self
  · have hmatch : ∀ debtBank collateralBank, info.primaryOracle ∈
        MatchCrankerHandler.pullFeeds debtBank collateralBank →
        AsksFor (MatchCrankerHandler.fetchSwbBundle ctx debtBank collateralBank)
          info.primaryOracle := by
      intro debtBank collateralBank hmem
      unfold MatchCrankerHandler.fetchSwbBundle
      rw [hctx]
      simp only
      rw [if_neg fun hnil => by rw [List.isEmpty_iff.1 hnil] at hmem; cases hmem]
      exact asksFor_fetchUpdateIxs hgateways hmem
    exact ⟨hmatch _ _ (by simp [MatchCrankerHandler.pullFeeds, hpull]),
      hmatch _ _ (by simp [MatchCrankerHandler.pullFeeds, hpull])⟩

/-- **The Switchboard cranker is there exactly if the boot needed it.**  In every run of the
process whose Switchboard queue loads when asked for: a registry with a pull feed finds the
cranker ready if and only if the registry of the boot had a pull feed. -/
theorem ProcessRun.swb_ready_iff (run : ProcessRun cfg sdk y signers)
    (hloads : ∀ x ∈ run.trace, QueueLoads x.2) :
    (run.reached.banks.hasSwitchboardPull = true → run.ctx.SwbReady run.reached.banks) ↔
      (run.reached.banks.hasSwitchboardPull = true →
        run.booted.banks.hasSwitchboardPull = true) := by
  obtain ⟨-, honly, hready⟩ := run.toLaunch.prepared
  constructor
  · exact fun h hpull => honly (h hpull).1
  · intro h hpull
    obtain ⟨cranker, hctx, hgateways⟩ := hready hloads (h hpull)
    exact swbReady_of_cranker hctx hgateways _

/-- `QueueLoads`, computed. -/
def queueLoads : Service.Event → Bool
  | ⟨.process (.fetchGateways _), .ok (_ :: _)⟩ => true
  | ⟨.process (.fetchGateways _), _⟩ => false
  | _ => true

theorem queueLoads_of_all {T : List (Memory × Service.Event)}
    (h : T.all (fun x => queueLoads x.2) = true) : ∀ x ∈ T, QueueLoads x.2 := by
  rintro ⟨s, c, r⟩ hx queue hcall
  cases hcall
  have hx' := List.all_eq_true.1 h _ hx
  rcases r with e | _ | ⟨gateway, gateways⟩
  · cases hx'
  · cases hx'
  · exact ⟨gateway, gateways, rfl⟩

/-- The second market brings the first pull feed, and there is no cranker. -/
theorem not_swb_ready : ¬ ∀ run : ProcessRun sampleConfig .plain .plain sampleSigners,
    (∀ x ∈ run.trace, QueueLoads x.2) → run.reached.banks.hasSwitchboardPull = true →
      run.ctx.SwbReady run.reached.banks := by
  intro h
  have hrun : secondMarketRun.trace.all (fun x => queueLoads x.2) = true ∧
      secondMarketRun.reached.banks.hasSwitchboardPull = true ∧
      secondMarketRun.ctx.swbCranker.isSome = false := by decide +kernel
  obtain ⟨hloads, hpull, hnone⟩ := hrun
  have hready := h secondMarketRun (queueLoads_of_all hloads) hpull
  rw [hready.1] at hnone
  cases hnone

/-- A run whose boot sees the pull feed. -/
theorem swb_ready_sample : (sampleRun [sampleMarketRow 32 1 2 11 12]
    [sampleMarketRow 32 1 2 11 12] [.bankRefresh] boot_sample).ctx.SwbReady
      (sampleRun [sampleMarketRow 32 1 2 11 12] [sampleMarketRow 32 1 2 11 12] [.bankRefresh]
        boot_sample).reached.banks :=
  (ProcessRun.swb_ready_iff _ (queueLoads_of_all (by decide +kernel))).2
    (fun _ => by decide +kernel) (by decide +kernel)

end YdeltaCrankers
