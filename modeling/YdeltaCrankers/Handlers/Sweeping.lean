import YdeltaCrankers.Handlers.Inflight
import Mathlib.Data.List.Nodup

/-!
# Which seats the claimer sweeps

The claimer joins two listings: the sub-vaults with atoms to claim, and the seats of all markets
that are not paused.  A market account that is missing or malformed has no seats, but one that
cannot be read ends the whole pass.

**Main theorem** (`ClaimerHandler.tick_sweepsExactly_iff`): a pass whose listings succeed sweeps
each claimable seat once and no other, exactly when every market that is not paused can be read, or
there is nothing to sweep.
-/

namespace YdeltaCrankers

open Interaction

namespace ClaimerHandler

/-! ### What there is to sweep -/

/-- A market, a vault and the id of one of its sub-vaults. -/
abbrev SeatKey := Pubkey × Pubkey × UInt16

/-- The seat an entry is for. -/
def seatKey (entry : PendingVaultClaim) : SeatKey :=
  (entry.market, entry.lenderGlobalVault, entry.subVaultId)

/-- The seats in the data of a market account; malformed data has none. -/
def seatsOf (y : Ydelta) (data : List UInt8) : List ClaimedSeat :=
  match y.splitMarket data with
  | .error _ => []
  | .ok (fixed, dyn) =>
    if fixed.claimedSeatsRootIndex = y.nil then []
    else y.claimedSeats dyn fixed.claimedSeatsRootIndex

/-- What the accounts read as. -/
abbrev AccountReads := Pubkey → Except Failure (Option (List UInt8))

/-- The key names a seat to sweep: its market is not paused and was read and decoded, a sub-vault
owns it, it has shares to withdraw, and that sub-vault has atoms to claim. -/
def Claimable (y : Ydelta) (subVaults : List SubVaultView) (markets : List MarketView)
    (read : AccountReads) (key : SeatKey) : Prop :=
  ∃ market ∈ markets, market.isPaused = false ∧
    ∃ data, read market.address = .ok (some data) ∧
      ∃ seat ∈ seatsOf y data, seat.ownerKind = y.ownerKindSubVault ∧
        seat.debtWithdrawableShares ≠ 0 ∧
          (∃ subVault ∈ subVaults, subVault.vault = seat.owner ∧
            subVault.subVaultId = seat.subVaultId ∧ 0 < subVault.pendingClaimAtoms) ∧
              key = (market.address, seat.owner, seat.subVaultId)

section Decoding

variable (y : Ydelta) (market : MarketView) (data : List UInt8)

/-- The seat is owned by a sub-vault and has shares to withdraw. -/
def hasShares (seat : ClaimedSeat) : Bool :=
  decide (seat.ownerKind = y.ownerKindSubVault ∧ seat.debtWithdrawableShares ≠ 0)

/-- The seats decoded from an account are those with shares. -/
theorem map_seatKey_decodePendingClaims : (y.decodePendingClaims market data).map seatKey =
    ((seatsOf y data).filter (hasShares y)).map fun seat =>
      (market.address, seat.owner, seat.subVaultId) := by
  unfold Ydelta.decodePendingClaims seatsOf
  cases y.splitMarket data with
  | error e => rfl
  | ok parts =>
    obtain ⟨fixed, dyn⟩ := parts
    by_cases hnil : fixed.claimedSeatsRootIndex = y.nil
    · simp [hnil]
    · simp only [hnil, if_false]
      induction y.claimedSeats dyn fixed.claimedSeatsRootIndex with
      | nil => rfl
      | cons seat seats ih =>
        rw [List.filterMap_cons, List.filter_cons]
        by_cases hkind : seat.ownerKind = y.ownerKindSubVault
        · by_cases hshares : seat.debtWithdrawableShares = 0
          · have hnot : hasShares y seat = false := by simp [hasShares, hshares]
            simpa only [hkind, hshares, hnot, ne_eq, not_true, Bool.false_eq_true, if_false,
              if_true] using ih
          · have hhas : hasShares y seat = true := decide_eq_true ⟨hkind, hshares⟩
            simp only [hkind, hshares, hhas, ne_eq, not_true, if_false, if_true, List.map_cons]
            rw [ih]
            rfl
        · have hnot : hasShares y seat = false := by simp [hasShares, hkind]
          simpa only [hkind, hnot, ne_eq, not_false_eq_true, Bool.false_eq_true, if_false,
            if_true] using ih

/-- What a seat is known by within its market. -/
def seatId (seat : ClaimedSeat) : Pubkey × UInt8 × UInt16 :=
  (seat.owner, seat.ownerKind, seat.subVaultId)

variable {y market data}

/-- Of seats known by different ids, each is decoded once. -/
theorem nodup_decodePendingClaims (h : ((seatsOf y data).map seatId).Nodup) :
    ((y.decodePendingClaims market data).map seatKey).Nodup := by
  rw [map_seatKey_decodePendingClaims]
  have hseats : ((seatsOf y data).filter (hasShares y)).Nodup := h.of_map.filter _
  refine hseats.map_on fun a ha b hb hab => ?_
  obtain ⟨ha, hka⟩ := List.mem_filter.1 ha
  obtain ⟨hb, hkb⟩ := List.mem_filter.1 hb
  -- both are owned by sub-vaults, so that their ids are the same
  have hkind : a.ownerKind = b.ownerKind :=
    (of_decide_eq_true hka).1.trans (of_decide_eq_true hkb).1.symm
  have hid : seatId a = seatId b := by
    simp only [Prod.mk.injEq, true_and] at hab
    simp [seatId, hab, hkind]
  exact List.inj_on_of_nodup_map h ha hb hid

end Decoding

/-! ### The listings -/

section Listings

/-- The call neither sends nor touches an in-flight set. -/
def Idle (c : ServiceCall) : Prop := ¬ c.Sends ∧ ¬ c.TouchesInflight

variable {y : Ydelta} {read : AccountReads}

theorem idle_of_reads {c : ServiceCall} (h : c.Reads) : Idle c :=
  ⟨h.not_sends, ServiceCall.not_touchesInflight (.inl h)⟩

theorem idle_listSubVaults (chain : ChainReader) : (chain.listSubVaults y).Makes Idle :=
  (onlyReads_listSubVaults chain y).mono fun _ => idle_of_reads

theorem idle_listMarkets (chain : ChainReader) : (chain.listMarkets y).Makes Idle := by
  refine (lists_listMarkets chain y).mono fun c hc => ?_
  rcases hc with hreads | ⟨markets, rfl⟩
  · exact idle_of_reads hreads
  · refine ⟨nofun, ?_⟩
    rintro ⟨key, h | h⟩ <;> cases h

theorem idle_listPendingVaultClaims (markets : List MarketView) :
    (ChainReader.listPendingVaultClaims y markets).Makes Idle :=
  (onlyReads_listPendingVaultClaims y markets).mono fun _ => idle_of_reads

/-- The event reads accounts as `read` says. -/
def ReadsAs (read : AccountReads) (e : Service.Event) : Prop :=
  ∀ pk r, e = ⟨.rpc (.getAccountData pk), r⟩ → r = read pk

/-- The market can be read, if it has to be. -/
def Readable (read : AccountReads) (market : MarketView) : Prop :=
  market.isPaused = false → ∃ data, read market.address = .ok data

/-- The entries of a market. -/
def claimsOf (y : Ydelta) (read : AccountReads) (market : MarketView) : List PendingVaultClaim :=
  if market.isPaused then []
  else match read market.address with
    | .ok (some data) => y.decodePendingClaims market data
    | _ => []

/-- What the listing of these markets returns: their entries, or an error if one cannot be read. -/
def Lists (y : Ydelta) (read : AccountReads) (markets : List MarketView)
    (r : Except Failure (List PendingVaultClaim)) : Prop :=
  (∀ market ∈ markets, Readable read market) ∧ r = .ok (markets.flatMap (claimsOf y read)) ∨
    (∃ market ∈ markets, ¬ Readable read market) ∧ ∃ err, r = .error err

/-- What a market that can be read adds to what the rest gives. -/
theorem Lists.cons {market : MarketView} {rest : List MarketView}
    {r : Except Failure (List PendingVaultClaim)} (h : Lists y read rest r)
    (hmarket : Readable read market) :
    Lists y read (market :: rest) (r.map (claimsOf y read market ++ ·)) := by
  rcases h with ⟨hrest, rfl⟩ | ⟨⟨m, hm, hnot⟩, err, rfl⟩
  · exact .inl ⟨List.forall_mem_cons.2 ⟨hmarket, hrest⟩, rfl⟩
  · exact .inr ⟨⟨m, List.mem_cons_of_mem _ hm, hnot⟩, err, rfl⟩

theorem Lists.cons_of_eq_nil {market : MarketView} {rest : List MarketView}
    {r : Except Failure (List PendingVaultClaim)} (h : Lists y read rest r)
    (hmarket : Readable read market) (hclaims : claimsOf y read market = []) :
    Lists y read (market :: rest) r := by
  have hcons := h.cons hmarket
  rw [hclaims] at hcons
  cases r <;> exact hcons

/-- **One unreadable market ends the listing**, and otherwise each market adds its entries. -/
theorem listPendingVaultClaims_spec (markets : List MarketView) :
    (ChainReader.listPendingVaultClaims y markets).Spec fun t r => (∀ e ∈ t, ReadsAs read e) →
      Lists y read markets r := by
  induction markets with
  | nil => exact Fallible.spec_pure fun _ => .inl ⟨List.forall_mem_nil _, rfl⟩
  | cons market rest ih =>
    unfold ChainReader.listPendingVaultClaims
    refine Fallible.spec_ite (fun hpaused => ih.mono fun t r h hread => ?_) fun hopen => ?_
    · -- a paused market is not read
      have hmarket : Readable read market := fun h => by
        rw [hpaused] at h
        cases h
      exact (h hread).cons_of_eq_nil hmarket (by simp [claimsOf, hpaused])
    refine Fallible.spec_ask_bind ?_ ?_
    · rintro _ err rfl hread
      -- the first market that cannot be read ends the listing
      have herr : .error err = read market.address := hread _ List.mem_cons_self _ _ rfl
      refine .inr ⟨⟨market, List.mem_cons_self, fun h => ?_⟩, err, rfl⟩
      obtain ⟨data, hdata⟩ := h (by simpa using hopen)
      rw [← herr] at hdata
      cases hdata
    · rintro _ data rfl
      cases data with
      | none =>
        -- an account that is not there has no claims
        refine ih.mono fun t r h hread => ?_
        obtain ⟨hmarket, hrest⟩ := List.forall_mem_cons.1 hread
        have hdata : .ok none = read market.address := hmarket _ _ rfl
        exact (h hrest).cons_of_eq_nil (fun _ => ⟨none, hdata.symm⟩) (by simp [claimsOf, ← hdata])
      | some data =>
        have hcons : ∀ {t : Service.Trace} {r : Except Failure (List PendingVaultClaim)},
            ((∀ e ∈ t, ReadsAs read e) → Lists y read rest r) →
            (∀ e ∈ ⟨.rpc (.getAccountData market.address), .ok (some data)⟩ :: t,
              ReadsAs read e) →
            Lists y read (market :: rest)
              (r.map (y.decodePendingClaims market data ++ ·)) := by
          intro t r h hread
          obtain ⟨hmarket, hrest⟩ := List.forall_mem_cons.1 hread
          have hdata : .ok (some data) = read market.address := hmarket _ _ rfl
          have hclaims : claimsOf y read market = y.decodePendingClaims market data := by
            simp [claimsOf, ← hdata, hopen]
          rw [← hclaims]
          exact (h hrest).cons fun _ => ⟨some data, hdata.symm⟩
        refine Fallible.spec_bind ih (fun t err h hread => hcons h hread) fun t claims h =>
          Fallible.spec_pure fun hread => ?_
        rw [List.append_nil] at hread
        exact hcons h hread

end Listings

/-! ### The sweeps -/

section Sweeps

variable (ctx : HandlerContext)

/-- The key of an entry in the in-flight set. -/
def inflightKey (entry : PendingVaultClaim) : InflightKey :=
  .claimer entry.market entry.lenderGlobalVault entry.subVaultId

/-- The entries are gone through in order, each while its key is in flight or skipped. -/
inductive Sweeps : List PendingVaultClaim → Service.Trace → Prop
  | nil : Sweeps [] []
  | cons {entry : PendingVaultClaim} {entries : List PendingVaultClaim} {t t' : Service.Trace}
      (h : Window (inflightKey entry) (sweepOne ctx entry) t) (hrest : Sweeps entries t') :
      Sweeps (entry :: entries) (t ++ t')

/-- Every entry is attempted, in order: its key is claimed, `sweep_one` runs to an end, and the key
is released. -/
inductive Attempts : List PendingVaultClaim → Service.Trace → Prop
  | nil : Attempts [] []
  | cons {entry : PendingVaultClaim} {entries : List PendingVaultClaim} {t t' : Service.Trace}
      {r : Except Failure Bool} (h : (sweepOne ctx entry).run.Runs t r)
      (hrest : Attempts entries t') :
      Attempts (entry :: entries)
        ((⟨.process (.claimInflight (inflightKey entry)), true⟩ : Service.Event) ::
          (t ++ (⟨.process (.releaseInflight (inflightKey entry)), ()⟩ : Service.Event) :: t'))

variable {ctx}

theorem errorsOnly_sweepOne (entry : PendingVaultClaim) : ErrorsOnly (sweepOne ctx entry) := by
  refine errorsOnly_banksSnapshot.bind fun banks => ?_
  refine (errorsOnly_liftError _).bind fun debtBank => ?_
  refine (errorsOnly_rpc _).bind fun sim => ?_
  split
  · exact Fallible.failsOnly_pure _
  · exact (errorsOnly_rpc _).bind fun _ => Fallible.failsOnly_pure _

/-- An attempt reads and sends. -/
theorem sweepOne_makes (entry : PendingVaultClaim) :
    (sweepOne ctx entry).Makes fun (c : ServiceCall) => c.Reads ∨ c.Sends := by
  refine (makes_banksSnapshot (.inl trivial)).bind fun banks => ?_
  refine (Fallible.makes_result _).bind fun debtBank => ?_
  refine Fallible.Makes.bind (Fallible.makes_ask (.inl trivial)) fun sim => ?_
  split
  · exact Fallible.makes_pure _
  · exact Fallible.Makes.bind (Fallible.makes_ask (.inr rfl)) fun _ => Fallible.makes_pure _

/-- A failed sweep does not end the pass. -/
theorem sweepAll_spec (entries : List PendingVaultClaim) :
    (sweepAll ctx entries).Spec fun t _ => (∀ e ∈ t, Service.Calm e) → Sweeps ctx entries t := by
  induction entries with
  | nil => exact Fallible.spec_pure fun _ => .nil
  | cons entry entries ih =>
    refine Fallible.spec_bind (withInflight_spec (errorsOnly_sweepOne entry))
      (fun t e h hcalm => ?_) fun t res h => ih.mono fun t' r h' hcalm => ?_
    · obtain ⟨-, _, herr⟩ := h hcalm
      cases herr
    · exact .cons (h fun e he => hcalm e (List.mem_append_left t' he)).1
        (h' fun e he => hcalm e (List.mem_append_right t he))

/-- The keys of the claimer in the in-flight set. -/
def claimerKeys (s : Memory) : Set InflightKey :=
  {key | key ∈ s.inflight ∧ ∃ market vault subVaultId, key = .claimer market vault subVaultId}

/-- Memory, while nobody else touches the in-flight set of the claimer. -/
abbrev claimerEnv (y : Ydelta) : Env Service Memory :=
  (Memory.env y).rely fun s s' => claimerKeys s' = claimerKeys s

variable {y : Ydelta} {s s' : Memory}

theorem claimerKeys_of_ticks (h : (claimerEnv y).Ticks s s') : claimerKeys s' = claimerKeys s :=
  h.invariant (P := fun x => claimerKeys x = claimerKeys s) rfl fun _ _ h₁ h₂ => h₂.trans h₁

/-- Other calls leave the keys alone. -/
theorem claimerKeys_of_calls {T : List (Memory × Service.Event)}
    (hT : (claimerEnv y).Timeline s T s')
    (h : ∀ e ∈ T.map Prod.snd, ¬ e.call.TouchesInflight) : claimerKeys s' = claimerKeys s := by
  refine hT.invariant (P := fun x => claimerKeys x = claimerKeys s) rfl
    (fun _ _ hs ht => ht.trans hs) ?_
  rintro s₁ e _ hs₁ ⟨-, rfl⟩ hmem
  rw [← hs₁, claimerKeys, Memory.inflight_after s₁ _ (h e (List.mem_map_of_mem hmem))]
  rfl

/-- Claiming and releasing a key leaves no key behind. -/
theorem claimerKeys_of_window {entry : PendingVaultClaim} {s₁ s₄ : Memory}
    (hfree : claimerKeys s₁ = ∅) (hbody : claimerKeys s₄ =
      claimerKeys (s₁.after y (.process (.claimInflight (inflightKey entry))) true)) :
    claimerKeys (s₄.after y (.process (.releaseInflight (inflightKey entry))) ()) = ∅ := by
  rw [Set.eq_empty_iff_forall_notMem]
  rintro key ⟨hkey, hclaimer⟩
  obtain ⟨hne, hmem⟩ := Finset.mem_erase.1 hkey
  have hclaimed : key ∈ claimerKeys s₄ := ⟨hmem, hclaimer⟩
  rw [hbody] at hclaimed
  rcases Finset.mem_insert.1 hclaimed.1 with heq | hold
  · exact hne heq
  · have hin : key ∈ claimerKeys s₁ := ⟨hold, hclaimer⟩
    rw [hfree] at hin
    exact hin

/-- **No entry is skipped**, when no key of the claimer is in flight before. -/
theorem attempts_of_sweeps {entries : List PendingVaultClaim} {t : Service.Trace}
    (h : Sweeps ctx entries t) {T : List (Memory × Service.Event)}
    (hT : (claimerEnv y).Timeline s T s') (ht : T.map Prod.snd = t) (hfree : claimerKeys s = ∅) :
    Attempts ctx entries t := by
  induction h generalizing s T with
  | nil => exact .nil
  | @cons entry entries t t' hwindow _ ih =>
    obtain ⟨T₁, T₂, rfl, ht₁, rfl⟩ := List.map_eq_append_iff.1 ht
    obtain ⟨s₁', hT₁, hT₂⟩ := Env.timeline_append.1 hT
    cases hwindow with
    | skipped =>
      -- the key would have been in flight
      obtain ⟨⟨s₁, e⟩, T, rfl, rfl, -⟩ := List.map_eq_cons_iff.1 ht₁
      obtain ⟨hs₁, s₂, ⟨hallow, -⟩, -⟩ := hT₁
      have hclaim : false = decide (inflightKey entry ∉ s₁.inflight) := hallow
      have hmem : inflightKey entry ∈ claimerKeys s₁ :=
        ⟨not_not.1 (of_decide_eq_false hclaim.symm), _, _, _, rfl⟩
      rw [claimerKeys_of_ticks hs₁, hfree] at hmem
      exact hmem.elim
    | @ran t r hrun =>
      obtain ⟨⟨s₁, e⟩, T, rfl, rfl, hrest⟩ := List.map_eq_cons_iff.1 ht₁
      obtain ⟨T₃, T₄, rfl, rfl, hlast⟩ := List.map_eq_append_iff.1 hrest
      obtain ⟨⟨s₃, e⟩, T₅, rfl, rfl, hnil⟩ := List.map_eq_cons_iff.1 hlast
      obtain rfl := List.map_eq_nil_iff.1 hnil
      obtain ⟨hs₁, s₂, ⟨-, rfl⟩, hT⟩ := hT₁
      obtain ⟨s₄, hT₃, hs₃, s₅, ⟨-, rfl⟩, hs₁'⟩ := Env.timeline_append.1 hT
      have hfree₁ : claimerKeys s₁ = ∅ := (claimerKeys_of_ticks hs₁).trans hfree
      have hbody := claimerKeys_of_calls hT₃ fun e he =>
        ServiceCall.not_touchesInflight (sweepOne_makes entry _ _ hrun e he)
      have hfree' : claimerKeys s₁' = ∅ := (claimerKeys_of_ticks hs₁').trans
        (claimerKeys_of_window hfree₁ ((claimerKeys_of_ticks hs₃).trans hbody))
      have hattempts := Attempts.cons hrun (ih hT₂ rfl hfree')
      simpa using hattempts

end Sweeps

/-! ### The seats attempted -/

section Keys

variable {y : Ydelta} {subVaults : List SubVaultView} {markets : List MarketView}
  {read : AccountReads}

/-- The entries left after the filter of the pass. -/
def pendingOf (y : Ydelta) (subVaults : List SubVaultView) (markets : List MarketView)
    (read : AccountReads) : List PendingVaultClaim :=
  seatsToSweep subVaults (markets.flatMap (claimsOf y read))

theorem mem_claimable {vault : Pubkey} {subVaultId : UInt16} :
    (vault, subVaultId) ∈ claimable subVaults ↔ ∃ subVault ∈ subVaults, subVault.vault = vault ∧
      subVault.subVaultId = subVaultId ∧ 0 < subVault.pendingClaimAtoms := by
  simp only [claimable, List.mem_map, List.mem_filter, decide_eq_true_eq, Prod.mk.injEq]
  constructor
  · rintro ⟨subVault, ⟨hmem, hpos⟩, hvault, hid⟩
    exact ⟨subVault, hmem, hvault, hid, hpos⟩
  · rintro ⟨subVault, hmem, hvault, hid, hpos⟩
    exact ⟨subVault, ⟨hmem, hpos⟩, hvault, hid⟩

theorem mem_map_claimsOf {market : MarketView} {key : SeatKey} :
    key ∈ (claimsOf y read market).map seatKey ↔ market.isPaused = false ∧
      ∃ data, read market.address = .ok (some data) ∧
        ∃ seat ∈ seatsOf y data, seat.ownerKind = y.ownerKindSubVault ∧
          seat.debtWithdrawableShares ≠ 0 ∧
            key = (market.address, seat.owner, seat.subVaultId) := by
  unfold claimsOf
  by_cases hpaused : market.isPaused = true
  · simp [hpaused]
  have hopen : market.isPaused = false := by simpa using hpaused
  rw [if_neg hpaused]
  rcases hdata : read market.address with err | _ | data
  · simp
  · simp
  · rw [map_seatKey_decodePendingClaims]
    simp only [List.mem_map, List.mem_filter, hasShares, decide_eq_true_eq, hopen, true_and,
      Except.ok.injEq, Option.some.injEq, exists_eq_left']
    constructor
    · rintro ⟨seat, ⟨hmem, hkind, hshares⟩, rfl⟩
      exact ⟨seat, hmem, hkind, hshares, rfl⟩
    · rintro ⟨seat, hmem, hkind, hshares, rfl⟩
      exact ⟨seat, ⟨hmem, hkind, hshares⟩, rfl⟩

/-- The filter sees only the key. -/
theorem map_pendingOf : (pendingOf y subVaults markets read).map seatKey =
    (markets.flatMap fun market => (claimsOf y read market).map seatKey).filter fun key =>
      (claimable subVaults).contains key.2 := by
  rw [← List.map_flatMap, List.filter_map]
  rfl

/-- **The entries left are those of the claimable seats.** -/
theorem mem_pendingOf {key : SeatKey} : key ∈ (pendingOf y subVaults markets read).map seatKey ↔
    Claimable y subVaults markets read key := by
  obtain ⟨address, vault, subVaultId⟩ := key
  rw [map_pendingOf, List.mem_filter, List.mem_flatMap, List.contains_iff_mem, mem_claimable]
  constructor
  · rintro ⟨⟨market, hmarket, hkey⟩, hpending⟩
    obtain ⟨hopen, data, hdata, seat, hseat, hkind, hshares, heq⟩ := mem_map_claimsOf.1 hkey
    cases heq
    exact ⟨market, hmarket, hopen, data, hdata, seat, hseat, hkind, hshares, hpending, rfl⟩
  · rintro ⟨market, hmarket, hopen, data, hdata, seat, hseat, hkind, hshares, hpending, heq⟩
    cases heq
    exact ⟨⟨market, hmarket, mem_map_claimsOf.2
      ⟨hopen, data, hdata, seat, hseat, hkind, hshares, rfl⟩⟩, hpending⟩

/-- Within a market, seats are known by different ids. -/
def SeatsDistinct (y : Ydelta) (read : AccountReads) (markets : List MarketView) : Prop :=
  ∀ market ∈ markets, ∀ data, read market.address = .ok (some data) →
    ((seatsOf y data).map seatId).Nodup

/-- Each seat is left once. -/
theorem nodup_pendingOf (haddress : (markets.map MarketView.address).Nodup)
    (hseats : SeatsDistinct y read markets) :
    ((pendingOf y subVaults markets read).map seatKey).Nodup := by
  rw [map_pendingOf]
  refine List.Nodup.filter _ (List.nodup_flatMap.2 ⟨fun market hmarket => ?_, ?_⟩)
  · unfold claimsOf
    split
    · exact List.nodup_nil
    · rcases hdata : read market.address with err | _ | data
      · exact List.nodup_nil
      · exact List.nodup_nil
      · exact nodup_decodePendingClaims (hseats market hmarket data hdata)
  · -- the keys of two markets differ in their addresses
    refine (List.pairwise_map.1 haddress).imp fun {a b} hne key ha hb => ?_
    obtain ⟨-, _, -, _, -, -, -, rfl⟩ := mem_map_claimsOf.1 ha
    obtain ⟨-, _, -, _, -, -, -, heq⟩ := mem_map_claimsOf.1 hb
    exact hne (congrArg Prod.fst heq)

theorem not_claimable_of_isEmpty (h : (claimable subVaults).isEmpty = true) (key : SeatKey) :
    ¬ Claimable y subVaults markets read key := by
  rintro ⟨_, -, -, _, -, _, -, -, -, hpending, -⟩
  have hmem := mem_claimable.2 hpending
  rw [List.isEmpty_iff.1 h] at hmem
  cases hmem

end Keys

/-! ### One pass -/

section Pass

variable {rpc : Rpc} {sdk : Sdk} {ctx : HandlerContext} {subVaults : List SubVaultView}
  {markets : List MarketView} {read : AccountReads} {s s' : Memory}
  {T : List (Memory × Service.Event)} {r : Except Failure Unit}

/-- The scan of the sub-vaults succeeds, and so does the listing of the markets if it is made. -/
def Listed (ctx : HandlerContext) (t : Service.Trace) (subVaults : List SubVaultView)
    (markets : List MarketView) : Prop :=
  ∃ t₁ t', t = t₁ ++ t' ∧ (ctx.chain.listSubVaults ctx.y).run.Runs t₁ (.ok subVaults) ∧
    ((claimable subVaults).isEmpty = false →
      ∃ t₂ t₃, t' = t₂ ++ t₃ ∧ (ctx.chain.listMarkets ctx.y).run.Runs t₂ (.ok markets))

/-- The keys attempted are those in `P`, each once, and nothing else is sent. -/
def SweepsExactly (ctx : HandlerContext) (t : Service.Trace) (P : SeatKey → Prop) : Prop :=
  ∃ t₀ t₁ entries, t = t₀ ++ t₁ ∧ (∀ e ∈ t₀, Idle e.call) ∧ Attempts ctx entries t₁ ∧
    (entries.map seatKey).Nodup ∧ ∀ key, key ∈ entries.map seatKey ↔ P key

/-- Without a claimed key, nothing was attempted. -/
theorem attempts_idle {entries : List PendingVaultClaim} {t : Service.Trace}
    (h : Attempts ctx entries t) (hidle : ∀ e ∈ t, Idle e.call) : entries = [] := by
  cases h with
  | nil => rfl
  | cons _ _ => exact absurd ⟨_, .inl rfl⟩ (hidle _ List.mem_cons_self).2

/-- A pass that attempts nothing is right only if nothing is claimable. -/
theorem sweepsExactly_idle {t : Service.Trace} {P : SeatKey → Prop}
    (hidle : ∀ e ∈ t, Idle e.call) : SweepsExactly ctx t P ↔ ∀ key, ¬ P key := by
  constructor
  · rintro ⟨t₀, t₁, entries, rfl, -, hattempts, -, hkeys⟩ key hkey
    have hnone := attempts_idle hattempts fun e he => hidle e (List.mem_append_right t₀ he)
    rw [← hkeys, hnone] at hkey
    cases hkey
  · intro hnone
    refine ⟨t, [], [], (List.append_nil t).symm, hidle, .nil, List.nodup_nil, fun key => ?_⟩
    constructor
    · intro hkey
      cases hkey
    · exact fun hkey => absurd hkey (hnone key)

/-- What is left of the pass once the sub-vaults and the markets are listed. -/
theorem sweepMarkets_runs {t : Service.Trace} (hcalm : ∀ e ∈ t, Service.Calm e)
    (hread : ∀ e ∈ t, ReadsAs read e)
    (hrun : (do
      let claims ← ChainReader.listPendingVaultClaims ctx.y markets
      sweepAll ctx (seatsToSweep subVaults claims)).run.Runs t r) :
    (∃ market ∈ markets, ¬ Readable read market) ∧ (∀ e ∈ t, Idle e.call) ∨
      (∀ market ∈ markets, Readable read market) ∧ ∃ t₀ t₁, t = t₀ ++ t₁ ∧
        (∀ e ∈ t₀, Idle e.call) ∧ Sweeps ctx (pendingOf ctx.y subVaults markets read) t₁ := by
  rcases Fallible.runs_bind hrun with ⟨err, hfail, -⟩ | ⟨t₀, claims, t₁, rfl, hclaims, hsweeps⟩
  · have hidle := idle_listPendingVaultClaims markets _ _ hfail
    rcases listPendingVaultClaims_spec markets _ _ hfail hread with ⟨-, hok⟩ | ⟨hnot, -⟩
    · cases hok
    · exact .inl ⟨hnot, hidle⟩
  · have hidle := idle_listPendingVaultClaims markets _ _ hclaims
    rcases listPendingVaultClaims_spec markets _ _ hclaims
      fun e he => hread e (List.mem_append_left t₁ he) with ⟨hall, hok⟩ | ⟨-, _, herr⟩
    · cases hok
      have hsweeps := sweepAll_spec _ _ _ hsweeps fun e he => hcalm e (List.mem_append_right t₀ he)
      exact .inr ⟨hall, t₀, t₁, rfl, hidle, hsweeps⟩
    · cases herr

/-- **What a pass does once its listings succeed**: nothing, if there is nothing to sweep or a
market cannot be read, and otherwise it goes through the claimable seats. -/
theorem tick_runs {t : Service.Trace} (hcalm : ∀ e ∈ t, Service.Calm e)
    (hread : ∀ e ∈ t, ReadsAs read e) (hlisted : Listed ctx t subVaults markets)
    (hrun : (tick ctx).run.Runs t r) :
    ((∃ market ∈ markets, ¬ Readable read market) ∨
        ∀ key, ¬ Claimable ctx.y subVaults markets read key) ∧ (∀ e ∈ t, Idle e.call) ∨
      (∀ market ∈ markets, Readable read market) ∧ ∃ t₀ t₁, t = t₀ ++ t₁ ∧
        (∀ e ∈ t₀, Idle e.call) ∧ Sweeps ctx (pendingOf ctx.y subVaults markets read) t₁ := by
  obtain ⟨t₁, t', rfl, hvaults, hmarkets⟩ := hlisted
  have hidle₁ := idle_listSubVaults ctx.chain _ _ hvaults
  have hrun := Fallible.runs_of_bind hrun hvaults
  cases hempty : (claimable subVaults).isEmpty with
  | true =>
    rw [if_pos hempty] at hrun
    obtain ⟨rfl, -⟩ := hrun
    rw [List.append_nil]
    exact .inl ⟨.inr (not_claimable_of_isEmpty hempty), hidle₁⟩
  | false =>
    obtain ⟨t₂, t₃, rfl, hlist⟩ := hmarkets hempty
    rw [if_neg (by simp [hempty])] at hrun
    have hidle₂ := idle_listMarkets ctx.chain _ _ hlist
    have hrun := Fallible.runs_of_bind hrun hlist
    have hbefore : ∀ {u : Service.Trace}, (∀ e ∈ u, Idle e.call) →
        ∀ e ∈ t₁ ++ (t₂ ++ u), Idle e.call := fun hu =>
      List.forall_mem_append.2 ⟨hidle₁, List.forall_mem_append.2 ⟨hidle₂, hu⟩⟩
    -- both listings are done without a send; what is left is the sweep of the markets
    by_cases hnone : markets.isEmpty = true
    · rw [if_pos hnone] at hrun
      obtain ⟨rfl, -⟩ := hrun
      refine .inl ⟨.inr ?_, hbefore (List.forall_mem_nil _)⟩
      rintro key ⟨market, hmarket, -⟩
      rw [List.isEmpty_iff.1 hnone] at hmarket
      cases hmarket
    · rw [if_neg hnone] at hrun
      have hin : ∀ {e : Service.Event}, e ∈ t₃ → e ∈ t₁ ++ (t₂ ++ t₃) := fun he =>
        List.mem_append_right t₁ (List.mem_append_right t₂ he)
      rcases sweepMarkets_runs (fun e he => hcalm e (hin he)) (fun e he => hread e (hin he)) hrun
        with ⟨hnot, hidle⟩ | ⟨hall, u, t₄, rfl, hidle, hsweeps⟩
      · exact .inl ⟨.inl hnot, hbefore hidle⟩
      · exact .inr ⟨hall, t₁ ++ (t₂ ++ u), t₄, by simp, hbefore hidle, hsweeps⟩

/-- **The pass sweeps the claimable seats, each once and no other, exactly when every market that is
not paused can be read** or there is nothing to sweep. -/
theorem tick_sweepsExactly_iff (hT : (claimerEnv ctx.y).Timeline s T s') (hfree : claimerKeys s = ∅)
    (hrun : (tick ctx).run.Runs (T.map Prod.snd) r)
    (hgiven : ∀ e ∈ T.map Prod.snd, Service.Given rpc sdk e)
    (hlisted : Listed ctx (T.map Prod.snd) subVaults markets)
    (hread : ∀ e ∈ T.map Prod.snd, ReadsAs read e)
    (haddress : (markets.map MarketView.address).Nodup)
    (hseats : SeatsDistinct ctx.y read markets) :
    SweepsExactly ctx (T.map Prod.snd) (Claimable ctx.y subVaults markets read) ↔
      (∀ market ∈ markets, Readable read market) ∨
        ∀ key, ¬ Claimable ctx.y subVaults markets read key := by
  rcases tick_runs (fun e he => (hgiven e he).calm) hread hlisted hrun with
    ⟨hnone, hidle⟩ | ⟨hall, t₀, t₁, ht, hidle, hsweeps⟩
  · -- nothing was attempted
    rw [sweepsExactly_idle hidle]
    refine ⟨.inr, fun h => ?_⟩
    rcases hnone with ⟨market, hmarket, hnot⟩ | hnone
    · exact h.resolve_left fun hall => hnot (hall market hmarket)
    · exact hnone
  · refine ⟨fun _ => .inl hall, fun _ => ?_⟩
    obtain ⟨T₀, T₁, rfl, rfl, rfl⟩ := List.map_eq_append_iff.1 ht
    obtain ⟨s₁, hT₀, hT₁⟩ := Env.timeline_append.1 hT
    have hfree₁ : claimerKeys s₁ = ∅ :=
      (claimerKeys_of_calls hT₀ fun e he => (hidle e he).2).trans hfree
    exact ⟨_, _, _, ht, hidle, attempts_of_sweeps hsweeps hT₁ rfl hfree₁,
      nodup_pendingOf haddress hseats, fun _ => mem_pendingOf⟩

/-! ### A market that cannot be read -/

variable (rpc sdk ctx) in
/-- Whatever comes of the reads of the market accounts, the claimable seats are swept. -/
def SweepsClaimable : Prop :=
  ∀ s s' T r subVaults markets read, (claimerEnv ctx.y).Timeline s T s' → claimerKeys s = ∅ →
    (tick ctx).run.Runs (T.map Prod.snd) r →
    (∀ e ∈ T.map Prod.snd, Service.Given rpc sdk e) →
    Listed ctx (T.map Prod.snd) subVaults markets → (∀ e ∈ T.map Prod.snd, ReadsAs read e) →
    (markets.map MarketView.address).Nodup → SeatsDistinct ctx.y read markets →
      SweepsExactly ctx (T.map Prod.snd) (Claimable ctx.y subVaults markets read)

/-- A crate in which every vault has one sub-vault with 10 atoms to claim, and every market a seat
of the vault at 61 with 7 shares. -/
def sampleSeats : Ydelta :=
  { Ydelta.plain with
    castGlobalVaultFixed := fun _ => some ⟨3, 0, .fill 32 1, .fill 32 11, 0⟩
    subVaults := fun _ _ => [⟨5, .fill 32 70, 0, 10, 0⟩]
    castMarketFixed := fun data =>
      { Ydelta.plain.castMarketFixed data with claimedSeatsRootIndex := 0 }
    claimedSeats := fun _ _ => [⟨.fill 32 61, 1, 5, 7⟩] }

def sampleSeatsContext : HandlerContext := { sampleHandlerContext with y := sampleSeats }

/-- Two markets that differ in their addresses. -/
def sampleMarkets : List MarketView := [sampleMarket, { sampleMarket with address := .fill 32 32 }]

/-- The sub-vault of the vault at 61. -/
def sampleSubVault : SubVaultView :=
  ⟨.fill 32 61, .fill 32 1, .fill 32 11, 5, .fill 32 70, 0, false, 10, false⟩

/-- A node with one vault, on which the account at 31 reads as `first`. -/
def sweepClient (first : Except ClientError Account) : (c : ClientCall) → c.Reply
  | .getProgramAccounts _ _ => .ok [(.fill 32 61, ⟨.fill 32 9, leBytes 8 3⟩)]
  | .getAccount pk =>
    if pk = .fill 32 31 then first else .ok (sampleMarketRow 32 1 2 11 12).2
  | c => sampleClient [] c

/-- What the accounts of this node read as. -/
def sweepReads (first : Except ClientError Account) : AccountReads := fun pk =>
  ((RpcCall.getAccountData pk).prog sampleRpc .plain).run.answered (sweepClient first) |>.2

def sweepReply (first : Except ClientError Account) : (c : ServiceCall) → c.Reply
  | .rpc c => ((c.prog sampleRpc .plain).run.answered (sweepClient first)).2
  | .client c => sweepClient first c
  | .process c => c.refused

/-- The two banks and the two markets are known, and nothing is in flight. -/
def sweepMemory : Memory :=
  { Memory.start 0 with banks := sampleBanks, marketsCache := some ⟨0, sampleMarkets⟩ }

/-- A pass on this node. -/
def sampleSweep (first : Except ClientError Account) :
    List (Memory × Service.Event) × Except Failure Unit × Memory :=
  sweepMemory.exec sampleSeats (sweepReply first) (tick sampleSeatsContext).run

theorem sampleSweep_runs (first : Except ClientError Account) :
    (tick sampleSeatsContext).run.Runs ((sampleSweep first).1.map Prod.snd)
      (sampleSweep first).2.1 :=
  Env.runs_exec _ _

theorem sampleSweep_timeline (first : Except ClientError Account) :
    (claimerEnv sampleSeatsContext.y).Timeline sweepMemory (sampleSweep first).1
      (sampleSweep first).2.2 :=
  Env.timeline_exec (E := claimerEnv sampleSeatsContext.y)
    (fun s c => ⟨s.allows_reply (sweepReply first) c, rfl⟩) _ _

theorem sampleSweep_given (first : Except ClientError Account) :
    ∀ e ∈ (sampleSweep first).1.map Prod.snd, Service.Given sampleRpc .plain e := by
  intro e he
  obtain ⟨⟨s, c, r⟩, hx, rfl⟩ := List.mem_map.1 he
  have hreply : r = s.reply (sweepReply first) c := Env.mem_exec hx
  cases c with
  | rpc c =>
    rw [hreply]
    exact ⟨_, Prog.runs_answered _ _⟩
  | client c => trivial
  | process c => trivial

theorem sampleSweep_reads (first : Except ClientError Account) :
    ∀ e ∈ (sampleSweep first).1.map Prod.snd, ReadsAs (sweepReads first) e := by
  intro e he pk r heq
  obtain ⟨⟨s, e⟩, hx, rfl⟩ := List.mem_map.1 he
  obtain rfl := heq
  exact Env.mem_exec hx

theorem sampleSweep_listed (first : Except ClientError Account) :
    Listed sampleSeatsContext ((sampleSweep first).1.map Prod.snd) [sampleSubVault]
      sampleMarkets := by
  refine ⟨[_], _, rfl, ⟨_, _, rfl, rfl, rfl⟩, fun _ => ⟨[_], _, rfl, ⟨_, _, rfl, rfl, rfl⟩⟩⟩

theorem sampleMarkets_nodup : (sampleMarkets.map MarketView.address).Nodup := by decide

theorem sampleSeats_distinct (read : AccountReads) :
    SeatsDistinct sampleSeatsContext.y read sampleMarkets := by
  intro market _ data _
  unfold seatsOf
  split
  · exact List.nodup_nil
  · split
    · exact List.nodup_nil
    · exact List.nodup_singleton _

theorem sweepReads_second (first : Except ClientError Account) :
    sweepReads first (.fill 32 32) = .ok (some (sampleMarketRow 32 1 2 11 12).2.data) :=
  rfl

/-- An account with a single byte of data. -/
def malformed : Except ClientError Account := .ok ⟨.fill 32 9, [1]⟩

theorem sweepReads_malformed : sweepReads malformed sampleMarket.address = .ok (some [1]) := by
  rfl

/-- The seat of the second market is claimable, whatever the first account reads as. -/
theorem sampleSeats_claimable (first : Except ClientError Account) :
    Claimable sampleSeatsContext.y [sampleSubVault] sampleMarkets (sweepReads first)
      (.fill 32 32, .fill 32 61, 5) := by
  have hseat : (⟨.fill 32 61, 1, 5, 7⟩ : ClaimedSeat) ∈
      seatsOf sampleSeats (sampleMarketRow 32 1 2 11 12).2.data := by decide +kernel
  refine ⟨_, List.mem_cons_of_mem _ List.mem_cons_self, rfl, _,
    sweepReads_second first, _, hseat, rfl, by decide, ?_, rfl⟩
  exact ⟨sampleSubVault, List.mem_cons_self, rfl, rfl, by decide⟩

theorem sweepMemory_free : claimerKeys sweepMemory = ∅ :=
  Set.eq_empty_iff_forall_notMem.2 fun _ h => absurd h.1 (Finset.notMem_empty _)

/-- A reply that does not deserialize: the lamports of the account are null. -/
def undecoded : Except ClientError Account :=
  .error ⟨.serdeJson "invalid type: null, expected u64", "invalid type: null, expected u64"⟩

/-- When the reply for the first market does not deserialize, nothing is swept in the second market,
though its account can be read. -/
theorem not_sweepsClaimable : ¬ SweepsClaimable sampleRpc .plain sampleSeatsContext := by
  intro h
  have hsweeps := h _ _ _ _ _ _ _ (sampleSweep_timeline undecoded) sweepMemory_free
    (sampleSweep_runs undecoded) (sampleSweep_given undecoded) (sampleSweep_listed undecoded)
    (sampleSweep_reads undecoded) sampleMarkets_nodup (sampleSeats_distinct _)
  have hcalm := fun e he => (sampleSweep_given undecoded e he).calm
  rcases tick_runs hcalm (sampleSweep_reads undecoded) (sampleSweep_listed undecoded)
    (sampleSweep_runs undecoded) with ⟨-, hidle⟩ | ⟨hall, -⟩
  · exact (sweepsExactly_idle hidle).1 hsweeps _ (sampleSeats_claimable undecoded)
  · -- the read of the first market fails
    obtain ⟨data, hdata⟩ := hall sampleMarket List.mem_cons_self rfl
    have herror : (sweepReads undecoded sampleMarket.address).isOk = false := by decide +kernel
    rw [hdata] at herror
    cases herror

/-- The first account is malformed, and the seat of the second market is swept. -/
theorem tick_sweepsExactly_sample :
    SweepsExactly sampleSeatsContext ((sampleSweep malformed).1.map Prod.snd)
        (Claimable sampleSeatsContext.y [sampleSubVault] sampleMarkets (sweepReads malformed)) ∧
      Claimable sampleSeatsContext.y [sampleSubVault] sampleMarkets (sweepReads malformed)
        (.fill 32 32, .fill 32 61, 5) := by
  have hreadable : ∀ market ∈ sampleMarkets, Readable (sweepReads malformed) market := by
    intro market hmarket _
    rcases List.mem_cons.1 hmarket with rfl | hmarket
    · exact ⟨_, sweepReads_malformed⟩
    · obtain rfl := List.mem_singleton.1 hmarket
      exact ⟨_, sweepReads_second malformed⟩
  have hiff := tick_sweepsExactly_iff (sampleSweep_timeline malformed) sweepMemory_free
    (sampleSweep_runs malformed) (sampleSweep_given malformed) (sampleSweep_listed malformed)
    (sampleSweep_reads malformed) sampleMarkets_nodup (sampleSeats_distinct _)
  exact ⟨hiff.2 (.inl hreadable), sampleSeats_claimable malformed⟩

end Pass

end ClaimerHandler

end YdeltaCrankers
