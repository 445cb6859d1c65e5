import YdeltaCrankers.Handlers.Promoter

/-!
# Market bytes that abort the process

Two functions read single nodes of a market account: `read_seat_at`, for the promoter, and
`market_is_rate_crossed`, for the match cranker.  The bytes come from one fetch, and the seat index
of the promoter from an earlier one, so that they need not fit together.

hypertree's helpers panic on a node outside of the dynamic region (`Hypertree`), and a panic ends
the process.  `market_is_rate_crossed` checks the header before it reads a node, `read_seat_at`
does not; neither checks the index.

* `NodeInside` : the node at an index lies inside the dynamic region.
* `Survives` : a read does not panic, and fails on bytes that are not well formed.
* `ChainReader.marketBytes_iff` : exactly which bytes and indices the two functions survive.
-/

namespace YdeltaCrankers

open Interaction

/-- The node at the index lies inside the dynamic region. -/
def NodeInside (size : ℕ) (dyn : List UInt8) (index : DataIndex) : Prop :=
  index.toNat + size ≤ dyn.length

instance (size : ℕ) (dyn : List UInt8) (index : DataIndex) :
    Decidable (NodeInside size dyn index) := inferInstanceAs (Decidable (_ ≤ _))

/-- In the account, the node ends before the data does. -/
theorem nodeInside_drop {size header : ℕ} {data : List UInt8} {index : DataIndex}
    (h : header ≤ data.length) :
    NodeInside size (data.drop header) index ↔ header + index.toNat + size ≤ data.length := by
  unfold NodeInside
  rw [List.length_drop]
  omega

/-- `get_helper_seat` and `get_helper_order` panic exactly when the node at the index lies outside
of the dynamic region. -/
structure Hypertree (y : Ydelta) (seatSize orderSize : ℕ) : Prop where
  seat : ∀ dyn index, y.helperSeat dyn index = none ↔ ¬ NodeInside seatSize dyn index
  order : ∀ dyn index, y.helperOrderRateBps dyn index = none ↔ ¬ NodeInside orderSize dyn index

/-- A read as it is meant: it does not panic, and bytes that are not well formed are an error. -/
def Survives {α : Type} (wellFormed : Prop) (r : Except Failure α) : Prop :=
  NoPanic r ∧ (¬ wellFormed → ∃ e, r = .error (.error e))

section Survives

variable {α : Type} {wellFormed : Prop}

theorem survives_ok {a : α} : Survives wellFormed (.ok a : Except Failure α) ↔ wellFormed := by
  refine ⟨fun h => ?_, fun h => ⟨noPanic_ok a, fun hnot => absurd h hnot⟩⟩
  by_contra hnot
  obtain ⟨e, he⟩ := h.2 hnot
  cases he

theorem survives_error (e : Error) : Survives wellFormed (.error (.error e) : Except Failure α) :=
  ⟨noPanic_error e, fun _ => ⟨e, rfl⟩⟩

theorem not_survives_panic (msg : String) :
    ¬ Survives wellFormed (.error (.panic msg) : Except Failure α) := fun h => h.1 msg rfl

end Survives

/-! ### The header -/

namespace Ydelta

variable (y : Ydelta) {data : List UInt8}

/-- The data begins with the header of a market. -/
def HasHeader (data : List UInt8) : Prop :=
  y.marketFixedSize ≤ data.length ∧
    (y.castMarketFixed (data.take y.marketFixedSize)).discriminator = y.marketFixedDiscriminant

/-- The header at the beginning of the data. -/
def header (data : List UInt8) : MarketFixed := y.castMarketFixed (data.take y.marketFixedSize)

variable {y}

theorem splitMarket_of_hasHeader (h : y.HasHeader data) :
    y.splitMarket data = .ok (y.header data, data.drop y.marketFixedSize) := by
  unfold splitMarket decodeMarketFixed
  rw [if_neg (Nat.not_lt.2 h.1)]
  simp only
  rw [if_neg (not_not.2 h.2)]
  rfl

theorem splitMarket_of_not_hasHeader (h : ¬ y.HasHeader data) :
    ∃ e, y.splitMarket data = .error e := by
  unfold splitMarket decodeMarketFixed
  by_cases hlen : data.length < y.marketFixedSize
  · rw [if_pos hlen]
    exact ⟨_, rfl⟩
  · rw [if_neg hlen]
    have hdisc : (y.castMarketFixed (data.take y.marketFixedSize)).discriminator ≠
        y.marketFixedDiscriminant := fun heq => h ⟨Nat.not_lt.1 hlen, heq⟩
    simp only
    rw [if_pos hdisc]
    exact ⟨_, rfl⟩

end Ydelta

namespace ChainReader

variable {y : Ydelta} {seatSize orderSize : ℕ} {data : List UInt8} {index : DataIndex}

/-! ### `read_seat_at` -/

/-- The data is a market with a seat at the index. -/
def HasSeat (y : Ydelta) (seatSize : ℕ) (data : List UInt8) (index : DataIndex) : Prop :=
  y.HasHeader data ∧ NodeInside seatSize (data.drop y.marketFixedSize) index

theorem readSeatAt_nil : readSeatAt y data y.nil = .error (.error (.anyhow "seat index is NIL")) :=
  if_pos rfl

theorem readSeatAt_short (hindex : index ≠ y.nil) (h : data.length < y.marketFixedSize) :
    readSeatAt y data index = .error (.panic "range end index out of range for slice") := by
  have hslice : slice data y.marketFixedSize data.length =
      .error (.panic "range end index out of range for slice") := if_neg (by omega)
  unfold readSeatAt
  rw [if_neg hindex, hslice]
  rfl

theorem readSeatAt_eq (hindex : index ≠ y.nil) (h : y.marketFixedSize ≤ data.length) :
    readSeatAt y data index = match y.helperSeat (data.drop y.marketFixedSize) index with
      | none => .error (.panic "index out of bounds")
      | some seat => .ok ⟨seat.owner, seat.ownerKind, seat.subVaultId⟩ := by
  have hslice : slice data y.marketFixedSize data.length = .ok (data.drop y.marketFixedSize) := by
    unfold slice
    rw [if_pos ⟨h, le_rfl⟩, List.take_of_length_le (by rw [List.length_drop])]
  unfold readSeatAt
  rw [if_neg hindex, hslice]
  show (match y.helperSeat (data.drop y.marketFixedSize) index with
    | none => Except.error (Failure.panic "index out of bounds")
    | some seat => pure (SeatView.mk seat.owner seat.ownerKind seat.subVaultId)) = _
  cases y.helperSeat (data.drop y.marketFixedSize) index <;> rfl

/-- **A seat is read without a panic exactly when the data reaches to the end of its node.** -/
theorem readSeatAt_noPanic_iff (hy : Hypertree y seatSize orderSize) :
    NoPanic (readSeatAt y data index) ↔
      index = y.nil ∨ y.marketFixedSize + index.toNat + seatSize ≤ data.length := by
  by_cases hindex : index = y.nil
  · subst hindex
    rw [readSeatAt_nil]
    exact iff_of_true (noPanic_error _) (.inl rfl)
  rw [or_iff_right hindex]
  by_cases hlen : y.marketFixedSize ≤ data.length
  · rw [readSeatAt_eq hindex hlen, ← nodeInside_drop hlen]
    have hseat := hy.seat (data.drop y.marketFixedSize) index
    cases hnode : y.helperSeat (data.drop y.marketFixedSize) index with
    | none => exact iff_of_false (fun h => h _ rfl) (hseat.1 hnode)
    | some seat =>
      refine iff_of_true (noPanic_ok _) ?_
      by_contra hout
      rw [hseat.2 hout] at hnode
      cases hnode
  · rw [readSeatAt_short hindex (Nat.not_le.1 hlen)]
    exact iff_of_false (fun h => h _ rfl) (by omega)

theorem readSeatAt_survives_iff (hy : Hypertree y seatSize orderSize) (hindex : index ≠ y.nil) :
    Survives (HasSeat y seatSize data index) (readSeatAt y data index) ↔
      HasSeat y seatSize data index := by
  by_cases hlen : y.marketFixedSize ≤ data.length
  · rw [readSeatAt_eq hindex hlen]
    cases hnode : y.helperSeat (data.drop y.marketFixedSize) index with
    | none =>
      have hout := (hy.seat _ _).1 hnode
      exact iff_of_false (not_survives_panic _) fun h => hout h.2
    | some seat => exact survives_ok
  · rw [readSeatAt_short hindex (Nat.not_le.1 hlen)]
    exact iff_of_false (not_survives_panic _) fun h => hlen h.1.1

/-! ### `market_is_rate_crossed` -/

/-- The orders that are compared, those of a book with two sides, lie inside the dynamic region. -/
def BookInside (y : Ydelta) (orderSize : ℕ) (data : List UInt8) : Prop :=
  (y.header data).bidsBestIndex = y.nil ∨ (y.header data).asksBestIndex = y.nil ∨
    NodeInside orderSize (data.drop y.marketFixedSize) (y.header data).bidsBestIndex ∧
      NodeInside orderSize (data.drop y.marketFixedSize) (y.header data).asksBestIndex

/-- The data is a market whose best orders can be compared. -/
def HasBook (y : Ydelta) (orderSize : ℕ) (data : List UInt8) : Prop :=
  y.HasHeader data ∧ BookInside y orderSize data

/-- What is made of a market that was split into its header and the rest. -/
def rateCrossed (y : Ydelta) (fixed : MarketFixed) (dyn : List UInt8) : Except Failure Bool :=
  if fixed.bidsBestIndex = y.nil ∨ fixed.asksBestIndex = y.nil then .ok false
  else match y.helperOrderRateBps dyn fixed.bidsBestIndex,
      y.helperOrderRateBps dyn fixed.asksBestIndex with
    | some bestBid, some bestAsk => .ok (decide (bestAsk ≤ bestBid))
    | _, _ => .error (.panic "index out of bounds")

/-- **A market with a header is compared without a panic exactly when the compared orders are
inside.** -/
theorem rateCrossed_survives_iff (hy : Hypertree y seatSize orderSize)
    (hheader : y.HasHeader data) :
    Survives (HasBook y orderSize data)
        (rateCrossed y (y.header data) (data.drop y.marketFixedSize)) ↔
      BookInside y orderSize data := by
  have hbook : HasBook y orderSize data ↔ BookInside y orderSize data := and_iff_right hheader
  unfold rateCrossed
  by_cases hnil : (y.header data).bidsBestIndex = y.nil ∨ (y.header data).asksBestIndex = y.nil
  · rw [if_pos hnil, survives_ok, hbook]
  rw [if_neg hnil]
  obtain ⟨hbids, hasks⟩ := not_or.1 hnil
  have hin : BookInside y orderSize data ↔
      NodeInside orderSize (data.drop y.marketFixedSize) (y.header data).bidsBestIndex ∧
        NodeInside orderSize (data.drop y.marketFixedSize) (y.header data).asksBestIndex := by
    unfold BookInside
    rw [or_iff_right hbids, or_iff_right hasks]
  cases hbid : y.helperOrderRateBps (data.drop y.marketFixedSize)
      (y.header data).bidsBestIndex with
  | none =>
    have hout := (hy.order _ _).1 hbid
    exact iff_of_false (not_survives_panic _) fun h => hout (hin.1 h).1
  | some bestBid =>
    cases hask : y.helperOrderRateBps (data.drop y.marketFixedSize)
        (y.header data).asksBestIndex with
    | none =>
      have hout := (hy.order _ _).1 hask
      exact iff_of_false (not_survives_panic _) fun h => hout (hin.1 h).2
    | some bestAsk => exact survives_ok.trans hbook

/-- The one call of a program that fetched this data. -/
def fetched (market : Pubkey) (data : List UInt8) : Service.Trace :=
  [⟨.rpc (.getAccountData market), .ok (some data)⟩]

/-- Data without a header is an error. -/
theorem marketIsRateCrossed_no_header {market : Pubkey} {r : Except Failure Bool}
    (hheader : ¬ y.HasHeader data)
    (h : (marketIsRateCrossed y market).run.Runs (fetched market data) r) :
    ∃ e, r = .error (.error e) := by
  obtain ⟨e, he⟩ := Ydelta.splitMarket_of_not_hasHeader hheader
  obtain ⟨reply, t, ht, hrun⟩ := h
  cases ht
  change (liftError (y.splitMarket data) >>= _ : Async Service Bool).run.Runs [] r at hrun
  rw [he] at hrun
  exact ⟨e, hrun.2⟩

/-- Data with a header is compared. -/
theorem marketIsRateCrossed_header {market : Pubkey} {r : Except Failure Bool}
    (hheader : y.HasHeader data)
    (h : (marketIsRateCrossed y market).run.Runs (fetched market data) r) :
    r = rateCrossed y (y.header data) (data.drop y.marketFixedSize) := by
  obtain ⟨reply, t, ht, hrun⟩ := h
  cases ht
  change (liftError (y.splitMarket data) >>= _ : Async Service Bool).run.Runs [] r at hrun
  rw [Ydelta.splitMarket_of_hasHeader hheader] at hrun
  change (if (y.header data).bidsBestIndex = y.nil ∨ (y.header data).asksBestIndex = y.nil
    then pure false else _ : Async Service Bool).run.Runs [] r at hrun
  unfold rateCrossed
  split_ifs at hrun ⊢ with hnil
  · exact hrun.2
  · change (match y.helperOrderRateBps (data.drop y.marketFixedSize) (y.header data).bidsBestIndex,
        y.helperOrderRateBps (data.drop y.marketFixedSize) (y.header data).asksBestIndex with
      | some bestBid, some bestAsk => pure (decide (bestAsk ≤ bestBid))
      | _, _ => (throw (Failure.panic "index out of bounds") : Async Service Bool)).run.Runs [] r
      at hrun
    cases hbid : y.helperOrderRateBps (data.drop y.marketFixedSize)
        (y.header data).bidsBestIndex with
    | none =>
      rw [hbid] at hrun
      exact hrun.2
    | some bestBid =>
      cases hask : y.helperOrderRateBps (data.drop y.marketFixedSize)
          (y.header data).asksBestIndex with
      | none =>
        rw [hbid, hask] at hrun
        exact hrun.2
      | some bestAsk =>
        rw [hbid, hask] at hrun
        exact hrun.2

/-- **A run on fetched data survives exactly when a header is followed by the compared orders.** -/
theorem marketIsRateCrossed_survives_iff (hy : Hypertree y seatSize orderSize) {market : Pubkey}
    {r : Except Failure Bool}
    (h : (marketIsRateCrossed y market).run.Runs (fetched market data) r) :
    Survives (HasBook y orderSize data) r ↔ (y.HasHeader data → BookInside y orderSize data) := by
  by_cases hheader : y.HasHeader data
  · rw [marketIsRateCrossed_header hheader h, rateCrossed_survives_iff hy hheader,
      forall_prop_of_true hheader]
  · obtain ⟨e, rfl⟩ := marketIsRateCrossed_no_header hheader h
    exact iff_of_true (survives_error e) fun h => absurd h hheader

end ChainReader

/-! ### `assemble_vault_settle` -/

namespace PromoterHandler

open ChainReader

variable {seatSize orderSize : ℕ} {data : List UInt8}

/-- What is left after the seat was read does not panic. -/
theorem noPanic_assembleVaultSettle {ctx : HandlerContext} {market debtMint : Pubkey}
    {entry : PendingMatchedLoan} {debtBank : BankInfo}
    {r : Except Failure (Option VaultSettleAddrs)}
    (h : (assembleVaultSettle ctx market entry debtMint debtBank).run.Runs
      (fetched market data) r) :
    NoPanic r ↔ NoPanic (readSeatAt ctx.y data entry.lenderSeatIndex) := by
  unfold assembleVaultSettle at h
  split_ifs at h with hskip
  · cases h.1
  obtain ⟨reply, t, ht, hrun⟩ := h
  cases ht
  change (liftExcept (readSeatAt ctx.y data entry.lenderSeatIndex) >>= _ :
    Async Service (Option VaultSettleAddrs)).run.Runs [] r at hrun
  cases hseat : readSeatAt ctx.y data entry.lenderSeatIndex with
  | error e =>
    rw [hseat] at hrun
    obtain ⟨-, rfl⟩ := hrun
    -- the error of the read is returned as it is
    cases e <;> simp [NoPanic]
  | ok seat =>
    rw [hseat] at hrun
    refine iff_of_true ?_ (noPanic_ok _)
    change (if seat.ownerKind ≠ ctx.y.ownerKindSubVault then pure none
      else _ : Async Service (Option VaultSettleAddrs)).run.Runs [] r at hrun
    split_ifs at hrun with hkind
    · obtain ⟨-, rfl⟩ := hrun
      exact noPanic_ok _
    · cases haddrs : buildVaultSettleAddrs ctx market seat.owner debtMint debtBank with
      | error e =>
        rw [haddrs] at hrun
        obtain ⟨-, rfl⟩ := hrun
        exact noPanic_error _
      | ok addrs =>
        rw [haddrs] at hrun
        obtain ⟨-, rfl⟩ := hrun
        exact noPanic_ok _

end PromoterHandler

/-! ### The two functions -/

section MarketBytes

open ChainReader PromoterHandler

variable {y : Ydelta} {seatSize orderSize : ℕ}

/-- No data and no index abort the process. -/
def MarketBytesSafe (y : Ydelta) (seatSize orderSize : ℕ) : Prop :=
  ∀ data : List UInt8,
    (∀ index, index ≠ y.nil →
      Survives (HasSeat y seatSize data index) (readSeatAt y data index)) ∧
    (∀ market r, (marketIsRateCrossed y market).run.Runs (fetched market data) r →
      Survives (HasBook y orderSize data) r)

/-- **Which bytes abort the process.**  `read_seat_at` does what it is meant to exactly on data
that begins with a market header and reaches to the end of the node at the index, and the promoter
panics exactly when the data is shorter.  `market_is_rate_crossed` does exactly when a market
header is followed by the orders that are compared, or when there is no header. -/
theorem ChainReader.marketBytes_iff (hy : Hypertree y seatSize orderSize) (data : List UInt8) :
    (∀ index, index ≠ y.nil →
      (Survives (HasSeat y seatSize data index) (readSeatAt y data index) ↔
        HasSeat y seatSize data index)) ∧
    (∀ ctx market entry debtMint debtBank r, ctx.y = y → entry.lenderSeatIndex ≠ y.nil →
      (assembleVaultSettle ctx market entry debtMint debtBank).run.Runs (fetched market data) r →
      (NoPanic r ↔ y.marketFixedSize + entry.lenderSeatIndex.toNat + seatSize ≤ data.length)) ∧
    (∀ market r, (marketIsRateCrossed y market).run.Runs (fetched market data) r →
      (Survives (HasBook y orderSize data) r ↔
        (y.HasHeader data → BookInside y orderSize data))) := by
  refine ⟨fun index => readSeatAt_survives_iff hy, ?_, fun market r h => ?_⟩
  · rintro ctx market entry debtMint debtBank r rfl hindex h
    rw [noPanic_assembleVaultSettle h, readSeatAt_noPanic_iff hy, or_iff_right hindex]
  · exact marketIsRateCrossed_survives_iff hy h

/-- A crate with a header of ten bytes and nodes of two, that panics outside of the region. -/
def sampleNodes : Ydelta :=
  { Ydelta.plain with
    marketFixedSize := 10
    castMarketFixed := fun data => { Ydelta.plain.castMarketFixed data with
      bidsBestIndex := (data.getD 8 0).toUInt32
      asksBestIndex := (data.getD 9 0).toUInt32 }
    helperSeat := fun dyn index =>
      if index.toNat + 2 ≤ dyn.length then some ⟨default, 1, 0, 0⟩ else none
    helperOrderRateBps := fun dyn index =>
      if index.toNat + 2 ≤ dyn.length then some (dyn.getD index.toNat 0).toUInt16 else none }

theorem hypertree_sampleNodes : Hypertree sampleNodes 2 2 where
  seat dyn index := by simp [sampleNodes, NodeInside]
  order dyn index := by simp [sampleNodes, NodeInside]

/-- A market whose best orders are both at this index, with one node. -/
def sampleBook (index : UInt8) : List UInt8 := [1, 0, 0, 0, 0, 0, 0, 0, index, index, 7, 0]

/-- Data of one byte aborts the read of a seat, and a best index behind the end of the data the
comparison. -/
theorem not_marketBytesSafe :
    (Hypertree sampleNodes 2 2 ∧
      readSeatAt sampleNodes [1] 0 =
        .error (.panic "range end index out of range for slice") ∧
      readSeatAt sampleNodes (sampleBook 0) 5 = .error (.panic "index out of bounds") ∧
      (marketIsRateCrossed sampleNodes default).run.Runs (fetched default (sampleBook 5))
        (.error (.panic "index out of bounds"))) ∧
    ¬ MarketBytesSafe sampleNodes 2 2 := by
  have hshort : readSeatAt sampleNodes [1] 0 =
      .error (.panic "range end index out of range for slice") := rfl
  refine ⟨⟨hypertree_sampleNodes, hshort, rfl, ⟨_, _, rfl, rfl, rfl⟩⟩, fun h => ?_⟩
  have hread := (h [1]).1 0 (by decide)
  rw [hshort] at hread
  exact not_survives_panic _ hread

/-- An entry of a vault lender whose seat ends behind the data of `sampleBook`. -/
def sampleEntry : PendingMatchedLoan := ⟨.fill 32 1, 7, 1, 0, 1, 0, 100, 0⟩

theorem ChainReader.marketBytes_iff_sample :
    Survives (HasSeat sampleNodes 2 (sampleBook 0) 0)
        (readSeatAt sampleNodes (sampleBook 0) 0) ∧
      (∃ r, (assembleVaultSettle { sampleHandlerContext with y := sampleNodes } default
          sampleEntry default (sampleBank 2 12)).run.Runs (fetched default (sampleBook 0)) r ∧
        ¬ NoPanic r) ∧
      ∃ r, (marketIsRateCrossed sampleNodes default).run.Runs
          (fetched default (sampleBook 0)) r ∧
        Survives (HasBook sampleNodes 2 (sampleBook 0)) r := by
  obtain ⟨hseat, hsettle, hcrossed⟩ :=
    ChainReader.marketBytes_iff hypertree_sampleNodes (sampleBook 0)
  have hheader : sampleNodes.HasHeader (sampleBook 0) := ⟨by decide, rfl⟩
  refine ⟨(hseat 0 (by decide)).2 ⟨hheader, by decide⟩, ?_, ?_⟩
  · have hrun : (assembleVaultSettle { sampleHandlerContext with y := sampleNodes } default
        sampleEntry default (sampleBank 2 12)).run.Runs (fetched default (sampleBook 0))
          (.error (.panic "index out of bounds")) := ⟨_, _, rfl, rfl, rfl⟩
    refine ⟨_, hrun, fun h => ?_⟩
    have hlen := (hsettle _ _ _ _ _ _ rfl (by decide) hrun).1 h
    exact absurd hlen (by decide)
  · have hrun : (marketIsRateCrossed sampleNodes default).run.Runs
        (fetched default (sampleBook 0)) (.ok true) := ⟨_, _, rfl, rfl, rfl⟩
    exact ⟨_, hrun, (hcrossed _ _ hrun).2 fun _ => .inr (.inr (by decide))⟩

end MarketBytes

end YdeltaCrankers
