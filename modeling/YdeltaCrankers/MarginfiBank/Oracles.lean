import YdeltaCrankers.Handlers.Context
import YdeltaCrankers.MarginfiBank.Layout
import Mathlib.Data.List.DropRight

/-!
# The oracle slots of a bank

A bank account has five oracle slots.  The decoded list is meant to be the slots without the unset
ones at the end, and its users go by position: the first key is the primary oracle.  The decoder
skips every unset slot, wherever it is.

**Main theorem**: `BankView.keepsSlots_iff`.
-/

namespace YdeltaCrankers

/-! ### Trailing entries -/

section Trailing

variable {α : Type} {p : α → Bool} {l : List α}

theorem not_of_mem_rdropWhile_iff :
    (∀ a ∈ l.rdropWhile p, ¬ p a) ↔ l.Pairwise fun a b => p a → p b := by
  constructor
  · intro hall
    rw [← List.rdropWhile_append_rtakeWhile (p := p) (l := l), List.pairwise_append]
    refine ⟨?_, ?_, fun a ha b _ hp => absurd hp (hall a ha)⟩
    · exact List.pairwise_of_forall_mem_list fun a ha b _ hp => absurd hp (hall a ha)
    · exact List.pairwise_of_forall_mem_list fun a _ b hb _ => List.mem_rtakeWhile_imp hb
  · intro hpairwise
    induction l using List.reverseRecOn with
    | nil => exact List.forall_mem_nil _
    | append_singleton init x ih =>
      obtain ⟨hinit, -, hlast⟩ := List.pairwise_append.1 hpairwise
      rw [List.rdropWhile_concat]
      split
      · exact ih hinit
      · rename_i hx
        refine List.forall_mem_append.2 ⟨fun a ha hp => ?_, List.forall_mem_singleton.2 hx⟩
        exact hx (hlast a ha x (List.mem_singleton_self x) hp)

/-- Skipping the entries that satisfy `p` drops those at the end only when there are no others. -/
theorem filter_eq_rdropWhile_iff :
    l.filter (fun a => !p a) = l.rdropWhile p ↔ l.Pairwise fun a b => p a → p b := by
  rw [← not_of_mem_rdropWhile_iff]
  constructor
  · intro heq a ha
    rw [← heq] at ha
    simpa using (List.mem_filter.1 ha).2
  · intro hall
    have htail : ∀ a ∈ l.rtakeWhile p, ¬ (!p a) = true := by
      intro a ha
      rw [List.mem_rtakeWhile_imp ha]
      exact Bool.false_ne_true
    calc l.filter (fun a => !p a)
        = (l.rdropWhile p).filter (fun a => !p a) ++ (l.rtakeWhile p).filter (fun a => !p a) := by
          rw [← List.filter_append, List.rdropWhile_append_rtakeWhile]
      _ = l.rdropWhile p ++ [] := by
          rw [List.filter_eq_self.2 fun a ha => by simpa using hall a ha,
            List.filter_eq_nil_iff.2 htail]
      _ = l.rdropWhile p := List.append_nil _

end Trailing

/-! ### The slots of an account -/

namespace BankView

/-- The five oracle slots of an account. -/
def accountSlots (data : List UInt8) : List Pubkey :=
  oracleSlots (bytesAt data discriminatorLen bankBodySize) (List.range maxOracleKeys)

/-- The oracles are the slots without the unset ones at the end, and the primary oracle is the
first slot if any slot is set. -/
def KeepsSlots (slots : List Pubkey) (info : BankInfo) : Prop :=
  info.oracles = slots.rdropWhile (· = default) ∧
    ((∃ slot ∈ slots, slot ≠ default) → slots.head? = some info.primaryOracle)

/-- No unset slot comes before a set one. -/
def NoGap (slots : List Pubkey) : Prop := slots.Pairwise fun a b => a = default → b = default

/-- **Slots keep their positions when there is no gap.**  What the registry holds of an account is
its slots without the trailing unset ones exactly when no unset slot comes before a set one. -/
theorem keepsSlots_iff {data : List UInt8} {view : BankView} {info : BankInfo}
    (h : tryFromAccountData data = .ok view) (hinfo : info.oracles = view.oracles) :
    KeepsSlots (accountSlots data) info ↔ NoGap (accountSlots data) := by
  obtain ⟨-, -, rfl⟩ := tryFromAccountData_eq_ok_iff.1 h
  have horacles : info.oracles = (accountSlots data).filter fun pk => !decide (pk = default) := by
    rw [hinfo]
    refine List.filter_congr fun pk _ => ?_
    rw [decide_not]
  have hgap : NoGap (accountSlots data) ↔
      (accountSlots data).Pairwise fun a b =>
        decide (a = default) = true → decide (b = default) = true := by
    simp only [NoGap, decide_eq_true_eq]
  rw [hgap, ← filter_eq_rdropWhile_iff, ← horacles]
  constructor
  · exact fun hkeeps => hkeeps.1
  · intro hdrops
    refine ⟨hdrops, fun ⟨slot, hslot, hset⟩ => ?_⟩
    have hne : info.oracles ≠ [] := by
      rw [hdrops, Ne, List.rdropWhile_eq_nil_iff]
      exact fun hall => hset (of_decide_eq_true (hall slot hslot))
    obtain ⟨first, rest, hcons⟩ := List.exists_cons_of_ne_nil hne
    have hprefix : first :: rest <+: accountSlots data := by
      rw [← hcons, hdrops]
      exact List.rdropWhile_prefix _ _
    obtain ⟨tail, htail⟩ := hprefix
    rw [← htail, BankInfo.primaryOracle, hcons]
    rfl

/-! ### A gap -/

/-- An account with these oracle slots. -/
def sampleLayout (oracleKeys : Fin 5 → Pubkey) : BankLayout :=
  { (default : BankLayout) with
    config := { (default : BankConfigLayout) with oracleKeys := oracleKeys } }

/-- A decoded account, and the slots it was decoded from. -/
theorem tryFromAccountData_sampleLayout (oracleKeys : Fin 5 → Pubkey) :
    tryFromAccountData ((sampleLayout oracleKeys).data ++ []) =
        .ok (sampleLayout oracleKeys).view ∧
      accountSlots ((sampleLayout oracleKeys).data ++ []) = List.ofFn oracleKeys := by
  refine ⟨BankLayout.tryFromAccountData_data [], ?_⟩
  rw [accountSlots, BankLayout.bytesAt_data, BankLayout.oracleSlots_body]
  rfl

/-- Only the second slot is set. -/
def sparseKeys (i : Fin 5) : Pubkey := if i.val = 1 then .fill 32 21 else default

/-- The key of the second slot becomes the primary oracle. -/
theorem not_keepsSlots : ∃ data view, tryFromAccountData data = .ok view ∧
    ¬ KeepsSlots (accountSlots data) { sampleBank 1 11 with oracles := view.oracles } := by
  obtain ⟨hview, hslots⟩ := tryFromAccountData_sampleLayout sparseKeys
  refine ⟨_, _, hview, fun hkeeps => ?_⟩
  rw [hslots] at hkeeps
  have hset : ∃ slot ∈ List.ofFn sparseKeys, slot ≠ default :=
    ⟨sparseKeys 1, List.mem_ofFn.2 ⟨1, rfl⟩, by decide⟩
  have hprimary := hkeeps.2 hset
  revert hprimary
  decide

/-- Without a gap the first slot is the primary oracle. -/
theorem keepsSlots_sample : ∃ data view, tryFromAccountData data = .ok view ∧
    KeepsSlots (accountSlots data) { sampleBank 1 11 with oracles := view.oracles } := by
  obtain ⟨hview, hslots⟩ :=
    tryFromAccountData_sampleLayout fun i => if i = 0 then .fill 32 21 else default
  refine ⟨_, _, hview, (keepsSlots_iff hview rfl).2 ?_⟩
  rw [hslots]
  unfold NoGap
  decide

end BankView

end YdeltaCrankers
