import YdeltaCrankers.Config

/-!
# `src/config.rs`: numbers in the environment

How the thresholds are read from environment variables.  A variable that is not set has a default,
and every `u64` can be set (`u64Var_admits`): nothing bounds a duration but its type.
-/

namespace YdeltaCrankers

/-- The digits of `str::parse::<u64>` left, after the number `n`. -/
def parseDigits : List Char → ℕ → Except String ℕ
  | [], n => .ok n
  | c :: cs, n =>
    if c.isDigit then
      let n' := 10 * n + (c.toNat - '0'.toNat)
      if n' < 2 ^ 64 then parseDigits cs n' else .error "number too large to fit in target type"
    else .error "invalid digit found in string"

/-- `str::parse::<u64>`: decimal digits, behind a `+` if there is one. -/
def parseU64 (s : String) : Except String UInt64 :=
  match s.toList with
  | [] => .error "cannot parse integer from empty string"
  | ['+'] => .error "invalid digit found in string"
  | '+' :: cs => (parseDigits cs 0).map UInt64.ofNat
  | cs => (parseDigits cs 0).map UInt64.ofNat

/-- A number in the environment variable `name`, whose value is `var` if it is set. -/
def u64Var (name : String) (default : UInt64) (var : Option String) : Except Error UInt64 :=
  match var with
  | some v => (parseU64 v).mapError fun e => .anyhow s!"{name}: {e}"
  | none => .ok default

/-- A duration in seconds. -/
def secsVar (name : String) (defaultSecs : UInt64) (var : Option String) : Except Error UInt64 :=
  u64Var name defaultSecs var

/-- The thresholds of `Config::from_env`. -/
def ThresholdsConfig.fromEnv (env : String → Option String) : Except Error ThresholdsConfig := do
  let minLiquidationProfitAtoms ← u64Var "MIN_LIQUIDATION_PROFIT_ATOMS" 1000000
    (env "MIN_LIQUIDATION_PROFIT_ATOMS")
  let maturityExtraBuffer ← secsVar "MATURITY_EXTRA_BUFFER_SEC" 30
    (env "MATURITY_EXTRA_BUFFER_SEC")
  let minCuratorFeeClaimAtoms ← u64Var "MIN_CURATOR_FEE_CLAIM_ATOMS" 100000
    (env "MIN_CURATOR_FEE_CLAIM_ATOMS")
  return { minLiquidationProfitAtoms, maturityExtraBuffer, minCuratorFeeClaimAtoms }

/-! ### Every number can be set -/

theorem le_ofDigitChars (cs : List Char) (n : ℕ) : n ≤ Nat.ofDigitChars 10 cs n := by
  rw [Nat.ofDigitChars_eq_ofDigitChars_zero]
  have hpos : 0 < 10 ^ cs.length := by positivity
  exact le_add_right (Nat.le_mul_of_pos_left n hpos)

theorem parseDigits_eq {cs : List Char} {n : ℕ} (hdigits : ∀ c ∈ cs, c.isDigit = true)
    (hlt : Nat.ofDigitChars 10 cs n < 2 ^ 64) :
    parseDigits cs n = .ok (Nat.ofDigitChars 10 cs n) := by
  induction cs generalizing n with
  | nil => rfl
  | cons c cs ih =>
    obtain ⟨hc, hcs⟩ := List.forall_mem_cons.1 hdigits
    rw [Nat.ofDigitChars_cons] at hlt ⊢
    have hnext := (le_ofDigitChars cs _).trans_lt hlt
    rw [parseDigits, if_pos hc]
    simp only [hnext, if_true]
    exact ih hcs hlt

theorem parseU64_toString (n : UInt64) : parseU64 (toString n.toNat) = .ok n := by
  have hdigits : ∀ c ∈ Nat.toDigits 10 n.toNat, c.isDigit = true := fun c =>
    Nat.isDigit_of_mem_toDigits (by decide) (by decide)
  have hparse : parseDigits (Nat.toDigits 10 n.toNat) 0 = .ok n.toNat := by
    rw [parseDigits_eq hdigits (by rw [Nat.ofDigitChars_ten_toDigits]; exact n.toNat_lt),
      Nat.ofDigitChars_ten_toDigits]
  have hlist : (toString n.toNat).toList = Nat.toDigits 10 n.toNat := Nat.toList_repr
  unfold parseU64
  rw [hlist]
  cases hcs : Nat.toDigits 10 n.toNat with
  | nil => exact absurd hcs Nat.toDigits_ne_nil
  | cons c cs =>
    rw [hcs] at hdigits hparse
    have hplus : c ≠ '+' := by
      rintro rfl
      exact absurd (hdigits _ List.mem_cons_self) (by decide)
    split
    · rename_i heq
      cases heq
    · rename_i heq
      cases heq
      exact absurd rfl hplus
    · rename_i heq
      cases heq
      exact absurd rfl hplus
    · rw [hparse, Except.map, UInt64.ofNat_toNat]

/-- Every number can be set. -/
theorem u64Var_admits (name : String) (default n : UInt64) :
    u64Var name default (some (toString n.toNat)) = .ok n := by
  rw [u64Var, parseU64_toString, Except.mapError]

end YdeltaCrankers
