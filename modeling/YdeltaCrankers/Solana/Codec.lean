import YdeltaCrankers.Solana.Types
import Mathlib.Order.Defs.Unbundled

/-!
# Reading byte strings

Slices and indices of Rust, which panic when out of range, the little-endian numbers read
through them, and base 64.
-/

namespace YdeltaCrankers

/-- `&data[start..stop]`. -/
def slice (data : List UInt8) (start stop : ℕ) : Except Failure (List UInt8) :=
  if start ≤ stop ∧ stop ≤ data.length then .ok ((data.drop start).take (stop - start))
  else .error (.panic "range end index out of range for slice")

/-- `data[i]`. -/
def byteAt (data : List UInt8) (i : ℕ) : Except Failure UInt8 :=
  match data[i]? with
  | some b => .ok b
  | none => .error (.panic "index out of bounds")

/-- `s.try_into().unwrap()` at type `[u8; n]`. -/
def toArray (n : ℕ) (s : List UInt8) : Except Failure (Bytes n) :=
  if h : s.length = n then .ok ⟨s, h⟩
  else .error (.panic "called Result::unwrap() on an Err value: TryFromSliceError(())")

/-- Keys are ordered by their bytes. -/
def BytesLe (a b : Pubkey) : Prop := a.toList ≤ b.toList

instance : DecidableRel BytesLe :=
  fun a b => inferInstanceAs (Decidable (a.toList ≤ b.toList))

instance : Std.Total BytesLe := ⟨fun _ _ => List.le_total _ _⟩

instance : IsTrans Pubkey BytesLe := ⟨fun _ _ _ => List.le_trans⟩

instance : Std.Antisymm BytesLe := ⟨fun _ _ h h' => Bytes.ext (List.le_antisymm h h')⟩

/-- The number a byte string writes in base 256, least significant byte first. -/
def leNat (bytes : List UInt8) : ℕ := bytes.foldr (fun b acc => b.toNat + 256 * acc) 0

/-- `char::is_whitespace`. -/
def isWhitespace (c : Char) : Bool :=
  let n := c.toNat
  decide (9 ≤ n ∧ n ≤ 13) || decide (0x2000 ≤ n ∧ n ≤ 0x200a) ||
    [0x20, 0x85, 0xa0, 0x1680, 0x2028, 0x2029, 0x202f, 0x205f, 0x3000].contains n

/-- The value of a digit of base 64. -/
def base64Value (c : Char) : Option ℕ :=
  let n := c.toNat
  if 65 ≤ n ∧ n ≤ 90 then some (n - 65)
  else if 97 ≤ n ∧ n ≤ 122 then some (n - 71)
  else if 48 ≤ n ∧ n ≤ 57 then some (n + 4)
  else if c = '+' then some 62
  else if c = '/' then some 63
  else none

/-- The byte of a last group of two digits. -/
def base64Two (a b : Char) : Option (List UInt8) := do
  let n := 64 * (← base64Value a) + (← base64Value b)
  if n % 16 = 0 then some [UInt8.ofNat (n / 16)] else none

/-- The bytes of a last group of three digits. -/
def base64Three (a b c : Char) : Option (List UInt8) := do
  let n := 4096 * (← base64Value a) + 64 * (← base64Value b) + (← base64Value c)
  if n % 4 = 0 then some [UInt8.ofNat (n / 1024), UInt8.ofNat (n / 4)] else none

/-- `base64::engine::general_purpose::STANDARD.decode`: padding is required and the bits left over
are zero. -/
def base64Decode : List Char → Option (List UInt8)
  | [] => some []
  | a :: b :: c :: d :: rest =>
    if rest.isEmpty ∧ d = '=' then if c = '=' then base64Two a b else base64Three a b c
    else do
      let n := 262144 * (← base64Value a) + 4096 * (← base64Value b) + 64 * (← base64Value c) +
        (← base64Value d)
      let bytes ← base64Decode rest
      some (UInt8.ofNat (n / 65536) :: UInt8.ofNat (n / 256) :: UInt8.ofNat n :: bytes)
  | _ => none

/-- The bytes of a number, least significant byte first: `to_le_bytes`. -/
def leBytes : ℕ → ℕ → List UInt8
  | 0, _ => []
  | len + 1, n => UInt8.ofNat n :: leBytes len (n / 256)

@[simp] theorem length_leBytes (len n : ℕ) : (leBytes len n).length = len := by
  induction len generalizing n with
  | zero => rfl
  | succ len ih => simp [leBytes, ih]

theorem leNat_leBytes {len n : ℕ} (h : n < 256 ^ len) : leNat (leBytes len n) = n := by
  induction len generalizing n with
  | zero =>
    rw [pow_zero, Nat.lt_one_iff] at h
    rw [h]
    rfl
  | succ len ih =>
    have hdiv : n / 256 < 256 ^ len := by
      rw [pow_succ] at h
      exact Nat.div_lt_of_lt_mul (by omega)
    change (UInt8.ofNat n).toNat + 256 * leNat (leBytes len (n / 256)) = n
    rw [ih hdiv, UInt8.toNat_ofNat']
    omega

theorem except_bind_eq_ok {ε α β : Type} {x : Except ε α} {f : α → Except ε β} {b : β} :
    (x >>= f) = .ok b ↔ ∃ a, x = .ok a ∧ f a = .ok b := by
  cases x with
  | error e => exact ⟨nofun, fun ⟨_, h, _⟩ => nomatch h⟩
  | ok a => exact ⟨fun h => ⟨a, rfl, h⟩, fun ⟨_, h, h'⟩ => by cases h; exact h'⟩

/-! ### Computations that do not panic -/

/-- The computation returns or fails, and does not panic. -/
def NoPanic {α : Type} (x : Except Failure α) : Prop := ∀ msg, x ≠ .error (.panic msg)

section NoPanic

variable {α β : Type} {x : Except Failure α}

theorem noPanic_ok (a : α) : NoPanic (.ok a : Except Failure α) := nofun

theorem noPanic_error (e : Error) : NoPanic (.error (.error e) : Except Failure α) := nofun

theorem NoPanic.bind {f : α → Except Failure β} (hx : NoPanic x)
    (hf : ∀ a, x = .ok a → NoPanic (f a)) : NoPanic (x >>= f) := by
  cases x with
  | error e =>
    intro msg h
    cases h
    exact hx msg rfl
  | ok a => exact hf a rfl

theorem NoPanic.context {msg : String} {e : Failure} (h : NoPanic (.error e : Except Failure α)) :
    NoPanic (.error (e.context msg) : Except Failure β) := by
  cases e with
  | error e => exact nofun
  | panic m => exact absurd rfl (h m)

end NoPanic

end YdeltaCrankers
