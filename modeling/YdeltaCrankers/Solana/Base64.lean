import YdeltaCrankers.Solana.Codec

/-!
# Base 64

`base64Encode` is the encoding of RFC 4648 with padding: three bytes make four digits, and the last
group of one or two bytes is filled up with zero bits and `=`.  `base64Decode` accepts exactly what
it returns.

**Main theorem**: `base64Decode_eq_some_iff`.
-/

namespace YdeltaCrankers

/-- The digits of base 64. -/
def base64Alphabet : List Char :=
  "ABCDEFGHIJKLMNOPQRSTUVWXYZabcdefghijklmnopqrstuvwxyz0123456789+/".toList

/-- The digit of the last six bits of a number. -/
def base64Digit (n : ℕ) : Char := base64Alphabet.getD (n % 64) '='

/-- The encoding of a byte string. -/
def base64Encode : List UInt8 → List Char
  | [] => []
  | [x] =>
    let n := 16 * x.toNat
    [base64Digit (n / 64), base64Digit n, '=', '=']
  | [x, y] =>
    let n := 4 * (256 * x.toNat + y.toNat)
    [base64Digit (n / 4096), base64Digit (n / 64), base64Digit n, '=']
  | x :: y :: z :: bytes =>
    let n := 65536 * x.toNat + 256 * y.toNat + z.toNat
    base64Digit (n / 262144) :: base64Digit (n / 4096) :: base64Digit (n / 64) :: base64Digit n ::
      base64Encode bytes

/-! ### Digits -/

theorem base64Digit_mod (n : ℕ) : base64Digit (n % 64) = base64Digit n := by
  rw [base64Digit, base64Digit, Nat.mod_mod]

theorem base64Value_digit (n : ℕ) : base64Value (base64Digit n) = some (n % 64) := by
  have hall : ∀ v < 64, base64Value (base64Digit v) = some v := by decide +kernel
  rw [← base64Digit_mod]
  exact hall (n % 64) (Nat.mod_lt n (by decide))

theorem base64Digit_ne_pad (n : ℕ) : base64Digit n ≠ '=' := by
  intro h
  have hvalue := base64Value_digit n
  rw [h] at hvalue
  cases hvalue

/-- The code of a digit, by its value. -/
theorem toNat_of_base64Value {c : Char} {v : ℕ} (h : base64Value c = some v) :
    65 ≤ c.toNat ∧ c.toNat ≤ 90 ∧ v = c.toNat - 65 ∨
      97 ≤ c.toNat ∧ c.toNat ≤ 122 ∧ v = c.toNat - 71 ∨
      48 ≤ c.toNat ∧ c.toNat ≤ 57 ∧ v = c.toNat + 4 ∨
      c.toNat = 43 ∧ v = 62 ∨ c.toNat = 47 ∧ v = 63 := by
  simp only [base64Value] at h
  split at h
  · cases h
    omega
  split at h
  · cases h
    omega
  split at h
  · cases h
    omega
  split at h
  · rename_i hplus
    cases h
    subst hplus
    decide
  split at h
  · rename_i hslash
    cases h
    subst hslash
    decide
  · cases h

/-- A digit is known from its value. -/
theorem base64Value_eq_some {c : Char} {v : ℕ} (h : base64Value c = some v) :
    v < 64 ∧ c = base64Digit v := by
  have hcode := toNat_of_base64Value h
  have hlt : v < 64 := by omega
  have hcode' := toNat_of_base64Value (base64Value_digit v)
  rw [Nat.mod_eq_of_lt hlt] at hcode'
  exact ⟨hlt, Char.toNat_inj.1 (by omega)⟩

theorem uint8_ofNat_eq {n : ℕ} {x : UInt8} (h : n % 256 = x.toNat) : UInt8.ofNat n = x := by
  refine UInt8.toNat_inj.1 ?_
  rw [UInt8.toNat_ofNat', h]

/-! ### Groups -/

/-- The last group of one byte. -/
theorem base64Two_eq_some_iff {a b : Char} {bytes : List UInt8} :
    base64Two a b = some bytes ↔ ∃ x, bytes = [x] ∧ a = base64Digit (16 * x.toNat / 64) ∧
      b = base64Digit (16 * x.toNat) := by
  constructor
  · intro h
    simp only [base64Two, Option.bind_eq_bind, Option.bind_eq_some_iff] at h
    obtain ⟨va, ha, vb, hb, h⟩ := h
    obtain ⟨hva, rfl⟩ := base64Value_eq_some ha
    obtain ⟨hvb, rfl⟩ := base64Value_eq_some hb
    split at h
    · rename_i hzero
      cases h
      have hx : (UInt8.ofNat ((64 * va + vb) / 16)).toNat = (64 * va + vb) / 16 := by
        rw [UInt8.toNat_ofNat', Nat.mod_eq_of_lt (by omega)]
      refine ⟨_, rfl, ?_, ?_⟩ <;> rw [hx]
      · rw [show 16 * ((64 * va + vb) / 16) / 64 = va by omega]
      · rw [← base64Digit_mod (16 * _), show 16 * ((64 * va + vb) / 16) % 64 = vb by omega]
    · cases h
  · rintro ⟨x, rfl, rfl, rfl⟩
    have hx := x.toNat_lt
    simp only [base64Two, base64Value_digit, Option.bind_eq_bind, Option.bind_some]
    rw [if_pos (by omega)]
    refine congrArg (fun y => some [y]) (uint8_ofNat_eq ?_)
    omega

/-- The last group of two bytes. -/
theorem base64Three_eq_some_iff {a b c : Char} {bytes : List UInt8} :
    base64Three a b c = some bytes ↔ ∃ x y, bytes = [x, y] ∧
      a = base64Digit (4 * (256 * x.toNat + y.toNat) / 4096) ∧
      b = base64Digit (4 * (256 * x.toNat + y.toNat) / 64) ∧
      c = base64Digit (4 * (256 * x.toNat + y.toNat)) := by
  constructor
  · intro h
    simp only [base64Three, Option.bind_eq_bind, Option.bind_eq_some_iff] at h
    obtain ⟨va, ha, vb, hb, vc, hc, h⟩ := h
    obtain ⟨hva, rfl⟩ := base64Value_eq_some ha
    obtain ⟨hvb, rfl⟩ := base64Value_eq_some hb
    obtain ⟨hvc, rfl⟩ := base64Value_eq_some hc
    split at h
    · rename_i hzero
      cases h
      -- the two low bits are zero, so that the digits are those of four times the bytes
      have hx : (UInt8.ofNat ((4096 * va + 64 * vb + vc) / 1024)).toNat =
          (4096 * va + 64 * vb + vc) / 1024 := by
        rw [UInt8.toNat_ofNat', Nat.mod_eq_of_lt (by omega)]
      have hy : (UInt8.ofNat ((4096 * va + 64 * vb + vc) / 4)).toNat =
          (4096 * va + 64 * vb + vc) / 4 % 256 := UInt8.toNat_ofNat'
      have hn : 4 * (256 * ((4096 * va + 64 * vb + vc) / 1024) +
          (4096 * va + 64 * vb + vc) / 4 % 256) = 4096 * va + 64 * vb + vc := by omega
      refine ⟨_, _, rfl, ?_, ?_, ?_⟩ <;> rw [hx, hy, hn]
      · rw [show (4096 * va + 64 * vb + vc) / 4096 = va by omega]
      · rw [← base64Digit_mod (_ / 64), show (4096 * va + 64 * vb + vc) / 64 % 64 = vb by omega]
      · rw [← base64Digit_mod (_ + vc), show (4096 * va + 64 * vb + vc) % 64 = vc by omega]
    · cases h
  · rintro ⟨x, y, rfl, rfl, rfl, rfl⟩
    have hx := x.toNat_lt
    have hy := y.toNat_lt
    simp only [base64Three, base64Value_digit, Option.bind_eq_bind, Option.bind_some]
    rw [if_pos (by omega)]
    refine congrArg₂ (fun u v => some [u, v]) (uint8_ofNat_eq ?_) (uint8_ofNat_eq ?_)
    · omega
    · omega

/-- The three bytes of four digits. -/
theorem base64Digits_eq {va vb vc vd : ℕ} (ha : va < 64) (hb : vb < 64) (hc : vc < 64)
    (hd : vd < 64) {x y z : UInt8}
    (hx : x = UInt8.ofNat ((262144 * va + 4096 * vb + 64 * vc + vd) / 65536))
    (hy : y = UInt8.ofNat ((262144 * va + 4096 * vb + 64 * vc + vd) / 256))
    (hz : z = UInt8.ofNat (262144 * va + 4096 * vb + 64 * vc + vd)) :
    65536 * x.toNat + 256 * y.toNat + z.toNat = 262144 * va + 4096 * vb + 64 * vc + vd := by
  rw [hx, hy, hz, UInt8.toNat_ofNat', UInt8.toNat_ofNat', UInt8.toNat_ofNat']
  omega

/-! ### Whole strings -/

theorem base64Decode_encode (bytes : List UInt8) :
    base64Decode (base64Encode bytes) = some bytes := by
  induction bytes using base64Encode.induct with
  | case1 => rfl
  | case2 x =>
    change base64Two _ _ = _
    exact base64Two_eq_some_iff.2 ⟨x, rfl, rfl, rfl⟩
  | case3 x y =>
    change (if _ then (if _ then _ else base64Three _ _ _) else _) = _
    rw [if_pos ⟨rfl, rfl⟩, if_neg (base64Digit_ne_pad _)]
    exact base64Three_eq_some_iff.2 ⟨x, y, rfl, rfl, rfl, rfl⟩
  | case4 x y z bytes ih =>
    have hx := x.toNat_lt
    have hy := y.toNat_lt
    have hz := z.toNat_lt
    rw [base64Encode, base64Decode, if_neg fun h => base64Digit_ne_pad _ h.2]
    simp only [base64Value_digit, ih, Option.bind_eq_bind, Option.bind_some]
    -- the digits add up to the number they were taken from
    have hn : 262144 * ((65536 * x.toNat + 256 * y.toNat + z.toNat) / 262144 % 64) +
        4096 * ((65536 * x.toNat + 256 * y.toNat + z.toNat) / 4096 % 64) +
        64 * ((65536 * x.toNat + 256 * y.toNat + z.toNat) / 64 % 64) +
        (65536 * x.toNat + 256 * y.toNat + z.toNat) % 64 =
          65536 * x.toNat + 256 * y.toNat + z.toNat := by omega
    rw [hn, uint8_ofNat_eq (x := x) (by omega), uint8_ofNat_eq (x := y) (by omega),
      uint8_ofNat_eq (x := z) (by omega)]

theorem eq_base64Encode {s : List Char} {bytes : List UInt8} (h : base64Decode s = some bytes) :
    s = base64Encode bytes := by
  induction s using base64Decode.induct generalizing bytes with
  | case1 =>
    cases h
    rfl
  | case2 a b d rest hlast =>
    rw [base64Decode, if_pos hlast, if_pos rfl] at h
    obtain ⟨x, rfl, rfl, rfl⟩ := base64Two_eq_some_iff.1 h
    obtain rfl : rest = [] := List.isEmpty_iff.1 hlast.1
    rw [hlast.2]
    rfl
  | case3 a b c d rest hlast hc =>
    rw [base64Decode, if_pos hlast, if_neg hc] at h
    obtain ⟨x, y, rfl, rfl, rfl, rfl⟩ := base64Three_eq_some_iff.1 h
    obtain rfl : rest = [] := List.isEmpty_iff.1 hlast.1
    rw [hlast.2]
    rfl
  | case4 a b c d rest hlast ih =>
    rw [base64Decode, if_neg hlast] at h
    simp only [Option.bind_eq_bind, Option.bind_eq_some_iff] at h
    obtain ⟨va, ha, vb, hb, vc, hc, vd, hd, tail, htail, h⟩ := h
    obtain ⟨hva, rfl⟩ := base64Value_eq_some ha
    obtain ⟨hvb, rfl⟩ := base64Value_eq_some hb
    obtain ⟨hvc, rfl⟩ := base64Value_eq_some hc
    obtain ⟨hvd, rfl⟩ := base64Value_eq_some hd
    cases h
    -- each digit is what is left of the number at its place
    rw [base64Encode, base64Digits_eq hva hvb hvc hvd rfl rfl rfl, ← ih htail]
    refine congrArg₂ _ ?_ (congrArg₂ _ ?_ (congrArg₂ _ ?_ (congrArg₂ _ ?_ rfl)))
    · rw [show (262144 * va + 4096 * vb + 64 * vc + vd) / 262144 = va by omega]
    · rw [← base64Digit_mod (_ / 4096),
        show (262144 * va + 4096 * vb + 64 * vc + vd) / 4096 % 64 = vb by omega]
    · rw [← base64Digit_mod (_ / 64),
        show (262144 * va + 4096 * vb + 64 * vc + vd) / 64 % 64 = vc by omega]
    · rw [← base64Digit_mod (_ + vd),
        show (262144 * va + 4096 * vb + 64 * vc + vd) % 64 = vd by omega]
  | case5 s hnil hfour =>
    unfold base64Decode at h
    split at h
    · exact absurd rfl hnil
    · exact absurd rfl (hfour _ _ _ _ _)
    · cases h

/-- **The decoder accepts what the encoder returns.** -/
theorem base64Decode_eq_some_iff {s : List Char} {bytes : List UInt8} :
    base64Decode s = some bytes ↔ s = base64Encode bytes :=
  ⟨eq_base64Encode, fun h => h ▸ base64Decode_encode bytes⟩

theorem base64Encode_ne_nil {bytes : List UInt8} (h : bytes ≠ []) : base64Encode bytes ≠ [] := by
  intro hnil
  have hdecode := base64Decode_encode bytes
  rw [hnil] at hdecode
  exact h (Option.some.inj hdecode).symm

theorem isWhitespace_base64Digit (n : ℕ) : isWhitespace (base64Digit n) = false := by
  have hcode := toNat_of_base64Value (base64Value_digit n)
  simp only [isWhitespace, Bool.or_eq_false_iff, decide_eq_false_iff_not, List.contains_eq_mem,
    List.mem_cons, List.not_mem_nil, or_false]
  omega

/-- An encoding is one word. -/
theorem isWhitespace_base64Encode {bytes : List UInt8} {c : Char} (hc : c ∈ base64Encode bytes) :
    isWhitespace c = false := by
  induction bytes using base64Encode.induct with
  | case1 => cases hc
  | case2 x =>
    simp only [base64Encode, List.mem_cons, List.not_mem_nil, or_false] at hc
    rcases hc with rfl | rfl | rfl | rfl
    · exact isWhitespace_base64Digit _
    · exact isWhitespace_base64Digit _
    · rfl
    · rfl
  | case3 x y =>
    simp only [base64Encode, List.mem_cons, List.not_mem_nil, or_false] at hc
    rcases hc with rfl | rfl | rfl | rfl
    · exact isWhitespace_base64Digit _
    · exact isWhitespace_base64Digit _
    · exact isWhitespace_base64Digit _
    · rfl
  | case4 x y z bytes ih =>
    simp only [base64Encode, List.mem_cons] at hc
    rcases hc with rfl | rfl | rfl | rfl | hc
    · exact isWhitespace_base64Digit _
    · exact isWhitespace_base64Digit _
    · exact isWhitespace_base64Digit _
    · exact isWhitespace_base64Digit _
    · exact ih hc

end YdeltaCrankers
