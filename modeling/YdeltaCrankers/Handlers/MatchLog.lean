import YdeltaCrankers.Handlers.MatchCranker
import YdeltaCrankers.Solana.Base64

/-!
# Fill counts in simulation logs

The program logs a `MatchCrankLog` as `Program data: ` and the base 64 of
`discriminant (8) | market (32) | cranker (32) | fills (4) | pad (4)`.  The match cranker takes the
fill count from the first line that is such a record.

* `lineFills_eq_some_iff` : what a single line says;
* `MatchCrankerHandler.parseMatchCrankFills_exact` (**main theorem**) : the parser finds the first
  record, if there is one, reads back what the program has logged, and never panics.
-/

namespace YdeltaCrankers

namespace MatchCrankerHandler

/-! ### The first word of a text -/

/-- `word` is what comes first in the text, between whitespace. -/
def FirstWord (text word : List Char) : Prop :=
  ∃ blank tail, text = blank ++ (word ++ tail) ∧ (∀ c ∈ blank, isWhitespace c = true) ∧
    word ≠ [] ∧ (∀ c ∈ word, isWhitespace c = false) ∧ ∀ c ∈ tail.head?, isWhitespace c = true

section Words

variable {text word tail : List Char}

theorem takeWhile_word (hword : ∀ c ∈ word, isWhitespace c = false)
    (htail : ∀ c ∈ tail.head?, isWhitespace c = true) :
    (word ++ tail).takeWhile (fun c => !isWhitespace c) = word := by
  rw [List.takeWhile_append_of_pos fun c hc => by rw [hword c hc]; rfl]
  cases tail with
  | nil => exact List.append_nil word
  | cons c tail =>
    rw [List.takeWhile_cons_of_neg, List.append_nil]
    rw [htail c rfl]
    exact Bool.false_ne_true

theorem firstToken_of_firstWord (h : FirstWord text word) : firstToken text = word := by
  obtain ⟨blank, tail, rfl, hblank, hne, hword, htail⟩ := h
  have hdrop : (blank ++ (word ++ tail)).dropWhile isWhitespace = word ++ tail := by
    rw [List.dropWhile_append_of_pos hblank]
    obtain ⟨c, rest, rfl⟩ := List.exists_cons_of_ne_nil hne
    rw [List.cons_append, List.dropWhile_cons_of_neg]
    rw [hword c List.mem_cons_self]
    exact Bool.false_ne_true
  simp only [firstToken, hdrop, takeWhile_word hword htail]
  rw [if_neg (by simpa using hne)]

/-- A token is the first word, unless the text is blank and then a token of its own. -/
theorem firstWord_of_firstToken (h : firstToken text = word) (hne : word ≠ [])
    (hword : ∀ c ∈ word, isWhitespace c = false) : FirstWord text word := by
  simp only [firstToken] at h
  split at h
  · -- a blank text is not a word
    subst h
    exact ⟨[], [], (List.append_nil text).symm, List.forall_mem_nil _, hne, hword, nofun⟩
  · refine ⟨text.takeWhile isWhitespace,
      (text.dropWhile isWhitespace).dropWhile fun c => !isWhitespace c, ?_, ?_, hne, hword, ?_⟩
    · rw [← h, List.takeWhile_append_dropWhile, List.takeWhile_append_dropWhile]
    · exact List.all_eq_true.1 List.all_takeWhile
    · intro c hc
      have hnot := List.head?_dropWhile_not (fun c => !isWhitespace c)
        (text.dropWhile isWhitespace)
      rw [Option.mem_def.1 hc] at hnot
      simpa using hnot

end Words

/-! ### Records -/

variable (ctx : HandlerContext)

/-- The line logs these bytes, and they are a `MatchCrankLog`. -/
def Records (line : String) (bytes : List UInt8) : Prop :=
  ∃ text, line.toList = "Program data: ".toList ++ text ∧ FirstWord text (base64Encode bytes) ∧
    80 ≤ bytes.length ∧ bytes.take 8 = ctx.y.matchCrankLogDiscriminant

/-- The fill count of a record. -/
def fillsOf (bytes : List UInt8) : UInt32 := UInt32.ofNat (leNat ((bytes.drop 72).take 4))

/-- What the program logs. -/
def matchCrankLogData (market cranker : Pubkey) (fills : UInt32) (pad : Bytes 4) : List UInt8 :=
  ctx.y.matchCrankLogDiscriminant ++
    (market.toList ++ (cranker.toList ++ (leBytes 4 fills.toNat ++ pad.toList)))

/-- The line in which it appears. -/
def matchCrankLogLine (market cranker : Pubkey) (fills : UInt32) (pad : Bytes 4) : String :=
  String.ofList ("Program data: ".toList ++
    base64Encode (matchCrankLogData ctx market cranker fills pad))

section Records

variable {ctx} {line : String} {logs : List String} {n : UInt32} {bytes : List UInt8}

/-- A token that decodes to 80 bytes or more is the first word. -/
theorem base64Decode_firstToken_iff {text : List Char} (hlen : 80 ≤ bytes.length) :
    base64Decode (firstToken text) = some bytes ↔ FirstWord text (base64Encode bytes) := by
  rw [base64Decode_eq_some_iff]
  constructor
  · intro h
    have hne : bytes ≠ [] := by
      rintro rfl
      exact absurd hlen (by decide)
    exact firstWord_of_firstToken h (base64Encode_ne_nil hne) fun c => isWhitespace_base64Encode
  · exact firstToken_of_firstWord

theorem lineFills_eq_some_iff :
    lineFills ctx line = some n ↔ ∃ bytes, Records ctx line bytes ∧ fillsOf bytes = n := by
  simp only [lineFills, Option.bind_eq_bind, Option.bind_eq_some_iff,
    List.dropPrefix?_eq_some_iff, beq_iff_eq]
  constructor
  · rintro ⟨text, ⟨_, hline, rfl⟩, bytes, hdecode, h⟩
    split at h
    · cases h
    rename_i hrecord
    rw [not_or, Nat.not_lt, ne_eq, not_not] at hrecord
    exact ⟨bytes, ⟨text, hline, (base64Decode_firstToken_iff hrecord.1).1 hdecode, hrecord⟩,
      Option.some.inj h⟩
  · rintro ⟨bytes, ⟨text, hline, hword, hlen, hdiscriminant⟩, rfl⟩
    refine ⟨text, ⟨_, hline, rfl⟩, bytes, (base64Decode_firstToken_iff hlen).2 hword, ?_⟩
    rw [if_neg (not_or.2 ⟨Nat.not_lt.2 hlen, not_not.2 hdiscriminant⟩)]
    rfl

theorem lineFills_eq_none_iff :
    lineFills ctx line = none ↔ ¬ ∃ bytes, Records ctx line bytes := by
  rw [Option.eq_none_iff_forall_ne_some]
  simp only [ne_eq, lineFills_eq_some_iff]
  constructor
  · rintro h ⟨bytes, hrecords⟩
    exact h (fillsOf bytes) ⟨bytes, hrecords, rfl⟩
  · rintro h _ ⟨bytes, hrecords, -⟩
    exact h ⟨bytes, hrecords⟩

theorem parseMatchCrankFills_eq_some_iff : parseMatchCrankFills ctx logs = some n ↔
    ∃ before line after bytes, logs = before ++ line :: after ∧
      (∀ l ∈ before, ¬ ∃ bytes, Records ctx l bytes) ∧ Records ctx line bytes ∧
        fillsOf bytes = n := by
  rw [parseMatchCrankFills, List.findSome?_eq_some_iff]
  simp only [lineFills_eq_none_iff, lineFills_eq_some_iff]
  constructor
  · rintro ⟨before, line, after, rfl, ⟨bytes, hrecords, hfills⟩, hbefore⟩
    exact ⟨before, line, after, bytes, rfl, hbefore, hrecords, hfills⟩
  · rintro ⟨before, line, after, bytes, rfl, hbefore, hrecords, hfills⟩
    exact ⟨before, line, after, rfl, ⟨bytes, hrecords, hfills⟩, hbefore⟩

theorem parseMatchCrankFills_eq_none_iff : parseMatchCrankFills ctx logs = none ↔
    ∀ line ∈ logs, ¬ ∃ bytes, Records ctx line bytes := by
  rw [parseMatchCrankFills, List.findSome?_eq_none_iff]
  simp only [lineFills_eq_none_iff]

/-- The line that the program emits is a record of what it has logged. -/
theorem records_matchCrankLogLine (hdiscriminant : ctx.y.matchCrankLogDiscriminant.length = 8)
    (market cranker : Pubkey) (fills : UInt32) (pad : Bytes 4) :
    Records ctx (matchCrankLogLine ctx market cranker fills pad)
        (matchCrankLogData ctx market cranker fills pad) ∧
      fillsOf (matchCrankLogData ctx market cranker fills pad) = fills := by
  have hlen : (matchCrankLogData ctx market cranker fills pad).length = 80 := by
    simp only [matchCrankLogData, List.length_append, hdiscriminant, Bytes.length_eq,
      length_leBytes]
  have hne : matchCrankLogData ctx market cranker fills pad ≠ [] := by
    intro hnil
    rw [hnil] at hlen
    cases hlen
  have hfirst : FirstWord (base64Encode (matchCrankLogData ctx market cranker fills pad))
      (base64Encode (matchCrankLogData ctx market cranker fills pad)) :=
    ⟨[], [], (List.append_nil _).symm, List.forall_mem_nil _, base64Encode_ne_nil hne,
      fun c => isWhitespace_base64Encode, nofun⟩
  have hfills : ((matchCrankLogData ctx market cranker fills pad).drop 72).take 4 =
      leBytes 4 fills.toNat := by
    have h72 : 72 = ctx.y.matchCrankLogDiscriminant.length +
        (market.toList.length + cranker.toList.length) := by
      rw [hdiscriminant, market.length_eq, cranker.length_eq]
    rw [matchCrankLogData, h72, ← List.drop_drop, List.drop_left, ← List.drop_drop, List.drop_left,
      List.drop_left]
    exact (List.take_left : (leBytes 4 fills.toNat ++ _).take (leBytes 4 fills.toNat).length = _)
  refine ⟨⟨_, String.toList_ofList, hfirst, hlen.ge, ?_⟩, ?_⟩
  · rw [matchCrankLogData, ← hdiscriminant, List.take_left]
  · rw [fillsOf, hfills, leNat_leBytes fills.toNat_lt, UInt32.ofNat_toNat]

end Records

/-! ### No panics -/

/-- `lineFills` with the slices of the source, which may panic. -/
def lineFillsSliced (line : String) : Except Failure (Option UInt32) :=
  match line.toList.dropPrefix? "Program data: ".toList with
  | none => return none
  | some rest =>
    match base64Decode (firstToken rest) with
    | none => return none
    | some bytes =>
      if bytes.length < 80 then return none
      else do
        let discriminant ← slice bytes 0 8
        if discriminant ≠ ctx.y.matchCrankLogDiscriminant then return none
        else do
          let fills ← slice bytes 72 76
          let fills ← toArray 4 fills
          return some (UInt32.ofNat (leNat fills.toList))

/-- `parseMatchCrankFills` with the slices of the source. -/
def parseMatchCrankFillsSliced : List String → Except Failure (Option UInt32)
  | [] => return none
  | line :: logs => do
    match ← lineFillsSliced ctx line with
    | some fills => return some fills
    | none => parseMatchCrankFillsSliced logs

theorem lineFillsSliced_eq (line : String) :
    lineFillsSliced ctx line = .ok (lineFills ctx line) := by
  unfold lineFillsSliced lineFills
  cases line.toList.dropPrefix? "Program data: ".toList with
  | none => rfl
  | some rest =>
    simp only [Option.bind_eq_bind, Option.bind_some]
    cases base64Decode (firstToken rest) with
    | none => rfl
    | some bytes =>
      simp only [Option.bind_some]
      by_cases hlen : bytes.length < 80
      · rw [if_pos hlen, if_pos (.inl hlen)]
        rfl
      -- from 80 bytes on, both slices are in bounds
      have hdiscriminant : slice bytes 0 8 = .ok (bytes.take 8) :=
        if_pos ⟨by decide, by omega⟩
      have hfills : slice bytes 72 76 = .ok ((bytes.drop 72).take 4) :=
        if_pos ⟨by decide, by omega⟩
      have harray : ((bytes.drop 72).take 4).length = 4 := by
        rw [List.length_take, List.length_drop]
        omega
      rw [if_neg hlen, hdiscriminant, hfills]
      by_cases hne : bytes.take 8 ≠ ctx.y.matchCrankLogDiscriminant
      · rw [if_pos (.inr hne)]
        exact if_pos hne
      · rw [if_neg (not_or.2 ⟨hlen, hne⟩)]
        refine (if_neg hne).trans ?_
        change (toArray 4 _ >>= _) = _
        rw [toArray, dif_pos harray]
        rfl

theorem parseMatchCrankFillsSliced_eq (logs : List String) :
    parseMatchCrankFillsSliced ctx logs = .ok (parseMatchCrankFills ctx logs) := by
  induction logs with
  | nil => rfl
  | cons line logs ih =>
    rw [parseMatchCrankFillsSliced, lineFillsSliced_eq, ih]
    simp only [parseMatchCrankFills, List.findSome?_cons]
    cases lineFills ctx line <;> rfl

/-- **Parsing is sound and complete.**  The fill count is that of the first record; there is none
exactly when no line is a record; what the program emits is read back, whatever is logged around it;
and no slice is out of range. -/
theorem parseMatchCrankFills_exact :
    (∀ logs n, parseMatchCrankFills ctx logs = some n ↔
      ∃ before line after bytes, logs = before ++ line :: after ∧
        (∀ l ∈ before, ¬ ∃ bytes, Records ctx l bytes) ∧ Records ctx line bytes ∧
          fillsOf bytes = n) ∧
    (∀ logs, parseMatchCrankFills ctx logs = none ↔
      ∀ line ∈ logs, ¬ ∃ bytes, Records ctx line bytes) ∧
    (∀ logs, parseMatchCrankFillsSliced ctx logs = .ok (parseMatchCrankFills ctx logs)) ∧
    (ctx.y.matchCrankLogDiscriminant.length = 8 →
      ∀ market cranker fills pad before after, (∀ l ∈ before, ¬ ∃ bytes, Records ctx l bytes) →
        parseMatchCrankFills ctx
          (before ++ matchCrankLogLine ctx market cranker fills pad :: after) = some fills) := by
  refine ⟨fun logs n => parseMatchCrankFills_eq_some_iff,
    fun logs => parseMatchCrankFills_eq_none_iff, parseMatchCrankFillsSliced_eq ctx, ?_⟩
  intro hdiscriminant market cranker fills pad before after hbefore
  obtain ⟨hrecords, hfills⟩ := records_matchCrankLogLine hdiscriminant market cranker fills pad
  exact parseMatchCrankFills_eq_some_iff.2 ⟨before, _, after, _, rfl, hbefore, hrecords, hfills⟩

/-- Three fills, logged after the invocation. -/
theorem parseMatchCrankFills_exact_sample :
    parseMatchCrankFills sampleHandlerContext
      (["Program invoke [1]"] ++
        matchCrankLogLine sampleHandlerContext (.fill 32 1) (.fill 32 2) 3 (.fill 4 0) ::
          ["Program success"]) = some 3 := by
  refine (parseMatchCrankFills_exact sampleHandlerContext).2.2.2 rfl _ _ _ _ _ _ fun l hl => ?_
  rw [List.mem_singleton.1 hl, ← lineFills_eq_none_iff]
  rfl

end MatchCrankerHandler

end YdeltaCrankers
