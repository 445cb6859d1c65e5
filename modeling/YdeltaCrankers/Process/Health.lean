import Mathlib.Data.List.TakeWhile
import YdeltaCrankers.Discovery.Exact
import YdeltaCrankers.Interaction.Concurrent
import YdeltaCrankers.Interaction.Interp
import YdeltaCrankers.Interaction.Leave
import YdeltaCrankers.Interaction.Permits
import YdeltaCrankers.Interaction.Rounds
import YdeltaCrankers.Process.Basic

/-!
# `src/health_server.rs`

The health server answers `/healthz` and `/readyz`.  A connection reads once, takes the second word
of the first line as the path, answers, and shuts down.

* `requestPath`, `response` : the path that is read from a request, and what it is answered.
* `handleConn`, `mainProg` : a connection, and `main` up to the point where it is ready.
* `spawn` : the loop that accepts connections.

**Main results**: which bytes are answered what, and that the length declared is wrong for
`not ready` (`response_requestPath`); a connection is told the truth, however the connections and
`main` take turns (`told_truth`); the server handles connections one by one, and stops
(`spawn_stops`).
-/

namespace YdeltaCrankers

open Interaction

namespace HealthServer

/-! ### Requests -/

/-- `text.lines().next()`, or the empty text. -/
def firstLine (text : List Char) : List Char :=
  let line := text.takeWhile (· ≠ '\n')
  if line ≠ text ∧ line.getLast? = some '\r' then line.dropLast else line

/-- The next part of a `SplitWhitespace`, or the empty text, and what is left to split. -/
def nextPart (parts : List Char) : List Char × List Char :=
  let parts := parts.dropWhile isWhitespace
  (parts.takeWhile fun c => !isWhitespace c, parts.dropWhile fun c => !isWhitespace c)

/-- The second word of a line. -/
def secondPart (line : List Char) : List Char := (nextPart (nextPart line).2).1

/-- The path in what was read. -/
def requestPath (buf : ByteArray) : String :=
  let request := (String.fromUTF8? buf).getD ""
  String.ofList (secondPart (firstLine request.toList))

/-- A word: characters that are no whitespace. -/
def IsWord (word : List Char) : Prop := word ≠ [] ∧ ∀ c ∈ word, isWhitespace c = false

/-- Whitespace in a line. -/
def IsGap (gap : List Char) : Prop := ∀ c ∈ gap, isWhitespace c = true ∧ c ≠ '\n'

/-- The first line of the text has `path` as its second word. -/
def RequestsPath (text path : List Char) : Prop :=
  ∃ lead method gap rest, text = lead ++ (method ++ (gap ++ (path ++ rest))) ∧
    IsGap lead ∧ IsWord method ∧ IsGap gap ∧ gap ≠ [] ∧ IsWord path ∧
    ∀ c ∈ rest.head?, isWhitespace c = true

section Words

variable {lead word rest : List Char}

theorem nextPart_append (hlead : ∀ c ∈ lead, isWhitespace c = true) (hword : IsWord word)
    (hrest : ∀ c ∈ rest.head?, isWhitespace c = true) :
    nextPart (lead ++ (word ++ rest)) = (word, rest) := by
  obtain ⟨c, word', rfl⟩ := List.exists_cons_of_ne_nil hword.1
  have hc : isWhitespace c = false := hword.2 c List.mem_cons_self
  have hdrop : (lead ++ (c :: word' ++ rest)).dropWhile isWhitespace = c :: word' ++ rest := by
    rw [List.dropWhile_append_of_pos hlead]
    simp [hc]
  have hnot : ∀ d ∈ c :: word', (!isWhitespace d) = true := fun d hd => by rw [hword.2 d hd]; rfl
  simp only [nextPart, hdrop]
  rw [List.takeWhile_append_of_pos hnot, List.dropWhile_append_of_pos hnot]
  cases rest with
  | nil => simp
  | cons d rest =>
    have hd : isWhitespace d = true := hrest d rfl
    simp [hd]

/-- How the parts are split. -/
theorem nextPart_eq (parts : List Char) : ∃ lead, (∀ c ∈ lead, isWhitespace c = true) ∧
    parts = lead ++ ((nextPart parts).1 ++ (nextPart parts).2) ∧
    (∀ c ∈ (nextPart parts).1, isWhitespace c = false) ∧
    ∀ c ∈ (nextPart parts).2.head?, isWhitespace c = true := by
  refine ⟨parts.takeWhile isWhitespace, fun c => List.mem_takeWhile_imp, ?_, ?_, ?_⟩
  · simp [nextPart]
  · intro c hc
    simpa using List.mem_takeWhile_imp hc
  · intro c hc
    have hhead := List.head?_dropWhile_not (fun c => !isWhitespace c)
      (parts.dropWhile isWhitespace)
    rw [show (parts.dropWhile isWhitespace).dropWhile (fun c => !isWhitespace c) =
      (nextPart parts).2 from rfl, Option.mem_def.1 hc] at hhead
    simpa using hhead

theorem secondPart_append {gap method path : List Char} (hlead : ∀ c ∈ lead, isWhitespace c = true)
    (hmethod : IsWord method) (hgap : ∀ c ∈ gap, isWhitespace c = true) (hne : gap ≠ [])
    (hpath : IsWord path) (hrest : ∀ c ∈ rest.head?, isWhitespace c = true) :
    secondPart (lead ++ (method ++ (gap ++ (path ++ rest)))) = path := by
  have hhead : ∀ c ∈ (gap ++ (path ++ rest)).head?, isWhitespace c = true := by
    intro c hc
    rw [List.head?_append_of_ne_nil _ hne] at hc
    exact hgap c (List.mem_of_mem_head? hc)
  rw [secondPart, nextPart_append hlead hmethod hhead, nextPart_append hgap hpath hrest]

/-- A line with a second word. -/
theorem secondPart_eq {line : List Char} (h : secondPart line ≠ []) :
    ∃ lead method gap rest, line = lead ++ (method ++ (gap ++ (secondPart line ++ rest))) ∧
      (∀ c ∈ lead, isWhitespace c = true) ∧ IsWord method ∧ (∀ c ∈ gap, isWhitespace c = true) ∧
      gap ≠ [] ∧ IsWord (secondPart line) ∧ ∀ c ∈ rest.head?, isWhitespace c = true := by
  obtain ⟨lead, hlead, hline, hmethod, hhead⟩ := nextPart_eq line
  obtain ⟨gap, hgap, hparts, hpath, hrest⟩ := nextPart_eq (nextPart line).2
  have hne : gap ≠ [] := by
    rintro rfl
    -- the second word would start with whitespace
    obtain ⟨c, path, hcons⟩ := List.exists_cons_of_ne_nil h
    rw [secondPart] at hcons
    rw [hcons] at hparts hpath
    rw [hparts] at hhead
    have hc := hhead c rfl
    rw [hpath c List.mem_cons_self] at hc
    cases hc
  have hword : (nextPart line).1 ≠ [] := by
    intro hnil
    -- with no first word the line is blank
    have hdrop : line.dropWhile isWhitespace = [] := by
      cases hline' : line.dropWhile isWhitespace with
      | nil => rfl
      | cons c cs =>
        have hc := List.head?_dropWhile_not isWhitespace line
        rw [hline'] at hc
        simp [nextPart, hline', show isWhitespace c = false from hc] at hnil
    apply h
    simp [secondPart, nextPart, hdrop]
  exact ⟨lead, _, gap, _, hparts ▸ hline, hlead, ⟨hword, hmethod⟩, hgap, hne, ⟨h, hpath⟩, hrest⟩

/-- What comes after the first line starts with whitespace. -/
theorem firstLine_eq (text : List Char) : ∃ rest, text = firstLine text ++ rest ∧
    (∀ c ∈ firstLine text, c ≠ '\n') ∧ ∀ c ∈ rest.head?, isWhitespace c = true := by
  have hline : ∀ c ∈ text.takeWhile (· ≠ '\n'), c ≠ '\n' := fun c hc => by
    simpa using List.mem_takeWhile_imp hc
  have hrest : ∀ c ∈ (text.dropWhile (· ≠ '\n')).head?, isWhitespace c = true := by
    intro c hc
    have hhead := List.head?_dropWhile_not (fun c => decide (c ≠ '\n')) text
    rw [Option.mem_def.1 hc] at hhead
    obtain rfl : c = '\n' := by simpa using hhead
    rfl
  unfold firstLine
  simp only
  split
  · rename_i hcr
    obtain ⟨line, hlast⟩ := List.getLast?_eq_some_iff.1 hcr.2
    refine ⟨'\r' :: text.dropWhile (· ≠ '\n'), ?_,
      fun c hc => hline c (List.mem_of_mem_dropLast hc), ?_⟩
    · rw [hlast, List.dropLast_concat]
      conv_lhs => rw [← List.takeWhile_append_dropWhile (p := (· ≠ '\n')) (l := text), hlast]
      simp
    · rintro c ⟨⟩
      rfl
  · exact ⟨_, List.takeWhile_append_dropWhile.symm, hline, hrest⟩

/-- The first line of a text with two words ends after the second one. -/
theorem firstLine_words {lead method gap path rest : List Char} (hlead : IsGap lead)
    (hmethod : IsWord method) (hgap : IsGap gap) (hpath : IsWord path)
    (hrest : ∀ c ∈ rest.head?, isWhitespace c = true) :
    ∃ tail, firstLine (lead ++ (method ++ (gap ++ (path ++ rest)))) =
      lead ++ (method ++ (gap ++ (path ++ tail))) ∧ ∀ c ∈ tail.head?, isWhitespace c = true := by
  have hwordnl : ∀ word, IsWord word → ∀ c ∈ word, decide (c ≠ '\n') = true := by
    intro word hword c hc
    refine decide_eq_true ?_
    rintro rfl
    exact absurd (hword.2 _ hc) (by decide)
  have hgapnl : ∀ gap, IsGap gap → ∀ c ∈ gap, decide (c ≠ '\n') = true := fun gap hgap c hc =>
    decide_eq_true (hgap c hc).2
  have hline : (lead ++ (method ++ (gap ++ (path ++ rest)))).takeWhile (· ≠ '\n') =
      lead ++ (method ++ (gap ++ (path ++ rest.takeWhile (· ≠ '\n')))) := by
    rw [List.takeWhile_append_of_pos (hgapnl lead hlead),
      List.takeWhile_append_of_pos (hwordnl method hmethod),
      List.takeWhile_append_of_pos (hgapnl gap hgap),
      List.takeWhile_append_of_pos (hwordnl path hpath)]
  have hhead : ∀ c ∈ (rest.takeWhile (· ≠ '\n')).head?, isWhitespace c = true := by
    intro c hc
    rw [List.head?_takeWhile] at hc
    exact hrest c ((Option.filter_eq_some_iff.1 hc).1)
  unfold firstLine
  simp only [hline]
  generalize rest.takeWhile (· ≠ '\n') = tail at hhead ⊢
  split
  · rename_i hcr
    have htail : tail ≠ [] := by
      rintro rfl
      -- the path does not end in a carriage return
      have hlast := hcr.2
      rw [List.append_nil, ← List.append_assoc, ← List.append_assoc,
        List.getLast?_append_of_ne_nil _ hpath.1] at hlast
      exact absurd (hpath.2 _ (List.mem_of_mem_getLast? hlast)) (by decide)
    refine ⟨tail.dropLast, ?_, fun c hc => ?_⟩
    · rw [← List.append_assoc, ← List.append_assoc, ← List.append_assoc,
        List.dropLast_append_of_ne_nil htail]
      simp only [List.append_assoc]
    · obtain ⟨d, tail, rfl⟩ := List.exists_cons_of_ne_nil htail
      cases tail with
      | nil => cases hc
      | cons d' tail => exact hhead c hc
  · exact ⟨tail, rfl, hhead⟩

/-- **What is read as the path** is the second word of the first line. -/
theorem secondPart_firstLine_iff {text path : List Char} (hpath : path ≠ []) :
    secondPart (firstLine text) = path ↔ RequestsPath text path := by
  constructor
  · rintro rfl
    obtain ⟨lead, method, gap, rest, hline, hlead, hmethod, hgap, hne, hword, hrest⟩ :=
      secondPart_eq hpath
    obtain ⟨after, htext, hnl, hafter⟩ := firstLine_eq text
    generalize secondPart (firstLine text) = path at hline hword
    rw [hline] at htext hnl
    refine ⟨lead, method, gap, rest ++ after, by simpa using htext, fun c hc => ⟨hlead c hc,
      hnl c (by simp [hc])⟩, hmethod, fun c hc => ⟨hgap c hc, hnl c (by simp [hc])⟩, hne, hword,
      fun c hc => ?_⟩
    cases rest with
    | nil => exact hafter c hc
    | cons d rest => exact hrest c hc
  · rintro ⟨lead, method, gap, rest, rfl, hlead, hmethod, hgap, hne, hword, hrest⟩
    obtain ⟨tail, hline, hhead⟩ := firstLine_words hlead hmethod hgap hword hrest
    rw [hline]
    exact secondPart_append (fun c hc => (hlead c hc).1) hmethod (fun c hc => (hgap c hc).1) hne
      hword hhead

end Words

/-- The bytes are a text that has `path` as the second word of its first line. -/
def Requests (buf : ByteArray) (path : String) : Prop :=
  ∃ text : String, text.toByteArray = buf ∧ RequestsPath text.toList path.toList

theorem fromUTF8?_eq_some_iff {buf : ByteArray} {text : String} :
    String.fromUTF8? buf = some text ↔ text.toByteArray = buf := by
  unfold String.fromUTF8?
  constructor
  · intro h
    split at h
    · cases h
      rfl
    · cases h
  · rintro rfl
    rw [dif_pos text.isValidUTF8]
    rfl

theorem requestPath_eq_iff {buf : ByteArray} {path : String} (hpath : path.toList ≠ []) :
    requestPath buf = path ↔ Requests buf path := by
  have hword : ∀ text : String, String.ofList (secondPart (firstLine text.toList)) = path ↔
      RequestsPath text.toList path.toList := by
    intro text
    rw [← secondPart_firstLine_iff hpath]
    exact ⟨fun h => by rw [← h, String.toList_ofList], fun h => by rw [h, String.ofList_toList]⟩
  unfold requestPath
  cases htext : String.fromUTF8? buf with
  | some text =>
    have hbuf := fromUTF8?_eq_some_iff.1 htext
    rw [Option.getD_some]
    refine (hword text).trans ⟨fun h => ⟨text, hbuf, h⟩, ?_⟩
    rintro ⟨text', htext', h⟩
    rwa [String.toByteArray_inj.1 (hbuf.trans htext'.symm)]
  | none =>
    constructor
    · intro h
      exact absurd (congrArg String.toList h).symm hpath
    · rintro ⟨text', htext', -⟩
      rw [fromUTF8?_eq_some_iff.2 htext'] at htext
      cases htext

/-! ### Responses -/

def okResponse : String := "HTTP/1.1 200 OK\r\nContent-Length: 3\r\n" ++
  "Content-Type: text/plain\r\nConnection: close\r\n\r\nok\n"

def readyResponse : String := "HTTP/1.1 200 OK\r\nContent-Length: 6\r\n" ++
  "Content-Type: text/plain\r\nConnection: close\r\n\r\nready\n"

def notReadyResponse : String := "HTTP/1.1 503 Service Unavailable\r\nContent-Length: 12\r\n" ++
  "Content-Type: text/plain\r\nConnection: close\r\n\r\nnot ready\n"

def notFoundResponse : String := "HTTP/1.1 404 Not Found\r\nContent-Length: 10\r\n" ++
  "Content-Type: text/plain\r\nConnection: close\r\n\r\nnot found\n"

/-- The response to a request for a path. -/
def response (path : String) (ready : Bool) : String :=
  match path with
  | "/healthz" => okResponse
  | "/readyz" => if ready then readyResponse else notReadyResponse
  | _ => notFoundResponse

theorem response_readyz (ready : Bool) :
    response "/readyz" ready = if ready then readyResponse else notReadyResponse := by
  simp only [response]

/-- What comes after the first occurrence of a text. -/
def after (pattern : List Char) : List Char → Option (List Char)
  | [] => none
  | c :: cs =>
    if pattern.isPrefixOf (c :: cs) then some ((c :: cs).drop pattern.length) else after pattern cs

/-- The length that a response declares for its body. -/
def declaredLength (response : List Char) : Option ℕ :=
  (after "Content-Length: ".toList response).map fun cs =>
    Nat.ofDigitChars 10 (cs.takeWhile Char.isDigit) 0

/-- The length of the body of a response, whose text is ASCII. -/
def bodyLength (response : List Char) : Option ℕ :=
  (after "\r\n\r\n".toList response).map List.length

/-- The response has a body, and declares its length. -/
def Framed (response : String) : Prop :=
  (bodyLength response.toList).isSome ∧ declaredLength response.toList = bodyLength response.toList

instance (response : String) : Decidable (Framed response) := instDecidableAnd

/-- The length declared is that of the body, unless the request asks whether a process is ready that
is not. -/
theorem response_of_requests (buf : ByteArray) (ready : Bool) :
    (Requests buf "/healthz" → response (requestPath buf) ready = okResponse) ∧
    (Requests buf "/readyz" →
      response (requestPath buf) ready = if ready then readyResponse else notReadyResponse) ∧
    (¬ Requests buf "/healthz" → ¬ Requests buf "/readyz" →
      response (requestPath buf) ready = notFoundResponse) ∧
    (Framed (response (requestPath buf) ready) ↔ ¬ (Requests buf "/readyz" ∧ ready = false)) := by
  have hhealthz : requestPath buf = "/healthz" ↔ Requests buf "/healthz" :=
    requestPath_eq_iff (by decide)
  have hreadyz : requestPath buf = "/readyz" ↔ Requests buf "/readyz" :=
    requestPath_eq_iff (by decide)
  rw [← hhealthz, ← hreadyz]
  generalize requestPath buf = path
  refine ⟨?_, ?_, ?_, ?_⟩
  · rintro rfl
    rfl
  · rintro rfl
    rfl
  · intro hnhealthz hnreadyz
    unfold response
    split <;> first | rfl | contradiction
  · have hok : Framed okResponse := by decide +kernel
    have hready : Framed readyResponse := by decide +kernel
    have hnotReady : ¬ Framed notReadyResponse := by decide +kernel
    have hnotFound : Framed notFoundResponse := by decide +kernel
    unfold response
    split
    · exact ⟨fun _ => fun h => absurd h.1 (by decide), fun _ => hok⟩
    · cases ready with
      | true => exact ⟨fun _ h => absurd h.2 (by decide), fun _ => hready⟩
      | false => exact ⟨fun h => absurd h hnotReady, fun h => absurd ⟨rfl, rfl⟩ h⟩
    · rename_i hne
      exact ⟨fun _ h => hne h.1, fun _ => hnotFound⟩

/-! ### Connections -/

/-- What `main` and the connections of the health server ask. -/
inductive NodeCall where
  /-- A call of the boot. -/
  | service (c : ServiceCall)
  /-- `ready.store(true)`. -/
  | setReady
  /-- `ready.load()`. -/
  | ready
  /-- `sock.read(&mut buf)`, the part of `buf` that was filled. -/
  | read
  | writeAll (response : String)
  | shutdown
deriving DecidableEq

/-- The reply of each call. -/
abbrev NodeCall.Reply : NodeCall → Type
  | .service c => c.Reply
  | .setReady => Unit
  | .ready => Bool
  | .read => Except String ByteArray
  | .writeAll _ | .shutdown => Except String Unit

/-- The process with its health server. -/
abbrev Node : Interface := ⟨NodeCall, NodeCall.Reply⟩

theorem node_reply_nonempty (c : NodeCall) : Nonempty c.Reply := by
  cases c with
  | service c => exact service_reply_nonempty c
  | setReady => exact ⟨()⟩
  | ready => exact ⟨false⟩
  | read | writeAll | shutdown => exact ⟨.error ""⟩

/-- `result?` on the reply of the operating system. -/
def orIoError {α : Type} : Except String α → Except Failure α
  | .ok a => .ok a
  | .error e => .error (.error (.anyhow e))

theorem eq_ok_of_orIoError {α : Type} {r : Except String α} {a : α} (h : orIoError r = .ok a) :
    r = .ok a := by
  cases r with
  | ok a' => exact congrArg _ (Except.ok.inj h)
  | error e => cases h

/-- The end of a connection. -/
def respond (response : String) : Async Node Unit := do
  let () ← @Fallible.ask Node Failure _ (.writeAll response) orIoError
  @Fallible.ask Node Failure _ .shutdown orIoError

/-- A connection; it looks at the flag for `/readyz` only. -/
def handleConn : Async Node Unit := do
  let buf ← @Fallible.ask Node Failure _ .read orIoError
  if buf.size = 0 then return ()
  else if requestPath buf = "/readyz" then do
    let ready ← @Fallible.query Node Failure .ready
    respond (response "/readyz" ready)
  else respond (response (requestPath buf) false)

/-- The answers that are written. -/
def written (t : Node.Trace) : List String :=
  t.filterMap fun e => match e with
    | ⟨.writeAll text, _⟩ => some text
    | _ => none

theorem respond_writes (text : String) :
    (respond text).Spec fun t _ => written t = [text] ∧ ∀ e ∈ t, e.call ≠ .ready :=
  Fallible.spec_ask_bind (fun r e _ => ⟨rfl, by simp⟩)
    fun r _ _ => Fallible.spec_ask fun r' => ⟨rfl, by simp⟩

/-- Once it has read, a connection is answered by the response to the path if it has read anything,
whatever the flag is if it looks at it. -/
theorem handleConn_writes : handleConn.Spec fun t _ =>
    ∀ buf t', t = ⟨.read, .ok buf⟩ :: t' →
      ∀ ready, (∀ e ∈ t', e.call = .ready → e = ⟨.ready, ready⟩) →
        written t' = if buf.size = 0 then [] else [response (requestPath buf) ready] := by
  refine Fallible.spec_ask_bind (fun r e hr buf t' ht => ?_) fun r buf hbuf => ?_
  · cases ht
    cases hr
  obtain rfl := eq_ok_of_orIoError hbuf
  split
  · rename_i hsize
    refine Fallible.spec_pure fun buf' t' ht ready _ => ?_
    cases ht
    rw [if_pos hsize]
    rfl
  split
  · rename_i hsize hpath
    refine Fallible.spec_query_bind fun flag => (respond_writes _).mono fun t _ h => ?_
    intro buf' t' ht ready hready
    cases ht
    cases hready _ List.mem_cons_self rfl
    rw [if_neg hsize, hpath]
    exact h.1
  · rename_i hsize hpath
    refine (respond_writes _).mono fun t _ h => ?_
    intro buf' t' ht ready _
    cases ht
    have hresponse : response (requestPath buf) false = response (requestPath buf) ready := by
      unfold response
      split <;> first | rfl | contradiction
    rw [if_neg hsize, ← hresponse]
    exact h.1

/-- **What a connection is answered.**  What it has read is answered once, by the response to the
path, and nothing if it has read nothing.  The length declared is that of the body, unless the
request asks whether a process is ready that is not. -/
theorem response_requestPath (buf : ByteArray) (ready : Bool) :
    (∀ t r, handleConn.run.Runs (⟨.read, .ok buf⟩ :: t) r →
      (∀ e ∈ t, e.call = .ready → e = ⟨.ready, ready⟩) →
        written t = if buf.size = 0 then [] else [response (requestPath buf) ready]) ∧
    (Requests buf "/healthz" → response (requestPath buf) ready = okResponse) ∧
    (Requests buf "/readyz" →
      response (requestPath buf) ready = if ready then readyResponse else notReadyResponse) ∧
    (¬ Requests buf "/healthz" → ¬ Requests buf "/readyz" →
      response (requestPath buf) ready = notFoundResponse) ∧
    (Framed (response (requestPath buf) ready) ↔ ¬ (Requests buf "/readyz" ∧ ready = false)) :=
  ⟨fun t r h => handleConn_writes _ r h buf t rfl ready, response_of_requests buf ready⟩

section Process

variable (cfg : Config) (sdk : Sdk) (y : Ydelta) (signers : Signers) (swbQueue : Pubkey)

/-- A call of the boot, made in the process with its health server. -/
def Node.service (c : ServiceCall) : Prog Node c.Reply := Prog.perform (I := Node) (.service c)

/-- What `main` does until it waits for the handlers. -/
def mainProg : Prog Node (Except Failure Unit) := do
  match ← (boot cfg sdk y signers swbQueue).run.interp Node.service with
  | .error err => return .error err
  | .ok _ => do
    let () ← Prog.perform (I := Node) .setReady
    return .ok ()

/-- `main`, and the connections by their numbers. -/
def nodeProg : Option ℕ → Prog Node (Except Failure Unit)
  | none => mainProg cfg sdk y signers swbQueue
  | some _ => handleConn.run

end Process

/-- The flag, as the process and its connections see it. -/
def Node.env : Env Node Bool where
  tick _ _ := False
  answer ready c r ready' := match c, r with
    | .setReady, _ => ready' = true
    | .ready, r => r = ready ∧ ready' = ready
    | _, _ => ready' = ready

/-! ### Who is told what -/

section Told

variable {cfg : Config} {sdk : Sdk} {y : Ydelta} {signers : Signers} {swbQueue : Pubkey}

variable (cfg sdk y signers swbQueue) in
/-- With these calls, `main` has booted and then set the flag. -/
def Started (t : Node.Trace) : Prop :=
  ∃ u ctx t₁, (boot cfg sdk y signers swbQueue).run.Runs u (.ok ctx) ∧
    Implements Node.service u t₁ ∧ t = t₁ ++ [⟨.setReady, ()⟩]

theorem not_setReady_of_implements {u : Service.Trace} {t : Node.Trace}
    (h : Implements Node.service u t) : ∀ e ∈ t, e.call ≠ .setReady := by
  induction h with
  | nil => exact List.forall_mem_nil _
  | cons hc _ ih =>
    obtain ⟨r, _, rfl, rfl, rfl⟩ := hc
    exact List.forall_mem_cons.2 ⟨nofun, ih⟩

theorem interp_not_setReady {t : Node.Trace} {p : Prog Node (Except Failure HandlerContext)}
    (h : ((boot cfg sdk y signers swbQueue).run.interp Node.service).Reaches t p) :
    ∀ e ∈ t, e.call ≠ .setReady := by
  refine Prog.Reaches.forall_mem node_reply_nonempty (fun t r hr => ?_) h
  obtain ⟨u, -, himp⟩ := Prog.runs_interp.1 hr
  exact not_setReady_of_implements himp

/-- `main` sets the flag once, after the boot. -/
theorem started_iff {t : Node.Trace} {p : Prog Node (Except Failure Unit)}
    (h : (mainProg cfg sdk y signers swbQueue).Reaches t p) :
    (∃ e ∈ t, e.call = .setReady) ↔ Started cfg sdk y signers swbQueue t := by
  constructor
  · rintro ⟨e, he, hcall⟩
    rcases Prog.reaches_bind h with ⟨p', hboot⟩ | ⟨t₁, r, t₂, rfl, hboot, hrest⟩
    · exact absurd hcall (interp_not_setReady hboot e he)
    · obtain ⟨u, hu, himp⟩ := Prog.runs_interp.1 hboot
      cases r with
      | error err =>
        obtain rfl := Prog.eq_nil_of_reaches_ret hrest
        rw [List.append_nil] at he
        exact absurd hcall (not_setReady_of_implements himp e he)
      | ok ctx =>
        cases t₂ with
        | nil =>
          rw [List.append_nil] at he
          exact absurd hcall (not_setReady_of_implements himp e he)
        | cons e' t₂ =>
          obtain ⟨r, rfl, hrest⟩ := hrest
          obtain rfl := Prog.eq_nil_of_reaches_ret hrest
          exact ⟨u, ctx, t₁, hu, himp, rfl⟩
  · rintro ⟨u, ctx, t₁, -, -, rfl⟩
    exact ⟨_, List.mem_append_right _ List.mem_cons_self, rfl⟩

/-- What a connection may answer after the calls and replies `t`. -/
def MayAnswer (t : Node.Trace) (c : NodeCall) : Prop :=
  c ≠ .setReady ∧ ∀ text, c = .writeAll text → ∃ buf, ⟨.read, .ok buf⟩ ∈ t ∧
    ((requestPath buf ≠ "/readyz" ∧ text = response (requestPath buf) false) ∨
      (requestPath buf = "/readyz" ∧ ∃ ready, ⟨.ready, ready⟩ ∈ t ∧
        text = response "/readyz" ready))

theorem mayAnswer_of_ne {t : Node.Trace} {c : NodeCall} (hset : c ≠ .setReady)
    (hwrite : ∀ text, c ≠ .writeAll text) : MayAnswer t c :=
  ⟨hset, fun text h => absurd h (hwrite text)⟩

theorem handleConn_obeys : handleConn.Spec fun t _ => Obeys (I := Node) MayAnswer t := by
  have hread : ∀ t, MayAnswer t .read := fun _ => mayAnswer_of_ne nofun nofun
  have hready : ∀ t, MayAnswer t .ready := fun _ => mayAnswer_of_ne nofun nofun
  have hshutdown : ∀ t, MayAnswer t .shutdown := fun _ => mayAnswer_of_ne nofun nofun
  -- the end of a connection, after the calls and replies `t`
  have hend : ∀ (t : Node.Trace) (text : String), MayAnswer t (.writeAll text) →
      (respond text).Spec fun t' _ => Obeys (I := Node) (fun s => MayAnswer (t ++ s)) t' := by
    intro t text htext
    have hwrite : MayAnswer (t ++ []) (.writeAll text) := by rwa [List.append_nil]
    refine Fallible.spec_ask_bind (fun r e _ => obeys_cons.2 ⟨hwrite, obeys_nil⟩) fun r _ _ => ?_
    exact Fallible.spec_ask fun r' => obeys_cons.2 ⟨hwrite, obeys_cons.2 ⟨hshutdown _, obeys_nil⟩⟩
  unfold handleConn
  refine Fallible.spec_ask_bind (fun r e _ => obeys_cons.2 ⟨hread [], obeys_nil⟩)
    fun r buf hbuf => ?_
  obtain rfl := eq_ok_of_orIoError hbuf
  split
  · exact Fallible.spec_pure (obeys_cons.2 ⟨hread [], obeys_nil⟩)
  split
  · rename_i hpath
    refine Fallible.spec_query_bind fun ready => ?_
    refine (hend [⟨.read, .ok buf⟩, ⟨.ready, ready⟩] (response "/readyz" ready) ⟨nofun, ?_⟩).mono
      fun t _ ht => obeys_cons.2 ⟨hread [], obeys_cons.2 ⟨hready _, ht⟩⟩
    intro text htext
    rw [← NodeCall.writeAll.inj htext]
    exact ⟨buf, by simp, .inr ⟨hpath, ready, by simp, rfl⟩⟩
  · rename_i hpath
    refine (hend [⟨.read, .ok buf⟩] (response (requestPath buf) false) ⟨nofun, ?_⟩).mono
      fun t _ ht => obeys_cons.2 ⟨hread [], ht⟩
    intro text htext
    rw [← NodeCall.writeAll.inj htext]
    exact ⟨buf, by simp, .inl ⟨hpath, rfl⟩⟩

/-- The flag is set if `main` has set it. -/
theorem Node.flag_iff {T : List (Bool × Node.Event)} {ready₀ ready : Bool}
    (h : Node.env.Timeline ready₀ T ready) :
    ready = true ↔ ready₀ = true ∨ ∃ x ∈ T, x.2.call = .setReady := by
  induction T generalizing ready₀ with
  | nil =>
    have hticks : ready₀ = ready := by
      refine Env.Ticks.invariant h rfl ?_
      intro _ _ _ htick
      exact htick.elim
    simp [hticks]
  | cons x T ih =>
    obtain ⟨hs, ready₁, ha, hT⟩ := h
    have hticks : ready₀ = x.1 := Env.Ticks.invariant hs rfl fun _ _ _ htick => htick.elim
    rw [ih hT, List.exists_mem_cons_iff, hticks]
    obtain ⟨s, c, r⟩ := x
    cases c with
    | setReady =>
      obtain rfl : ready₁ = true := ha
      simp
    | ready =>
      obtain ⟨-, rfl⟩ := ha
      simp
    | _ =>
      obtain rfl : ready₁ = s := ha
      simp

section Run

variable {i : ℕ} {s ready₁ : Bool} {T T₁ T₂ : List (Option ℕ × Bool × Node.Event)}
  {rest : Option ℕ → Prog Node (Except Failure Unit)}

/-- No connection sets the flag. -/
theorem main_of_setReady
    (h : Node.env.Interleaving (nodeProg cfg sdk y signers swbQueue) false T rest ready₁)
    {j : Option ℕ} {e : Node.Event} (he : (j, s, e) ∈ T) (hcall : e.call = .setReady) :
    e ∈ Env.eventsOf none T := by
  cases j with
  | none => exact Env.mem_eventsOf.2 ⟨s, he⟩
  | some j =>
    have hmem : e ∈ Env.eventsOf (some j) T := Env.mem_eventsOf.2 ⟨s, he⟩
    obtain ⟨t', r, hruns⟩ := (h.reaches (some j)).exists_runs node_reply_nonempty
    obtain ⟨t₁, t₂, hsplit⟩ := List.append_of_mem hmem
    have hmay := (handleConn_obeys _ _ hruns).of_append t₁ e t₂ hsplit
    exact absurd hcall hmay.1

/-- The flag shows whether `main` has started. -/
theorem ready_iff {r : Bool}
    (h : Node.env.Interleaving (nodeProg cfg sdk y signers swbQueue) false
      (T₁ ++ (some i, s, ⟨.ready, r⟩) :: T₂) rest ready₁) :
    r = true ↔ Started cfg sdk y signers swbQueue (Env.eventsOf none T₁) := by
  obtain ⟨ps₁, h₁, s₂, rfl, -⟩ := h.until
  rw [Node.flag_iff h₁.timeline, ← started_iff (h₁.reaches none)]
  constructor
  · rintro (hfalse | ⟨x, hx, hcall⟩)
    · cases hfalse
    · obtain ⟨⟨j, x⟩, hmem, rfl⟩ := List.mem_map.1 hx
      exact ⟨x.2, main_of_setReady h₁ hmem hcall, hcall⟩
  · rintro ⟨e, he, hcall⟩
    obtain ⟨s₁, hmem⟩ := Env.mem_eventsOf.1 he
    exact .inr ⟨(s₁, e), List.mem_map_of_mem (f := Prod.snd) hmem, hcall⟩

variable (cfg sdk y signers swbQueue) in
/-- What connection `i` may be told after the events of `T₁`. -/
inductive Truthful (i : ℕ) (T₁ : List (Option ℕ × Bool × Node.Event)) : String → Prop
  /-- It asked for something else. -/
  | other {buf} : ⟨.read, .ok buf⟩ ∈ Env.eventsOf (some i) T₁ → ¬ Requests buf "/readyz" →
      Truthful i T₁ (response (requestPath buf) false)
  /-- It was told whether the process had started when the flag was looked at. -/
  | readyz {buf T₀ s₀ ready T₀'} : ⟨.read, .ok buf⟩ ∈ Env.eventsOf (some i) T₁ →
      Requests buf "/readyz" → T₁ = T₀ ++ (some i, s₀, ⟨.ready, ready⟩) :: T₀' →
      (ready = true ↔ Started cfg sdk y signers swbQueue (Env.eventsOf none T₀)) →
      Truthful i T₁ (if ready then readyResponse else notReadyResponse)

/-- **Connections are told the truth**, however they and `main` take turns. -/
theorem told_truth {text : String} {r : Except String Unit}
    (h : Node.env.Interleaving (nodeProg cfg sdk y signers swbQueue) false
      (T₁ ++ (some i, s, ⟨.writeAll text, r⟩) :: T₂) rest ready₁) :
    Truthful cfg sdk y signers swbQueue i T₁ text := by
  have hreadyz : ∀ buf, requestPath buf = "/readyz" ↔ Requests buf "/readyz" := fun buf =>
    requestPath_eq_iff (by decide)
  obtain ⟨t', r', hruns⟩ := (h.reaches (some i)).exists_runs node_reply_nonempty
  rw [Env.eventsOf_append, Env.eventsOf_cons_self, List.append_assoc] at hruns
  obtain ⟨-, hmay⟩ := handleConn_obeys _ _ hruns _ _ _ rfl
  obtain ⟨buf, hread, ⟨hpath, htext⟩ | ⟨hpath, ready, hready, htext⟩⟩ := hmay text rfl
  · rw [htext]
    exact .other hread (mt (hreadyz buf).2 hpath)
  · obtain ⟨s₀, hmem⟩ := Env.mem_eventsOf.1 hready
    obtain ⟨T₀, T₀', rfl⟩ := List.append_of_mem hmem
    rw [List.append_assoc] at h
    have hstarted : ready = true ↔ Started cfg sdk y signers swbQueue (Env.eventsOf none T₀) :=
      ready_iff h
    rw [htext, response_readyz]
    exact .readyz hread ((hreadyz buf).1 hpath) rfl hstarted

end Run

end Told

/-! ### The server -/

/-- What the loop of the server asks. -/
inductive ServerCall where
  /-- `TcpListener::bind`. -/
  | bind
  /-- A connection, unless none comes in 250 ms. -/
  | accept
  /-- `stop.load(Relaxed)`. -/
  | stopRequested
  /-- Spawn `handle_conn`. -/
  | handle (conn : ℕ)
deriving DecidableEq

/-- The reply of each call. -/
abbrev ServerCall.Reply : ServerCall → Type
  | .bind => Except String Unit
  | .accept => Option (Except String ℕ)
  | .stopRequested => Bool
  | .handle _ => Unit

abbrev Server : Interface := ⟨ServerCall, ServerCall.Reply⟩

theorem server_reply_nonempty (c : ServerCall) : Nonempty c.Reply := by
  cases c with
  | bind => exact ⟨.ok ()⟩
  | accept => exact ⟨none⟩
  | stopRequested => exact ⟨false⟩
  | handle => exact ⟨()⟩

/-- Make a call. -/
abbrev Server.query (c : ServerCall) : Async Server c.Reply := @Fallible.query Server Failure c

/-- One round of the loop. -/
def acceptOnce : Async Server (Option Unit) := do
  let acceptOrStop ← Server.query .accept
  if ← Server.query .stopRequested then return none
  else match acceptOrStop with
    | some (.ok conn) => do
      let () ← Server.query (.handle conn)
      return some ()
    | _ => return some ()

/-- The server, for at most `n` rounds; the result is `none` when it has returned. -/
def spawn (n : ℕ) : Async Server (Option Unit) := do
  match ← Server.query .bind with
  | .error _ => return none
  | .ok () => Fallible.rounds (fun () => acceptOnce) n ()

/-- A poll that reads no stop gives leave to handle a connection. -/
def leave : Server.Event → Leave
  | ⟨.stopRequested, stop⟩ => if stop then .idle else .gives
  | ⟨.handle _, _⟩ => .uses
  | _ => .idle

/-- The call that the calls and replies so far make due: after an accept the stop flag is polled,
and a connection is handed over when the poll after its accept reads no stop. -/
def due (t : Server.Trace) : Option ServerCall :=
  match t.reverse with
  | ⟨.accept, _⟩ :: _ => some .stopRequested
  | ⟨.stopRequested, false⟩ :: ⟨.accept, some (.ok conn)⟩ :: _ => some (.handle conn)
  | _ => none

/-- What the loop may ask after the calls and replies `t`: the call that is due, and if none is, for
the next connection. -/
def MayServe (t : Server.Trace) (c : ServerCall) : Prop :=
  match due t with
  | some d => c = d
  | none => c = .bind ∨ c = .accept

/-- One round, from the accept on. -/
inductive AcceptRun : Server.Trace → Except Failure (Option Unit) → Prop
  | stopped (a : Option (Except String ℕ)) :
      AcceptRun [⟨.accept, a⟩, ⟨.stopRequested, true⟩] (.ok none)
  | idle {a : Option (Except String ℕ)} (h : ∀ conn, a ≠ some (.ok conn)) :
      AcceptRun [⟨.accept, a⟩, ⟨.stopRequested, false⟩] (.ok (some ()))
  | handled (conn : ℕ) : AcceptRun [⟨.accept, some (.ok conn)⟩, ⟨.stopRequested, false⟩,
      ⟨.handle conn, ()⟩] (.ok (some ()))

theorem acceptOnce_runs : acceptOnce.Spec AcceptRun := by
  refine Fallible.spec_query_bind fun a => Fallible.spec_query_bind fun stop => ?_
  cases stop with
  | true => exact Fallible.spec_pure (.stopped a)
  | false =>
    rw [if_neg Bool.false_ne_true]
    split
    · rename_i conn
      exact Fallible.spec_query_bind fun _ => Fallible.spec_pure (.handled conn)
    · rename_i hne
      exact Fallible.spec_pure (.idle hne)

theorem due_accept (u : Server.Trace) (a : Option (Except String ℕ)) :
    due (u ++ [⟨.accept, a⟩]) = some .stopRequested := by
  simp [due]

theorem due_stopped (u : Server.Trace) : due (u ++ [⟨.stopRequested, true⟩]) = none := by
  simp [due]

theorem due_handle (u : Server.Trace) (conn : ℕ) : due (u ++ [⟨.handle conn, ()⟩]) = none := by
  simp [due]

theorem due_accepted (u : Server.Trace) (conn : ℕ) :
    due (u ++ [⟨.accept, some (.ok conn)⟩, ⟨.stopRequested, false⟩]) = some (.handle conn) := by
  simp [due]

/-- No connection came, or the accept failed. -/
theorem due_idle (u : Server.Trace) {a : Option (Except String ℕ)}
    (ha : ∀ conn, a ≠ some (.ok conn)) :
    due (u ++ [⟨.accept, a⟩, ⟨.stopRequested, false⟩]) = none := by
  rcases a with _ | e | conn
  · simp [due]
  · simp [due]
  · exact absurd rfl (ha conn)

theorem mayServe_of_due {t : Server.Trace} {c : ServerCall} (h : due t = some c) :
    MayServe t c := by
  unfold MayServe
  rw [h]

theorem mayServe_accept {t : Server.Trace} (h : due t = none) : MayServe t .accept := by
  unfold MayServe
  rw [h]
  exact .inr rfl

/-- What is said of the loop from the head of a round on. -/
structure Serves (t : Server.Trace) : Prop where
  asksLeave : AsksLeave leave false t
  givenWithin : GivenWithin leave 3 2 t
  obeys : ∀ u : Server.Trace, due u = none → Obeys (fun s => MayServe (u ++ s)) t
  settles : ∀ u : Server.Trace, due u = none → due (u ++ t) = none

theorem serves_nil : Serves [] :=
  ⟨trivial, trivial, fun _ _ => obeys_nil, fun u hu => by rwa [List.append_nil]⟩

/-- The start of a round. -/
theorem obeys_accept {u t : Server.Trace} {a : Option (Except String ℕ)} {stop : Bool}
    (hu : due u = none)
    (h : Obeys (fun s => MayServe (u ++ [⟨.accept, a⟩, ⟨.stopRequested, stop⟩] ++ s)) t) :
    Obeys (fun s => MayServe (u ++ s))
      ((⟨.accept, a⟩ : Server.Event) :: ⟨.stopRequested, stop⟩ :: t) := by
  refine obeys_cons.2 ⟨mayServe_accept (by rwa [List.append_nil]), obeys_cons.2 ⟨?_, ?_⟩⟩
  · exact mayServe_of_due (due_accept u a)
  · refine h.mono fun s c hc => ?_
    rwa [List.append_assoc] at hc

theorem Serves.idle {a : Option (Except String ℕ)} (ha : ∀ conn, a ≠ some (.ok conn))
    {t : Server.Trace} (h : Serves t) :
    Serves (⟨.accept, a⟩ :: ⟨.stopRequested, false⟩ :: t) where
  asksLeave := (AsksLeave.cons_idle rfl).2 ((AsksLeave.cons_gives rfl).2 h.asksLeave.of_false)
  givenWithin := by
    have hpoll : GivenWithin leave 3 1 ((⟨.stopRequested, false⟩ : Server.Event) :: t) :=
      (GivenWithin.cons_gives rfl).2 (h.givenWithin.mono (by decide))
    exact (GivenWithin.cons_of_ne (by nofun)).2 ⟨1, rfl, hpoll⟩
  obeys u hu := obeys_accept hu (h.obeys _ (due_idle u ha))
  settles u hu := by
    have hnext := h.settles _ (due_idle u ha)
    rwa [List.append_assoc] at hnext

theorem Serves.handled (conn : ℕ) {t : Server.Trace} (h : Serves t) :
    Serves (⟨.accept, some (.ok conn)⟩ :: ⟨.stopRequested, false⟩ :: ⟨.handle conn, ()⟩ :: t) where
  asksLeave := (AsksLeave.cons_idle rfl).2 ((AsksLeave.cons_gives rfl).2
    ((AsksLeave.cons_uses rfl).2 ⟨rfl, h.asksLeave⟩))
  givenWithin := by
    have hhandle : GivenWithin leave 3 3 ((⟨.handle conn, ()⟩ : Server.Event) :: t) :=
      (GivenWithin.cons_of_ne (by nofun)).2 ⟨2, rfl, h.givenWithin⟩
    have hpoll : GivenWithin leave 3 1
        ((⟨.stopRequested, false⟩ : Server.Event) :: ⟨.handle conn, ()⟩ :: t) :=
      (GivenWithin.cons_gives rfl).2 hhandle
    exact (GivenWithin.cons_of_ne (by nofun)).2 ⟨1, rfl, hpoll⟩
  obeys u hu := by
    have hdue := due_handle (u ++ [⟨.accept, some (.ok conn)⟩, ⟨.stopRequested, false⟩]) conn
    refine obeys_accept hu (obeys_cons.2 ⟨?_, (h.obeys _ hdue).mono fun s c hc => ?_⟩)
    · rw [List.append_nil]
      exact mayServe_of_due (due_accepted u conn)
    · rwa [List.append_assoc] at hc
  settles u hu := by
    have hnext := h.settles _
      (due_handle (u ++ [⟨.accept, some (.ok conn)⟩, ⟨.stopRequested, false⟩]) conn)
    rwa [List.append_assoc, List.append_assoc] at hnext

theorem serves_stopped (a : Option (Except String ℕ)) :
    Serves [⟨.accept, a⟩, ⟨.stopRequested, true⟩] where
  asksLeave := trivial
  givenWithin := (GivenWithin.cons_of_ne (by nofun)).2 ⟨1, rfl,
    (GivenWithin.cons_of_ne (by nofun)).2 ⟨0, rfl, trivial⟩⟩
  obeys _ hu := obeys_accept hu obeys_nil
  settles u _ := by
    rw [List.append_cons]
    exact due_stopped (u ++ [⟨.accept, a⟩])

theorem rounds_serves (n : ℕ) :
    (Fallible.rounds (fun () => acceptOnce) n ()).Spec fun t _ => Serves t := by
  refine Fallible.spec_rounds (Q := fun _ t _ => Serves t) (fun _ => serves_nil) (fun _ => ?_) n ()
  refine acceptOnce_runs.mono fun t r h => ?_
  cases h with
  | stopped a => exact serves_stopped a
  | idle ha => exact fun t' _ h' => h'.idle ha
  | handled conn => exact fun t' _ h' => h'.handled conn

theorem spawn_serves (n : ℕ) : (spawn n).Spec fun t _ =>
    Obeys (I := Server) MayServe t ∧ due t = none ∧ AsksLeave leave false t ∧
      GivenWithin leave 3 3 t := by
  refine Fallible.spec_query_bind fun r => ?_
  cases r with
  | error e =>
    exact Fallible.spec_pure ⟨obeys_cons.2 ⟨.inl rfl, obeys_nil⟩, rfl, trivial,
      (GivenWithin.cons_of_ne (by nofun)).2 ⟨2, rfl, trivial⟩⟩
  | ok =>
    refine (rounds_serves n).mono fun t _ h => ⟨obeys_cons.2 ⟨.inl rfl, ?_⟩,
      h.settles [⟨.bind, .ok ()⟩] rfl, (AsksLeave.cons_idle rfl).2 h.asksLeave,
      (GivenWithin.cons_of_ne (by nofun)).2 ⟨2, rfl, h.givenWithin⟩⟩
    exact h.obeys [⟨.bind, .ok ()⟩] rfl

/-- A call that is due is the next one. -/
theorem spawn_due {n : ℕ} {t : Server.Trace} {p : Prog Server (Except Failure (Option Unit))}
    (h : (spawn n).run.Reaches t p) {d : ServerCall} (hd : due t = some d) :
    ∃ k, p = .call d k := by
  cases p with
  | ret r =>
    -- what has ended owes no call
    obtain ⟨-, hdue, -⟩ := spawn_serves n t r (by simpa using h.runs (Prog.runs_ret.2 ⟨rfl, rfl⟩))
    rw [hd] at hdue
    cases hdue
  | call c k =>
    obtain ⟨r⟩ := server_reply_nonempty c
    obtain ⟨t', a, hruns⟩ := (h.snoc rfl (r := r)).exists_runs server_reply_nonempty
    obtain ⟨hobeys, -⟩ := spawn_serves n _ a hruns
    have hmay := hobeys t ⟨c, r⟩ t' (by simp)
    unfold MayServe at hmay
    rw [hd] at hmay
    obtain rfl : c = d := hmay
    exact ⟨k, rfl⟩

/-- The call hands a connection over. -/
def handles : Server.Event → Bool
  | ⟨.handle _, _⟩ => true
  | _ => false

theorem uses_leave (t : Server.Trace) : uses leave t = t.countP handles := by
  refine List.countP_congr fun e _ => ?_
  rw [decide_eq_true_iff]
  obtain ⟨c, r⟩ := e
  cases c with
  | stopRequested => cases r <;> decide
  | handle conn => exact ⟨fun _ => rfl, fun _ => rfl⟩
  | _ => exact ⟨nofun, nofun⟩

/-- **The server serves one connection at a time, and stops.**  Every accept is followed by a poll
of the stop flag, and a connection is handed over if that poll reads no stop, and only then, before
anything else is asked; and from where the polls read a stop the server makes three calls at most,
and hands one connection over at most. -/
theorem spawn_stops {n : ℕ} {t t' : Server.Trace} {p : Prog Server (Except Failure (Option Unit))}
    (h : (spawn n).run.Reaches (t ++ t') p) (hstop : ∀ e ∈ t', e ≠ ⟨.stopRequested, false⟩) :
    Obeys (I := Server) MayServe (t ++ t') ∧ (∀ d, due (t ++ t') = some d → ∃ k, p = .call d k) ∧
      t'.length ≤ 3 ∧ t'.countP handles ≤ 1 := by
  have hno : ∀ e ∈ t', leave e ≠ .gives := by
    rintro ⟨c, r⟩ he hgives
    cases c with
    | stopRequested =>
      cases r with
      | true => cases hgives
      | false => exact hstop _ he rfl
    | _ => cases hgives
  obtain ⟨t'', r, hruns⟩ := h.exists_runs server_reply_nonempty
  obtain ⟨hobeys, -, hasks, hgiven⟩ := spawn_serves n _ r hruns
  refine ⟨hobeys.of_append, fun d hd => spawn_due h hd, ?_, ?_⟩
  · exact (hgiven.of_append (Nat.le_refl 3)).1.length_le_of_append (Nat.le_refl 3) hno
  · rw [← uses_leave]
    exact hasks.of_append.1.uses_le_one hno

/-- A connection is accepted and handed over, and the next one is dropped: the stop comes between
its accept and the poll. -/
theorem spawn_stops_sample : ∃ t t' p, (spawn 3).run.Reaches (t ++ t') p ∧
    t' = [⟨.handle 0, ()⟩, ⟨.accept, some (.ok 1)⟩, ⟨.stopRequested, true⟩] ∧
    Obeys (I := Server) MayServe (t ++ t') ∧ t'.length ≤ 3 ∧ t'.countP handles ≤ 1 := by
  let t : Server.Trace := [⟨.bind, .ok ()⟩, ⟨.accept, some (.ok 0)⟩, ⟨.stopRequested, false⟩]
  let t' : Server.Trace :=
    [⟨.handle 0, ()⟩, ⟨.accept, some (.ok 1)⟩, ⟨.stopRequested, true⟩]
  have h : (spawn 3).run.Runs (t ++ t') (.ok none) :=
    ⟨_, _, rfl, _, _, rfl, _, _, rfl, _, _, rfl, _, _, rfl, _, _, rfl, rfl, rfl⟩
  obtain ⟨hobeys, -, hstops⟩ := spawn_stops h.reaches (by simp [t'])
  exact ⟨t, t', _, h.reaches, rfl, hobeys, hstops⟩

/-! ### A probe before the boot, and one after it -/

/-- A request for `/readyz`. -/
def readyzRequest : String := "GET /readyz HTTP/1.1\r\nHost: probe\r\n\r\n"

/-- The chain has one market, and the probes ask whether the process is ready. -/
def probedReply (ready : Bool) : (c : NodeCall) → c.Reply
  | .service (.client (.getProgramAccounts _ _)) => .ok [sampleMarketRow 31 1 2 11 12]
  | .service (.client (.getMultipleAccounts pks)) => .ok (pks.map BankRegistry.sampleAccount)
  | .service (.client .getSlot) => .ok 0
  | .service (.process (.banksSet _)) => true
  | .service c => sampleReply [] sampleBanks c
  | .setReady => ()
  | .ready => ready
  | .read => .ok readyzRequest.toByteArray
  | .writeAll _ | .shutdown => .ok ()

/-- The flag after a call. -/
def probedNext (ready : Bool) (c : NodeCall) (_ : c.Reply) : Bool :=
  match c with
  | .setReady => true
  | _ => ready

/-- A connection asks after four calls of the boot, and another one after the boot. -/
def probedRun : List (Option ℕ × Bool × Node.Event) × (Option ℕ → Prog Node (Except Failure Unit)) ×
    Bool :=
  Env.scheduled probedReply probedNext
    (List.replicate 4 none ++ List.replicate 4 (some 0) ++ List.replicate 40 none ++
      List.replicate 4 (some 1))
    (nodeProg sampleConfig .plain .plain sampleSigners defaultSwbQueue) false

theorem probedRun_interleaving : Node.env.Interleaving
    (nodeProg sampleConfig .plain .plain sampleSigners defaultSwbQueue) false probedRun.1
    probedRun.2.1 probedRun.2.2 := by
  refine Env.interleaving_scheduled (fun ready c => ?_) _ _ _
  cases c with
  | ready => exact ⟨rfl, rfl⟩
  | _ => rfl

/-- The connection is told that the process is ready. -/
def toldReady (x : Option ℕ × Bool × Node.Event) : Bool :=
  x.1 == some 1 && x.2.2.call == .writeAll readyResponse

theorem told_truth_sample : ∃ T₁ s r T₂,
    probedRun.1 = T₁ ++ (some 1, s, ⟨.writeAll readyResponse, r⟩) :: T₂ ∧
      Truthful sampleConfig .plain .plain sampleSigners defaultSwbQueue 1 T₁ readyResponse := by
  have htold : probedRun.1.any toldReady = true := by decide +kernel
  obtain ⟨⟨j, s, c, r⟩, hmem, hx⟩ := List.any_eq_true.1 htold
  obtain ⟨hj, hc⟩ := Bool.and_eq_true_iff.1 hx
  cases beq_iff_eq.1 hj
  cases beq_iff_eq.1 hc
  obtain ⟨T₁, T₂, hsplit⟩ := List.append_of_mem hmem
  have h := probedRun_interleaving
  rw [hsplit] at h
  exact ⟨T₁, s, r, T₂, hsplit, told_truth h⟩

end HealthServer

end YdeltaCrankers
