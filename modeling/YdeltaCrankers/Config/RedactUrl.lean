import Mathlib.Data.List.Basic

/-!
# `src/config.rs`: URLs in the log

`redactUrl` strips the query and the userinfo of a URL before it is logged.  A `Url` has the five
components that decide what is left; a string is the list of its characters.

**Main theorem**: `redactUrl_exact_iff`.
-/

namespace YdeltaCrankers

/-- `str::find`: the position at which the pattern first occurs. -/
def find (pat : List Char) : List Char → Option ℕ
  | [] => if pat.isEmpty then some 0 else none
  | c :: s => if pat.isPrefixOf (c :: s) then some 0 else (find pat s).map (· + 1)

/-- What separates the scheme. -/
def schemeSep : List Char := [':', '/', '/']

/-- Strip query string and userinfo before logging. -/
def redactUrl (url : List Char) : List Char :=
  let noQuery := url.takeWhile (· ≠ '?')
  match find schemeSep noQuery with
  | some schemeEnd =>
    let afterScheme := noQuery.drop (schemeEnd + 3)
    match find ['@'] afterScheme with
    | some pos => noQuery.take schemeEnd ++ schemeSep ++ afterScheme.drop (pos + 1)
    | none => noQuery
  | none => noQuery

/-! ### Finding a pattern -/

section Find

variable {c : Char} {pat s rest : List Char}

/-- A pattern does not occur before its first character does. -/
theorem find_append (hc : c ∉ s) : find (c :: pat) (s ++ c :: pat ++ rest) = some s.length := by
  induction s with
  | nil =>
    have hprefix : (c :: pat).isPrefixOf (c :: (pat ++ rest)) = true :=
      List.isPrefixOf_iff_prefix.2 (List.prefix_append (c :: pat) rest)
    exact if_pos hprefix
  | cons d s ih =>
    obtain ⟨hd, hs⟩ := List.ne_and_not_mem_of_not_mem_cons hc
    have hprefix : (c :: pat).isPrefixOf (d :: (s ++ c :: pat ++ rest)) = false := by
      rw [List.isPrefixOf, beq_false_of_ne hd, Bool.false_and]
    simp only [List.cons_append, find, hprefix, ih hs, List.length_cons]
    rfl

theorem find_eq_none (hc : c ∉ s) : find (c :: pat) s = none := by
  induction s with
  | nil => rfl
  | cons d s ih =>
    obtain ⟨hd, hs⟩ := List.ne_and_not_mem_of_not_mem_cons hc
    have hprefix : (c :: pat).isPrefixOf (d :: s) = false := by
      rw [List.isPrefixOf, beq_false_of_ne hd, Bool.false_and]
    simp only [find, hprefix, ih hs]
    rfl

end Find

/-! ### What is left of a URL -/

section Redact

variable {scheme rest userinfo query : List Char}

theorem redactUrl_eq (hcolon : ':' ∉ scheme) (hscheme : '?' ∉ scheme) (hrest : '?' ∉ rest) :
    redactUrl (scheme ++ schemeSep ++ rest ++ '?' :: query) =
      match find ['@'] rest with
      | some pos => scheme ++ schemeSep ++ rest.drop (pos + 1)
      | none => scheme ++ schemeSep ++ rest := by
  have hnoQuery : (scheme ++ schemeSep ++ rest ++ '?' :: query).takeWhile (· ≠ '?') =
      scheme ++ schemeSep ++ rest := by
    have hall : ∀ c ∈ scheme ++ schemeSep ++ rest, decide (c ≠ '?') = true := by
      intro c hc
      refine decide_eq_true fun h => ?_
      rw [h, List.mem_append, List.mem_append] at hc
      rcases hc with (hc | hc) | hc
      · exact hscheme hc
      · exact absurd hc (by decide)
      · exact hrest hc
    rw [List.takeWhile_append_of_pos hall]
    exact List.append_nil _
  have hfind : find schemeSep (scheme ++ schemeSep ++ rest) = some scheme.length :=
    find_append hcolon
  have hdrop : (scheme ++ schemeSep ++ rest).drop (scheme.length + 3) = rest := by
    have hlen : scheme.length + 3 = (scheme ++ schemeSep).length := by
      rw [List.length_append]
      rfl
    rw [hlen, List.drop_left]
  have htake : (scheme ++ schemeSep ++ rest).take scheme.length = scheme := by
    rw [List.append_assoc, List.take_left]
  simp only [redactUrl, hnoQuery, hfind, hdrop, htake]

/-- Everything up to the first `@` goes. -/
theorem redactUrl_of_at (hcolon : ':' ∉ scheme) (hscheme : '?' ∉ scheme)
    (hfirst : '@' ∉ userinfo) (hquery : '?' ∉ userinfo ++ '@' :: rest) :
    redactUrl (scheme ++ schemeSep ++ (userinfo ++ '@' :: rest) ++ '?' :: query) =
      scheme ++ schemeSep ++ rest := by
  have hfind : find ['@'] (userinfo ++ '@' :: rest) = some userinfo.length := by
    have h : find ['@'] (userinfo ++ ['@'] ++ rest) = some userinfo.length := find_append hfirst
    rwa [List.append_assoc] at h
  have hdrop : (userinfo ++ '@' :: rest).drop (userinfo.length + 1) = rest := by
    rw [List.drop_append]
    simp
  rw [redactUrl_eq hcolon hscheme hquery, hfind]
  simp only [hdrop]

/-- Without an `@`, only the query goes. -/
theorem redactUrl_of_not_at (hcolon : ':' ∉ scheme) (hscheme : '?' ∉ scheme) (hat : '@' ∉ rest)
    (hrest : '?' ∉ rest) :
    redactUrl (scheme ++ schemeSep ++ rest ++ '?' :: query) = scheme ++ schemeSep ++ rest := by
  rw [redactUrl_eq hcolon hscheme hrest, find_eq_none hat]

end Redact

/-! ### The components of a URL -/

/-- A URL with a query, and with or without userinfo. -/
structure Url where
  scheme : List Char
  userinfo : List Char
  host : List Char
  path : List Char
  query : List Char
  scheme_valid : ∀ c ∈ scheme, c ∉ [':', '/', '?', '#']
  userinfo_valid : ∀ c ∈ userinfo, c ∉ ['/', '?', '#']
  host_valid : ∀ c ∈ host, c ∉ ['@', '/', '?', '#']
  path_valid : ∀ c ∈ path, c ∉ ['?', '#']

namespace Url

variable (url : Url)

/-- `scheme://userinfo@host+path?query`. -/
def text : List Char :=
  url.scheme ++ schemeSep ++ (url.userinfo ++ '@' :: (url.host ++ url.path)) ++ '?' :: url.query

/-- `scheme://host+path?query`. -/
def textWithoutUserinfo : List Char :=
  url.scheme ++ schemeSep ++ (url.host ++ url.path) ++ '?' :: url.query

/-- `scheme://host+path`. -/
def redacted : List Char := url.scheme ++ schemeSep ++ (url.host ++ url.path)

variable {url}

theorem not_mem_of_valid {s : List Char} {c : Char} {forbidden : List Char}
    (h : ∀ c ∈ s, c ∉ forbidden) (hc : c ∈ forbidden) : c ∉ s := fun hmem => h c hmem hc

theorem colon_not_mem_scheme : ':' ∉ url.scheme := not_mem_of_valid url.scheme_valid (by decide)

theorem query_not_mem_scheme : '?' ∉ url.scheme := not_mem_of_valid url.scheme_valid (by decide)

theorem query_not_mem_hostPath : '?' ∉ url.host ++ url.path :=
  List.not_mem_append (not_mem_of_valid url.host_valid (by decide))
    (not_mem_of_valid url.path_valid (by decide))

theorem query_not_mem_authority :
    '?' ∉ url.userinfo ++ '@' :: (url.host ++ url.path) := by
  refine List.not_mem_append (not_mem_of_valid url.userinfo_valid (by decide)) ?_
  exact List.not_mem_cons_of_ne_of_not_mem (by decide) query_not_mem_hostPath

/-- The userinfo goes unless it has an `@` of its own. -/
theorem redactUrl_text_iff : redactUrl url.text = url.redacted ↔ '@' ∉ url.userinfo := by
  by_cases hat : '@' ∈ url.userinfo
  · -- what follows the first `@` of the userinfo is still there
    obtain ⟨u, v, huv, hfirst⟩ := List.eq_append_cons_of_mem hat
    have hsplit : url.userinfo ++ '@' :: (url.host ++ url.path) =
        u ++ '@' :: (v ++ '@' :: (url.host ++ url.path)) := by
      rw [huv, List.append_assoc, List.cons_append]
    have hquery : '?' ∉ u ++ '@' :: (v ++ '@' :: (url.host ++ url.path)) := by
      rw [← hsplit]
      exact query_not_mem_authority
    rw [text, hsplit, redactUrl_of_at colon_not_mem_scheme query_not_mem_scheme hfirst hquery,
      redacted]
    refine iff_of_false (fun heq => ?_) (not_not.2 hat)
    have hlen := congrArg List.length (List.append_cancel_left heq)
    rw [List.length_append, List.length_cons] at hlen
    omega
  · rw [text, redactUrl_of_at colon_not_mem_scheme query_not_mem_scheme hat
      query_not_mem_authority]
    exact iff_of_true rfl hat

/-- The host stays unless the path has an `@`. -/
theorem redactUrl_textWithoutUserinfo_iff :
    redactUrl url.textWithoutUserinfo = url.redacted ↔ '@' ∉ url.path := by
  have hhost : '@' ∉ url.host := not_mem_of_valid url.host_valid (by decide)
  by_cases hat : '@' ∈ url.path
  · -- everything up to the first `@` of the path is gone
    obtain ⟨u, v, huv, hfirst⟩ := List.eq_append_cons_of_mem hat
    have hsplit : url.host ++ url.path = (url.host ++ u) ++ '@' :: v := by
      rw [huv, List.append_assoc]
    have hquery : '?' ∉ (url.host ++ u) ++ '@' :: v := by
      rw [← hsplit]
      exact query_not_mem_hostPath
    rw [textWithoutUserinfo, redacted, hsplit, redactUrl_of_at colon_not_mem_scheme
      query_not_mem_scheme (List.not_mem_append hhost hfirst) hquery]
    refine iff_of_false (fun heq => ?_) (not_not.2 hat)
    have hlen := congrArg List.length (List.append_cancel_left heq)
    rw [List.length_append, List.length_cons] at hlen
    omega
  · rw [textWithoutUserinfo, redactUrl_of_not_at colon_not_mem_scheme query_not_mem_scheme
      (List.not_mem_append hhost hat) query_not_mem_hostPath]
    exact iff_of_true rfl hat

end Url

/-- What is logged of a URL is its scheme, host and path, whether it has userinfo or not. -/
def RedactsExactly (url : Url) : Prop :=
  redactUrl url.text = url.redacted ∧ redactUrl url.textWithoutUserinfo = url.redacted

/-- **Redaction is exact when the only `@` ends the userinfo.** -/
theorem redactUrl_exact_iff (url : Url) :
    RedactsExactly url ↔ '@' ∉ url.userinfo ∧ '@' ∉ url.path :=
  and_congr Url.redactUrl_text_iff Url.redactUrl_textWithoutUserinfo_iff

/-- Two such URLs that differ only in userinfo and query are logged alike. -/
theorem redactUrl_congr {url url' : Url} (hscheme : url.scheme = url'.scheme)
    (hhost : url.host = url'.host) (hpath : url.path = url'.path) (hat : '@' ∉ url.userinfo)
    (hat' : '@' ∉ url'.userinfo) : redactUrl url.text = redactUrl url'.text := by
  rw [Url.redactUrl_text_iff.2 hat, Url.redactUrl_text_iff.2 hat', Url.redacted, Url.redacted,
    hscheme, hhost, hpath]

theorem valid_of_all {s forbidden : List Char}
    (h : s.all (fun c => !forbidden.contains c) = true) : ∀ c ∈ s, c ∉ forbidden := by
  intro c hc
  simpa using List.all_eq_true.1 h c hc

/-- A URL whose password, and one whose path, has an `@`. -/
def sampleUrl (password path : List Char) (hpassword : ∀ c ∈ password, c ∉ ['/', '?', '#'])
    (hpath : ∀ c ∈ path, c ∉ ['?', '#']) : Url where
  scheme := "https".toList
  userinfo := "user:".toList ++ password
  host := "rpc.example".toList
  path := path
  query := "api-key=secret".toList
  scheme_valid := valid_of_all (by decide)
  userinfo_valid := List.forall_mem_append.2 ⟨valid_of_all (by decide), hpassword⟩
  host_valid := valid_of_all (by decide)
  path_valid := hpath

/-- A part of such a password is logged, and the host before such a path is lost. -/
theorem not_redactsExactly :
    redactUrl "https://user:p@ss@rpc.example/?api-key=secret".toList =
        "https://ss@rpc.example/".toList ∧
      redactUrl "https://rpc.example/v1@main?api-key=secret".toList = "https://main".toList ∧
      ¬ RedactsExactly (sampleUrl "p@ss".toList "/".toList (valid_of_all (by decide))
        (valid_of_all (by decide))) ∧
      ¬ RedactsExactly (sampleUrl "pass".toList "/v1@main".toList (valid_of_all (by decide))
        (valid_of_all (by decide))) := by
  refine ⟨by decide, by decide, fun h => ?_, fun h => ?_⟩
  · exact absurd h.1 (by decide)
  · exact absurd h.2 (by decide)

end YdeltaCrankers
