import YdeltaCrankers.Interaction.Basic

/-!
# Specifications of programs by their traces

`Prog.Spec p Q` says that `Q t a` holds of every run of `p`, where `t` is the run's trace and
`a` what `p` returns.  The rules below prove such a specification by following the text of the
program: one rule for each way of building programs, the calls already made being pushed into
the postcondition.

Programs that can fail are `Fallible I ε α`: they stop at the first failure.  `Fallible.ask`
makes a call whose reply may be a failure, `Fallible.attempt` turns some failures into values.
-/

namespace Interaction

namespace Prog

variable {I : Interface} {α β : Type}

/-- Whenever `p` returns `a` after the calls and replies `t`, `Q t a` holds. -/
def Spec (p : Prog I α) (Q : I.Trace → α → Prop) : Prop := ∀ t a, p.Runs t a → Q t a

variable {p : Prog I α} {Q R : I.Trace → α → Prop}

theorem Spec.mono (h : p.Spec Q) (hQ : ∀ t a, Q t a → R t a) : p.Spec R :=
  fun t a hr => hQ t a (h t a hr)

theorem Spec.and (h : p.Spec Q) (h' : p.Spec R) : p.Spec fun t a => Q t a ∧ R t a :=
  fun t a hr => ⟨h t a hr, h' t a hr⟩

theorem spec_ret {a : α} (h : Q [] a) : (Prog.ret a).Spec Q := by
  rintro t b ⟨rfl, rfl⟩; exact h

theorem spec_call {c : I.Call} {k : I.Reply c → Prog I α}
    (h : ∀ r, (k r).Spec fun t a => Q (⟨c, r⟩ :: t) a) : (Prog.call c k).Spec Q := by
  rintro t a ⟨r, t', rfl, hr⟩; exact h r t' a hr

theorem spec_bind {f : α → Prog I β} {S : I.Trace → β → Prop} (h : p.Spec Q)
    (hf : ∀ t a, Q t a → (f a).Spec fun t' b => S (t ++ t') b) : (p >>= f).Spec S := by
  intro t b hr
  obtain ⟨t₁, a, t₂, rfl, h₁, h₂⟩ := runs_bind.1 hr
  exact hf t₁ a (h t₁ a h₁) t₂ b h₂

/-- A property of the events of finished runs holds of the events of unfinished ones too. -/
theorem Reaches.forall_mem {G : I.Event → Prop} (hI : ∀ c, Nonempty (I.Reply c))
    (h : p.Spec fun t _ => ∀ e ∈ t, G e) {t : I.Trace} {p' : Prog I α} (hr : p.Reaches t p') :
    ∀ e ∈ t, G e := by
  obtain ⟨t', a, hr'⟩ := hr.exists_runs hI
  exact fun e he => h _ a hr' e (List.mem_append_left t' he)

end Prog

/-- A program that can fail with an `ε`, and then stops. -/
abbrev Fallible (I : Interface) (ε α : Type) := ExceptT ε (Prog I) α

namespace Fallible

variable {I : Interface} {ε ε' α β : Type}

/-- `Prog.Spec` of a program that can fail. -/
def Spec (x : Fallible I ε α) (Q : I.Trace → Except ε α → Prop) : Prop := Prog.Spec x.run Q

/-- Make the call `c`; `conv` says which replies are failures. -/
def ask (c : I.Call) (conv : I.Reply c → Except ε α) : Fallible I ε α :=
  ExceptT.mk (.call c fun r => .ret (conv r))

/-- Make a call whose reply cannot be a failure. -/
def query (c : I.Call) : Fallible I ε (I.Reply c) := ask c .ok

/-- Run `x` and return its failure as a value if `recover` accepts it. -/
def attempt (recover : ε → Option ε') (x : Fallible I ε α) : Fallible I ε (Except ε' α) :=
  ExceptT.mk (x.run >>= fun
    | .ok a => .ret (.ok (.ok a))
    | .error e => match recover e with
      | some e' => .ret (.ok (.error e'))
      | none => .ret (.error e))

/-- Run `x`, changing its failure. -/
def mapError (f : ε → ε) (x : Fallible I ε α) : Fallible I ε α :=
  ExceptT.mk (x.run >>= fun r => .ret (r.mapError f))

variable {x : Fallible I ε α} {Q R : I.Trace → Except ε α → Prop}

theorem Spec.mono (h : x.Spec Q) (hQ : ∀ t r, Q t r → R t r) : x.Spec R := Prog.Spec.mono h hQ

theorem Spec.and (h : x.Spec Q) (h' : x.Spec R) : x.Spec fun t r => Q t r ∧ R t r :=
  Prog.Spec.and h h'

theorem spec_pure {a : α} (h : Q [] (.ok a)) : Spec (pure a : Fallible I ε α) Q :=
  Prog.spec_ret h

theorem spec_throw {e : ε} (h : Q [] (.error e)) : Spec (throw e : Fallible I ε α) Q :=
  Prog.spec_ret h

theorem spec_ask {c : I.Call} {conv : I.Reply c → Except ε α}
    (h : ∀ r, Q [⟨c, r⟩] (conv r)) : Spec (ask c conv) Q :=
  Prog.spec_call fun r => Prog.spec_ret (h r)

theorem spec_bind {f : α → Fallible I ε β} {S : I.Trace → Except ε β → Prop} (h : x.Spec Q)
    (herr : ∀ t e, Q t (.error e) → S t (.error e))
    (hok : ∀ t a, Q t (.ok a) → (f a).Spec fun t' r => S (t ++ t') r) : (x >>= f).Spec S := by
  refine Prog.spec_bind h fun t r hr => ?_
  cases r with
  | error e => exact Prog.spec_ret (by simpa using herr t e hr)
  | ok a => exact hok t a hr

/-- The rule for what is said of values only. -/
theorem spec_ok_bind {f : α → Fallible I ε β} {P : α → Prop} {P' : β → Prop}
    (h : x.Spec fun _ r => ∀ a, r = .ok a → P a)
    (hf : ∀ a, P a → (f a).Spec fun _ r => ∀ b, r = .ok b → P' b) :
    (x >>= f).Spec fun _ r => ∀ b, r = .ok b → P' b :=
  spec_bind h (fun _ _ _ _ => nofun) fun _ a ha => hf a (ha a rfl)

theorem spec_ask_bind {c : I.Call} {conv : I.Reply c → Except ε α} {f : α → Fallible I ε β}
    {S : I.Trace → Except ε β → Prop} (herr : ∀ r e, conv r = .error e → S [⟨c, r⟩] (.error e))
    (hok : ∀ r a, conv r = .ok a → (f a).Spec fun t b => S (⟨c, r⟩ :: t) b) :
    (ask c conv >>= f).Spec S := by
  refine Prog.spec_call fun r => ?_
  change Prog.Spec (ExceptT.bindCont f (conv r)) _
  cases h : conv r with
  | error e => exact Prog.spec_ret (herr r e h)
  | ok a => exact hok r a h

theorem spec_query_bind {c : I.Call} {f : I.Reply c → Fallible I ε β}
    {S : I.Trace → Except ε β → Prop}
    (h : ∀ r, (f r).Spec fun t b => S (⟨c, r⟩ :: t) b) : (query c >>= f).Spec S :=
  spec_ask_bind (fun _ _ h' => nomatch h') fun r _ h' => by cases h'; exact h r

theorem spec_ite {P : Prop} [Decidable P] {x y : Fallible I ε α} (ht : P → x.Spec Q)
    (hf : ¬ P → y.Spec Q) : Spec (if P then x else y) Q := by
  split
  · exact ht ‹_›
  · exact hf ‹_›

theorem spec_mapError {f : ε → ε} {S : I.Trace → Except ε α → Prop} (h : x.Spec Q)
    (hok : ∀ t a, Q t (.ok a) → S t (.ok a))
    (herr : ∀ t e, Q t (.error e) → S t (.error (f e))) : (x.mapError f).Spec S := by
  refine Prog.spec_bind h fun t r hr => ?_
  cases r with
  | ok a => exact Prog.spec_ret (by simpa [Except.mapError] using hok t a hr)
  | error e => exact Prog.spec_ret (by simpa [Except.mapError] using herr t e hr)

theorem spec_attempt {recover : ε → Option ε'} {S : I.Trace → Except ε (Except ε' α) → Prop}
    (h : x.Spec Q) (hok : ∀ t a, Q t (.ok a) → S t (.ok (.ok a)))
    (hrec : ∀ t e e', Q t (.error e) → recover e = some e' → S t (.ok (.error e')))
    (herr : ∀ t e, Q t (.error e) → recover e = none → S t (.error e)) :
    (x.attempt recover).Spec S := by
  refine Prog.spec_bind h fun t r hr => ?_
  cases r with
  | ok a => exact Prog.spec_ret (by simpa using hok t a hr)
  | error e =>
    simp only
    cases he : recover e with
    | none => exact Prog.spec_ret (by simpa using herr t e hr he)
    | some e' => exact Prog.spec_ret (by simpa using hrec t e e' hr he)

/-- The rule for a result computed without calls. -/
theorem spec_result {r : Except ε α} (h : Q [] r) :
    Spec (ExceptT.mk (.ret r) : Fallible I ε α) Q :=
  Prog.spec_ret h

/-- The rule that keeps the run of the first program itself. -/
theorem spec_runs_bind {f : α → Fallible I ε β} {S : I.Trace → Except ε β → Prop}
    (herr : ∀ t e, x.run.Runs t (.error e) → S t (.error e))
    (hok : ∀ t a, x.run.Runs t (.ok a) → (f a).Spec fun t' r => S (t ++ t') r) :
    (x >>= f).Spec S :=
  spec_bind (fun _ _ h => h) herr hok

/-- A run of two programs is a failed run of the first, or a run of each. -/
theorem runs_bind {f : α → Fallible I ε β} {t : I.Trace} {r : Except ε β}
    (h : (x >>= f).run.Runs t r) : (∃ e, x.run.Runs t (.error e) ∧ r = .error e) ∨
      ∃ t₁ a t₂, t = t₁ ++ t₂ ∧ x.run.Runs t₁ (.ok a) ∧ (f a).run.Runs t₂ r := by
  have hspec : (x >>= f).Spec fun t r => (∃ e, x.run.Runs t (.error e) ∧ r = .error e) ∨
      ∃ t₁ a t₂, t = t₁ ++ t₂ ∧ x.run.Runs t₁ (.ok a) ∧ (f a).run.Runs t₂ r :=
    spec_runs_bind (fun _ e h => .inl ⟨e, h, rfl⟩) fun t₁ a h t₂ _ h' =>
      .inr ⟨t₁, a, t₂, rfl, h, h'⟩
  exact hspec t r h

/-- A run of the first program and then one of the second. -/
theorem runs_bind_ok {f : α → Fallible I ε β} {t t' : I.Trace} {a : α} {r : Except ε β}
    (h : x.run.Runs t (.ok a)) (h' : (f a).run.Runs t' r) : (x >>= f).run.Runs (t ++ t') r :=
  Prog.runs_bind.2 ⟨t, .ok a, t', rfl, h, h'⟩

/-- A failed run of the first program. -/
theorem runs_bind_error {f : α → Fallible I ε β} {t : I.Trace} {e : ε}
    (h : x.run.Runs t (.error e)) : (x >>= f).run.Runs t (.error e) :=
  Prog.runs_bind.2 ⟨t, .error e, [], (List.append_nil t).symm, h, rfl, rfl⟩

theorem runs_attempt_ok {recover : ε → Option ε'} {t : I.Trace} {a : α}
    (h : x.run.Runs t (.ok a)) : (x.attempt recover).run.Runs t (.ok (.ok a)) :=
  Prog.runs_bind.2 ⟨t, .ok a, [], (List.append_nil t).symm, h, rfl, rfl⟩

/-- A failure that is recovered from. -/
theorem runs_attempt_recovered {recover : ε → Option ε'} {t : I.Trace} {e : ε} {e' : ε'}
    (h : x.run.Runs t (.error e)) (he : recover e = some e') :
    (x.attempt recover).run.Runs t (.ok (.error e')) := by
  refine Prog.runs_bind.2 ⟨t, .error e, [], (List.append_nil t).symm, h, ?_⟩
  simp only [he]
  exact ⟨rfl, rfl⟩

/-- A failure that is not recovered from. -/
theorem runs_attempt_failed {recover : ε → Option ε'} {t : I.Trace} {e : ε}
    (h : x.run.Runs t (.error e)) (he : recover e = none) :
    (x.attempt recover).run.Runs t (.error e) := by
  refine Prog.runs_bind.2 ⟨t, .error e, [], (List.append_nil t).symm, h, ?_⟩
  simp only [he]
  exact ⟨rfl, rfl⟩

/-- When the first part of a run is a run of the first program, the rest is one of the second. -/
theorem runs_of_bind {f : α → Fallible I ε β} {t t' : I.Trace} {a : α} {r : Except ε β}
    (h : (x >>= f).run.Runs (t ++ t') r) (hx : x.run.Runs t (.ok a)) : (f a).run.Runs t' r := by
  rcases runs_bind h with ⟨e, hfail, -⟩ | ⟨t₁, b, t₂, heq, h₁, h₂⟩
  · obtain ⟨-, h, -⟩ := Prog.Runs.unique hfail hx (List.append_nil _)
    cases h
  · obtain ⟨-, hok, rfl⟩ := hx.unique h₁ heq
    cases hok
    exact h₂

/-- A run of two programs, as far as it has got, is in the first of them or in the second. -/
theorem reaches_bind {f : α → Fallible I ε β} {t : I.Trace} {q : Prog I (Except ε β)}
    (h : (x >>= f).run.Reaches t q) : (∃ p, x.run.Reaches t p) ∨
      ∃ t₁ a t₂, t = t₁ ++ t₂ ∧ x.run.Runs t₁ (.ok a) ∧ (f a).run.Reaches t₂ q := by
  rcases Prog.reaches_bind (p := x.run) (f := ExceptT.bindCont f) h with
    hx | ⟨t₁, r, t₂, rfl, hx, hf⟩
  · exact .inl hx
  · cases r with
    | ok a => exact .inr ⟨t₁, a, t₂, rfl, hx, hf⟩
    | error e =>
      obtain rfl := Prog.eq_nil_of_reaches_ret hf
      rw [List.append_nil]
      exact .inl ⟨_, hx.reaches⟩

/-- A caught failure ends the calls of a program, and adds none. -/
theorem reaches_of_attempt {recover : ε → Option ε'} {t : I.Trace} {q : Prog I _}
    (h : (x.attempt recover).run.Reaches t q) : ∃ p, x.run.Reaches t p := by
  rcases Prog.reaches_bind (p := x.run) h with hx | ⟨t₁, r, t₂, rfl, hx, hf⟩
  · exact hx
  · have hnil : t₂ = [] := by
      cases r with
      | ok a => exact Prog.eq_nil_of_reaches_ret hf
      | error e =>
        simp only at hf
        cases he : recover e with
        | none =>
          rw [he] at hf
          exact Prog.eq_nil_of_reaches_ret hf
        | some e' =>
          rw [he] at hf
          exact Prog.eq_nil_of_reaches_ret hf
    subst hnil
    rw [List.append_nil]
    exact ⟨_, hx.reaches⟩

/-! ### Programs restricted in what they call -/

/-- Every call `x` makes satisfies `G`. -/
def Makes (G : I.Call → Prop) (x : Fallible I ε α) : Prop := x.Spec fun t _ => ∀ e ∈ t, G e.call

variable {G : I.Call → Prop}

theorem makes_pure (a : α) : (pure a : Fallible I ε α).Makes G :=
  spec_pure (List.forall_mem_nil _)

theorem makes_throw (e : ε) : (throw e : Fallible I ε α).Makes G :=
  spec_throw (List.forall_mem_nil _)

theorem makes_result (r : Except ε α) : Makes G (ExceptT.mk (.ret r) : Fallible I ε α) :=
  spec_result (List.forall_mem_nil _)

theorem makes_ask {c : I.Call} {conv : I.Reply c → Except ε α} (h : G c) :
    (ask c conv).Makes G :=
  spec_ask fun r => by simpa using h

theorem Makes.bind {f : α → Fallible I ε β} (h : x.Makes G) (hf : ∀ a, (f a).Makes G) :
    (x >>= f).Makes G :=
  spec_bind h (fun _ _ h => h) fun _ a ht => (hf a).mono fun _ _ ht' e he =>
    (List.mem_append.1 he).elim (ht e) (ht' e)

theorem Makes.attempt {recover : ε → Option ε'} (h : x.Makes G) : (x.attempt recover).Makes G :=
  spec_attempt h (fun _ _ h => h) (fun _ _ _ h _ => h) fun _ _ h _ => h

theorem Makes.mapError {f : ε → ε} (h : x.Makes G) : (x.mapError f).Makes G :=
  spec_mapError h (fun _ _ h => h) fun _ _ h => h

theorem Makes.mono {G' : I.Call → Prop} (h : x.Makes G) (hG : ∀ c, G c → G' c) : x.Makes G' :=
  Spec.mono h fun _ _ ht e he => hG e.call (ht e he)

/-! ### Programs restricted in how they fail -/

/-- As long as the events satisfy `A`, the failures of `x` satisfy `P`. -/
def FailsOnly (A : I.Event → Prop) (P : ε → Prop) (x : Fallible I ε α) : Prop :=
  x.Spec fun t r => (∀ e ∈ t, A e) → ∀ err, r = .error err → P err

variable {A : I.Event → Prop} {P : ε → Prop}

theorem failsOnly_pure (a : α) : (pure a : Fallible I ε α).FailsOnly A P := spec_pure fun _ => nofun

theorem failsOnly_result {r : Except ε α} (h : ∀ err, r = .error err → P err) :
    FailsOnly A P (ExceptT.mk (.ret r) : Fallible I ε α) :=
  spec_result fun _ => h

theorem failsOnly_throw {e : ε} (h : P e) : (throw e : Fallible I ε α).FailsOnly A P :=
  failsOnly_result fun _ h' => by cases h'; exact h

theorem failsOnly_ask {c : I.Call} {conv : I.Reply c → Except ε α}
    (h : ∀ r, A ⟨c, r⟩ → ∀ err, conv r = .error err → P err) : (ask c conv).FailsOnly A P :=
  spec_ask fun r hA => h r (hA _ List.mem_cons_self)

theorem FailsOnly.bind {f : α → Fallible I ε β} (h : x.FailsOnly A P)
    (hf : ∀ a, (f a).FailsOnly A P) : (x >>= f).FailsOnly A P := by
  refine spec_bind h (fun t e ht hA err herr => ht hA err (by cases herr; rfl)) fun t a _ => ?_
  refine (hf a).mono fun t' r ht' hA => ht' fun e he => hA e (List.mem_append_right t he)

theorem FailsOnly.mono {P' : ε → Prop} (h : x.FailsOnly A P) (hP : ∀ e, P e → P' e) :
    x.FailsOnly A P' :=
  Spec.mono h fun _ _ ht hA err herr => hP err (ht hA err herr)

/-- If every failure is recovered from, nothing fails. -/
theorem FailsOnly.attempt {recover : ε → Option ε'} (h : x.FailsOnly A P)
    (hP : ∀ e, P e → recover e ≠ none) : (x.attempt recover).FailsOnly A fun _ => False :=
  spec_attempt h (fun _ _ _ _ => nofun) (fun _ _ _ _ _ _ => nofun)
    fun _ e ht he hA _ _ => hP e (ht hA e rfl) he

end Fallible

end Interaction
