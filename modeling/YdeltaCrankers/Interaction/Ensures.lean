import YdeltaCrankers.Interaction.Env

/-!
# What a program ensures

`Env.Ensures` is `Env.Safe` for programs that can fail, with a postcondition for their successes
only.  There is one rule for each way of building programs, so that a proof follows the text of
the program; `Env.Safe.of_spec` starts from the program's traces instead, for a program whose
calls do not depend on the state, and `Env.Safe.along` adds to a postcondition what no step of
the program can undo.
-/

namespace Interaction

namespace Env

variable {I : Interface} {σ ε ε' α β : Type} {E : Env I σ} {A : σ → I.Event → Prop}
  {G : σ → I.Call → Prop} {s : σ}

/-! ### Two ways to a `Safe` -/

/-- A program whose calls keep the promise in every state. -/
theorem Safe.of_spec {Q : α → Prop} {p : Prog I α} (hI : ∀ c, Nonempty (I.Reply c))
    (h : p.Spec fun t a => (∀ e ∈ t, ∀ s, G s e.call) ∧ Q a) :
    E.Safe A G (fun _ => True) (fun a _ => Q a) p s := by
  induction p generalizing s with
  | ret a => exact fun s' _ => ⟨trivial, (h [] a ⟨rfl, rfl⟩).2⟩
  | call c k ih =>
    intro s₁ _
    refine ⟨trivial, ?_, fun r s₂ _ _ => ih r fun t a hr => ?_⟩
    · obtain ⟨r⟩ := hI c
      obtain ⟨t, a, hr⟩ := (k r).exists_runs hI
      exact (h _ a ⟨r, t, rfl, hr⟩).1 ⟨c, r⟩ List.mem_cons_self s₁
    · obtain ⟨hG, hQ⟩ := h _ a ⟨r, t, rfl, hr⟩
      exact ⟨fun e he => hG e (List.mem_cons_of_mem _ he), hQ⟩

/-- What holds along ticks and along answers to promised calls holds along the program. -/
theorem Safe.along {J : σ → Prop} {Q : α → σ → Prop} {p : Prog I α} {R : σ → σ → Prop}
    (hrefl : ∀ s, R s s) (htrans : ∀ s₁ s₂ s₃, R s₁ s₂ → R s₂ s₃ → R s₁ s₃)
    (htick : ∀ s s', E.tick s s' → R s s')
    (hanswer : ∀ s c r s', G s c → E.answer s c r s' → R s s') (h : E.Safe A G J Q p s) :
    E.Safe A G J (fun a s' => R s s' ∧ Q a s') p s := by
  have hticks : ∀ s₀ s₁ s₂, R s₀ s₁ → E.Ticks s₁ s₂ → R s₀ s₂ := fun s₀ s₁ s₂ h₁ hs =>
    hs.invariant (P := R s₀) h₁ fun a b hR ht => htrans s₀ a b hR (htick a b ht)
  suffices hgen : ∀ s₀, R s₀ s → E.Safe A G J (fun a s' => R s₀ s' ∧ Q a s') p s from
    hgen s (hrefl s)
  intro s₀ hs₀
  induction p generalizing s with
  | ret a => exact fun s' hs => ⟨(h s' hs).1, hticks s₀ s s' hs₀ hs, (h s' hs).2⟩
  | call c k ih =>
    intro s₁ hs
    obtain ⟨hJ, hG, hk⟩ := h s₁ hs
    refine ⟨hJ, hG, fun r s₂ ha hA => ih r (hk r s₂ ha hA) ?_⟩
    exact htrans s₀ s₁ s₂ (hticks s₀ s s₁ hs₀ hs) (hanswer s₁ c r s₂ hG ha)

theorem Safe.and {G' : σ → I.Call → Prop} {J J' : σ → Prop} {Q Q' : α → σ → Prop}
    {p : Prog I α} (h : E.Safe A G J Q p s) (h' : E.Safe A G' J' Q' p s) :
    E.Safe A (fun s c => G s c ∧ G' s c) (fun s => J s ∧ J' s) (fun a s => Q a s ∧ Q' a s) p s := by
  induction p generalizing s with
  | ret a => exact fun s' hs => ⟨⟨(h s' hs).1, (h' s' hs).1⟩, (h s' hs).2, (h' s' hs).2⟩
  | call c k ih =>
    intro s₁ hs
    obtain ⟨hJ, hG, hk⟩ := h s₁ hs
    obtain ⟨hJ', hG', hk'⟩ := h' s₁ hs
    exact ⟨⟨hJ, hJ'⟩, ⟨hG, hG'⟩, fun r s₂ ha hA => ih r (hk r s₂ ha hA) (hk' r s₂ ha hA)⟩

/-- Promise less. -/
theorem Safe.weaken {G' : σ → I.Call → Prop} {J J' : σ → Prop} {Q : α → σ → Prop} {p : Prog I α}
    (h : E.Safe A G J Q p s) (hG : ∀ s c, G s c → G' s c) (hJ : ∀ s, J s → J' s) :
    E.Safe A G' J' Q p s := by
  induction p generalizing s with
  | ret a => exact fun s' hs => ⟨hJ s' (h s' hs).1, (h s' hs).2⟩
  | call c k ih =>
    intro s₁ hs
    obtain ⟨hJ', hG', hk⟩ := h s₁ hs
    exact ⟨hJ s₁ hJ', hG s₁ c hG', fun r s₂ ha hA => ih r (hk r s₂ ha hA)⟩

/-- A postcondition holds on return and ever after. -/
theorem Safe.settle {J : σ → Prop} {Q : α → σ → Prop} {p : Prog I α} (h : E.Safe A G J Q p s) :
    E.Safe A G J (fun a s' => ∀ s'', E.Ticks s' s'' → Q a s'') p s := by
  induction p generalizing s with
  | ret a => exact fun s' hs => ⟨(h s' hs).1, fun s'' hs' => (h s'' (hs.trans hs')).2⟩
  | call c k ih =>
    intro s₁ hs
    obtain ⟨hJ, hG, hk⟩ := h s₁ hs
    exact ⟨hJ, hG, fun r s₂ ha hA => ih r (hk r s₂ ha hA)⟩

/-! ### Programs that can fail -/

/-- In `E`, from `s`: as long as the events satisfy `A`, every call of `x` satisfies `G`, and
when `x` returns `a`, `Q a` holds. -/
def Ensures (E : Env I σ) (A : σ → I.Event → Prop) (G : σ → I.Call → Prop) (Q : α → σ → Prop)
    (x : Fallible I ε α) (s : σ) : Prop :=
  E.Safe A G (fun _ => True) (fun r s' => ∀ a, r = .ok a → Q a s') x.run s

variable {Q R : α → σ → Prop} {x : Fallible I ε α}

theorem Ensures.mono (h : E.Ensures A G Q x s) (hQ : ∀ a s', Q a s' → R a s') :
    E.Ensures A G R x s :=
  Safe.mono h fun _ s' hr a ha => hQ a s' (hr a ha)

/-- A postcondition kept by every step of a program that makes no call outside of `C`. -/
theorem Ensures.along {C : I.Call → Prop} {R' : σ → σ → Prop} (hI : ∀ c, Nonempty (I.Reply c))
    (hC : Prog.Spec x.run fun t _ => ∀ e ∈ t, C e.call)
    (hrefl : ∀ s, R' s s) (htrans : ∀ s₁ s₂ s₃, R' s₁ s₂ → R' s₂ s₃ → R' s₁ s₃)
    (htick : ∀ s s', E.tick s s' → R' s s')
    (hanswer : ∀ s c r s', C c → E.answer s c r s' → R' s s') (h : E.Ensures A G Q x s) :
    E.Ensures A G (fun a s' => R' s s' ∧ Q a s') x s := by
  have hsafe : E.Safe A (fun _ c => C c) (fun _ => True) (fun _ _ => True) x.run s :=
    Safe.of_spec (Q := fun _ => True) hI fun t a hr => ⟨fun e he _ => hC t a hr e he, trivial⟩
  have hboth := (Safe.and h hsafe).along hrefl htrans htick
    fun s c r s' hc ha => hanswer s c r s' hc.2 ha
  exact (hboth.weaken (fun _ _ hc => hc.1) fun _ _ => trivial).mono
    fun r s' hr a ha => ⟨hr.1, hr.2.1 a ha⟩

/-- Nothing is asked and nothing is promised. -/
theorem ensures_trivial (x : Fallible I ε α) (s : σ) :
    E.Ensures A (fun _ _ => True) (fun _ _ => True) x s := by
  change E.Safe A _ _ _ x.run s
  generalize x.run = p
  induction p generalizing s with
  | ret r => exact fun _ _ => ⟨trivial, fun _ _ => trivial⟩
  | call c k ih => exact fun _ _ => ⟨trivial, trivial, fun r s₂ _ _ => ih r s₂⟩

theorem ensures_pure {a : α} (h : ∀ s', E.Ticks s s' → Q a s') :
    E.Ensures A G Q (pure a : Fallible I ε α) s := by
  refine fun s' hs => ⟨trivial, fun b hb => ?_⟩
  cases hb
  exact h s' hs

/-- The rule for a result computed without calls. -/
theorem ensures_ret {r : Except ε α} (h : ∀ a, r = .ok a → ∀ s', E.Ticks s s' → Q a s') :
    E.Ensures A G Q (ExceptT.mk (.ret r) : Fallible I ε α) s :=
  fun s' hs => ⟨trivial, fun a ha => h a ha s' hs⟩

theorem ensures_throw (e : ε) : E.Ensures A G Q (throw e : Fallible I ε α) s :=
  fun _ _ => ⟨trivial, fun _ ha => nomatch ha⟩

theorem ensures_ask {c : I.Call} {conv : I.Reply c → Except ε α}
    (h : ∀ s₁, E.Ticks s s₁ → G s₁ c ∧ ∀ r s₂, E.answer s₁ c r s₂ → A s₁ ⟨c, r⟩ →
      ∀ a, conv r = .ok a → ∀ s₃, E.Ticks s₂ s₃ → Q a s₃) :
    E.Ensures A G Q (Fallible.ask c conv) s := by
  intro s₁ hs
  obtain ⟨hG, hr⟩ := h s₁ hs
  exact ⟨trivial, hG, fun r s₂ ha hA s₃ hs₃ => ⟨trivial, fun a ha' => hr r s₂ ha hA a ha' s₃ hs₃⟩⟩

theorem ensures_query {c : I.Call} {Q : I.Reply c → σ → Prop}
    (h : ∀ s₁, E.Ticks s s₁ → G s₁ c ∧ ∀ r s₂, E.answer s₁ c r s₂ → A s₁ ⟨c, r⟩ →
      ∀ s₃, E.Ticks s₂ s₃ → Q r s₃) :
    E.Ensures A G Q (Fallible.query c : Fallible I ε (I.Reply c)) s :=
  ensures_ask fun s₁ hs => ⟨(h s₁ hs).1, fun r s₂ ha hA a hra s₃ hs₃ => by
    cases hra; exact (h s₁ hs).2 r s₂ ha hA s₃ hs₃⟩

theorem Ensures.bind {S : β → σ → Prop} {f : α → Fallible I ε β} (h : E.Ensures A G Q x s)
    (hf : ∀ a s', Q a s' → E.Ensures A G S (f a) s') : E.Ensures A G S (x >>= f) s := by
  refine Safe.bindFallible (Safe.mono h fun r s' hr => ?_)
  cases r with
  | error e => exact fun _ _ => ⟨trivial, fun _ ha => nomatch ha⟩
  | ok a => exact hf a s' (hr a rfl)

/-- A failure that is caught says nothing. -/
theorem Ensures.attempt {recover : ε → Option ε'} (h : E.Ensures A G Q x s) :
    E.Ensures A G (fun r s' => ∀ a, r = .ok a → Q a s') (x.attempt recover) s := by
  refine Safe.bind ((Safe.settle h).mono fun r s' hr => ?_)
  cases r with
  | ok a =>
    refine fun s'' hs => ⟨trivial, ?_⟩
    rintro _ ⟨⟩ b ⟨⟩
    exact hr s'' hs a rfl
  | error e =>
    simp only
    cases recover e with
    | none => exact fun _ _ => ⟨trivial, fun _ ha => nomatch ha⟩
    | some e' =>
      refine fun _ _ => ⟨trivial, ?_⟩
      rintro _ ⟨⟩ b hb
      cases hb

theorem Ensures.mapError {f : ε → ε} (h : E.Ensures A G Q x s) :
    E.Ensures A G Q (x.mapError f) s := by
  refine Safe.bind ((Safe.settle h).mono fun r s' hr s'' hs => ⟨trivial, fun a ha => ?_⟩)
  cases r with
  | ok _ =>
    cases ha
    exact hr s'' hs _ rfl
  | error e => cases ha

end Env

end Interaction
