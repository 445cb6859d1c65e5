import YdeltaCrankers.Interaction.Ensures

/-!
# Loops that need not end

The body of a loop is run for one phase after the other, until it leaves the loop.
`Fallible.rounds` runs at most a given number of rounds; what holds for every number of rounds
holds of the loop, however long it goes on.

Each rule turns a fact about one round into a fact about the loop: `Fallible.spec_rounds` for
traces, `Env.Ensures.rounds` for promises kept in an environment.
-/

namespace Interaction

variable {I : Interface} {ε S : Type}

/-- At most `n` rounds of a loop.  The body returns the next phase, or `none` to leave; the result
is the phase reached when the rounds ran out. -/
def Fallible.rounds (body : S → Fallible I ε (Option S)) :
    ℕ → S → Fallible I ε (Option S)
  | 0, s => pure (some s)
  | n + 1, s => do
    match ← body s with
    | none => return none
    | some s' => rounds body n s'

namespace Fallible

variable {body : S → Fallible I ε (Option S)} {Q : S → I.Trace → Except ε (Option S) → Prop}

/-- A property of traces that holds of no round at all and is carried back over one round. -/
theorem spec_rounds (hpause : ∀ s, Q s [] (.ok (some s)))
    (hround : ∀ s, (body s).Spec fun t r => match r with
      | .ok (some s') => ∀ t' r', Q s' t' r' → Q s (t ++ t') r'
      | .ok none => Q s t (.ok none)
      | .error e => Q s t (.error e)) (n : ℕ) (s : S) : (rounds body n s).Spec (Q s) := by
  induction n generalizing s with
  | zero => exact spec_pure (hpause s)
  | succ n ih =>
    refine spec_bind (hround s) (fun _ _ h => h) fun t o h => ?_
    cases o with
    | none => exact spec_pure (by rwa [List.append_nil])
    | some s' => exact (ih s').mono fun t' r' hr => h t' r' hr

end Fallible

namespace Env

variable {σ : Type} {E : Env I σ} {A : σ → I.Event → Prop} {G : σ → I.Call → Prop}
  {body : S → Fallible I ε (Option S)} {Inv : S → σ → Prop}

/-- A round that starts in the invariant of its phase ends in that of the next phase. -/
theorem Ensures.rounds (hround : ∀ p s, Inv p s →
      E.Ensures A G (fun o s' => ∀ p', o = some p' → Inv p' s') (body p) s)
    (n : ℕ) {p : S} {s : σ} (hs : Inv p s) :
    E.Ensures A G (fun _ _ => True) (Fallible.rounds body n p) s := by
  induction n generalizing p s with
  | zero => exact ensures_pure fun _ _ => trivial
  | succ n ih =>
    refine (hround p s hs).bind fun o s₁ ho => ?_
    cases o with
    | none => exact ensures_pure fun _ _ => trivial
    | some p' => exact ih (ho p' rfl)

end Env

end Interaction
