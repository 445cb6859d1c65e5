import YdeltaCrankers.Interaction.Spec

/-!
# Going through a list

A loop over a list does one thing after another.  `Walks seg as t` says that the trace `t` goes
through `as` item by item, and that `seg a` holds of the part of it that belongs to the item `a`.
-/

namespace Interaction

variable {I : Interface} {ε α β : Type}

/-- The trace goes through the items in order. -/
inductive Walks (seg : α → I.Trace → Prop) : List α → I.Trace → Prop
  | nil : Walks seg [] []
  | cons {a : α} {as : List α} {t t' : I.Trace} (h : seg a t) (hrest : Walks seg as t') :
      Walks seg (a :: as) (t ++ t')

namespace Walks

variable {seg : α → I.Trace → Prop} {as : List α} {t : I.Trace}

/-- An item with nothing to do. -/
theorem cons_nil {a : α} (h : seg a []) (hrest : Walks seg as t) : Walks seg (a :: as) t :=
  .cons h hrest

end Walks

namespace Fallible

variable {x : Fallible I ε α}

/-- A program goes on only after what comes first has not failed. -/
theorem runs_bind_inv {f : α → Fallible I ε β} {t : I.Trace} {b : β}
    (h : (x >>= f).run.Runs t (.ok b)) :
    ∃ t₁ a t₂, t = t₁ ++ t₂ ∧ x.run.Runs t₁ (.ok a) ∧ (f a).run.Runs t₂ (.ok b) := by
  rcases runs_bind h with ⟨e, -, hfail⟩ | hok
  · cases hfail
  · exact hok

/-- What is caught. -/
theorem runs_attempt_inv {ε' : Type} {recover : ε → Option ε'} {t : I.Trace} {r : Except ε' α}
    (h : (x.attempt recover).run.Runs t (.ok r)) :
    (∃ a, r = .ok a ∧ x.run.Runs t (.ok a)) ∨
      ∃ e e', r = .error e' ∧ recover e = some e' ∧ x.run.Runs t (.error e) := by
  have hspec : (x.attempt recover).Spec fun t r => ∀ r', r = .ok r' →
      (∃ a, r' = .ok a ∧ x.run.Runs t (.ok a)) ∨
        ∃ e e', r' = .error e' ∧ recover e = some e' ∧ x.run.Runs t (.error e) := by
    refine spec_attempt (fun _ _ hr => hr) (fun t a hr r' hr' => ?_) (fun t e e' hr he r' hr' => ?_)
      fun _ _ _ _ => nofun
    · cases hr'
      exact .inl ⟨a, rfl, hr⟩
    · cases hr'
      exact .inr ⟨e, e', rfl, he, hr⟩
  exact hspec t _ h r rfl

end Fallible

end Interaction
