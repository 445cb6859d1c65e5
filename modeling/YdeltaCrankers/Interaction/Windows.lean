import YdeltaCrankers.Interaction.Guard
import YdeltaCrankers.Interaction.Walk

/-!
# Drawing from what was listed

Between the event that takes a key and the one that gives it back a program is inside a *window*.
`outside touch t` is what a trace does outside of its windows: there the program lists what it is
going to do, and in a window it does it.

* `Draws` : what a trace puts out is drawn from what it lists, in order, every entry at most once.
* `draws_of_walk` : a list that is listed first, and then gone through.
* `draws_of_walks` : several such lists, one after the other.
-/

namespace Interaction

variable {I : Interface} {K α β : Type} (touch : I.Event → Touch K)

/-- The trace without its windows; `held` says whether it begins inside of one. -/
def outsideFrom : Bool → I.Trace → I.Trace
  | _, [] => []
  | held, e :: t => match touch e with
    | .take _ => outsideFrom true t
    | .give _ => outsideFrom false t
    | _ => if held then outsideFrom true t else e :: outsideFrom false t

/-- The trace without its windows. -/
abbrev outside (t : I.Trace) : I.Trace := outsideFrom touch false t

/-- What comes after the trace is outside of its windows. -/
def ClosedWindows (t : I.Trace) : Prop :=
  ∀ t', outside touch (t ++ t') = outside touch t ++ outside touch t'

variable {touch} {t t' : I.Trace} {e e' : I.Event} {k : K}

@[simp] theorem outsideFrom_nil (held : Bool) : outsideFrom touch held [] = [] := rfl

theorem outsideFrom_true_append (h : ∀ e ∈ t, touch e = .idle) (t' : I.Trace) :
    outsideFrom touch true (t ++ t') = outsideFrom touch true t' := by
  induction t with
  | nil => rfl
  | cons e t ih =>
    obtain ⟨he, ht⟩ := List.forall_mem_cons.1 h
    rw [List.cons_append, outsideFrom, he]
    exact ih ht

theorem outside_append_of_idle (h : ∀ e ∈ t, touch e = .idle) (t' : I.Trace) :
    outside touch (t ++ t') = t ++ outside touch t' := by
  induction t with
  | nil => rfl
  | cons e t ih =>
    obtain ⟨he, ht⟩ := List.forall_mem_cons.1 h
    rw [List.cons_append, outside, outsideFrom, he]
    exact congrArg (e :: ·) (ih ht)

theorem outside_of_idle (h : ∀ e ∈ t, touch e = .idle) : outside touch t = t := by
  simpa using outside_append_of_idle h []

namespace ClosedWindows

theorem of_idle (h : ∀ e ∈ t, touch e = .idle) : ClosedWindows touch t := fun t' => by
  rw [outside_append_of_idle h, outside_of_idle h]

theorem append (h : ClosedWindows touch t) (h' : ClosedWindows touch t') :
    ClosedWindows touch (t ++ t') := fun s => by
  rw [List.append_assoc, h, h', h t', List.append_assoc]

end ClosedWindows

/-- Nothing of a window is outside of it. -/
theorem outside_window (htake : touch e = .take k) (h : ∀ x ∈ t, touch x = .idle)
    (hgive : touch e' = .give k) (s : I.Trace) :
    outside touch (e :: (t ++ [e']) ++ s) = outside touch s := by
  rw [List.cons_append, List.append_assoc, outside, outsideFrom, htake]
  simp only
  rw [outsideFrom_true_append h, List.cons_append, List.nil_append, outsideFrom, hgive]

/-! ### Drawing -/

section Draws

variable (touch) (puts : I.Event → Option β) (lists : I.Event → List β)

/-- What the trace puts out is drawn from what it lists outside of its windows: in order, and every
entry at most once. -/
structure Draws (t : I.Trace) : Prop where
  closed : ClosedWindows touch t
  drawn : (t.filterMap puts).Sublist ((outside touch t).flatMap lists)

/-- The trace lists nothing outside of its windows, and puts out entries of `entries`. -/
structure Spends (entries : List β) (t : I.Trace) : Prop where
  closed : ClosedWindows touch t
  lists_nil : (outside touch t).flatMap lists = []
  spent : (t.filterMap puts).Sublist entries

variable {touch puts lists}

theorem draws_nil : Draws touch puts lists [] := ⟨.of_idle (List.forall_mem_nil _), .refl _⟩

theorem Draws.append (h : Draws touch puts lists t) (h' : Draws touch puts lists t') :
    Draws touch puts lists (t ++ t') := by
  refine ⟨h.closed.append h'.closed, ?_⟩
  rw [List.filterMap_append, h.closed, List.flatMap_append]
  exact h.drawn.append h'.drawn

/-- A trace that puts nothing out. -/
theorem draws_of_idle (h : ∀ e ∈ t, touch e = .idle) (hputs : t.filterMap puts = []) :
    Draws touch puts lists t := by
  refine ⟨.of_idle h, ?_⟩
  rw [hputs]
  exact List.nil_sublist _

theorem spends_nil (entries : List β) : Spends touch puts lists entries ([] : I.Trace) :=
  ⟨.of_idle (List.forall_mem_nil _), rfl, List.nil_sublist _⟩

theorem Spends.append {entries entries' : List β} (h : Spends touch puts lists entries t)
    (h' : Spends touch puts lists entries' t') :
    Spends touch puts lists (entries ++ entries') (t ++ t') := by
  refine ⟨h.closed.append h'.closed, ?_, ?_⟩
  · rw [h.closed, List.flatMap_append, h.lists_nil, h'.lists_nil, List.append_nil]
  · rw [List.filterMap_append]
    exact h.spent.append h'.spent

/-- A window. -/
theorem spends_window {entries : List β} (htake : touch e = .take k)
    (h : ∀ x ∈ t, touch x = .idle) (hgive : touch e' = .give k) (hputs : puts e = none)
    (hputs' : puts e' = none) (hspent : (t.filterMap puts).Sublist entries) :
    Spends touch puts lists entries (e :: (t ++ [e'])) := by
  have hnil : outside touch (e :: (t ++ [e'])) = [] := by
    simpa using outside_window htake h hgive []
  refine ⟨fun s => ?_, ?_, ?_⟩
  · rw [outside_window htake h hgive, hnil, List.nil_append]
  · rw [hnil, List.flatMap_nil]
  · simpa [List.filterMap_append, hputs, hputs'] using hspent

/-- Items gone through one by one, each with entries of its own. -/
theorem spends_of_walks {seg : α → I.Trace → Prop} {entries : α → List β} {as : List α}
    (h : Walks seg as t) (hseg : ∀ a ∈ as, ∀ u, seg a u → Spends touch puts lists (entries a) u) :
    Spends touch puts lists (as.flatMap entries) t := by
  induction h with
  | nil => exact spends_nil _
  | cons ha _ ih =>
    obtain ⟨hhead, htail⟩ := List.forall_mem_cons.1 hseg
    rw [List.flatMap_cons]
    exact (hhead _ ha).append (ih htail)

/-- **A list that is listed first, and then gone through.** -/
theorem draws_of_walk {seg : α → I.Trace → Prop} {entries : α → List β} {as : List α}
    (h : ∀ e ∈ t, touch e = .idle) (hputs : t.filterMap puts = [])
    (hlists : (as.flatMap entries).Sublist (t.flatMap lists)) (hwalk : Walks seg as t')
    (hseg : ∀ a ∈ as, ∀ u, seg a u → Spends touch puts lists (entries a) u) :
    Draws touch puts lists (t ++ t') := by
  have hspends := spends_of_walks hwalk hseg
  refine ⟨(ClosedWindows.of_idle h).append hspends.closed, ?_⟩
  rw [List.filterMap_append, hputs, List.nil_append, outside_append_of_idle h, List.flatMap_append,
    hspends.lists_nil, List.append_nil]
  exact hspends.spent.trans hlists

/-- **Lists that are listed and gone through, one after the other.** -/
theorem draws_of_walks {seg : α → I.Trace → Prop} {as : List α} (h : Walks seg as t)
    (hseg : ∀ a ∈ as, ∀ u, seg a u → Draws touch puts lists u) : Draws touch puts lists t := by
  induction h with
  | nil => exact draws_nil
  | cons ha _ ih =>
    obtain ⟨hhead, htail⟩ := List.forall_mem_cons.1 hseg
    exact (hhead _ ha).append (ih htail)

end Draws

end Interaction
