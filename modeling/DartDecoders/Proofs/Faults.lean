/-
Faults of readers.

A reader ends with a result or with a fault. Which faults it can end with is known from its parts
(`FailsWith`): two parts one after the other end with a fault of either, and a list is read with the
faults of its items. A list that is read gives one result for each item. Otherwise it ends with the
fault of the first item that cannot be read, so when it ends with a certain fault is known from when
an item does (`mapM_eq_error_iff`).
-/
import Mathlib.Data.List.Forall2
import DartDecoders.Fault

set_option autoImplicit false

namespace DartDecoders

variable {α β : Type} {p q : Fault → Prop}

/-! ## Kinds of faults -/

/-- An error about declarations, which is reported. -/
def IsDeclarationError (f : Fault) : Prop :=
  ∃ e, f = .reported e ∧ e.kind = .declaration

/-- A fault that is not reported. -/
def IsStray (f : Fault) : Prop :=
  ∀ e, f ≠ .reported e

theorem IsStray.not_isDeclarationError {f : Fault} (h : IsStray f) : ¬ IsDeclarationError f := by
  rintro ⟨e, he, -⟩
  exact h e he

/-- All faults that the computation can end with are of the kind. -/
def FailsWith (p : Fault → Prop) (x : Except Fault α) : Prop :=
  ∀ f, x = .error f → p f

/-- A fault comes from the first computation, or from the second on a result of the first. -/
theorem bind_eq_error_or_iff {x : Except Fault α} {next : α → Except Fault β} {f : Fault} :
    x >>= next = .error f ↔ x = .error f ∨ ∃ a, x = .ok a ∧ next a = .error f := by
  cases x <;> simp [bind, Except.bind]

theorem map_eq_error_iff {x : Except Fault α} {use : α → β} {f : Fault} :
    x.map use = .error f ↔ x = .error f := by
  cases x <;> simp [Except.map]

theorem bind_eq_ok_iff {ε : Type} {x : Except ε α} {next : α → Except ε β} {b : β} :
    x >>= next = .ok b ↔ ∃ a, x = .ok a ∧ next a = .ok b := by
  cases x <;> simp [bind, Except.bind]

namespace FailsWith

theorem ok (a : α) : FailsWith p (.ok a : Except Fault α) := by
  intro f hf
  cases hf

theorem error {f : Fault} (h : p f) : FailsWith p (.error f : Except Fault α) := by
  intro g hg
  cases hg
  exact h

theorem mono {x : Except Fault α} (h : FailsWith p x) (hpq : ∀ f, p f → q f) : FailsWith q x :=
  fun f hf => hpq f (h f hf)

/-- The second computation is only run on a result of the first. -/
theorem bind {x : Except Fault α} {next : α → Except Fault β} (hx : FailsWith p x)
    (hnext : ∀ a, x = .ok a → FailsWith p (next a)) : FailsWith p (x >>= next) := by
  cases x with
  | error f => exact error (hx f rfl)
  | ok a => exact hnext a rfl

/-- A fault that the first computation cannot end with comes from the second. -/
theorem bind_eq_error_iff {x : Except Fault α} {next : α → Except Fault β} {f : Fault}
    (hx : FailsWith p x) (hf : ¬ p f) :
    x >>= next = .error f ↔ ∃ a, x = .ok a ∧ next a = .error f :=
  bind_eq_error_or_iff.trans (or_iff_right fun hfirst => hf (hx f hfirst))

/-- A fault that the second computation cannot end with comes from the first. -/
theorem bind_eq_error_iff_first {x : Except Fault α} {next : α → Except Fault β} {f : Fault}
    (hnext : ∀ a, x = .ok a → FailsWith p (next a)) (hf : ¬ p f) :
    x >>= next = .error f ↔ x = .error f :=
  bind_eq_error_or_iff.trans (or_iff_left fun ⟨a, ha, hsecond⟩ => hf (hnext a ha f hsecond))

theorem map {x : Except Fault α} (hx : FailsWith p x) (use : α → β) :
    FailsWith p (x.map use) := by
  cases x with
  | error f => exact error (hx f rfl)
  | ok a => exact ok (use a)

/-- A list is read with the faults of its items. -/
theorem mapM {read : α → Except Fault β} {items : List α}
    (h : ∀ x ∈ items, FailsWith p (read x)) : FailsWith p (items.mapM read) := by
  induction items with
  | nil => exact ok []
  | cons x rest ih =>
      have hrest := ih fun y hy => h y (List.mem_cons_of_mem x hy)
      rw [List.mapM_cons]
      exact bind (h x List.mem_cons_self) fun y _ => bind hrest fun ys _ => ok (y :: ys)

end FailsWith

/-! ## Lists -/

/-- A list that is read gives the results of its items in order. -/
theorem mapM_eq_ok_iff {read : α → Except Fault β} {items : List α} {results : List β} :
    items.mapM read = .ok results ↔ List.Forall₂ (fun x r => read x = .ok r) items results := by
  induction items generalizing results with
  | nil => cases results <;> simp [pure, Except.pure]
  | cons x rest ih =>
      rw [List.mapM_cons, List.forall₂_cons_left_iff]
      simp only [← ih]
      cases read x with
      | error f => simp [bind, Except.bind]
      | ok r => cases rest.mapM read <;> simp [bind, Except.bind, pure, Except.pure, eq_comm]

/-- What is read of each item is said by a relation, and so is what is read of the list. -/
theorem mapM_eq_ok_iff_of_mem {read : α → Except Fault β} {r : α → β → Prop} {items : List α}
    (h : ∀ x ∈ items, ∀ y, read x = .ok y ↔ r x y) {results : List β} :
    items.mapM read = .ok results ↔ List.Forall₂ r items results := by
  rw [mapM_eq_ok_iff]
  induction items generalizing results with
  | nil => simp
  | cons x rest ih =>
      obtain ⟨hfirst, hothers⟩ := List.forall_mem_cons.1 h
      simp only [List.forall₂_cons_left_iff, hfirst, ih hothers]

/-- Items have results in a row exactly when each of them has one. -/
theorem exists_forall₂_iff {r : α → β → Prop} {items : List α} :
    (∃ results, List.Forall₂ r items results) ↔ ∀ x ∈ items, ∃ y, r x y := by
  induction items with
  | nil => simp
  | cons x rest ih =>
      rw [List.forall_mem_cons, ← ih]
      constructor
      · rintro ⟨results, h⟩
        obtain ⟨y, others, hy, hothers, rfl⟩ := List.forall₂_cons_left_iff.1 h
        exact ⟨⟨y, hy⟩, others, hothers⟩
      · rintro ⟨⟨y, hy⟩, others, hothers⟩
        exact ⟨y :: others, .cons hy hothers⟩

/-- An item of a list that is read has its result at its place. -/
theorem exists_getElem?_of_mapM_eq_ok {read : α → Except Fault β} {before after : List α} {x : α}
    {results : List β} (h : (before ++ x :: after).mapM read = .ok results) :
    ∃ r, results[before.length]? = some r ∧ read x = .ok r := by
  rw [mapM_eq_ok_iff] at h
  induction before generalizing results with
  | nil =>
      obtain ⟨r, others, hread, -, rfl⟩ := List.forall₂_cons_left_iff.1 h
      exact ⟨r, rfl, hread⟩
  | cons y before ih =>
      obtain ⟨first, others, -, hothers, rfl⟩ := List.forall₂_cons_left_iff.1 h
      obtain ⟨r, hget, hread⟩ := ih hothers
      exact ⟨r, by simpa using hget, hread⟩

/-- Behind items that are read comes one that is stuck. -/
def StopsAtFirst (read : α → Except Fault β) (stuck : α → Prop) (items : List α) : Prop :=
  ∃ before x after, items = before ++ x :: after ∧ (∀ y ∈ before, ∃ r, read y = .ok r) ∧ stuck x

variable {read : α → Except Fault β} {stuck : α → Prop}

theorem not_stopsAtFirst_nil : ¬ StopsAtFirst read stuck [] := by
  rintro ⟨before, x, after, hitems, -⟩
  exact absurd hitems.symm (by simp)

/-- Either the first item is stuck, or it is read and the others are not. -/
theorem stopsAtFirst_cons {x : α} {rest : List α} :
    StopsAtFirst read stuck (x :: rest)
      ↔ stuck x ∨ (∃ r, read x = .ok r) ∧ StopsAtFirst read stuck rest := by
  constructor
  · rintro ⟨before, y, after, hitems, hbefore, hy⟩
    cases before with
    | nil =>
        obtain ⟨rfl, -⟩ := List.cons.inj hitems
        exact .inl hy
    | cons z before =>
        obtain ⟨rfl, rfl⟩ := List.cons.inj hitems
        obtain ⟨hx, hothers⟩ := List.forall_mem_cons.1 hbefore
        exact .inr ⟨hx, before, y, after, rfl, hothers, hy⟩
  · rintro (hx | ⟨hx, before, y, after, rfl, hbefore, hy⟩)
    · exact ⟨[], x, rest, rfl, by simp, hx⟩
    · exact ⟨x :: before, y, after, rfl, List.forall_mem_cons.2 ⟨hx, hbefore⟩, hy⟩

/-- Reading a list ends with a fault exactly when the first item that cannot be read does. -/
theorem mapM_eq_error_iff {f : Fault} {items : List α}
    (h : ∀ x ∈ items, (read x = .error f ↔ stuck x)) :
    items.mapM read = .error f ↔ StopsAtFirst read stuck items := by
  induction items with
  | nil => exact ⟨fun hnil => (by cases hnil), fun hnil => absurd hnil not_stopsAtFirst_nil⟩
  | cons x rest ih =>
      obtain ⟨hfirst, hothers⟩ := List.forall_mem_cons.1 h
      rw [List.mapM_cons, stopsAtFirst_cons, ← ih hothers, ← hfirst]
      cases read x with
      | error g => simp [bind, Except.bind]
      | ok r => cases rest.mapM read <;> simp [bind, Except.bind, pure, Except.pure]

end DartDecoders
