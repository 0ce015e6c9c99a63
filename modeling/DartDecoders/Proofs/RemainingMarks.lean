/-
Question marks in shapes.

A shape of a type carries no question mark: a text with one is rewritten without marks, and what is
cut out of a text without one has none. A text that is no type is not rewritten. It loses the white
space and then the question marks at its end and nothing else, and if what is left is a type after
all, only its future is looked through; every other question mark is carried on
(`mark_mem_carried_iff`). The step from the text that the rules look at to the one that the shape
carries loses none: an item is only found in a type without marks, and raw arguments have every mark
of a type that is not nullable itself (`mark_mem_carried_iff_effective`).
-/
import DartDecoders.Proofs.ShapeOfText

set_option autoImplicit false

namespace DartDecoders

namespace TypeExpr

open Text

variable {t : Text}

/-! ## What is cut out of a text -/

/-- The item of a list has no question mark, and neither has the list. -/
theorem mark_not_mem_of_listItem? {item : Text} (h : listItem? t = some item) :
    .ofChar '?' ∉ t ∧ .ofChar '?' ∉ item := by
  rw [listItem?] at h
  split at h
  · next name first args argsText hparse =>
      obtain ⟨-, -, hargs⟩ := wellFormed_node.1 (wellFormed_of_parse? hparse)
      obtain ⟨⟨hchars, -⟩, hbare, -⟩ := wellFormed_node.1 (allWellFormed_cons.1 hargs).1
      have hnil : args = [] := by simpa using hbare
      split at h
      · cases h
        refine ⟨?_, fun hmem => ?_⟩
        · rw [mark_mem_iff hparse, hnil]
          simp [marked, anyMarked]
        · have hchar := hchars '?' hmem
          cases hchar
      · cases h
  · cases h

/-- The raw arguments of a type that is not nullable have all its question marks. -/
theorem mark_mem_of_splitGeneric? {name raw : Text} (h : splitGeneric? t = some (name, raw)) :
    .ofChar '?' ∈ raw ↔ .ofChar '?' ∈ t := by
  rw [splitGeneric?] at h
  split at h
  · next name' args raw' hparse =>
      cases h
      rw [mark_mem_iff hparse, mark_mem_raw_iff hparse rfl, marked, Bool.false_or]
      rfl
  · cases h

/-- Looking through a future adds no question mark. -/
theorem mark_mem_of_mem_withoutFuture (h : .ofChar '?' ∈ withoutFuture t) : .ofChar '?' ∈ t := by
  rw [withoutFuture] at h
  split at h
  · next name arg nullable raw hparse =>
      split at h
      · rw [mark_mem_raw_iff hparse rfl] at h
        rw [mark_mem_iff hparse, marked, Bool.or_eq_true]
        exact .inr h
      · exact h
  · exact h

/-- The text of a type has no question mark once its marks are dropped. -/
theorem mark_not_mem_withoutMarks {e : TypeExpr} (h : parse? t = some e) :
    .ofChar '?' ∉ withoutMarks t := by
  rw [withoutMarks]
  split
  · rw [h]
    simp only
    rw [mark_mem_render false (wellFormed_of_parse? h)]
    exact fun hmarks => Bool.false_ne_true hmarks.1
  · next hmark => simpa using hmark

end TypeExpr

namespace Shape

open Text TypeExpr

/-! ## What a shape carries -/

/-- The item of a list that is no wrapper comes from a text without question marks. -/
theorem Analysis.mark_not_mem_of_directItem? {a : Analysis}
    (hitem : ∀ item, a.item = some item → .ofChar '?' ∉ a.effective ∧ .ofChar '?' ∉ item)
    {item : Text} (h : a.directItem? = some item) :
    .ofChar '?' ∉ a.effective ∧ .ofChar '?' ∉ item := by
  rw [directItem?] at h
  split at h
  · split at h
    · next found hfound =>
        cases h
        exact hitem item hfound
    · exact mark_not_mem_of_listItem? h
  · cases h

/-- A shape carries the item of its arguments, the arguments, the item of a list or the text that
the rules look at. -/
theorem Analysis.carried_shape (a : Analysis) (envelope : Envelope) :
    a.item = some (a.shape envelope).carried ∨ a.inner = some (a.shape envelope).carried
      ∨ a.directItem? = some (a.shape envelope).carried
      ∨ (a.shape envelope).carried = a.effective := by
  rw [shape]
  cases hdirect : a.directItem? with
  | some item =>
      split
      · split
        · next h => exact .inl h
        · next h => exact .inr (.inl h)
        · exact .inr (.inr (.inl rfl))
      · exact .inr (.inr (.inl rfl))
  | none =>
      split
      · split
        · next h => exact .inl h
        · next h => exact .inr (.inl h)
        · exact .inr (.inr (.inr rfl))
      · exact .inr (.inr (.inr rfl))

/-- The text that a shape carries has a question mark exactly when the text that the rules look at
has one. -/
theorem mark_mem_carried_iff_effective (t : Text) (envelope : Envelope) :
    .ofChar '?' ∈ (classify t envelope).carried ↔ .ofChar '?' ∈ (analyse t).effective := by
  have hitem : ∀ item, (analyse t).item = some item →
      .ofChar '?' ∉ (analyse t).effective ∧ .ofChar '?' ∉ item := by
    intro item h
    obtain ⟨⟨name, raw⟩, hsplit, hraw⟩ := Option.bind_eq_some_iff.1 h
    obtain ⟨hmark, hname⟩ := mark_not_mem_of_listItem? hraw
    exact ⟨fun hmem => hmark ((mark_mem_of_splitGeneric? hsplit).2 hmem), hname⟩
  rw [classify]
  -- an item is a bare name and only found in a type without marks, so both sides fail for it
  rcases (analyse t).carried_shape envelope with h | h | h | h
  · exact iff_of_false (hitem _ h).2 (hitem _ h).1
  · obtain ⟨⟨name, raw⟩, hsplit, hraw⟩ := Option.map_eq_some_iff.1 h
    rw [← hraw]
    exact mark_mem_of_splitGeneric? hsplit
  · obtain ⟨hmark, hname⟩ := Analysis.mark_not_mem_of_directItem? hitem h
    exact iff_of_false hname hmark
  · rw [h]

/-! ## Texts that are no types -/

/-- What is left of a text that is no type: the white space and then the question marks at its end
are gone. -/
def remainder (t : Text) : Text :=
  dropEndWhile '?' (trimEnd t)

theorem mem_of_mem_remainder {c : CodePoint} {t : Text} (h : c ∈ remainder t) : c ∈ t := by
  have hmarks := (List.dropWhile_sublist (· == CodePoint.ofChar '?')).subset (List.mem_reverse.1 h)
  have hend := (List.dropWhile_sublist isBlank).subset
    (List.mem_reverse.1 (List.mem_reverse.1 hmarks))
  exact List.mem_reverse.1 hend

/-- **A shape carries a question mark exactly when the text is no type and one is left.** The shape
of a type never carries one, however its nodes are marked. A text that is no type loses those at its
end and, when what is left is a nullable future, the mark of that future; all others are carried. -/
theorem mark_mem_carried_iff (t : Text) (envelope : Envelope) :
    .ofChar '?' ∈ (classify t envelope).carried
      ↔ parse? t = none ∧ .ofChar '?' ∈ withoutFuture (remainder t) := by
  rw [mark_mem_carried_iff_effective, analyse]
  show .ofChar '?' ∈ withoutFuture (withoutMarks t) ↔ _
  cases hparse : parse? t with
  -- the marks of a type are dropped on its tree, those of any other text only at its end
  | some e =>
      refine iff_of_false (fun hmem => ?_) (fun h => by cases h.1)
      exact mark_not_mem_withoutMarks hparse (mark_mem_of_mem_withoutFuture hmem)
  | none =>
      rw [and_iff_right rfl]
      by_cases hmark : .ofChar '?' ∈ t
      · rw [withoutMarks, if_pos (by simpa using hmark), hparse]
        rfl
      · rw [withoutMarks_eq_self hmark]
        refine iff_of_false (fun hmem => hmark (mark_mem_of_mem_withoutFuture hmem)) fun hmem => ?_
        exact hmark (mem_of_mem_remainder (mark_mem_of_mem_withoutFuture hmem))

/-- A function type keeps the mark of its parameter, and of two marks with a space between them or
behind a wrapper one is left. -/
theorem classify_marked :
    classify "void Function(int?)".toText .plain = .directModel "void Function(int?)".toText
      ∧ classify "Task? ?".toText .plain = .directModel "Task? ".toText
      ∧ classify "Page<Task?>??".toText { wrapper := .str "Page".toText }
        = .wrappedModel "Task?".toText := by
  decide +kernel

end Shape

end DartDecoders
