/-
Texts that are closed in themselves.

The parts that a class is made of are scanned several times: comments are removed, annotations are
looked for, and brackets are matched. None of these walks is carried from one part into the next
when the part closes its own brackets and literals and holds neither a comment nor the generator's
annotation (`SelfContained`). Such parts are put together here: behind text that means nothing to
any of the walks, side by side, and between brackets.
-/
import DartDecoders.Proofs.Annotations
import DartDecoders.Proofs.Nesting
import DartDecoders.Proofs.Words

set_option autoImplicit false

namespace DartDecoders

namespace Source

open Text

/-! ## Balanced texts -/

/-- A balanced text behind a balanced one without quotes. -/
theorem Balanced.prepend {t u : Text} (hquote : ∀ c ∈ t, isQuote c = false) (ht : Balanced t)
    (hu : Balanced u) : Balanced (t ++ u) where
  isSealed := .prepend hquote hu.isSealed
  nested := by
    rw [pieces_append_of_forall hquote, ← pieces_of_forall hquote]
    exact ht.nested.append hu.nested

/-- Balanced texts without quotes in a list with commas between them. -/
theorem Balanced.list {texts : List Text} (hquote : ∀ t ∈ texts, ∀ c ∈ t, isQuote c = false)
    (h : ∀ t ∈ texts, Balanced t) : Balanced (join [',', ' '] texts) := by
  induction texts with
  | nil => exact .of_forall (by simp [join]) (by simp [join])
  | cons t rest ih =>
      have ht := h t List.mem_cons_self
      have htquote := hquote t List.mem_cons_self
      have hrest := ih (fun u hu => hquote u (List.mem_cons_of_mem t hu))
        fun u hu => h u (List.mem_cons_of_mem t hu)
      cases rest with
      | nil => rwa [join_singleton]
      | cons u rest =>
          have hcomma : Balanced [',', ' '] := .of_forall (by decide) (by decide)
          rw [join_cons_cons]
          exact ht.prepend htquote (hcomma.prepend (by decide) hrest)

/-! ## Parts -/

/-- A character that opens no literal, no comment and no annotation. -/
def IsInert (c : CodePoint) : Prop :=
  isQuote c = false ∧ c ≠ '/' ∧ c ≠ '@'

instance (c : CodePoint) : Decidable (IsInert c) :=
  inferInstanceAs (Decidable (_ ∧ _))

/-- A text that means nothing to the scanner: there are no brackets in it either. -/
def Inert (t : Text) : Prop :=
  ∀ c ∈ t, IsInert c ∧ isBracket c = false

instance (t : Text) : Decidable (Inert t) :=
  inferInstanceAs (Decidable (∀ c ∈ t, _))

/-- A bracket opens no literal, no comment and no annotation. -/
theorem isInert_of_closerOf? {opener closer : CodePoint} (h : closerOf? opener = some closer) :
    IsInert opener ∧ IsInert closer := by
  rcases closerOf?_eq_some h with ⟨rfl, rfl⟩ | ⟨rfl, rfl⟩ | ⟨rfl, rfl⟩ <;> decide

theorem Inert.balanced {t : Text} (h : Inert t) : Balanced t :=
  .of_forall (fun c hc => (h c hc).1.1) fun c hc => (h c hc).2

theorem Inert.append {t u : Text} (ht : Inert t) (hu : Inert u) : Inert (t ++ u) :=
  List.forall_mem_append.2 ⟨ht, hu⟩

/-- The brackets and literals of the text are closed in it, and there is neither a comment nor the
generator's annotation in it. -/
structure SelfContained (t : Text) : Prop where
  balanced : Balanced t
  uncommented : Uncommented t
  unmarked : Unmarked t

theorem SelfContained.of_isInert {t : Text} (ht : ∀ c ∈ t, IsInert c) (hbalanced : Balanced t) :
    SelfContained t where
  balanced := hbalanced
  uncommented := .of_forall fun c hc => ⟨(ht c hc).1, (ht c hc).2.1⟩
  unmarked := .of_forall fun c hc => (ht c hc).2.2

theorem SelfContained.prepend {t u : Text} (ht : ∀ c ∈ t, IsInert c) (hbalanced : Balanced t)
    (hu : SelfContained u) : SelfContained (t ++ u) where
  balanced := hbalanced.prepend (fun c hc => (ht c hc).1) hu.balanced
  uncommented := .prepend (fun c hc => ⟨(ht c hc).1, (ht c hc).2.1⟩) hu.uncommented
  unmarked := (Unmarked.of_forall fun c hc => (ht c hc).2.2).append hu.unmarked

theorem SelfContained.append {t u : Text} (ht : SelfContained t) (hu : SelfContained u)
    (hstop : StopsAt isQuote u) : SelfContained (t ++ u) where
  balanced := ht.balanced.append hu.balanced hstop
  uncommented := ht.uncommented.append hu.uncommented
  unmarked := ht.unmarked.append hu.unmarked

theorem SelfContained.nil : SelfContained [] :=
  .of_isInert (by simp) (.of_forall (by simp) (by simp))

theorem Inert.selfContained {t : Text} (h : Inert t) : SelfContained t :=
  .of_isInert (fun c hc => (h c hc).1) h.balanced

/-- Text that means nothing to the scanner in front of a text. -/
theorem SelfContained.behind {t u : Text} (ht : Inert t) (hu : SelfContained u) :
    SelfContained (t ++ u) :=
  hu.prepend (fun c hc => (ht c hc).1) ht.balanced

/-- Brackets around a text. -/
theorem SelfContained.group {opener closer : CodePoint} {inner : Text}
    (h : closerOf? opener = some closer) (hinner : SelfContained inner) :
    SelfContained (opener :: (inner ++ [closer])) := by
  have hchars := isInert_of_closerOf? h
  have hclosing : Uncommented [closer] := .char hchars.2.1 hchars.2.2.1 .nil
  have hopeningMark : Unmarked [opener] := .of_forall (by simpa using hchars.1.2.2)
  have hclosingMark : Unmarked [closer] := .of_forall (by simpa using hchars.2.2.2)
  refine ⟨.group h hinner.balanced, ?_, ?_⟩
  · exact .char hchars.1.1 hchars.1.2.1 (hinner.uncommented.append hclosing)
  · exact hopeningMark.append (hinner.unmarked.append hclosingMark)

end Source

end DartDecoders
