/-
Printing and reading types.

Printing a well-formed tree and reading the text again gives the tree back, with the canonical texts
of its arguments as the raw text of each node, and printing it without marks gives the tree in which
no node is nullable (`parse?_inverts_render`). So a canonical text is a normal form: what is read
from it is printed as the same text.

Dropping the marks of a text that is a type is the same on the tree. A text without a question mark
is left as it is and any other is printed anew, and both ways the text that comes out is one of the
tree with no node nullable (`withoutMarks_clears_marks`). The two ways meet because a text has a
question mark exactly when one of the nodes of its tree is nullable.
-/
import DartDecoders.Proofs.RemainingMarks

set_option autoImplicit false

namespace DartDecoders

namespace TypeExpr

open Text

/-! ## Nodes -/

mutual

/-- The nodes of a tree: the type itself and every type inside it. -/
def nodes : TypeExpr → List TypeExpr
  | .node name args nullable argsText => .node name args nullable argsText :: nodesOfArgs args

/-- The nodes of some trees. -/
def nodesOfArgs : List TypeExpr → List TypeExpr
  | [] => []
  | arg :: rest => nodes arg ++ nodesOfArgs rest

end

mutual

/-- A tree is marked when one of its nodes is nullable. -/
theorem marked_iff_nodes : ∀ {e : TypeExpr},
    marked e = true ↔ ∃ g ∈ nodes e, g.nullable = true
  | .node name args nullable argsText => by
    rw [marked, nodes, Bool.or_eq_true, anyMarked_iff_nodes]
    simp [TypeExpr.nullable]

theorem anyMarked_iff_nodes : ∀ {args : List TypeExpr},
    anyMarked args = true ↔ ∃ g ∈ nodesOfArgs args, g.nullable = true
  | [] => by simp [anyMarked, nodesOfArgs]
  | arg :: rest => by
    rw [anyMarked, nodesOfArgs, Bool.or_eq_true, marked_iff_nodes, anyMarked_iff_nodes]
    simp only [List.mem_append, or_and_right, exists_or]

end

/-! ## The tree of a text without marks -/

mutual

/-- A canonical text without marks spells the tree in which no node is nullable. -/
theorem canonical_unmarked : ∀ e : TypeExpr, canonical true (unmarked e) = canonical false e
  | .node name args nullable argsText => by
    rw [unmarked, canonical, canonical, canonicalArgs_unmarkedArgs args,
      renderArgs_unmarkedArgs true args]
    rfl

theorem canonicalArgs_unmarkedArgs : ∀ args : List TypeExpr,
    canonicalArgs true (unmarkedArgs args) = canonicalArgs false args
  | [] => by rw [unmarkedArgs, canonicalArgs, canonicalArgs]
  | arg :: rest => by
    rw [unmarkedArgs, canonicalArgs, canonicalArgs, canonical_unmarked arg,
      canonicalArgs_unmarkedArgs rest]

end

mutual

/-- The canonical tree differs in the raw arguments only. -/
theorem outline_canonical : ∀ e : TypeExpr, outline (canonical true e) = outline e
  | .node name args nullable argsText => by
    have hempty : (canonicalArgs true args).isEmpty = args.isEmpty := by
      cases args <;> rfl
    rw [canonical, outline, outline, outlineArgs_canonicalArgs args, hempty, Bool.true_and]

theorem outlineArgs_canonicalArgs : ∀ args : List TypeExpr,
    outlineArgs (canonicalArgs true args) = outlineArgs args
  | [] => by rw [canonicalArgs]
  | arg :: rest => by
    rw [canonicalArgs, outlineArgs, outlineArgs, outline_canonical arg,
      outlineArgs_canonicalArgs rest]

end

/-! ## Printing and reading -/

/-- **Reading inverts printing.** The canonical text of a well-formed type is read as the same type
with the canonical texts of the arguments as the raw text of each node, and without marks as that
type with no node nullable. So for every text of a type its canonical text, with marks or without,
is a normal form: it is a type again, and the canonical text of that type. -/
theorem parse?_inverts_render :
    (∀ e : TypeExpr, wellFormed e = true →
      parse? (render true e) = some (canonical true e)
        ∧ parse? (render false e) = some (canonical true (unmarked e)))
      ∧ ∀ (t : Text) (e : TypeExpr), parse? t = some e → ∀ marks : Bool,
        ∃ f, parse? (render marks e) = some f ∧ render marks f = render marks e := by
  constructor
  · intro e h
    rw [canonical_unmarked]
    exact ⟨parse?_render true h, parse?_render false h⟩
  · intro t e h marks
    refine ⟨canonical marks e, parse?_render marks (wellFormed_of_parse? h), ?_⟩
    rw [render_canonical, Bool.and_self]

/-- A nullable map of lists with nullable items, as a tree and as a text with white space in it. -/
theorem parse?_inverts_render_map :
    (parse? "Map<a.Key, List<int?>?>?".toText
        = some (.node "Map".toText [.node "a.Key".toText [] false none,
            .node "List".toText [.node "int".toText [] true none] true (some "int?".toText)] true
          (some "a.Key, List<int?>?".toText))
      ∧ parse? "Map<a.Key, List<int>>".toText
        = some (.node "Map".toText [.node "a.Key".toText [] false none,
            .node "List".toText [.node "int".toText [] false none] false (some "int".toText)] false
          (some "a.Key, List<int>".toText)))
      ∧ ∃ e, parse? " Map < a.Key ,List<int ?> >?".toText = some e
        ∧ ∃ f, parse? (render true e) = some f ∧ render true f = render true e := by
  have hsome : (parse? " Map < a.Key ,List<int ?> >?".toText).isSome = true := by decide +kernel
  obtain ⟨e, he⟩ := Option.isSome_iff_exists.1 hsome
  exact ⟨parse?_inverts_render.1 (.node "Map".toText [.node "a.Key".toText [] false none,
      .node "List".toText [.node "int".toText [] true none] true (some [])] true (some []))
      (by decide), e, he, parse?_inverts_render.2 _ e he true⟩

/-! ## Dropping the marks -/

variable {t : Text} {e : TypeExpr}

/-- Without its marks a text is one of the type without nullable nodes. -/
theorem exists_parse?_withoutMarks (h : parse? t = some e) :
    ∃ f, parse? (withoutMarks t) = some f ∧ outline f = outline (unmarked e) := by
  by_cases hmark : .ofChar '?' ∈ t
  -- the text is printed anew
  · refine ⟨canonical false e, ?_, ?_⟩
    · rw [withoutMarks, if_pos (by simpa using hmark), h]
      exact parse?_render false (wellFormed_of_parse? h)
    · rw [← canonical_unmarked, outline_canonical]
  -- the text stays, and there is nothing to clear in its tree
  · have hunmarked : marked e = false := by
      rw [← Bool.not_eq_true, ← mark_mem_iff h]
      exact hmark
    refine ⟨e, ?_, ?_⟩
    · rw [withoutMarks_eq_self hmark, h]
    · rw [unmarked_eq_self hunmarked]

/-- **Dropping the marks clears nullability and nothing else.** For every text that is a type the
text without marks is one too, with the tree in which no node is nullable, raw arguments aside. It
has no question mark, so dropping the marks again changes nothing. There is a question mark in the
text exactly when some node of its tree is nullable. -/
theorem withoutMarks_clears_marks (h : parse? t = some e) :
    (∃ f, parse? (withoutMarks t) = some f ∧ outline f = outline (unmarked e))
      ∧ .ofChar '?' ∉ withoutMarks t
      ∧ withoutMarks (withoutMarks t) = withoutMarks t
      ∧ (.ofChar '?' ∈ t ↔ ∃ g ∈ nodes e, g.nullable = true) := by
  have hmark := mark_not_mem_withoutMarks h
  refine ⟨exists_parse?_withoutMarks h, hmark, withoutMarks_eq_self hmark, ?_⟩
  rw [mark_mem_iff h, marked_iff_nodes]

/-- A future of a wrapper whose item is nullable, with a space before the mark. -/
theorem withoutMarks_clears_marks_future :
    ∃ e, parse? "Future< Page<Task ?>>".toText = some e
      ∧ (∃ f, parse? "Future<Page<Task>>".toText = some f ∧ outline f = outline (unmarked e))
      ∧ ∃ g ∈ nodes e, g.nullable = true := by
  have hsome : (parse? "Future< Page<Task ?>>".toText).isSome = true := by decide +kernel
  obtain ⟨e, he⟩ := Option.isSome_iff_exists.1 hsome
  have htext : withoutMarks "Future< Page<Task ?>>".toText = "Future<Page<Task>>".toText := by
    decide +kernel
  obtain ⟨hparse, -, -, hmark⟩ := withoutMarks_clears_marks he
  rw [htext] at hparse
  exact ⟨e, he, hparse, hmark.1 (by decide)⟩

end TypeExpr

end DartDecoders
