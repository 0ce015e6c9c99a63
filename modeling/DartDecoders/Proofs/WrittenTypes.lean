/-
Types as they are written.

A text that is a type may have white space between any two of its parts, so it need not be the
canonical text of its tree, and the raw arguments of a node are whatever stands between its
brackets. What holds of such a text all the same is said here, for every derivation and from there
for every text that is read. The tree is well formed. White space at the ends of the text does not
count (`parse?_trim`), and neither does any other: without it the text is the canonical one without
its spaces (`visible_of_parse?`), so there is a question mark in it exactly when a node is nullable
(`mark_mem_iff`). The raw arguments of a node are again a type when there is one of them
(`parse?_raw`), and no type when there are several (`parse?_raw_eq_none`).
-/
import DartDecoders.Proofs.CanonicalType

set_option autoImplicit false

namespace DartDecoders

namespace Text

/-! ## Texts up to white space -/

/-- The text without its white space. -/
def visible (t : Text) : Text :=
  t.filter fun c => !isBlank c

@[simp] theorem visible_append (t u : Text) : visible (t ++ u) = visible t ++ visible u :=
  List.filter_append ..

theorem visible_cons {c : CodePoint} (hc : isBlank c = false) (t : Text) :
    visible (c :: t) = c :: visible t := by
  simp [visible, hc]

theorem visible_eq_nil {t : Text} (h : ∀ c ∈ t, isBlank c = true) : visible t = [] := by
  rw [visible, List.filter_eq_nil_iff]
  intro c hc
  simp [h c hc]

theorem mem_visible_iff {c : CodePoint} (hc : isBlank c = false) {t : Text} :
    c ∈ visible t ↔ c ∈ t := by
  simp [visible, hc]

@[simp] theorem visible_trim (t : Text) : visible (trim t) = visible t := by
  obtain ⟨gap, gap', hgap, hgap', ht⟩ := exists_gaps_trim t
  have hvisible := congrArg visible ht
  rw [visible_append, visible_append, visible_eq_nil hgap, visible_eq_nil hgap', List.nil_append,
    List.append_nil] at hvisible
  exact hvisible.symm

end Text

namespace TypeExpr

open Text

/-! ## Trees of derivations -/

theorem Spellings.trees_ne_nil (ss : Spellings) : ss.trees ≠ [] := by
  cases ss <;> simp [Spellings.trees]

mutual

/-- The tree of a derivation is well formed. -/
theorem Spelling.wellFormed_tree : ∀ s : Spelling, wellFormed s.tree = true
  | .bare before ident mark => by
    rw [Spelling.tree, wellFormed_node]
    exact ⟨⟨fun c hc => ident.isNameChar_of_mem hc, ident.isName⟩, rfl, rfl⟩
  | .generic before ident opening arguments closing mark => by
    rw [Spelling.tree, wellFormed_node]
    refine ⟨⟨fun c hc => ident.isNameChar_of_mem hc, ident.isName⟩, ?_, arguments.wellFormed_trees⟩
    simp [arguments.trees_ne_nil]

theorem Spellings.wellFormed_trees : ∀ ss : Spellings, allWellFormed ss.trees = true
  | .last argument => by
    rw [Spellings.trees, allWellFormed_cons]
    exact ⟨argument.wellFormed_tree, rfl⟩
  | .more argument comma rest => by
    rw [Spellings.trees, allWellFormed_cons]
    exact ⟨argument.wellFormed_tree, rest.wellFormed_trees⟩

end

/-- What is read is well formed. -/
theorem wellFormed_of_parse? {t : Text} {e : TypeExpr} (h : parse? t = some e) :
    wellFormed e = true := by
  obtain ⟨s, -, rfl⟩ := parse?_eq_some_iff.1 h
  exact s.type.wellFormed_tree

/-! ## White space inside -/

@[simp] theorem Gap.visible_text (g : Gap) : visible g.text = [] :=
  visible_eq_nil g.blank

theorem Ident.visible_text (i : Ident) : visible i.text = i.text := by
  rw [visible, List.filter_eq_self]
  intro c hc
  simp [isBlank_of_isNameChar (i.isNameChar_of_mem hc)]

theorem visible_markText (mark : Option Gap) :
    visible (markText mark) = nullText true mark.isSome := by
  cases mark with
  | none => rfl
  | some gap =>
      rw [markText, visible_append, gap.visible_text]
      rfl

theorem visible_nullText (marks nullable : Bool) :
    visible (nullText marks nullable) = nullText marks nullable := by
  rcases nullText_eq_nil_or marks nullable with h | h <;> rw [h] <;> rfl

mutual

/-- Without white space a derived text is the canonical text of its tree without spaces. -/
theorem Spelling.visible_text : ∀ s : Spelling, visible s.text = visible (render true s.tree)
  | .bare before ident mark => by
    rw [Spelling.text, Spelling.tree, render_node]
    simp [bracketText, visible_markText, visible_nullText]
  | .generic before ident opening arguments closing mark => by
    have hargs := arguments.visible_text
    have hopening (t : Text) : visible (.ofChar '<' :: t) = .ofChar '<' :: visible t :=
      visible_cons rfl t
    have hclosing (t : Text) : visible (.ofChar '>' :: t) = .ofChar '>' :: visible t :=
      visible_cons rfl t
    rw [Spelling.text, Spelling.tree, render_node, bracketText, if_pos (Option.isSome_some ..)]
    simp only [visible_append, Gap.visible_text, List.nil_append, List.cons_append,
      List.append_assoc, hopening, hclosing, hargs, visible_markText, visible_nullText]

theorem Spellings.visible_text : ∀ ss : Spellings,
    visible ss.text = visible (renderArgs true ss.trees)
  | .last argument => by
    rw [Spellings.text, Spellings.trees, renderArgs]
    exact argument.visible_text
  | .more argument comma rest => by
    obtain ⟨next, others, htrees⟩ := List.exists_cons_of_ne_nil rest.trees_ne_nil
    have hrest := rest.visible_text
    have hcomma (t : Text) : visible (.ofChar ',' :: t) = .ofChar ',' :: visible t :=
      visible_cons rfl t
    have hspace (t : Text) : visible (' ' :: t) = visible t := rfl
    rw [Spellings.text, Spellings.trees, htrees, renderArgs_cons, ← htrees]
    simp only [visible_append, Gap.visible_text, List.nil_append, hcomma, hspace,
      argument.visible_text, hrest]

end

/-- A text that is read is the canonical text of its tree, white space aside. -/
theorem visible_of_parse? {t : Text} {e : TypeExpr} (h : parse? t = some e) :
    visible t = visible (render true e) := by
  obtain ⟨s, rfl, rfl⟩ := parse?_eq_some_iff.1 h
  rw [Sentence.text, visible_append, s.after.visible_text, List.append_nil, s.type.visible_text]

/-! ## White space at the ends -/

/-- Two gaps one behind the other. -/
def Gap.append (g h : Gap) : Gap where
  text := g.text ++ h.text
  blank := List.forall_mem_append.2 ⟨g.blank, h.blank⟩

namespace Spelling

/-- The derivation with other white space in front. -/
def indented (g : Gap) : Spelling → Spelling
  | .bare _ ident mark => .bare g ident mark
  | .generic _ ident opening arguments closing mark =>
    .generic g ident opening arguments closing mark

/-- The white space in front. -/
def before : Spelling → Gap
  | .bare before _ _ | .generic before _ _ _ _ _ => before

@[simp] theorem tree_indented (g : Gap) (s : Spelling) : (s.indented g).tree = s.tree := by
  cases s <;> rfl

theorem text_indented (g : Gap) (s : Spelling) :
    (s.indented g).text = g.text ++ (s.indented Gap.none).text := by
  cases s <;> rfl

theorem text_eq (s : Spelling) : s.text = s.before.text ++ (s.indented Gap.none).text := by
  rw [← text_indented]
  cases s <;> rfl

/-- A derived text without white space in front has none behind either: it ends in a character of a
name, a bracket or a question mark. -/
theorem trimmed_indented (s : Spelling) : Trimmed (s.indented Gap.none).text := by
  have hident (i : Ident) : Trimmed i.text :=
    Trimmed.of_forall fun c hc => isBlank_of_isNameChar (i.isNameChar_of_mem hc)
  have hclosing : Trimmed ['>'] := ⟨rfl, rfl⟩
  have hmark : Trimmed ['?'] := ⟨rfl, rfl⟩
  cases s with
  | bare before ident mark =>
      cases mark with
      | none => simpa [indented, Spelling.text, Gap.none, markText] using hident ident
      | some gap => exact (hident ident).around hmark ident.nonempty (by simp) gap.text
  | generic before ident opening arguments closing mark =>
      cases mark with
      | none =>
          have h := (hident ident).around hclosing ident.nonempty (by simp)
            (opening.text ++ .ofChar '<' :: (arguments.text ++ closing.text))
          simpa [indented, Spelling.text, Gap.none, markText] using h
      | some gap =>
          have h := (hident ident).around hmark ident.nonempty (by simp)
            (opening.text
              ++ .ofChar '<' :: (arguments.text ++ (closing.text ++ .ofChar '>' :: gap.text)))
          simpa [indented, Spelling.text, Gap.none, markText] using h

end Spelling

/-- White space at the ends of a text does not count. -/
theorem parse?_trim (t : Text) : parse? (trim t) = parse? t := by
  -- inwards the gaps at the ends of the derivation are dropped, outwards they are put on again
  have hinward {e : TypeExpr} (h : parse? t = some e) : parse? (trim t) = some e := by
    obtain ⟨s, rfl, rfl⟩ := parse?_eq_some_iff.1 h
    refine parse?_eq_some_iff.2 ⟨⟨s.type.indented Gap.none, Gap.none⟩, ?_, s.type.tree_indented _⟩
    rw [Sentence.text, Sentence.text, s.type.text_eq, List.append_assoc,
      trim_between s.type.before.blank s.type.trimmed_indented s.after.blank]
    exact List.append_nil _
  have houtward {e : TypeExpr} (h : parse? (trim t) = some e) : parse? t = some e := by
    obtain ⟨gap, gap', hgap, hgap', ht⟩ := exists_gaps_trim t
    obtain ⟨s, htext, rfl⟩ := parse?_eq_some_iff.1 h
    refine parse?_eq_some_iff.2 ⟨⟨s.type.indented (Gap.append ⟨gap, hgap⟩ s.type.before),
      s.after.append ⟨gap', hgap'⟩⟩, ?_, s.type.tree_indented _⟩
    rw [ht, ← htext, Sentence.text, Sentence.text, s.type.text_indented, s.type.text_eq]
    simp [Gap.append]
  refine Option.ext fun e => ⟨houtward, hinward⟩

/-! ## Raw arguments -/

section RawArguments

variable {t name raw : Text} {args : List TypeExpr} {nullable : Bool}

theorem exists_arguments_of_parse? (h : parse? t = some (.node name args nullable (some raw))) :
    ∃ (arguments : Spellings) (closing : Gap), args = arguments.trees
      ∧ raw = trim (arguments.text ++ closing.text) := by
  obtain ⟨⟨type, after⟩, -, htree⟩ := parse?_eq_some_iff.1 h
  cases type with
  | bare before ident mark => cases htree
  | generic before ident opening arguments closing mark =>
      cases htree
      exact ⟨arguments, closing, rfl, rfl⟩

/-- The raw text of a single argument is a text of this argument. -/
theorem parse?_raw {arg : TypeExpr} (h : parse? t = some (.node name [arg] nullable (some raw))) :
    parse? raw = some arg := by
  obtain ⟨arguments, closing, htrees, rfl⟩ := exists_arguments_of_parse? h
  rw [parse?_trim]
  cases arguments with
  | last argument =>
      cases htrees
      exact parse?_eq_some_iff.2 ⟨⟨argument, closing⟩, rfl, rfl⟩
  | more argument comma rest =>
      obtain ⟨-, hrest⟩ := List.cons.inj htrees
      exact absurd hrest.symm rest.trees_ne_nil

/-- The raw text of several arguments is no type. -/
theorem parse?_raw_eq_none {arg next : TypeExpr} {rest : List TypeExpr}
    (h : parse? t = some (.node name (arg :: next :: rest) nullable (some raw))) :
    parse? raw = none := by
  obtain ⟨arguments, closing, htrees, rfl⟩ := exists_arguments_of_parse? h
  rw [parse?_trim]
  cases arguments with
  | last argument => cases htrees
  -- the first argument with a comma behind it is no type, whatever follows
  | more argument comma others =>
      rw [Spellings.text, List.append_assoc, List.append_assoc, List.cons_append]
      exact parse?_comma argument comma _

/-- White space aside, the raw arguments are the canonical texts of the arguments. -/
theorem visible_raw {e : TypeExpr} (h : parse? t = some e) (hraw : e.argsText = some raw) :
    visible raw = visible (renderArgs true e.args) := by
  obtain ⟨name, args, nullable, argsText⟩ := e
  obtain rfl : argsText = some raw := hraw
  obtain ⟨arguments, closing, rfl, rfl⟩ := exists_arguments_of_parse? h
  rw [visible_trim, visible_append, closing.visible_text, List.append_nil, arguments.visible_text]
  rfl

end RawArguments

/-! ## Marks -/

mutual

/-- Some node of the tree is nullable. -/
def marked : TypeExpr → Bool
  | .node _ args nullable _ => nullable || anyMarked args

/-- Some node of one of the trees is nullable. -/
def anyMarked : List TypeExpr → Bool
  | [] => false
  | arg :: rest => marked arg || anyMarked rest

end

mutual

/-- There is a question mark in a canonical text exactly when marks are written and some node is
nullable. -/
theorem mark_mem_render (marks : Bool) : ∀ {e : TypeExpr}, wellFormed e = true →
    (.ofChar '?' ∈ render marks e ↔ marks = true ∧ marked e = true)
  | .node name args nullable argsText, h => by
    obtain ⟨⟨hchars, -⟩, hbrackets, hargs⟩ := wellFormed_node.1 h
    have hname : .ofChar '?' ∉ name := fun hmem => by
      have hchar := hchars '?' hmem
      cases hchar
    have hnull : .ofChar '?' ∈ nullText marks nullable ↔ marks = true ∧ nullable = true := by
      rw [nullText]
      split <;> simp_all
    have hinside : .ofChar '?' ∈ bracketText marks args argsText ↔
        .ofChar '?' ∈ renderArgs marks args := by
      rw [bracketText]
      split
      · simp
      · next hnone =>
          have hnil : args = [] := by simpa [hnone] using hbrackets
          rw [hnil, renderArgs]
    rw [render_node, marked, List.mem_append, List.mem_append, hnull, hinside,
      mark_mem_renderArgs marks hargs, or_iff_right hname, or_comm, ← and_or_left, Bool.or_eq_true]

theorem mark_mem_renderArgs (marks : Bool) : ∀ {args : List TypeExpr},
    allWellFormed args = true →
    (.ofChar '?' ∈ renderArgs marks args ↔ marks = true ∧ anyMarked args = true)
  | [], _ => by simp [renderArgs, anyMarked]
  | [arg], h => by
    rw [renderArgs, mark_mem_render marks (allWellFormed_cons.1 h).1]
    simp [anyMarked]
  | arg :: next :: rest, h => by
    obtain ⟨harg, hrest⟩ := allWellFormed_cons.1 h
    have hcomma : ('?' : CodePoint) ≠ ',' := by decide
    have hspace : ('?' : CodePoint) ≠ ' ' := by decide
    rw [renderArgs_cons, anyMarked, List.mem_append, List.mem_cons, List.mem_cons,
      or_iff_right hcomma, or_iff_right hspace, mark_mem_render marks harg,
      mark_mem_renderArgs marks hrest, ← and_or_left, Bool.or_eq_true]

end

/-- A text that is read has a question mark exactly when some node of its tree is nullable. -/
theorem mark_mem_iff {t : Text} {e : TypeExpr} (h : parse? t = some e) :
    .ofChar '?' ∈ t ↔ marked e = true := by
  rw [← mem_visible_iff rfl, visible_of_parse? h, mem_visible_iff rfl,
    mark_mem_render true (wellFormed_of_parse? h)]
  exact and_iff_right rfl

/-- Raw arguments have one exactly when some node of an argument is nullable. -/
theorem mark_mem_raw_iff {t raw : Text} {e : TypeExpr} (h : parse? t = some e)
    (hraw : e.argsText = some raw) : .ofChar '?' ∈ raw ↔ anyMarked e.args = true := by
  have hargs : allWellFormed e.args = true := by
    obtain ⟨name, args, nullable, argsText⟩ := e
    exact (wellFormed_node.1 (wellFormed_of_parse? h)).2.2
  rw [← mem_visible_iff rfl, visible_raw h hraw, mem_visible_iff rfl,
    mark_mem_renderArgs true hargs]
  exact and_iff_right rfl

/-! ## Trees without raw arguments -/

mutual

/-- What is left of a tree when the raw arguments are forgotten: the names, the arguments and the
marks. There are brackets exactly where there are arguments. -/
def outline : TypeExpr → TypeExpr
  | .node name args nullable _ =>
    .node name (outlineArgs args) nullable (if args.isEmpty then none else some [])

/-- What is left of some trees. -/
def outlineArgs : List TypeExpr → List TypeExpr
  | [] => []
  | arg :: rest => outline arg :: outlineArgs rest

end

mutual

/-- The canonical text of a tree is known from what is left of it. -/
theorem render_outline (marks : Bool) : ∀ {e : TypeExpr}, wellFormed e = true →
    render marks (outline e) = render marks e
  | .node name args nullable argsText, h => by
    obtain ⟨-, hbrackets, hargs⟩ := wellFormed_node.1 h
    have hsome : (if args.isEmpty then none else some ([] : Text)).isSome = argsText.isSome := by
      rw [hbrackets]
      cases args <;> rfl
    rw [outline, render_node, render_node, bracketText, bracketText, hsome,
      renderArgs_outlineArgs marks hargs]

theorem renderArgs_outlineArgs (marks : Bool) : ∀ {args : List TypeExpr},
    allWellFormed args = true → renderArgs marks (outlineArgs args) = renderArgs marks args
  | [], _ => by rw [outlineArgs]
  | [arg], h => by
    rw [outlineArgs, outlineArgs, renderArgs, renderArgs,
      render_outline marks (allWellFormed_cons.1 h).1]
  | arg :: next :: rest, h => by
    obtain ⟨harg, hrest⟩ := allWellFormed_cons.1 h
    have ih := renderArgs_outlineArgs marks hrest
    rw [outlineArgs] at ih
    rw [outlineArgs, outlineArgs, renderArgs_cons, renderArgs_cons, render_outline marks harg, ih]

end

/-- Texts of the same tree, raw arguments aside, have the same canonical text. -/
theorem render_eq_of_outline_eq {t u : Text} {e f : TypeExpr} (he : parse? t = some e)
    (hf : parse? u = some f) (h : outline e = outline f) (marks : Bool) :
    render marks e = render marks f := by
  rw [← render_outline marks (wellFormed_of_parse? he), h,
    render_outline marks (wellFormed_of_parse? hf)]

end TypeExpr

end DartDecoders
