/-
Canonical texts of types.

A tree is well formed when its names are names of the grammar and it has arguments exactly when it
has brackets. The canonical text of such a tree is derived by the grammar
(`exists_spelling_render`), so reading it gives the tree back, with the raw arguments replaced by
their canonical texts (`parse?_render`). Two arguments with a comma between them are no type:
reading stops at the comma (`parse?_renderArgs_eq_none`).
-/
import DartDecoders.Proofs.TypeGrammar
import DartDecoders.TypeExpr.Query

set_option autoImplicit false

namespace DartDecoders

namespace TypeExpr

open Text

/-! ## Well-formed trees -/

mutual

/-- Every name is a name of the grammar, and there are arguments exactly where there are brackets.
-/
def wellFormed : TypeExpr → Bool
  | .node name args _ argsText =>
    name.all isNameChar && isName name && (argsText.isSome == !args.isEmpty) && allWellFormed args

/-- Every one of the trees is well formed. -/
def allWellFormed : List TypeExpr → Bool
  | [] => true
  | arg :: rest => wellFormed arg && allWellFormed rest

end

theorem wellFormed_node {name : Text} {args : List TypeExpr} {nullable : Bool}
    {argsText : Option Text} :
    wellFormed (.node name args nullable argsText) = true ↔
      ((∀ c ∈ name, isNameChar c = true) ∧ isName name = true)
        ∧ (argsText.isSome = !args.isEmpty) ∧ allWellFormed args = true := by
  rw [wellFormed]
  simp only [Bool.and_eq_true, List.all_eq_true, beq_iff_eq, and_assoc]

theorem allWellFormed_cons {arg : TypeExpr} {rest : List TypeExpr} :
    allWellFormed (arg :: rest) = true ↔ wellFormed arg = true ∧ allWellFormed rest = true := by
  rw [allWellFormed, Bool.and_eq_true]

/-! ## The tree of a canonical text -/

mutual

/-- The tree that the canonical text of a tree spells: the raw arguments are the canonical ones, and
nullability is lost where its marks are left out. -/
def canonical (marks : Bool) : TypeExpr → TypeExpr
  | .node name args nullable argsText =>
    .node name (canonicalArgs marks args) (marks && nullable)
      (argsText.map fun _ => renderArgs marks args)

/-- The trees that the canonical texts of some trees spell. -/
def canonicalArgs (marks : Bool) : List TypeExpr → List TypeExpr
  | [] => []
  | arg :: rest => canonical marks arg :: canonicalArgs marks rest

end

/-! ## The parts of a canonical text -/

/-- The brackets of a node with its arguments, empty when it has none. -/
def bracketText (marks : Bool) (args : List TypeExpr) (argsText : Option Text) : Text :=
  if argsText.isSome then .ofChar '<' :: renderArgs marks args ++ [.ofChar '>'] else []

/-- The mark of a node, empty when it is not nullable or marks are left out. -/
def nullText (marks nullable : Bool) : Text :=
  if marks && nullable then ['?'] else []

theorem render_node (marks : Bool) (name : Text) (args : List TypeExpr) (nullable : Bool)
    (argsText : Option Text) :
    render marks (.node name args nullable argsText)
      = name ++ (bracketText marks args argsText ++ nullText marks nullable) := by
  rw [render, List.append_assoc]
  rfl

theorem renderArgs_cons (marks : Bool) (arg next : TypeExpr) (rest : List TypeExpr) :
    renderArgs marks (arg :: next :: rest)
      = render marks arg ++ .ofChar ',' :: .ofChar ' ' :: renderArgs marks (next :: rest) := by
  rw [renderArgs]

theorem isName_ne_nil {name : Text} (h : isName name = true) : name ≠ [] := by
  rintro rfl
  cases h

theorem nullText_eq_nil_or (marks nullable : Bool) :
    nullText marks nullable = [] ∨ nullText marks nullable = [.ofChar '?'] := by
  rw [nullText]
  split
  · exact .inr rfl
  · exact .inl rfl

theorem render_ne_nil {marks : Bool} {e : TypeExpr} (h : wellFormed e = true) :
    render marks e ≠ [] := by
  obtain ⟨name, args, nullable, argsText⟩ := e
  obtain ⟨⟨-, hname⟩, -⟩ := wellFormed_node.1 h
  rw [render_node]
  simp [isName_ne_nil hname]

theorem renderArgs_ne_nil {marks : Bool} {arg : TypeExpr} {rest : List TypeExpr}
    (h : allWellFormed (arg :: rest) = true) : renderArgs marks (arg :: rest) ≠ [] := by
  have harg : render marks arg ≠ [] := render_ne_nil (allWellFormed_cons.1 h).1
  cases rest with
  | nil => rwa [renderArgs]
  | cons next rest => simp [renderArgs_cons]

/-- There is no white space at the ends of a type's canonical text. -/
theorem trimmed_render {marks : Bool} {e : TypeExpr} (h : wellFormed e = true) :
    Trimmed (render marks e) := by
  obtain ⟨name, args, nullable, argsText⟩ := e
  obtain ⟨⟨hchars, hname⟩, -⟩ := wellFormed_node.1 h
  have hne := isName_ne_nil hname
  have hident : Trimmed name := Trimmed.of_forall fun c hc => isBlank_of_isNameChar (hchars c hc)
  have hmark : Trimmed [.ofChar '?'] := ⟨rfl, rfl⟩
  have hclosing : Trimmed [.ofChar '>'] := ⟨rfl, rfl⟩
  rw [render_node, bracketText]
  rcases nullText_eq_nil_or marks nullable with hnull | hnull <;> rw [hnull] <;> split
  · rw [List.append_nil]
    exact hident.around hclosing hne (by simp) ('<' :: renderArgs marks args)
  · simpa using hident
  · exact hident.around hmark hne (by simp) _
  · exact hident.around hmark hne (by simp) []

/-- There is no white space at the ends of the canonical text of arguments. -/
theorem trimmed_renderArgs {marks : Bool} : ∀ {arg : TypeExpr} {rest : List TypeExpr},
    allWellFormed (arg :: rest) = true → Trimmed (renderArgs marks (arg :: rest))
  | arg, [], h => by
    rw [renderArgs]
    exact trimmed_render (allWellFormed_cons.1 h).1
  | arg, next :: rest, h => by
    obtain ⟨harg, hrest⟩ := allWellFormed_cons.1 h
    rw [renderArgs_cons]
    exact (trimmed_render harg).around (trimmed_renderArgs hrest) (render_ne_nil harg)
      (renderArgs_ne_nil hrest) [',', ' ']

/-! ## The derivation of a canonical text -/

/-- No white space. -/
def Gap.none : Gap where
  text := []
  blank := by simp

/-- One space. -/
def Gap.space : Gap where
  text := [' ']
  blank := by
    intro c hc
    rw [List.mem_singleton.1 hc]
    rfl

/-- The mark of a node as a part of a derivation. -/
def markOf (marks nullable : Bool) : Option Gap :=
  if marks && nullable then some Gap.none else Option.none

theorem markText_markOf (marks nullable : Bool) :
    markText (markOf marks nullable) = nullText marks nullable := by
  rw [markOf, nullText]
  split <;> rfl

theorem isSome_markOf (marks nullable : Bool) :
    (markOf marks nullable).isSome = (marks && nullable) := by
  rw [markOf]
  split <;> simp_all

mutual

/-- The grammar derives the canonical text of a well-formed tree, whatever white space is before it,
and the derivation has the canonical tree. -/
theorem exists_spelling_render (marks : Bool) : ∀ {e : TypeExpr}, wellFormed e = true →
    ∀ g : Gap, ∃ s : Spelling, s.text = g.text ++ render marks e ∧ s.tree = canonical marks e
  | .node name args nullable argsText, h, g => by
    obtain ⟨⟨hchars, hname⟩, hbrackets, hargs⟩ := wellFormed_node.1 h
    rw [render_node, canonical, bracketText]
    cases argsText with
    | none =>
        cases args with
        | nil =>
            refine ⟨.bare g (.ofName name hchars hname) (markOf marks nullable), ?_, ?_⟩
            · rw [Spelling.text, markText_markOf]
              rfl
            · rw [Spelling.tree, isSome_markOf]
              rfl
        | cons arg rest => cases hbrackets
    | some raw =>
        cases args with
        | nil => cases hbrackets
        | cons arg rest =>
            obtain ⟨ss, htext, htrees⟩ :=
              exists_spellings_renderArgs marks (List.cons_ne_nil _ _) hargs Gap.none
            have htrim : trim (ss.text ++ Gap.none.text) = renderArgs marks (arg :: rest) := by
              rw [htext]
              simpa [Gap.none] using (trimmed_renderArgs hargs).trim_eq
            refine ⟨.generic g (.ofName name hchars hname) Gap.none ss Gap.none
              (markOf marks nullable), ?_, ?_⟩
            · rw [Spelling.text, htext, markText_markOf]
              simp [Gap.none, Ident.ofName]
            · rw [Spelling.tree, isSome_markOf, htrees, htrim]
              rfl

/-- The grammar derives the canonical text of arguments. -/
theorem exists_spellings_renderArgs (marks : Bool) : ∀ {args : List TypeExpr}, args ≠ [] →
    allWellFormed args = true → ∀ g : Gap, ∃ ss : Spellings,
      ss.text = g.text ++ renderArgs marks args ∧ ss.trees = canonicalArgs marks args
  | [], hne, _, _ => absurd rfl hne
  | [arg], _, h, g => by
    obtain ⟨s, htext, htree⟩ := exists_spelling_render marks (allWellFormed_cons.1 h).1 g
    refine ⟨.last s, ?_, ?_⟩
    · rw [Spellings.text, htext, renderArgs]
    · rw [Spellings.trees, htree, canonicalArgs, canonicalArgs]
  | arg :: next :: rest, _, h, g => by
    obtain ⟨harg, hrest⟩ := allWellFormed_cons.1 h
    obtain ⟨s, htext, htree⟩ := exists_spelling_render marks harg g
    obtain ⟨ss, hothers, htrees⟩ :=
      exists_spellings_renderArgs marks (List.cons_ne_nil _ _) hrest Gap.space
    refine ⟨.more s Gap.none ss, ?_, ?_⟩
    · rw [Spellings.text, htext, hothers, renderArgs_cons]
      simp [Gap.none, Gap.space]
    · rw [Spellings.trees, htree, htrees, ← canonicalArgs]

end

/-- Reading the canonical text of a well-formed tree gives the canonical tree. -/
theorem parse?_render (marks : Bool) {e : TypeExpr} (h : wellFormed e = true) :
    parse? (render marks e) = some (canonical marks e) := by
  obtain ⟨s, htext, htree⟩ := exists_spelling_render marks h Gap.none
  refine parse?_eq_some_iff.2 ⟨⟨s, Gap.none⟩, ?_, htree⟩
  rw [Sentence.text, htext]
  simp [Gap.none]

/-- A type with a comma behind it is no type: its derivation would be that of the whole text, and a
comma is no white space. -/
theorem parse?_comma (s : Spelling) (g : Gap) (rest : Text) :
    parse? (s.text ++ (g.text ++ .ofChar ',' :: rest)) = none := by
  rw [← Option.not_isSome_iff_eq_none, Option.isSome_iff_exists]
  rintro ⟨e, he⟩
  obtain ⟨whole, hwhole, -⟩ := parse?_eq_some_iff.1 he
  obtain ⟨-, hrest⟩ := Spelling.text_append_inj s whole.type ((follows_comma rest).gap g)
    whole.after.follows hwhole.symm
  have htrim := congrArg trimStart hrest
  rw [whole.after.trimStart_text, g.trimStart_append_cons rfl] at htrim
  cases htrim

/-- Several types with commas between them are no type. -/
theorem parse?_renderArgs_eq_none (marks : Bool) {arg next : TypeExpr} {rest : List TypeExpr}
    (h : wellFormed arg = true) : parse? (renderArgs marks (arg :: next :: rest)) = none := by
  obtain ⟨s, htext, -⟩ := exists_spelling_render marks h Gap.none
  have hcomma := parse?_comma s Gap.none (' ' :: renderArgs marks (next :: rest))
  rw [htext] at hcomma
  rw [renderArgs_cons]
  exact hcomma

end TypeExpr

end DartDecoders
