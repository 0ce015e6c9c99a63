/-
Named parameters, read and written again.

A default value is cut at its equals signs outside literals and brackets, and put together again
from what it falls apart into, which is the same text only where it is `Glued`. An equality test
never is, nor is a comparison with a space behind its equals sign. The word for required parameters
is looked for among all words, so a parameter with that name comes back marked. In all other cases
the text of the parameter comes back as it was (`render_parseParameter_iff`).
-/
import DartDecoders.Proofs.GluedParts
import DartDecoders.Proofs.WrittenParameters

set_option autoImplicit false

namespace DartDecoders

open Text TypeExpr Source

/-- In a text of equals signs and white space nothing opens, and there is no colon. -/
theorem levelled_of_equals {t : Text} (h : ∀ c ∈ t, c = '=' ∨ isBlank c = true) :
    Levelled [':'] t := by
  have hplain : ∀ c ∈ t, isQuote c = false ∧ isBracket c = false ∧ c ≠ '<' ∧ c ≠ '>'
      ∧ c ≠ ':' := by
    intro c hc
    rcases h c hc with rfl | hblank
    · decide
    · exact ⟨(plain_of_isBlank hblank).1, (plain_of_isBlank hblank).2.1,
        ne_of_class hblank (by decide), ne_of_class hblank (by decide),
        ne_of_class hblank (by decide)⟩
  exact .of_forall (fun c hc => (hplain c hc).1) (fun c hc => (hplain c hc).2.1)
    (.of_forall fun c hc => ⟨(hplain c hc).2.2.1, (hplain c hc).2.2.2.1⟩)
    fun c hc => (hplain c hc).2.2.2.2

/-- A text whose last character is no word character declares no parameter. -/
theorem parseParameter_nameless {t : Text} {c : CodePoint} {default : Json}
    (hmarkers : withoutMarkers (t ++ [c]) = .ok (t ++ [c]))
    (hdefaults : cutDefaults (t ++ [c]) = (t ++ [c], default)) (hblank : isBlank c = false)
    (hword : isWordChar c = false) (kind : ParameterKind) :
    ∃ f, parseParameter kind (t ++ [c]) = .error f := by
  have hnone : splitLastWord? (join [' '] ((words (t ++ [c])).dropWhile
      parameterModifiers.contains)) = none := by
    rcases join_dropWhile_words hblank parameterModifiers.contains t with
      ⟨-, hnil⟩ | ⟨-, rest, hrest⟩
    · rw [hnil]
      rfl
    · rw [hrest]
      exact (splitLastWord?_concat hblank rest).2 hword
  rw [parseParameter_eq hmarkers hdefaults, declaredParameter, hnone]
  exact ⟨_, rfl⟩

/-- With and without its mark a parameter starts with different words. -/
theorem parameterHead_append_ne {t : Text} (ht : IsTypeText t) (hfree : t ∉ parameterModifiers)
    (w : Word) (rest rest' : Text) :
    parameterHead true t w ++ rest ≠ parameterHead false t w ++ rest' := by
  intro heq
  have hmarked : parameterHead true t w ++ rest
      = "required".toText ++ .ofChar ' ' :: (t ++ .ofChar ' ' :: (w.text ++ rest)) := by
    simp [parameterHead, PlainParameter.modifier, String.toText, ofChars]
  have hplain : parameterHead false t w ++ rest' = t ++ .ofChar ' ' :: (w.text ++ rest') := by
    simp [parameterHead, PlainParameter.modifier]
  obtain ⟨first, others, hwords⟩ := List.exists_cons_of_ne_nil ht.words_eq.2.1
  have hfirst := ht.head_not_mem mem_reservedWords_of_parameterModifiers hfree hwords
  have hsame := congrArg words (hmarked.symm.trans (heq.trans hplain))
  rw [words_append_blank (t := t) (by decide), hwords, words_append_blank (by decide),
    words_of_forall (by decide) (by decide)] at hsame
  have hrequired : "required".toText = first := (List.cons.inj hsame).1
  rw [← hrequired] at hfirst
  exact hfirst (by decide)

namespace WrittenParameter

variable (p : WrittenParameter) (required : Bool)

/-- Whether the parameter is taken for required when it is read. -/
def marked : Bool :=
  required || p.name.text == "required".toText

/-- What is read of the default value. -/
def default? : Option Text :=
  p.default.map fun value => join ['='] (splitTopLevel ['='] value.text)

/-- The parameter that is read: it may be marked by its name, and its default value is put together
from its parts. -/
def reread : Parameter where
  typeText := .str p.type.text
  name := .str p.name.text
  kind := .named
  required := p.marked required
  default := p.default?.elim .null .str

/-- The parameter is read when its default value falls apart into something. -/
theorem parseParameter_reread
    (h : ∀ value ∈ p.default, splitTopLevel ['='] value.text ≠ []) :
    parseParameter .named (p.text required) = .ok (p.reread required) := by
  have hparts : ∀ v ∈ p.default.map DefaultText.text, splitTopLevel ['='] v ≠ [] := by
    intro v hv
    obtain ⟨value, hvalue, rfl⟩ := Option.map_eq_some_iff.1 hv
    exact h value hvalue
  have hcut : cutDefaults (p.text required)
      = (parameterHead required p.type.text p.name, p.default?.elim .null .str) := by
    have hcut := cutDefaults_optional p.type.isTypeText p.name required _ hparts
    rw [Option.elim_map, Option.elim_map] at hcut
    rw [default?, Option.elim_map]
    exact hcut
  rw [parseParameter_declared p.type.isTypeText p.type_free p.name required
    (p.withoutMarkers_text required) hcut]
  rfl

/-- A default value of nothing but equals signs and white space leaves one part, as if there were no
default value at all. -/
theorem cutDefaults_blank {value : DefaultText} (hvalue : p.default = some value)
    (h : splitTopLevel ['='] value.text = []) :
    cutDefaults (p.text required) = (p.text required, .null) := by
  have htype := p.type.isTypeText
  have htext : p.text required = p.declared required ++ (" = ".toText ++ value.text) := by
    rw [text, hvalue]
    rfl
  have hequals : Levelled [':'] (" = ".toText ++ value.text) := levelled_of_equals
    (List.forall_mem_append.2 ⟨by decide, equals_of_splitTopLevel_eq_nil h⟩)
  have hwhole : splitTopLevel [':'] (p.text required) = [p.text required] := by
    refine splitTopLevel_level ?_ (p.trimmed_text required) ?_
    · rw [htext]
      exact (htype.declared_level p.name required (by decide)).append hequals
    · rw [htext]
      exact List.append_ne_nil_of_left_ne_nil (p.isPart_declared required).ne_nil _
  have hone : splitTopLevel ['='] (p.text required) = [p.declared required] := by
    rw [htext, declared, splitTopLevel_declared htype, h]
  rw [cutDefaults, cutDefault?, hone]
  simp only
  rw [cutDefault?, hwhole]

/-- The last character of such a parameter is an equals sign, which is no part of a name. -/
theorem parseParameter_blank {value : DefaultText} (hvalue : p.default = some value)
    (h : splitTopLevel ['='] value.text = []) :
    ∃ f, parseParameter .named (p.text required) = .error f := by
  obtain ⟨front, hfront⟩ : ∃ front, value.text = front ++ [.ofChar '='] := by
    obtain ⟨front, c, hc⟩ := exists_concat_of_ne_nil value.ne_nil
    have hfinish := value.trimmed.finish
    rw [hc, List.reverse_append] at hfinish
    have hvisible : isBlank c = false := hfinish
    have hlast := equals_of_splitTopLevel_eq_nil h c (by simp [hc])
    exact ⟨front, by rw [hc, hlast.resolve_right (by simp [hvisible])]⟩
  have hend :
      p.text required = (p.declared required ++ (" = ".toText ++ front)) ++ [.ofChar '='] := by
    rw [text, hvalue, Option.elim_some, hfront]
    simp
  have hcut := p.cutDefaults_blank required hvalue h
  have hmarkers := p.withoutMarkers_text required
  rw [hend] at hcut hmarkers ⊢
  exact parseParameter_nameless hmarkers hcut (by decide) (by decide) .named

theorem render_reread : (p.reread required).render
    = parameterHead (p.marked required) p.type.text p.name
      ++ p.default?.elim [] fun value => " = ".toText ++ value :=
  render_eq_parameterHead rfl rfl rfl fun _ => rfl

/-- What is read is written as the parameter was when mark and default value are the same. -/
theorem render_reread_iff : (p.reread required).render = p.text required
    ↔ p.marked required = required ∧ (p.default?.elim [] fun value => " = ".toText ++ value)
      = p.default.elim [] fun value => " = ".toText ++ value.text := by
  rw [render_reread, text, declared]
  constructor
  · intro heq
    have hmarked : p.marked required = required := by
      cases required with
      | true => rfl
      | false =>
          cases hmarked : p.marked false with
          | false => rfl
          | true =>
              rw [hmarked] at heq
              exact absurd heq (parameterHead_append_ne p.type.isTypeText p.type_free p.name _ _)
    rw [hmarked] at heq
    exact ⟨hmarked, List.append_cancel_left heq⟩
  · rintro ⟨hmarked, hdefault⟩
    rw [hmarked, hdefault]

theorem marked_eq_iff :
    p.marked required = required ↔ required = true ∨ p.name.text ≠ "required".toText := by
  cases required with
  | true => simp [marked]
  | false =>
      rw [marked, Bool.false_or, beq_eq_false_iff_ne]
      simp

/-- **When a named parameter is copied.** Reading a named parameter and writing it again gives the
same text exactly when it is marked as required or not named so, and its default value is glued. -/
theorem render_parseParameter_iff :
    (∃ q, parseParameter .named (p.text required) = .ok q ∧ q.render = p.text required)
      ↔ (required = true ∨ p.name.text ≠ "required".toText)
        ∧ ∀ value ∈ p.default, Glued value.text := by
  have hdefault : (∀ value ∈ p.default, splitTopLevel ['='] value.text ≠ []) →
      ((p.default?.elim [] fun value => " = ".toText ++ value)
          = (p.default.elim [] fun value => " = ".toText ++ value.text)
        ↔ ∀ value ∈ p.default, Glued value.text) := by
    intro hparts
    rw [default?]
    cases hvalue : p.default with
    | none => simp
    | some value =>
        have hglued := join_splitTopLevel_iff value.trimmed (hparts value hvalue)
        simp [hglued]
  constructor
  · rintro ⟨q, hread, hrender⟩
    have hparts : ∀ value ∈ p.default, splitTopLevel ['='] value.text ≠ [] := by
      intro value hvalue hnil
      obtain ⟨f, hf⟩ := p.parseParameter_blank required hvalue hnil
      rw [hf] at hread
      cases hread
    rw [p.parseParameter_reread required hparts] at hread
    cases hread
    rwa [render_reread_iff, marked_eq_iff, hdefault hparts] at hrender
  · rintro ⟨hmarked, hglued⟩
    have hparts : ∀ value ∈ p.default, splitTopLevel ['='] value.text ≠ [] := fun value hvalue =>
      (hglued value hvalue).splitTopLevel_ne_nil value.ne_nil value.trimmed
    refine ⟨p.reread required, p.parseParameter_reread required hparts, ?_⟩
    rw [render_reread_iff, marked_eq_iff, hdefault hparts]
    exact ⟨hmarked, hglued⟩

/-- A parameter with an equality test for its default value. -/
def same : WrittenParameter where
  type := { tree := .node "bool".toText [] false none, wellFormed := by decide }
  type_free := by decide +kernel
  name := { text := "same".toText, ne_nil := by decide, chars := by decide }
  default := some { text := "a == b".toText, ne_nil := by decide, trimmed := ⟨rfl, rfl⟩ }

/-- A parameter with the name that marks others. -/
def namedRequired : WrittenParameter where
  type := { tree := .node "int".toText [] false none, wellFormed := by decide }
  type_free := by decide +kernel
  name := { text := "required".toText, ne_nil := by decide, chars := by decide }

/-- An equality test comes back as an assignment, though it has neither literals nor brackets nor
commas, and a parameter with the name of the mark comes back marked. -/
theorem render_parseParameter_same :
    same.text false = "bool same = a == b".toText
      ∧ (∀ c ∈ "a == b".toText, isQuote c = false ∧ isBracket c = false ∧ c ≠ ',')
      ∧ (parseParameter .named (same.text false)).toOption.map Parameter.render
        = some "bool same = a=b".toText
      ∧ namedRequired.text false = "int required".toText
      ∧ (parseParameter .named (namedRequired.text false)).toOption.map Parameter.render
        = some "required int required".toText := by
  decide +kernel

end WrittenParameter

end DartDecoders
