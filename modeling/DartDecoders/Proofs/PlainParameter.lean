/-
Plain parameters.

A plain parameter has a type from the grammar and a name, and perhaps a default value that is one
word. Its text, as it is written in a signature, is a part of a parameter list (`isPart_text`), and
reading the text gives the parameter back (`parseParameter_text`): the default value has no equals
sign in it, and the name is no reserved word, so it is none that marks a parameter as required.
-/
import DartDecoders.Proofs.DeclaredParameters

set_option autoImplicit false

namespace DartDecoders

open Text TypeExpr Source

/-! ## Names and types -/

/-- A word that is not reserved. -/
structure PlainName extends Word where
  unreserved : text ∉ reservedWords

/-- A well-formed type in which no name is reserved. -/
structure PlainType where
  tree : TypeExpr
  wellFormed : tree.wellFormed = true
  unreserved : tree.unreserved = true

/-- The canonical text of a type. -/
def PlainType.text (t : PlainType) : Text :=
  t.tree.toText

theorem PlainName.spaced (n : PlainName) : Spaced n.text :=
  Spaced.of_name n.ne_nil n.toWord.isNameChar n.unreserved

theorem PlainType.isTypeText (t : PlainType) : IsTypeText t.text :=
  isTypeText_render true t.wellFormed

theorem PlainType.spaced (t : PlainType) : Spaced t.text :=
  t.isTypeText.spaced (render_not_mem_reservedWords true t.unreserved)

theorem PlainType.trimmed (t : PlainType) : Trimmed t.text :=
  trimmed_render t.wellFormed

/-- Words with single spaces that are not reserved are no keywords. -/
theorem contains_eq_false_of_worded {t : Text} (h : Worded t) {keywords : List Text}
    (hkeywords : ∀ w ∈ keywords, w ∈ reservedWords) :
    ∀ w ∈ words t, keywords.contains w = false := by
  intro w hw
  cases hc : keywords.contains w with
  | false => rfl
  | true => exact absurd (hkeywords w (List.contains_iff_mem.1 hc)) (h.unreserved w hw)

/-- No keyword stands before the first word. -/
theorem dropWhile_words {t : Text} (h : Worded t) {keywords : List Text}
    (hkeywords : ∀ w ∈ keywords, w ∈ reservedWords) :
    (words t).dropWhile keywords.contains = words t := by
  have hall := contains_eq_false_of_worded h hkeywords
  cases hwords : words t with
  | nil => rfl
  | cons w rest =>
      rw [hwords] at hall
      exact List.dropWhile_cons_of_neg (by simpa using hall w List.mem_cons_self)

theorem takeWhile_words {t : Text} (h : Worded t) {keywords : List Text}
    (hkeywords : ∀ w ∈ keywords, w ∈ reservedWords) :
    (words t).takeWhile keywords.contains = [] := by
  have happend := List.takeWhile_append_dropWhile (p := keywords.contains) (l := words t)
  rw [dropWhile_words h hkeywords] at happend
  exact List.append_left_eq_self.1 happend

/-! ## Parameters -/

/-- A parameter with a type, a name and perhaps a word for a default value. -/
structure PlainParameter where
  type : PlainType
  name : PlainName
  default : Option Word := none

namespace PlainParameter

/-- The parameter as a member of a group, perhaps marked as required. -/
def toParameter (kind : ParameterKind) (required : Bool) (p : PlainParameter) : Parameter where
  typeText := .str p.type.text
  name := .str p.name.text
  kind
  required
  default := p.default.elim .null fun value => .str value.text

/-- The type and the name. -/
def typed (p : PlainParameter) : Text :=
  p.type.text ++ .ofChar ' ' :: p.name.text

/-- The parameter without its default value. -/
def declared (required : Bool) (p : PlainParameter) : Text :=
  modifier required ++ p.typed

/-- The parameter as it is written. -/
def text (required : Bool) (p : PlainParameter) : Text :=
  p.declared required ++ p.default.elim [] fun value => " = ".toText ++ value.text

theorem render_toParameter {kind : ParameterKind} {required : Bool}
    (h : required = true → kind = .named) (p : PlainParameter) :
    (p.toParameter kind required).render = p.text required := by
  have hdefault : (p.toParameter kind required).default
      = (p.default.map Word.text).elim .null .str := by
    rw [toParameter]
    cases p.default <;> rfl
  rw [render_eq_parameterHead rfl rfl hdefault h, text]
  cases p.default <;> rfl

/-! ## The text of a parameter -/

/-- A default value holds no quote and no bracket. -/
theorem default_isSignatureChar (value : Word) :
    ∀ c ∈ " = ".toText ++ value.text, isSignatureChar c = true :=
  List.forall_mem_append.2
    ⟨by decide, fun c hc => isSignatureChar_of_isTypeChar (value.isTypeChar c hc)⟩

theorem default_angleNested (value : Word) : AngleNested (" = ".toText ++ value.text) :=
  (AngleNested.of_forall (by decide)).append value.angleNested

/-- There is no comma in a default value. -/
theorem default_level (value : Word) : Levelled [','] (" = ".toText ++ value.text) := by
  refine level_of_isSignatureChar (default_isSignatureChar value) (default_angleNested value) ?_
  exact List.forall_mem_append.2
    ⟨by decide, fun c hc => ne_of_class (value.isNameChar c hc) (by decide)⟩

theorem isPart_declared (required : Bool) (p : PlainParameter) : IsPart (p.declared required) :=
  p.type.isTypeText.isPart_declared p.name.toWord required

/-- The text of a parameter is a part of a parameter list. -/
theorem isPart_text (required : Bool) (p : PlainParameter) : IsPart (p.text required) := by
  have hpart := p.isPart_declared required
  rw [text]
  cases p.default with
  | none =>
      rw [Option.elim_none, List.append_nil]
      exact hpart
  | some value =>
      rw [Option.elim_some]
      refine ⟨List.forall_mem_append.2 ⟨hpart.chars, default_isSignatureChar value⟩, ?_,
        hpart.trimmed.around value.trimmed hpart.ne_nil value.ne_nil _,
        hpart.angleNested.append (default_angleNested value),
        hpart.level.append (default_level value)⟩
      obtain ⟨c, rest, hdeclared, hc⟩ := hpart.start
      exact ⟨c, rest ++ (" = ".toText ++ value.text), by rw [hdeclared]; rfl, hc⟩

/-! ## Reading a parameter -/

/-- The default value is cut off at its equals sign; without one nothing is cut off. -/
theorem cutDefaults_text (required : Bool) (p : PlainParameter) :
    cutDefaults (p.text required)
      = (p.declared required, p.default.elim .null fun value => .str value.text) := by
  have hwhole : ∀ v ∈ p.default.map Word.text, splitTopLevel ['='] v = [v] := by
    intro v hv
    obtain ⟨value, -, rfl⟩ := Option.map_eq_some_iff.1 hv
    have hlevel : Levelled ['='] value.text := level_of_isSignatureChar
      (fun c hc => isSignatureChar_of_isTypeChar (value.isTypeChar c hc)) value.angleNested
      fun c hc => ne_of_class (value.isNameChar c hc) (by decide)
    exact splitTopLevel_level hlevel value.trimmed value.ne_nil
  have hcut := cutDefaults_whole p.type.isTypeText p.name.toWord required _ hwhole
  rwa [Option.elim_map, Option.elim_map] at hcut

/-- Reading the text of a parameter gives the parameter. -/
theorem parseParameter_text (kind : ParameterKind) (required : Bool) (p : PlainParameter) :
    parseParameter kind (p.text required) = .ok (p.toParameter kind required) := by
  have hreserved := mem_reservedWords_of_parameterModifiers
  have hfree : p.type.text ∉ parameterModifiers := fun hmem =>
    render_not_mem_reservedWords true p.type.unreserved (hreserved _ hmem)
  have hname : (p.name.text == "required".toText) = false := by
    refine beq_eq_false_iff_ne.2 fun heq => p.name.unreserved ?_
    rw [heq]
    exact hreserved _ (by decide)
  rw [parseParameter_declared p.type.isTypeText hfree p.name.toWord required
    (p.isPart_text required).withoutMarkers_eq (p.cutDefaults_text required), hname,
    Bool.or_false]
  rfl

end PlainParameter

end DartDecoders
