/-
Parameters as they are declared.

A declared parameter is a type text and a name, perhaps behind the word that marks it as required.
Such a text is a part of a parameter list (`IsPart`): it is level for commas, holds no bracket and
no literal, and starts with a character of a name. Behind an equals sign any default value may
follow; reading cuts it at all its equals signs outside literals and brackets
(`cutDefaults_declared`), and leaves it as it was when there are none. Of the declared text the last
word is the name, what is before it the type, and `required` is looked for among all words, the name
included (`parseParameter_declared`).
-/
import DartDecoders.Proofs.SelfContained
import DartDecoders.Proofs.TypeText

set_option autoImplicit false

namespace DartDecoders

open Text TypeExpr Source

/-! ## Inert texts -/

theorem isInert_of_isSignatureChar {c : CodePoint} (h : isSignatureChar c = true) : IsInert c :=
  ⟨isQuote_of_isSignatureChar h, ne_of_class h (by decide), ne_of_class h (by decide)⟩

/-- A text of type characters means nothing to the scanner. -/
theorem inert_of_isTypeChar {t : Text} (h : ∀ c ∈ t, isTypeChar c = true) : Inert t := fun c hc =>
  ⟨isInert_of_isSignatureChar (isSignatureChar_of_isTypeChar (h c hc)),
    isBracket_of_isSignatureChar (isSignatureChar_of_isTypeChar (h c hc))⟩

/-! ## Names -/

/-- One or more word characters. -/
structure Word where
  text : Text
  ne_nil : text ≠ []
  chars : ∀ c ∈ text, isWordChar c = true

theorem Word.isNameChar (w : Word) : ∀ c ∈ w.text, isNameChar c = true :=
  fun c hc => isNameChar_of_isWordChar (w.chars c hc)

theorem Word.isTypeChar (w : Word) : ∀ c ∈ w.text, isTypeChar c = true :=
  fun c hc => isTypeChar_of_isNameChar (w.isNameChar c hc)

theorem Word.inert (w : Word) : Inert w.text :=
  inert_of_isTypeChar w.isTypeChar

theorem Word.trimmed (w : Word) : Trimmed w.text :=
  Trimmed.of_forall fun c hc => isBlank_of_isNameChar (w.isNameChar c hc)

theorem Word.angleNested (w : Word) : AngleNested w.text :=
  AngleNested.of_forall fun c hc =>
    ⟨ne_of_class (w.isNameChar c hc) (by decide), ne_of_class (w.isNameChar c hc) (by decide)⟩

/-! ## Parts of a parameter list -/

/-- The text of one parameter in a parameter list. -/
structure IsPart (t : Text) : Prop where
  chars : ∀ c ∈ t, isSignatureChar c = true
  start : ∃ c rest, t = c :: rest ∧ isNameChar c = true
  trimmed : Trimmed t
  angleNested : AngleNested t
  level : Levelled [','] t

theorem IsPart.ne_nil {t : Text} (h : IsPart t) : t ≠ [] := by
  obtain ⟨c, rest, rfl, -⟩ := h.start
  exact List.cons_ne_nil c rest

theorem IsPart.isQuote {t : Text} (h : IsPart t) : ∀ c ∈ t, isQuote c = false :=
  fun c hc => isQuote_of_isSignatureChar (h.chars c hc)

theorem IsPart.balanced {t : Text} (h : IsPart t) : Balanced t :=
  .of_forall h.isQuote fun c hc => isBracket_of_isSignatureChar (h.chars c hc)

/-- A part that starts with no bracket of a group is one parameter. -/
theorem parsePart_eq_parseParameter {t : Text} (hne : t ≠ []) (hbracket : StopsAt (· == '[') t)
    (hbrace : StopsAt (· == '\x7b') t) :
    parsePart t = (parseParameter .positional t).map fun p => [p] := by
  unfold parsePart
  split
  · cases hbracket
  · cases hbrace
  · exact absurd rfl hne
  · rfl

/-- A part of a parameter list starts with a name, so it is not taken for a group. -/
theorem IsPart.parsePart_eq {t : Text} (h : IsPart t) :
    parsePart t = (parseParameter .positional t).map fun p => [p] := by
  obtain ⟨c, rest, rfl, hc⟩ := h.start
  exact parsePart_eq_parseParameter (List.cons_ne_nil c rest)
    (beq_eq_false_iff_ne.2 (ne_of_class hc (by decide)))
    (beq_eq_false_iff_ne.2 (ne_of_class hc (by decide)))

/-- No annotation stands before a part of a parameter list. -/
theorem IsPart.withoutMarkers_eq {t : Text} (h : IsPart t) : withoutMarkers t = .ok t := by
  refine withoutMarkers_eq_self h.trimmed ?_
  obtain ⟨c, rest, rfl, hc⟩ := h.start
  exact beq_eq_false_iff_ne.2 (ne_of_class hc (by decide))

/-! ## A type and a name -/

section Named

variable {t : Text} (ht : IsTypeText t) (w : Word)

include ht

theorem TypeExpr.IsTypeText.named_isTypeChar :
    ∀ c ∈ t ++ .ofChar ' ' :: w.text, TypeExpr.isTypeChar c = true :=
  List.forall_mem_append.2 ⟨ht.isTypeChar, List.forall_mem_cons.2 ⟨rfl, w.isTypeChar⟩⟩

theorem TypeExpr.IsTypeText.named_angleNested : AngleNested (t ++ .ofChar ' ' :: w.text) :=
  ht.angleNested.append (.char (by decide) (by decide) w.angleNested)

theorem TypeExpr.IsTypeText.named_start :
    ∃ c rest, t ++ .ofChar ' ' :: w.text = c :: rest ∧ isNameChar c = true := by
  obtain ⟨c, rest, rfl, hc, -⟩ := ht.start
  exact ⟨c, rest ++ .ofChar ' ' :: w.text, rfl, hc⟩

/-- All commas of a type and a name stand in the angle brackets of the type. -/
theorem TypeExpr.IsTypeText.named_level : Levelled [','] (t ++ .ofChar ' ' :: w.text) := by
  have hname : Levelled [','] (.ofChar ' ' :: w.text) := by
    refine level_of_isSignatureChar ?_ (.char (by decide) (by decide) w.angleNested) ?_
    · exact List.forall_mem_cons.2
        ⟨rfl, fun c hc => isSignatureChar_of_isTypeChar (w.isTypeChar c hc)⟩
    · exact List.forall_mem_cons.2
        ⟨by decide, fun c hc => ne_of_class (w.isNameChar c hc) (by decide)⟩
  exact ht.level.append hname

/-- A type and a name are a part of a parameter list. -/
theorem TypeExpr.IsTypeText.isPart_named : IsPart (t ++ .ofChar ' ' :: w.text) where
  chars := fun c hc => isSignatureChar_of_isTypeChar (ht.named_isTypeChar w c hc)
  start := ht.named_start w
  trimmed := ht.trimmed.around w.trimmed ht.ne_nil w.ne_nil [.ofChar ' ']
  angleNested := ht.named_angleNested w
  level := ht.named_level w

end Named

/-! ## The declared text -/

/-- The modifier of a parameter that is required. -/
def PlainParameter.modifier (required : Bool) : Text :=
  if required then "required ".toText else []

/-- A parameter without its default value. -/
def parameterHead (required : Bool) (t : Text) (w : Word) : Text :=
  PlainParameter.modifier required ++ (t ++ .ofChar ' ' :: w.text)

/-- A parameter that is marked as required in no other group than the named one is written with its
mark, and with its default value behind an equals sign. -/
theorem render_eq_parameterHead {p : Parameter} {t : Text} {w : Word} {default : Option Text}
    (htype : p.typeText = .str t) (hname : p.name = .str w.text)
    (hdefault : p.default = default.elim .null .str) (h : p.required = true → p.kind = .named) :
    p.render = parameterHead p.required t w
      ++ default.elim [] fun value => " = ".toText ++ value := by
  have hmodifier : (if (p.required && p.kind == .named) = true then "required ".toText else [])
      = PlainParameter.modifier p.required := by
    cases hrequired : p.required with
    | false => rfl
    | true =>
        rw [h hrequired]
        rfl
  have hvalue : (if p.hasDefault then " = ".toText ++ p.default.display else [])
      = default.elim [] fun value => " = ".toText ++ value := by
    rw [Parameter.hasDefault, hdefault]
    cases default <;> simp
  rw [Parameter.render, hmodifier, hvalue, htype, hname]
  simp [parameterHead]

section Declared

variable {t : Text} (ht : IsTypeText t) (w : Word) (required : Bool)

include ht

theorem TypeExpr.IsTypeText.declared_isTypeChar :
    ∀ c ∈ parameterHead required t w, TypeExpr.isTypeChar c = true := by
  have hmodifier : ∀ c ∈ PlainParameter.modifier required, TypeExpr.isTypeChar c = true := by
    cases required <;> decide
  exact List.forall_mem_append.2 ⟨hmodifier, ht.named_isTypeChar w⟩

/-- The modifier, where it is there, stands before a part of a parameter list. -/
theorem TypeExpr.IsTypeText.isPart_declared : IsPart (parameterHead required t w) := by
  have hnamed := ht.isPart_named w
  cases required with
  | false => exact hnamed
  | true =>
      have hmodifier : ∀ c ∈ "required ".toText, isSignatureChar c = true := by decide
      have hangle : AngleNested "required ".toText := .of_forall (by decide)
      have hword : Trimmed "required".toText := .of_forall (by decide)
      exact {
        chars := List.forall_mem_append.2 ⟨hmodifier, hnamed.chars⟩
        start := ⟨'r', _, rfl, rfl⟩
        trimmed := hword.around hnamed.trimmed (by decide) hnamed.ne_nil [' ']
        angleNested := hangle.append hnamed.angleNested
        level := (level_of_isSignatureChar hmodifier hangle (by decide)).append hnamed.level }

/-- Cutting at an equals sign or a colon finds none in the declared text. -/
theorem TypeExpr.IsTypeText.declared_level {s : CodePoint} (hs : TypeExpr.isTypeChar s = false) :
    Levelled [s] (parameterHead required t w) :=
  level_of_isSignatureChar (ht.isPart_declared w required).chars
    (ht.isPart_declared w required).angleNested
    fun c hc => ne_of_class (ht.declared_isTypeChar w required c hc) hs

end Declared

/-! ## Reading a parameter -/

/-- Outside brackets there is no equals sign and no colon, so there is no default value to cut off.
-/
theorem cutDefaults_of_level {t : Text} (hequals : Levelled ['='] t) (hcolon : Levelled [':'] t)
    (htrimmed : Trimmed t) (hne : t ≠ []) : cutDefaults t = (t, .null) := by
  rw [cutDefaults, cutDefault?, splitTopLevel_level hequals htrimmed hne]
  simp only
  rw [cutDefault?, splitTopLevel_level hcolon htrimmed hne]

/-- Neither of them is a character of types. -/
theorem cutDefaults_eq_self {t : Text} (h : ∀ c ∈ t, isTypeChar c = true) (hangle : AngleNested t)
    (htrimmed : Trimmed t) (hne : t ≠ []) : cutDefaults t = (t, .null) := by
  have hlevel : ∀ s : CodePoint, isTypeChar s = false → Levelled [s] t := fun s hs =>
    level_of_isSignatureChar (fun c hc => isSignatureChar_of_isTypeChar (h c hc)) hangle
      fun c hc => ne_of_class (h c hc) hs
  exact cutDefaults_of_level (hlevel '=' (by decide)) (hlevel ':' (by decide)) htrimmed hne

section Declared

variable {t : Text} (ht : IsTypeText t) (w : Word) (required : Bool)

include ht

/-- At its equals signs a parameter falls apart into the declared text and what its default value
falls apart into. -/
theorem splitTopLevel_declared (value : Text) :
    splitTopLevel ['='] (parameterHead required t w ++ (" = ".toText ++ value))
      = parameterHead required t w :: splitTopLevel [.ofChar '='] value := by
  have hpart := ht.isPart_declared w required
  have hspace : Levelled ['='] [' '] :=
    level_of_isSignatureChar (by decide) (AngleNested.of_forall (by decide)) (by decide)
  have hdeclared := (ht.declared_level w required (s := '=') (by decide)).append hspace
  have htext : parameterHead required t w ++ (" = ".toText ++ value)
      = (parameterHead required t w ++ [.ofChar ' '])
        ++ .ofChar '=' :: ([.ofChar ' '] ++ value) := by
    simp [String.toText, ofChars]
  -- behind the equals sign and the space the walk is where it is at the start of a text
  rw [htext, splitTopLevel, partsFrom_level hdeclared (n := .start) (Int.le_refl 0),
    partsFrom_separator rfl rfl (by decide) (by decide) rfl,
    partsFrom_level hspace (Int.le_refl 0), prepend, List.append_nil,
    trimmedParts_cons (trim_append_space hpart.trimmed) hpart.ne_nil,
    trimmedParts_prepend (by decide) (partsFrom_ne_nil _ _ _)]
  rfl

/-- The default value is cut off at the first equals sign, and what it falls apart into is put
together again. -/
theorem cutDefaults_declared {value : Text} (hne : splitTopLevel ['='] value ≠ []) :
    cutDefaults (parameterHead required t w ++ (" = ".toText ++ value))
      = (parameterHead required t w, .str (join ['='] (splitTopLevel ['='] value))) := by
  have htrimmed : Trimmed (join ['='] (splitTopLevel ['='] value)) :=
    trimmed_join fun _ hpart => trimmed_of_mem_trimmedParts hpart
  obtain ⟨part, others, hparts⟩ := List.exists_cons_of_ne_nil hne
  rw [hparts] at htrimmed ⊢
  rw [cutDefaults, cutDefault?, splitTopLevel_declared ht, hparts]
  simp only
  rw [htrimmed.trim_eq]

/-- Without a default value nothing is cut off. -/
theorem cutDefaults_optional (value : Option Text)
    (h : ∀ v ∈ value, splitTopLevel ['='] v ≠ []) :
    cutDefaults (parameterHead required t w ++ value.elim [] fun v => " = ".toText ++ v)
      = (parameterHead required t w,
        value.elim .null fun v => .str (join ['='] (splitTopLevel ['='] v))) := by
  cases value with
  | none =>
      have hpart := ht.isPart_declared w required
      rw [Option.elim_none, Option.elim_none, List.append_nil]
      exact cutDefaults_eq_self (ht.declared_isTypeChar w required) hpart.angleNested
        hpart.trimmed hpart.ne_nil
  | some v => exact cutDefaults_declared ht w required (h v rfl)

/-- A default value that is one part is cut off as it is. -/
theorem cutDefaults_whole (value : Option Text) (h : ∀ v ∈ value, splitTopLevel ['='] v = [v]) :
    cutDefaults (parameterHead required t w ++ value.elim [] fun v => " = ".toText ++ v)
      = (parameterHead required t w, value.elim .null .str) := by
  rw [cutDefaults_optional ht w required value fun v hv => by simp [h v hv]]
  cases value with
  | none => rfl
  | some v => rw [Option.elim_some, Option.elim_some, h v rfl, join_singleton]

end Declared

/-- The parameter that a text without modifiers and default value declares: the last word is the
name, what is before it the type. -/
def declaredParameter (kind : ParameterKind) (declared : Text) (required : Bool) (default : Json) :
    Except Fault Parameter :=
  match splitLastWord? declared with
  | none => .error (.reported (.namelessParameter declared))
  | some (type, name) =>
    .ok { typeText := .str (typeOr (trim type)), name := .str name, kind, required, default }

/-- Reading a parameter cuts off its default value and takes off its modifiers. -/
theorem parseParameter_eq {t declared : Text} {default : Json} (hmarkers : withoutMarkers t = .ok t)
    (hdefaults : cutDefaults t = (declared, default)) (kind : ParameterKind) :
    parseParameter kind t
      = declaredParameter kind
          (join [' '] ((words declared).dropWhile parameterModifiers.contains))
          ((words declared).contains "required".toText) default := by
  rw [parseParameter, hmarkers]
  simp only [bind, Except.bind, hdefaults]
  rfl

/-- A list without commas outside brackets has one part. -/
theorem parseParameters_of_level {t : Text} (hlevel : Levelled [','] t) (htrimmed : Trimmed t)
    (hne : t ≠ []) : parseParameters t = parsePart t := by
  rw [parseParameters, splitTopLevel_level hlevel htrimmed hne, List.mapM_cons, List.mapM_nil]
  cases parsePart t with
  | error e => rfl
  | ok parameters => simp [bind, Except.bind, pure, Except.pure, Except.map]

/-! ## Words -/

/-- The words of a type with single spaces between them are the type. The only reserved word that
can be one of them is the type itself. -/
theorem TypeExpr.IsTypeText.words_eq {t : Text} (ht : IsTypeText t) :
    join [' '] (words t) = t ∧ words t ≠ [] ∧ ∀ w ∈ words t, w ∈ reservedWords → w = t := by
  by_cases hreserved : t ∈ reservedWords
  -- a reserved word is one name, so it is the only word
  · have hblank : ∀ c ∈ t, isBlank c = false := by
      intro c hc
      exact isBlank_of_isNameChar (isNameChar_of_mem_reservedWords hreserved hc)
    have hwords := words_of_forall ht.ne_nil hblank
    rw [hwords]
    refine ⟨join_singleton _ _, by simp, ?_⟩
    intro w hw _
    exact List.mem_singleton.1 hw
  · have hworded := (ht.spaced hreserved).worded
    refine ⟨hworded.join_words, hworded.ne_nil, ?_⟩
    intro w hw hmem
    exact absurd hmem (hworded.unreserved w hw)

/-- The first word of a type is a keyword only when the type is. -/
theorem TypeExpr.IsTypeText.head_not_mem {t : Text} (ht : IsTypeText t) {keywords : List Text}
    (hkeywords : ∀ w ∈ keywords, w ∈ reservedWords) (h : t ∉ keywords) {w : Text}
    {rest : List Text} (hwords : words t = w :: rest) : w ∉ keywords := by
  intro hmem
  have hw := ht.words_eq.2.2 w (by rw [hwords]; exact List.mem_cons_self) (hkeywords w hmem)
  exact h (hw ▸ hmem)

/-- Keywords in front of a type are dropped only when the type is one of them. -/
theorem TypeExpr.IsTypeText.dropWhile_words_append {t : Text} (ht : IsTypeText t)
    {keywords : List Text} (hkeywords : ∀ w ∈ keywords, w ∈ reservedWords) (h : t ∉ keywords)
    (others : List Text) :
    (words t ++ others).dropWhile keywords.contains = words t ++ others
      ∧ (words t ++ others).takeWhile keywords.contains = [] := by
  obtain ⟨w, rest, hwords⟩ := List.exists_cons_of_ne_nil ht.words_eq.2.1
  have hw : ¬ keywords.contains w = true := by
    simpa using ht.head_not_mem hkeywords h hwords
  rw [hwords, List.cons_append]
  exact ⟨List.dropWhile_cons_of_neg hw, List.takeWhile_cons_of_neg hw⟩

theorem mem_reservedWords_of_parameterModifiers :
    ∀ w ∈ parameterModifiers, w ∈ reservedWords := by
  decide +kernel

section Declared

variable {t : Text} (ht : IsTypeText t) (hfree : t ∉ parameterModifiers) (w : Word)
  (required : Bool)

include ht hfree

/-- The words of a parameter: `required` is among them when it is the modifier or the name, and
without the modifier the words are those of the type and the name. -/
theorem words_declared :
    (words (parameterHead required t w)).contains "required".toText
        = (required || w.text == "required".toText)
      ∧ (words (parameterHead required t w)).dropWhile parameterModifiers.contains
        = words t ++ [w.text] := by
  have hblank : ∀ c ∈ w.text, isBlank c = false := fun c hc =>
    isBlank_of_isNameChar (w.isNameChar c hc)
  have hnamed : words (t ++ .ofChar ' ' :: w.text) = words t ++ [w.text] := by
    rw [words_append_blank (by decide), words_of_forall w.ne_nil hblank]
  have hkept := (ht.dropWhile_words_append mem_reservedWords_of_parameterModifiers hfree
    [w.text]).1
  cases required with
  | false =>
      have htype : "required".toText ∉ words t := by
        intro hmem
        have heq := ht.words_eq.2.2 _ hmem (by decide +kernel)
        exact hfree (heq ▸ by decide)
      rw [parameterHead, PlainParameter.modifier, if_neg (by simp), List.nil_append, hnamed]
      refine ⟨?_, hkept⟩
      rw [Bool.false_or, Bool.eq_iff_iff, List.contains_iff_mem, beq_iff_eq, List.mem_append,
        List.mem_singleton]
      exact ⟨fun hmem => hmem.elim (absurd · htype) Eq.symm, fun heq => .inr heq.symm⟩
  | true =>
      have hwords : words (parameterHead true t w)
          = "required".toText :: (words t ++ [w.text]) := by
        rw [parameterHead, PlainParameter.modifier, if_pos rfl,
          show "required ".toText ++ (t ++ .ofChar ' ' :: w.text)
            = "required".toText ++ .ofChar ' ' :: (t ++ .ofChar ' ' :: w.text) from rfl,
          words_append_blank (by decide), words_of_forall (by decide) (by decide), hnamed]
        rfl
      rw [hwords]
      refine ⟨by simp, ?_⟩
      rw [List.dropWhile_cons_of_pos (by decide +kernel)]
      exact hkept

/-- The type and the name are read back, and the parameter is taken for required when it is marked
so or its name is the word that does it. -/
theorem parseParameter_declared {text : Text} {default : Json}
    (hmarkers : withoutMarkers text = .ok text)
    (hdefaults : cutDefaults text = (parameterHead required t w, default)) (kind : ParameterKind) :
    parseParameter kind text = .ok {
      typeText := .str t
      name := .str w.text
      kind
      required := required || w.text == "required".toText
      default } := by
  obtain ⟨hrequired, hdrop⟩ := words_declared ht hfree w required
  obtain ⟨hjoin, hwords, -⟩ := ht.words_eq
  have hnamed : join [' '] (words t ++ [w.text]) = t ++ .ofChar ' ' :: w.text := by
    rw [join_append hwords (by simp), hjoin, join_singleton]
    rfl
  have hlast : splitLastWord? (t ++ .ofChar ' ' :: w.text) = some (t ++ [.ofChar ' '], w.text) :=
    splitLastWord?_append w.ne_nil w.chars
  have htype : typeOr t = t := by rw [typeOr, if_neg (by simpa using ht.ne_nil)]
  rw [parseParameter_eq hmarkers hdefaults, hdrop, hrequired, hnamed, declaredParameter, hlast]
  simp only [trim_append_space ht.trimmed, htype]

end Declared

end DartDecoders
