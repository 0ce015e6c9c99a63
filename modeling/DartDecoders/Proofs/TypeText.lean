/-
Canonical texts of types inside a source text.

The scanner cuts a source text at commas, equals signs, colons and words without knowing of types.
What it needs of a canonical text of a type is said here once: the characters that stand in one,
that its angle brackets nest, that it is level for a comma, and that it is written with single
spaces. All of it is shown along the parts that such a text is made of (`IsTypeText`), and every
well-formed tree has such a text (`isTypeText_render`). A reserved word among its names is a word of
the text only where the name is the whole text (`IsTypeText.spaced_or_name`).
-/
import DartDecoders.Proofs.TopLevelParts
import DartDecoders.Proofs.CanonicalType

set_option autoImplicit false

namespace DartDecoders

/-- Two characters differ when only one of them is in a class. -/
theorem ne_of_class {p : CodePoint → Bool} {c d : CodePoint} (hc : p c = true) (hd : p d = false) :
    c ≠ d := by
  rintro rfl
  rw [hc] at hd
  cases hd

namespace TypeExpr

open Text Source

/-! ## Reserved words -/

mutual

/-- No name is a reserved word. -/
def unreserved : TypeExpr → Bool
  | .node name args _ _ => !reservedWords.contains name && allUnreserved args

/-- No name in one of the trees is a reserved word. -/
def allUnreserved : List TypeExpr → Bool
  | [] => true
  | arg :: rest => unreserved arg && allUnreserved rest

end

theorem unreserved_node {name : Text} {args : List TypeExpr} {nullable : Bool}
    {argsText : Option Text} :
    unreserved (.node name args nullable argsText) = true ↔
      name ∉ reservedWords ∧ allUnreserved args = true := by
  rw [unreserved]
  simp

/-! ## The parts of a text -/

/-- A name of the grammar. -/
structure TypeName (name : Text) : Prop where
  chars : ∀ c ∈ name, isNameChar c = true
  isName : isName name = true

/-- A name of the grammar that is not reserved. -/
structure FreeName (name : Text) : Prop where
  chars : ∀ c ∈ name, isNameChar c = true
  isName : isName name = true
  unreserved : name ∉ reservedWords

theorem FreeName.typeName {name : Text} (h : FreeName name) : TypeName name :=
  ⟨h.chars, h.isName⟩

/-- The texts of marks. -/
def IsMark (mark : Text) : Prop :=
  mark = [] ∨ mark = [.ofChar '?']

/-- The texts of types: a name, perhaps types between angle brackets with commas between them, and
perhaps a mark. -/
inductive IsTypeText : Text → Prop
  | bare {name mark : Text} : TypeName name → IsMark mark → IsTypeText (name ++ mark)
  | generic {name mark : Text} {texts : List Text} : TypeName name → IsMark mark → texts ≠ [] →
    (∀ t ∈ texts, IsTypeText t) →
    IsTypeText (name ++ .ofChar '<' :: (join [',', ' '] texts ++ .ofChar '>' :: mark))

mutual

/-- The canonical text of a well-formed tree is the text of a type. -/
theorem isTypeText_render (marks : Bool) : ∀ {e : TypeExpr}, wellFormed e = true →
    IsTypeText (render marks e)
  | .node name args nullable argsText, h => by
    obtain ⟨⟨hchars, hname⟩, hbrackets, hargs⟩ := wellFormed_node.1 h
    have htypeName : TypeName name := ⟨hchars, hname⟩
    have hmark : IsMark (nullText marks nullable) := nullText_eq_nil_or marks nullable
    rw [render_node, bracketText]
    split
    · next hsome =>
        rw [hsome] at hbrackets
        have hne : args ≠ [] := by
          rintro rfl
          cases hbrackets
        obtain ⟨texts, htexts, hjoin, hall⟩ := exists_typeTexts_renderArgs marks hne hargs
        rw [hjoin]
        simpa using IsTypeText.generic htypeName hmark htexts hall
    · exact .bare htypeName hmark

/-- The canonical text of arguments is made of texts of types. -/
theorem exists_typeTexts_renderArgs (marks : Bool) : ∀ {args : List TypeExpr}, args ≠ [] →
    allWellFormed args = true → ∃ texts : List Text, texts ≠ [] ∧
      renderArgs marks args = join [',', ' '] texts ∧ ∀ t ∈ texts, IsTypeText t
  | [], hne, _ => absurd rfl hne
  | [arg], _, h => by
    refine ⟨[render marks arg], by simp, ?_, ?_⟩
    · rw [renderArgs, join_singleton]
    · intro t ht
      rw [List.mem_singleton.1 ht]
      exact isTypeText_render marks (allWellFormed_cons.1 h).1
  | arg :: next :: rest, _, h => by
    obtain ⟨harg, hrest⟩ := allWellFormed_cons.1 h
    obtain ⟨texts, htexts, hjoin, hall⟩ :=
      exists_typeTexts_renderArgs marks (List.cons_ne_nil _ _) hrest
    obtain ⟨u, others, rfl⟩ := List.exists_cons_of_ne_nil htexts
    refine ⟨render marks arg :: u :: others, by simp, ?_, ?_⟩
    · rw [renderArgs_cons, hjoin, join_cons_cons]
      rfl
    · intro t ht
      rcases List.mem_cons.1 ht with rfl | ht
      · exact isTypeText_render marks harg
      · exact hall t ht

end

/-! ## Characters -/

/-- The characters of texts of types. -/
def isTypeChar (c : CodePoint) : Bool :=
  isNameChar c || [.ofChar '<', .ofChar '>', .ofChar ',', .ofChar ' ', .ofChar '?'].contains c

theorem isTypeChar_of_isNameChar {c : CodePoint} (h : isNameChar c = true) :
    isTypeChar c = true := by
  simp [isTypeChar, h]

theorem IsMark.isTypeChar {mark : Text} (h : IsMark mark) : ∀ c ∈ mark, isTypeChar c = true := by
  rcases h with rfl | rfl <;> decide

theorem isTypeChar_join {texts : List Text} (h : ∀ t ∈ texts, ∀ c ∈ t, isTypeChar c = true) :
    ∀ c ∈ join [',', ' '] texts, isTypeChar c = true := by
  intro c hc
  rcases mem_join hc with hc | ⟨t, ht, hc⟩
  · have hcomma : ∀ c ∈ ([.ofChar ',', .ofChar ' '] : Text), isTypeChar c = true := by decide
    exact hcomma c hc
  · exact h t ht c hc

theorem IsTypeText.isTypeChar {t : Text} (h : IsTypeText t) : ∀ c ∈ t, isTypeChar c = true := by
  induction h with
  | bare hname hmark =>
      intro c hc
      rcases List.mem_append.1 hc with hc | hc
      · exact isTypeChar_of_isNameChar (hname.chars c hc)
      · exact hmark.isTypeChar c hc
  | generic hname hmark _ _ ih =>
      intro c hc
      simp only [List.mem_append, List.mem_cons] at hc
      rcases hc with hc | rfl | hc | rfl | hc
      · exact isTypeChar_of_isNameChar (hname.chars c hc)
      · rfl
      · exact isTypeChar_join ih c hc
      · rfl
      · exact hmark.isTypeChar c hc

theorem TypeName.ne_nil {name : Text} (h : TypeName name) : name ≠ [] :=
  isName_ne_nil h.isName

theorem TypeName.start {name : Text} (h : TypeName name) (rest : Text) :
    ∃ c others, name ++ rest = c :: others ∧ isNameChar c = true ∧ c ≠ '.' := by
  obtain ⟨c, name, rfl⟩ := List.exists_cons_of_ne_nil h.ne_nil
  have hname := h.isName
  simp only [TypeExpr.isName, Bool.and_eq_true, bne_iff_ne] at hname
  exact ⟨c, name ++ rest, rfl, h.chars c List.mem_cons_self, hname.1.2⟩

/-- A text of a type starts with a character of a name. -/
theorem IsTypeText.start {t : Text} (h : IsTypeText t) :
    ∃ c rest, t = c :: rest ∧ isNameChar c = true ∧ c ≠ '.' := by
  cases h with
  | bare hname _ => exact hname.start _
  | generic hname _ _ _ => exact hname.start _

theorem IsTypeText.ne_nil {t : Text} (h : IsTypeText t) : t ≠ [] := by
  obtain ⟨c, rest, rfl, -⟩ := h.start
  exact List.cons_ne_nil c rest

/-- There is no white space at its ends. -/
theorem IsTypeText.trimmed {t : Text} (h : IsTypeText t) : Trimmed t := by
  have hmarkBlank : ∀ {mark : Text}, IsMark mark → ∀ c ∈ mark, isBlank c = false := by
    rintro mark (rfl | rfl) <;> decide
  cases h with
  | bare hname hmark =>
      exact Trimmed.of_forall (List.forall_mem_append.2
        ⟨fun c hc => isBlank_of_isNameChar (hname.chars c hc), hmarkBlank hmark⟩)
  | @generic name mark texts hname hmark _ _ =>
      have hfirst : Trimmed name :=
        Trimmed.of_forall fun c hc => isBlank_of_isNameChar (hname.chars c hc)
      have hlast : Trimmed ('>' :: mark) :=
        Trimmed.of_forall (List.forall_mem_cons.2 ⟨by decide, hmarkBlank hmark⟩)
      exact hfirst.around hlast hname.ne_nil (List.cons_ne_nil _ _) ('<' :: join [',', ' '] texts)

/-! ## Angle brackets -/

theorem TypeName.angleNested {name : Text} (h : TypeName name) : AngleNested name :=
  AngleNested.of_forall fun c hc =>
    ⟨ne_of_class (h.chars c hc) (by decide), ne_of_class (h.chars c hc) (by decide)⟩

theorem IsMark.angleNested {mark : Text} (h : IsMark mark) : AngleNested mark := by
  rcases h with rfl | rfl
  · exact .nil
  · exact AngleNested.of_forall (by decide)

theorem getLast?_join_ne {texts : List Text}
    (h : ∀ t ∈ texts, ∀ c ∈ t, isTypeChar c = true) :
    (join [',', ' '] texts).getLast? ≠ some (.ofChar '=') := by
  intro hlast
  exact absurd (isTypeChar_join h (.ofChar '=') (List.mem_of_getLast? hlast)) (by decide)

/-- The angle brackets of a type nest. -/
theorem IsTypeText.angleNested {t : Text} (h : IsTypeText t) : AngleNested t := by
  induction h with
  | bare hname hmark => exact hname.angleNested.append hmark.angleNested
  | generic hname hmark _ hall ih =>
      exact hname.angleNested.append
        (.group (getLast?_join_ne fun t ht => (hall t ht).isTypeChar) (AngleNested.list ih)
          hmark.angleNested)

/-! ## Cutting -/

/-- The characters of signatures outside their other brackets. -/
def isSignatureChar (c : CodePoint) : Bool :=
  isTypeChar c || c == '='

theorem isSignatureChar_of_isTypeChar {c : CodePoint} (h : isTypeChar c = true) :
    isSignatureChar c = true := by
  simp [isSignatureChar, h]

theorem isQuote_of_isSignatureChar {c : CodePoint} (h : isSignatureChar c = true) :
    isQuote c = false := by
  have hsingle : c ≠ .ofChar '\'' := ne_of_class h (by decide)
  have hdouble : c ≠ .ofChar '"' := ne_of_class h (by decide)
  simp [isQuote, hsingle, hdouble]

theorem isBracket_of_isSignatureChar {c : CodePoint} (h : isSignatureChar c = true) :
    isBracket c = false := by
  have hall : ∀ d ∈ brackets, isSignatureChar d = false := by decide
  exact isBracket_eq_false fun d hd => ne_of_class h (hall d hd)

/-- A text of signature characters is kept when its angle brackets nest. -/
theorem kept_of_isSignatureChar {t : Text} (h : ∀ c ∈ t, isSignatureChar c = true)
    (hangle : AngleNested t) : Kept t :=
  hangle.kept (fun c hc => isQuote_of_isSignatureChar (h c hc))
    fun c hc => isBracket_of_isSignatureChar (h c hc)

/-- Without the separator it is level too. -/
theorem level_of_isSignatureChar {s : CodePoint} {t : Text} (h : ∀ c ∈ t, isSignatureChar c = true)
    (hangle : AngleNested t) (hs : ∀ c ∈ t, c ≠ s) : Levelled [s] t :=
  (kept_of_isSignatureChar h hangle).levelled hs

/-- Angle brackets around texts of types are level for a comma. -/
theorem level_brackets {texts : List Text} (h : ∀ t ∈ texts, ∀ c ∈ t, isTypeChar c = true)
    (hangle : ∀ t ∈ texts, AngleNested t) :
    Levelled [','] ('<' :: (join [',', ' '] texts ++ [.ofChar '>'])) := by
  have hkept := kept_of_isSignatureChar
    (fun c hc => isSignatureChar_of_isTypeChar (isTypeChar_join h c hc)) (AngleNested.list hangle)
  exact Levelled.angle hkept (getLast?_join_ne h)

theorem TypeName.level {name : Text} (h : TypeName name) : Levelled [','] name :=
  level_of_isSignatureChar
    (fun c hc => isSignatureChar_of_isTypeChar (isTypeChar_of_isNameChar (h.chars c hc)))
    h.angleNested fun c hc => ne_of_class (h.chars c hc) (by decide)

theorem IsMark.level {mark : Text} (h : IsMark mark) : Levelled [','] mark := by
  refine level_of_isSignatureChar (fun c hc => isSignatureChar_of_isTypeChar (h.isTypeChar c hc))
    h.angleNested ?_
  rcases h with rfl | rfl <;> decide

/-- The commas of a type stand in its angle brackets. -/
theorem IsTypeText.level {t : Text} (h : IsTypeText t) : Levelled [','] t := by
  cases h with
  | bare hname hmark => exact hname.level.append hmark.level
  | @generic name mark texts hname hmark _ hall =>
      have hbrackets := level_brackets (fun t ht => (hall t ht).isTypeChar)
        fun t ht => (hall t ht).angleNested
      have hlevel := hname.level.append (hbrackets.append hmark.level)
      simpa using hlevel

/-! ## Words -/

theorem FreeName.spaced {name : Text} (h : FreeName name) : Spaced name :=
  Spaced.of_name h.typeName.ne_nil h.chars h.unreserved

theorem TypeName.opening {name : Text} (h : TypeName name) : Delimits (name ++ [.ofChar '<']) := by
  refine Delimits.of_mem (c := .ofChar '<') ?_ (by simp) (by decide)
  intro c hc
  rcases List.mem_append.1 hc with hc | hc
  · exact isBlank_of_isNameChar (h.chars c hc)
  · rw [List.mem_singleton.1 hc]
    decide

theorem IsMark.delimits {mark : Text} (h : IsMark mark) : Delimits mark := by
  rcases h with rfl | rfl
  · exact Delimits.nil
  · exact Delimits.of_mem (by decide) List.mem_cons_self (by decide)

/-- A type is written with single spaces, and where something stands directly behind it there is no
reserved word in it. A type with brackets or a mark has that by itself. -/
theorem IsTypeText.spaced_or_name {t : Text} (h : IsTypeText t) :
    Spaced t ∨ Enclosed t ∧ TypeName t := by
  induction h with
  | @bare name mark hname hmark =>
      have henclosed : Enclosed name := Enclosed.of_name hname.ne_nil hname.chars
      by_cases hmarkNil : mark = []
      · rw [hmarkNil, List.append_nil]
        exact .inr ⟨henclosed, hname⟩
      · exact .inl (henclosed.between Delimits.nil hmark.delimits hmarkNil)
  | @generic name mark texts hname hmark hne _ ih =>
      have hclosing : Delimits ('>' :: mark) :=
        Delimits.append (Delimits.of_mem (t := ['>']) (by decide) List.mem_cons_self (by decide))
          hmark.delimits
      have henclosed : ∀ t ∈ texts, Enclosed t := by
        intro t ht
        rcases ih t ht with hspaced | ⟨henclosed, -⟩
        · exact hspaced.enclosed
        · exact henclosed
      have hlist := (Enclosed.list hne henclosed).between hname.opening hclosing (by simp)
      exact .inl (by simpa using hlist)

/-- A type that is no reserved word is written with single spaces and without reserved words. -/
theorem IsTypeText.spaced {t : Text} (h : IsTypeText t) (hreserved : t ∉ reservedWords) :
    Spaced t := by
  rcases h.spaced_or_name with hspaced | ⟨-, hname⟩
  · exact hspaced
  · exact Spaced.of_name hname.ne_nil hname.chars hreserved

/-- The text of a type in which no name is reserved is no reserved word. -/
theorem render_not_mem_reservedWords (marks : Bool) {e : TypeExpr} (h : unreserved e = true) :
    render marks e ∉ reservedWords := by
  obtain ⟨name, args, nullable, argsText⟩ := e
  obtain ⟨hname, -⟩ := unreserved_node.1 h
  intro hmem
  have hchars : ∀ c ∈ render marks (.node name args nullable argsText), isNameChar c = true :=
    fun c hc => isNameChar_of_mem_reservedWords hmem hc
  rw [render_node] at hmem hchars
  have hbrackets : bracketText marks args argsText = [] := by
    rw [bracketText] at hchars ⊢
    split
    · next hsome =>
        rw [if_pos hsome] at hchars
        exact absurd (hchars '<' (by simp)) (by decide)
    · rfl
  have hmark : nullText marks nullable = [] := by
    rcases nullText_eq_nil_or marks nullable with hnil | hmark
    · exact hnil
    · rw [hmark] at hchars
      exact absurd (hchars '?' (by simp)) (by decide)
  rw [hbrackets, hmark, List.append_nil, List.append_nil] at hmem
  exact hname hmem

end TypeExpr

end DartDecoders
