/-
Abstract methods with one parameter.

A method of the language may have any identifier for its name, but the scanner reads the name off as
the word at the end of the header. The two differ where a dollar sign is in the name: what stands
before the last one goes to the type, and when nothing stands behind it there is no name at all. The
words that mark accessors, operators and factories are looked for among all words of the header, so
a method that is named like one of them is passed over. Every other name comes through, behind every
type that is none of the words with a meaning of their own. Loading the method from declaration data
knows of no such words and keeps every name (`OneParameterMethod.methodOf_and_parseMember_iff`).

The one parameter may have every type. When its type is a word that modifies parameters the type is
lost, and when its name is another one there is nothing left to read.
-/
import DartDecoders.Proofs.FrontEnds

set_option autoImplicit false

namespace DartDecoders

open Text TypeExpr Source

/-! ## Canonical types -/

/-- A well-formed type, whatever its names are. -/
structure CanonicalType where
  tree : TypeExpr
  wellFormed : tree.wellFormed = true

namespace CanonicalType

/-- The canonical text of a type. -/
def text (t : CanonicalType) : Text :=
  t.tree.toText

theorem isTypeText (t : CanonicalType) : IsTypeText t.text :=
  isTypeText_render true t.wellFormed

theorem trimmed (t : CanonicalType) : Trimmed t.text :=
  trimmed_render t.wellFormed

/-- The words of a type with single spaces between them are the type. The only reserved word that
can be one of them is the type itself. -/
theorem words_text (t : CanonicalType) :
    join [' '] (words t.text) = t.text ∧ words t.text ≠ []
      ∧ ∀ w ∈ words t.text, w ∈ reservedWords → w = t.text :=
  t.isTypeText.words_eq

/-- Keywords in front of a type are dropped only when the type is one of them. -/
theorem dropWhile_words_append (t : CanonicalType) {keywords : List Text}
    (hkeywords : ∀ w ∈ keywords, w ∈ reservedWords) (h : t.text ∉ keywords) (others : List Text) :
    (words t.text ++ others).dropWhile keywords.contains = words t.text ++ others
      ∧ (words t.text ++ others).takeWhile keywords.contains = [] :=
  t.isTypeText.dropWhile_words_append hkeywords h others

end CanonicalType

/-! ## Methods -/

/-- An abstract method with one parameter in a class, as it is declared. Its type may be any but a
word that marks a member or modifies a method, and does not start with the class and a dot; its name
may be any identifier but the class. -/
structure OneParameterMethod (className : Word) where
  returnType : CanonicalType
  returnType_free : returnType.text ∉ otherKeywords ∧ returnType.text ∉ methodModifiers
  unqualified : ¬ className.text ++ [.ofChar '.'] <+: returnType.text
  name : Identifier
  name_ne : name.text ≠ className.text
  parameterType : CanonicalType
  parameterName : Word

namespace OneParameterMethod

variable {className : Word} (m : OneParameterMethod className)

/-- What stands before the parenthesis. -/
def header : Text :=
  m.returnType.text ++ .ofChar ' ' :: m.name.text

/-- What stands between the parentheses. -/
def inner : Text :=
  m.parameterType.text ++ .ofChar ' ' :: m.parameterName.text

/-- The method as it is written. -/
def text : Text :=
  m.header ++ .ofChar '(' :: (m.inner ++ [.ofChar ')', .ofChar ';'])

/-! ## The header -/

theorem header_isTypeChar : ∀ c ∈ m.header, isTypeChar c = true := by
  refine List.forall_mem_append.2 ⟨m.returnType.isTypeText.isTypeChar, ?_⟩
  exact List.forall_mem_cons.2
    ⟨rfl, fun c hc => isTypeChar_of_isNameChar (m.name.isNameChar c hc)⟩

theorem words_header : words m.header = words m.returnType.text ++ [m.name.text] := by
  rw [header, words_append_blank (by decide), words_of_forall m.name.ne_nil m.name.isBlank]

/-- A keyword among the words of the header is the name of the method. -/
theorem keyword_eq_name {w : Text} (hw : w ∈ words m.header) (hkeyword : w ∈ otherKeywords) :
    w = m.name.text := by
  rw [m.words_header, List.mem_append, List.mem_singleton] at hw
  rcases hw with hw | hname
  · have hreserved : ∀ w ∈ otherKeywords, w ∈ reservedWords := by decide +kernel
    have htype := m.returnType.words_text.2.2 w hw (hreserved w hkeyword)
    exact absurd (htype ▸ hkeyword) m.returnType_free.1
  · exact hname

/-- No modifier is taken off the header. -/
theorem declaredText_header : declaredText m.header = m.header ∧ isConcrete m.header = false := by
  have hreserved : ∀ w ∈ methodModifiers, w ∈ reservedWords := by decide +kernel
  obtain ⟨hjoin, hne, -⟩ := m.returnType.words_text
  obtain ⟨hdrop, htake⟩ :=
    m.returnType.dropWhile_words_append hreserved m.returnType_free.2 [m.name.text]
  constructor
  · rw [declaredText, m.words_header, hdrop, join_append hne (by simp), hjoin, join_singleton]
    rfl
  · rw [isConcrete, m.words_header, htake]
    rfl

/-- The head that is read off the header: the word at the end of the name, with what stands before
it as the type. There is none without such a word, or when it is the class. -/
def head? : Option MemberHead :=
  (m.name.lastWord?.filter fun found => found.2 != className.text).map fun found =>
    { name := found.2
      returnType :=
        if found.1 = [] then m.returnType.text else m.returnType.text ++ .ofChar ' ' :: found.1
      typeParameters := []
      concrete := false }

/-- The name that is read is a word. -/
theorem isWordChar_of_head? {head : MemberHead} (h : m.head? = some head) :
    ∀ c ∈ head.name, isWordChar c = true := by
  obtain ⟨⟨before, word⟩, hfilter, rfl⟩ := Option.map_eq_some_iff.1 h
  have hfound : m.name.lastWord? = some (before, word) := (Option.filter_eq_some_iff.1 hfilter).1
  exact isWordChar_of_splitLastWord? hfound

/-- What stands before the word at the end of the name is trimmed with the type. -/
theorem trim_returnType {before word : Text} (hfound : m.name.lastWord? = some (before, word)) :
    trim (m.returnType.text ++ .ofChar ' ' :: before)
      = if before = [] then m.returnType.text else m.returnType.text ++ .ofChar ' ' :: before := by
  by_cases hbefore : before = []
  · rw [if_pos hbefore, hbefore]
    exact trim_append_space m.returnType.trimmed
  · have hsplit := append_of_splitLastWord? m.name.trimmed.finish hfound
    have hblank : ∀ c ∈ before, isBlank c = false := by
      intro c hc
      exact m.name.isBlank c (hsplit ▸ List.mem_append_left word hc)
    have htrimmed := m.returnType.trimmed.around (Trimmed.of_forall hblank)
      m.returnType.isTypeText.ne_nil hbefore [' ']
    rw [if_neg hbefore]
    exact htrimmed.trim_eq

/-- Behind its type a method is told from a constructor by its name alone. -/
theorem declaredHead?_header : declaredHead? className.text m.header [] false = m.head? := by
  have hlast : splitLastWord? m.header
      = m.name.lastWord?.map fun found => (m.returnType.text ++ .ofChar ' ' :: found.1, found.2) :=
    m.name.splitLastWord?_behind (by decide) m.returnType.text
  have hqualified : ¬ className.text ++ [.ofChar '.'] <+: m.header :=
    fun hprefix => m.unqualified (qualifier_prefix_of_space className.chars hprefix)
  rw [head?]
  cases hfound : m.name.lastWord? with
  | none =>
      rw [hfound] at hlast
      rw [declaredHead?, hlast]
      rfl
  | some found =>
      obtain ⟨before, word⟩ := found
      have htype := m.trim_returnType hfound
      have hne : m.returnType.text ≠ [] := m.returnType.isTypeText.ne_nil
      -- with or without a part of the name, what is read as the type starts the header
      have hstart : trim (m.returnType.text ++ .ofChar ' ' :: before) <+: m.header := by
        rw [htype, header, ← append_of_splitLastWord? m.name.trimmed.finish hfound]
        split
        · exact List.prefix_append _ _
        · exact ⟨word, by simp⟩
      rw [hfound] at hlast
      rw [declaredHead?_typed hlast htype (by split <;> simp [hne]) (htype ▸ hstart) hqualified]
      by_cases hclass : word = className.text <;> simp [Option.filter, hclass]

theorem memberHead?_header :
    memberHead? className.text m.header
      = .ok (if m.name.text ∈ otherKeywords then none else m.head?) := by
  by_cases hkeyword : m.name.text ∈ otherKeywords
  · rw [if_pos hkeyword]
    refine memberHead?_keyword ?_ hkeyword className.text
    rw [m.words_header]
    simp
  · rw [if_neg hkeyword]
    obtain ⟨hdeclared, hconcrete⟩ := m.declaredText_header
    have hequals : .ofChar '=' ∉ m.header := fun hc =>
      absurd (m.header_isTypeChar (.ofChar '=') hc) (by decide)
    have hkeywords : ∀ w ∈ words m.header, w ∉ otherKeywords := by
      intro w hw hmem
      exact hkeyword (m.keyword_eq_name hw hmem ▸ hmem)
    have hsplit : splitTypeParameters (declaredText m.header) = .ok (m.header, []) := by
      have hname := splitTypeParameters_name m.name.ne_nil m.name.isNameChar
        (m.returnType.text ++ [.ofChar ' '])
      rw [hdeclared, header]
      simpa using hname
    rw [memberHead?_eq hequals hkeywords hsplit, hconcrete, m.declaredHead?_header]

/-! ## The parameter -/

/-- Whether nothing is left of the parameter: its type and its name are both words that modify
parameters. -/
def nameless : Prop :=
  m.parameterType.text ∈ parameterModifiers ∧ m.parameterName.text ∈ parameterModifiers

/-- The parameter that is read. A type that modifies parameters is lost. -/
def parameter : Parameter where
  typeText := .str (if m.parameterType.text ∈ parameterModifiers then untyped
    else m.parameterType.text)
  name := .str m.parameterName.text
  required := (words m.inner).contains "required".toText

theorem words_inner : words m.inner = words m.parameterType.text ++ [m.parameterName.text] := by
  have hblank : ∀ c ∈ m.parameterName.text, isBlank c = false := by
    intro c hc
    exact isBlank_of_isNameChar (m.parameterName.isNameChar c hc)
  rw [inner, words_append_blank (by decide), words_of_forall m.parameterName.ne_nil hblank]

/-- What is left of the words of the parameter without its modifiers. -/
theorem declared_inner :
    join [.ofChar ' '] ((words m.inner).dropWhile parameterModifiers.contains)
      = if m.parameterType.text ∈ parameterModifiers
        then (if m.parameterName.text ∈ parameterModifiers then [] else m.parameterName.text)
        else m.inner := by
  have hreserved : ∀ w ∈ parameterModifiers, w ∈ reservedWords := by decide +kernel
  by_cases htype : m.parameterType.text ∈ parameterModifiers
  · have hblank : ∀ c ∈ m.parameterType.text, isBlank c = false := by
      intro c hc
      exact isBlank_of_isNameChar (isNameChar_of_mem_reservedWords (hreserved _ htype) hc)
    rw [if_pos htype, m.words_inner, words_of_forall m.parameterType.isTypeText.ne_nil hblank,
      List.singleton_append, List.dropWhile_cons_of_pos (List.contains_iff_mem.2 htype)]
    by_cases hname : m.parameterName.text ∈ parameterModifiers
    · rw [if_pos hname, List.dropWhile_cons_of_pos (List.contains_iff_mem.2 hname)]
      rfl
    · rw [if_neg hname, List.dropWhile_cons_of_neg (by simpa using hname), join_singleton]
  · obtain ⟨hjoin, hne, -⟩ := m.parameterType.words_text
    rw [if_neg htype, m.words_inner,
      (m.parameterType.dropWhile_words_append hreserved htype _).1, join_append hne (by simp),
      hjoin, join_singleton]
    rfl

theorem isPart_inner : IsPart m.inner :=
  m.parameterType.isTypeText.isPart_named m.parameterName

theorem cutDefaults_inner : cutDefaults m.inner = (m.inner, .null) :=
  cutDefaults_eq_self (m.parameterType.isTypeText.named_isTypeChar m.parameterName)
    m.isPart_inner.angleNested m.isPart_inner.trimmed m.isPart_inner.ne_nil

/-- The parameter is read, unless nothing is left of it. -/
theorem parseParameters_inner :
    (m.nameless → parseParameters m.inner = .error (.reported (.namelessParameter [])))
      ∧ (¬ m.nameless → parseParameters m.inner = .ok [m.parameter]) := by
  have hpart := m.isPart_inner
  have hread : parseParameters m.inner
      = (declaredParameter .positional
          (join [' '] ((words m.inner).dropWhile parameterModifiers.contains))
          ((words m.inner).contains "required".toText) .null).map fun p => [p] := by
    rw [parseParameters_of_level hpart.level hpart.trimmed hpart.ne_nil, hpart.parsePart_eq,
      parseParameter_eq hpart.withoutMarkers_eq m.cutDefaults_inner]
  rw [hread, m.declared_inner]
  constructor
  · rintro ⟨htype, hname⟩
    rw [if_pos htype, if_pos hname]
    rfl
  · intro hnameless
    by_cases htype : m.parameterType.text ∈ parameterModifiers
    · have hname : m.parameterName.text ∉ parameterModifiers := fun hname =>
        hnameless ⟨htype, hname⟩
      rw [if_pos htype, if_neg hname, declaredParameter,
        splitLastWord?_word m.parameterName.ne_nil m.parameterName.chars, parameter, if_pos htype]
      rfl
    · have hne : m.parameterType.text ≠ [] := m.parameterType.isTypeText.ne_nil
      have hlast : splitLastWord? m.inner
          = some (m.parameterType.text ++ [.ofChar ' '], m.parameterName.text) :=
        splitLastWord?_append m.parameterName.ne_nil m.parameterName.chars
      rw [if_neg htype, declaredParameter, hlast, parameter, if_neg htype]
      simp only [trim_append_space m.parameterType.trimmed]
      rw [typeOr, if_neg (by simpa using hne)]
      rfl

/-! ## Reading the method -/

/-- Reading the method: nothing when its name is a keyword, else what its head and its parameter
say. -/
theorem parseMember_text :
    parseMember className.text m.text
      = match (if m.name.text ∈ otherKeywords then none else m.head?) with
        | none => .ok none
        | some head => (parseParameters m.inner).map (methodOf? head [.ofChar ';']) := by
  have hparen : .ofChar '(' ∉ m.header := fun hc =>
    absurd (m.header_isTypeChar (.ofChar '(') hc) (by decide)
  have hmember : withoutMarkers m.text
      = .ok (m.header ++ .ofChar '(' :: (m.inner ++ .ofChar ')' :: [.ofChar ';'])) := by
    have htext : m.text = m.header
        ++ ((.ofChar '(' :: (m.inner ++ [.ofChar ')'])) ++ [.ofChar ';']) := by simp [text]
    have hne : m.header ≠ [] := by simp [header]
    have hheader : Trimmed m.header := by
      have haround := m.returnType.trimmed.around m.name.trimmed m.returnType.isTypeText.ne_nil
        m.name.ne_nil [' ']
      simpa [header] using haround
    have hsemicolon : Trimmed [';'] := ⟨rfl, rfl⟩
    have htrimmed : Trimmed m.text := by
      rw [htext]
      exact hheader.around hsemicolon hne (by simp) _
    obtain ⟨c, rest, htype, hc, -⟩ := m.returnType.isTypeText.start
    refine withoutMarkers_eq_self htrimmed ?_
    rw [text, header, htype]
    exact beq_eq_false_iff_ne.2 (ne_of_class hc (by decide))
  have hhead := m.memberHead?_header
  cases hfound : (if m.name.text ∈ otherKeywords then none else m.head?) with
  | none =>
      rw [hfound] at hhead
      exact parseMember_eq_none hmember hparen hhead
  | some head =>
      rw [hfound] at hhead
      exact parseMember_eq_methodOf? m.isPart_inner.balanced hmember hparen hhead

/-- The method that is declared. -/
def declared : Method where
  name := .str m.name.text
  returnType := .str m.returnType.text
  parameters := [{ typeText := .str m.parameterType.text, name := .str m.parameterName.text }]
  isAbstract := true
  typeParameters := .str []

/-- A method whose name is a word and no keyword is read as it is declared, with the parameter that
is read. -/
theorem parseMember_eq_declared (hname : .ofChar '$' ∉ m.name.text)
    (hkeyword : m.name.text ∉ otherKeywords) (hparameter : ¬ m.nameless) :
    parseMember className.text m.text
      = .ok (some { m.declared with parameters := [m.parameter] }) := by
  have hchars : ∀ c ∈ m.name.text, isWordChar c = true := by
    intro c hc
    rcases m.name.chars c hc with hword | rfl
    · exact hword
    · exact absurd hc hname
  have hlast : m.name.lastWord? = some ([], m.name.text) :=
    splitLastWord?_word m.name.ne_nil hchars
  have hhead : m.head? = some {
      name := m.name.text
      returnType := m.returnType.text
      typeParameters := []
      concrete := false } := by
    simp [head?, hlast, Option.filter, m.name_ne]
  rw [m.parseMember_text, if_neg hkeyword, hhead]
  simp only
  rw [m.parseParameters_inner.2 hparameter]
  rfl

/-- From its entry in declaration data the method is always loaded. -/
theorem methodOf_declared (owner : Json) :
    Declaration.methodOf owner (.obj m.declared.fields) = .ok m.declared := by
  have htruthy : ∀ t : Text, t ≠ [] → (Json.str t).isTruthy = true := by
    intro t ht
    simpa [Json.isTruthy] using ht
  refine Declaration.methodOf_fields owner (htruthy _ m.name.ne_nil)
    (htruthy _ m.returnType.isTypeText.ne_nil) ?_
    (show m.declared.typeParameters = .str [] from rfl)
  intro p hp
  rw [List.mem_singleton.1 hp]
  rfl

/-- The scanner reads the method with its name and type, unless there is a dollar sign in its name,
its name is the keyword of another kind of member, or nothing is left of its parameter. -/
theorem exists_parseMember_iff :
    (∃ method, parseMember className.text m.text = .ok (some method) ∧ method.isAbstract = true
        ∧ method.name = .str m.name.text ∧ method.returnType = .str m.returnType.text)
      ↔ .ofChar '$' ∉ m.name.text ∧ m.name.text ∉ otherKeywords ∧ ¬ m.nameless := by
  constructor
  · rintro ⟨method, hread, -, hname, -⟩
    rw [m.parseMember_text] at hread
    have hkeyword : m.name.text ∉ otherKeywords := by
      intro hmem
      rw [if_pos hmem] at hread
      cases hread
    rw [if_neg hkeyword] at hread
    cases hhead : m.head? with
    | none =>
        rw [hhead] at hread
        cases hread
    | some head =>
        rw [hhead] at hread
        refine ⟨?_, hkeyword, ?_⟩
        -- the name that was read is a word, so it is the declared name only when that is one too
        · intro hdollar
          have hnames : method.name = .str head.name := name_of_parameters hread
          have heq : m.name.text = head.name := by
            rw [hname] at hnames
            exact Json.str.inj hnames
          have hword := m.isWordChar_of_head? hhead '$' (heq ▸ hdollar)
          exact absurd hword (by decide)
        · intro hnameless
          simp only [m.parseParameters_inner.1 hnameless] at hread
          cases hread
  · rintro ⟨hname, hkeyword, hparameter⟩
    exact ⟨_, m.parseMember_eq_declared hname hkeyword hparameter, rfl, rfl, rfl⟩

/-- **No abstract method is dropped or renamed**, except those that the word at the end of the
header or the words of the header mislead the scanner about. Loading the same method from
declaration data has no such exceptions. -/
theorem methodOf_and_parseMember_iff (owner : Json) :
    Declaration.methodOf owner (.obj m.declared.fields) = .ok m.declared
      ∧ ((∃ method, parseMember className.text m.text = .ok (some method)
          ∧ method.isAbstract = true ∧ method.name = .str m.name.text
          ∧ method.returnType = .str m.returnType.text)
        ↔ .ofChar '$' ∉ m.name.text ∧ m.name.text ∉ otherKeywords ∧ ¬ m.nameless) :=
  ⟨m.methodOf_declared owner, m.exists_parseMember_iff⟩

/-- A method of the given name that takes JSON data and gives a task. -/
def taskMethod (name : Identifier) (hname : name.text ≠ taskApi.text) :
    OneParameterMethod taskApi where
  returnType := ⟨.node "Task".toText [] false none, by decide⟩
  returnType_free := by decide +kernel
  unqualified := by decide
  name
  name_ne := hname
  parameterType := ⟨.node "Map".toText [.node "String".toText [] false none,
    .node "dynamic".toText [] false none] false (some []), by decide⟩
  parameterName := ⟨"data".toText, by decide, by decide⟩

/-- Of a name with a dollar sign only the end is read, and a method that is named like the keyword
of an accessor is dropped. -/
theorem parseMember_renamed_and_dropped :
    (∃ method, parseMember "TaskApi".toText "Task a$b(Map<String, dynamic> data);".toText
        = .ok (some method) ∧ method.name = .str "b".toText
        ∧ method.returnType = .str "Task a$".toText)
      ∧ parseMember "TaskApi".toText "Task get(Map<String, dynamic> data);".toText = .ok none := by
  constructor
  · let m := taskMethod ⟨"a$b".toText, by decide, by decide, rfl⟩ (by decide)
    have hnameless : ¬ m.nameless := by
      rintro ⟨htype, -⟩
      exact absurd htype (by decide +kernel)
    have hread := m.parseMember_text
    rw [if_neg (by decide +kernel), m.parseParameters_inner.2 hnameless] at hread
    exact ⟨_, hread, rfl, rfl⟩
  · let m := taskMethod ⟨"get".toText, by decide, by decide, rfl⟩ (by decide)
    have hread := m.parseMember_text
    rw [if_pos (by decide +kernel)] at hread
    exact hread

end OneParameterMethod

end DartDecoders
