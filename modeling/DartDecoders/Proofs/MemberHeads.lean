/-
Heads of members.

What stands before the first parenthesis of a member is read in two steps. The first looks at its
characters and words alone: an equals sign or a keyword among the words says that the member is no
method, and the modifiers are taken off. The second looks at the text that is left
(`declaredHead?`): its last word is the name, and the rest is the type, unless the two are those of
a constructor. The lemmas here say what each step does on the texts that members are made of.

An identifier of the language may hold dollar signs, and a word of the scanner may not. So of an
identifier at the end of a header only what stands behind its last dollar sign is read as the name
(`Identifier.splitLastWord?_behind`).
-/
import DartDecoders.Proofs.PlainParameter
import DartDecoders.Source.Header

set_option autoImplicit false

namespace DartDecoders

open Text TypeExpr Source

/-! ## Identifiers -/

/-- An identifier: word characters and dollar signs, the first of them no digit. -/
structure Identifier where
  text : Text
  ne_nil : text ≠ []
  chars : ∀ c ∈ text, isWordChar c = true ∨ c = '$'
  start : StopsAt CodePoint.isDigit text

namespace Identifier

theorem isNameChar (n : Identifier) : ∀ c ∈ n.text, isNameChar c = true := by
  intro c hc
  rcases n.chars c hc with hword | rfl
  · exact isNameChar_of_isWordChar hword
  · rfl

theorem isBlank (n : Identifier) : ∀ c ∈ n.text, isBlank c = false :=
  fun c hc => isBlank_of_isNameChar (n.isNameChar c hc)

theorem trimmed (n : Identifier) : Trimmed n.text :=
  Trimmed.of_forall n.isBlank

/-- The word at the end of an identifier, with what stands before it; there is none when the last
character is a dollar sign. -/
def lastWord? (n : Identifier) : Option (Text × Text) :=
  splitLastWord? n.text

/-- Behind a character that belongs to no word, the name is read off the identifier alone. -/
theorem splitLastWord?_behind (n : Identifier) {c : CodePoint} (hc : isWordChar c = false)
    (before : Text) :
    splitLastWord? (before ++ c :: n.text)
      = n.lastWord?.map fun found => (before ++ c :: found.1, found.2) :=
  splitLastWord?_stop hc n.ne_nil n.trimmed.finish before

end Identifier

/-- A class to declare members in. -/
def taskApi : Word :=
  ⟨"TaskApi".toText, by decide, by decide⟩

namespace Source

/-! ## Characters and words -/

/-- The words that the header of a member declares with: the modifiers before them are left out. -/
def declaredText (header : Text) : Text :=
  join [' '] ((words header).dropWhile methodModifiers.contains)

/-- Whether a modifier before a method says that it needs no implementation. -/
def isConcrete (header : Text) : Bool :=
  ((words header).takeWhile methodModifiers.contains).any concreteModifiers.contains

/-- White space at the end of a header means nothing. -/
theorem declaredText_append_gap (g : Gap) (header : Text) :
    declaredText (header ++ g.text) = declaredText header := by
  rw [declaredText, words_append_gap g.blank, declaredText]

/-- A header is declared with nothing, or with a text that ends as the header does. -/
theorem declaredText_concat {c : CodePoint} (hc : isBlank c = false) (before : Text) :
    declaredText (before ++ [c]) = []
      ∨ ∃ rest : Text, declaredText (before ++ [c]) = rest ++ [c] := by
  rcases join_dropWhile_words hc methodModifiers.contains before with ⟨-, hnil⟩ | ⟨-, hrest⟩
  · exact .inl hnil
  · exact .inr hrest

/-- A word that ends in a character of no name is no modifier, so it is left. -/
theorem declaredText_mark {c : CodePoint} (hc : isBlank c = false) (hname : isNameChar c = false)
    (before : Text) : ∃ rest : Text, declaredText (before ++ [c]) = rest ++ [c] := by
  rcases join_dropWhile_words hc methodModifiers.contains before with ⟨hall, -⟩ | ⟨-, hrest⟩
  -- the last word would be a modifier
  · obtain ⟨others, w, hwords⟩ := exists_words_concat hc before
    have hchars : ∀ w ∈ methodModifiers, ∀ c ∈ w, isNameChar c = true := by decide +kernel
    have hmem := List.contains_iff_mem.1 (hall (w ++ [c]) (by simp [hwords]))
    rw [hchars _ hmem c (by simp)] at hname
    cases hname
  · exact hrest

/-- No modifier holds an angle bracket, so all of them are left. -/
theorem isSome_angleGroup?_declaredText (header : Text) :
    (angleGroup? 0 (declaredText header).reverse).isSome
      = (angleGroup? 0 header.reverse).isSome := by
  have hblank : ∀ c, isBlank c = true → isAngle c = false := by
    intro c hc
    refine forall_isBlank (p := fun c => isAngle c = false) (by decide +kernel) hc
  have hmodifiers : ∀ w : Text, methodModifiers.contains w = true → ∀ c ∈ w, isAngle c = false := by
    intro w hw
    have hall : ∀ w ∈ methodModifiers, ∀ c ∈ w, isAngle c = false := by decide +kernel
    exact hall w (List.contains_iff_mem.1 hw)
  rw [← isSome_angleGroup?_filter, ← isSome_angleGroup?_filter header.reverse, List.filter_reverse,
    List.filter_reverse, declaredText, filter_join_dropWhile hblank hmodifiers]

/-- A header with an equals sign is that of no method. -/
theorem memberHead?_equals {header : Text} (h : .ofChar '=' ∈ header) (className : Text) :
    memberHead? className header = .ok none := by
  have hcontains : header.contains '=' = true := List.contains_iff_mem.2 h
  rw [memberHead?, hcontains, Bool.true_or, Bool.true_or]
  rfl

/-- A header with a keyword is that of no method. -/
theorem memberHead?_keyword {header : Text} {w : Text} (hw : w ∈ words header)
    (hkeyword : w ∈ otherKeywords) (className : Text) :
    memberHead? className header = .ok none := by
  have hany : (words header).any otherKeywords.contains = true :=
    List.any_eq_true.2 ⟨w, hw, List.contains_iff_mem.2 hkeyword⟩
  rw [memberHead?, hany, Bool.or_true]
  rfl

/-- A header without words is that of no method. -/
theorem memberHead?_blank {header : Text} (h : words header = []) (className : Text) :
    memberHead? className header = .ok none := by
  rw [memberHead?, h, List.isEmpty_nil, Bool.or_true, Bool.true_or]
  rfl

/-! ## Names and types -/

/-- The head that a text without modifiers declares in a class: the last word is the name, what is
before it the type. There is none without a last word, nor when the two are a constructor's. -/
def declaredHead? (className declared typeParameters : Text) (concrete : Bool) :
    Option MemberHead :=
  match splitLastWord? declared with
  | none => none
  | some (before, name) =>
    if name == className || trim before == className ++ [.ofChar '.']
        || (className ++ [.ofChar '.'] : Text).isPrefixOf declared then none
    else some { name, returnType := typeOr (trim before), typeParameters, concrete }

/-- The two steps one behind the other. Type parameters that are not closed are an error. -/
theorem memberHead?_eq_map {header : Text} (hequals : .ofChar '=' ∉ header)
    (hkeywords : ∀ w ∈ words header, w ∉ otherKeywords) (className : Text) :
    memberHead? className header
      = (splitTypeParameters (declaredText header)).map fun found =>
        declaredHead? className found.1 found.2 (isConcrete header) := by
  by_cases hwords : words header = []
  -- without words nothing is declared, and nothing has no last word either
  · rw [memberHead?_blank hwords, declaredText, hwords]
    rfl
  · have hempty : (words header).isEmpty = false := by simpa using hwords
    have hcontains : header.contains '=' = false := by simpa using hequals
    have hany : (words header).any otherKeywords.contains = false :=
      List.any_eq_false.2 fun w hw => by simpa using hkeywords w hw
    rw [memberHead?, hcontains, hempty, hany, declaredText]
    simp only [Bool.or_false, Bool.false_eq_true, if_false, bind, Except.bind]
    cases splitTypeParameters (join [' '] ((words header).dropWhile methodModifiers.contains)) with
    | error e => rfl
    | ok found =>
        simp only [Except.map, declaredHead?]
        cases splitLastWord? found.1 with
        | none => rfl
        | some last =>
            simp only
            split <;> rfl

/-- What the two steps read together. -/
theorem memberHead?_eq {className header declared typeParameters : Text}
    (hequals : .ofChar '=' ∉ header)
    (hkeywords : ∀ w ∈ words header, w ∉ otherKeywords)
    (hdeclared : splitTypeParameters (declaredText header) = .ok (declared, typeParameters)) :
    memberHead? className header
      = .ok (declaredHead? className declared typeParameters (isConcrete header)) := by
  rw [memberHead?_eq_map hequals hkeywords, hdeclared]
  rfl

/-- A header of a class and a dot is that of a constructor. -/
theorem declaredHead?_qualified {className declared : Text}
    (h : className ++ [.ofChar '.'] <+: declared) (typeParameters : Text) (concrete : Bool) :
    declaredHead? className declared typeParameters concrete = none := by
  rw [declaredHead?, List.isPrefixOf_iff_prefix.2 h]
  cases splitLastWord? declared with
  | none => rfl
  | some found => simp

/-- Other headers that start with a type and end in a word are those of methods, unless the word is
the class. -/
theorem declaredHead?_typed {className declared before word type : Text}
    (hlast : splitLastWord? declared = some (before, word)) (htype : trim before = type)
    (hne : type ≠ []) (hstart : type <+: declared)
    (hqualified : ¬ className ++ [.ofChar '.'] <+: declared)
    (typeParameters : Text) (concrete : Bool) :
    declaredHead? className declared typeParameters concrete
      = if word = className then none
        else some { name := word, returnType := type, typeParameters, concrete } := by
  -- a type that is the class and a dot would put them at the start
  have htypeNe : type ≠ className ++ [.ofChar '.'] := fun heq => hqualified (heq ▸ hstart)
  have hprefix : (className ++ [.ofChar '.'] : Text).isPrefixOf declared = false :=
    Bool.eq_false_iff.2 fun h => hqualified (List.isPrefixOf_iff_prefix.1 h)
  have htypeOr : typeOr type = type := by
    rw [typeOr, if_neg (by simpa using hne)]
  rw [declaredHead?, hlast]
  simp only [htype, htypeOr, beq_eq_false_iff_ne.2 htypeNe, hprefix, Bool.or_false, beq_iff_eq]

/-- The class and a dot stand at the start of a text and a space only when they stand at the start
of the text: no class has a space in its name. -/
theorem qualifier_prefix_of_space {className t rest : Text}
    (hclass : ∀ c ∈ className, isWordChar c = true)
    (h : className ++ [.ofChar '.'] <+: t ++ .ofChar ' ' :: rest) :
    className ++ [.ofChar '.'] <+: t := by
  rcases List.prefix_or_prefix_of_prefix h (List.prefix_append t (' ' :: rest)) with
    hshort | ⟨more, hmore⟩
  · exact hshort
  -- the text would be a part of the class and the dot, and the space behind it would follow
  · obtain ⟨others, hothers⟩ := h
    rw [← hmore, List.append_assoc] at hothers
    have htail := List.append_cancel_left hothers
    by_cases hnil : more = []
    · rw [hnil, List.append_nil] at hmore
      exact hmore ▸ List.prefix_rfl
    · obtain ⟨c, more, rfl⟩ := List.exists_cons_of_ne_nil hnil
      obtain ⟨rfl, -⟩ := List.cons.inj htail
      have hspace : .ofChar ' ' ∈ className ++ [.ofChar '.'] := by
        rw [← hmore]
        simp
      rcases List.mem_append.1 hspace with hin | hin
      · exact absurd (hclass ' ' hin) (by decide)
      · exact absurd hin (by decide)

/-! ## Ends of headers -/

/-- A text that ends with characters of names has no type parameters. -/
theorem splitTypeParameters_name {name : Text} (hne : name ≠ [])
    (hname : ∀ c ∈ name, isNameChar c = true) (before : Text) :
    splitTypeParameters (before ++ name) = .ok (before ++ name, []) := by
  have hend : ∀ {p : CodePoint → Bool}, (∀ c, isNameChar c = true → p c = false) →
      StopsAt p (before ++ name).reverse := by
    intro p hp
    exact stopsAt_reverse_append hne
      (stopsAt_of_forall fun c hc => hp c (hname c (List.mem_reverse.1 hc))) _
  exact splitTypeParameters_eq_self (hend fun c hc => isBlank_of_isNameChar hc)
    (hend fun c hc => beq_eq_false_iff_ne.2 (ne_of_class hc (by decide)))

/-- A text that does not end in a closing angle bracket has no type parameters. -/
theorem splitTypeParameters_concat {c : CodePoint} (hc : isBlank c = false) (hclose : c ≠ '>')
    (before : Text) : splitTypeParameters (before ++ [c]) = .ok (before ++ [c], []) := by
  refine splitTypeParameters_eq_self (stopsAt_reverse_concat hc before) ?_
  exact stopsAt_reverse_concat (p := (· == '>')) (beq_eq_false_iff_ne.2 hclose) before

/-- Behind a closing angle bracket there are type parameters, or there is an error. -/
theorem splitTypeParameters_closing (before : Text) :
    splitTypeParameters (before ++ [.ofChar '>'])
      = match angleGroup? 0 (before ++ [.ofChar '>'] : Text).reverse with
        | some (group, rest) => .ok (trimEnd rest.reverse, group.reverse)
        | none => .error (.reported (.unbalancedTypeParameters (before ++ [.ofChar '>']))) := by
  have htrim : trimEnd (before ++ [.ofChar '>']) = before ++ [.ofChar '>'] :=
    trimEnd_concat (by decide) before
  have hreverse : (before ++ [.ofChar '>'] : Text).reverse = .ofChar '>' :: before.reverse := by
    simp
  rw [splitTypeParameters]
  cases hgroup : angleGroup? 0 ('>' :: before.reverse) with
  | none => simp only [htrim, hreverse, hgroup]
  | some found => simp only [htrim, hreverse, hgroup]

/-! ## Members of a class -/

/-- Whether a method ends with what stands behind its parameters: a semicolon or a body. -/
def endsMethod (behind : Text) : Bool :=
  trim behind == [.ofChar ';'] || startsBody (trim behind)

/-- The method of a head and its parameters, when what stands behind them ends one. -/
def methodOf? (head : MemberHead) (behind : Text) (parameters : List Parameter) : Option Method :=
  if endsMethod behind then
    some {
      name := .str head.name
      returnType := .str head.returnType
      parameters
      isAbstract := trim behind == [.ofChar ';'] && !head.concrete
      typeParameters := .str head.typeParameters }
  else none

/-- A method is named as its head says, whatever its parameters are. -/
theorem name_of_parameters {head : MemberHead} {behind : Text}
    {read : Except Fault (List Parameter)} {method : Method}
    (h : read.map (methodOf? head behind) = .ok (some method)) :
    method.name = .str head.name := by
  cases read with
  | error e => cases h
  | ok parameters =>
      have hmethod : methodOf? head behind parameters = some method := Except.ok.inj h
      rw [methodOf?] at hmethod
      split at hmethod
      · cases hmethod
        rfl
      · cases hmethod

section Reading

variable {className member header rest inner behind : Text}

/-- A member is cut at its first parenthesis. -/
theorem cut_header (hheader : .ofChar '(' ∉ header) (rest : Text) :
    (header ++ .ofChar '(' :: rest : Text).takeWhile (· != .ofChar '(') = header
      ∧ (header ++ .ofChar '(' :: rest : Text).dropWhile (· != .ofChar '(')
        = .ofChar '(' :: rest := by
  have hrun : ∀ c ∈ header, (c != '(') = true := by
    intro c hc
    refine bne_iff_ne.2 ?_
    rintro rfl
    exact hheader hc
  have hstop : StopsAt (· != '(') ('(' :: rest) := by
    show ('(' != '(') = false
    decide
  exact ⟨takeWhile_append_of_stopsAt hrun hstop, dropWhile_append_of_stopsAt hrun hstop⟩

/-- Without a parenthesis there is no method. -/
theorem parseMember_of_not_mem (hmember : withoutMarkers member = .ok header)
    (hheader : .ofChar '(' ∉ header) : parseMember className member = .ok none := by
  have hrest : header.dropWhile (· != .ofChar '(') = [] := by
    refine List.dropWhile_eq_nil_iff.2 fun c hc => bne_iff_ne.2 ?_
    rintro rfl
    exact hheader hc
  rw [parseMember, hmember]
  simp only [bind, Except.bind, hrest]
  rfl

/-- Nothing is read behind the header of a member that is no method. -/
theorem parseMember_eq_none (hmember : withoutMarkers member = .ok (header ++ .ofChar '(' :: rest))
    (hheader : .ofChar '(' ∉ header) (hnone : memberHead? className header = .ok none) :
    parseMember className member = .ok none := by
  obtain ⟨htake, hdrop⟩ := cut_header hheader rest
  rw [parseMember, hmember]
  simp only [bind, Except.bind, htake, hdrop, hnone]
  rfl

/-- An error in the header is one of the member. -/
theorem parseMember_eq_error {e : Fault}
    (hmember : withoutMarkers member = .ok (header ++ .ofChar '(' :: rest))
    (hheader : .ofChar '(' ∉ header)
    (herror : memberHead? className header = .error e) :
    parseMember className member = .error e := by
  obtain ⟨htake, hdrop⟩ := cut_header hheader rest
  rw [parseMember, hmember]
  simp only [bind, Except.bind, htake, hdrop, herror]

/-- Behind the header of a method its parameters are read, and then what ends it. -/
theorem parseMember_eq_methodOf? {head : MemberHead} (hinner : Balanced inner)
    (hmember :
      withoutMarkers member = .ok (header ++ .ofChar '(' :: (inner ++ .ofChar ')' :: behind)))
    (hheader : .ofChar '(' ∉ header) (hhead : memberHead? className header = .ok (some head)) :
    parseMember className member = (parseParameters inner).map (methodOf? head behind) := by
  obtain ⟨htake, hdrop⟩ := cut_header hheader (inner ++ .ofChar ')' :: behind)
  rw [parseMember, hmember]
  simp only [bind, Except.bind, htake, hdrop, hhead,
    splitGroup_group closerOf?_parenthesis hinner]
  cases parseParameters inner with
  | error e => rfl
  | ok parameters =>
      simp only [Except.map, methodOf?]
      by_cases hends : endsMethod behind = true
      · rw [if_pos hends]
        rw [endsMethod] at hends
        rw [if_pos hends]
        rfl
      · rw [if_neg hends]
        rw [endsMethod] at hends
        rw [if_neg hends]
        rfl

end Reading

/-- A member that is no method adds nothing to the methods of a class. -/
theorem methodsOf_of_none {className member body : Text}
    (h : parseMember className member = .ok none) {before after : List Text}
    (hbody : splitMembers body = before ++ member :: after) :
    methodsOf className body
      = ((before ++ after).mapM (parseMember className)).map fun found => found.filterMap id := by
  rw [methodsOf, hbody, List.mapM_append, List.mapM_append, List.mapM_cons, h]
  cases before.mapM (parseMember className) with
  | error e => rfl
  | ok first =>
      cases after.mapM (parseMember className) with
      | error e => rfl
      | ok second => simp [bind, Except.bind, pure, Except.pure, Except.map]

end Source

end DartDecoders
