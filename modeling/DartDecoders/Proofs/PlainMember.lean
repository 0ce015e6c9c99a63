/-
Members with a plain signature.

A plain signature stands in a class body in three ways: with a semicolon behind it, with a block,
and with a block and an annotation on the line before. Each is the text of a member whatever
follows it (`isMember_declaration`, `isMember_block`, `isMember_override`), and reading it gives
the method of the signature, abstract exactly when there is no block. A member is told from a
constructor by the name of the class, so the name must differ and the return type must not start
with the class and a dot.
-/
import DartDecoders.Proofs.MemberHeads
import DartDecoders.Proofs.PlainSignature

set_option autoImplicit false

namespace DartDecoders

open Text TypeExpr Source

namespace PlainSignature

/-! ## The header -/

theorem header_isTypeChar (s : PlainSignature) : ∀ c ∈ s.header, isTypeChar c = true := by
  intro c hc
  rw [header, List.mem_append, List.mem_cons, List.mem_append] at hc
  rcases hc with hc | rfl | hc | hc
  · exact s.returnType.isTypeText.isTypeChar c hc
  · rfl
  · exact s.name.toWord.isTypeChar c hc
  · exact PlainTypeParameter.listText_isTypeChar s.typeParameters c hc

theorem header_start (s : PlainSignature) :
    ∃ c rest, s.header = c :: rest ∧ isNameChar c = true ∧ c ≠ '.' := by
  obtain ⟨c, rest, htype, hc, hdot⟩ := s.returnType.isTypeText.start
  exact ⟨c, _, by rw [header, htype]; rfl, hc, hdot⟩

theorem header_plain (s : PlainSignature) :
    ∀ c ∈ s.header, isQuote c = false ∧ isBracket c = false ∧ c ≠ ';' := by
  intro c hc
  have hchar := isSignatureChar_of_isTypeChar (s.header_isTypeChar c hc)
  exact ⟨isQuote_of_isSignatureChar hchar, isBracket_of_isSignatureChar hchar,
    ne_of_class hchar (by decide)⟩

theorem isHeader_header (s : PlainSignature) : IsHeader s.header := by
  refine ⟨s.header_plain, ?_⟩
  obtain ⟨c, rest, hheader, hc, hdot⟩ := s.header_start
  have hcontinues : continuesMember c = false := by
    have hothers : c ≠ ';' ∧ c ≠ ',' ∧ c ≠ '?' ∧ c ≠ ')' ∧ c ≠ ']' :=
      ⟨ne_of_class hc (by decide), ne_of_class hc (by decide), ne_of_class hc (by decide),
        ne_of_class hc (by decide), ne_of_class hc (by decide)⟩
    simp [continuesMember, hdot, hothers]
  exact ⟨c, rest, hheader, isBlank_of_isNameChar hc, hcontinues⟩

/-- The header is written with single spaces. -/
theorem worded_header (s : PlainSignature) : Worded s.header :=
  (s.returnType.spaced.space
    (PlainTypeParameter.spaced_append_listText s.name s.typeParameters)).worded

theorem mem_reservedWords_of_methodModifiers : ∀ w ∈ methodModifiers, w ∈ reservedWords := by
  decide +kernel

theorem mem_reservedWords_of_otherKeywords : ∀ w ∈ otherKeywords, w ∈ reservedWords := by
  decide +kernel

theorem not_mem_header (s : PlainSignature) {c : CodePoint} (hc : isTypeChar c = false) :
    c ∉ s.header := by
  intro hmem
  rw [s.header_isTypeChar c hmem] at hc
  cases hc

/-- No word of the header marks a member that is no method. -/
theorem not_mem_otherKeywords (s : PlainSignature) : ∀ w ∈ words s.header, w ∉ otherKeywords := by
  intro w hw hkeyword
  have hcontains := contains_eq_false_of_worded s.worded_header
    mem_reservedWords_of_otherKeywords w hw
  rw [List.contains_iff_mem.2 hkeyword] at hcontains
  cases hcontains

/-- The header has no modifiers. -/
theorem declaredText_header (s : PlainSignature) :
    declaredText s.header = s.header ∧ isConcrete s.header = false := by
  have hworded := s.worded_header
  constructor
  · rw [declaredText, dropWhile_words hworded mem_reservedWords_of_methodModifiers,
      hworded.join_words]
  · rw [isConcrete, takeWhile_words hworded mem_reservedWords_of_methodModifiers]
    rfl

theorem splitTypeParameters_header (s : PlainSignature) :
    splitTypeParameters s.header
      = .ok (s.returnType.text ++ .ofChar ' ' :: s.name.text,
        PlainTypeParameter.listText s.typeParameters) := by
  have hblank :
      StopsAt isBlank (s.returnType.text ++ .ofChar ' ' :: s.name.text : Text).reverse := by
    rw [List.append_cons]
    exact stopsAt_reverse_append s.name.ne_nil s.name.trimmed.finish _
  have hangle :
      StopsAt (· == '>') (s.returnType.text ++ .ofChar ' ' :: s.name.text : Text).reverse := by
    rw [List.append_cons]
    refine stopsAt_reverse_append s.name.ne_nil (stopsAt_of_forall fun c hc => ?_) _
    exact beq_eq_false_iff_ne.2
      (ne_of_class (s.name.toWord.isNameChar c (List.mem_reverse.1 hc)) (by decide))
  have hsplit := PlainTypeParameter.splitTypeParameters_listText hblank hangle s.typeParameters
  rw [header]
  simpa using hsplit

/-! ## Constructors -/

/-- A member that no constructor of the class is written like: its name is not the class, and its
type does not start with the class and a dot. -/
structure NotConstructor (s : PlainSignature) (className : Text) : Prop where
  name_ne : s.name.text ≠ className
  qualifier : (className ++ [.ofChar '.'] : Text).isPrefixOf s.returnType.text = false

theorem NotConstructor.not_qualified {s : PlainSignature} {className : Text}
    (h : s.NotConstructor className) : ¬ className ++ [.ofChar '.'] <+: s.returnType.text := by
  intro hprefix
  have hfalse := h.qualifier
  rw [List.isPrefixOf_iff_prefix.2 hprefix] at hfalse
  cases hfalse

/-- The class and a dot do not stand at the start of the type and the name either. -/
theorem NotConstructor.named {s : PlainSignature} {className : Text}
    (h : s.NotConstructor className) (hclass : ∀ c ∈ className, isWordChar c = true) :
    ¬ className ++ [.ofChar '.'] <+: s.returnType.text ++ .ofChar ' ' :: s.name.text :=
  fun hprefix => h.not_qualified (qualifier_prefix_of_space hclass hprefix)

/-! ## Reading a member -/

/-- The head of a member is read off its header. -/
theorem memberHead?_header {s : PlainSignature} {className : Text}
    (h : s.NotConstructor className) (hclass : ∀ c ∈ className, isWordChar c = true) :
    memberHead? className s.header = .ok (some {
      name := s.name.text
      returnType := s.returnType.text
      typeParameters := PlainTypeParameter.listText s.typeParameters
      concrete := false }) := by
  obtain ⟨hdeclared, hconcrete⟩ := s.declaredText_header
  have hsplit := s.splitTypeParameters_header
  rw [← hdeclared] at hsplit
  have hlast : splitLastWord? (s.returnType.text ++ .ofChar ' ' :: s.name.text)
      = some (s.returnType.text ++ [.ofChar ' '], s.name.text) :=
    splitLastWord?_append s.name.ne_nil s.name.chars
  have htype : trim (s.returnType.text ++ [.ofChar ' ']) = s.returnType.text :=
    trim_append_space s.returnType.trimmed
  rw [memberHead?_eq (s.not_mem_header (by decide)) s.not_mem_otherKeywords hsplit, hconcrete,
    declaredHead?_typed hlast htype s.returnType.isTypeText.ne_nil (List.prefix_append _ _)
      (h.named hclass), if_neg h.name_ne]

/-- A signature and what stands behind it are read as a method, when that is a semicolon or a body.
-/
theorem parseMember_behind {s : PlainSignature} {className : Text}
    (h : s.NotConstructor className) (hclass : ∀ c ∈ className, isWordChar c = true)
    {member behind : Text}
    (hmember :
      withoutMarkers member = .ok (s.header ++ .ofChar '(' :: (s.inner ++ .ofChar ')' :: behind)))
    (hbehind : trim behind = [.ofChar ';'] ∨ startsBody (trim behind) = true) :
    parseMember className member = .ok (some (s.toMethod (trim behind == [.ofChar ';']))) := by
  have hends : endsMethod behind = true := by
    rw [endsMethod]
    rcases hbehind with hsemicolon | hbody
    · rw [hsemicolon]
      rfl
    · rw [hbody, Bool.or_true]
  rw [parseMember_eq_methodOf? s.balanced_inner hmember
    (s.not_mem_header (by decide)) (memberHead?_header h hclass),
    s.parseParameters_inner, Except.map, methodOf?, if_pos hends]
  simp [toMethod]

/-! ## Declarations and blocks -/

/-- The signature as it is written. -/
def text (s : PlainSignature) : Text :=
  s.header ++ .ofChar '(' :: (s.inner ++ [.ofChar ')'])

/-- The signature with a semicolon. -/
def declarationText (s : PlainSignature) : Text :=
  s.text ++ [.ofChar ';']

/-- The signature with a block. -/
def blockText (s : PlainSignature) (block : Text) : Text :=
  s.text ++ .ofChar ' ' :: .ofChar '\x7b' :: (block ++ [.ofChar '\x7d'])

/-- The line of an annotation that stands before a method. -/
def overrideLine : Text :=
  "@override\n  ".toText

/-- The signature with a block and an annotation on the line before. -/
def overrideText (s : PlainSignature) (block : Text) : Text :=
  overrideLine ++ s.blockText block

theorem text_isInert (s : PlainSignature) : ∀ c ∈ s.text, IsInert c := by
  refine List.forall_mem_append.2 ⟨fun c hc => ?_, ?_⟩
  · exact isInert_of_isSignatureChar (isSignatureChar_of_isTypeChar (s.header_isTypeChar c hc))
  · exact forall_mem_between (by decide) s.inner_isInert (by decide)

theorem declarationText_eq (s : PlainSignature) :
    s.declarationText = s.header ++ .ofChar '(' :: (s.inner ++ [.ofChar ')', .ofChar ';']) := by
  simp [declarationText, text]

theorem blockText_eq (s : PlainSignature) (block : Text) :
    s.blockText block
      = s.header ++ .ofChar '(' :: (s.inner
        ++ .ofChar ')' :: .ofChar ' ' :: .ofChar '\x7b' :: (block ++ [.ofChar '\x7d'])) := by
  simp [blockText, text]

theorem isMember_declaration (s : PlainSignature) : IsMember s.declarationText := by
  rw [declarationText_eq]
  exact .of_declaration s.isHeader_header s.balanced_inner

theorem isMember_block (s : PlainSignature) {block : Text} (hblock : Balanced block) :
    IsMember (s.blockText block) := by
  rw [blockText_eq]
  exact .of_block s.isHeader_header s.balanced_inner hblock

theorem isHeader_override (s : PlainSignature) : IsHeader (overrideLine ++ s.header) := by
  refine ⟨?_, '@', _, rfl, by decide, by decide⟩
  intro c hc
  rcases List.mem_append.1 hc with hc | hc
  · have hline : ∀ c ∈ overrideLine, isQuote c = false ∧ isBracket c = false ∧ c ≠ ';' := by
      decide
    exact hline c hc
  · exact s.header_plain c hc

theorem isMember_override (s : PlainSignature) {block : Text} (hblock : Balanced block) :
    IsMember (s.overrideText block) := by
  rw [overrideText, blockText_eq, ← List.append_assoc]
  exact .of_block s.isHeader_override s.balanced_inner hblock

/-- Nothing that a member may have in front of it starts a signature. -/
theorem stopsAt_header (s : PlainSignature) {d : CodePoint} (hd : isNameChar d = false)
    (rest : Text) : StopsAt (· == d) (s.header ++ rest) := by
  obtain ⟨c, others, hheader, hc, -⟩ := s.header_start
  rw [hheader]
  exact beq_eq_false_iff_ne.2 (ne_of_class hc hd)

theorem parseMember_declaration {s : PlainSignature} {className : Text}
    (h : s.NotConstructor className) (hclass : ∀ c ∈ className, isWordChar c = true) :
    parseMember className s.declarationText = .ok (some (s.toMethod true)) := by
  have hmember := withoutMarkers_eq_self s.isMember_declaration.trimmed (by
    rw [declarationText_eq]
    exact s.stopsAt_header (by decide) _)
  have hbehind : trim [.ofChar ';'] = [.ofChar ';'] := by decide
  rw [declarationText_eq] at hmember ⊢
  have hread := parseMember_behind h hclass hmember (.inl hbehind)
  rw [hread, hbehind]
  rfl

/-- A block starts a body. -/
theorem startsBody_block (block : Text) :
    trim (.ofChar ' ' :: .ofChar '\x7b' :: (block ++ [.ofChar '\x7d']))
      = .ofChar '\x7b' :: (block ++ [.ofChar '\x7d'])
      ∧ startsBody ('\x7b' :: (block ++ [.ofChar '\x7d'])) = true := by
  have htrimmed : Trimmed ('\x7b' :: (block ++ [.ofChar '\x7d'])) :=
    Trimmed.around (t := ['\x7b']) (u := ['\x7d']) ⟨rfl, rfl⟩ ⟨rfl, rfl⟩ (by simp) (by simp) block
  have hspace : ∀ c ∈ ([' '] : Text), isBlank c = true := by decide
  refine ⟨trim_gap_append hspace htrimmed, ?_⟩
  have hempty : dropStart? "".toText ('\x7b' :: (block ++ [.ofChar '\x7d']))
      = some (.ofChar '\x7b' :: (block ++ [.ofChar '\x7d'])) := rfl
  rw [startsBody, List.any_cons, hempty]
  simp only
  rw [trimStart_eq_self htrimmed.start]
  rfl

theorem parseMember_block {s : PlainSignature} {className : Text}
    (h : s.NotConstructor className) (hclass : ∀ c ∈ className, isWordChar c = true)
    {member block : Text} (hmember : withoutMarkers member = .ok (s.blockText block)) :
    parseMember className member = .ok (some (s.toMethod false)) := by
  obtain ⟨htrim, hbody⟩ := startsBody_block block
  have hends : startsBody (trim (' ' :: '\x7b' :: (block ++ [.ofChar '\x7d']))) = true := by
    rw [htrim]
    exact hbody
  rw [blockText_eq] at hmember
  have hread := parseMember_behind h hclass hmember (.inr hends)
  rw [hread, htrim]
  rfl

theorem withoutMarkers_block (s : PlainSignature) {block : Text} (hblock : Balanced block) :
    withoutMarkers (s.blockText block) = .ok (s.blockText block) := by
  refine withoutMarkers_eq_self (s.isMember_block hblock).trimmed ?_
  rw [blockText_eq]
  exact s.stopsAt_header (by decide) _

theorem withoutMarkers_override (s : PlainSignature) {block : Text} (hblock : Balanced block) :
    withoutMarkers (s.overrideText block) = .ok (s.blockText block) := by
  have hmember := s.isMember_block hblock
  have hname : ∀ c ∈ "override".toText, isMarkerChar c = true := by decide
  have hgap : ∀ c ∈ "\n  ".toText, isBlank c = true := by decide
  have hgapStop : StopsAt isMarkerChar "\n  ".toText := stopsAt_of_forall (by decide)
  refine withoutMarkers_marker (by decide) hname hgap hgapStop (by decide) hmember.ne_nil
    hmember.trimmed ?_ ?_
  · rw [blockText_eq]
    exact s.stopsAt_header (by decide) _
  · rw [blockText_eq]
    exact s.stopsAt_header (by decide) _

end PlainSignature

end DartDecoders
