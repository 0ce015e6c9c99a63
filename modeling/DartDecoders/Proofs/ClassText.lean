/-
Source texts made of annotated classes.

A text declares something when the generator's annotation stands in it once and what follows the
annotation is read the same way whatever stands before and behind the text (`Declares`). Texts that
declare something can be put one behind the other, and scanning the whole gives the declarations in
order (`declarations_flatMap`). An annotated class declares its methods when its members are read
as these (`declares_text`): the stages of the scanner, from the arguments of the annotation over
the head of the class to the cut of its body, each find what was written.
-/
import DartDecoders.Proofs.PlainMember
import DartDecoders.Source.Scan

set_option autoImplicit false

namespace DartDecoders

namespace Source

open Text

/-! ## Sources -/

/-- The text has no comment and holds the generator's annotation once, and the declaration of that
is the given one wherever the text stands. -/
structure Declares (t : Text) (declared : Json → Declaration) : Prop where
  uncommented : Uncommented t
  site : ∀ rest : Text, ∃ site : Text, markerSites (t ++ rest) = site :: markerSites rest
    ∧ ∀ (total : Nat) (sourceFile : Json),
      declarationAt total site sourceFile = .ok (declared sourceFile)

section Sources

variable {α : Type} {items : List α} {text : α → Text} {declared : α → Json → Declaration}

theorem uncommented_flatMap (h : ∀ x ∈ items, Declares (text x) (declared x)) :
    Uncommented (items.flatMap text) := by
  induction items with
  | nil => exact .nil
  | cons x rest ih =>
      rw [List.flatMap_cons]
      exact (h x List.mem_cons_self).uncommented.append
        (ih fun y hy => h y (List.mem_cons_of_mem x hy))

/-- The sites in texts one behind the other are those of the texts. The site of the first one runs
to the end of all of them, which is why a declaration is read whatever stands behind it. -/
theorem mapM_markerSites_flatMap (h : ∀ x ∈ items, Declares (text x) (declared x)) (total : Nat)
    (sourceFile : Json) :
    (markerSites (items.flatMap text)).mapM (fun site => declarationAt total site sourceFile)
      = .ok (items.map fun x => declared x sourceFile) := by
  induction items with
  | nil => rfl
  | cons x rest ih =>
      obtain ⟨site, hsite, hread⟩ := (h x List.mem_cons_self).site (rest.flatMap text)
      rw [List.flatMap_cons, hsite, List.mapM_cons, hread,
        ih fun y hy => h y (List.mem_cons_of_mem x hy)]
      rfl

/-- The declarations of texts one behind the other are the declarations of the texts. -/
theorem declarations_flatMap (h : ∀ x ∈ items, Declares (text x) (declared x))
    (sourceFile : Json) :
    declarations (items.flatMap text) sourceFile
      = .ok (items.map fun x => declared x sourceFile) := by
  rw [declarations, stripComments_eq_self (uncommented_flatMap h)]
  exact mapM_markerSites_flatMap h _ sourceFile

end Sources

/-- A text that declares something is a source with one declaration. -/
theorem Declares.declarations_eq {t : Text} {declared : Json → Declaration}
    (h : Declares t declared) (sourceFile : Json) :
    declarations t sourceFile = .ok [declared sourceFile] := by
  have hall : ∀ x ∈ [t], Declares (id x) declared := by
    intro x hx
    rw [List.mem_singleton.1 hx]
    exact h
  have hwhole := declarations_flatMap hall sourceFile
  rwa [List.flatMap_singleton] at hwhole

/-! ## Members -/

/-- The text of a member of the class is read as the method, in any body. -/
structure Reads (className member : Text) (m : Method) : Prop where
  isMember : IsMember member
  selfContained : SelfContained member
  parse : parseMember className member = .ok (some m)

/-- The white space before a member of a class. -/
def indent : Text :=
  [' ', ' ']

/-- The white space behind a member of a class. -/
def lineBreak : Text :=
  ['\n']

theorem selfContained_layout {members : List Text} (h : ∀ m ∈ members, SelfContained m) :
    SelfContained (layout indent lineBreak members) := by
  induction members with
  | nil => exact .nil
  | cons m rest ih =>
      have hrest := ih fun n hn => h n (List.mem_cons_of_mem m hn)
      have hbreak : SelfContained (lineBreak ++ layout indent lineBreak rest) :=
        .behind (by decide) hrest
      rw [layout_cons]
      exact .behind (by decide) ((h m List.mem_cons_self).append hbreak (by exact rfl))

/-- The methods of a body are those that its members are read as. -/
theorem methodsOf_layout {α : Type} {items : List α} {className : Text} {text : α → Text}
    {method : α → Method} (h : ∀ x ∈ items, Reads className (text x) (method x)) :
    methodsOf className ('\n' :: layout indent lineBreak (items.map text))
      = .ok (items.map method) := by
  have hmembers : ∀ m ∈ items.map text, IsMember m := by
    intro m hm
    obtain ⟨x, hx, rfl⟩ := List.mem_map.1 hm
    exact (h x hx).isMember
  have hbreak : ∀ c ∈ lineBreak, isBlank c = true := by decide
  have hcut := splitMembers_layout (show ∀ c ∈ indent, isBlank c = true by decide) hbreak hmembers
    hbreak
  have hread : (items.map text).mapM (parseMember className)
      = .ok (items.map fun x => some (method x)) := mapM_map_eq_ok fun x hx => (h x hx).parse
  rw [methodsOf, show .ofChar '\n' :: layout indent lineBreak (items.map text)
    = lineBreak ++ layout indent lineBreak (items.map text) from rfl, hcut, hread]
  simp [Except.map]

/-! ## The head of a class -/

/-- The modifier of an abstract class. -/
def abstractText (isAbstract : Bool) : Text :=
  if isAbstract then "abstract ".toText else []

/-- The modifiers of a class as words. -/
def abstractWords (isAbstract : Bool) : List Text :=
  if isAbstract then ["abstract".toText] else []

theorem readModifiers_class (rest : Text) :
    readModifiers ("class ".toText ++ rest) = ([], "class ".toText ++ rest) := by
  have hword : ∀ c ∈ "class".toText, isWordChar c = true := by decide
  have hstop : StopsAt isWordChar (' ' :: rest) := by
    show isWordChar ' ' = false
    decide
  have htake : ("class ".toText ++ rest).takeWhile isWordChar = "class".toText :=
    takeWhile_append_of_stopsAt hword hstop
  have hnone : classModifiers.contains "class".toText = false := by decide +kernel
  rw [readModifiers]
  split
  · rw [htake]
    simp only [hnone, Bool.false_eq_true, if_false]
  · rfl

theorem readModifiers_abstract (isAbstract : Bool) (rest : Text) :
    readModifiers (abstractText isAbstract ++ ("class ".toText ++ rest))
      = (abstractWords isAbstract, "class ".toText ++ rest) := by
  cases isAbstract with
  | false => exact readModifiers_class rest
  | true =>
      have hword : ∀ c ∈ "abstract".toText, isWordChar c = true := by decide
      have hstop : StopsAt isWordChar (' ' :: ("class ".toText ++ rest)) := by
        show isWordChar ' ' = false
        decide
      have htake : ("abstract ".toText ++ ("class ".toText ++ rest)).takeWhile isWordChar
          = "abstract".toText := takeWhile_append_of_stopsAt hword hstop
      have hdrop : ("abstract ".toText ++ ("class ".toText ++ rest)).dropWhile isWordChar
          = .ofChar ' ' :: ("class ".toText ++ rest) := dropWhile_append_of_stopsAt hword hstop
      have hafter : afterBlank? (' ' :: ("class ".toText ++ rest))
          = some ("class ".toText ++ rest) := rfl
      have hmember : classModifiers.contains "abstract".toText = true := by decide +kernel
      rw [abstractText, if_pos rfl, readModifiers]
      split
      · next after heq =>
          rw [hdrop, hafter] at heq
          cases heq
          rw [htake]
          simp only [hmember, if_true, readModifiers_class]
          rfl
      · next heq =>
          rw [hdrop, hafter] at heq
          cases heq

/-- The head of a class is read up to its name. -/
theorem typeHead?_class (isAbstract : Bool) (name : Word) {rest : Text}
    (hrest : StopsAt isWordChar rest) :
    typeHead? (abstractText isAbstract ++ ("class ".toText ++ (name.text ++ rest)))
      = some (⟨abstractWords isAbstract, ["class".toText], name.text⟩, rest) := by
  have hblank : StopsAt isBlank (name.text ++ rest) :=
    stopsAt_append_of_ne_nil name.ne_nil name.trimmed.start rest
  have hafter : afterBlank? (' ' :: (name.text ++ rest)) = some (name.text ++ rest) := by
    show some (trimStart (name.text ++ rest)) = _
    rw [trimStart_eq_self hblank]
  have hname : nextWord? (' ' :: (name.text ++ rest)) = some (name.text, rest) := by
    obtain ⟨c, others, htext⟩ := List.exists_cons_of_ne_nil name.ne_nil
    rw [nextWord?, hafter]
    simp only [bind, Option.bind, takeWhile_append_of_stopsAt name.chars hrest,
      dropWhile_append_of_stopsAt name.chars hrest]
    rw [htext]
  have hkeyword : afterWords? ["class".toText] ("class ".toText ++ (name.text ++ rest))
      = some (.ofChar ' ' :: (name.text ++ rest)) := rfl
  -- the keywords are tried in order, and `class` is the first of them
  have hfirst : typeKeywords = ["class".toText] :: typeKeywords.tail := rfl
  rw [typeHead?, readModifiers_abstract]
  simp only
  rw [hfirst, List.findSome?_cons, hkeyword]
  simp only [bind, Option.bind, hname]
  rfl

/-! ## Classes -/

/-- An annotated class: the arguments of the annotation, the head with what stands between the name
and the body, and the members. -/
structure ClassText where
  arguments : Text
  isAbstract : Bool
  name : Word
  clause : Text
  members : List Text

namespace ClassText

/-- What stands in the braces of the class. -/
def body (c : ClassText) : Text :=
  '\n' :: layout indent lineBreak c.members

/-- The class without its annotation. -/
def declared (c : ClassText) : Text :=
  abstractText c.isAbstract ++ ("class ".toText ++ (c.name.text ++ (c.clause
    ++ .ofChar '\x7b' :: (c.body ++ [.ofChar '\x7d', .ofChar '\n']))))

/-- The class with its annotation. -/
def text (c : ClassText) : Text :=
  markerName ++ .ofChar '(' :: (c.arguments ++ .ofChar ')' :: .ofChar '\n' :: c.declared)

/-- The parts of a class around its members are cut where they end. -/
structure WellCut (c : ClassText) : Prop where
  arguments : Balanced c.arguments
  argumentsUncommented : Uncommented (c.arguments ++ [.ofChar ')'])
  argumentsUnmarked : ∀ d ∈ c.arguments, d ≠ '@'
  clauseStops : StopsAt isWordChar c.clause
  clause : Inert c.clause

/-- The head of a class has the kind of one. -/
theorem kind_class (modifiers : List Text) (name : Text) :
    TypeHead.kind ⟨modifiers, ["class".toText], name⟩ = classKind := by
  show (if ["class".toText].contains classKind then classKind else _) = classKind
  rw [if_pos (by decide +kernel)]

/-- The body starts at the first brace when there is none in the clause. -/
theorem dropWhile_clause {clause : Text} (h : .ofChar '\x7b' ∉ clause) (rest : Text) :
    (clause ++ .ofChar '\x7b' :: rest).dropWhile (· != .ofChar '\x7b')
      = .ofChar '\x7b' :: rest := by
  refine dropWhile_append_of_stopsAt (fun d hd => bne_iff_ne.2 ?_) ?_
  · rintro rfl
    exact h hd
  · show ('\x7b' != '\x7b') = false
    decide

theorem selfContained_body {c : ClassText} (hmembers : ∀ m ∈ c.members, SelfContained m) :
    SelfContained c.body :=
  .behind (t := ['\n']) (by decide) (selfContained_layout hmembers)

/-- A class whose members are closed in themselves is, too. -/
theorem selfContained_declared {c : ClassText} (h : c.WellCut)
    (hmembers : ∀ m ∈ c.members, SelfContained m) : SelfContained c.declared := by
  have hbody := selfContained_body hmembers
  have hmodifier : Inert (abstractText c.isAbstract) := by
    cases c.isAbstract <;> decide
  have hclosing : Inert ['\n'] := by decide
  have hgroup :
      SelfContained ((.ofChar '\x7b' :: (c.body ++ [.ofChar '\x7d'])) ++ [.ofChar '\n']) :=
    (SelfContained.group rfl hbody).append hclosing.selfContained (by exact rfl)
  have hname := SelfContained.behind c.name.inert (.behind h.clause hgroup)
  have hwhole := SelfContained.behind hmodifier (.behind (t := "class ".toText) (by decide) hname)
  simpa [declared] using hwhole

theorem selfContained_members {α : Type} {c : ClassText} {items : List α}
    {memberText : α → Text} {method : α → Method} (hitems : c.members = items.map memberText)
    (hmembers : ∀ x ∈ items, Reads c.name.text (memberText x) (method x)) :
    ∀ m ∈ c.members, SelfContained m := by
  intro m hm
  rw [hitems] at hm
  obtain ⟨x, hx, rfl⟩ := List.mem_map.1 hm
  exact (hmembers x hx).selfContained

/-- A class is read with the methods that its members are read as. -/
theorem readDeclaration_declared {α : Type} {c : ClassText} (h : c.WellCut) {items : List α}
    {memberText : α → Text} {method : α → Method} (hitems : c.members = items.map memberText)
    (hmembers : ∀ x ∈ items, Reads c.name.text (memberText x) (method x)) (total : Nat)
    (envelope : Envelope) (sourceFile : Json) (rest : Text) :
    readDeclaration total (c.declared ++ rest) envelope sourceFile
      = .ok {
        name := .str c.name.text
        methods := items.map method
        envelope := some envelope
        isAbstract := c.isAbstract
        sourceFile } := by
  have htext : c.declared ++ rest = abstractText c.isAbstract ++ ("class ".toText ++ (c.name.text
      ++ (c.clause ++ .ofChar '\x7b' :: (c.body ++ .ofChar '\x7d' :: .ofChar '\n' :: rest)))) := by
    simp [declared]
  have hstop : StopsAt isWordChar
      (c.clause ++ .ofChar '\x7b' :: (c.body ++ .ofChar '\x7d' :: .ofChar '\n' :: rest)) :=
    h.clauseStops.append (by show isWordChar (.ofChar '\x7b') = false; decide)
  have hbalanced : Balanced c.body :=
    (selfContained_body (selfContained_members hitems hmembers)).balanced
  have hmethods : methodsOf c.name.text c.body = .ok (items.map method) := by
    rw [body, hitems]
    exact methodsOf_layout hmembers
  have habstract : (abstractWords c.isAbstract).contains "abstract".toText = c.isAbstract := by
    cases c.isAbstract <;> decide +kernel
  have hclause : .ofChar '\x7b' ∉ c.clause := by
    intro hmem
    cases (h.clause _ hmem).2
  rw [readDeclaration, htext, typeHead?_class c.isAbstract c.name hstop]
  simp only [kind_class, beq_self_eq_true, if_true, classOfHead, dropWhile_clause hclause]
  rw [splitGroup_group closerOf?_brace hbalanced]
  simp only [bind, Except.bind, hmethods, habstract]
  rfl

/-- An annotated class declares the methods that its members are read as, in the envelope of the
annotation's arguments. -/
theorem declares_text {α : Type} {c : ClassText} (h : c.WellCut) {items : List α}
    {memberText : α → Text} {method : α → Method} (hitems : c.members = items.map memberText)
    (hmembers : ∀ x ∈ items, Reads c.name.text (memberText x) (method x)) :
    Declares c.text fun sourceFile => {
      name := .str c.name.text
      methods := items.map method
      envelope := some (.ofArguments (argumentEntries c.arguments))
      isAbstract := c.isAbstract
      sourceFile } where
  uncommented := by
    have hdeclared := selfContained_declared h (selfContained_members hitems hmembers)
    have hopening : Uncommented (markerName ++ [.ofChar '(']) := .of_forall (by decide)
    have hwhole := hopening.append (h.argumentsUncommented.append
      (.char (c := '\n') rfl (by decide) hdeclared.uncommented))
    simpa [text] using hwhole
  site := by
    intro rest
    refine ⟨.ofChar '(' :: (c.arguments ++ .ofChar ')' :: .ofChar '\n' :: (c.declared ++ rest)),
      ?_, ?_⟩
    · have hdeclared := selfContained_declared h (selfContained_members hitems hmembers)
      have hclosing : Unmarked [')', '\n'] := .of_forall (by decide)
      have harguments : Unmarked c.arguments := .of_forall h.argumentsUnmarked
      have hinside := harguments.append (hclosing.append hdeclared.unmarked) rest
      have htext : c.text ++ rest
          = markerName ++ .ofChar '(' :: (c.arguments
            ++ .ofChar ')' :: .ofChar '\n' :: (c.declared ++ rest)) := by
        simp [text]
      rw [htext, markerSites_marker, ← hinside]
      simp
    · intro total sourceFile
      -- behind the annotation the declaration itself starts, with the modifier or with `class`
      have hstart : StopsAt isBlank (c.declared ++ rest)
          ∧ StopsAt (· == '@') (c.declared ++ rest) := by
        rw [declared]
        cases c.isAbstract <;> exact ⟨rfl, rfl⟩
      have hbreak : ∀ d ∈ (['\n'] : Text), isBlank d = true := by decide
      have hskip : skipMarkers total ('\n' :: (c.declared ++ rest)) = .ok (c.declared ++ rest) :=
        skipMarkers_gap hbreak hstart.1 hstart.2 total
      rw [declarationAt_eq (splitGroup_group closerOf?_parenthesis h.arguments _ _) hskip]
      exact readDeclaration_declared h hitems hmembers _ _ _ _

end ClassText

end Source

/-! ## Signatures -/

namespace PlainSignature

open Source

theorem balanced_text (s : PlainSignature) : Balanced s.text :=
  Balanced.prepend (fun c hc => (s.header_plain c hc).1)
    (.of_forall (fun c hc => (s.header_plain c hc).1) fun c hc => (s.header_plain c hc).2.1)
    (.group rfl s.balanced_inner)

/-- A signature with a semicolon is read as an abstract method. -/
theorem reads_declaration {s : PlainSignature} {className : Word}
    (h : s.NotConstructor className.text) :
    Reads className.text s.declarationText (s.toMethod true) where
  isMember := s.isMember_declaration
  selfContained := by
    have hsemicolon : Inert [';'] := by decide
    exact hsemicolon.selfContained.prepend s.text_isInert s.balanced_text
  parse := parseMember_declaration h className.chars

theorem selfContained_block (s : PlainSignature) {block : Text} (hblock : SelfContained block) :
    SelfContained (s.blockText block) := by
  have hgroup : SelfContained ('\x7b' :: (block ++ [.ofChar '\x7d'])) := .group rfl hblock
  have hspaced := SelfContained.behind (t := [' ']) (by decide) hgroup
  exact hspaced.prepend s.text_isInert s.balanced_text

/-- A signature with a block is read as a method with a body. -/
theorem reads_block {s : PlainSignature} {className : Word} (h : s.NotConstructor className.text)
    {block : Text} (hblock : SelfContained block) :
    Reads className.text (s.blockText block) (s.toMethod false) where
  isMember := s.isMember_block hblock.balanced
  selfContained := s.selfContained_block hblock
  parse := parseMember_block h className.chars (s.withoutMarkers_block hblock.balanced)

/-- So is one that an annotation stands before. -/
theorem reads_override {s : PlainSignature} {className : Word}
    (h : s.NotConstructor className.text) {block : Text} (hblock : SelfContained block) :
    Reads className.text (s.overrideText block) (s.toMethod false) where
  isMember := s.isMember_override hblock.balanced
  selfContained := by
    have hmember := s.selfContained_block hblock
    have hline : ∀ c ∈ overrideLine, isQuote c = false := by decide
    refine ⟨Balanced.prepend hline (.of_forall hline (by decide)) hmember.balanced,
      .prepend (by decide) hmember.uncommented, ?_⟩
    have hname : Unmarked "override\n  ".toText := .of_forall (by decide)
    have hmarker : Unmarked overrideLine := Unmarked.marker (c := 'o') (by decide) hname
    exact hmarker.append hmember.unmarked
  parse := parseMember_block h className.chars (s.withoutMarkers_override hblock.balanced)

end PlainSignature

end DartDecoders
