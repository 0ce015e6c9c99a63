/-
The braces of a class.

A class declaration is a name, clauses, and then a body in braces or, for a mixin application, a
semicolon. Which of the two comes is told by the first brace or semicolon outside brackets
(`ownBody?`): type arguments of the clauses may hold both inside brackets, a record type its named
fields in braces. The scanner instead takes the next brace behind the name, wherever it stands. So
it reads a class by its own braces exactly when none stands in the clauses, and it misses that there
is no body as soon as any brace follows in the source (`scan_class`).
-/
import DartDecoders.Proofs.ClassText
import DartDecoders.Proofs.Members
import DartDecoders.Proofs.ScanFaults

set_option autoImplicit false

namespace DartDecoders

namespace Source

open Text

/-! ## The own body -/

/-- The pieces before the brace that opens the body of a declaration, and those from the brace on.
There is none when a semicolon outside brackets comes first. -/
def bodyFrom? : Int → List Piece → Option (List Piece × List Piece)
  | _, [] => none
  | depth, p :: rest =>
    if depth = 0 ∧ p = .char ';' then none
    else if depth = 0 ∧ p = .char '\x7b' then some ([], p :: rest)
    else (bodyFrom? (depthAfter depth p) rest).map fun found => (p :: found.1, found.2)

/-- The clauses behind the name of a class, and the text from its body on. -/
def ownBody? (tail : Text) : Option (Text × Text) :=
  (bodyFrom? 0 (pieces tail)).map fun found => (flatten found.1, flatten found.2)

/-- The text from the next brace on. -/
def fromBrace (t : Text) : Text :=
  t.dropWhile (· != '\x7b')

/-- Nothing is lost in finding the body, and it starts with its brace. -/
theorem bodyFrom?_eq_some {depth : Int} {ps clauses own : List Piece}
    (h : bodyFrom? depth ps = some (clauses, own)) :
    ps = clauses ++ own ∧ ∃ inside, own = .char '\x7b' :: inside := by
  induction ps generalizing depth clauses with
  | nil => cases h
  | cons p rest ih =>
      rw [bodyFrom?] at h
      split at h
      · cases h
      · split at h
        · next hbrace =>
            cases h
            exact ⟨rfl, rest, by rw [hbrace.2]⟩
        · obtain ⟨⟨before, found⟩, hfound, hpair⟩ := Option.map_eq_some_iff.1 h
          cases hpair
          obtain ⟨rfl, hown⟩ := ih hfound
          exact ⟨rfl, hown⟩

theorem ownBody?_eq_some {tail clauses own : Text} (h : ownBody? tail = some (clauses, own)) :
    tail = clauses ++ own ∧ ∃ inside, own = .ofChar '\x7b' :: inside := by
  obtain ⟨⟨before, found⟩, hfound, hpair⟩ := Option.map_eq_some_iff.1 h
  cases hpair
  obtain ⟨hpieces, inside, rfl⟩ := bodyFrom?_eq_some hfound
  refine ⟨?_, flatten inside, by simp [flatten, Piece.text]⟩
  have htail := flatten_pieces tail
  rw [hpieces] at htail
  rw [← htail]
  simp [flatten]

theorem fromBrace_append {t : Text} (h : .ofChar '\x7b' ∉ t) (rest : Text) :
    fromBrace (t ++ .ofChar '\x7b' :: rest) = .ofChar '\x7b' :: rest :=
  ClassText.dropWhile_clause h rest

theorem fromBrace_eq_nil_iff {t : Text} : fromBrace t = [] ↔ .ofChar '\x7b' ∉ t := by
  rw [fromBrace, List.dropWhile_eq_nil_iff]
  constructor
  · intro h hmem
    exact absurd (h _ hmem) (by decide)
  · intro h c hc
    exact bne_iff_ne.2 fun heq => h (heq ▸ hc)

/-- The next brace opens the own body exactly when none stands in the clauses. -/
theorem fromBrace_eq_own_iff {tail clauses own : Text} (h : ownBody? tail = some (clauses, own)) :
    fromBrace tail = own ↔ .ofChar '\x7b' ∉ clauses := by
  obtain ⟨rfl, inside, rfl⟩ := ownBody?_eq_some h
  constructor
  -- a brace in the clauses would come first, and more than the body would be left
  · intro heq hmem
    have hne : fromBrace clauses ≠ [] := fun hnil => fromBrace_eq_nil_iff.1 hnil hmem
    have hlonger : fromBrace (clauses ++ .ofChar '\x7b' :: inside)
        = fromBrace clauses ++ .ofChar '\x7b' :: inside := by
      rw [fromBrace, fromBrace, List.dropWhile_append, if_neg (by simpa [fromBrace] using hne)]
    rw [hlonger] at heq
    exact hne (List.append_left_eq_self.1 heq)
  · intro hclauses
    exact fromBrace_append hclauses inside

-- the named fields of a record type stand in braces inside parentheses, so they open no body
example : ownBody? " implements Api<(\x7bint id\x7d)> \x7b\x7d".toText
    = some (" implements Api<(\x7bint id\x7d)> ".toText, "\x7b\x7d".toText) := by
  decide +kernel

/-! ## Clauses -/

/-- The brackets among the pieces close in order, and outside of them there is neither a semicolon
nor a brace. -/
inductive ClausePieces : List Piece → Prop
  | nil : ClausePieces []
  | literal {t : Text} {ps : List Piece} : ClausePieces ps → ClausePieces (.literal t :: ps)
  | char {c : CodePoint} {ps : List Piece} : isBracket c = false → c ≠ ';' → ClausePieces ps →
    ClausePieces (.char c :: ps)
  | group {opener closer : CodePoint} {inner ps : List Piece} : closerOf? opener = some closer →
    opener ≠ '\x7b' → Nested inner → ClausePieces ps →
    ClausePieces (.char opener :: (inner ++ .char closer :: ps))

/-- What may stand between the name of a class and its body. -/
structure Clauses (t : Text) : Prop where
  isSealed : Sealed t
  pieces : ClausePieces (pieces t)

theorem Clauses.of_isInert {t : Text} (h : Inert t) (hsemicolon : .ofChar ';' ∉ t) : Clauses t where
  isSealed := h.balanced.isSealed
  pieces := by
    have hquote : ∀ c ∈ t, isQuote c = false := fun c hc => (h c hc).1.1
    rw [pieces_of_forall hquote]
    clear hquote
    induction t with
    | nil => exact .nil
    | cons c t ih =>
        refine .char (h c List.mem_cons_self).2 ?_ (ih ?_ ?_)
        · rintro rfl
          exact hsemicolon List.mem_cons_self
        · exact fun d hd => h d (List.mem_cons_of_mem c hd)
        · exact fun hmem => hsemicolon (List.mem_cons_of_mem c hmem)

/-- The search for the body goes on behind the pieces as if they were not there. -/
def PassedOver (depth : Int) (ps : List Piece) : Prop :=
  ∀ rest : List Piece, bodyFrom? depth (ps ++ rest)
    = (bodyFrom? depth rest).map fun found => (ps ++ found.1, found.2)

theorem PassedOver.nil (depth : Int) : PassedOver depth [] := by
  intro rest
  simp

/-- One piece that ends nothing. -/
theorem bodyFrom?_cons {depth : Int} {p : Piece}
    (h : depth = 0 → p ≠ .char ';' ∧ p ≠ .char '\x7b') (rest : List Piece) :
    bodyFrom? depth (p :: rest)
      = (bodyFrom? (depthAfter depth p) rest).map fun found => (p :: found.1, found.2) := by
  rw [bodyFrom?, if_neg fun hend => (h hend.1).1 hend.2, if_neg fun hend => (h hend.1).2 hend.2]

theorem PassedOver.cons {depth : Int} {p : Piece} {ps : List Piece}
    (hp : depth = 0 → p ≠ .char ';' ∧ p ≠ .char '\x7b') (hdepth : depthAfter depth p = depth)
    (h : PassedOver depth ps) : PassedOver depth (p :: ps) := by
  intro rest
  rw [List.cons_append, bodyFrom?_cons hp, hdepth, h, Option.map_map]
  rfl

/-- In a group the brackets are one deeper, and behind it they are as deep as before. -/
theorem PassedOver.group {depth : Int} {opener closer : CodePoint} {inner ps : List Piece}
    (hcloser : closerOf? opener = some closer) (hopener : depth = 0 → opener ≠ '\x7b')
    (hdepth : 0 ≤ depth) (hinner : PassedOver (depth + 1) inner) (h : PassedOver depth ps) :
    PassedOver depth (.char opener :: (inner ++ .char closer :: ps)) := by
  have hfirst : depth = 0 → Piece.char opener ≠ .char ';' ∧ Piece.char opener ≠ .char '\x7b' := by
    intro hzero
    refine ⟨?_, fun heq => hopener hzero (Piece.char.inj heq)⟩
    rintro heq
    rw [Piece.char.inj heq] at hcloser
    cases hcloser
  intro rest
  -- inside the group the depth is positive, so neither its text nor its closing bracket ends it
  rw [List.cons_append, List.append_assoc, List.cons_append, bodyFrom?_cons hfirst,
    depthAfter_opener hcloser, hinner, bodyFrom?_cons fun hzero => absurd hzero (by omega),
    depthAfter_closer hcloser, h, Option.map_map, Option.map_map, Option.map_map]
  congr 1
  funext found
  simp

/-- Inside brackets the search passes over everything that nests. -/
theorem passedOver_nested {ps : List Piece} (h : Nested ps) {depth : Int} (hdepth : 0 < depth) :
    PassedOver depth ps := by
  induction h generalizing depth with
  | nil => exact .nil depth
  | literal _ ih => exact .cons (fun hzero => absurd hzero (by omega)) rfl (ih hdepth)
  | char hc _ ih =>
      exact .cons (fun hzero => absurd hzero (by omega)) (depthAfter_of_isBracket hc)
        (ih hdepth)
  | group hcloser _ _ ihinner ih =>
      exact .group hcloser (fun hzero => absurd hzero (by omega)) (by omega) (ihinner (by omega))
        (ih hdepth)

/-- Outside brackets the search passes over clauses. -/
theorem passedOver_clauses {ps : List Piece} (h : ClausePieces ps) : PassedOver 0 ps := by
  induction h with
  | nil => exact .nil 0
  | literal _ ih => exact .cons (fun _ => ⟨nofun, nofun⟩) rfl ih
  | @char c ps hc hsemicolon _ ih =>
      refine .cons (fun _ => ⟨fun heq => hsemicolon (Piece.char.inj heq), ?_⟩)
        (depthAfter_of_isBracket hc) ih
      intro heq
      rw [Piece.char.inj heq] at hc
      cases hc
  | group hcloser hopener hinner _ ih =>
      exact .group hcloser (fun _ => hopener) (by omega) (passedOver_nested hinner (by omega)) ih

theorem bodyFrom?_pieces_clauses {clauses : Text} (h : Clauses clauses) {rest : Text}
    (hrest : StopsAt isQuote rest) :
    bodyFrom? 0 (Source.pieces (clauses ++ rest))
      = (bodyFrom? 0 (Source.pieces rest)).map fun found =>
        (Source.pieces clauses ++ found.1, found.2) := by
  rw [h.isSealed rest hrest, passedOver_clauses h.pieces]

/-- Behind clauses a semicolon ends a class without a body. -/
theorem ownBody?_semicolon {clauses : Text} (h : Clauses clauses) (rest : Text) :
    ownBody? (clauses ++ .ofChar ';' :: rest) = none := by
  have hbody : bodyFrom? 0 (Source.pieces (';' :: rest)) = none := by
    rw [pieces_cons rfl rest]
    rfl
  rw [ownBody?, bodyFrom?_pieces_clauses h (by exact rfl), hbody]
  rfl

/-! ## Reading a class -/

/-- The methods in the braces at the start of a text, which is the end of a source of the given
length. -/
def methodsIn (total : Nat) (className group : Text) : Except Fault (List Method) := do
  let (body, _) ← splitGroup (total - group.length) group
  methodsOf className body

/-- An annotated class stands at the site: behind the arguments and the other annotations comes the
head of a class, and behind its name the given text. -/
structure ClassAt (total : Nat) (site : Text) (head : TypeHead) (tail : Text) : Prop where
  kind : head.kind = classKind
  read : ∃ arguments behind declared,
    splitGroup (total - site.length) site = .ok (arguments, behind)
    ∧ skipMarkers total behind = .ok declared ∧ typeHead? declared = some (head, tail)

/-- A class without any brace behind its name has no body. -/
theorem classOfHead_eq_error {tail : Text} (h : .ofChar '\x7b' ∉ tail) (total : Nat)
    (head : TypeHead) (envelope : Envelope) (sourceFile : Json) :
    classOfHead total head tail envelope sourceFile
      = .error (.reported (.classWithoutBody head.name)) := by
  have hnil := fromBrace_eq_nil_iff.2 h
  rw [fromBrace] at hnil
  rw [classOfHead, hnil]

/-- Otherwise its methods are those in the next braces. -/
theorem classOfHead_eq_map {tail : Text} (h : .ofChar '\x7b' ∈ tail) (total : Nat) (head : TypeHead)
    (envelope : Envelope) (sourceFile : Json) :
    classOfHead total head tail envelope sourceFile
      = (methodsIn total head.name (fromBrace tail)).map fun methods => {
        name := .str head.name
        methods
        envelope := some envelope
        isAbstract := head.modifiers.contains "abstract".toText
        sourceFile } := by
  obtain ⟨c, group, hgroup⟩ := List.exists_cons_of_ne_nil fun hnil =>
    fromBrace_eq_nil_iff.1 hnil h
  rw [hgroup]
  rw [fromBrace] at hgroup
  rw [classOfHead, hgroup, methodsIn]
  dsimp only
  cases splitGroup (total - (c :: group).length) (c :: group) with
  | error f => rfl
  | ok found =>
      simp only [bind, Except.bind]
      cases methodsOf head.name found.1 with
      | error f => rfl
      | ok methods => rfl

theorem methodsIn_failsWith {group : Text} (h : group ≠ []) (total : Nat) (className : Text) :
    FailsWith MemberFault (methodsIn total className group) :=
  .bind (splitGroup_failsWith h _) fun found _ => methodsOf_failsWith className found.1

section ClassAt

variable {total : Nat} {site tail : Text} {head : TypeHead}

theorem ClassAt.declarationAt_eq (h : ClassAt total site head tail) (sourceFile : Json) :
    ∃ envelope, declarationAt total site sourceFile
      = classOfHead total head tail envelope sourceFile := by
  obtain ⟨arguments, behind, declared, hgroup, hskip, hhead⟩ := h.read
  refine ⟨.ofArguments (argumentEntries arguments), ?_⟩
  rw [Source.declarationAt_eq hgroup hskip, readDeclaration, hhead]
  simp only [h.kind, beq_self_eq_true, if_true]

/-- That a class has no body is found when there is no brace at all behind its name. -/
theorem ClassAt.eq_error_iff (h : ClassAt total site head tail) (sourceFile : Json) :
    declarationAt total site sourceFile = .error (.reported (.classWithoutBody head.name))
      ↔ .ofChar '\x7b' ∉ tail := by
  obtain ⟨envelope, hread⟩ := h.declarationAt_eq sourceFile
  rw [hread]
  constructor
  · intro herror hbrace
    have hne : fromBrace tail ≠ [] := fun hnil => fromBrace_eq_nil_iff.1 hnil hbrace
    -- with a brace only the braces and the members can fail, and none of them with this error
    have hfault := (methodsIn_failsWith hne total head.name).map (fun methods => ({
      name := .str head.name
      methods
      envelope := some envelope
      isAbstract := head.modifiers.contains "abstract".toText
      sourceFile } : Declaration)) _ (by rw [← classOfHead_eq_map hbrace, herror])
    cases hfault
  · intro hbrace
    exact classOfHead_eq_error hbrace total head envelope sourceFile

/-- A class that is read has the methods in the next braces behind its name. -/
theorem ClassAt.methods_eq (h : ClassAt total site head tail) {sourceFile : Json} {d : Declaration}
    (hd : declarationAt total site sourceFile = .ok d) :
    d.name = .str head.name ∧ methodsIn total head.name (fromBrace tail) = .ok d.methods := by
  obtain ⟨envelope, hread⟩ := h.declarationAt_eq sourceFile
  rw [hread] at hd
  by_cases hbrace : .ofChar '\x7b' ∈ tail
  · rw [classOfHead_eq_map hbrace] at hd
    cases hmethods : methodsIn total head.name (fromBrace tail) with
    | error f =>
        rw [hmethods] at hd
        cases hd
    | ok methods =>
        rw [hmethods] at hd
        cases hd
        exact ⟨rfl, rfl⟩
  · rw [classOfHead_eq_error hbrace] at hd
    cases hd

theorem mem_of_methodsIn_fromBrace {className : Text} {methods : List Method}
    (h : methodsIn total className (fromBrace tail) = .ok methods) : .ofChar '\x7b' ∈ tail := by
  by_contra hbrace
  rw [fromBrace_eq_nil_iff.2 hbrace, methodsIn, splitGroup, partner, pieces_nil] at h
  cases h

/-- A class is read when the next braces behind its name are. -/
theorem ClassAt.exists_eq_ok_iff (h : ClassAt total site head tail) (sourceFile : Json)
    (methods : List Method) :
    (∃ d, declarationAt total site sourceFile = .ok d ∧ d.name = .str head.name
        ∧ d.methods = methods)
      ↔ methodsIn total head.name (fromBrace tail) = .ok methods := by
  constructor
  · rintro ⟨d, hd, -, rfl⟩
    exact (h.methods_eq hd).2
  · intro hmethods
    obtain ⟨envelope, hread⟩ := h.declarationAt_eq sourceFile
    rw [hread, classOfHead_eq_map (mem_of_methodsIn_fromBrace hmethods), hmethods]
    exact ⟨_, rfl, rfl, rfl⟩

end ClassAt

/-- **Where the methods of a class come from.** An annotated class is read when the next braces
behind its name are, and a scan that returns gives it the methods in these. They are its own braces
exactly when no brace stands in its clauses. That it has no body is only found when no brace at all
comes behind its name, and then the scan ends with that error unless an earlier declaration cannot
be read. -/
theorem scan_class {t : Text} {before after : List Text} {site tail : Text} {head : TypeHead}
    (hsites : markerSites (stripComments t) = before ++ site :: after)
    (hclass : ClassAt (stripComments t).length site head tail) (sourceFile : Json) :
    (∀ methods, (∃ d, declarationAt (stripComments t).length site sourceFile = .ok d
          ∧ d.name = .str head.name ∧ d.methods = methods)
        ↔ methodsIn (stripComments t).length head.name (fromBrace tail) = .ok methods)
      ∧ (∀ found, (scan t sourceFile).result = .ok found →
        ∃ d, found[before.length]? = some d ∧ d.name = .str head.name
          ∧ methodsIn (stripComments t).length head.name (fromBrace tail) = .ok d.methods)
      ∧ (∀ clauses own, ownBody? tail = some (clauses, own) →
        (fromBrace tail = own ↔ .ofChar '\x7b' ∉ clauses))
      ∧ (declarationAt (stripComments t).length site sourceFile
          = .error (.reported (.classWithoutBody head.name)) ↔ .ofChar '\x7b' ∉ tail)
      ∧ ((∀ s ∈ before, ∃ d, declarationAt (stripComments t).length s sourceFile = .ok d) →
        .ofChar '\x7b' ∉ tail →
        (scan t sourceFile).result = .error (.reported (.classWithoutBody head.name))) := by
  refine ⟨hclass.exists_eq_ok_iff sourceFile, ?_, fun clauses own => fromBrace_eq_own_iff,
    hclass.eq_error_iff sourceFile, ?_⟩
  · intro found hfound
    rw [result_scan, declarations, hsites] at hfound
    obtain ⟨d, hget, hd⟩ := exists_getElem?_of_mapM_eq_ok hfound
    obtain ⟨hname, hmethods⟩ := hclass.methods_eq hd
    exact ⟨d, hget, hname, hmethods⟩
  · intro hbefore hbrace
    rw [result_scan, declarations, mapM_eq_error_iff fun _ _ => Iff.rfl, hsites]
    exact ⟨before, site, after, rfl, hbefore, (hclass.eq_error_iff sourceFile).2 hbrace⟩

/-! ## Mixin applications -/

/-- What stands behind the name of a mixin application that ends the source. -/
def mixinTail : Text :=
  " = B with M;".toText

/-- An annotated mixin application. -/
def mixinSource : Text :=
  "@JsonToModel()\nclass A".toText ++ mixinTail

/-- The head of that class. -/
def mixinHead : TypeHead :=
  ⟨[], ["class".toText], "A".toText⟩

theorem classAt_mixin {total : Nat} {tail : Text} (h : StopsAt isWordChar tail) :
    ClassAt total ("()\nclass A".toText ++ tail) mixinHead tail where
  kind := ClassText.kind_class [] "A".toText
  read := by
    have hempty : Balanced [] := .of_forall (by simp) (by simp)
    have hbreak : ∀ c ∈ (['\n'] : Text), isBlank c = true := by decide
    have hgroup := splitGroup_group closerOf?_parenthesis hempty
    have hskip := skipMarkers_gap (t := "class A".toText ++ tail) hbreak rfl rfl total
    have hhead := typeHead?_class false ⟨"A".toText, by decide, by decide⟩ h
    exact ⟨[], _, _, hgroup _ _, hskip, hhead⟩

/-- Where no brace follows, a scan finds that the class has no body. -/
theorem scan_class_mixin :
    markerSites (stripComments mixinSource) = [] ++ ("()\nclass A".toText ++ mixinTail) :: []
      ∧ ClassAt (stripComments mixinSource).length ("()\nclass A".toText ++ mixinTail) mixinHead
        mixinTail
      ∧ (scan mixinSource .null).result = .error (.reported (.classWithoutBody "A".toText)) := by
  have hsites : markerSites (stripComments mixinSource)
      = [] ++ ("()\nclass A".toText ++ mixinTail) :: [] := by decide +kernel
  have hclass : ClassAt (stripComments mixinSource).length ("()\nclass A".toText ++ mixinTail)
      mixinHead mixinTail := classAt_mixin (by show isWordChar ' ' = false; decide)
  obtain ⟨-, -, -, -, hscan⟩ := scan_class hsites hclass .null
  exact ⟨hsites, hclass, hscan (by simp) (by decide)⟩

/-- A mixin application and a class behind it, read as one class. -/
def mixinClass : ClassText where
  arguments := []
  isAbstract := false
  name := ⟨"A".toText, by decide, by decide⟩
  clause := " = B with M;\nclass C ".toText
  members := ["int amount();".toText]

/-- The method of the class behind it. -/
def amountSignature : PlainSignature where
  returnType := .int
  name := { text := "amount".toText, ne_nil := by decide, chars := by decide
            unreserved := by decide +kernel }

/-- What stands behind the name of the mixin application. -/
def laterTail : Text :=
  " = B with M;\nclass C \x7b\n  int amount();\n\x7d\n".toText

/-- A mixin application has no body, but with a class behind it a scan returns it with the methods
of that class. -/
theorem scan_mixin_later :
    mixinClass.text = "@JsonToModel()\nclass A".toText ++ laterTail
      ∧ ownBody? laterTail = none
      ∧ (scan mixinClass.text .null).result = .ok [{
        name := .str "A".toText
        methods := [amountSignature.toMethod true]
        envelope := some .plain
        isAbstract := false }] := by
  have hclauses : Clauses " = B with M".toText := .of_isInert (by decide) (by decide)
  have hbody := ownBody?_semicolon hclauses "\nclass C \x7b\n  int amount();\n\x7d\n".toText
  -- the scanner reads the text as that of one class, with the semicolon among its clauses
  have hcut : mixinClass.WellCut := by
    refine ⟨.of_forall (by simp [mixinClass]) (by simp [mixinClass]), ?_, by simp [mixinClass], ?_,
      ?_⟩
    · exact .of_forall (by decide)
    · show isWordChar ' ' = false
      decide
    · show Inert " = B with M;\nclass C ".toText
      decide
  have hamount : amountSignature.NotConstructor mixinClass.name.text := ⟨by decide, by decide⟩
  have hreads : ∀ s ∈ [amountSignature],
      Reads mixinClass.name.text s.declarationText (s.toMethod true) := by
    intro s hs
    rw [List.mem_singleton.1 hs]
    exact PlainSignature.reads_declaration hamount
  have hmembers : mixinClass.members = [amountSignature].map PlainSignature.declarationText := by
    decide +kernel
  have hscan := (ClassText.declares_text hcut hmembers hreads).declarations_eq .null
  have harguments : argumentEntries mixinClass.arguments = [] := by
    rw [argumentEntries, mixinClass, argumentsIn]
    rfl
  rw [harguments] at hscan
  exact ⟨by decide +kernel, hbody, by rw [result_scan]; exact hscan⟩

end Source

end DartDecoders
