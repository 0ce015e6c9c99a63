/-
Plain signatures.

A plain signature has a type and a name, perhaps type parameters, and plain parameters in the three
groups. Its text is what `Method.render` writes (`render_toMethod`): a header, and a parameter list
in parentheses that is cut at its commas into the parameters and the groups in their brackets.
Reading that list gives the parameters back (`parseParameters_inner`).
-/
import DartDecoders.Proofs.ParameterLists

set_option autoImplicit false

namespace DartDecoders

open Text TypeExpr Source

/-! ## Type parameters -/

/-- A type parameter: a name from the grammar and perhaps a bound. -/
structure PlainTypeParameter where
  name : Text
  isFree : FreeName name
  bound : Option PlainType := none

namespace PlainTypeParameter

/-- The type parameter as it is written. -/
def text (x : PlainTypeParameter) : Text :=
  x.name ++ x.bound.elim [] fun bound => " extends ".toText ++ bound.text

/-- A list of type parameters in angle brackets; nothing when there are none. -/
def listText (xs : List PlainTypeParameter) : Text :=
  if xs.isEmpty then [] else '<' :: (join [',', ' '] (xs.map text) ++ [.ofChar '>'])

theorem text_isTypeChar (x : PlainTypeParameter) : ∀ c ∈ x.text, isTypeChar c = true := by
  intro c hc
  rcases List.mem_append.1 hc with hc | hc
  · exact isTypeChar_of_isNameChar (x.isFree.chars c hc)
  · cases hbound : x.bound with
    | none =>
        rw [hbound] at hc
        cases hc
    | some bound =>
        rw [hbound] at hc
        rcases List.mem_append.1 hc with hc | hc
        · have hextends : ∀ c ∈ " extends ".toText, isTypeChar c = true := by decide
          exact hextends c hc
        · exact bound.isTypeText.isTypeChar c hc

theorem text_angleNested (x : PlainTypeParameter) : AngleNested x.text := by
  rw [text]
  cases x.bound with
  | none => exact x.isFree.typeName.angleNested.append .nil
  | some bound =>
      exact x.isFree.typeName.angleNested.append
        ((AngleNested.of_forall (by decide)).append bound.isTypeText.angleNested)

theorem spaced_text (x : PlainTypeParameter) : Spaced x.text := by
  rw [text]
  cases x.bound with
  | none =>
      rw [Option.elim_none, List.append_nil]
      exact x.isFree.spaced
  | some bound =>
      have hextends : Spaced "extends".toText :=
        Spaced.of_name (by decide) (by decide) (by decide +kernel)
      exact x.isFree.spaced.space (hextends.space bound.spaced)

theorem listText_isTypeChar (xs : List PlainTypeParameter) :
    ∀ c ∈ listText xs, isTypeChar c = true := by
  rw [listText]
  split
  · simp
  · refine forall_mem_between rfl (isTypeChar_join fun t ht => ?_) rfl
    obtain ⟨x, -, rfl⟩ := List.mem_map.1 ht
    exact x.text_isTypeChar

theorem angleNested_join (xs : List PlainTypeParameter) :
    AngleNested (join [',', ' '] (xs.map text)) := by
  refine AngleNested.list fun t ht => ?_
  obtain ⟨x, -, rfl⟩ := List.mem_map.1 ht
  exact x.text_angleNested

/-- A name with type parameters behind it is written with single spaces. -/
theorem spaced_append_listText (name : PlainName) (xs : List PlainTypeParameter) :
    Spaced (name.text ++ listText xs) := by
  rw [listText]
  split
  · rw [List.append_nil]
    exact name.spaced
  · next hempty =>
      have hopening : Delimits (name.text ++ [.ofChar '<']) := by
        refine Delimits.of_mem (c := .ofChar '<') ?_ (by simp) (by decide)
        intro c hc
        rcases List.mem_append.1 hc with hc | hc
        · exact isBlank_of_isNameChar (name.toWord.isNameChar c hc)
        · rw [List.mem_singleton.1 hc]
          decide
      have hclosing : Delimits ['>'] :=
        Delimits.of_mem (by decide) List.mem_cons_self (by decide)
      have hlist : Enclosed (join [',', ' '] (xs.map text)) := by
        refine Enclosed.list (by simpa using hempty) fun t ht => ?_
        obtain ⟨x, -, rfl⟩ := List.mem_map.1 ht
        exact x.spaced_text.enclosed
      have hwhole := hlist.between hopening hclosing (by simp)
      simpa using hwhole

/-- The type parameters are split off the header that they stand behind. -/
theorem splitTypeParameters_listText {header : Text} (hblank : StopsAt isBlank header.reverse)
    (hangle : StopsAt (· == '>') header.reverse) (xs : List PlainTypeParameter) :
    splitTypeParameters (header ++ listText xs) = .ok (header, listText xs) := by
  rw [listText]
  split
  · rw [List.append_nil]
    exact splitTypeParameters_eq_self hblank hangle
  · exact splitTypeParameters_append (angleNested_join xs) hblank

end PlainTypeParameter

/-! ## Signatures -/

/-- A method's type and name, its type parameters, and its parameters in the three groups; a named
parameter may be marked as required. -/
structure PlainSignature where
  returnType : PlainType
  name : PlainName
  typeParameters : List PlainTypeParameter := []
  positional : List PlainParameter := []
  optional : List PlainParameter := []
  named : List (PlainParameter × Bool) := []

namespace PlainSignature

/-- Parameters of which none is required. -/
def notRequired (ps : List PlainParameter) : List (PlainParameter × Bool) :=
  ps.map fun p => (p, false)

/-- The parameters of one group. -/
def group (kind : ParameterKind) (ps : List (PlainParameter × Bool)) : List Parameter :=
  ps.map fun p => p.1.toParameter kind p.2

/-- The texts of the parameters of one group. -/
def groupTexts (ps : List (PlainParameter × Bool)) : List Text :=
  ps.map fun p => p.1.text p.2

/-- The parameters in the order in which they are written. -/
def parameters (s : PlainSignature) : List Parameter :=
  group .positional (notRequired s.positional) ++ (group .optional (notRequired s.optional)
    ++ group .named s.named)

/-- Every parameter is a plain one in one of the three groups. -/
theorem exists_of_mem_parameters {s : PlainSignature} {p : Parameter} (h : p ∈ s.parameters) :
    ∃ kind ∈ [ParameterKind.positional, .optional, .named],
      ∃ (q : PlainParameter) (required : Bool), p = q.toParameter kind required := by
  simp only [parameters, group, List.mem_append, List.mem_map] at h
  rcases h with ⟨q, -, rfl⟩ | ⟨q, -, rfl⟩ | ⟨q, -, rfl⟩
  · exact ⟨.positional, by simp, q.1, q.2, rfl⟩
  · exact ⟨.optional, by simp, q.1, q.2, rfl⟩
  · exact ⟨.named, by simp, q.1, q.2, rfl⟩

/-- The method with the signature. -/
def toMethod (s : PlainSignature) (isAbstract : Bool) : Method where
  name := .str s.name.text
  returnType := .str s.returnType.text
  parameters := s.parameters
  isAbstract
  typeParameters := .str (PlainTypeParameter.listText s.typeParameters)

/-- What stands before the parameter list. -/
def header (s : PlainSignature) : Text :=
  s.returnType.text ++ .ofChar ' ' :: (s.name.text ++ PlainTypeParameter.listText s.typeParameters)

/-- The parameters of a group in its brackets; nothing when the group is empty. -/
def bracketed (opener closer : CodePoint) (ps : List (PlainParameter × Bool)) : List Text :=
  if ps.isEmpty then [] else [opener :: (join [',', ' '] (groupTexts ps) ++ [closer])]

/-- The parts of the parameter list. -/
def parts (s : PlainSignature) : List Text :=
  groupTexts (notRequired s.positional) ++ (bracketed '[' ']' (notRequired s.optional)
    ++ bracketed '\x7b' '\x7d' s.named)

/-- What stands in the parameter list. -/
def inner (s : PlainSignature) : Text :=
  join [',', ' '] s.parts

/-! ## The text of a signature -/

theorem not_required_of_mem {ps : List PlainParameter} {p : PlainParameter × Bool}
    (h : p ∈ notRequired ps) : p.2 = false := by
  obtain ⟨q, -, rfl⟩ := List.mem_map.1 h
  rfl

/-- The parameters of a group are in it. -/
theorem kind_of_mem_group {kind : ParameterKind} {ps : List (PlainParameter × Bool)} :
    ∀ p ∈ group kind ps, p.kind = kind :=
  List.forall_mem_map.2 fun _ _ => rfl

theorem map_render_group {kind : ParameterKind} {ps : List (PlainParameter × Bool)}
    (h : ∀ p ∈ ps, p.2 = true → kind = .named) :
    (group kind ps).map Parameter.render = groupTexts ps := by
  rw [group, groupTexts, List.map_map]
  exact List.map_congr_left fun p hp => p.1.render_toParameter (h p hp)

theorem bracketedGroup_group {opener closer : CodePoint} {kind : ParameterKind}
    {ps : List (PlainParameter × Bool)} (h : ∀ p ∈ ps, p.2 = true → kind = .named) :
    bracketedGroup opener closer (group kind ps) = bracketed opener closer ps := by
  rw [bracketedGroup, map_render_group h, bracketed, group, List.isEmpty_map]

theorem required_of_mem_notRequired {kind : ParameterKind} {ps : List PlainParameter} :
    ∀ p ∈ notRequired ps, p.2 = true → kind = .named := by
  intro p hp hrequired
  rw [not_required_of_mem hp] at hrequired
  cases hrequired

theorem renderAll_parameters (s : PlainSignature) : Parameter.renderAll s.parameters = s.inner := by
  rw [parameters, renderAll_append kind_of_mem_group kind_of_mem_group kind_of_mem_group,
    map_render_group required_of_mem_notRequired,
    bracketedGroup_group required_of_mem_notRequired, bracketedGroup_group fun _ _ _ => rfl]
  rfl

/-- A method with a plain signature is written as its header and its parameter list. -/
theorem render_toMethod (s : PlainSignature) (isAbstract : Bool) :
    (s.toMethod isAbstract).render = s.header ++ .ofChar '(' :: (s.inner ++ [.ofChar ')']) := by
  rw [Method.render, show (s.toMethod isAbstract).parameters = s.parameters from rfl,
    s.renderAll_parameters]
  simp [toMethod, header]

/-! ## The parameter list -/

theorem isPart_of_mem {ps : List (PlainParameter × Bool)} {t : Text} (h : t ∈ groupTexts ps) :
    IsPart t := by
  obtain ⟨p, -, rfl⟩ := List.mem_map.1 h
  exact p.1.isPart_text p.2

theorem isSignatureChar_join {texts : List Text} (h : ∀ t ∈ texts, IsPart t) :
    ∀ c ∈ join [',', ' '] texts, isSignatureChar c = true := by
  intro c hc
  rcases mem_join hc with hc | ⟨t, ht, hc⟩
  · have hcomma : ∀ c ∈ ([',', ' '] : Text), isSignatureChar c = true := by decide
    exact hcomma c hc
  · exact (h t ht).chars c hc

/-- A parameter, or a group in its brackets, as it stands in the parameter list. -/
inductive IsListed : Text → Prop
  | part {t : Text} : IsPart t → IsListed t
  | group {opener closer : CodePoint} {texts : List Text} : closerOf? opener = some closer →
    (∀ t ∈ texts, IsPart t) → IsListed (opener :: (join [',', ' '] texts ++ [closer]))

theorem isListed_of_mem_bracketed {opener closer : CodePoint} (h : closerOf? opener = some closer)
    {ps : List (PlainParameter × Bool)} {t : Text} (ht : t ∈ bracketed opener closer ps) :
    IsListed t := by
  rw [bracketed] at ht
  split at ht
  · cases ht
  · rw [List.mem_singleton.1 ht]
    exact .group h fun u hu => isPart_of_mem hu

theorem isListed_of_mem_parts (s : PlainSignature) {t : Text} (h : t ∈ s.parts) : IsListed t := by
  rw [parts, List.mem_append, List.mem_append] at h
  rcases h with h | h | h
  · exact .part (isPart_of_mem h)
  · exact isListed_of_mem_bracketed rfl h
  · exact isListed_of_mem_bracketed rfl h

theorem IsListed.isInert {t : Text} (h : IsListed t) : ∀ c ∈ t, IsInert c := by
  cases h with
  | part h => exact fun c hc => isInert_of_isSignatureChar (h.chars c hc)
  | group hcloser hall =>
      obtain ⟨hopenerInert, hcloserInert⟩ := isInert_of_closerOf? hcloser
      refine forall_mem_between hopenerInert (fun c hc => ?_) hcloserInert
      exact isInert_of_isSignatureChar (isSignatureChar_join hall c hc)

theorem inner_isInert (s : PlainSignature) : ∀ c ∈ s.inner, IsInert c := by
  intro c hc
  rcases mem_join hc with hc | ⟨t, ht, hc⟩
  · have hcomma : ∀ c ∈ ([',', ' '] : Text), isSignatureChar c = true := by decide
    exact isInert_of_isSignatureChar (hcomma c hc)
  · exact (s.isListed_of_mem_parts ht).isInert c hc

theorem balanced_join {texts : List Text} (h : ∀ t ∈ texts, IsPart t) :
    Balanced (join [',', ' '] texts) :=
  Balanced.list (fun t ht => (h t ht).isQuote) fun t ht => (h t ht).balanced

theorem IsListed.balanced {t : Text} (h : IsListed t) : Balanced t := by
  cases h with
  | part h => exact h.balanced
  | group hcloser hall => exact Balanced.group hcloser (balanced_join hall)

/-- What stands in the parameter list is balanced. -/
theorem balanced_inner (s : PlainSignature) : Balanced s.inner :=
  Balanced.list (fun _ ht c hc => ((s.isListed_of_mem_parts ht).isInert c hc).1)
    fun _ ht => (s.isListed_of_mem_parts ht).balanced

/-! ## Reading the parameter list -/

theorem rereads_of_mem_group {kind : ParameterKind} {ps : List (PlainParameter × Bool)}
    (h : ∀ p ∈ ps, p.2 = true → kind = .named) :
    ∀ p ∈ group kind ps, Rereads p ∧ p.kind = kind :=
  List.forall_mem_map.2 fun p hp => ⟨p.1.rereads (h p hp), rfl⟩

/-- Reading the parameter list gives the parameters. -/
theorem parseParameters_inner (s : PlainSignature) :
    parseParameters s.inner = .ok s.parameters := by
  rw [← s.renderAll_parameters]
  exact parseParameters_render (rereads_of_mem_group required_of_mem_notRequired)
    (rereads_of_mem_group required_of_mem_notRequired) (rereads_of_mem_group fun _ _ _ => rfl)

end PlainSignature

/-! ## A signature -/

/-- A bare type. -/
def PlainType.bare (name : Text) (hchars : ∀ c ∈ name, TypeExpr.isNameChar c = true)
    (hname : TypeExpr.isName name = true) (hreserved : name ∉ reservedWords) : PlainType where
  tree := .node name [] false none
  wellFormed := TypeExpr.wellFormed_node.2 ⟨⟨hchars, hname⟩, rfl, rfl⟩
  unreserved := TypeExpr.unreserved_node.2 ⟨hreserved, rfl⟩

/-- The type of integers. -/
def PlainType.int : PlainType :=
  .bare "int".toText (by decide) (by decide) (by decide +kernel)

/-- A page of nullable items, loaded later, with a bounded type parameter and a required and a
defaulted parameter. -/
def pageSignature : PlainSignature where
  returnType :=
    { tree := .node "Future".toText [.node "Page".toText [.node "T".toText [] true none] false
        (some [])] false (some [])
      wellFormed := by decide
      unreserved := by decide +kernel }
  name := { text := "load".toText, ne_nil := by decide, chars := by decide
            unreserved := by decide +kernel }
  typeParameters :=
    [{ name := "T".toText
       isFree := ⟨by decide, by decide, by decide +kernel⟩
       bound := some (.bare "Item".toText (by decide) (by decide) (by decide +kernel)) }]
  positional :=
    [{ type := .bare "Object".toText (by decide) (by decide) (by decide +kernel)
       name := { text := "json".toText, ne_nil := by decide, chars := by decide
                 unreserved := by decide +kernel } }]
  named :=
    [({ type := .int
        name := { text := "page".toText, ne_nil := by decide, chars := by decide
                  unreserved := by decide +kernel } }, true),
     ({ type := .int
        name := { text := "size".toText, ne_nil := by decide, chars := by decide
                  unreserved := by decide +kernel }
        default := some { text := "10".toText, ne_nil := by decide, chars := by decide } }, false)]

example : (pageSignature.toMethod true).render
    = ("Future<Page<T?>> load<T extends Item>"
      ++ "(Object json, \x7brequired int page, int size = 10\x7d)").toText := by
  decide +kernel

end DartDecoders
