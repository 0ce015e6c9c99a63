/-
The bodies of generated methods.

The body of a generated method is one return statement, in one of four forms. Whatever the shape of
the result, the types in it are made of names, angle brackets, commas and spaces, the factories and
the input are words, and the key of a list stands in a literal of its own. So the statement closes
its own brackets and literals (`selfContained_statement`), and a block with it can stand in a class
body.
-/
import DartDecoders.Implementation
import DartDecoders.Proofs.ClassText
import DartDecoders.Proofs.ShapeOfType

set_option autoImplicit false

namespace DartDecoders

open Text TypeExpr Source

/-! ## The types that a shape carries -/

namespace TypeExpr

theorem name_isTypeChar {e : TypeExpr} (h : wellFormed e = true) :
    ∀ c ∈ e.name, isTypeChar c = true := by
  obtain ⟨name, args, nullable, argsText⟩ := e
  exact fun c hc => isTypeChar_of_isNameChar ((wellFormed_node.1 h).1.1 c hc)

/-- The only argument of a well-formed type is well formed. -/
theorem wellFormed_arg {name : Text} {arg : TypeExpr} {nullable : Bool} {argsText : Option Text}
    (h : wellFormed (.node name [arg] nullable argsText) = true) : wellFormed arg = true :=
  (allWellFormed_cons.1 (wellFormed_node.1 h).2.2).1

theorem bareName?_isTypeChar {e : TypeExpr} (h : wellFormed e = true) {item : Text}
    (hitem : bareName? e = some item) : ∀ c ∈ item, isTypeChar c = true := by
  obtain ⟨name, args, nullable, argsText⟩ := e
  cases args with
  | nil =>
      cases hitem
      exact name_isTypeChar h
  | cons => cases hitem

theorem itemOfList?_isTypeChar {e : TypeExpr} (h : wellFormed e = true) {item : Text}
    (hitem : itemOfList? e = some item) : ∀ c ∈ item, isTypeChar c = true := by
  obtain ⟨name, args, nullable, argsText⟩ := e
  rcases args with - | ⟨arg, - | ⟨next, rest⟩⟩
  · cases hitem
  · rw [itemOfList?] at hitem
    split at hitem
    · exact bareName?_isTypeChar (wellFormed_arg h) hitem
    · cases hitem
  · cases hitem

theorem itemOfArgument?_isTypeChar {e : TypeExpr} (h : wellFormed e = true) {item : Text}
    (hitem : itemOfArgument? e = some item) : ∀ c ∈ item, isTypeChar c = true := by
  obtain ⟨name, args, nullable, argsText⟩ := e
  rcases args with - | ⟨arg, - | ⟨next, rest⟩⟩
  · cases hitem
  · exact itemOfList?_isTypeChar (wellFormed_arg h) hitem
  · cases hitem

theorem itemOfLists?_isTypeChar {e : TypeExpr} (h : wellFormed e = true) {item : Text}
    (hitem : itemOfLists? e = some item) : ∀ c ∈ item, isTypeChar c = true := by
  rw [itemOfLists?_eq] at hitem
  split at hitem
  · exact itemOfArgument?_isTypeChar h hitem
  · cases hitem

theorem render_isTypeChar (marks : Bool) {e : TypeExpr} (h : wellFormed e = true) :
    ∀ c ∈ render marks e, isTypeChar c = true :=
  (isTypeText_render marks h).isTypeChar

theorem renderArgs_isTypeChar (marks : Bool) {e : TypeExpr} (h : wellFormed e = true) :
    ∀ c ∈ renderArgs marks e.args, isTypeChar c = true := by
  obtain ⟨name, args, nullable, argsText⟩ := e
  cases args with
  | nil =>
      rw [TypeExpr.args, renderArgs]
      simp
  | cons arg rest =>
      obtain ⟨texts, -, hjoin, hall⟩ := exists_typeTexts_renderArgs marks
        (List.cons_ne_nil arg rest) (wellFormed_node.1 h).2.2
      rw [TypeExpr.args, hjoin]
      exact isTypeChar_join fun t ht => (hall t ht).isTypeChar

end TypeExpr

namespace Shape

/-- The texts in a shape are texts of types, and so is the wrapper when the shape is wrapped. -/
structure Typed (shape : Shape) (envelope : Envelope) : Prop where
  carried : ∀ c ∈ shape.carried, isTypeChar c = true
  wrapper : shape.wrapped = true → ∀ c ∈ envelope.wrapper.display, isTypeChar c = true

theorem wrapper_of_wraps {envelope : Envelope} {e : TypeExpr} (h : envelope.wraps e = true) :
    envelope.wrapper.display = e.name := by
  rw [Envelope.wraps] at h
  split at h
  · next wrapper hwrapper =>
      simp only [Bool.and_eq_true, beq_iff_eq] at h
      rw [hwrapper, h.2]
      rfl
  · cases h

/-- The shape without a wrapper carries the item of a list or the type itself. -/
theorem typed_direct {e : TypeExpr} (h : e.wellFormed = true) (envelope : Envelope) :
    Typed (match e.itemOfLists?.or e.itemOfList? with
      | some item => directList item
      | none => directModel (e.render false)) envelope := by
  cases hitem : e.itemOfLists?.or e.itemOfList? with
  | none => exact ⟨render_isTypeChar false h, fun hwrapped => by cases hwrapped⟩
  | some item =>
      refine ⟨?_, fun hwrapped => by cases hwrapped⟩
      rcases Option.or_eq_some_iff.1 hitem with hlists | ⟨-, hlist⟩
      · exact itemOfLists?_isTypeChar h hlists
      · exact itemOfList?_isTypeChar h hlist

/-- The shape of a plain type is made of texts of types. -/
theorem typed_classify (t : PlainType) (envelope : Envelope) :
    Typed (classify t.text envelope) envelope := by
  have h := wellFormed_awaited t.wellFormed
  have hdirect := typed_direct h envelope
  rw [PlainType.text, toText, classify, analyse_render t.wellFormed, Analysis.shape,
    isWrapped_render, directItem?_render h]
  cases hwraps : envelope.wraps (awaited t.tree) with
  | false =>
      simp only [Bool.false_eq_true, if_false]
      exact hdirect
  | true =>
      have hwrapper : ∀ c ∈ envelope.wrapper.display, isTypeChar c = true := by
        rw [wrapper_of_wraps hwraps]
        exact name_isTypeChar h
      rw [isGeneric_of_wraps hwraps]
      simp only [if_true]
      cases hitem : itemOfArgument? (awaited t.tree) with
      | some item => exact ⟨itemOfArgument?_isTypeChar h hitem, fun _ => hwrapper⟩
      | none => exact ⟨renderArgs_isTypeChar false h, fun _ => hwrapper⟩

end Shape

/-! ## The options -/

/-- Options whose texts may stand in generated code: words for the prefix and the factory of items,
and for the key of a list a text that can be quoted. -/
structure Options.Plain (o : Options) : Prop where
  implPrefix : ∃ t, o.implPrefix = .str t ∧ ∀ c ∈ t, isWordChar c = true
  itemFactory : ∃ t, o.itemFactory = .str t ∧ ∀ c ∈ t, isWordChar c = true
  listDataKey : ∃ t, o.listDataKey = .str t ∧ ∀ c ∈ t, isPlainChar c = true ∧ c ≠ '@'

theorem inert_of_isWordChar {t : Text} (h : ∀ c ∈ t, isWordChar c = true) : Inert t :=
  inert_of_isTypeChar fun c hc => isTypeChar_of_isNameChar (isNameChar_of_isWordChar (h c hc))

theorem Options.Plain.inert_itemFactory {o : Options} (h : o.Plain) :
    Inert o.itemFactory.display := by
  obtain ⟨t, ht, hchars⟩ := h.itemFactory
  rw [ht]
  exact inert_of_isWordChar hchars

/-! ## Statements -/

namespace Body

theorem selfContained_call : SelfContained "()".toText :=
  SelfContained.group closerOf?_parenthesis .nil

/-- The key of a list in its brackets. -/
theorem selfContained_key {key : Text} (h : ∀ c ∈ key, isPlainChar c = true ∧ c ≠ '@') :
    SelfContained (.ofChar '['
      :: ((.ofChar '\'' :: (key ++ [.ofChar '\''])) ++ [.ofChar ']'])) where
  balanced := by
    refine .group rfl (.literal rfl fun c hc => ?_)
    obtain ⟨hquote, hslash, -⟩ := isPlainChar_iff.1 (h c hc).1
    exact ⟨hquote, hslash⟩
  uncommented := by
    have hclosing : Uncommented [']'] := .of_forall (by decide)
    have hliteral := Uncommented.literal (s := key) (fun d hd => (h d hd).1) rfl hclosing
    have hwhole := Uncommented.char (c := '[') rfl (by decide) hliteral
    simpa using hwhole
  unmarked := by
    have hliteral : ∀ c ∈ .ofChar '\'' :: (key ++ [.ofChar '\'']), c ≠ .ofChar '@' :=
      forall_mem_between (by decide) (fun c hc => (h c hc).2) (by decide)
    exact .of_forall (forall_mem_between (by decide) hliteral (by decide))

/-- The list that items are taken from. -/
theorem selfContained_source {raw : Text} (hraw : SelfContained raw) :
    SelfContained (.ofChar '(' :: raw ++ " as List)".toText) := by
  have hkind : Inert " as List".toText := by decide
  have hgroup := SelfContained.group closerOf?_parenthesis
    (hraw.append hkind.selfContained (by exact rfl))
  simpa [String.toText, ofChars] using hgroup

theorem selfContained_toList {t : Text} (ht : SelfContained t) :
    SelfContained (t ++ ".toList()".toText) :=
  ht.append (.behind (t := ".toList".toText) (by decide) selfContained_call) (by exact rfl)

/-- A function that is applied to every item. -/
theorem selfContained_mapped {raw decoded : Text} (hraw : SelfContained raw)
    (hdecoded : SelfContained decoded) :
    SelfContained (.ofChar '(' :: raw ++ " as List)".toText ++ ".map((e) => ".toText ++ decoded
      ++ ").toList()".toText) := by
  have hitem : SelfContained "(e)".toText :=
    SelfContained.group closerOf?_parenthesis (show Inert ['e'] by decide).selfContained
  have hfunction : SelfContained ("(e)".toText ++ (" => ".toText ++ decoded)) :=
    hitem.append (.behind (by decide) hdecoded) (by exact rfl)
  have hargument := SelfContained.group closerOf?_parenthesis hfunction
  have hmap := SelfContained.behind (t := ".map".toText) (by decide) hargument
  have hwhole := selfContained_toList ((selfContained_source hraw).append hmap (by exact rfl))
  simpa [String.toText, ofChars] using hwhole

/-- The list of items is closed in itself when the raw list is. -/
theorem selfContained_listItems {raw item : Text} (hraw : SelfContained raw)
    (hitem : ∀ c ∈ item, isTypeChar c = true) (primitives : List Json) {factory : Json}
    (hfactory : Inert factory.display) :
    SelfContained (listItems raw item primitives factory) := by
  have hinert := inert_of_isTypeChar hitem
  rw [listItems]
  simp only
  -- a primitive item is coerced or cast, any other one is decoded by its factory
  split
  · split
    · next coerced hcoerced =>
        rw [coercion?] at hcoerced
        split at hcoerced
        · cases hcoerced
          have hnumber : Inert "e as num".toText := by decide
          have hcast : SelfContained "(e as num)".toText :=
            SelfContained.group closerOf?_parenthesis hnumber.selfContained
          have hconversion : SelfContained (".toDouble".toText ++ "()".toText) :=
            .behind (by decide) selfContained_call
          have hcoercion := hcast.append hconversion (by exact rfl)
          exact selfContained_mapped hraw hcoercion
        · cases hcoerced
    · have hcast : Inert (".cast<".toText ++ (item ++ [.ofChar '>'])) :=
        Inert.append (by decide) (hinert.append (by decide))
      have hcall := SelfContained.behind hcast selfContained_call
      have hwhole := selfContained_toList ((selfContained_source hraw).append hcall (by exact rfl))
      simpa [String.toText, ofChars] using hwhole
  · have hobject : Inert ("e as ".toText ++ objectType) := by decide
    have hargument := SelfContained.group closerOf?_parenthesis hobject.selfContained
    have hcallee : Inert (item ++ (.ofChar '.' :: factory.display)) :=
      hinert.append (Inert.append (t := ['.']) (by decide) hfactory)
    have hdecoded := SelfContained.behind hcallee hargument
    have hwhole := selfContained_mapped hraw hdecoded
    simpa [String.toText, ofChars] using hwhole

/-- A wrapper's factory is called with the input and a function. -/
theorem selfContained_wrapperCall {envelope : Envelope} {contents input decoded : Text}
    (hwrapper : Inert envelope.wrapper.display) (hfactory : Inert envelope.factory.display)
    (hcontents : Inert contents) (hinput : Inert input) (hdecoded : SelfContained decoded) :
    SelfContained (wrapperCall envelope contents input decoded) := by
  have hparameter : SelfContained ('(' :: (decoderArgument ++ [.ofChar ')'])) :=
    SelfContained.group rfl (show Inert decoderArgument by decide).selfContained
  have hfunction := hparameter.append (.behind (t := " => ".toText) (by decide) hdecoded)
    (by exact rfl)
  have harguments := SelfContained.behind (hinput.append (u := ", ".toText) (by decide)) hfunction
  have hsemicolon : Inert [';'] := by decide
  have hcall := (SelfContained.group closerOf?_parenthesis harguments).append
    hsemicolon.selfContained (by exact rfl)
  have hcallee : Inert ("return ".toText ++ (envelope.wrapper.display ++ (.ofChar '<' :: (contents
      ++ (">.".toText ++ envelope.factory.display))))) :=
    Inert.append (by decide) (hwrapper.append (Inert.append (t := [.ofChar '<']) (by decide)
      (hcontents.append (Inert.append (by decide) hfactory))))
  have hwhole := SelfContained.behind hcallee hcall
  unfold wrapperCall
  simpa [String.toText, ofChars] using hwhole

/-- An item's factory is called with a decoded object. -/
theorem selfContained_modelCall {name argument : Text} {factory : Json}
    (hname : ∀ c ∈ name, isTypeChar c = true) (hfactory : Inert factory.display)
    (hargument : Inert argument) :
    SelfContained
      (name ++ .ofChar '.' :: factory.display ++ .ofChar '(' :: argument ++ [.ofChar ')']) := by
  have hcallee : Inert (name ++ (.ofChar '.' :: factory.display)) :=
    (inert_of_isTypeChar hname).append (Inert.append (t := ['.']) (by decide) hfactory)
  have hwhole := SelfContained.behind hcallee
    (SelfContained.group closerOf?_parenthesis hargument.selfContained)
  simpa using hwhole

theorem selfContained_return {t : Text} (ht : SelfContained t) :
    SelfContained ("return ".toText ++ (t ++ [.ofChar ';'])) := by
  have hreturn : Inert "return ".toText := by decide
  have hsemicolon : Inert [';'] := by decide
  exact .behind hreturn (ht.append hsemicolon.selfContained (by exact rfl))

/-- The entry of the input under the key of a list. -/
theorem selfContained_entry {o : Options} (ho : o.Plain) {input : Text} (hinput : Inert input) :
    SelfContained (input ++ "['".toText ++ o.listDataKey.display ++ "']".toText) := by
  obtain ⟨key, hkey, hchars⟩ := ho.listDataKey
  have hwhole := SelfContained.behind hinput (selfContained_key hchars)
  rw [hkey]
  simpa [String.toText, ofChars] using hwhole

/-- A return statement closes its own brackets and literals, whatever the shape. -/
theorem selfContained_statement {shape : Shape} {envelope : Envelope} {o : Options}
    (hshape : shape.Typed envelope) (hfactory : Inert envelope.factory.display) (ho : o.Plain)
    {input : Text} (hinput : Inert input) (primitives : List Json) :
    SelfContained (statement shape input primitives envelope o) := by
  have hitemFactory := ho.inert_itemFactory
  have hargument : Inert decoderArgument := by decide
  cases shape with
  | wrappedList item =>
      have hcontents : Inert (Shape.listOpening ++ item ++ [.ofChar '>']) :=
        Inert.append (Inert.append (by decide) (inert_of_isTypeChar hshape.carried)) (by decide)
      exact selfContained_wrapperCall (inert_of_isTypeChar (hshape.wrapper rfl)) hfactory hcontents
        hinput (selfContained_listItems hargument.selfContained hshape.carried primitives
          hitemFactory)
  | wrappedModel inner =>
      have hobject : Inert (decoderArgument ++ (" as ".toText ++ objectType)) := by decide
      have hcarried : ∀ c ∈ inner, isTypeChar c = true := hshape.carried
      have hmodel := selfContained_modelCall hcarried hitemFactory hobject
      have hdecoded : SelfContained (inner ++ .ofChar '.' :: o.itemFactory.display
          ++ .ofChar '(' :: decoderArgument ++ " as ".toText ++ objectType ++ [.ofChar ')']) := by
        simpa using hmodel
      exact selfContained_wrapperCall (inert_of_isTypeChar (hshape.wrapper rfl)) hfactory
        (inert_of_isTypeChar hshape.carried) hinput hdecoded
  | directList item =>
      have hlist := selfContained_listItems (selfContained_entry ho hinput) hshape.carried
        primitives hitemFactory
      have hwhole := selfContained_return hlist
      rw [← List.append_assoc] at hwhole
      exact hwhole
  | directModel name =>
      have hcarried : ∀ c ∈ name, isTypeChar c = true := hshape.carried
      have hmodel := selfContained_modelCall hcarried hitemFactory hinput
      have hwhole := selfContained_return hmodel
      unfold statement
      simpa [String.toText, ofChars] using hwhole

/-- The block of a generated method. -/
def block (body : Text) : Text :=
  "\n    ".toText ++ (body ++ "\n  ".toText)

theorem selfContained_block {body : Text} (h : SelfContained body) :
    SelfContained (block body) := by
  have hclosing : Inert "\n  ".toText := by decide
  exact .behind (by decide) (h.append hclosing.selfContained (by exact rfl))

end Body

end DartDecoders
