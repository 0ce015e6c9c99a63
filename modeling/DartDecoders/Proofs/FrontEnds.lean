/-
The two front ends agree.

Declarations come from a source text or from JSON data. A list of class descriptions can be written
either way, and reading it back gives the same declarations (`scan_eq_load`). For the source text
this is put together from what the scanner does with each of its parts: every described class is an
annotated class whose members are read as its methods. For the data it is that each entry holds
every field that its reader asks for, and that distinct names are not reported.
-/
import DartDecoders.Proofs.ClassText
import DartDecoders.Proofs.DocumentFaults

set_option autoImplicit false

namespace DartDecoders

open Text Source

/-! ## Descriptions -/

/-- A string that an argument of the annotation may be, between single quotes. -/
structure PlainString where
  text : Text
  chars : ∀ c ∈ text, isPlainChar c = true ∧ c ≠ '@'

/-- What stands between the braces of a method: its brackets nest, and there is no quote, slash or
at sign in it. -/
structure Block where
  text : Text
  chars : ∀ c ∈ text, IsInert c
  nested : Nested (text.map Piece.char)

/-- A method with its block, which an abstract method does not have. -/
structure DescribedMethod where
  signature : PlainSignature
  block : Option Block := none

/-- A class with the envelope that its annotation describes. -/
structure ClassDescription where
  name : Word
  isAbstract : Bool
  wrapper : Option PlainString
  factory : Option PlainString
  methods : List DescribedMethod

namespace DescribedMethod

/-- The method that is described. -/
def method (m : DescribedMethod) : Method :=
  m.signature.toMethod m.block.isNone

/-- The method in a class body. -/
def source (m : DescribedMethod) : Text :=
  match m.block with
  | none => m.signature.declarationText
  | some block => m.signature.blockText block.text

end DescribedMethod

namespace ClassDescription

/-- The methods have names of their own, and none of them looks like a constructor of the class. -/
structure Distinct (c : ClassDescription) : Prop where
  names : (c.methods.map fun m => m.signature.name.text).Nodup
  notConstructor : ∀ m ∈ c.methods, m.signature.NotConstructor c.name.text

/-- The string of an argument. -/
def argument (value : Option PlainString) : Option Text :=
  value.map (·.text)

/-- The value of an argument. -/
def argumentValue (value : Option PlainString) : Json :=
  (argument value).elim .null Json.str

/-- The envelope that is described. -/
def envelope (c : ClassDescription) : Envelope :=
  .ofArguments [("wrapperType".toText, argumentValue c.wrapper),
    ("wrapperFromJson".toText, argumentValue c.factory)]

/-- The declaration that is described. -/
def declaration (c : ClassDescription) (sourceFile : Json) : Declaration where
  name := .str c.name.text
  methods := c.methods.map DescribedMethod.method
  envelope := some c.envelope
  isAbstract := c.isAbstract
  sourceFile

/-! ## The source text -/

/-- The parts of the class in a source text. -/
def classText (c : ClassDescription) : ClassText where
  arguments := envelopeText (argument c.wrapper) (argument c.factory)
  isAbstract := c.isAbstract
  name := c.name
  clause := [' ']
  members := c.methods.map DescribedMethod.source

end ClassDescription

/-- The source text of some classes. -/
def sourceOf (classes : List ClassDescription) : Text :=
  classes.flatMap fun c => c.classText.text

/-! ## The data -/

/-- The fields of a parameter's entry. -/
def Parameter.fields (p : Parameter) : List (Text × Json) :=
  [("type".toText, p.typeText), ("name".toText, p.name), ("kind".toText, .str p.kind.toText),
    ("required".toText, .bool p.required), ("default".toText, p.default)]

/-- The fields of a method's entry. -/
def Method.fields (m : Method) : List (Text × Json) :=
  [("name".toText, m.name), ("returnType".toText, m.returnType),
    ("parameters".toText, .arr (m.parameters.map fun p => .obj p.fields)),
    ("typeParameters".toText, m.typeParameters), ("isAbstract".toText, .bool m.isAbstract)]

/-- The fields of the annotation's entry. -/
def ClassDescription.annotation (c : ClassDescription) : List (Text × Json) :=
  [("wrapperType".toText, argumentValue c.wrapper),
    ("wrapperFromJson".toText, argumentValue c.factory)]

/-- The fields of a class's entry. -/
def ClassDescription.fields (c : ClassDescription) : List (Text × Json) :=
  [("name".toText, .str c.name.text), ("isAbstract".toText, .bool c.isAbstract),
    ("annotation".toText, .obj c.annotation),
    ("methods".toText, .arr (c.methods.map fun m => .obj m.method.fields))]

/-- The data of some classes: a list of their entries. -/
def dataOf (classes : List ClassDescription) : Json :=
  .arr (classes.map fun c => .obj c.fields)

/-- The data of some classes in an object. -/
def wrappedDataOf (classes : List ClassDescription) : Json :=
  .obj [("classes".toText, dataOf classes)]

/-! ## Scanning the source text -/

namespace ClassDescription

theorem isPlainChar_argument (value : Option PlainString) :
    ∀ v ∈ argument value, ∀ c ∈ v, isPlainChar c = true := by
  intro v hv c hc
  obtain ⟨s, -, rfl⟩ := Option.map_eq_some_iff.1 hv
  exact (s.chars c hc).1

theorem balanced_valueText (value : Option PlainString) :
    Balanced (valueText (argument value)) := by
  cases value with
  | none => exact .of_forall (by decide) (by decide)
  | some s =>
      refine .literal rfl fun c hc => ?_
      obtain ⟨hquote, hslash, -⟩ := isPlainChar_iff.1 (s.chars c hc).1
      exact ⟨hquote, hslash⟩

/-- A value and a character behind it that opens nothing. -/
theorem uncommented_valueText (value : Option PlainString) {c : CodePoint} {rest : Text}
    (hc : isQuote c = false) (hrest : Uncommented (c :: rest)) :
    Uncommented (valueText (argument value) ++ c :: rest) := by
  cases value with
  | none => exact .prepend (by decide) hrest
  | some s =>
      have hliteral := Uncommented.literal (s := s.text) (fun d hd => (s.chars d hd).1) hc hrest
      simpa [valueText, argument] using hliteral

theorem unmarked_valueText (value : Option PlainString) :
    ∀ c ∈ valueText (argument value), c ≠ '@' := by
  cases value with
  | none => decide
  | some s => exact forall_mem_between (by decide) (fun c hc => (s.chars c hc).2) (by decide)

theorem balanced_argumentText {name : Text} (hname : Inert name)
    (value : Option PlainString) : Balanced (argumentText name (argument value)) := by
  have hcolon : Balanced [':', ' '] := .of_forall (by decide) (by decide)
  exact hname.balanced.prepend (fun c hc => (hname c hc).1.1)
    (hcolon.prepend (by decide) (balanced_valueText value))

theorem uncommented_argumentText {name : Text} (hname : Inert name)
    (value : Option PlainString) {c : CodePoint} {rest : Text} (hc : isQuote c = false)
    (hrest : Uncommented (c :: rest)) :
    Uncommented (argumentText name (argument value) ++ c :: rest) := by
  have hcolon := Uncommented.prepend (t := [':', ' ']) (by decide)
    (uncommented_valueText value hc hrest)
  have hwhole := Uncommented.prepend (fun c hc => ⟨(hname c hc).1.1, (hname c hc).1.2.1⟩) hcolon
  simpa [argumentText] using hwhole

theorem unmarked_argumentText {name : Text} (hname : Inert name)
    (value : Option PlainString) : ∀ c ∈ argumentText name (argument value), c ≠ '@' := by
  intro c hc
  simp only [argumentText, List.mem_append, List.mem_cons] at hc
  rcases hc with hc | rfl | rfl | hc
  · exact (hname c hc).1.2.2
  · decide
  · decide
  · exact unmarked_valueText value c hc

theorem inert_wrapperName : Inert "wrapperType".toText := by
  decide

theorem inert_factoryName : Inert "wrapperFromJson".toText := by
  decide

theorem wellCut_classText (c : ClassDescription) : c.classText.WellCut where
  arguments := by
    have hcomma : Balanced [',', ' '] := .of_forall (by decide) (by decide)
    have hsecond := hcomma.prepend (by decide)
      (balanced_argumentText inert_factoryName c.factory)
    exact (balanced_argumentText inert_wrapperName c.wrapper).append hsecond (by exact rfl)
  argumentsUncommented := by
    have hclosing : Uncommented [')'] := .of_forall (by decide)
    have hlast := uncommented_argumentText inert_factoryName c.factory rfl hclosing
    have hcomma : Uncommented (.ofChar ',' :: .ofChar ' ' :: (argumentText "wrapperFromJson".toText
        (argument c.factory) ++ [.ofChar ')'])) :=
      .char rfl (by decide) (.char rfl (by decide) hlast)
    have hwhole := uncommented_argumentText inert_wrapperName c.wrapper (c := ',') rfl hcomma
    simpa [classText, envelopeText] using hwhole
  argumentsUnmarked := by
    intro d hd
    simp only [classText, envelopeText, List.mem_append, List.mem_cons] at hd
    rcases hd with hd | rfl | rfl | hd
    · exact unmarked_argumentText inert_wrapperName c.wrapper d hd
    · decide
    · decide
    · exact unmarked_argumentText inert_factoryName c.factory d hd
  clauseStops := by
    show isWordChar ' ' = false
    decide
  clause := by
    show Inert [' ']
    decide

theorem selfContained_block (b : Block) : SelfContained b.text := by
  have hquote : ∀ c ∈ b.text, isQuote c = false := fun c hc => (b.chars c hc).1
  refine .of_isInert b.chars ⟨.of_forall hquote, ?_⟩
  rw [pieces_of_forall hquote]
  exact b.nested

/-- A described method is read from its text. -/
theorem reads_source {c : ClassDescription} {m : DescribedMethod}
    (h : m.signature.NotConstructor c.name.text) : Reads c.name.text m.source m.method := by
  rw [DescribedMethod.source, DescribedMethod.method]
  cases m.block with
  | none => exact PlainSignature.reads_declaration h
  | some block => exact PlainSignature.reads_block h (selfContained_block block)

/-- A described class declares what is described. -/
theorem declares_classText {c : ClassDescription} (h : c.Distinct) :
    Declares c.classText.text c.declaration := by
  have hmembers : c.classText.members = c.methods.map DescribedMethod.source := rfl
  have hdeclares := ClassText.declares_text c.wellCut_classText hmembers
    fun m hm => reads_source (h.notConstructor m hm)
  have hentries := argumentEntries_envelopeText (isPlainChar_argument c.wrapper)
    (isPlainChar_argument c.factory)
  rw [show c.classText.arguments = envelopeText (argument c.wrapper) (argument c.factory) from rfl,
    hentries] at hdeclares
  exact hdeclares

end ClassDescription

theorem declarations_sourceOf {classes : List ClassDescription} (h : ∀ c ∈ classes, c.Distinct)
    (sourceFile : Json) :
    declarations (sourceOf classes) sourceFile
      = .ok (classes.map fun c => c.declaration sourceFile) :=
  declarations_flatMap (fun c hc => ClassDescription.declares_classText (h c hc)) sourceFile

/-! ## Loading the data -/

namespace Declaration

/-- A parameter is read from its entry, when its group is one of the three. -/
theorem parameterOf_fields (method : Json) {p : Parameter}
    (h : parameterKind? (.str p.kind.toText) = some p.kind) :
    parameterOf method (.obj p.fields) = .ok p := by
  have htype : Json.lookup? "type".toText p.fields = some p.typeText := rfl
  have hname : Json.lookup? "name".toText p.fields = some p.name := rfl
  have hkind : field p.fields "kind" (.str "positional".toText) = .str p.kind.toText := rfl
  rw [parameterOf, htype, hname]
  simp only [hkind, h]
  rfl

/-- A method is read from its entry: its name and type must be given, and its type parameters must
be a text. -/
theorem methodOf_fields (owner : Json) {m : Method} (hname : m.name.isTruthy = true)
    (htype : m.returnType.isTruthy = true)
    (hparameters : ∀ p ∈ m.parameters, parameterKind? (.str p.kind.toText) = some p.kind)
    {typeParameters : Text} (htypeParameters : m.typeParameters = .str typeParameters) :
    methodOf owner (.obj m.fields) = .ok m := by
  -- every field is found under its own key, so no default value is taken
  have hfields : field m.fields "name" .null = m.name
      ∧ field m.fields "returnType" .null = m.returnType
      ∧ field m.fields "parameters" (.arr []) = .arr (m.parameters.map fun p => .obj p.fields)
      ∧ field m.fields "typeParameters" .null = m.typeParameters
      ∧ field m.fields "isAbstract" (.bool true) = .bool m.isAbstract :=
    ⟨rfl, rfl, rfl, rfl, rfl⟩
  obtain ⟨hnameField, htypeField, hparametersField, htypeParametersField, habstractField⟩ := hfields
  have hread : (m.parameters.map fun p => Json.obj p.fields).mapM (parameterOf m.name)
      = .ok (m.parameters.map id) :=
    mapM_map_eq_ok fun p hp => parameterOf_fields m.name (hparameters p hp)
  rw [List.map_id] at hread
  -- an empty text of type parameters is replaced by an empty text
  have hempty : (if m.typeParameters.isTruthy then m.typeParameters else .str [])
      = m.typeParameters := by
    rw [htypeParameters]
    cases typeParameters <;> rfl
  rw [methodOf]
  simp only [hnameField, htypeField, hname, htype, hparametersField, elementsOf, bind, Except.bind,
    hread, htypeParametersField, hempty, habstractField, Bool.not_true, Bool.or_self,
    Bool.false_eq_true, if_false]
  rfl

end Declaration

namespace ClassDescription

theorem parameterKind?_of_mem {s : PlainSignature} {p : Parameter} (h : p ∈ s.parameters) :
    Declaration.parameterKind? (.str p.kind.toText) = some p.kind := by
  obtain ⟨kind, hkind, q, required, rfl⟩ := PlainSignature.exists_of_mem_parameters h
  simp only [List.mem_cons, List.not_mem_nil, or_false] at hkind
  rcases hkind with rfl | rfl | rfl <;> rfl

/-- A described method is read from its entry. -/
theorem methodOf_method (owner : Json) (m : DescribedMethod) :
    Declaration.methodOf owner (.obj m.method.fields) = .ok m.method := by
  refine Declaration.methodOf_fields owner ?_ ?_ (fun p hp => parameterKind?_of_mem hp) rfl
  · simpa [DescribedMethod.method, PlainSignature.toMethod, Json.isTruthy]
      using m.signature.name.ne_nil
  · simpa [DescribedMethod.method, PlainSignature.toMethod, Json.isTruthy]
      using m.signature.returnType.isTypeText.ne_nil

/-- A described class is read from its entry. -/
theorem classOf_fields {c : ClassDescription} (h : c.Distinct) (sourceFile : Json) :
    Declaration.classOf sourceFile (.obj c.fields) = .ok (c.declaration sourceFile) := by
  have hfields : Declaration.field c.fields "name" .null = .str c.name.text
      ∧ Declaration.field c.fields "methods" (.arr [])
        = .arr (c.methods.map fun m => .obj m.method.fields)
      ∧ Declaration.field c.fields "annotation" .null = .obj c.annotation
      ∧ Declaration.field c.fields "isAbstract" (.bool true) = .bool c.isAbstract
      ∧ Declaration.field c.fields "kind" (.str classKind) = .str classKind :=
    ⟨rfl, rfl, rfl, rfl, rfl⟩
  obtain ⟨hnameField, hmethodsField, hannotationField, habstractField, hkindField⟩ := hfields
  have htruthy : (Json.str c.name.text).isTruthy = true := by
    simpa [Json.isTruthy] using c.name.ne_nil
  have hread : (c.methods.map fun m => Json.obj m.method.fields).mapM
      (Declaration.methodOf (.str c.name.text)) = .ok (c.methods.map DescribedMethod.method) :=
    mapM_map_eq_ok fun m _ => methodOf_method (.str c.name.text) m
  have hnames : (c.methods.map DescribedMethod.method).map (·.name)
      = (c.methods.map fun m => m.signature.name.text).map Json.str := by
    rw [List.map_map, List.map_map]
    rfl
  rw [Declaration.classOf]
  simp only [hnameField, htruthy, hmethodsField, Declaration.elementsOf, bind, Except.bind, hread,
    hnames, Declaration.checkNames_eq_ok_iff.2 h.names, hannotationField, Declaration.envelopeOf,
    habstractField, hkindField, Bool.not_true, Bool.false_eq_true, if_false]
  rfl

end ClassDescription

theorem ofData_dataOf {classes : List ClassDescription} (h : ∀ c ∈ classes, c.Distinct)
    (sourceFile : Json) :
    Declaration.ofData (dataOf classes) sourceFile
      = .ok (classes.map fun c => c.declaration sourceFile) :=
  mapM_map_eq_ok fun c hc => ClassDescription.classOf_fields (h c hc) sourceFile

/-- An object with the list holds the same declarations. -/
theorem ofData_wrappedDataOf (classes : List ClassDescription) (sourceFile : Json) :
    Declaration.ofData (wrappedDataOf classes) sourceFile
      = Declaration.ofData (dataOf classes) sourceFile := rfl

/-- **The two front ends agree.** Any classes with plain signatures, written as a source text and as
data, are scanned and loaded as the same declarations, which are those that were described. -/
theorem scan_eq_load (classes : List ClassDescription) (h : ∀ c ∈ classes, c.Distinct)
    (sourceFile : Json) :
    (scan (sourceOf classes) sourceFile).result
        = .ok (classes.map fun c => c.declaration sourceFile)
      ∧ (Declaration.load (dataOf classes) sourceFile).result
        = .ok (classes.map fun c => c.declaration sourceFile)
      ∧ (Declaration.load (wrappedDataOf classes) sourceFile).result
        = .ok (classes.map fun c => c.declaration sourceFile) := by
  have hload := ofData_dataOf h sourceFile
  refine ⟨?_, ?_, ?_⟩
  · rw [result_scan, declarations_sourceOf h]
  · rw [result_load, hload]
  · rw [result_load, ofData_wrappedDataOf, hload]

/-! ## A described class -/

/-- A class with that method, abstract, and a method with a block. -/
def pageClass : ClassDescription where
  name := { text := "Pages".toText, ne_nil := by decide, chars := by decide }
  isAbstract := true
  wrapper := some { text := "Page".toText, chars := by decide }
  factory := none
  methods :=
    [{ signature := pageSignature },
     { signature :=
        { returnType := .int
          name := { text := "count".toText, ne_nil := by decide, chars := by decide
                    unreserved := by decide +kernel } }
       block := some
        { text := " return [3].first; ".toText
          chars := by decide
          nested := (Nested.of_forall (t := " return ".toText) (by decide)).append
            (.group closerOf?_bracket (.of_forall (t := ['3']) (by decide))
              (.of_forall (t := ".first; ".toText) (by decide))) } }]

/-- That class as it is written in a source text, scanned and loaded. -/
theorem scan_eq_load_pages :
    sourceOf [pageClass] = join ['\n'] (
        ["@JsonToModel(wrapperType: 'Page', wrapperFromJson: null)",
          "abstract class Pages \x7b",
          "  Future<Page<T?>> load<T extends Item>(Object json, \x7brequired int page, int size = 10\x7d);",
          "  int count() \x7b return [3].first; \x7d",
          "\x7d",
          ""].map String.toText)
      ∧ (∀ c ∈ [pageClass], c.Distinct)
      ∧ (scan (sourceOf [pageClass]) .null).result
        = (Declaration.load (dataOf [pageClass]) .null).result := by
  have hdistinct : ∀ c ∈ [pageClass], c.Distinct := by
    intro c hc
    rw [List.mem_singleton.1 hc]
    refine ⟨by decide, fun m hm => ?_⟩
    rcases List.mem_cons.1 hm with rfl | hm
    · exact ⟨by decide, by decide⟩
    · rw [List.mem_singleton.1 hm]
      exact ⟨by decide, by decide⟩
  obtain ⟨hscan, hload, -⟩ := scan_eq_load [pageClass] hdistinct .null
  exact ⟨by decide +kernel, hdistinct, hscan.trans hload.symm⟩

end DartDecoders
