/-
Generated code is source text again.

The implementation of a class with plain signatures is an annotated class like any other once the
annotation stands before it, and scanning it gives one class with the methods that were implemented
(`scan_forClass`). Generating succeeds because every method has a parameter to decode from and the
factory has a name; the members of the generated class are read back because each is a plain
signature with a block behind the annotation, and the block closes its own brackets and literals.
-/
import DartDecoders.Proofs.GeneratedBody

set_option autoImplicit false

namespace DartDecoders

open Text Source

/-! ## What can be implemented -/

/-- A method to implement in the class of the given name: it has a plain signature with a parameter
to decode from, and does not look like a constructor of that class. -/
def Method.PlainFor (m : Method) (className : Text) : Prop :=
  ∃ s : PlainSignature, m = s.toMethod true ∧ s.parameters ≠ [] ∧ s.NotConstructor className

/-- A class to implement: its name consists of word characters, the factory of its envelope is a
word, and its abstract methods can be implemented in the class of the given name. -/
structure Declaration.PlainFor (d : Declaration) (className : Text) : Prop where
  isClass : d.isClass = true
  name : ∃ t, d.name = .str t ∧ ∀ c ∈ t, isWordChar c = true
  factory : ∃ w : Word, d.envelopeOrPlain.factory = .str w.text
  methods : ∀ m ∈ d.methods, m.isAbstract = true → m.PlainFor className

/-! ## Generating a method -/

/-- A method with a parameter has an input, which is a word. -/
theorem inputOf_toMethod {s : PlainSignature} (h : s.parameters ≠ []) :
    ∃ n : PlainName, Body.inputOf (s.toMethod true) = .ok (.str n.text) := by
  obtain ⟨first, rest, hparameters⟩ := List.exists_cons_of_ne_nil h
  have hmethod : (s.toMethod true).parameters = first :: rest := hparameters
  rw [Body.inputOf]
  simp only [hmethod]
  cases hfind : (first :: rest).find? fun p => p.name.same (.str Body.inputName) with
  | some p =>
      have hmem : p ∈ s.parameters := by
        rw [hparameters]
        exact List.mem_of_find?_eq_some hfind
      obtain ⟨kind, -, q, required, rfl⟩ := PlainSignature.exists_of_mem_parameters hmem
      exact ⟨q.name, rfl⟩
  | none =>
      have hmem : first ∈ s.parameters := by
        rw [hparameters]
        exact List.mem_cons_self
      obtain ⟨kind, -, q, required, rfl⟩ := PlainSignature.exists_of_mem_parameters hmem
      exact ⟨q.name, rfl⟩

namespace Implementation

/-- A generated method that can be read back: its signature is plain and its body is closed in
itself. -/
structure Readable (className : Text) (g : GeneratedMethod) : Prop where
  signature : g.signature.PlainFor className
  body : SelfContained g.body

/-- A plain method is generated with its own signature. -/
theorem methodFor_plain {m : Method} {className : Text} (hm : m.PlainFor className)
    {envelope : Envelope} (hfactory : ∃ w : Word, envelope.factory = .str w.text) {o : Options}
    (ho : o.Plain) :
    ∃ g : GeneratedMethod, (methodFor m envelope o).result = .ok g ∧ g.signature = m
      ∧ Readable className g := by
  have hplain := hm
  obtain ⟨s, rfl, hparameters, -⟩ := hm
  obtain ⟨w, hw⟩ := hfactory
  obtain ⟨n, hn⟩ := inputOf_toMethod hparameters
  have hinert : Inert envelope.factory.display := by
    rw [hw]
    exact w.inert
  have hnamed : envelope.factory.isTruthy = true := by
    rw [hw]
    simpa [Json.isTruthy] using w.ne_nil
  have hshape : (Shape.report (s.toMethod true).returnType envelope).result
      = .ok (Shape.classify s.returnType.text envelope) := by
    simp [Shape.report, PlainSignature.toMethod, Shape.classifyValue, Except.bind,
      Stack.parseType?_unbounded]
  have hbody : (bodyOf (s.toMethod true) (some (Shape.classify s.returnType.text envelope))
      envelope o).result = .ok (Body.statement (Shape.classify s.returnType.text envelope) n.text
        o.activePrimitives envelope o) := by
    simp [-bind_pure_comp, bodyOf, Body.emit, hn, hnamed, Except.bind]
  have hstatement := Body.selfContained_statement (Shape.typed_classify s.returnType envelope)
    hinert ho n.toWord.inert o.activePrimitives
  refine ⟨⟨s.toMethod true, Shape.classify s.returnType.text envelope, Body.statement
    (Shape.classify s.returnType.text envelope) n.text o.activePrimitives envelope o⟩, ?_, rfl,
    ⟨hplain, hstatement⟩⟩
  simp [-bind_pure_comp, methodFor, hshape, hbody, Except.bind]

/-- The abstract methods are generated in order, each with its own signature. -/
theorem methodsFor_plain {className : Text} {envelope : Envelope}
    (hfactory : ∃ w : Word, envelope.factory = .str w.text) {o : Options} (ho : o.Plain) :
    ∀ {ms : List Method}, (∀ m ∈ ms, m.isAbstract = true → m.PlainFor className) →
      ∃ gs : List GeneratedMethod, (methodsFor envelope o .unbounded ms).result = .ok gs
        ∧ gs.map (·.signature) = ms.filter (·.isAbstract) ∧ ∀ g ∈ gs, Readable className g
  | [], _ => ⟨[], rfl, rfl, by simp⟩
  | m :: rest, h => by
    obtain ⟨gs, hgs, hsignatures, hall⟩ := methodsFor_plain hfactory ho
      fun n hn => h n (List.mem_cons_of_mem m hn)
    cases habstract : m.isAbstract with
    | false =>
        -- a method with a body is passed over
        refine ⟨gs, ?_, ?_, hall⟩
        · simp [methodsFor, habstract, hgs, Except.bind]
        · rw [hsignatures, List.filter_cons_of_neg (by simp [habstract])]
    | true =>
        obtain ⟨g, hg, hsignature, hreadable⟩ :=
          methodFor_plain (h m List.mem_cons_self habstract) hfactory ho
        refine ⟨g :: gs, ?_, ?_, ?_⟩
        · simp [-bind_pure_comp, methodsFor, habstract, hg, hgs, Except.bind]
        · rw [List.map_cons, hsignature, hsignatures,
            List.filter_cons_of_pos (by simp [habstract])]
        · intro other hother
          rcases List.mem_cons.1 hother with rfl | hother
          · exact hreadable
          · exact hall other hother

/-! ## Reading a generated class -/

/-- The text of a generated method without the white space around it. -/
def memberText (g : GeneratedMethod) : Text :=
  PlainSignature.overrideLine ++ (g.signature.render
    ++ .ofChar ' ' :: .ofChar '\x7b' :: (Body.block g.body ++ [.ofChar '\x7d']))

/-- The method of a generated one, which has a body. -/
def implemented (m : Method) : Method :=
  { m with isAbstract := false }

theorem source_eq (g : GeneratedMethod) :
    g.source = indent ++ (memberText g ++ lineBreak) := by
  unfold GeneratedMethod.source Body.source memberText Body.block PlainSignature.overrideLine
  simp [indent, lineBreak, String.toText, ofChars]

theorem reads_memberText {className : Word} {g : GeneratedMethod}
    (h : Readable className.text g) :
    Reads className.text (memberText g) (implemented g.signature) := by
  obtain ⟨s, hs, -, hconstructor⟩ := h.signature
  have hread := s.reads_override hconstructor (Body.selfContained_block h.body)
  rw [memberText, hs, s.render_toMethod]
  exact hread

/-- A generated class in a source text. -/
def generatedClass (name : Word) (className : Text) (gs : List GeneratedMethod) : ClassText where
  arguments := []
  isAbstract := false
  name
  clause := " implements ".toText ++ (className ++ [.ofChar ' '])
  members := gs.map memberText

theorem wellCut_generatedClass (name : Word) {className : Text}
    (h : ∀ c ∈ className, isWordChar c = true) (gs : List GeneratedMethod) :
    (generatedClass name className gs).WellCut where
  arguments := .of_forall (by simp [generatedClass]) (by simp [generatedClass])
  argumentsUncommented := .of_forall (by simp [generatedClass]; decide)
  argumentsUnmarked := by simp [generatedClass]
  clauseStops := by
    show isWordChar (.ofChar ' ') = false
    decide
  clause := Inert.append (by decide) ((inert_of_isWordChar h).append (by decide))

/-- Without arguments there is no envelope. -/
theorem ofArguments_generatedClass (name : Word) (className : Text) (gs : List GeneratedMethod) :
    Envelope.ofArguments (argumentEntries (generatedClass name className gs).arguments)
      = .plain := by
  rw [show (generatedClass name className gs).arguments = [] from rfl, argumentEntries, argumentsIn]
  rfl

/-- The code that is generated is that of the class without its annotation. -/
theorem declared_generatedClass {o : Options} {name : Word} {className : Json} {t : Text}
    (hname : nameFor o className = name.text) (ht : className = .str t)
    (gs : List GeneratedMethod) :
    classText o className gs = (generatedClass name t gs).declared := by
  have hsource : gs.flatMap GeneratedMethod.source
      = layout indent lineBreak (gs.map memberText) := by
    rw [layout, List.flatMap_map, show GeneratedMethod.source = _ from funext source_eq]
  unfold classText
  rw [hsource, hname, ht]
  unfold ClassText.declared ClassText.body generatedClass abstractText
  simp [String.toText, ofChars]

/-- **Generated code is well formed and keeps its signatures.** For every class with plain
signatures and all options whose texts may stand in code, the implementation is generated, its
brackets and literals are closed, and scanning it behind an annotation gives one class: the
implementation, with the implemented methods in order, each with its name, its type, its type
parameters and its parameters. -/
theorem scan_forClass {d : Declaration} {o : Options} (ho : o.Plain)
    (hname : nameFor o d.name ≠ []) (hd : d.PlainFor (nameFor o d.name)) (sourceFile : Json) :
    ∃ text, (forClass d o).result = .ok text ∧ Balanced text
      ∧ (scan ("@JsonToModel()\n".toText ++ text) sourceFile).result = .ok [{
        name := .str (nameFor o d.name)
        methods := (d.methods.filter (·.isAbstract)).map implemented
        envelope := some .plain
        isAbstract := false
        sourceFile }] := by
  obtain ⟨implPrefix, hprefix, hprefixChars⟩ := ho.implPrefix
  obtain ⟨className, hclass, hclassChars⟩ := hd.name
  have hchars : ∀ c ∈ nameFor o d.name, isWordChar c = true := by
    rw [nameFor, hprefix, hclass]
    intro c hc
    rcases List.mem_append.1 hc with hc | hc
    · exact hprefixChars c hc
    · exact hclassChars c hc
  have hword : ∃ name : Word, nameFor o d.name = name.text := ⟨⟨_, hname, hchars⟩, rfl⟩
  obtain ⟨name, hnameText⟩ := hword
  -- the generated class is an annotated class whose members are the generated methods
  rw [hnameText] at hd ⊢
  obtain ⟨gs, hgs, hsignatures, hreadable⟩ := methodsFor_plain hd.factory ho hd.methods
  have hcut := wellCut_generatedClass name hclassChars gs
  have hmembers : ∀ g ∈ gs, Reads name.text (memberText g) (implemented g.signature) :=
    fun g hg => reads_memberText (hreadable g hg)
  have hclosed := ClassText.selfContained_declared hcut
    (ClassText.selfContained_members rfl hmembers)
  have hdeclares := ClassText.declares_text hcut rfl hmembers
  rw [ofArguments_generatedClass] at hdeclares
  have hscan := hdeclares.declarations_eq sourceFile
  have htext := declared_generatedClass hnameText hclass gs
  have hannotated : "@JsonToModel()\n".toText ++ classText o d.name gs
      = (generatedClass name className gs).text := by
    rw [htext]
    rfl
  refine ⟨classText o d.name gs, ?_, htext ▸ hclosed.balanced, ?_⟩
  · simp [-bind_pure_comp, forClass, hd.isClass, methods, hgs, Except.bind]
  · rw [result_scan, hannotated, hscan, ← hsignatures,
      List.map_map]
    rfl

/-- A class with one method and an envelope, generated with a prefix of word characters. -/
theorem scan_forClass_pages :
    let o : Options := { implPrefix := .str "Json".toText }
    let d : Declaration := {
      name := .str "Pages".toText
      methods := [pageSignature.toMethod true, pageSignature.toMethod false]
      envelope := some { wrapper := .str "Page".toText } }
    o.Plain ∧ nameFor o d.name ≠ [] ∧ d.PlainFor (nameFor o d.name)
      ∧ ∃ text, (forClass d o).result = .ok text ∧ Balanced text
        ∧ (scan ("@JsonToModel()\n".toText ++ text) .null).result = .ok [{
          name := .str "JsonPages".toText
          methods := [pageSignature.toMethod false]
          envelope := some .plain
          isAbstract := false }] := by
  intro o d
  have ho : o.Plain := by
    refine ⟨⟨"Json".toText, rfl, by decide⟩, ⟨"fromJson".toText, rfl, by decide⟩, ?_⟩
    exact ⟨"data".toText, rfl, by decide⟩
  have hname : nameFor o d.name ≠ [] := by
    show "Json".toText ++ "Pages".toText ≠ []
    decide
  have hfactory : ∃ w : Word, d.envelopeOrPlain.factory = .str w.text :=
    ⟨⟨"fromJson".toText, by decide, by decide⟩, rfl⟩
  have hplain : (pageSignature.toMethod true).PlainFor (nameFor o d.name) := by
    refine ⟨pageSignature, rfl, by simp [PlainSignature.parameters, PlainSignature.group,
      PlainSignature.notRequired, pageSignature], ?_, ?_⟩
    · show "load".toText ≠ "Json".toText ++ "Pages".toText
      decide
    · show ("Json".toText ++ "Pages".toText ++ [.ofChar '.'] : Text).isPrefixOf
          pageSignature.returnType.text = false
      decide
  have hd : d.PlainFor (nameFor o d.name) := by
    refine ⟨by decide, ⟨"Pages".toText, rfl, by decide⟩, hfactory, fun m hm habstract => ?_⟩
    rcases List.mem_cons.1 hm with rfl | hm
    · exact hplain
    · rw [List.mem_singleton.1 hm] at habstract
      cases habstract
  refine ⟨ho, hname, hd, ?_⟩
  obtain ⟨text, hgenerated, hbalanced, hscanned⟩ := scan_forClass ho hname hd .null
  refine ⟨text, hgenerated, hbalanced, hscanned.trans ?_⟩
  rfl

end Implementation

end DartDecoders
