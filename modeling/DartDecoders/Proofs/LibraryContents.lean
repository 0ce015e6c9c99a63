/-
The contents of a library.

What a library holds, and the error it ends with, is decided by the overrides that it asks for: the
abstract methods of its annotated classes, in the order of the declarations and, in a class, of its
methods. One override has either its error or its block, a class has the error of its first bad
override or its text, and a library the same over all classes (`outcome`), so the first bad override
of the library decides (`generate_outcome`). Nothing else in the declarations counts: entries that
ask for no override can be put in and taken out anywhere (`Drops`).
-/
import Mathlib.Logic.Relation
import DartDecoders.Proofs.Libraries

set_option autoImplicit false

namespace DartDecoders

/-! ## Overrides -/

/-- A method to implement, with the envelope of its class. -/
structure Override where
  method : Method
  envelope : Envelope

namespace Override

/-- How the result is decoded. -/
def shape (v : Override) : Shape :=
  Shape.classify v.method.returnType.display v.envelope

/-- There is no parameter to decode from, or the result is wrapped and the factory of the wrapper
has no name. -/
def isBad (v : Override) : Bool :=
  v.method.parameters.isEmpty || (v.shape.wrapped && !v.envelope.factory.isTruthy)

/-- The error of a bad override, which names the method. A missing parameter comes before a missing
factory. -/
def error (v : Override) : GenerationError :=
  if v.method.parameters.isEmpty then .nothingToDecode v.method.name
  else .factoryMissing v.method.name v.envelope.wrapper

/-- A missing parameter is an error of the signature, a missing factory one of the configuration. -/
theorem kind_error (v : Override) :
    v.error.kind = if v.method.parameters.isEmpty then .signature else .configuration := by
  unfold error
  split <;> rfl

/-- The name of the parameter to decode from: the one named `json`, or else the first. -/
def input (v : Override) : Text :=
  match v.method.parameters with
  | [] => []
  | first :: rest =>
    (((first :: rest).find? fun p => p.name.same (.str "json".toText)).getD first).name.display

/-- The statement that decodes the result. -/
def body (o : Options) (v : Override) : Text :=
  Body.statement v.shape v.input o.activePrimitives v.envelope o

/-- The method with its annotation, as it stands in a class. -/
def block (o : Options) (v : Override) : Text :=
  "  @override\n  ".toText ++ v.method.render ++ " \x7b\n    ".toText ++ v.body o
    ++ "\n  \x7d\n".toText

/-- The method that is generated. -/
def generated (o : Options) (v : Override) : GeneratedMethod :=
  ⟨v.method, v.shape, v.body o⟩

theorem source_generated (o : Options) (v : Override) : (v.generated o).source = v.block o := rfl

/-- The return type is a text. -/
def Typed (v : Override) : Prop :=
  ∃ t, v.method.returnType = .str t

end Override

/-- The error of the first bad override, the value when none is bad. -/
def outcome {α : Type} (vs : List Override) (value : α) : Except Fault α :=
  match vs.find? Override.isBad with
  | some v => .error (.reported v.error)
  | none => .ok value

section Outcome

variable {α β : Type}

theorem outcome_of_isBad {v : Override} (h : v.isBad = true) (value : α) :
    outcome [v] value = .error (.reported v.error) := by
  rw [outcome, List.find?_cons_of_pos h]

theorem outcome_of_not_isBad {v : Override} (h : v.isBad = false) (value : α) :
    outcome [v] value = .ok value := by
  rw [outcome, List.find?_cons_of_neg (by simp [h]), List.find?_nil]

theorem map_outcome (vs : List Override) (value : α) (use : α → β) :
    (outcome vs value).map use = outcome vs (use value) := by
  unfold outcome
  split <;> rfl

/-- When the overrides of each item decide on it, those of all items in their order decide on the
list. -/
theorem mapM_outcome {read : α → Except Fault β} {parts : α → List Override} {value : α → β}
    {items : List α} (h : ∀ x ∈ items, read x = outcome (parts x) (value x)) :
    items.mapM read = outcome (items.flatMap parts) (items.map value) := by
  induction items with
  | nil => rfl
  | cons x rest ih =>
      obtain ⟨hx, hrest⟩ := List.forall_mem_cons.1 h
      rw [List.mapM_cons, hx, ih hrest, outcome, outcome, outcome, List.flatMap_cons,
        List.find?_append]
      -- a bad override of the first item comes before all those of the others
      cases (parts x).find? Override.isBad with
      | some v => rfl
      | none => cases (rest.flatMap parts).find? Override.isBad <;> rfl

end Outcome

/-! ## Methods -/

namespace Body

theorem inputOf_of_isEmpty {m : Method} (h : m.parameters.isEmpty = true) :
    inputOf m = .error (.reported (.nothingToDecode m.name)) := by
  rw [inputOf, List.isEmpty_iff.1 h]

/-- A method with a parameter has an input, which is known by its name. -/
theorem exists_inputOf_display {v : Override} (h : v.method.parameters.isEmpty = false) :
    ∃ input, inputOf v.method = .ok input ∧ input.display = v.input := by
  unfold inputOf Override.input
  cases hparameters : v.method.parameters with
  | nil => simp [hparameters] at h
  | cons first rest =>
      have hname : "json".toText = inputName := rfl
      rw [hname]
      dsimp only
      cases (first :: rest).find? fun p => p.name.same (.str inputName) with
      | some p => exact ⟨p.name, rfl, rfl⟩
      | none => exact ⟨first.name, rfl, rfl⟩

/-- A body is emitted unless the override is bad. -/
theorem result_emit_outcome (v : Override) (o : Options) :
    (emit v.method (some v.shape) o.activePrimitives v.envelope o).result
      = outcome [v] (v.body o) := by
  rw [result_emit]
  -- the input is looked for before the factory is checked
  cases hparameters : v.method.parameters.isEmpty with
  | true =>
      have hbad : v.isBad = true := by rw [Override.isBad, hparameters, Bool.true_or]
      rw [inputOf_of_isEmpty hparameters, outcome_of_isBad hbad, Override.error, if_pos hparameters]
      rfl
  | false =>
      obtain ⟨input, hinput, hdisplay⟩ := exists_inputOf_display hparameters
      have hisBad : v.isBad = (v.shape.wrapped && !v.envelope.factory.isTruthy) := by
        rw [Override.isBad, hparameters, Bool.false_or]
      rw [hinput, Except.bind, ← hisBad, hdisplay]
      by_cases hbad : v.isBad = true
      · rw [if_pos hbad, outcome_of_isBad hbad, Override.error, hparameters,
          if_neg Bool.false_ne_true]
      · rw [if_neg hbad, outcome_of_not_isBad (Bool.not_eq_true _ ▸ hbad), Override.body]

end Body

namespace Implementation

variable {o : Options}

/-- An abstract method with a text for its return type is generated unless it is bad. -/
theorem result_methodFor_outcome {v : Override} (htyped : v.Typed) :
    (methodFor v.method v.envelope o).result = outcome [v] (v.generated o) := by
  have hshape : Shape.classifyValue v.method.returnType v.envelope = .ok v.shape := by
    obtain ⟨t, ht⟩ := htyped
    rw [Override.shape, ht]
    rfl
  rw [result_methodFor, Stack.parseType?_unbounded, hshape]
  show (bodyOf _ _ _ _).result.map _ = _
  rw [bodyOf, Body.result_emit_outcome]
  exact map_outcome [v] (v.body o) (GeneratedMethod.mk v.method v.shape)

end Implementation

/-! ## Classes -/

namespace Declaration

/-- Whether the generator implements the declaration. -/
def isTarget (d : Declaration) : Bool :=
  d.isAnnotated && d.isClass

/-- What an implementation overrides: the abstract methods in their order. -/
def overrides (d : Declaration) : List Override :=
  (d.methods.filter (·.isAbstract)).map (⟨·, d.envelopeOrPlain⟩)

/-- The implementation of the class, with a block for each override. -/
def implementation (o : Options) (d : Declaration) : Text :=
  "class ".toText ++ (o.implPrefix.display ++ d.name.display) ++ " implements ".toText
    ++ d.name.display ++ " \x7b\n".toText ++ d.overrides.flatMap (·.block o) ++ "\x7d\n".toText

end Declaration

namespace Implementation

variable {o : Options}

theorem classText_generated (d : Declaration) :
    classText o d.name (d.overrides.map (·.generated o)) = d.implementation o := by
  have hblocks : (d.overrides.map (·.generated o)).flatMap GeneratedMethod.source
      = d.overrides.flatMap (·.block o) := by
    simp only [List.flatMap_map, Override.source_generated]
  unfold classText nameFor Declaration.implementation
  rw [hblocks]

/-- What becomes of an annotated class: its implementation, or the fault of its methods. -/
def answer (o : Options) (d : Declaration) : Except Fault Text :=
  (methods d o).result.map (classText o d.name)

/-- A class with typed abstract methods is implemented unless one of them is bad. -/
theorem answer_eq_outcome {d : Declaration} (htyped : ∀ v ∈ d.overrides, v.Typed) :
    answer o d = outcome d.overrides (d.implementation o) := by
  have hmethods : (methods d o).result
      = d.overrides.mapM fun v => (methodFor v.method v.envelope o).result := by
    rw [methods, result_methodsFor, Declaration.overrides, List.mapM_map]
    rfl
  have heach : ∀ v ∈ d.overrides,
      (methodFor v.method v.envelope o).result = outcome [v] (v.generated o) :=
    fun v hv => result_methodFor_outcome (htyped v hv)
  rw [answer, hmethods, mapM_outcome heach, ← List.map_eq_flatMap, List.map_id', map_outcome,
    classText_generated]

/-- An implementation has a text. -/
theorem ne_nil_of_answer {d : Declaration} {t : Text} (h : answer o d = .ok t) : t ≠ [] := by
  unfold answer at h
  cases hmethods : (methods d o).result with
  | error f => simp [hmethods, Except.map] at h
  | ok gs =>
      rw [hmethods] at h
      obtain rfl := Except.ok.inj h
      exact List.append_ne_nil_of_right_ne_nil _ (by decide)

theorem result_forAnnotated_eq_answer (d : Declaration) :
    (forAnnotated d o).result = if d.isTarget then answer o d else .ok [] :=
  result_forAnnotated d o .unbounded

/-- The implementations of a list of declarations are those of its annotated classes. -/
theorem mapM_forAnnotated (ds : List Declaration) :
    (ds.mapM fun d => (forAnnotated d o).result).map (List.filter fun text => !text.isEmpty)
      = (ds.filter (·.isTarget)).mapM (answer o) := by
  induction ds with
  | nil => rfl
  | cons d rest ih =>
      rw [List.mapM_cons, result_forAnnotated_eq_answer]
      by_cases htarget : d.isTarget = true
      · rw [if_pos htarget, List.filter_cons_of_pos htarget, List.mapM_cons, ← ih]
        cases hanswer : answer o d with
        | error f => rfl
        | ok t =>
            -- no implementation is lost among the empty texts
            have hkept : (!t.isEmpty) = true := by simpa using ne_nil_of_answer hanswer
            cases rest.mapM fun d => (forAnnotated d o).result with
            | error f => rfl
            | ok texts =>
                exact congrArg Except.ok (List.filter_cons_of_pos hkept)
      · rw [if_neg htarget, List.filter_cons_of_neg htarget, ← ih]
        cases rest.mapM fun d => (forAnnotated d o).result <;> rfl

end Implementation

/-! ## Libraries -/

namespace Library

variable {partOf : Option Text} {o : Options}

/-- The annotated classes. -/
def targets (ds : List Declaration) : List Declaration :=
  ds.filter (·.isTarget)

/-- What a library overrides, class by class. -/
def overrides (ds : List Declaration) : List Override :=
  (targets ds).flatMap (·.overrides)

/-- The line that names the source, when there is one to name. -/
def sourceLine (partOf : Option Text) : Text :=
  match partOf with
  | none | some [] => []
  | some path => "part of '".toText ++ path ++ "';\n\n".toText

/-- The line above and below the generator's name. -/
def banner : Text :=
  "// ".toText ++ List.replicate 74 (.ofChar '*') ++ [.ofChar '\n']

/-- The library text: nothing without an annotated class, otherwise the header and the
implementations of the annotated classes in their order. -/
def contents (partOf : Option Text) (o : Options) (ds : List Declaration) : Text :=
  if (targets ds).isEmpty then []
  else
    "// GENERATED CODE - DO NOT MODIFY BY HAND".toText ++ [.ofChar '\n', .ofChar '\n']
      ++ sourceLine partOf ++ banner ++ "// ".toText ++ "Json2ModelGenerator".toText
      ++ [.ofChar '\n'] ++ banner ++ [.ofChar '\n']
      ++ Text.join ['\n'] ((targets ds).map (·.implementation o))

/-- A library with an annotated class is not empty. -/
theorem contents_eq_nil_iff (ds : List Declaration) :
    contents partOf o ds = [] ↔ ∀ d ∈ ds, d.isTarget = false := by
  have htargets : (targets ds).isEmpty = true ↔ ∀ d ∈ ds, d.isTarget = false := by
    simp [targets]
  rw [contents, ← htargets]
  by_cases hempty : (targets ds).isEmpty = true
  · rw [if_pos hempty]
    exact iff_of_true rfl hempty
  · rw [if_neg hempty]
    refine iff_of_false ?_ hempty
    simp only [List.append_assoc]
    exact List.append_ne_nil_of_left_ne_nil (by decide) _

theorem result_generate_targets (ds : List Declaration) :
    (generate ds partOf o).result
      = ((targets ds).mapM (Implementation.answer o)).map (textOf partOf) := by
  rw [targets, ← Implementation.mapM_forAnnotated, result_generate]
  cases ds.mapM fun d => (Implementation.forAnnotated d o).result <;> rfl

theorem textOf_implementations (ds : List Declaration) :
    textOf partOf ((targets ds).map (·.implementation o)) = contents partOf o ds := by
  have hsource : sourceLine partOf = partDirective partOf := by
    rcases partOf with - | - | ⟨c, path⟩ <;> rfl
  rw [contents, hsource]
  cases targets ds with
  | nil => rfl
  | cons d rest =>
      rw [List.isEmpty_cons, if_neg Bool.false_ne_true, List.map_cons]
      unfold textOf header generatorName rule banner
      simp only [List.append_assoc, List.cons_append, List.nil_append]

/-- The first bad override decides on the library. -/
theorem generate_outcome {ds : List Declaration} (htyped : ∀ v ∈ overrides ds, v.Typed) :
    (generate ds partOf o).result = outcome (overrides ds) (contents partOf o ds) := by
  have heach : ∀ d ∈ targets ds,
      Implementation.answer o d = outcome d.overrides (d.implementation o) := fun d hd =>
    Implementation.answer_eq_outcome fun v hv => htyped v (List.mem_flatMap.2 ⟨d, hd, hv⟩)
  rw [result_generate_targets, mapM_outcome heach, map_outcome, textOf_implementations]
  rfl

/-! ## What does not count -/

/-- One entry that asks for no override is dropped: a declaration that is no annotated class, or a
concrete method of any declaration. -/
inductive Drops : List Declaration → List Declaration → Prop where
  | declaration (before : List Declaration) (d : Declaration) (after : List Declaration)
      (h : d.isTarget = false) : Drops (before ++ d :: after) (before ++ after)
  | method (before : List Declaration) (d : Declaration) (after : List Declaration)
      (first : List Method) (m : Method) (rest : List Method)
      (hmethods : d.methods = first ++ m :: rest) (h : m.isAbstract = false) :
      Drops (before ++ d :: after) (before ++ { d with methods := first ++ rest } :: after)

/-- A concrete method changes nothing about its class. -/
theorem answer_of_concrete {d : Declaration} {first : List Method} {m : Method}
    {rest : List Method} (hmethods : d.methods = first ++ m :: rest) (h : m.isAbstract = false) :
    Implementation.answer o { d with methods := first ++ rest } = Implementation.answer o d := by
  have habstract : (first ++ m :: rest).filter (·.isAbstract)
      = (first ++ rest).filter (·.isAbstract) := by
    rw [List.filter_append, List.filter_append, List.filter_cons_of_neg (by simp [h])]
  rw [Implementation.answer, Implementation.answer, Implementation.methods,
    Implementation.methods, Implementation.result_methodsFor, Implementation.result_methodsFor,
    hmethods, habstract]
  rfl

/-- The annotated classes keep what becomes of them. -/
theorem Drops.map_answer {ds es : List Declaration} (h : Drops ds es) (o : Options) :
    (targets ds).map (Implementation.answer o) = (targets es).map (Implementation.answer o) := by
  cases h with
  | declaration before d after h =>
      rw [targets, targets, List.filter_append, List.filter_append,
        List.filter_cons_of_neg (by simp [h])]
  | method before d after first m rest hmethods h =>
      have htarget : ({ d with methods := first ++ rest } : Declaration).isTarget = d.isTarget :=
        rfl
      have hanswer := answer_of_concrete (o := o) hmethods h
      simp only [targets, List.filter_append, List.filter_cons, htarget, List.map_append]
      split
      · simp only [List.map_cons, hanswer]
      · rfl

theorem Drops.result_generate {ds es : List Declaration} (h : Drops ds es) :
    (generate ds partOf o).result = (generate es partOf o).result := by
  -- a library is known from the answers alone, not from the declarations that gave them
  have hanswers : ∀ fs : List Declaration, (targets fs).mapM (Implementation.answer o)
      = ((targets fs).map (Implementation.answer o)).mapM id := by
    intro fs
    rw [List.mapM_map]
    rfl
  rw [result_generate_targets, result_generate_targets, hanswers, hanswers, h.map_answer]

/-- Entries may be dropped and added any number of times. -/
theorem result_generate_of_eqvGen {ds es : List Declaration} (h : Relation.EqvGen Drops ds es) :
    (generate ds partOf o).result = (generate es partOf o).result := by
  induction h with
  | rel ds es h => exact h.result_generate
  | refl ds => rfl
  | symm ds es _ ih => exact ih.symm
  | trans ds es fs _ _ hfirst hsecond => exact hfirst.trans hsecond

/-- **The first bad override decides on a library, and nothing else in it counts.** For all
declarations whose abstract methods in annotated classes have texts for return types, every source
name and all options: a library ends with the error of the first bad override, in the order of the
declarations and of the methods in them; without a bad override it is generated, and its text is
empty exactly when there is no annotated class. Dropping or adding, anywhere and any number of
times, declarations that are no annotated classes and concrete methods, whatever they look like,
changes neither the error nor the text. -/
theorem generate_contents (ds : List Declaration) (partOf : Option Text) (o : Options)
    (htyped : ∀ v ∈ overrides ds, v.Typed) :
    ((generate ds partOf o).result
      = match (overrides ds).find? (·.isBad) with
        | some v => .error (.reported v.error)
        | none => .ok (contents partOf o ds))
      ∧ (contents partOf o ds = [] ↔ ∀ d ∈ ds, d.isTarget = false)
      ∧ ∀ es, Relation.EqvGen Drops ds es →
          (generate es partOf o).result = (generate ds partOf o).result :=
  ⟨generate_outcome htyped, contents_eq_nil_iff ds, fun _ h => (result_generate_of_eqvGen h).symm⟩

/-- A method of the given name and return type with the given parameters. -/
def methodNamed (name returnType : String) (parameters : List Parameter) : Method where
  name := .str name.toText
  returnType := .str returnType.toText
  parameters := parameters

/-- A parameter to decode from. -/
def jsonParameter : Parameter where
  typeText := .str "Map<String, dynamic>".toText
  name := .str "json".toText

/-- A class with three abstract methods behind a concrete one that has no type: the second returns
the wrapper, whose factory has no name, and the third has no parameter. -/
def taskApi : Declaration where
  name := .str "TaskApi".toText
  envelope := some { wrapper := .str "Page".toText, factory := .str [] }
  methods := [{ name := .str "close".toText, returnType := .null, isAbstract := false },
    methodNamed "find" "Task" [jsonParameter], methodNamed "pages" "Page<Task>" [jsonParameter],
    methodNamed "load" "Task" []]

/-- An annotated mixin with a method that has no parameter. -/
def taskMixin : Declaration where
  name := .str "TaskMixin".toText
  kind := .str "mixin".toText
  envelope := some .plain
  methods := [methodNamed "load" "Task" []]

/-- There the second method decides, with the mixin and without it. -/
theorem generate_contents_taskApi :
    (∀ v ∈ overrides [taskMixin, taskApi], v.Typed)
      ∧ (generate [taskMixin, taskApi] none .standard).result
        = .error (.reported (.factoryMissing (.str "pages".toText) (.str "Page".toText)))
      ∧ (generate [taskApi] none .standard).result
        = .error (.reported (.factoryMissing (.str "pages".toText) (.str "Page".toText))) := by
  have hoverrides : overrides [taskMixin, taskApi]
      = [⟨methodNamed "find" "Task" [jsonParameter], taskApi.envelopeOrPlain⟩,
        ⟨methodNamed "pages" "Page<Task>" [jsonParameter], taskApi.envelopeOrPlain⟩,
        ⟨methodNamed "load" "Task" [], taskApi.envelopeOrPlain⟩] := rfl
  have htyped : ∀ v ∈ overrides [taskMixin, taskApi], v.Typed := by
    rw [hoverrides]
    simp [Override.Typed, methodNamed]
  have hfind : Override.isBad
      ⟨methodNamed "find" "Task" [jsonParameter], taskApi.envelopeOrPlain⟩ = false := by
    decide +kernel
  have hpages : Override.isBad
      ⟨methodNamed "pages" "Page<Task>" [jsonParameter], taskApi.envelopeOrPlain⟩ = true := by
    decide +kernel
  have hfirst : (overrides [taskMixin, taskApi]).find? (·.isBad)
      = some ⟨methodNamed "pages" "Page<Task>" [jsonParameter], taskApi.envelopeOrPlain⟩ := by
    rw [hoverrides, List.find?_cons_of_neg (by simp [hfind]), List.find?_cons_of_pos hpages]
  obtain ⟨hresult, -, hdrops⟩ := generate_contents [taskMixin, taskApi] none .standard htyped
  have hmixed : (generate [taskMixin, taskApi] none .standard).result
      = .error (.reported (.factoryMissing (.str "pages".toText) (.str "Page".toText))) := by
    rw [hresult, hfirst]
    rfl
  exact ⟨htyped, hmixed, (hdrops [taskApi]
    (.rel _ _ (.declaration [] taskMixin [taskApi] (by decide)))).trans hmixed⟩

end Library

end DartDecoders
