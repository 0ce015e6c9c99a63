/-
The answers of the generator without its records.

The generator writes records on its way, and its answers do not depend on them. Each of its stages
has one equation: a body (`result_emit`), a method (`result_methodFor`), the abstract methods of a
class in their order (`result_methodsFor`), an annotated class (`result_forAnnotated`) and a library
(`result_generate`). A body that cannot be emitted is a reported error, and never one about the
target, so an annotated class is never passed over. What is not reported comes from a return type
that is no text, and a library ends with such a fault exactly when the first declaration that cannot
be implemented has such a method first (`generate_eq_error_iff`).
-/
import DartDecoders.Implementation
import DartDecoders.Proofs.Faults

set_option autoImplicit false

namespace DartDecoders

namespace Report

variable {α β : Type}

/-- The answers to a list are those to its items. -/
theorem result_mapM (answer : α → Report β) (items : List α) :
    (items.mapM answer).result = items.mapM fun x => (answer x).result := by
  induction items with
  | nil => rfl
  | cons x rest ih =>
      simp only [List.mapM_cons, result_bind, ih]
      cases (answer x).result with
      | error f => rfl
      | ok y => cases rest.mapM fun x => (answer x).result <;> rfl

end Report

/-- An error that is reported and is not about the target of an annotation. -/
def IsMethodError (f : Fault) : Prop :=
  ∃ e, f = .reported e ∧ e.kind ≠ .target

theorem IsStray.not_isMethodError {f : Fault} (h : IsStray f) : ¬ IsMethodError f := by
  rintro ⟨e, he, -⟩
  exact h e he

/-! ## Bodies and methods -/

namespace Body

theorem result_emit (m : Method) (shape : Shape) (primitives : List Json) (envelope : Envelope)
    (o : Options) :
    (emit m (some shape) primitives envelope o).result
      = (inputOf m).bind fun input =>
          if shape.wrapped && !envelope.factory.isTruthy then
            .error (.reported (.factoryMissing m.name envelope.wrapper))
          else .ok (statement shape input.display primitives envelope o) := by
  rw [emit, Report.result_bind, Report.result_lift]
  congr 1
  funext input
  dsimp only
  split <;> rfl

theorem inputOf_failsWith (m : Method) : FailsWith IsMethodError (inputOf m) := by
  unfold inputOf
  split
  · exact .error ⟨_, rfl, by simp [GenerationError.kind]⟩
  · split
    · exact .ok _
    · exact .ok _

theorem emit_failsWith (m : Method) (shape : Shape) (primitives : List Json) (envelope : Envelope)
    (o : Options) :
    FailsWith IsMethodError (emit m (some shape) primitives envelope o).result := by
  rw [result_emit]
  refine .bind (inputOf_failsWith m) fun input _ => ?_
  split
  · exact .error ⟨_, rfl, by simp [GenerationError.kind]⟩
  · exact .ok _

end Body

namespace Implementation

variable {envelope : Envelope} {o : Options} {stack : Stack} {f : Fault}

theorem result_methodFor (m : Method) (envelope : Envelope) (o : Options) (stack : Stack) :
    (methodFor m envelope o stack).result
      = (Shape.classifyValue m.returnType envelope stack.parseType?).bind fun shape =>
          (bodyOf m (some shape) envelope o).result.map fun body => ⟨m, shape, body⟩ := by
  unfold methodFor
  simp only [Report.result_bind, Report.result_note, Shape.report, Report.result_notes,
    Report.result_lift, Except.bind]
  cases Shape.classifyValue m.returnType envelope stack.parseType? with
  | error f => rfl
  | ok shape =>
      dsimp only
      cases (bodyOf m (some shape) envelope o).result <;> rfl

/-- Methods that are not abstract are passed over, the others are generated in their order. -/
theorem result_methodsFor (envelope : Envelope) (o : Options) (stack : Stack) (ms : List Method) :
    (methodsFor envelope o stack ms).result
      = (ms.filter (·.isAbstract)).mapM fun m => (methodFor m envelope o stack).result := by
  induction ms with
  | nil => rfl
  | cons m rest ih =>
      rw [methodsFor]
      by_cases habstract : m.isAbstract = true
      · rw [if_pos habstract, List.filter_cons_of_pos habstract, List.mapM_cons]
        simp only [Report.result_bind, ih]
        cases (methodFor m envelope o stack).result with
        | error f => rfl
        | ok g =>
            cases (rest.filter (·.isAbstract)).mapM
              fun m => (methodFor m envelope o stack).result <;> rfl
      · rw [if_neg habstract, List.filter_cons_of_neg habstract, ← ih, Report.result_bind]
        rfl

/-- The shape of a return type is wanting only when the type is no text. -/
theorem classifyValue_isStray (value : Json) (envelope : Envelope)
    (read : Text → Option TypeExpr) :
    FailsWith IsStray (Shape.classifyValue value envelope read) := by
  unfold Shape.classifyValue
  split
  · exact .ok _
  · exact .error nofun
  · exact .error nofun
  · split
    · exact .error nofun
    · exact .error nofun

/-- A fault of a method that is not reported is one of its return type. -/
theorem methodFor_eq_error_iff (hf : IsStray f) (m : Method) :
    (methodFor m envelope o stack).result = .error f
      ↔ Shape.classifyValue m.returnType envelope stack.parseType? = .error f := by
  rw [result_methodFor]
  refine FailsWith.bind_eq_error_iff_first (fun shape _ => ?_) hf.not_isMethodError
  exact .map (Body.emit_failsWith m shape o.activePrimitives envelope o) _

theorem methodFor_failsWith (m : Method) :
    FailsWith (fun f => IsStray f ∨ IsMethodError f) (methodFor m envelope o stack).result := by
  rw [result_methodFor]
  refine .bind ((classifyValue_isStray _ _ _).mono fun f => .inl) fun shape _ => ?_
  exact .map ((Body.emit_failsWith m shape o.activePrimitives envelope o).mono fun f => .inr) _

/-! ## Classes -/

theorem result_forClass (d : Declaration) (o : Options) (stack : Stack) :
    (forClass d o stack).result
      = if d.isClass then (methods d o stack).result.map (classText o d.name)
        else .error (.reported (.notAClass d.name d.kind)) := by
  unfold forClass
  by_cases hclass : d.isClass = true
  · simp only [hclass, Bool.not_true, Bool.false_eq_true, if_false, if_true, Report.result_bind,
      Report.result_note, Except.bind]
    cases (methods d o stack).result <;> rfl
  · simp [hclass]

/-- An annotated class has its implementation, or the fault of its methods; any other declaration
has an empty text. -/
theorem result_forAnnotated (d : Declaration) (o : Options) (stack : Stack) :
    (forAnnotated d o stack).result
      = if d.isAnnotated && d.isClass then (methods d o stack).result.map (classText o d.name)
        else .ok [] := by
  unfold forAnnotated
  by_cases hannotated : d.isAnnotated = true
  · simp only [hannotated, Bool.not_true, Bool.false_eq_true, if_false, Bool.true_and,
      Report.result_bind, Report.result_note, Except.bind, Report.caught, result_forClass]
    by_cases hclass : d.isClass = true
    · simp only [hclass, if_true]
      cases hmethods : (methods d o stack).result with
      | ok gs => rfl
      | error f =>
          -- no error of a method is about the target, so the class is not passed over
          have hfault : IsStray f ∨ IsMethodError f := by
            rw [methods, result_methodsFor] at hmethods
            exact FailsWith.mapM (fun m _ => methodFor_failsWith m) f hmethods
          rcases hfault with hstray | ⟨e, rfl, hkind⟩
          · cases f with
            | reported e => exact absurd rfl (hstray e)
            | _ => rfl
          · simp [Except.map, hkind]
    · simp [-bind_pure_comp, hclass, GenerationError.kind, Except.bind]
  · simp [hannotated]

/-- Of the abstract methods of an annotated class the first that cannot be generated has a return
type that is no text, with the given fault. -/
def UntypedClass (stack : Stack) (o : Options) (f : Fault) (d : Declaration) : Prop :=
  (d.isAnnotated && d.isClass) = true
    ∧ StopsAtFirst (fun m => (methodFor m d.envelopeOrPlain o stack).result)
      (fun m => Shape.classifyValue m.returnType d.envelopeOrPlain stack.parseType? = .error f)
      (d.methods.filter (·.isAbstract))

theorem UntypedClass.isStray {d : Declaration} (h : UntypedClass stack o f d) : IsStray f := by
  obtain ⟨-, before, m, after, -, -, hm⟩ := h
  exact classifyValue_isStray _ _ _ f hm

theorem forAnnotated_eq_error_iff (hf : IsStray f) (d : Declaration) :
    (forAnnotated d o stack).result = .error f ↔ UntypedClass stack o f d := by
  have hmethods : (methods d o stack).result = .error f
      ↔ StopsAtFirst (fun m => (methodFor m d.envelopeOrPlain o stack).result)
        (fun m => Shape.classifyValue m.returnType d.envelopeOrPlain stack.parseType? = .error f)
        (d.methods.filter (·.isAbstract)) := by
    rw [methods, result_methodsFor]
    exact mapM_eq_error_iff fun m _ => methodFor_eq_error_iff hf m
  rw [result_forAnnotated, UntypedClass, ← hmethods]
  by_cases hclass : (d.isAnnotated && d.isClass) = true
  · rw [if_pos hclass, map_eq_error_iff]
    exact (and_iff_right hclass).symm
  · rw [if_neg hclass]
    constructor
    · intro h
      cases h
    · rintro ⟨h, -⟩
      exact absurd h hclass

end Implementation

/-! ## Libraries -/

namespace Library

theorem result_generate (ds : List Declaration) (partOf : Option Text) (o : Options)
    (stack : Stack) :
    (generate ds partOf o stack).result
      = (ds.mapM fun d => (Implementation.forAnnotated d o stack).result).map fun texts =>
          textOf partOf (texts.filter fun text => !text.isEmpty) := by
  rw [generate, Report.result_bind, Report.result_mapM]
  cases ds.mapM fun d => (Implementation.forAnnotated d o stack).result <;> rfl

/-- A library ends with a fault that is not reported exactly when the first declaration that cannot
be implemented has a return type that is no text. -/
theorem generate_eq_error_iff {f : Fault} (hf : IsStray f) (ds : List Declaration)
    (partOf : Option Text) (o : Options) (stack : Stack) :
    (generate ds partOf o stack).result = .error f
      ↔ StopsAtFirst (fun d => (Implementation.forAnnotated d o stack).result)
        (Implementation.UntypedClass stack o f) ds := by
  rw [result_generate, map_eq_error_iff]
  exact mapM_eq_error_iff fun d _ => Implementation.forAnnotated_eq_error_iff hf d

end Library

end DartDecoders
