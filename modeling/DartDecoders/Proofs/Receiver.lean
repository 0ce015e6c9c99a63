/-
The receiver of a generated call.

The body of a generated method calls a factory of the declared return type, without its marks and
the future around it. That type is not copied: the classification takes the wrapper's name, an item
or the raw arguments out of the text, and the statement puts brackets around them again. On the tree
both are one equation. A generic type is its name with its arguments in brackets (`render_generic`),
and the item of a list determines the text of the list (`render_of_itemOfList?`), so what was taken
apart is what is put together (`builds_statement`). Only the body for a list has no receiver, and
there the item determines the whole type.
-/
import DartDecoders.Proofs.GeneratedBody

set_option autoImplicit false

namespace DartDecoders

open Text

namespace TypeExpr

/-! ## Lists by their items -/

/-- The list type of an item. -/
def listOf (item : Text) : Text :=
  Shape.listOpening ++ item ++ [.ofChar '>']

/-- A generic type is its name with its arguments in brackets. -/
theorem render_generic {e : TypeExpr} (h : e.isGeneric = true) :
    render false e = e.name ++ .ofChar '<' :: renderArgs false e.args ++ [.ofChar '>'] := by
  obtain ⟨name, args, nullable, argsText⟩ := e
  have hsome : argsText.isSome = true := h
  rw [render_node, bracketText, if_pos hsome]
  simp [nullText, TypeExpr.name, TypeExpr.args]

/-- A type without arguments is its name. -/
theorem render_of_bareName? {e : TypeExpr} (h : wellFormed e = true) {item : Text}
    (hitem : bareName? e = some item) : render false e = item := by
  obtain ⟨name, args, nullable, argsText⟩ := e
  cases args with
  | cons arg rest => cases hitem
  | nil =>
      obtain ⟨-, hbrackets, -⟩ := wellFormed_node.1 h
      have hnone : ¬ argsText.isSome = true := by simp [hbrackets]
      have hname : name = item := Option.some.inj hitem
      rw [render_node, bracketText, if_neg hnone, hname]
      simp [nullText]

/-- A type with one argument has brackets around it. -/
theorem render_of_one {name : Text} {arg : TypeExpr} {nullable : Bool} {argsText : Option Text}
    (h : wellFormed (.node name [arg] nullable argsText) = true) :
    render false (.node name [arg] nullable argsText)
      = name ++ .ofChar '<' :: render false arg ++ [.ofChar '>'] := by
  obtain ⟨-, hbrackets, -⟩ := wellFormed_node.1 h
  have hgeneric : isGeneric (.node name [arg] nullable argsText) = true := by
    rw [isGeneric, TypeExpr.argsText, hbrackets]
    rfl
  rw [render_generic hgeneric]
  simp only [TypeExpr.name, TypeExpr.args, renderArgs]

theorem render_of_itemOfList? {e : TypeExpr} (h : wellFormed e = true) {item : Text}
    (hitem : itemOfList? e = some item) : render false e = listOf item := by
  obtain ⟨name, args, nullable, argsText⟩ := e
  rcases args with - | ⟨arg, - | ⟨next, rest⟩⟩
  · cases hitem
  · rw [itemOfList?] at hitem
    split at hitem
    · next hname =>
        rw [render_of_one h, render_of_bareName? (wellFormed_arg h) hitem, hname]
        simp [listOf, Shape.listOpening]
    · cases hitem
  · cases hitem

theorem render_of_itemOfLists? {e : TypeExpr} (h : wellFormed e = true) {item : Text}
    (hitem : itemOfLists? e = some item) : render false e = listOf (listOf item) := by
  obtain ⟨name, args, nullable, argsText⟩ := e
  rcases args with - | ⟨arg, - | ⟨next, rest⟩⟩
  · cases hitem
  · rw [itemOfLists?] at hitem
    split at hitem
    · next hname =>
        rw [render_of_one h, render_of_itemOfList? (wellFormed_arg h) hitem, hname]
        simp [listOf, Shape.listOpening]
    · cases hitem
  · cases hitem

/-- The only argument of a type, when it is a list with an item. -/
theorem renderArgs_of_itemOfArgument? {e : TypeExpr} (h : wellFormed e = true) {item : Text}
    (hitem : itemOfArgument? e = some item) : renderArgs false e.args = listOf item := by
  obtain ⟨name, args, nullable, argsText⟩ := e
  rcases args with - | ⟨arg, - | ⟨next, rest⟩⟩
  · cases hitem
  · rw [TypeExpr.args, renderArgs]
    exact render_of_itemOfList? (wellFormed_arg h) hitem
  · cases hitem

end TypeExpr

open TypeExpr

/-! ## Bodies by their shapes -/

namespace Shape

/-- The rules on a type without marks, with the texts that the shape carries. -/
theorem ofType_unmarked (envelope : Envelope) (e : TypeExpr) :
    ofType envelope (unmarked e) =
      if envelope.wraps e then
        match itemOfArgument? e with
        | some item => .wrappedList item
        | none => .wrappedModel (renderArgs false e.args)
      else
        match (itemOfLists? e).or (itemOfList? e) with
        | some item => .directList item
        | none => .directModel (render false e) := by
  have hrules := ofType.eq_def envelope (unmarked e)
  rw [wraps_unmarked, itemOfArgument?_unmarked, itemOfLists?_unmarked, itemOfList?_unmarked,
    render_unmarked, ← renderArgs_eq_join, args_unmarked, renderArgs_unmarkedArgs] at hrules
  exact hrules

/-- The body builds the type: it starts with a call of the type's factory, which is that of the
envelope when the result is wrapped and that of items otherwise. For a list the type is the list of
the item, or a list of such lists. -/
def Builds (shape : Shape) (type : Text) (envelope : Envelope) (o : Options) (body : Text) :
    Prop :=
  match shape with
  | .wrappedList _ | .wrappedModel _ =>
    "return ".toText ++ type ++ .ofChar '.' :: envelope.factory.display <+: body
  | .directModel _ => "return ".toText ++ type ++ .ofChar '.' :: o.itemFactory.display <+: body
  | .directList item => type = listOf item ∨ type = listOf (listOf item)

/-- The call of a wrapper's factory has the wrapper with its contents for the receiver. -/
theorem prefix_wrapperCall (envelope : Envelope) (contents input decoded : Text) :
    "return ".toText ++ (envelope.wrapper.display ++ .ofChar '<' :: contents ++ [.ofChar '>'])
      ++ .ofChar '.' :: envelope.factory.display
      <+: Body.wrapperCall envelope contents input decoded := by
  unfold Body.wrapperCall
  simp only [List.append_assoc, List.cons_append, List.prefix_append_right_inj,
    List.cons_prefix_cons, true_and]
  apply (List.prefix_append_right_inj ">.".toText).2
  exact List.prefix_append _ _

/-- The call of a model's factory has the model for the receiver. -/
theorem prefix_modelCall (name input : Text) (factory : Json) :
    "return ".toText ++ name ++ .ofChar '.' :: factory.display
      <+: "return ".toText ++ name ++ .ofChar '.' :: factory.display ++ .ofChar '(' :: input
        ++ ");".toText := by
  simp only [List.append_assoc]
  apply (List.prefix_append_right_inj _).2
  apply (List.prefix_append_right_inj _).2
  exact List.prefix_append _ _

/-- The statement for the shape of a type builds the type. -/
theorem builds_statement {e : TypeExpr} (h : wellFormed e = true) (envelope : Envelope)
    (o : Options) (input : Text) (primitives : List Json) :
    (ofType envelope (unmarked e)).Builds (render false e) envelope o
      (Body.statement (ofType envelope (unmarked e)) input primitives envelope o) := by
  rw [ofType_unmarked]
  by_cases hwraps : envelope.wraps e = true
  · have hgeneric : render false e
        = envelope.wrapper.display ++ .ofChar '<' :: renderArgs false e.args ++ [.ofChar '>'] := by
      rw [render_generic (isGeneric_of_wraps hwraps), wrapper_of_wraps hwraps]
    rw [if_pos hwraps]
    cases hitem : itemOfArgument? e with
    | some item =>
        have hargs := renderArgs_of_itemOfArgument? h hitem
        show _ <+: Body.wrapperCall envelope (listOf item) _ _
        rw [hgeneric, hargs]
        exact prefix_wrapperCall envelope _ _ _
    | none =>
        show _ <+: Body.wrapperCall envelope (renderArgs false e.args) _ _
        rw [hgeneric]
        exact prefix_wrapperCall envelope _ _ _
  · rw [if_neg hwraps]
    cases hitem : (itemOfLists? e).or (itemOfList? e) with
    | none => exact prefix_modelCall (render false e) input o.itemFactory
    -- the item came from a list of lists when there is one, otherwise from the list itself
    | some item =>
        rcases Option.or_eq_some_iff.1 hitem with hlists | ⟨-, hlist⟩
        · exact .inr (render_of_itemOfLists? h hlists)
        · exact .inl (render_of_itemOfList? h hlist)

end Shape

namespace Body

/-- A method with a parameter has an input. -/
theorem exists_inputOf {m : Method} (h : m.parameters ≠ []) :
    ∃ input, inputOf m = .ok input := by
  obtain ⟨first, rest, hparameters⟩ := List.exists_cons_of_ne_nil h
  rw [inputOf, hparameters]
  dsimp only
  split
  · exact ⟨_, rfl⟩
  · exact ⟨_, rfl⟩

/-- There is a body for every shape when there is an input and the factory of the envelope has a
name. -/
theorem exists_emit {m : Method} (h : m.parameters ≠ []) {envelope : Envelope}
    (hfactory : envelope.factory.isTruthy = true) (shape : Shape) (o : Options) :
    ∃ input, ∀ primitives, (emit m (some shape) primitives envelope o).result
      = .ok (statement shape input primitives envelope o) := by
  obtain ⟨input, hinput⟩ := exists_inputOf h
  refine ⟨input.display, fun primitives => ?_⟩
  simp [-bind_pure_comp, emit, hinput, hfactory, Except.bind]

end Body

namespace Implementation

/-- **The generated receiver is the declared type.** For every well-formed return type, however deep
and however its nodes are marked, every envelope whose factory has a name, all options and every
method with a parameter: a body is emitted, whatever the primitive types, and it builds the return
type without marks and without the future around it. The method that is generated has such a body.
-/
theorem methodFor_builds {e : TypeExpr} (h : e.wellFormed = true) (envelope : Envelope)
    (hfactory : envelope.factory.isTruthy = true) (o : Options) {m : Method}
    (htype : m.returnType = .str (e.render true)) (hparameters : m.parameters ≠ []) :
    (∀ primitives, ∃ body,
      (Body.emit m (some (Shape.classify (e.render true) envelope)) primitives envelope o).result
          = .ok body
        ∧ (Shape.classify (e.render true) envelope).Builds
          ((awaited (unmarked e)).render true) envelope o body)
      ∧ ∃ g, (methodFor m envelope o).result = .ok g ∧ g.signature = m
        ∧ g.shape = Shape.classify (e.render true) envelope
        ∧ g.shape.Builds ((awaited (unmarked e)).render true) envelope o g.body := by
  have hshape : Shape.classify (e.render true) envelope
      = Shape.ofType envelope (unmarked (awaited e)) := by
    rw [Shape.classify_render e h envelope, awaited_unmarked]
  have hreceiver : (awaited (unmarked e)).render true = render false (awaited e) := by
    rw [awaited_unmarked, render_unmarked]
  obtain ⟨input, hemit⟩ := Body.exists_emit hparameters hfactory
    (Shape.classify (e.render true) envelope) o
  have hbuilds : ∀ primitives, (Shape.classify (e.render true) envelope).Builds
      ((awaited (unmarked e)).render true) envelope o
      (Body.statement (Shape.classify (e.render true) envelope) input primitives envelope o) := by
    intro primitives
    rw [hreceiver, hshape]
    exact Shape.builds_statement (wellFormed_awaited h) envelope o input primitives
  refine ⟨fun primitives => ⟨_, hemit primitives, hbuilds primitives⟩,
    ⟨m, Shape.classify (e.render true) envelope, Body.statement
      (Shape.classify (e.render true) envelope) input o.activePrimitives envelope o⟩,
    ?_, rfl, rfl, hbuilds o.activePrimitives⟩
  have hclassified : (Shape.report m.returnType envelope).result
      = .ok (Shape.classify (e.render true) envelope) := by
    simp [Shape.report, htype, Shape.classifyValue, Except.bind, Stack.parseType?_unbounded]
  have hbody := hemit o.activePrimitives
  simp [-bind_pure_comp, methodFor, bodyOf, hclassified, hbody, Except.bind]

/-- The return type of `taskPages`: a nullable future of a wrapper around a list with a nullable
item. -/
def taskPagesType : TypeExpr :=
  .node futureName [.node "Page".toText [.node listName [.node "Task".toText [] true none] false
    (some [])] true (some [])] true (some [])

/-- A method with such a return type. -/
def taskPages : Method where
  name := .str "taskPages".toText
  returnType := .str (taskPagesType.render true)
  parameters := [{ typeText := .str "Map<String, dynamic>".toText, name := .str "json".toText }]

/-- There the wrapper with its list is called. -/
theorem methodFor_builds_pages :
    taskPagesType.wellFormed = true ∧ (.str defaultFactory : Json).isTruthy = true
      ∧ taskPages.parameters ≠ []
      ∧ ∃ g, (methodFor taskPages { wrapper := .str "Page".toText } .standard).result = .ok g
        ∧ "return Page<List<Task>>.fromJson".toText <+: g.body := by
  have hformed : taskPagesType.wellFormed = true := by decide
  have hnamed : (.str defaultFactory : Json).isTruthy = true := by decide
  have hparameters : taskPages.parameters ≠ [] := by simp [taskPages]
  refine ⟨hformed, hnamed, hparameters, ?_⟩
  obtain ⟨g, hg, -, hshape, hbuilds⟩ := (methodFor_builds hformed
    { wrapper := .str "Page".toText } hnamed .standard (m := taskPages) rfl hparameters).2
  refine ⟨g, hg, ?_⟩
  have hwrapped : Shape.classify (taskPagesType.render true) { wrapper := .str "Page".toText }
      = .wrappedList "Task".toText := Shape.classify_render taskPagesType hformed _
  rw [hshape, hwrapped] at hbuilds
  exact hbuilds

end Implementation

end DartDecoders
