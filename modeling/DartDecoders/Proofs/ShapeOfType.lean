/-
Shapes by the tree of the return type.

The classification works on texts: it reads the return type, writes it without marks, reads it again
for a future, for its name and arguments and for a list, and tests how it starts. On the canonical
text of a well-formed tree all this is a case analysis on the tree: `Shape.ofType` says which, and
`classify_render` that the two agree. Every reading on the way is one of a canonical text, so
`parse?_render` answers it; what is left is that marks are cleared (`withoutMarks_render`), that one
future is looked through (`withoutFuture_render`) and that the opening of a list can only come from
the name and the bracket of the outermost node (`listOpening_isPrefixOf_render`).
-/
import DartDecoders.Proofs.CanonicalType
import DartDecoders.Shape

set_option autoImplicit false

namespace DartDecoders

namespace TypeExpr

open Text

/-! ## The rules on trees -/

mutual

/-- The type with no node nullable. -/
def unmarked : TypeExpr → TypeExpr
  | .node name args _ argsText => .node name (unmarkedArgs args) false argsText

/-- The types with no node nullable. -/
def unmarkedArgs : List TypeExpr → List TypeExpr
  | [] => []
  | arg :: rest => unmarked arg :: unmarkedArgs rest

end

/-- The argument of a future that has exactly one; any other type as it is. -/
def awaited : TypeExpr → TypeExpr
  | .node name [arg] nullable argsText =>
    if name = futureName then arg else .node name [arg] nullable argsText
  | e => e

/-- The name of a type without arguments. -/
def bareName? : TypeExpr → Option Text
  | .node name [] _ _ => some name
  | _ => none

/-- The item of a list type, when it is a bare identifier. -/
def itemOfList? : TypeExpr → Option Text
  | .node name [arg] _ _ => if name = listName then bareName? arg else none
  | _ => none

/-- The item of a list of lists, when it is a bare identifier. -/
def itemOfLists? : TypeExpr → Option Text
  | .node name [arg] _ _ => if name = listName then itemOfList? arg else none
  | _ => none

/-- The item of a type's only argument, when that is a list of a bare identifier. -/
def itemOfArgument? : TypeExpr → Option Text
  | .node _ [arg] _ _ => itemOfList? arg
  | _ => none

end TypeExpr

/-- Whether a type is the wrapper of an envelope: there is a wrapper, and the type is generic and
has its name. -/
def Envelope.wraps (envelope : Envelope) (e : TypeExpr) : Bool :=
  match envelope.wrapper with
  | .str wrapper => !wrapper.isEmpty && e.isGeneric && e.name == wrapper
  | _ => false

/-- The rules of the classification on a type without marks and future. -/
def Shape.ofType (envelope : Envelope) (e : TypeExpr) : Shape :=
  if envelope.wraps e then
    match e.itemOfArgument? with
    | some item => .wrappedList item
    | none => .wrappedModel (Text.join [',', ' '] (e.args.map (TypeExpr.render true)))
  else
    match e.itemOfLists?.or e.itemOfList? with
    | some item => .directList item
    | none => .directModel (e.render true)

namespace TypeExpr

open Text

/-! ## Types without marks -/

theorem renderArgs_eq_join (marks : Bool) (args : List TypeExpr) :
    renderArgs marks args = join [',', ' '] (args.map (render marks)) := by
  induction args with
  | nil => rw [renderArgs]; rfl
  | cons arg rest ih =>
      cases rest with
      | nil => simp [renderArgs, join]
      | cons next rest =>
          rw [renderArgs_cons, ih]
          simp [join, List.intercalate]

mutual

/-- The canonical text of a type without nullable nodes is that of the type without its marks. -/
theorem render_unmarked (marks : Bool) : ∀ e : TypeExpr,
    render marks (unmarked e) = render false e
  | .node name args nullable argsText => by
    rw [unmarked, render_node, render_node, bracketText, bracketText,
      renderArgs_unmarkedArgs marks args]
    simp [nullText]

theorem renderArgs_unmarkedArgs (marks : Bool) : ∀ args : List TypeExpr,
    renderArgs marks (unmarkedArgs args) = renderArgs false args
  | [] => by rw [unmarkedArgs, renderArgs, renderArgs]
  | [arg] => by
    rw [unmarkedArgs, unmarkedArgs, renderArgs, renderArgs, render_unmarked marks arg]
  | arg :: next :: rest => by
    have ih := renderArgs_unmarkedArgs marks (next :: rest)
    rw [unmarkedArgs] at ih
    rw [unmarkedArgs, unmarkedArgs, renderArgs_cons, renderArgs_cons, render_unmarked marks arg, ih]

end

mutual

/-- A canonical text without a question mark is also the text without marks. -/
theorem render_true_of_not_mem : ∀ e : TypeExpr, .ofChar '?' ∉ render true e →
    render true e = render false e
  | .node name args nullable argsText, h => by
    rw [render_node] at h
    simp only [List.mem_append, not_or] at h
    obtain ⟨-, hbrackets, hnull⟩ := h
    have hargs : bracketText true args argsText = bracketText false args argsText := by
      rw [bracketText] at hbrackets
      rw [bracketText, bracketText]
      split
      · next hsome =>
          rw [if_pos hsome] at hbrackets
          rw [renderArgs_true_of_not_mem args fun hmem => hbrackets (by simp [hmem])]
      · rfl
    have hmark : nullText true nullable = nullText false nullable := by
      cases nullable with
      | false => rfl
      | true => exact absurd (by simp [nullText]) hnull
    rw [render_node, render_node, hargs, hmark]

theorem renderArgs_true_of_not_mem : ∀ args : List TypeExpr, .ofChar '?' ∉ renderArgs true args →
    renderArgs true args = renderArgs false args
  | [], _ => by rw [renderArgs, renderArgs]
  | [arg], h => by
    rw [renderArgs] at h
    rw [renderArgs, renderArgs, render_true_of_not_mem arg h]
  | arg :: next :: rest, h => by
    rw [renderArgs_cons] at h
    simp only [List.mem_append, List.mem_cons, not_or] at h
    rw [renderArgs_cons, renderArgs_cons, render_true_of_not_mem arg h.1,
      renderArgs_true_of_not_mem (next :: rest) h.2.2.2]

end

mutual

/-- The canonical tree has the same canonical text, marks that were left out aside. -/
theorem render_canonical (marks kept : Bool) : ∀ e : TypeExpr,
    render marks (canonical kept e) = render (marks && kept) e
  | .node name args nullable argsText => by
    rw [canonical, render_node, render_node, bracketText, bracketText,
      renderArgs_canonicalArgs marks kept args]
    simp [nullText, Bool.and_assoc]

theorem renderArgs_canonicalArgs (marks kept : Bool) : ∀ args : List TypeExpr,
    renderArgs marks (canonicalArgs kept args) = renderArgs (marks && kept) args
  | [] => by rw [canonicalArgs, renderArgs, renderArgs]
  | [arg] => by
    rw [canonicalArgs, canonicalArgs, renderArgs, renderArgs, render_canonical marks kept arg]
  | arg :: next :: rest => by
    have ih := renderArgs_canonicalArgs marks kept (next :: rest)
    rw [canonicalArgs] at ih
    rw [canonicalArgs, canonicalArgs, renderArgs_cons, renderArgs_cons,
      render_canonical marks kept arg, ih]

end

/-- Dropping the marks of a canonical text is clearing nullability in the tree. -/
theorem withoutMarks_render {e : TypeExpr} (h : wellFormed e = true) :
    withoutMarks (render true e) = render true (unmarked e) := by
  rw [withoutMarks, render_unmarked]
  -- a text without a question mark is not read at all
  split
  · rw [parse?_render true h]
    exact render_canonical false true e
  · next hmark => exact render_true_of_not_mem e (by simpa using hmark)

/-! ## What the rules ask of a text

Behind the first step every text is a canonical one without marks, so it is read as the canonical
tree in which no node is nullable. -/

theorem wellFormed_awaited {e : TypeExpr} (h : wellFormed e = true) :
    wellFormed (awaited e) = true := by
  obtain ⟨name, args, nullable, argsText⟩ := e
  rcases args with - | ⟨arg, - | ⟨next, rest⟩⟩
  · exact h
  · rw [awaited]
    split
    · exact (allWellFormed_cons.1 (wellFormed_node.1 h).2.2).1
    · exact h
  · exact h

theorem awaited_unmarked (e : TypeExpr) : awaited (unmarked e) = unmarked (awaited e) := by
  obtain ⟨name, args, nullable, argsText⟩ := e
  rcases args with - | ⟨arg, - | ⟨next, rest⟩⟩
  · rfl
  · simp only [unmarked, unmarkedArgs, awaited]
    split <;> rfl
  · rfl

/-- Looking through a future is taking the argument in the tree. -/
theorem withoutFuture_render {e : TypeExpr} (h : wellFormed e = true) :
    withoutFuture (render false e) = render false (awaited e) := by
  rw [withoutFuture, parse?_render false h]
  obtain ⟨name, args, nullable, argsText⟩ := e
  have hbrackets := (wellFormed_node.1 h).2.1
  rcases args with - | ⟨arg, - | ⟨next, rest⟩⟩
  · rfl
  · cases argsText with
    | none => cases hbrackets
    | some raw =>
        simp only [canonical, canonicalArgs, Option.map_some, awaited, renderArgs, beq_iff_eq]
        split <;> rfl
  · cases argsText <;> rfl

theorem splitGeneric?_render {e : TypeExpr} (h : wellFormed e = true) :
    splitGeneric? (render false e)
      = if e.isGeneric then some (e.name, renderArgs false e.args) else none := by
  rw [splitGeneric?, parse?_render false h]
  obtain ⟨name, args, nullable, argsText⟩ := e
  cases argsText <;> rfl

theorem listItem?_render {e : TypeExpr} (h : wellFormed e = true) :
    listItem? (render false e) = itemOfList? e := by
  rw [listItem?, parse?_render false h]
  obtain ⟨name, args, nullable, argsText⟩ := e
  rcases args with - | ⟨arg, - | ⟨next, rest⟩⟩
  · rfl
  · obtain ⟨item, inner, innerNullable, innerText⟩ := arg
    have harg := (allWellFormed_cons.1 (wellFormed_node.1 h).2.2).1
    have hinner := (wellFormed_node.1 harg).2.1
    rcases inner with - | ⟨first, others⟩ <;> cases innerText
    · simp only [canonical, canonicalArgs, Option.map_none, Bool.false_and, itemOfList?, bareName?,
        beq_iff_eq]
    · cases hinner
    · cases hinner
    · simp [canonical, canonicalArgs, itemOfList?, bareName?]
  · obtain ⟨item, inner, innerNullable, innerText⟩ := arg
    cases inner <;> cases innerText <;> rfl

/-- The item of the raw arguments of a generic type. -/
theorem listItem?_renderArgs {e : TypeExpr} (h : wellFormed e = true) (hgeneric : e.isGeneric) :
    listItem? (renderArgs false e.args) = itemOfArgument? e := by
  obtain ⟨name, args, nullable, argsText⟩ := e
  obtain ⟨-, hbrackets, hargs⟩ := wellFormed_node.1 h
  rcases args with - | ⟨arg, - | ⟨next, rest⟩⟩
  · rw [show argsText.isSome = true from hgeneric] at hbrackets
    cases hbrackets
  · rw [args, renderArgs]
    exact listItem?_render (allWellFormed_cons.1 hargs).1
  · rw [args, listItem?, parse?_renderArgs_eq_none false (allWellFormed_cons.1 hargs).1]
    rfl

/-- A canonical text starts with the opening of a list exactly when the outermost node is a generic
type with that name: neither a name nor what stands behind one can be taken for the other. -/
theorem listOpening_isPrefixOf_render {e : TypeExpr} (h : wellFormed e = true) :
    Shape.listOpening.isPrefixOf (render false e) = (e.isGeneric && e.name == listName) := by
  obtain ⟨name, args, nullable, argsText⟩ := e
  obtain ⟨⟨hchars, -⟩, -⟩ := wellFormed_node.1 h
  have hlist : ∀ c ∈ listName, isNameChar c = true := by decide
  rw [render_node, show nullText false nullable = [] from rfl, List.append_nil, Bool.eq_iff_iff,
    List.isPrefixOf_iff_prefix]
  simp only [isGeneric, TypeExpr.argsText, TypeExpr.name, Bool.and_eq_true, beq_iff_eq]
  constructor
  · rintro ⟨rest, hrest⟩
    rw [Shape.listOpening, List.append_assoc] at hrest
    -- the name of the list would be the name of the node, with nothing or with its brackets behind
    cases argsText with
    | none =>
        rw [show bracketText false args none = [] from rfl] at hrest
        obtain ⟨-, hnil⟩ := append_inj_of_stopsAt hlist hchars
          (show StopsAt isNameChar ([.ofChar '<'] ++ rest) from rfl)
          (show StopsAt isNameChar [] from trivial) hrest
        cases hnil
    | some raw =>
        obtain ⟨hname, -⟩ := append_inj_of_stopsAt hlist hchars
          (show StopsAt isNameChar ([.ofChar '<'] ++ rest) from rfl)
          (show StopsAt isNameChar (bracketText false args (some raw)) from rfl) hrest
        exact ⟨rfl, hname.symm⟩
  · rintro ⟨hsome, rfl⟩
    rw [bracketText, if_pos hsome]
    exact ⟨renderArgs false args ++ [.ofChar '>'], by simp [Shape.listOpening]⟩

theorem bareName?_unmarked (e : TypeExpr) : bareName? (unmarked e) = bareName? e := by
  obtain ⟨name, args, nullable, argsText⟩ := e
  cases args <;> rfl

theorem itemOfList?_unmarked (e : TypeExpr) : itemOfList? (unmarked e) = itemOfList? e := by
  obtain ⟨name, args, nullable, argsText⟩ := e
  rcases args with - | ⟨arg, - | ⟨next, rest⟩⟩
  · rfl
  · simp only [unmarked, unmarkedArgs, itemOfList?, bareName?_unmarked]
  · rfl

theorem itemOfArgument?_unmarked (e : TypeExpr) :
    itemOfArgument? (unmarked e) = itemOfArgument? e := by
  obtain ⟨name, args, nullable, argsText⟩ := e
  rcases args with - | ⟨arg, - | ⟨next, rest⟩⟩
  · rfl
  · simp only [unmarked, unmarkedArgs, itemOfArgument?, itemOfList?_unmarked]
  · rfl

theorem itemOfLists?_unmarked (e : TypeExpr) : itemOfLists? (unmarked e) = itemOfLists? e := by
  obtain ⟨name, args, nullable, argsText⟩ := e
  rcases args with - | ⟨arg, - | ⟨next, rest⟩⟩
  · rfl
  · simp only [unmarked, unmarkedArgs, itemOfLists?, itemOfList?_unmarked]
  · rfl

theorem args_unmarked (e : TypeExpr) : (unmarked e).args = unmarkedArgs e.args := by
  obtain ⟨name, args, nullable, argsText⟩ := e
  rfl

/-- A type without brackets has no arguments. -/
theorem args_eq_nil {e : TypeExpr} (h : wellFormed e = true) (hbare : e.isGeneric = false) :
    e.args = [] := by
  obtain ⟨name, args, nullable, argsText⟩ := e
  have hbrackets := (wellFormed_node.1 h).2.1
  rw [show argsText.isSome = false from hbare] at hbrackets
  show args = []
  simpa using hbrackets

theorem itemOfArgument?_of_not_isGeneric {e : TypeExpr} (h : wellFormed e = true)
    (hbare : e.isGeneric = false) : itemOfArgument? e = none := by
  have hargs := args_eq_nil h hbare
  obtain ⟨name, args, nullable, argsText⟩ := e
  cases hargs
  rfl

theorem itemOfList?_of_not_isGeneric {e : TypeExpr} (h : wellFormed e = true)
    (hbare : e.isGeneric = false) : itemOfList? e = none := by
  have hargs := args_eq_nil h hbare
  obtain ⟨name, args, nullable, argsText⟩ := e
  cases hargs
  rfl

theorem itemOfList?_of_name_ne {e : TypeExpr} (hname : e.name ≠ listName) :
    itemOfList? e = none := by
  obtain ⟨name, args, nullable, argsText⟩ := e
  rcases args with - | ⟨arg, - | ⟨next, rest⟩⟩
  · rfl
  · exact if_neg hname
  · rfl

theorem itemOfLists?_eq (e : TypeExpr) :
    itemOfLists? e = if e.name = listName then itemOfArgument? e else none := by
  obtain ⟨name, args, nullable, argsText⟩ := e
  rcases args with - | ⟨arg, - | ⟨next, rest⟩⟩
  · exact (ite_self none).symm
  · rfl
  · exact (ite_self none).symm

end TypeExpr

namespace Shape

open TypeExpr

/-! ## The decision -/

/-- The analysis of a canonical text is an analysis of the tree. -/
theorem analyse_render {e : TypeExpr} (h : e.wellFormed = true) :
    analyse (e.render true) =
      { effective := (awaited e).render false
        outer := if (awaited e).isGeneric then some (awaited e).name else none
        inner := if (awaited e).isGeneric then some (renderArgs false (awaited e).args) else none
        item := itemOfArgument? (awaited e) } := by
  have heffective : withoutFuture (withoutMarks (e.render true)) = (awaited e).render false := by
    rw [withoutMarks_render h, render_unmarked, withoutFuture_render h]
  have hu := wellFormed_awaited h
  rw [analyse, heffective, splitGeneric?_render hu]
  cases hgeneric : (awaited e).isGeneric with
  | true => simp [listItem?_renderArgs hu hgeneric]
  | false => simp [itemOfArgument?_of_not_isGeneric hu hgeneric]

/-- A type is wrapped when it is generic with the name of the wrapper. -/
theorem isWrapped_render (e : TypeExpr) (envelope : Envelope) (inner item : Option Text)
    (effective : Text) :
    Analysis.isWrapped
        { effective, outer := if e.isGeneric then some e.name else none, inner, item } envelope
      = envelope.wraps e := by
  obtain ⟨wrapper, factory⟩ := envelope
  rw [Analysis.isWrapped, Envelope.wraps, Envelope.enabled]
  cases hgeneric : e.isGeneric with
  | true => cases wrapper <;> simp [Json.same, Json.isTruthy]
  | false => cases wrapper <;> simp

theorem wraps_unmarked (envelope : Envelope) (e : TypeExpr) :
    envelope.wraps (unmarked e) = envelope.wraps e := by
  obtain ⟨name, args, nullable, argsText⟩ := e
  rfl

theorem isGeneric_of_wraps {envelope : Envelope} {e : TypeExpr} (h : envelope.wraps e = true) :
    e.isGeneric = true := by
  rw [Envelope.wraps] at h
  split at h
  · simp only [Bool.and_eq_true] at h
    exact h.1.2
  · cases h

/-- The item of a list that is no wrapper, by the tree. -/
theorem directItem?_render {e : TypeExpr} (h : e.wellFormed = true) (outer inner : Option Text) :
    Analysis.directItem?
        { effective := e.render false, outer, inner, item := itemOfArgument? e }
      = e.itemOfLists?.or e.itemOfList? := by
  rw [Analysis.directItem?, listOpening_isPrefixOf_render h, listItem?_render h, itemOfLists?_eq]
  cases hgeneric : e.isGeneric with
  | false =>
      rw [itemOfList?_of_not_isGeneric h hgeneric, itemOfArgument?_of_not_isGeneric h hgeneric]
      simp
  | true =>
      -- for a list of that name both rules look at the same only argument
      by_cases hname : e.name = listName
      · simp only [hname, beq_self_eq_true, Bool.and_self, if_true]
        cases itemOfArgument? e <;> rfl
      · rw [itemOfList?_of_name_ne hname]
        simp [hname]

/-- **The shape of a return type is the one of its tree.** For every well-formed type, however deep,
and every envelope, the classification of the canonical text is that of the documented rules on the
tree without marks and without the future around it. -/
theorem classify_render (e : TypeExpr) (h : e.wellFormed = true) (envelope : Envelope) :
    classify (e.render true) envelope = ofType envelope (awaited (unmarked e)) := by
  have hu := wellFormed_awaited h
  rw [classify, analyse_render h, awaited_unmarked, Analysis.shape, isWrapped_render,
    directItem?_render hu, ofType, wraps_unmarked, itemOfArgument?_unmarked,
    itemOfLists?_unmarked, itemOfList?_unmarked, render_unmarked, ← renderArgs_eq_join,
    args_unmarked, renderArgs_unmarkedArgs]
  -- both sides are now the same case analysis on the type without its future
  cases hwraps : envelope.wraps (awaited e) with
  | false => cases (itemOfLists? (awaited e)).or (itemOfList? (awaited e)) <;> simp
  | true =>
      rw [isGeneric_of_wraps hwraps]
      cases itemOfArgument? (awaited e) <;> simp

/-- A nullable future of a wrapper around a list with a nullable item. -/
theorem classify_render_wrapped_list :
    (TypeExpr.node futureName [.node "Page".toText [.node listName
        [.node "Task".toText [] true none] false (some [])] true (some [])] true
        (some [])).wellFormed = true
      ∧ classify "Future<Page<List<Task?>>?>?".toText { wrapper := .str "Page".toText }
        = wrappedList "Task".toText :=
  ⟨by decide, classify_render (.node futureName [.node "Page".toText [.node listName
    [.node "Task".toText [] true none] false (some [])] true (some [])] true (some [])) (by decide)
    { wrapper := .str "Page".toText }⟩

end Shape

end DartDecoders
