/-
Shapes of types as they are written.

The classification hands on what is written: a text without a question mark is never rewritten, so
the raw arguments and the text of a model keep their white space, and the opening of a list is
looked for in the text. On a text that is a type each of its questions but that last one has the
answer that the tree gives (`analyse_of_not_mem`). So the shape is that of the rules on the tree,
white space aside, when a list opens with its bracket directly behind its name; a list that does not
is taken for a model (`visible_classify`). That is the one thing that two texts of the same type can
differ in (`classify_visible_iff`). A future around a type hands on the text between its brackets,
or the same rewritten text, and changes nothing (`classify_future`).
-/
import DartDecoders.Proofs.ShapeOfType
import DartDecoders.Proofs.WrittenTypes

set_option autoImplicit false

namespace DartDecoders

namespace TypeExpr

open Text

mutual

/-- A type without nullable nodes has no marks to clear. -/
theorem unmarked_eq_self : ∀ {e : TypeExpr}, marked e = false → unmarked e = e
  | .node name args nullable argsText, h => by
    rw [marked, Bool.or_eq_false_iff] at h
    rw [unmarked, h.1, unmarkedArgs_eq_self h.2]

theorem unmarkedArgs_eq_self : ∀ {args : List TypeExpr}, anyMarked args = false →
    unmarkedArgs args = args
  | [], _ => by rw [unmarkedArgs]
  | arg :: rest, h => by
    rw [anyMarked, Bool.or_eq_false_iff] at h
    rw [unmarkedArgs, unmarked_eq_self h.1, unmarkedArgs_eq_self h.2]

end

/-! ## Names -/

/-- The name of lists in the grammar. -/
def listIdent : Ident :=
  .ofName listName (by decide) rfl

/-- The name of futures in the grammar. -/
def futureIdent : Ident :=
  .ofName futureName (by decide) rfl

/-! ## The questions on a written text -/

variable {t : Text} {e : TypeExpr}

/-- A type with one argument has a raw text of it. -/
theorem exists_raw_of_parse? {name : Text} {arg : TypeExpr} {nullable : Bool}
    {argsText : Option Text} (h : parse? t = some (.node name [arg] nullable argsText)) :
    ∃ raw, argsText = some raw := by
  rw [← Option.isSome_iff_exists, (wellFormed_node.1 (wellFormed_of_parse? h)).2.1]
  rfl

/-- Looking through a future gives a text of its argument. -/
theorem parse?_withoutFuture (h : parse? t = some e) :
    parse? (withoutFuture t) = some (awaited e) := by
  rw [withoutFuture, h]
  obtain ⟨name, args, nullable, argsText⟩ := e
  rcases args with - | ⟨arg, - | ⟨next, rest⟩⟩
  · exact h
  · obtain ⟨raw, rfl⟩ := exists_raw_of_parse? h
    simp only [awaited, beq_iff_eq]
    split
    · exact parse?_raw h
    · exact h
  · cases argsText <;> exact h

theorem marked_awaited (h : marked e = false) : marked (awaited e) = false := by
  obtain ⟨name, args, nullable, argsText⟩ := e
  rcases args with - | ⟨arg, - | ⟨next, rest⟩⟩
  · exact h
  · rw [awaited]
    split
    · simp only [marked, anyMarked, Bool.or_eq_false_iff] at h
      exact h.2.1
    · exact h
  · exact h

/-- The type is a future with exactly one argument. -/
def IsFuture (e : TypeExpr) : Prop :=
  e.name = futureName ∧ e.args.length = 1

theorem awaited_eq_self (h : ¬ IsFuture e) : awaited e = e := by
  obtain ⟨name, args, nullable, argsText⟩ := e
  rcases args with - | ⟨arg, - | ⟨next, rest⟩⟩
  · rfl
  · rw [awaited, if_neg fun hname : name = futureName => h ⟨hname, rfl⟩]
  · rfl

/-- A text of a type that is no future is left as it is. -/
theorem withoutFuture_eq_self (h : parse? t = some e) (hfuture : ¬ IsFuture e) :
    withoutFuture t = t := by
  rw [withoutFuture, h]
  obtain ⟨name, args, nullable, argsText⟩ := e
  rcases args with - | ⟨arg, - | ⟨next, rest⟩⟩
  · rfl
  · have hname : name ≠ futureName := fun hname => hfuture ⟨hname, rfl⟩
    cases argsText <;> simp [hname]
  · cases argsText <;> rfl

/-- A text without question marks is left as it is. -/
theorem withoutMarks_eq_self (h : .ofChar '?' ∉ t) : withoutMarks t = t := by
  rw [withoutMarks, if_neg (by simpa using h)]

/-- A type that is not nullable is split as it is written. -/
theorem splitGeneric?_of_parse? (h : parse? t = some e) (hmark : marked e = false) :
    splitGeneric? t = e.argsText.map fun raw => (e.name, raw) := by
  obtain ⟨name, args, nullable, argsText⟩ := e
  rw [marked, Bool.or_eq_false_iff] at hmark
  rw [splitGeneric?, h, hmark.1]
  cases argsText <;> rfl

theorem listItem?_of_parse? (h : parse? t = some e) (hmark : marked e = false) :
    listItem? t = itemOfList? e := by
  have hformed := wellFormed_of_parse? h
  rw [listItem?, h]
  obtain ⟨name, args, nullable, argsText⟩ := e
  rcases args with - | ⟨⟨item, inner, innerNullable, innerText⟩, - | ⟨next, rest⟩⟩
  · rfl
  · simp only [marked, anyMarked, Bool.or_eq_false_iff] at hmark
    obtain ⟨rfl, ⟨rfl, -⟩, -⟩ := hmark
    have hinner := (wellFormed_node.1 (allWellFormed_cons.1 (wellFormed_node.1 hformed).2.2).1).2.1
    rcases inner with - | ⟨first, others⟩ <;> cases innerText
    · simp only [itemOfList?, bareName?, beq_iff_eq]
    · cases hinner
    · cases hinner
    · simp [itemOfList?, bareName?]
  · split
    · next heq => cases heq
    · rfl

/-- The item of raw arguments. -/
theorem listItem?_raw {raw : Text} (h : parse? t = some e) (hmark : marked e = false)
    (hraw : e.argsText = some raw) : listItem? raw = itemOfArgument? e := by
  obtain ⟨name, args, nullable, argsText⟩ := e
  obtain rfl : argsText = some raw := hraw
  rcases args with - | ⟨arg, - | ⟨next, rest⟩⟩
  · have hbrackets := (wellFormed_node.1 (wellFormed_of_parse? h)).2.1
    cases hbrackets
  · simp only [marked, anyMarked, Bool.or_eq_false_iff] at hmark
    exact listItem?_of_parse? (parse?_raw h) hmark.2.1
  · rw [listItem?, parse?_raw_eq_none h]
    rfl

/-- A type that opens like a list is a generic type with that name. -/
theorem name_of_listOpening (h : parse? t = some e) (hopens : Shape.listOpening <+: t) :
    e.isGeneric = true ∧ e.name = listName := by
  obtain ⟨⟨type, after⟩, htext, rfl⟩ := parse?_eq_some_iff.1 h
  obtain ⟨rest, rfl⟩ := hopens
  have hcut : type.text ++ after.text
      = Gap.none.text ++ (listIdent.text ++ (Gap.none.text ++ .ofChar '<' :: rest)) := by
    rw [Sentence.text] at htext
    simpa [Gap.none, listIdent, Ident.ofName, Shape.listOpening] using htext
  cases type with
  | bare before ident mark =>
      simp only [Spelling.text, List.append_assoc] at hcut
      obtain ⟨-, -, htail⟩ := gap_ident_append_inj (stopsAt_markText mark after.follows)
        (Gap.none.stopsAt_append_opening rest) hcut
      exact absurd htail.symm (trimStart_opening_ne after.follows)
  | generic before ident opening arguments closing mark =>
      simp only [Spelling.text, List.append_assoc, List.cons_append] at hcut
      obtain ⟨-, rfl, -⟩ := gap_ident_append_inj (opening.stopsAt_append_opening _)
        (Gap.none.stopsAt_append_opening rest) hcut
      exact ⟨rfl, rfl⟩

end TypeExpr

namespace Shape

open Text TypeExpr

variable {t : Text} {e : TypeExpr}

/-! ## The decision on a written text -/

/-- The analysis of a text without a question mark, by its tree and its raw texts. -/
theorem analyse_of_not_mem (h : parse? t = some e) (hmark : .ofChar '?' ∉ t) :
    analyse t =
      { effective := withoutFuture t
        outer := if (awaited e).isGeneric then some (awaited e).name else none
        inner := (awaited e).argsText
        item := itemOfArgument? (awaited e) } := by
  have hunmarked : marked e = false := by
    rw [← Bool.not_eq_true, ← mark_mem_iff h]
    exact hmark
  have hparse := parse?_withoutFuture h
  have hawaited := marked_awaited hunmarked
  rw [analyse, withoutMarks_eq_self hmark, splitGeneric?_of_parse? hparse hawaited, isGeneric]
  cases hraw : (awaited e).argsText with
  | none =>
      have hbare : (awaited e).isGeneric = false := by rw [isGeneric, hraw]; rfl
      rw [itemOfArgument?_of_not_isGeneric (wellFormed_of_parse? hparse) hbare]
      rfl
  | some raw =>
      have hitem := listItem?_raw hparse hawaited hraw
      simp [hitem]

/-- A text with a question mark is classified like the canonical text of its tree. -/
theorem classify_of_mem (h : parse? t = some e) (hmark : .ofChar '?' ∈ t) (envelope : Envelope) :
    classify t envelope = ofType envelope (awaited (unmarked e)) := by
  have hformed := wellFormed_of_parse? h
  have hwithout : withoutMarks t = withoutMarks (e.render true) := by
    rw [withoutMarks_render hformed, render_unmarked, withoutMarks, if_pos (by simpa using hmark),
      h]
  rw [← classify_render e hformed envelope, classify, classify, analyse, analyse, hwithout]

/-- Whether a list, if the text is one, is written with its bracket directly behind its name and
nothing before it. The marks are the other way: a text with a mark is rewritten before it is looked
at. -/
def opensList (t : Text) : Bool :=
  t.contains '?' || listOpening.isPrefixOf (withoutFuture t)

/-- The shape without the white space of its text. -/
def visible : Shape → Shape
  | .wrappedList item => .wrappedList (Text.visible item)
  | .wrappedModel inner => .wrappedModel (Text.visible inner)
  | .directList item => .directList (Text.visible item)
  | .directModel name => .directModel (Text.visible name)

/-- The shape of a type whose list does not open: the list is a model. -/
def unopened (e : TypeExpr) : Shape → Shape
  | .directList _ => .directModel (e.render true)
  | shape => shape

/-- The item of a list that is no wrapper is looked for only in a text that opens like a list. -/
theorem directItem?_of_parse? (h : parse? t = some e) (hmark : marked e = false)
    (outer inner : Option Text) :
    Analysis.directItem? { effective := t, outer, inner, item := itemOfArgument? e }
      = if listOpening.isPrefixOf t then (itemOfLists? e).or (itemOfList? e) else none := by
  rw [Analysis.directItem?, listItem?_of_parse? h hmark]
  split
  · next hopens =>
      obtain ⟨-, hname⟩ := name_of_listOpening h (List.isPrefixOf_iff_prefix.1 hopens)
      rw [itemOfLists?_eq, if_pos hname]
      cases itemOfArgument? e <;> rfl
  · rfl

/-- The shape of a text that is a type is that of the rules on the tree, white space aside, but for
a list that does not open. -/
theorem visible_classify (h : parse? t = some e) (envelope : Envelope) :
    (classify t envelope).visible
      = (if opensList t then ofType envelope (awaited (unmarked e))
          else (ofType envelope (awaited (unmarked e))).unopened
            (awaited (unmarked e))).visible := by
  by_cases hmark : .ofChar '?' ∈ t
  · have hopens : opensList t = true := by simp [opensList, hmark]
    rw [classify_of_mem h hmark, if_pos hopens]
  · have hunmarked : marked e = false := by
      rw [← Bool.not_eq_true, ← mark_mem_iff h]
      exact hmark
    have hopens : opensList t = listOpening.isPrefixOf (withoutFuture t) := by
      simp [opensList, hmark]
    have hparse := parse?_withoutFuture h
    have hmodel := visible_of_parse? hparse
    rw [classify, analyse_of_not_mem h hmark, Analysis.shape, isWrapped_render,
      directItem?_of_parse? hparse (marked_awaited hunmarked), unmarked_eq_self hunmarked, ofType,
      hopens]
    cases hwraps : envelope.wraps (awaited e) with
    | true =>
        have hgeneric := isGeneric_of_wraps hwraps
        cases hitem : itemOfArgument? (awaited e) with
        | some item => simp [unopened]
        | none =>
            obtain ⟨raw, hraw⟩ := Option.isSome_iff_exists.1 hgeneric
            have hinner := visible_raw hparse hraw
            rw [renderArgs_eq_join] at hinner
            simp [hraw, visible, unopened, hinner]
    | false =>
        cases listOpening.isPrefixOf (withoutFuture t) with
        | true =>
            cases (itemOfLists? (awaited e)).or (itemOfList? (awaited e)) with
            | some item => simp
            | none => simp [visible, hmodel]
        | false =>
            cases (itemOfLists? (awaited e)).or (itemOfList? (awaited e)) with
            | some item => simp [visible, unopened, hmodel]
            | none => simp [visible, unopened, hmodel]

/-! ## Spacing -/

/-- The canonical text of the type that the rules look at is found from that of the whole type. -/
theorem render_awaited_unmarked (h : wellFormed e = true) :
    (awaited (unmarked e)).render true = withoutFuture (withoutMarks (e.render true)) := by
  rw [awaited_unmarked, render_unmarked, withoutMarks_render h, render_unmarked,
    withoutFuture_render h]

/-- **The shape depends on the spacing only where a list opens.** Two texts of the same type have
shapes of the same kind with the same text, white space aside, unless the rules make the type a list
and only one of the two texts opens like one. -/
theorem classify_visible_iff {t u : Text} {e f : TypeExpr} (ht : parse? t = some e)
    (hu : parse? u = some f) (hsame : outline e = outline f) (envelope : Envelope) :
    (classify t envelope).visible = (classify u envelope).visible
      ↔ ((∃ item, ofType envelope (awaited (unmarked e)) = .directList item) →
          opensList t = opensList u) := by
  have he := wellFormed_of_parse? ht
  have hf := wellFormed_of_parse? hu
  have hrender := render_eq_of_outline_eq ht hu hsame true
  have hshape : ofType envelope (awaited (unmarked f))
      = ofType envelope (awaited (unmarked e)) := by
    rw [← classify_render f hf, ← classify_render e he, hrender]
  have hmodel : (awaited (unmarked f)).render true = (awaited (unmarked e)).render true := by
    rw [render_awaited_unmarked hf, render_awaited_unmarked he, hrender]
  rw [visible_classify ht, visible_classify hu, hshape]
  cases ofType envelope (awaited (unmarked e)) with
  -- a list that opens and one that does not have shapes of different kinds
  | directList item =>
      cases opensList t <;> cases opensList u <;> simp [unopened, visible, hmodel]
  | wrappedList item => simp [unopened]
  | wrappedModel inner => simp [unopened]
  | directModel name => simp [unopened]

/-- One space. -/
def space : Gap :=
  ⟨[' '], List.forall_mem_singleton.2 rfl⟩

/-- A list of tasks with gaps before its name and its first bracket; the item and the list may be
nullable. -/
def taskList (before opening : Gap) (item list : Option Gap) : Spelling :=
  .generic before listIdent opening
    (.last (.bare Gap.none (.ofName "Task".toText (by decide) rfl) item)) Gap.none list

/-- A future of a list with a nullable item, with a gap on both sides of the list. -/
def taskListFuture (around opening : Gap) : Spelling :=
  .generic Gap.none futureIdent Gap.none (.last (taskList around opening (some Gap.none) none))
    around none

/-- A nullable item makes the text one that is rewritten, so the spaces do not show. -/
theorem classify_visible_iff_nullable_item :
    ∃ e f, parse? "Future< List <Task?> >".toText = some e
      ∧ parse? "Future<List<Task?>>".toText = some f ∧ outline e = outline f
      ∧ (classify "Future< List <Task?> >".toText .plain).visible
        = (classify "Future<List<Task?>>".toText .plain).visible := by
  have ht : parse? "Future< List <Task?> >".toText = some (taskListFuture space space).tree :=
    parse?_eq_some_iff.2 ⟨⟨taskListFuture space space, Gap.none⟩, by decide, rfl⟩
  have hu : parse? "Future<List<Task?>>".toText
      = some (taskListFuture Gap.none Gap.none).tree :=
    parse?_eq_some_iff.2 ⟨⟨taskListFuture Gap.none Gap.none, Gap.none⟩, by decide, rfl⟩
  refine ⟨_, _, ht, hu, rfl, (classify_visible_iff ht hu rfl .plain).2 fun _ => ?_⟩
  decide +kernel

/-- A space before the bracket of a list makes a model of it, though the text is read as the same
type, and though a question mark behind it makes it a list again. -/
theorem classify_spaced_list :
    ∃ e f, parse? "List<Task>".toText = some e ∧ parse? "List <Task>".toText = some f
      ∧ outline e = outline f
      ∧ classify "List<Task>".toText .plain = .directList "Task".toText
      ∧ classify "List <Task>".toText .plain = .directModel "List <Task>".toText
      ∧ classify "List <Task>?".toText .plain = .directList "Task".toText
      ∧ (classify "List<Task>".toText .plain).visible
        ≠ (classify "List <Task>".toText .plain).visible := by
  have ht : parse? "List<Task>".toText = some (taskList Gap.none Gap.none none none).tree :=
    parse?_eq_some_iff.2 ⟨⟨taskList Gap.none Gap.none none none, Gap.none⟩, by decide, rfl⟩
  have hu : parse? "List <Task>".toText = some (taskList Gap.none space none none).tree :=
    parse?_eq_some_iff.2 ⟨⟨taskList Gap.none space none none, Gap.none⟩, by decide, rfl⟩
  refine ⟨_, _, ht, hu, rfl, ?_⟩
  decide +kernel

/-! ## Futures -/

/-- The text of a future of a type. -/
def futureOf (t : Text) : Text :=
  futureName ++ .ofChar '<' :: (t ++ [.ofChar '>'])

/-- A future is read around whatever text of a type stands in it. -/
theorem parse?_futureOf (h : parse? t = some e) :
    parse? (futureOf t) = some (.node futureName [e] false (some (trim t))) := by
  obtain ⟨s, rfl, rfl⟩ := parse?_eq_some_iff.1 h
  refine parse?_eq_some_iff.2 ⟨⟨.generic Gap.none futureIdent Gap.none (.last s.type) s.after none,
    Gap.none⟩, ?_, rfl⟩
  simp [Sentence.text, Spelling.text, Spellings.text, Gap.none, futureIdent, Ident.ofName, markText,
    futureOf]

/-- **A future does not change the shape.** For every text of a type without white space at its ends
that is no future itself, however it is spaced inside and wherever its nodes are marked, and every
envelope: the future of the type has the same shape, which carries the same text. -/
theorem classify_future (h : parse? t = some e) (htrim : trim t = t) (hfuture : ¬ IsFuture e)
    (envelope : Envelope) : classify (futureOf t) envelope = classify t envelope := by
  have hparse := parse?_futureOf h
  by_cases hmark : .ofChar '?' ∈ t
  · -- both texts are rewritten, and the future is looked through on the tree
    have hmarkFuture : .ofChar '?' ∈ futureOf t := by simp [futureOf, hmark]
    have hunwrapped : awaited (unmarked (.node futureName [e] false (some (trim t))))
        = unmarked e := by
      rw [unmarked, unmarkedArgs, unmarkedArgs, awaited, if_pos rfl]
    rw [classify_of_mem hparse hmarkFuture, classify_of_mem h hmark, hunwrapped, awaited_unmarked,
      awaited_eq_self hfuture]
  · -- neither text is rewritten, and the raw argument of the future is the text itself
    have hmarkFuture : .ofChar '?' ∉ futureOf t := by
      have hname : .ofChar '?' ∉ futureName := by decide
      simp [futureOf, hmark, hname]
    have hinner : withoutFuture (futureOf t) = t := by
      rw [withoutFuture, hparse]
      exact htrim
    rw [classify, classify, analyse, analyse, withoutMarks_eq_self hmarkFuture,
      withoutMarks_eq_self hmark, hinner, withoutFuture_eq_self h hfuture]

/-- A wrapper around a nullable list, spaced inside. -/
def taskPage : Spelling :=
  .generic Gap.none (.ofName "Page".toText (by decide) rfl) space
    (.last (taskList space Gap.none none (some Gap.none))) space none

/-- The future of the wrapper is classified like the wrapper. -/
theorem classify_future_page :
    ∃ e, parse? "Page < List<Task>? >".toText = some e
      ∧ trim "Page < List<Task>? >".toText = "Page < List<Task>? >".toText ∧ ¬ IsFuture e
      ∧ classify "Future<Page < List<Task>? >>".toText { wrapper := .str "Page".toText }
        = classify "Page < List<Task>? >".toText { wrapper := .str "Page".toText } := by
  have h : parse? "Page < List<Task>? >".toText = some taskPage.tree :=
    parse?_eq_some_iff.2 ⟨⟨taskPage, Gap.none⟩, by decide, rfl⟩
  have htrim : trim "Page < List<Task>? >".toText = "Page < List<Task>? >".toText := by
    decide +kernel
  have hfuture : ¬ IsFuture taskPage.tree := by
    rintro ⟨hname, -⟩
    cases hname
  exact ⟨_, h, htrim, hfuture, classify_future h htrim hfuture _⟩

end Shape

end DartDecoders
