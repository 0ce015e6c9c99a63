/-
The raw arguments of a type.

Every node of a type keeps the text between its angle brackets as it was written, and the
classification hands that text on. Here it is told what is in it. The grammar and the cutting of
lists at their commas are two ways of looking at brackets: the one follows the nesting of types, the
other only counts. On a text that the grammar derives the two agree, because the angle brackets of
such a text nest and all its commas stand in them (`Spelling.bracketed`). So cutting the raw
arguments at their commas gives one text for each argument, and each text spells its argument down
to the raw arguments inside (`raw_parts_are_arguments`). Raw arguments as a whole are a type again
when there is only one.
-/
import DartDecoders.Proofs.FunctionTypes
import DartDecoders.Proofs.RoundTrip

set_option autoImplicit false

namespace DartDecoders

namespace TypeExpr

open Text Source

/-! ## Brackets of a written type -/

theorem Ident.bracketed {commas : Bool} (i : Ident) : Bracketed commas i.text := by
  refine .of_forall fun c hc => ?_
  have hchar := i.isNameChar_of_mem hc
  exact ⟨by simp [isListChar, hchar], ne_of_class hchar (by decide)⟩

theorem bracketed_markText {commas : Bool} (mark : Option Gap) :
    Bracketed commas (markText mark) := by
  cases mark with
  | none => exact .nil
  | some gap => exact (Bracketed.gap gap).append (.of_forall (by decide +kernel))

mutual

/-- The brackets of a written type nest, and its commas stand in them. -/
theorem Spelling.bracketed : ∀ s : Spelling, Bracketed false s.text
  | .bare before ident mark =>
    (Bracketed.gap before).append (ident.bracketed.append (bracketed_markText mark))
  | .generic before ident opening arguments closing mark =>
    have hinside := arguments.bracketed.append (Bracketed.gap closing)
    have hbrackets : Bracketed false
        (.ofChar '<' :: (arguments.text ++ (closing.text ++ .ofChar '>' :: markText mark))) := by
      simpa using Bracketed.angle hinside (bracketed_markText mark)
    (Bracketed.gap before).append
      (ident.bracketed.append ((Bracketed.gap opening).append hbrackets))

/-- Between two angle brackets commas stand outside of the inner brackets too. -/
theorem Spellings.bracketed : ∀ ss : Spellings, Bracketed true ss.text
  | .last argument => argument.bracketed.allow
  | .more argument comma rest =>
    have hrest : Bracketed true (',' :: rest.text) :=
      .char (by decide +kernel) (fun _ => rfl) rest.bracketed
    argument.bracketed.allow.append ((Bracketed.gap comma).append hrest)

end

/-! ## Arguments as items of a list -/

/-- A written type as an item of a list, with the white space behind it. -/
def Spelling.item (s : Spelling) (after : Gap) : Item where
  before := s.before
  text := (s.indented Gap.none).text
  after
  trimmed := s.trimmed_indented
  bracketed := (s.indented Gap.none).bracketed

theorem Spelling.spread_item (s : Spelling) (after : Gap) :
    (s.item after).spread = s.text ++ after.text := by
  rw [s.text_eq, List.append_assoc]
  rfl

/-- The text of the item spells the type. -/
theorem Spelling.parse?_item (s : Spelling) (after : Gap) :
    parse? (s.item after).text = some s.tree :=
  parse?_eq_some_iff.2
    ⟨⟨s.indented Gap.none, Gap.none⟩, List.append_nil _, s.tree_indented Gap.none⟩

theorem Spelling.item_ne_nil (s : Spelling) (after : Gap) : (s.item after).text ≠ [] :=
  List.length_pos_iff.1 (s.indented Gap.none).length_pos

/-- The arguments as items, with the white space before the closing bracket. -/
def Spellings.items : Spellings → Gap → List Item
  | .last argument, closing => [argument.item closing]
  | .more argument comma rest, closing => argument.item comma :: rest.items closing

theorem Spellings.items_ne_nil (ss : Spellings) (closing : Gap) : ss.items closing ≠ [] := by
  cases ss <;> exact List.cons_ne_nil _ _

theorem Spellings.text_append_closing (closing : Gap) : ∀ ss : Spellings,
    ss.text ++ closing.text = listText (ss.items closing)
  | .last argument => by
    rw [Spellings.text, items, listText, List.map_singleton, join_singleton,
      argument.spread_item]
  | .more argument comma rest => by
    obtain ⟨next, others, hitems⟩ := List.exists_cons_of_ne_nil (rest.items_ne_nil closing)
    have hrest := rest.text_append_closing closing
    rw [hitems, listText, List.map_cons] at hrest
    rw [Spellings.text, items, hitems, listText, List.map_cons, List.map_cons, join_cons_cons,
      ← hrest, argument.spread_item]
    simp

/-- Each item spells its argument. -/
theorem Spellings.map_parse?_items (closing : Gap) : ∀ ss : Spellings,
    ((ss.items closing).map Item.text).map parse? = ss.trees.map some
  | .last argument => by
    rw [items, Spellings.trees, List.map_singleton, List.map_singleton, argument.parse?_item]
    rfl
  | .more argument comma rest => by
    rw [items, Spellings.trees, List.map_cons, List.map_cons, List.map_cons,
      argument.parse?_item, rest.map_parse?_items closing]

theorem Spellings.text_ne_nil_of_mem_items (closing : Gap) : ∀ ss : Spellings,
    ∀ i ∈ ss.items closing, i.text ≠ []
  | .last argument => List.forall_mem_singleton.2 (argument.item_ne_nil closing)
  | .more argument comma rest =>
    List.forall_mem_cons.2 ⟨argument.item_ne_nil comma, rest.text_ne_nil_of_mem_items closing⟩

/-- Cutting the arguments at their commas gives a text of each. -/
theorem Spellings.map_parse?_splitTopLevel (closing : Gap) (ss : Spellings) :
    (splitTopLevel [','] (ss.text ++ closing.text)).map parse? = ss.trees.map some := by
  have hvisible : ∀ t ∈ (ss.items closing).map Item.text, (!t.isEmpty) = true := by
    intro t ht
    obtain ⟨i, hi, rfl⟩ := List.mem_map.1 ht
    simpa using ss.text_ne_nil_of_mem_items closing i hi
  rw [ss.text_append_closing closing, splitTopLevel_listText, List.filter_eq_self.2 hvisible,
    ss.map_parse?_items closing]

/-! ## Raw arguments

The raw text is the one between the brackets without the white space at its ends. That white space
belongs to the first argument and to the closing bracket, so without it the text is derived too. -/

/-- The arguments without the white space in front. -/
def Spellings.indented : Spellings → Spellings
  | .last argument => .last (argument.indented Gap.none)
  | .more argument comma rest => .more (argument.indented Gap.none) comma rest

/-- The white space in front of the arguments. -/
def Spellings.before : Spellings → Gap
  | .last argument | .more argument _ _ => argument.before

theorem Spellings.trees_indented (ss : Spellings) : ss.indented.trees = ss.trees := by
  cases ss <;> simp [indented, Spellings.trees]

theorem Spellings.text_eq (ss : Spellings) : ss.text = ss.before.text ++ ss.indented.text := by
  cases ss with
  | last argument => exact argument.text_eq
  | more argument comma rest =>
      rw [Spellings.text, argument.text_eq, List.append_assoc]
      rfl

/-- A derived type ends visibly. -/
theorem Spelling.finish (s : Spelling) : StopsAt isBlank s.text.reverse := by
  rw [s.text_eq]
  exact stopsAt_reverse_append (s.item_ne_nil Gap.none) s.trimmed_indented.finish _

theorem Spellings.finish : ∀ ss : Spellings, ss.text ≠ [] ∧ StopsAt isBlank ss.text.reverse
  | .last argument => ⟨List.length_pos_iff.1 argument.length_pos, argument.finish⟩
  | .more argument comma rest => by
    obtain ⟨hne, hfinish⟩ := rest.finish
    refine ⟨by simp [Spellings.text], ?_⟩
    rw [Spellings.text, List.append_cons, ← List.append_assoc]
    exact stopsAt_reverse_append hne hfinish _

theorem Spellings.trimmed_indented (ss : Spellings) : Trimmed ss.indented.text where
  start := by
    cases ss with
    | last argument => exact argument.trimmed_indented.start
    | more argument comma rest =>
        exact stopsAt_append_of_ne_nil (argument.item_ne_nil comma)
          argument.trimmed_indented.start _
  finish := ss.indented.finish.2

/-- The raw arguments are the text of the arguments without the white space in front. -/
theorem Spellings.trim_text (ss : Spellings) (closing : Gap) :
    trim (ss.text ++ closing.text) = ss.indented.text := by
  rw [ss.text_eq, List.append_assoc]
  exact trim_between ss.before.blank ss.trimmed_indented closing.blank

mutual

/-- Every node of a derived tree is derived. -/
theorem Spelling.exists_of_mem_nodes : ∀ (s : Spelling) {g : TypeExpr}, g ∈ nodes s.tree →
    ∃ inner : Spelling, inner.tree = g
  | .bare before ident mark, g, h => by
    rw [Spelling.tree, nodes, nodesOfArgs, List.mem_singleton] at h
    exact ⟨.bare before ident mark, h.symm⟩
  | .generic before ident opening arguments closing mark, g, h => by
    rw [Spelling.tree, nodes] at h
    rcases List.mem_cons.1 h with rfl | h
    · exact ⟨.generic before ident opening arguments closing mark, rfl⟩
    · exact arguments.exists_of_mem_nodes h

theorem Spellings.exists_of_mem_nodes : ∀ (ss : Spellings) {g : TypeExpr},
    g ∈ nodesOfArgs ss.trees → ∃ inner : Spelling, inner.tree = g
  | .last argument, g, h => by
    rw [Spellings.trees, nodesOfArgs, nodesOfArgs, List.append_nil] at h
    exact argument.exists_of_mem_nodes h
  | .more argument comma rest, g, h => by
    rw [Spellings.trees, nodesOfArgs] at h
    rcases List.mem_append.1 h with h | h
    · exact argument.exists_of_mem_nodes h
    · exact rest.exists_of_mem_nodes h

end

variable {t : Text} {e : TypeExpr}

/-- Every node of a type that is read is the type of some text. -/
theorem exists_parse?_of_mem_nodes (h : parse? t = some e) {g : TypeExpr} (hg : g ∈ nodes e) :
    ∃ u, parse? u = some g := by
  obtain ⟨s, -, rfl⟩ := parse?_eq_some_iff.1 h
  obtain ⟨inner, rfl⟩ := s.type.exists_of_mem_nodes hg
  exact ⟨inner.text, parse?_eq_some_iff.2 ⟨⟨inner, Gap.none⟩, List.append_nil _, rfl⟩⟩

/-- The raw arguments of a type are trimmed, and cutting them at their commas gives a text of each
argument. -/
theorem parts_of_raw {raw : Text} (h : parse? t = some e) (hraw : e.argsText = some raw) :
    Trimmed raw ∧ (splitTopLevel [','] raw).map parse? = e.args.map some := by
  obtain ⟨name, args, nullable, argsText⟩ := e
  obtain rfl : argsText = some raw := hraw
  obtain ⟨arguments, closing, rfl, rfl⟩ := exists_arguments_of_parse? h
  rw [arguments.trim_text closing]
  refine ⟨arguments.trimmed_indented, ?_⟩
  -- trimming took the white space in front, and there is none before the closing bracket any more
  have hparts := arguments.indented.map_parse?_splitTopLevel Gap.none
  rw [arguments.trees_indented, show Gap.none.text = [] from rfl, List.append_nil] at hparts
  exact hparts

/-- Raw arguments are a type when there is one of them. -/
theorem parse?_raw_of_args {raw : Text} (h : parse? t = some e) (hraw : e.argsText = some raw) :
    (∀ arg, e.args = [arg] → parse? raw = some arg)
      ∧ (2 ≤ e.args.length → parse? raw = none) := by
  obtain ⟨name, args, nullable, argsText⟩ := e
  obtain rfl : argsText = some raw := hraw
  constructor
  · rintro arg rfl
    exact parse?_raw h
  · intro hlength
    match args, hlength with
    | arg :: next :: rest, _ => exact parse?_raw_eq_none h

/-- **The raw arguments of a node are its arguments.** For every text that is a type and every node
of it that has brackets, however deep: the raw text has no white space at its ends, cutting it at
its commas outside brackets gives as many texts as the node has arguments, and each of them is a
text of its argument, with the raw arguments inside. As a whole the raw text is a type when there is
one argument, and then this one, and none when there are several. So looking through a future and
splitting a generic type hand on a text of the argument. -/
theorem raw_parts_are_arguments (h : parse? t = some e) :
    (∀ g ∈ nodes e, ∀ raw, g.argsText = some raw →
      Trimmed raw
        ∧ (splitTopLevel [','] raw).map parse? = g.args.map some
        ∧ (∀ arg, g.args = [arg] → parse? raw = some arg)
        ∧ (2 ≤ g.args.length → parse? raw = none))
      ∧ parse? (withoutFuture t) = some (awaited e)
      ∧ ∀ name raw, splitGeneric? t = some (name, raw) →
        e.name = name ∧ e.argsText = some raw ∧ ∀ arg, e.args = [arg] → parse? raw = some arg := by
  refine ⟨fun g hg raw hraw => ?_, parse?_withoutFuture h, fun name raw hsplit => ?_⟩
  -- a node is the type of a text of its own, so what holds of the whole type holds of it
  · obtain ⟨u, hu⟩ := exists_parse?_of_mem_nodes h hg
    obtain ⟨htrimmed, hparts⟩ := parts_of_raw hu hraw
    obtain ⟨hone, hseveral⟩ := parse?_raw_of_args hu hraw
    exact ⟨htrimmed, hparts, hone, hseveral⟩
  · rw [splitGeneric?] at hsplit
    split at hsplit
    · next found args inner hparse =>
        cases hsplit
        obtain rfl : e = .node name args false (some raw) := Option.some.inj (h ▸ hparse)
        exact ⟨rfl, rfl, (parse?_raw_of_args h rfl).1⟩
    · cases hsplit

/-- A nullable map with white space around its arguments, one of which has an argument too. -/
theorem raw_parts_are_arguments_map :
    ∃ e, parse? "Map < a.Key ,List<int ?> >?".toText = some e
      ∧ ["a.Key", "List<int ?>"].map (fun part => parse? part.toText) = e.args.map some
      ∧ parse? "a.Key ,List<int ?>".toText = none := by
  have hread : (parse? "Map < a.Key ,List<int ?> >?".toText).map
        (fun e => (e.argsText, e.args.length))
      = some (some "a.Key ,List<int ?>".toText, 2) := by decide +kernel
  have hcut : splitTopLevel [','] "a.Key ,List<int ?>".toText
      = ["a.Key".toText, "List<int ?>".toText] := by decide +kernel
  obtain ⟨e, he, hpair⟩ := Option.map_eq_some_iff.1 hread
  obtain ⟨hraw, hlength⟩ := Prod.mk.inj hpair
  have hself : e ∈ nodes e := by
    cases e
    exact List.mem_cons_self
  obtain ⟨-, hparts, -, hnone⟩ := (raw_parts_are_arguments he).1 e hself _ hraw
  rw [hcut] at hparts
  exact ⟨e, he, hparts, hnone hlength.ge⟩

end TypeExpr

end DartDecoders
