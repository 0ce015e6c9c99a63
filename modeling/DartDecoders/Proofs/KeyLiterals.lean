/-
The key of a list as it is written into a body.

The body for a list looks it up in the decoded object under a key, which stands between single
quotes just as the options give it. Whether the key is read back from there is a question about two
things: where the literal ends, and what is left of it when each backslash stands for the character
behind it (`unescaped`). A quote in the key ends the literal before its end mark, and a backslash
is either lost or hides that mark; no later end makes up for it, because unescaping shortens a run
of backslashes at the start of a text to half its length (`length_takeWhile_unescaped`). So the
literal spells the key exactly when the key has neither (`spells_iff`).
-/
import DartDecoders.Proofs.CommentContents
import DartDecoders.Proofs.Libraries
import DartDecoders.Proofs.Nesting

set_option autoImplicit false

namespace DartDecoders

open Text

namespace Source

/-! ## Unescaping -/

/-- What is written in a literal, a backslash standing for the character behind it. -/
def unescaped : Text → Text
  | [] => []
  | ['\\'] => []
  | '\\' :: c :: rest => c :: unescaped rest
  | c :: rest => c :: unescaped rest

variable {t u : Text}

theorem unescaped_cons {c : CodePoint} (hc : c ≠ '\\') (t : Text) :
    unescaped (c :: t) = c :: unescaped t := by
  rw [unescaped]
  · exact fun heq _ => hc heq
  · exact fun _ _ heq _ => hc heq

theorem unescaped_append (ht : ∀ c ∈ t, c ≠ '\\') (u : Text) :
    unescaped (t ++ u) = t ++ unescaped u := by
  induction t with
  | nil => rfl
  | cons c t ih =>
      obtain ⟨hc, hothers⟩ := List.forall_mem_cons.1 ht
      rw [List.cons_append, unescaped_cons hc, ih hothers]
      rfl

theorem unescaped_eq_self (ht : ∀ c ∈ t, c ≠ '\\') : unescaped t = t := by
  have happend := unescaped_append ht []
  rwa [List.append_nil, unescaped, List.append_nil] at happend

theorem length_unescaped_le (t : Text) : (unescaped t).length ≤ t.length := by
  fun_induction unescaped t with
  | case1 => exact Nat.le_refl _
  | case2 => exact Nat.zero_le _
  | case3 c rest ih =>
      simp only [List.length_cons]
      omega
  | case4 c rest _ _ ih =>
      simp only [List.length_cons]
      omega

/-- Of the backslashes at the start of a text every other one is left. -/
theorem length_takeWhile_unescaped (t : Text) :
    ((unescaped t).takeWhile (· == .ofChar '\\')).length
      = (t.takeWhile (· == .ofChar '\\')).length / 2 := by
  fun_induction unescaped t with
  | case1 => rfl
  | case2 => rfl
  | case3 c rest ih =>
      by_cases hc : c = '\\'
      · subst hc
        simp only [List.takeWhile_cons, beq_self_eq_true, if_true, List.length_cons, ih]
        omega
      · simp [hc]
  | case4 c rest hnil hcons ih =>
      have hc : c ≠ '\\' := ne_of_forall_rest hnil hcons
      simp [hc]

/-- A text that is left of itself and of what stands behind it has no backslashes. At the first of
them the text would start with more backslashes than unescaping leaves. -/
theorem forall_ne_of_unescaped_append_eq (hu : StopsAt (· == '\\') u)
    (h : unescaped (t ++ u) = t) : ∀ c ∈ t, c ≠ '\\' := by
  induction t with
  | nil => simp
  | cons c t ih =>
      by_cases hc : c = '\\'
      · have hhalf := length_takeWhile_unescaped (c :: t ++ u)
        have hstop : u.takeWhile (· == .ofChar '\\') = [] :=
          takeWhile_append_of_stopsAt (List.forall_mem_nil _) hu
        have hrun : (c :: t ++ u).takeWhile (· == .ofChar '\\')
            = (c :: t).takeWhile (· == .ofChar '\\') := by
          rw [List.takeWhile_append, hstop]
          split
          · next hall => rw [List.append_nil, (List.takeWhile_prefix _).eq_of_length hall]
          · rfl
        rw [h, hrun, List.takeWhile_cons_of_pos (by simp [hc]), List.length_cons] at hhalf
        omega
      · rw [List.cons_append, unescaped_cons hc] at h
        exact List.forall_mem_cons.2 ⟨hc, ih (List.cons.inj h).2⟩

/-! ## Literals that spell a text -/

/-- The text starts with a literal that one single quote opens. The literal ends, where a bracket
walk takes it to end, right in front of the mark, and what is written in it is the value. -/
def Spells (value mark t : Text) : Prop :=
  ∃ inside after, t = .ofChar '\'' :: (inside ++ .ofChar '\'' :: after)
    ∧ ¬ [.ofChar '\'', .ofChar '\''] <+: inside ++ .ofChar '\'' :: after
    ∧ afterLiteral '\'' (inside ++ .ofChar '\'' :: after) = after ∧ mark <+: after
    ∧ unescaped inside = value

theorem afterLiteral_eq_afterSimple {quote : CodePoint} (h : ¬ [quote, quote] <+: t) :
    afterLiteral quote t = afterSimple quote t := by
  rw [afterLiteral, if_neg fun hprefix => h (List.isPrefixOf_iff_prefix.1 hprefix)]

/-- A literal that spells the text written between the quotes ends at the second of them. -/
theorem eq_of_unescaped_eq {key inside behind after : Text}
    (htext : key ++ .ofChar '\'' :: behind = inside ++ .ofChar '\'' :: after)
    (hkey : unescaped inside = key) :
    (∀ c ∈ key, c ≠ '\\') ∧ inside = key ∧ after = behind := by
  obtain ⟨more, rfl, hstop⟩ : ∃ more, inside = key ++ more ∧ StopsAt (· == '\\') more := by
    rcases List.append_eq_append_iff.1 htext with ⟨more, hinside, hmore⟩ | ⟨more, rfl, -⟩
    · refine ⟨more, hinside, ?_⟩
      cases more with
      | nil => trivial
      | cons c more =>
          obtain ⟨rfl, -⟩ := List.cons.inj hmore
          rfl
    -- unescaping does not make a text longer
    · have hlength := length_unescaped_le inside
      rw [hkey, List.length_append] at hlength
      obtain rfl : more = [] := List.eq_nil_of_length_eq_zero (by omega)
      exact ⟨[], by simp, trivial⟩
  have hslash := forall_ne_of_unescaped_append_eq hstop hkey
  rw [unescaped_append hslash] at hkey
  have hnone : unescaped more = [] := by simpa using hkey
  cases more with
  | nil =>
      rw [List.append_nil] at htext ⊢
      exact ⟨hslash, rfl, (List.cons.inj (List.append_cancel_left htext)).2.symm⟩
  | cons c more =>
      rw [unescaped_cons (beq_eq_false_iff_ne.1 hstop)] at hnone
      cases hnone

/-- A text between single quotes is a literal that spells it exactly when there is neither a quote
nor a backslash in it. -/
theorem spells_iff {key mark : Text} (hmark : StopsAt (· == '\'') mark) (hne : mark ≠ [])
    (rest : Text) :
    Spells key mark (.ofChar '\'' :: (key ++ .ofChar '\'' :: (mark ++ rest)))
      ↔ ∀ c ∈ key, c ≠ '\'' ∧ c ≠ '\\' := by
  constructor
  · rintro ⟨inside, after, htext, hsingle, hend, -, hvalue⟩
    obtain ⟨hslash, rfl, rfl⟩ := eq_of_unescaped_eq (List.cons.inj htext).2 hvalue
    rw [afterLiteral_eq_afterSimple hsingle] at hend
    intro c hc
    refine ⟨?_, hslash c hc⟩
    rintro rfl
    -- the literal would end at the first quote of the key
    obtain ⟨before, behind, rfl, hbefore⟩ := List.eq_append_cons_of_mem hc
    have hplain : ∀ d ∈ before, d ≠ '\'' ∧ d ≠ '\\' := fun d hd =>
      ⟨fun heq => hbefore (heq ▸ hd), hslash d (List.mem_append_left _ hd)⟩
    rw [List.append_assoc, List.cons_append, afterSimple_append rfl hplain] at hend
    have hlength := congrArg List.length hend
    simp only [List.length_append, List.length_cons] at hlength
    omega
  · intro h
    have hsingle : ¬ [.ofChar '\'', .ofChar '\''] <+: key ++ .ofChar '\'' :: (mark ++ rest) :=
      fun hprefix => absurd (List.isPrefixOf_iff_prefix.2 hprefix) (Bool.eq_false_iff.1
        (isPrefixOf_quotes_eq_false (fun c hc => (h c hc).1)
          (stopsAt_append_of_ne_nil hne hmark rest)))
    refine ⟨key, mark ++ rest, rfl, hsingle, ?_, List.prefix_append _ _,
      unescaped_eq_self fun c hc => (h c hc).2⟩
    rw [afterLiteral_eq_afterSimple hsingle, afterSimple_append rfl h]

end Source

/-! ## The body for a list -/

namespace Body

/-- Behind the raw list there is the same text whatever the list is. -/
theorem exists_listItems (item : Text) (primitives : List Json) (factory : Json) :
    ∃ rest, ∀ raw, listItems raw item primitives factory
      = .ofChar '(' :: (raw ++ (" as List)".toText ++ rest)) := by
  have hsource : ∀ raw rest : Text, .ofChar '(' :: raw ++ " as List)".toText ++ rest
      = .ofChar '(' :: (raw ++ (" as List)".toText ++ rest)) := fun raw rest => by simp
  -- a primitive item is coerced or cast, any other one is decoded by its factory
  by_cases hprimitive : Json.memberOf (.str item) primitives = true
  · cases hcoercion : coercion? item with
    | some coerced =>
        refine ⟨".map((e) => ".toText ++ coerced ++ ").toList()".toText, fun raw => ?_⟩
        simp only [listItems, hprimitive, if_true, hcoercion, ← hsource, List.append_assoc]
    | none =>
        refine ⟨".cast<".toText ++ item ++ ">().toList()".toText, fun raw => ?_⟩
        simp only [listItems, hprimitive, if_true, hcoercion, ← hsource, List.append_assoc]
  · refine ⟨".map((e) => ".toText ++ (item ++ .ofChar '.' :: factory.display ++ "(e as ".toText
      ++ objectType ++ [.ofChar ')']) ++ ").toList()".toText, fun raw => ?_⟩
    simp only [listItems, if_neg hprimitive, ← hsource, List.append_assoc]

variable {m : Method} {input key : Text} {o : Options}

/-- The body for a list looks its key up in the input. -/
theorem exists_emit_directList (hinput : inputOf m = .ok (.str input))
    (hkey : o.listDataKey = .str key) (item : Text) (primitives : List Json)
    (envelope : Envelope) :
    ∃ rest : Text, (emit m (some (.directList item)) primitives envelope o).result
      = .ok ("return (".toText ++ input ++ .ofChar '[' :: .ofChar '\'' ::
          (key ++ .ofChar '\'' :: ("] as List)".toText ++ rest))) := by
  obtain ⟨rest, hitems⟩ := exists_listItems item primitives o.itemFactory
  refine ⟨rest ++ [.ofChar ';'], ?_⟩
  have hstatement : statement (.directList item) input primitives envelope o
      = "return (".toText ++ input ++ .ofChar '[' :: .ofChar '\'' ::
          (key ++ .ofChar '\'' :: ("] as List)".toText ++ (rest ++ [.ofChar ';']))) := by
    unfold statement
    dsimp only
    rw [hitems, hkey]
    simp [String.toText, Text.ofChars]
  rw [result_emit, hinput, ← hstatement]
  rfl

/-- **When the key of a list is one literal.** For every key and every input, whatever the item, the
primitive types, the envelope and the other options: the body for a list is emitted, and in it a
bracket behind the input. What stands behind that bracket starts with a literal that ends right in
front of the closing bracket and spells the key if and only if there is neither a single quote nor a
backslash in the key. -/
theorem listKey_spelled_iff (hinput : inputOf m = .ok (.str input))
    (hkey : o.listDataKey = .str key) (item : Text) (primitives : List Json)
    (envelope : Envelope) :
    ∃ t, (emit m (some (.directList item)) primitives envelope o).result
        = .ok ("return (".toText ++ input ++ .ofChar '[' :: t)
      ∧ (Source.Spells key "] as List)".toText t ↔ ∀ c ∈ key, c ≠ '\'' ∧ c ≠ '\\') := by
  obtain ⟨rest, hbody⟩ := exists_emit_directList hinput hkey item primitives envelope
  exact ⟨_, hbody, Source.spells_iff (by exact rfl) (by decide) rest⟩

/-- A method that decodes a list of tasks. -/
def taskList : Method where
  name := .str "taskList".toText
  returnType := .str "List<Task>".toText
  parameters := [{ typeText := .str "Map<String, dynamic>".toText, name := .str inputName }]

/-- A key with a double quote is spelled. -/
theorem listKey_spelled_iff_doubleQuote :
    inputOf taskList = .ok (.str inputName)
      ∧ ({ listDataKey := .str ['a', '"', 'b'] } : Options).listDataKey = .str ['a', '"', 'b']
      ∧ ∃ t, (emit taskList (some (.directList "Task".toText)) dartPrimitives .plain
            { listDataKey := .str ['a', '"', 'b'] }).result = .ok ("return (json[".toText ++ t)
          ∧ Source.Spells ['a', '"', 'b'] "] as List)".toText t := by
  obtain ⟨t, hbody, hspells⟩ := listKey_spelled_iff (m := taskList)
    (o := { listDataKey := .str ['a', '"', 'b'] }) rfl rfl "Task".toText dartPrimitives .plain
  exact ⟨rfl, rfl, t, hbody, hspells.2 (by decide)⟩

/-- A key with a single quote is not spelled behind any bracket of the body. -/
theorem listKey_broken :
    ∃ body, (emit taskList (some (.directList "Task".toText)) dartPrimitives .plain
          { listDataKey := .str "it's".toText }).result = .ok body
      ∧ ∀ before t, body = before ++ inputName ++ .ofChar '[' :: t →
          ¬ Source.Spells "it's".toText "] as List)".toText t := by
  refine ⟨"return (json".toText ++ .ofChar '[' :: .ofChar '\'' :: ("it's".toText
    ++ .ofChar '\'' :: ("] as List)".toText
    ++ ".map((e) => Task.fromJson(e as Map<String, dynamic>)).toList();".toText)), by rfl, ?_⟩
  intro before t htext hspells
  obtain ⟨-, -, rfl⟩ := (List.append_cons_inj_of_notMem (by decide) (by decide)).1 htext
  have hplain := (Source.spells_iff (by exact rfl) (by decide) _).1 hspells
  exact (hplain '\'' (by decide)).1 rfl

end Body

end DartDecoders
