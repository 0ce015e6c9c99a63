/-
Class bodies and their members.

A class body is cut behind every semicolon outside brackets and behind every closing brace that
brings the depth back to zero, unless what follows goes on with the member. Texts of members in a
row with white space around them are therefore cut into exactly these texts, as long as each of
them is cut off at its end and not before: `IsMember` says so for one text, whatever may follow it,
and `splitMembers_layout` for a whole body. Headers with a parameter list are such texts when a
semicolon ends them (`IsMember.of_declaration`) or a block (`IsMember.of_block`).
-/
import DartDecoders.Proofs.Nesting

set_option autoImplicit false

namespace DartDecoders

namespace Source

open Text

/-! ## Classes of characters -/

/-- The six brackets. -/
def brackets : Text :=
  ['(', ')', '[', ']', '\x7b', '\x7d']

theorem isBracket_eq_false {c : CodePoint} (h : ∀ d ∈ brackets, c ≠ d) : isBracket c = false := by
  have hcloser : closerOf? c = none := by
    cases hc : closerOf? c with
    | none => rfl
    | some closer =>
        rcases closerOf?_eq_some hc with ⟨rfl, -⟩ | ⟨rfl, -⟩ | ⟨rfl, -⟩
        · exact absurd rfl (h '(' (by decide))
        · exact absurd rfl (h '\x7b' (by decide))
        · exact absurd rfl (h '[' (by decide))
  simp [isBracket, hcloser, isCloser, h ')' (by decide), h ']' (by decide), h '\x7d' (by decide)]

/-- White space opens no literal and no bracket and ends no member. -/
theorem plain_of_isBlank {c : CodePoint} (h : isBlank c = true) :
    isQuote c = false ∧ isBracket c = false ∧ c ≠ ';' :=
  forall_isBlank (p := fun c => isQuote c = false ∧ isBracket c = false ∧ c ≠ ';')
    (by decide +kernel) h

/-- White space is cut into its characters, whatever follows it. -/
theorem pieces_gap_append {gap : Text} (hgap : ∀ c ∈ gap, isBlank c = true) (t : Text) :
    pieces (gap ++ t) = gap.map Piece.char ++ pieces t :=
  pieces_append_of_forall (fun c hc => (plain_of_isBlank (hgap c hc)).1) t

theorem pieces_gap {gap : Text} (hgap : ∀ c ∈ gap, isBlank c = true) :
    pieces gap = gap.map Piece.char :=
  pieces_of_forall fun c hc => (plain_of_isBlank (hgap c hc)).1

/-! ## Parts -/

theorem prepend_append (t u : Text) (parts : List Text) :
    prepend (t ++ u) parts = prepend t (prepend u parts) := by
  cases parts with
  | nil => rfl
  | cons part rest => simp [prepend]

theorem prepend_nil {parts : List Text} (h : parts ≠ []) : prepend [] parts = parts := by
  cases parts with
  | nil => exact absurd rfl h
  | cons part rest => rfl

theorem prepend_ne_nil (t : Text) (parts : List Text) : prepend t parts ≠ [] := by
  cases parts <;> simp [prepend]

theorem membersFrom_ne_nil (depth : Int) (ps : List Piece) : membersFrom depth ps ≠ [] := by
  cases ps with
  | nil => simp [membersFrom]
  | cons p rest =>
      rw [membersFrom]
      split
      · simp
      · exact prepend_ne_nil _ _

/-! ## Passing over pieces -/

/-- A piece that ends no member belongs to the next part. -/
theorem membersFrom_cons {depth : Int} {p : Piece} {rest : List Piece}
    (h : endsMember depth p rest = false) :
    membersFrom depth (p :: rest) = prepend p.text (membersFrom (depthAfter depth p) rest) := by
  rw [membersFrom, h]
  rfl

theorem endsMember_char {depth : Int} {c : CodePoint} {rest : List Piece} (hsemicolon : c ≠ ';')
    (hbrace : c ≠ '\x7d') : endsMember depth (.char c) rest = false := by
  unfold endsMember
  split
  · next heq => cases heq
  · next heq => exact absurd (Piece.char.inj heq) hsemicolon
  · next heq => exact absurd (Piece.char.inj heq) hbrace
  · rfl

theorem depthAfter_of_isBracket {depth : Int} {c : CodePoint} (h : isBracket c = false) :
    depthAfter depth (.char c) = depth := by
  simp only [isBracket, Bool.or_eq_false_iff] at h
  simp [depthAfter, h.1, h.2]

/-- Text without literals, brackets and semicolons belongs to the next part. -/
theorem membersFrom_append_of_forall {t : Text}
    (h : ∀ c ∈ t, isQuote c = false ∧ isBracket c = false ∧ c ≠ ';') (depth : Int) (rest : Text) :
    membersFrom depth (pieces (t ++ rest)) = prepend t (membersFrom depth (pieces rest)) := by
  rw [pieces_append_of_forall fun c hc => (h c hc).1]
  induction t with
  | nil => exact (prepend_nil (membersFrom_ne_nil _ _)).symm
  | cons c t ih =>
      obtain ⟨-, hbracket, hsemicolon⟩ := h c List.mem_cons_self
      have hbrace : c ≠ '\x7d' := by
        rintro rfl
        cases hbracket
      rw [List.map_cons, List.cons_append, membersFrom_cons (endsMember_char hsemicolon hbrace),
        depthAfter_of_isBracket hbracket, ih fun d hd => h d (List.mem_cons_of_mem c hd)]
      exact (prepend_append [c] t _).symm

theorem depthAfter_opener {opener closer : CodePoint} (h : closerOf? opener = some closer)
    (depth : Int) : depthAfter depth (.char opener) = depth + 1 := by
  simp [depthAfter, h]

theorem depthAfter_closer {opener closer : CodePoint} (h : closerOf? opener = some closer)
    (depth : Int) : depthAfter (depth + 1) (.char closer) = depth := by
  have hcloser := isCloser_of_closerOf? h
  simp [depthAfter, hcloser.1, hcloser.2]

/-- An opening bracket makes the walk go deeper. -/
theorem step_opener {opener closer : CodePoint} (h : closerOf? opener = some closer) (depth : Int)
    (rest : List Piece) : endsMember depth (.char opener) rest = false
      ∧ depthAfter depth (.char opener) = depth + 1 := by
  refine ⟨?_, depthAfter_opener h depth⟩
  rcases closerOf?_eq_some h with ⟨rfl, rfl⟩ | ⟨rfl, rfl⟩ | ⟨rfl, rfl⟩ <;> exact rfl

/-- A closing bracket inside another one brings the walk back. A brace would end a member only at
depth zero. -/
theorem step_closer {opener closer : CodePoint} (h : closerOf? opener = some closer) {depth : Int}
    (hdepth : 1 ≤ depth) (rest : List Piece) :
    endsMember (depth + 1) (.char closer) rest = false
      ∧ depthAfter (depth + 1) (.char closer) = depth := by
  have hne : (depth + 1 - 1 == 0) = false := by
    simp only [beq_eq_false_iff_ne, ne_eq]
    omega
  refine ⟨?_, depthAfter_closer h depth⟩
  rcases closerOf?_eq_some h with ⟨rfl, rfl⟩ | ⟨rfl, rfl⟩ | ⟨rfl, rfl⟩
  · exact rfl
  · rw [endsMember, hne, Bool.false_and]
  · exact rfl

/-- Nothing ends a member inside brackets. The induction is on how the pieces nest, for every depth
but zero. -/
theorem membersFrom_append_of_nested {ps : List Piece} (h : Nested ps) :
    ∀ {depth : Int}, 1 ≤ depth → ∀ rest : List Piece,
      membersFrom depth (ps ++ rest) = prepend (flatten ps) (membersFrom depth rest) := by
  induction h with
  | nil =>
      intro depth _ rest
      exact (prepend_nil (membersFrom_ne_nil _ _)).symm
  | @literal t ps _ ih =>
      intro depth hdepth rest
      rw [List.cons_append, membersFrom_cons rfl,
        show depthAfter depth (.literal t) = depth from rfl, ih hdepth]
      exact (prepend_append t (flatten ps) _).symm
  | @char c ps hc _ ih =>
      intro depth hdepth rest
      have hend : endsMember depth (.char c) (ps ++ rest) = false := by
        unfold endsMember
        split
        · rfl
        -- a semicolon ends a member at depth zero only, and a closing brace is a bracket
        · simp only [beq_eq_false_iff_ne, ne_eq]
          omega
        · next heq => cases Piece.char.inj heq ▸ hc
        · rfl
      rw [List.cons_append, membersFrom_cons hend, depthAfter_of_isBracket hc, ih hdepth]
      exact (prepend_append [c] (flatten ps) _).symm
  | @group opener closer inner ps hcloser _ _ ihinner ih =>
      intro depth hdepth rest
      obtain ⟨hopens, hdeeper⟩ := step_opener hcloser depth ((inner ++ .char closer :: ps) ++ rest)
      obtain ⟨hcloses, hback⟩ := step_closer hcloser hdepth (ps ++ rest)
      rw [List.cons_append, membersFrom_cons hopens, hdeeper, List.append_assoc, List.cons_append,
        ihinner (by omega), membersFrom_cons hcloses, hback, ih hdepth]
      simp only [← prepend_append]
      congr 1
      simp [flatten, Piece.text]

/-- A parameter list outside brackets belongs to the next part. -/
theorem membersFrom_parentheses {inner : Text} (hinner : Balanced inner) (rest : Text) :
    membersFrom 0 (pieces (.ofChar '(' :: (inner ++ .ofChar ')' :: rest)))
      = prepend ('(' :: (inner ++ [.ofChar ')'])) (membersFrom 0 (pieces rest)) := by
  rw [pieces_group rfl hinner.isSealed, membersFrom_cons rfl,
    show depthAfter 0 (.char '(') = 1 from rfl,
    membersFrom_append_of_nested hinner.nested (Int.le_refl 1), flatten_pieces,
    membersFrom_cons rfl, show depthAfter 1 (.char ')') = 0 from rfl]
  simp only [← prepend_append]
  rfl

/-! ## Members -/

/-- A text with which a member does not go on. -/
def EndsBefore (rest : Text) : Prop :=
  match firstVisible? (pieces rest) with
  | some c => continuesMember c = false
  | none => True

/-- The text of a member: it starts and ends visibly, does not go on with another member, and is cut
off at its end in front of every text that does not go on with it. -/
structure IsMember (m : Text) : Prop where
  trimmed : Trimmed m
  start : ∃ c rest, m = c :: rest ∧ isBlank c = false ∧ isQuote c = false
    ∧ continuesMember c = false
  cut : ∀ rest : Text, EndsBefore rest →
    membersFrom 0 (pieces (m ++ rest)) = m :: membersFrom 0 (pieces rest)

theorem IsMember.ne_nil {m : Text} (h : IsMember m) : m ≠ [] := by
  obtain ⟨c, rest, rfl, -⟩ := h.start
  exact List.cons_ne_nil c rest

/-- White space does not matter for going on. -/
theorem EndsBefore.gap {gap rest : Text} (hgap : ∀ c ∈ gap, isBlank c = true)
    (h : EndsBefore rest) : EndsBefore (gap ++ rest) := by
  rw [EndsBefore, pieces_gap_append hgap]
  induction gap with
  | nil => exact h
  | cons c gap ih =>
      rw [List.map_cons, List.cons_append, firstVisible?, if_pos (hgap c List.mem_cons_self)]
      exact ih fun d hd => hgap d (List.mem_cons_of_mem c hd)

theorem endsBefore_nil : EndsBefore [] := by
  rw [EndsBefore, pieces_nil]
  trivial

theorem IsMember.endsBefore {m : Text} (h : IsMember m) (rest : Text) :
    EndsBefore (m ++ rest) := by
  obtain ⟨c, others, rfl, hblank, hquote, hcontinues⟩ := h.start
  rw [EndsBefore, List.cons_append, pieces_cons hquote, firstVisible?, hblank]
  exact hcontinues

/-- A class body with the members in order, the same white space before each and the same behind. -/
def layout (before after : Text) (members : List Text) : Text :=
  members.flatMap fun m => before ++ (m ++ after)

theorem layout_cons (before after m : Text) (members : List Text) :
    layout before after (m :: members)
      = before ++ (m ++ (after ++ layout before after members)) := by
  simp [layout]

theorem trimmedParts_cons {part trimmed : Text} (h : trim part = trimmed) (hne : trimmed ≠ [])
    (parts : List Text) : trimmedParts (part :: parts) = trimmed :: trimmedParts parts := by
  simp [trimmedParts, h, hne]

theorem trimmedParts_cons_of_blank {part : Text} (h : trim part = []) (parts : List Text) :
    trimmedParts (part :: parts) = trimmedParts parts := by
  simp [trimmedParts, h]

/-- White space in front of the parts changes nothing. -/
theorem trimmedParts_prepend {gap : Text} (hgap : ∀ c ∈ gap, isBlank c = true) {parts : List Text}
    (hne : parts ≠ []) : trimmedParts (prepend gap parts) = trimmedParts parts := by
  obtain ⟨part, others, rfl⟩ := List.exists_cons_of_ne_nil hne
  rw [prepend, trimmedParts, trimmedParts, List.map_cons, List.map_cons, trim,
    trimStart_gap_append hgap]
  rfl

theorem trimmed_of_mem_trimmedParts {parts : List Text} {t : Text} (h : t ∈ trimmedParts parts) :
    Trimmed t ∧ t ≠ [] := by
  obtain ⟨hmem, hne⟩ := List.mem_filter.1 h
  obtain ⟨part, -, rfl⟩ := List.mem_map.1 hmem
  exact ⟨trimmed_trim part, by simpa using hne⟩

/-- The members of a laid-out body are the texts that were laid out. -/
theorem splitMembers_layout {before after : Text} (hbefore : ∀ c ∈ before, isBlank c = true)
    (hafter : ∀ c ∈ after, isBlank c = true) {members : List Text}
    (hmembers : ∀ m ∈ members, IsMember m) {gap : Text} (hgap : ∀ c ∈ gap, isBlank c = true) :
    splitMembers (gap ++ layout before after members) = members := by
  rw [splitMembers]
  -- the white space behind a member is cut off with the next one, hence any gap in front
  induction members generalizing gap with
  | nil =>
      rw [membersFrom_append_of_forall fun c hc => plain_of_isBlank (hgap c hc)]
      simp [layout, membersFrom, prepend, trimmedParts, trim_eq_nil hgap]
  | cons m members ih =>
      have hm := hmembers m List.mem_cons_self
      have hothers : ∀ n ∈ members, IsMember n := fun n hn =>
        hmembers n (List.mem_cons_of_mem m hn)
      have hends : EndsBefore (after ++ layout before after members) := by
        refine EndsBefore.gap hafter ?_
        cases members with
        | nil => exact endsBefore_nil
        | cons n members =>
            rw [layout_cons]
            exact EndsBefore.gap hbefore ((hothers n List.mem_cons_self).endsBefore _)
      have hblank : ∀ c ∈ gap ++ before, isBlank c = true :=
        List.forall_mem_append.2 ⟨hgap, hbefore⟩
      rw [layout_cons, ← List.append_assoc,
        membersFrom_append_of_forall fun c hc => plain_of_isBlank (hblank c hc), hm.cut _ hends,
        prepend, trimmedParts_cons (trim_gap_append hblank hm.trimmed) hm.ne_nil, ih hothers hafter]

/-! ## Declarations and blocks -/

/-- A text that may stand before the parameter list of a member. -/
structure IsHeader (header : Text) : Prop where
  plain : ∀ c ∈ header, isQuote c = false ∧ isBracket c = false ∧ c ≠ ';'
  start : ∃ c rest, header = c :: rest ∧ isBlank c = false ∧ continuesMember c = false

theorem IsHeader.start_append {header : Text} (h : IsHeader header) (rest : Text) :
    ∃ c others, header ++ rest = c :: others ∧ isBlank c = false ∧ isQuote c = false
      ∧ continuesMember c = false := by
  obtain ⟨c, others, rfl, hblank, hcontinues⟩ := h.start
  exact ⟨c, others ++ rest, rfl, hblank, (h.plain c List.mem_cons_self).1, hcontinues⟩

/-- A header and what follows it end where the latter does. -/
theorem IsHeader.trimmed_append {header : Text} (h : IsHeader header) {last : CodePoint}
    (hlast : isBlank last = false) (middle : Text) : Trimmed (header ++ (middle ++ [last])) := by
  obtain ⟨c, others, rfl, hblank, -⟩ := h.start
  refine ⟨hblank, ?_⟩
  rw [List.reverse_append, List.reverse_append, List.append_assoc]
  exact hlast

/-- Cutting takes a header with its parameter list into the next part. -/
theorem membersFrom_header {header inner : Text} (h : IsHeader header) (hinner : Balanced inner)
    (rest : Text) :
    membersFrom 0 (pieces (header ++ .ofChar '(' :: (inner ++ .ofChar ')' :: rest)))
      = prepend (header ++ .ofChar '(' :: (inner ++ [.ofChar ')']))
        (membersFrom 0 (pieces rest)) := by
  rw [membersFrom_append_of_forall h.plain, membersFrom_parentheses hinner, ← prepend_append]

/-- A block ends a member when what follows does not go on with it. -/
theorem membersFrom_block {block rest : Text} (hblock : Balanced block) (hrest : EndsBefore rest) :
    membersFrom 0 (pieces (.ofChar '\x7b' :: (block ++ .ofChar '\x7d' :: rest)))
      = (.ofChar '\x7b' :: (block ++ [.ofChar '\x7d'])) :: membersFrom 0 (pieces rest) := by
  have hend : endsMember 1 (.char '\x7d') (pieces rest) = true := by
    rw [EndsBefore] at hrest
    rw [endsMember]
    cases hvisible : firstVisible? (pieces rest) with
    | none => rfl
    | some c =>
        rw [hvisible] at hrest
        simpa using hrest
  have hclosing : membersFrom 1 (.char '\x7d' :: pieces rest)
      = [.ofChar '\x7d'] :: membersFrom 0 (pieces rest) := by
    rw [membersFrom, hend]
    rfl
  rw [pieces_group rfl hblock.isSealed, membersFrom_cons rfl,
    show depthAfter 0 (.char '\x7b') = 1 from rfl,
    membersFrom_append_of_nested hblock.nested (Int.le_refl 1), flatten_pieces, hclosing]
  simp [prepend, Piece.text]

/-- A header with a parameter list and a semicolon is a member. -/
theorem IsMember.of_declaration {header inner : Text} (h : IsHeader header)
    (hinner : Balanced inner) :
    IsMember (header ++ .ofChar '(' :: (inner ++ [.ofChar ')', .ofChar ';'])) where
  trimmed := by
    have hlast : isBlank ';' = false := by decide
    have htrimmed := h.trimmed_append hlast ('(' :: (inner ++ [.ofChar ')']))
    simpa using htrimmed
  start := h.start_append _
  cut := by
    intro rest _
    have htext : (header ++ .ofChar '(' :: (inner ++ [.ofChar ')', .ofChar ';'])) ++ rest
        = header ++ .ofChar '(' :: (inner ++ .ofChar ')' :: .ofChar ';' :: rest) := by simp
    rw [htext, membersFrom_header h hinner, pieces_cons (c := ';') rfl, membersFrom]
    simp [endsMember, prepend, Piece.text, depthAfter, closerOf?, isCloser]

/-- A header with a parameter list and a block is a member. -/
theorem IsMember.of_block {header inner block : Text} (h : IsHeader header)
    (hinner : Balanced inner) (hblock : Balanced block) :
    IsMember (header ++ .ofChar '(' :: (inner
      ++ .ofChar ')' :: .ofChar ' ' :: .ofChar '\x7b' :: (block ++ [.ofChar '\x7d']))) where
  trimmed := by
    have hlast : isBlank '\x7d' = false := by decide
    have htrimmed := h.trimmed_append hlast
      (.ofChar '(' :: (inner ++ .ofChar ')' :: .ofChar ' ' :: .ofChar '\x7b' :: block))
    simpa using htrimmed
  start := h.start_append _
  cut := by
    intro rest hrest
    have htext : (header ++ .ofChar '(' :: (inner
        ++ .ofChar ')' :: .ofChar ' ' :: .ofChar '\x7b' :: (block ++ [.ofChar '\x7d']))) ++ rest
        = header ++ .ofChar '(' :: (inner ++ .ofChar ')'
          :: .ofChar ' ' :: .ofChar '\x7b' :: (block ++ .ofChar '\x7d' :: rest)) := by simp
    have hspace :
        membersFrom 0 (pieces (.ofChar ' ' :: .ofChar '\x7b' :: (block ++ .ofChar '\x7d' :: rest)))
        = prepend [' ']
          (membersFrom 0 (pieces (.ofChar '\x7b' :: (block ++ .ofChar '\x7d' :: rest)))) := by
      rw [pieces_cons (c := ' ') rfl, membersFrom_cons rfl]
      rfl
    rw [htext, membersFrom_header h hinner, hspace, membersFrom_block hblock hrest]
    simp [prepend]

end Source

end DartDecoders
