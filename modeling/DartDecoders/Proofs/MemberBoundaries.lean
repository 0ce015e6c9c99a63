/-
Where class bodies are cut.

A member ends in its only semicolon outside brackets (`IsStatement`), or in a block that is its only
group of braces there (`IsBlock`). In a body of such members with a line break between neighbours
every end of a member is cut, so each member is cut on its own, whatever stands next to it
(`splitMembers_join`). Whether it is left whole is up to the braces in it: one that closes outside
brackets is taken for an end unless one of six characters follows. So the members come back exactly
when each such brace inside of them is followed by one of the six (`splitMembers_join_iff`). That
holds of every member with a block. A statement falls apart where a collection in braces is an
operand of another operator, is indexed or called.
-/
import DartDecoders.Proofs.AdjacentTexts
import DartDecoders.Proofs.Members
import DartDecoders.Proofs.TypeText
import DartDecoders.Proofs.WrittenTypes

set_option autoImplicit false

namespace DartDecoders

namespace Source

open Text

/-! ## Going on with a member -/

/-- Whether the first visible character of the pieces goes on with a member. -/
def goesOn (ps : List Piece) : Bool :=
  (firstVisible? ps).any continuesMember

theorem endsBefore_iff {t : Text} : EndsBefore t ↔ goesOn (pieces t) = false := by
  rw [EndsBefore, goesOn]
  cases firstVisible? (pieces t) <;> simp

/-- Whether pieces go on with a member is up to what follows them only in whether that does, even
if they are white space. -/
theorem goesOn_append_congr {rest rest' : List Piece} (h : goesOn rest = goesOn rest') :
    ∀ ps : List Piece, goesOn (ps ++ rest) = goesOn (ps ++ rest')
  | [] => h
  | .literal _ :: _ => rfl
  | .char c :: ps => by
    have ih := goesOn_append_congr h ps
    rw [goesOn, goesOn] at ih
    rw [goesOn, goesOn, List.cons_append, List.cons_append, firstVisible?, firstVisible?]
    split
    · exact ih
    · rfl

theorem goesOn_append {rest : List Piece} (hrest : goesOn rest = false) (ps : List Piece) :
    goesOn (ps ++ rest) = goesOn ps := by
  have hnil : goesOn rest = goesOn [] := hrest
  rw [goesOn_append_congr hnil, List.append_nil]

theorem endsMember_semicolon (depth : Int) (rest : List Piece) :
    endsMember depth (.char ';') rest = (depth == 0) := rfl

theorem endsMember_brace (depth : Int) (rest : List Piece) :
    endsMember depth (.char '\x7d') rest = (depth - 1 == 0 && !goesOn rest) := by
  rw [endsMember, goesOn]
  cases firstVisible? rest <;> rfl

/-- A piece that ends a member is a semicolon or a closing brace. -/
theorem endsMember_cases (depth : Int) (p : Piece) (rest : List Piece) :
    endsMember depth p rest = false ∨ p = .char ';' ∨ p = .char '\x7d' := by
  cases p with
  | literal t => exact .inl rfl
  | char c =>
      by_cases hsemicolon : c = ';'
      · exact .inr (.inl (by rw [hsemicolon]))
      by_cases hbrace : c = '\x7d'
      · exact .inr (.inr (by rw [hbrace]))
      exact .inl (endsMember_char hsemicolon hbrace)

theorem endsMember_congr {rest rest' : List Piece} (h : goesOn rest = goesOn rest') (depth : Int)
    (p : Piece) : endsMember depth p rest = endsMember depth p rest' := by
  rcases endsMember_cases depth p rest with hfalse | rfl | rfl
  · rcases endsMember_cases depth p rest' with hfalse' | rfl | rfl
    · rw [hfalse, hfalse']
    · rfl
    · rw [endsMember_brace, endsMember_brace, h]
  · rfl
  · rw [endsMember_brace, endsMember_brace, h]

theorem endsMember_append {rest : List Piece} (hrest : goesOn rest = false) (depth : Int)
    (p : Piece) (ps : List Piece) : endsMember depth p (ps ++ rest) = endsMember depth p ps :=
  endsMember_congr (goesOn_append hrest ps) depth p

/-! ## Depths -/

/-- The bracket depth behind pieces. -/
def depthBehind (depth : Int) (ps : List Piece) : Int :=
  ps.foldl depthAfter depth

@[simp] theorem depthBehind_nil (depth : Int) : depthBehind depth [] = depth := rfl

@[simp] theorem depthBehind_cons (depth : Int) (p : Piece) (ps : List Piece) :
    depthBehind depth (p :: ps) = depthBehind (depthAfter depth p) ps := rfl

@[simp] theorem depthBehind_append (depth : Int) (ps qs : List Piece) :
    depthBehind depth (ps ++ qs) = depthBehind (depthBehind depth ps) qs :=
  List.foldl_append

variable {ps : List Piece}

/-- Nested pieces lead back to the depth that they start at. -/
theorem Nested.depthBehind_eq (h : Nested ps) : ∀ depth : Int, depthBehind depth ps = depth := by
  induction h with
  | nil => exact fun _ => rfl
  | literal _ ih => exact ih
  | char hc _ ih =>
      intro depth
      rw [depthBehind_cons, depthAfter_of_isBracket hc, ih]
  | group hcloser _ _ ihinner ih =>
      intro depth
      rw [depthBehind_cons, depthAfter_opener hcloser, depthBehind_append, ihinner,
        depthBehind_cons, depthAfter_closer hcloser, ih]

/-! ## Outside brackets -/

/-- The pieces that stand outside brackets. The bracket that opens a group there is one of them, the
one that closes it is not. -/
def outside : Int → List Piece → List Piece
  | _, [] => []
  | depth, p :: rest =>
    if depth = 0 then p :: outside (depthAfter depth p) rest
    else outside (depthAfter depth p) rest

/-- What follows each of the braces that close a group outside brackets. -/
def behindBraces : Int → List Piece → List (List Piece)
  | _, [] => []
  | depth, p :: rest =>
    if p = .char '\x7d' ∧ depth = 1 then rest :: behindBraces (depthAfter depth p) rest
    else behindBraces (depthAfter depth p) rest

theorem outside_append (depth : Int) (ps qs : List Piece) :
    outside depth (ps ++ qs) = outside depth ps ++ outside (depthBehind depth ps) qs := by
  induction ps generalizing depth with
  | nil => rfl
  | cons p ps ih =>
      rw [List.cons_append, outside, outside, ih, depthBehind_cons]
      split <;> rfl

theorem behindBraces_append (depth : Int) (ps qs : List Piece) :
    behindBraces depth (ps ++ qs)
      = (behindBraces depth ps).map (· ++ qs) ++ behindBraces (depthBehind depth ps) qs := by
  induction ps generalizing depth with
  | nil => rfl
  | cons p ps ih =>
      rw [List.cons_append, behindBraces, behindBraces, ih, depthBehind_cons]
      split <;> rfl

/-- Inside brackets nothing stands outside brackets, and no group is closed there. -/
theorem Nested.inside (h : Nested ps) : ∀ {depth : Int}, 1 ≤ depth →
    outside depth ps = [] ∧ behindBraces depth ps = [] := by
  induction h with
  | nil => exact fun _ => ⟨rfl, rfl⟩
  | literal _ ih =>
      intro depth hdepth
      rw [outside, behindBraces, if_neg (by omega), if_neg (by simp)]
      exact ih hdepth
  | @char c ps hc _ ih =>
      intro depth hdepth
      have hbrace : ¬ (Piece.char c = .char '\x7d' ∧ depth = 1) := by
        rintro ⟨heq, -⟩
        cases heq
        cases hc
      rw [outside, behindBraces, if_neg (by omega), if_neg hbrace, depthAfter_of_isBracket hc]
      exact ih hdepth
  | @group opener closer inner ps hcloser hinner _ ihinner ih =>
      intro depth hdepth
      have hdeeper : 1 ≤ depth + 1 := by omega
      obtain ⟨hout, hbehind⟩ := ihinner hdeeper
      have hopener : ¬ (Piece.char opener = .char '\x7d' ∧ depth = 1) := by
        rintro ⟨heq, -⟩
        cases heq
        cases hcloser
      rw [outside, behindBraces, if_neg (by omega), if_neg hopener, depthAfter_opener hcloser,
        outside_append, behindBraces_append, hout, hbehind, hinner.depthBehind_eq, outside,
        behindBraces, if_neg (by omega), if_neg (by omega), depthAfter_closer hcloser]
      exact ih hdepth

section Group

variable {opener closer : CodePoint} {inner : List Piece}

/-- Of a group only the bracket that opens it stands outside brackets. -/
theorem Nested.outside_group (hinner : Nested inner) (hcloser : closerOf? opener = some closer)
    (rest : List Piece) : outside 0 (.char opener :: (inner ++ .char closer :: rest))
      = .char opener :: outside 0 rest := by
  rw [outside, if_pos rfl, depthAfter_opener hcloser, outside_append, hinner.depthBehind_eq,
    show outside (0 + 1) inner = [] from (hinner.inside (Int.le_refl 1)).1, outside,
    if_neg (by decide), depthAfter_closer hcloser]
  rfl

/-- Of a group in braces what follows it is behind a brace. -/
theorem Nested.behindBraces_group (hinner : Nested inner)
    (hcloser : closerOf? opener = some closer) (rest : List Piece) :
    behindBraces 0 (.char opener :: (inner ++ .char closer :: rest))
      = if opener = '\x7b' then rest :: behindBraces 0 rest else behindBraces 0 rest := by
  have hclosing : (Piece.char closer = .char '\x7d' ∧ (0 : Int) + 1 = 1) ↔ opener = '\x7b' := by
    rcases closerOf?_eq_some hcloser with ⟨rfl, rfl⟩ | ⟨rfl, rfl⟩ | ⟨rfl, rfl⟩ <;> decide
  rw [behindBraces, if_neg (by simp), depthAfter_opener hcloser, behindBraces_append,
    hinner.depthBehind_eq,
    show behindBraces (0 + 1) inner = [] from (hinner.inside (Int.le_refl 1)).2, behindBraces,
    depthAfter_closer hcloser]
  exact if_congr hclosing rfl rfl

end Group

/-- Without a brace that opens a group outside brackets there is none that closes one. -/
theorem Nested.behindBraces_eq_nil (h : Nested ps) (hbrace : Piece.char '\x7b' ∉ outside 0 ps) :
    behindBraces 0 ps = [] := by
  induction h with
  | nil => rfl
  | literal _ ih =>
      rw [behindBraces, if_neg (by simp)]
      exact ih fun hmem => hbrace (List.mem_cons_of_mem _ hmem)
  | char hc _ ih =>
      rw [outside, if_pos rfl, depthAfter_of_isBracket hc] at hbrace
      rw [behindBraces, if_neg (by simp), depthAfter_of_isBracket hc]
      exact ih fun hmem => hbrace (List.mem_cons_of_mem _ hmem)
  | @group opener closer inner ps hcloser hinner _ _ ih =>
      rw [hinner.outside_group hcloser] at hbrace
      have hne : opener ≠ '\x7b' := by
        rintro rfl
        exact hbrace List.mem_cons_self
      rw [hinner.behindBraces_group hcloser, if_neg hne]
      exact ih fun hmem => hbrace (List.mem_cons_of_mem _ hmem)

theorem exists_of_mem_behindBraces {after : List Piece} :
    ∀ {depth : Int} {ps : List Piece}, after ∈ behindBraces depth ps →
      ∃ before, ps = before ++ .char '\x7d' :: after ∧ depthBehind depth before = 1
  | _, [], h => by cases h
  | depth, p :: rest, h => by
    have htail : after ∈ behindBraces (depthAfter depth p) rest →
        ∃ before, p :: rest = before ++ .char '\x7d' :: after ∧ depthBehind depth before = 1 := by
      intro hmem
      obtain ⟨before, heq, hdepth⟩ := exists_of_mem_behindBraces hmem
      exact ⟨p :: before, by rw [heq]; rfl, hdepth⟩
    rw [behindBraces] at h
    split at h
    · next hbrace =>
        rcases List.mem_cons.1 h with rfl | hmem
        · exact ⟨[], by rw [hbrace.1]; rfl, hbrace.2⟩
        · exact htail hmem
    · exact htail h

/-! ## Cutting pieces -/

/-- None of the pieces ends a member, with the rest behind them. -/
def Uncut (rest : List Piece) : Int → List Piece → Prop
  | _, [] => True
  | depth, p :: ps =>
    endsMember depth p (ps ++ rest) = false ∧ Uncut rest (depthAfter depth p) ps

/-- Pieces that end no member belong to the next part. -/
theorem Uncut.membersFrom_append {rest : List Piece} {depth : Int} {ps : List Piece}
    (h : Uncut rest depth ps) : membersFrom depth (ps ++ rest)
      = prepend (flatten ps) (membersFrom (depthBehind depth ps) rest) := by
  induction ps generalizing depth with
  | nil => exact (prepend_nil (membersFrom_ne_nil _ _)).symm
  | cons p ps ih =>
      rw [List.cons_append, membersFrom_cons h.1, ih h.2, ← prepend_append, depthBehind_cons]
      rfl

/-- Nothing is cut where no semicolon stands outside brackets and every brace that closes a group
there is followed by what goes on with the member. -/
theorem Uncut.of_outside {rest : List Piece} : ∀ {depth : Int} {ps : List Piece},
    Piece.char ';' ∉ outside depth ps →
    (∀ after ∈ behindBraces depth ps, goesOn (after ++ rest) = true) → Uncut rest depth ps
  | _, [], _, _ => trivial
  | depth, p :: ps, hsemicolon, hbraces => by
    -- both conditions are left for the pieces behind the first, at the depth behind it
    have hsemicolon' : Piece.char ';' ∉ outside (depthAfter depth p) ps := by
      intro hmem
      rw [outside] at hsemicolon
      split at hsemicolon
      · exact hsemicolon (List.mem_cons_of_mem _ hmem)
      · exact hsemicolon hmem
    have hbraces' : ∀ after ∈ behindBraces (depthAfter depth p) ps,
        goesOn (after ++ rest) = true := by
      intro after hmem
      refine hbraces after ?_
      rw [behindBraces]
      split
      · exact List.mem_cons_of_mem _ hmem
      · exact hmem
    refine ⟨?_, Uncut.of_outside hsemicolon' hbraces'⟩
    rcases endsMember_cases depth p (ps ++ rest) with hfalse | rfl | rfl
    · exact hfalse
    · rw [endsMember_semicolon, beq_eq_false_iff_ne]
      rintro rfl
      exact hsemicolon List.mem_cons_self
    · rw [endsMember_brace]
      by_cases hdepth : depth = 1
      · rw [behindBraces, if_pos ⟨rfl, hdepth⟩] at hbraces
        rw [hbraces ps List.mem_cons_self, Bool.not_true, Bool.and_false]
      · have hne : (depth - 1 == 0) = false := by
          rw [beq_eq_false_iff_ne]
          omega
        rw [hne, Bool.false_and]

theorem visible_of_endsMember {depth : Int} {p : Piece} {rest : List Piece}
    (h : endsMember depth p rest = true) : visible p.text ≠ [] := by
  rcases endsMember_cases depth p rest with hfalse | rfl | rfl
  · rw [hfalse] at h
    cases h
  · decide
  · decide

/-- Pieces with which a member ends are cut into the same parts whatever follows, as long as that
does not go on with the member. The parts are visible, since each has a semicolon or a brace. -/
theorem exists_parts {e : Piece} : ∀ {depth : Int} {ps : List Piece},
    endsMember (depthBehind depth ps) e [] = true →
      ∃ parts, parts ≠ [] ∧ (∀ part ∈ parts, visible part ≠ []) ∧ ∀ rest, goesOn rest = false →
        membersFrom depth (ps ++ e :: rest)
          = parts ++ membersFrom (depthBehind depth (ps ++ [e])) rest := by
  intro depth ps hend
  induction ps generalizing depth with
  | nil =>
      refine ⟨[e.text], List.cons_ne_nil _ _,
        List.forall_mem_singleton.2 (visible_of_endsMember hend), fun rest hrest => ?_⟩
      have hcut : endsMember depth e rest = true := (endsMember_append hrest depth e []).trans hend
      rw [List.nil_append, membersFrom, if_pos hcut]
      rfl
  | cons p ps ih =>
      obtain ⟨parts, hne, hparts, hlaw⟩ := ih hend
      -- looking ahead stops at the last piece at the latest, so what follows it decides nothing
      have hsame : ∀ rest, goesOn rest = false →
          endsMember depth p (ps ++ e :: rest) = endsMember depth p (ps ++ [e]) := by
        intro rest hrest
        rw [List.append_cons]
        exact endsMember_append hrest depth p (ps ++ [e])
      by_cases hp : endsMember depth p (ps ++ [e]) = true
      · refine ⟨p.text :: parts, List.cons_ne_nil _ _,
          List.forall_mem_cons.2 ⟨visible_of_endsMember hp, hparts⟩, fun rest hrest => ?_⟩
        rw [List.cons_append, membersFrom, if_pos ((hsame rest hrest).trans hp), hlaw rest hrest]
        rfl
      · obtain ⟨part, others, rfl⟩ := List.exists_cons_of_ne_nil hne
        obtain ⟨hpart, hothers⟩ := List.forall_mem_cons.1 hparts
        have hlonger : visible (p.text ++ part) ≠ [] := by
          rw [visible_append]
          exact List.append_ne_nil_of_right_ne_nil _ hpart
        refine ⟨(p.text ++ part) :: others, List.cons_ne_nil _ _,
          List.forall_mem_cons.2 ⟨hlonger, hothers⟩, fun rest hrest => ?_⟩
        rw [List.cons_append, membersFrom, if_neg (by rw [hsame rest hrest]; exact hp),
          hlaw rest hrest]
        rfl

/-! ## Texts of members -/

/-- A member that ends in its only semicolon outside brackets: a field, a method without a body or
one with an arrow. -/
def IsStatement (m : Text) : Prop :=
  ∃ front, pieces m = front ++ [.char ';'] ∧ Nested front ∧ Piece.char ';' ∉ outside 0 front

/-- A member whose only group of braces outside brackets is a block at its end. -/
def IsBlock (m : Text) : Prop :=
  ∃ header block, pieces m = header ++ .char '\x7b' :: (block ++ [.char '\x7d']) ∧ Nested header
    ∧ Nested block ∧ Piece.char ';' ∉ outside 0 header ∧ Piece.char '\x7b' ∉ outside 0 header

/-- The text of a member. Since it ends outside literals, all of them are closed. -/
structure MemberText (m : Text) : Prop where
  trimmed : Trimmed m
  start : ∃ c rest, m = c :: rest ∧ (isWordChar c = true ∨ c = '@')
  shape : IsStatement m ∨ IsBlock m

/-- Each brace that closes a group outside brackets is the end of the text or followed by what goes
on with a member. -/
def Continued (m : Text) : Prop :=
  ∀ after ∈ behindBraces 0 (pieces m), after = [] ∨ goesOn after = true

instance (m : Text) : Decidable (Continued m) :=
  inferInstanceAs
    (Decidable (∀ after ∈ behindBraces 0 (pieces m), after = [] ∨ goesOn after = true))

theorem Balanced.plain {t : Text} (h : ∀ c ∈ t, isQuote c = false ∧ isBracket c = false) :
    Balanced t :=
  .of_forall (fun c hc => (h c hc).1) fun c hc => (h c hc).2

theorem IsStatement.of_balanced {front : Text} (h : Balanced front)
    (hsemicolon : Piece.char ';' ∉ outside 0 (pieces front)) :
    IsStatement (front ++ [.ofChar ';']) := by
  refine ⟨pieces front, ?_, h.nested, hsemicolon⟩
  rw [h.isSealed [';'] (show StopsAt isQuote [';'] from rfl), pieces_cons rfl, pieces_nil]

theorem IsBlock.of_balanced {header block : Text} (hheader : Balanced header)
    (hblock : Balanced block) (hsemicolon : Piece.char ';' ∉ outside 0 (pieces header))
    (hbrace : Piece.char '\x7b' ∉ outside 0 (pieces header)) :
    IsBlock (header ++ .ofChar '\x7b' :: (block ++ [.ofChar '\x7d'])) := by
  refine ⟨pieces header, pieces block, ?_, hheader.nested, hblock.nested, hsemicolon, hbrace⟩
  rw [hheader.isSealed _ (show StopsAt isQuote ('\x7b' :: (block ++ [.ofChar '\x7d'])) from rfl),
    pieces_group rfl hblock.isSealed, pieces_nil]

/-- The only brace that closes a group outside brackets is the last one of the block. -/
theorem IsBlock.continued {m : Text} (h : IsBlock m) : Continued m := by
  obtain ⟨header, block, hpieces, hheader, hblock, -, hbrace⟩ := h
  have hbehind : behindBraces 0 (pieces m) = [[]] := by
    rw [hpieces, behindBraces_append, hheader.behindBraces_eq_nil hbrace, hheader.depthBehind_eq,
      hblock.behindBraces_group closerOf?_brace]
    rfl
  rw [Continued, hbehind]
  exact List.forall_mem_singleton.2 (.inl rfl)

/-- The last piece of a member ends it, and no semicolon does so before. -/
theorem MemberText.exists_end {m : Text} (h : MemberText m) : ∃ front c,
    pieces m = front ++ [.char c] ∧ endsMember (depthBehind 0 front) (.char c) [] = true
      ∧ depthBehind 0 (pieces m) = 0 ∧ Piece.char ';' ∉ outside 0 front := by
  rcases h.shape with ⟨front, hpieces, hnested, hsemicolon⟩
    | ⟨header, block, hpieces, hheader, hblock, hsemicolon, -⟩
  -- the semicolon stands at depth zero, the brace brings the depth back to it
  · refine ⟨front, ';', hpieces, ?_, ?_, hsemicolon⟩
    · rw [hnested.depthBehind_eq]
      rfl
    · rw [hpieces, depthBehind_append, hnested.depthBehind_eq]
      rfl
  · have hinside : depthBehind 0 (header ++ .char '\x7b' :: block) = 1 := by
      rw [depthBehind_append, hheader.depthBehind_eq, depthBehind_cons, hblock.depthBehind_eq]
      rfl
    have hsplit : pieces m = (header ++ .char '\x7b' :: block) ++ [.char '\x7d'] := by
      rw [hpieces, List.append_assoc, List.cons_append]
    refine ⟨_, '\x7d', hsplit, ?_, ?_, ?_⟩
    · rw [hinside]
      rfl
    · rw [hsplit, depthBehind_append, hinside]
      rfl
    · rw [outside_append, hheader.depthBehind_eq, outside, if_pos rfl,
        show depthAfter 0 (.char '\x7b') = 1 from rfl, (hblock.inside (Int.le_refl 1)).1]
      simpa using hsemicolon

/-- The text of a member goes on with no other. -/
theorem MemberText.endsBefore {m : Text} (h : MemberText m) (rest : Text) :
    EndsBefore (m ++ rest) := by
  obtain ⟨c, others, rfl, hstart⟩ := h.start
  have hplain : isBlank c = false ∧ isQuote c = false ∧ continuesMember c = false := by
    rcases hstart with hword | rfl
    · have hclass : ∀ d ∈ (['\'', '"', ';', '.', ',', '?', ')', ']'] : Text),
          isWordChar d = false := by
        decide +kernel
      have hne : ∀ d ∈ (['\'', '"', ';', '.', ',', '?', ')', ']'] : Text), c ≠ d := fun d hd =>
        ne_of_class hword (hclass d hd)
      refine ⟨isBlank_of_isNameChar (isNameChar_of_isWordChar hword), ?_, ?_⟩
      · simp [isQuote, hne]
      · simp [continuesMember, hne]
    · decide +kernel
  rw [EndsBefore, List.cons_append, pieces_cons hplain.2.1, firstVisible?, hplain.1]
  exact hplain.2.2

theorem MemberText.ne_nil {m : Text} (h : MemberText m) : m ≠ [] := by
  obtain ⟨c, rest, rfl, -⟩ := h.start
  exact List.cons_ne_nil c rest

/-! ## Bodies -/

theorem splitMembers_nil : splitMembers [] = [] := by
  rw [splitMembers, pieces_nil]
  rfl

/-- White space in front of a class body changes nothing. -/
theorem splitMembers_gap {gap : Text} (hgap : ∀ c ∈ gap, isBlank c = true) (t : Text) :
    splitMembers (gap ++ t) = splitMembers t := by
  rw [splitMembers, splitMembers,
    membersFrom_append_of_forall fun c hc => plain_of_isBlank (hgap c hc)]
  exact trimmedParts_prepend hgap (membersFrom_ne_nil _ _)

/-- Visible parts are not left out. -/
theorem trimmedParts_append_of_visible {parts : List Text} (h : ∀ part ∈ parts, visible part ≠ [])
    (others : List Text) :
    trimmedParts (parts ++ others) = parts.map trim ++ trimmedParts others := by
  have hparts : ∀ t ∈ parts.map trim, (!t.isEmpty) = true := by
    intro t ht
    obtain ⟨part, hpart, rfl⟩ := List.mem_map.1 ht
    have hne : trim part ≠ [] := by
      intro hnil
      refine h part hpart ?_
      rw [← visible_trim, hnil]
      rfl
    simpa using hne
  rw [trimmedParts, List.map_append, List.filter_append, List.filter_eq_self.2 hparts]
  rfl

variable {m : Text} {ms : List Text}

/-- What a member is cut into does not depend on what follows it, and is something. -/
theorem MemberText.splitMembers_append (h : MemberText m) {rest : Text} (hrest : EndsBefore rest) :
    splitMembers (m ++ rest) = splitMembers m ++ splitMembers rest ∧ splitMembers m ≠ [] := by
  obtain ⟨front, c, hpieces, hend, hdepth, -⟩ := h.exists_end
  obtain ⟨parts, hne, hvisible, hlaw⟩ := exists_parts hend
  have happend : ∀ rest : Text, EndsBefore rest →
      splitMembers (m ++ rest) = parts.map trim ++ splitMembers rest := by
    intro rest hrest
    rw [splitMembers, pieces_append hpieces, hpieces, List.append_assoc, List.singleton_append,
      hlaw _ (endsBefore_iff.1 hrest), ← hpieces, hdepth, trimmedParts_append_of_visible hvisible]
    rfl
  have halone : splitMembers m = parts.map trim := by
    have hnil := happend [] endsBefore_nil
    rwa [List.append_nil, splitMembers_nil, List.append_nil] at hnil
  rw [halone]
  exact ⟨happend rest hrest, by simpa using hne⟩

/-- In a body with the members on lines of their own each member is cut on its own. -/
theorem splitMembers_join (h : ∀ m ∈ ms, MemberText m) :
    splitMembers (join ['\n'] ms) = ms.flatMap splitMembers := by
  induction ms with
  | nil => exact splitMembers_nil
  | cons m ms ih =>
      obtain ⟨hm, hms⟩ := List.forall_mem_cons.1 h
      cases ms with
      | nil => rw [join_singleton, List.flatMap_singleton]
      | cons next ms =>
          have hbreak : ∀ c ∈ [CodePoint.ofChar '\n'], isBlank c = true := by decide
          have hnext : EndsBefore (join ['\n'] (next :: ms)) := by
            have hstart := (List.forall_mem_cons.1 hms).1.endsBefore
            cases ms with
            | nil => simpa [join_singleton] using hstart []
            | cons third ms =>
                rw [join_cons_cons]
                exact hstart _
          rw [List.flatMap_cons, join_cons_cons, (hm.splitMembers_append (hnext.gap hbreak)).1,
            splitMembers_gap hbreak, ih hms]

/-- A member whose braces are followed by what goes on with it is left whole. -/
theorem MemberText.splitMembers_eq_of_continued (h : MemberText m) (hm : Continued m) :
    splitMembers m = [m] := by
  obtain ⟨front, c, hpieces, hend, -, hsemicolon⟩ := h.exists_end
  have hbraces : ∀ after ∈ behindBraces 0 front, goesOn (after ++ [.char c]) = true := by
    intro after hafter
    have hmem : after ++ [.char c] ∈ behindBraces 0 (pieces m) := by
      rw [hpieces, behindBraces_append]
      exact List.mem_append_left _ (List.mem_map_of_mem hafter)
    rcases hm _ hmem with hnil | hgoes
    · simp at hnil
    · exact hgoes
  have hwhole : membersFrom 0 (pieces m) = [m, []] := by
    have htext := flatten_pieces m
    rw [hpieces, flatten, List.flatMap_append] at htext
    rw [hpieces, (Uncut.of_outside hsemicolon hbraces).membersFrom_append, membersFrom,
      if_pos hend]
    exact congrArg (· :: [[]]) htext
  rw [splitMembers, hwhole, trimmedParts_cons h.trimmed.trim_eq h.ne_nil]
  rfl

/-- A member with a brace that is not followed so is cut behind it and at the end. -/
theorem MemberText.continued_of_splitMembers_eq (h : MemberText m) (hm : splitMembers m = [m]) :
    Continued m := by
  obtain ⟨front, c, hpieces, hend, -, -⟩ := h.exists_end
  intro after hafter
  refine or_iff_not_imp_left.2 fun hne => ?_
  by_contra hgoes
  obtain ⟨before, hbefore, hdepth⟩ := exists_of_mem_behindBraces hafter
  obtain ⟨left, last, rfl⟩ := (List.eq_nil_or_concat' after).resolve_left hne
  obtain ⟨hfront, hlast⟩ : front = before ++ .char '\x7d' :: left ∧ [.char c] = [last] := by
    refine List.append_inj' ?_ rfl
    rw [← hpieces, hbefore, List.append_assoc, List.cons_append]
  obtain rfl : Piece.char c = last := List.singleton_inj.1 hlast
  -- cut behind the brace and at the end, the text gives two visible parts
  have hbrace : endsMember (depthBehind 0 before) (.char '\x7d') [] = true := by
    rw [hdepth]
    rfl
  rw [hfront, List.append_cons, depthBehind_append] at hend
  obtain ⟨parts, hparts, hvisible, hlaw⟩ := exists_parts hbrace
  obtain ⟨others, hothers, hvisible', hlaw'⟩ := exists_parts hend
  rw [splitMembers, hbefore, hlaw _ (Bool.eq_false_iff.2 hgoes), hlaw' [] rfl,
    trimmedParts_append_of_visible hvisible, trimmedParts_append_of_visible hvisible'] at hm
  have hlength := congrArg List.length hm
  have hpos := List.length_pos_iff.2 hparts
  have hpos' := List.length_pos_iff.2 hothers
  simp only [List.length_append, List.length_map, List.length_singleton] at hlength
  omega

/-- A list is put together from what each of its items gives in only one way: each gives itself. -/
theorem flatMap_eq_self_iff {α : Type} {f : α → List α} {xs : List α} (h : ∀ x ∈ xs, f x ≠ []) :
    xs.flatMap f = xs ↔ ∀ x ∈ xs, f x = [x] := by
  have hlength : ∀ ys : List α, (∀ x ∈ ys, f x ≠ []) → ys.length ≤ (ys.flatMap f).length := by
    intro ys hys
    induction ys with
    | nil => exact Nat.zero_le _
    | cons y ys ih =>
        obtain ⟨hy, hothers⟩ := List.forall_mem_cons.1 hys
        have hpos := List.length_pos_iff.2 hy
        have hle := ih hothers
        rw [List.flatMap_cons, List.length_append, List.length_cons]
        omega
  induction xs with
  | nil => simp
  | cons x xs ih =>
      obtain ⟨hx, hothers⟩ := List.forall_mem_cons.1 h
      rw [List.flatMap_cons, List.forall_mem_cons]
      constructor
      · intro heq
        have hone : (f x).length = [x].length := by
          have hsum := congrArg List.length heq
          have hpos := List.length_pos_iff.2 hx
          have hle := hlength xs hothers
          rw [List.length_append, List.length_cons] at hsum
          rw [List.length_singleton]
          omega
        obtain ⟨hfirst, hrest⟩ :=
          List.append_inj (show f x ++ xs.flatMap f = [x] ++ xs from heq) hone
        exact ⟨hfirst, (ih hothers).1 hrest⟩
      · rintro ⟨hfirst, hrest⟩
        rw [hfirst, (ih hothers).2 hrest]
        rfl

/-- **Where a class body is cut.** For every list of members on lines of their own: no end of a
member is missed, so each member is cut on its own. They come back exactly when each brace in them
that closes a group outside brackets is followed by a character that goes on with a member. Members
with a block always come back whole. -/
theorem splitMembers_join_iff (h : ∀ m ∈ ms, MemberText m) :
    (splitMembers (join ['\n'] ms) = ms ↔ ∀ m ∈ ms, Continued m)
      ∧ splitMembers (join ['\n'] ms) = ms.flatMap splitMembers
      ∧ (∀ m ∈ ms, splitMembers m ≠ [] ∧ (splitMembers m = [m] ↔ Continued m))
      ∧ ∀ m ∈ ms, IsBlock m → splitMembers m = [m] := by
  have hnonempty : ∀ m ∈ ms, splitMembers m ≠ [] := fun m hm =>
    ((h m hm).splitMembers_append endsBefore_nil).2
  have hwhole : ∀ m ∈ ms, (splitMembers m = [m] ↔ Continued m) := fun m hm =>
    ⟨(h m hm).continued_of_splitMembers_eq, (h m hm).splitMembers_eq_of_continued⟩
  refine ⟨?_, splitMembers_join h, fun m hm => ⟨hnonempty m hm, hwhole m hm⟩,
    fun m hm hblock => (hwhole m hm).2 hblock.continued⟩
  rw [splitMembers_join h, flatMap_eq_self_iff hnonempty]
  exact forall₂_congr hwhole

/-- The keys of a map, and an annotated method with a set in its block. -/
theorem splitMembers_join_iff_keys :
    let field := "final keys = \x7b1: 2\x7d.keys;".toText
    let method := "@override\n  Set load(Map json) \x7b return \x7b1\x7d; \x7d".toText
    (∀ m ∈ [field, method], MemberText m)
      ∧ splitMembers (join ['\n'] [field, method]) = [field, method] := by
  intro field method
  have hfield : IsStatement field := by
    have hfront : Balanced ("final keys = ".toText
        ++ ((.ofChar '\x7b' :: ("1: 2".toText ++ [.ofChar '\x7d'])) ++ ".keys".toText)) :=
      .append (.plain (by decide +kernel))
        (.append (.group rfl (.plain (by decide +kernel))) (.plain (by decide +kernel)) rfl) rfl
    exact .of_balanced hfront (by decide +kernel)
  have hmethod : IsBlock method := by
    have hheader : Balanced ("@override\n  Set load".toText
        ++ ((.ofChar '(' :: ("Map json".toText ++ [.ofChar ')'])) ++ " ".toText)) :=
      .append (.plain (by decide +kernel))
        (.append (.group rfl (.plain (by decide +kernel))) (.plain (by decide +kernel)) rfl) rfl
    have hblock : Balanced (" return ".toText
        ++ ((.ofChar '\x7b' :: ("1".toText ++ [.ofChar '\x7d'])) ++ "; ".toText)) :=
      .append (.plain (by decide +kernel))
        (.append (.group rfl (.plain (by decide +kernel))) (.plain (by decide +kernel)) rfl) rfl
    exact .of_balanced hheader hblock (by decide +kernel) (by decide +kernel)
  have hmembers : ∀ m ∈ [field, method], MemberText m := by
    refine List.forall_mem_cons.2 ⟨⟨⟨rfl, rfl⟩, ⟨'f', _, rfl, .inl rfl⟩, .inl hfield⟩,
      List.forall_mem_singleton.2 ⟨⟨rfl, rfl⟩, ⟨'@', _, rfl, .inr rfl⟩, .inr hmethod⟩⟩
  exact ⟨hmembers, (splitMembers_join_iff hmembers).1.2 (by decide +kernel)⟩

/-- An operator behind a set makes a member of its own out of what follows, and a method without a
body of that member. -/
theorem splitMembers_union :
    let field := "final all = \x7b1, 2\x7d | extra(a);".toText
    let method := "Task load(Map json);".toText
    (∀ m ∈ [field, method], MemberText m)
      ∧ splitMembers (join ['\n'] [field, method])
        = ["final all = \x7b1, 2\x7d".toText, "| extra(a);".toText, method]
      ∧ ((parseMember "Api".toText "| extra(a);".toText).toOption.join.map Method.isAbstract)
        = some true := by
  intro field method
  have hfield : IsStatement field := by
    have hfront : Balanced ("final all = ".toText
        ++ ((.ofChar '\x7b' :: ("1, 2".toText ++ [.ofChar '\x7d']))
          ++ (" | extra".toText ++ (.ofChar '(' :: ("a".toText ++ [.ofChar ')']))))) :=
      .append (.plain (by decide +kernel)) (.append (.group rfl (.plain (by decide +kernel)))
        (.append (.plain (by decide +kernel)) (.group rfl (.plain (by decide +kernel))) rfl)
        rfl) rfl
    exact .of_balanced hfront (by decide +kernel)
  have hmethod : IsStatement method := by
    have hfront :
        Balanced ("Task load".toText ++ (.ofChar '(' :: ("Map json".toText ++ [.ofChar ')']))) :=
      .append (.plain (by decide +kernel)) (.group rfl (.plain (by decide +kernel))) rfl
    exact .of_balanced hfront (by decide +kernel)
  have hmembers : ∀ m ∈ [field, method], MemberText m := by
    refine List.forall_mem_cons.2 ⟨⟨⟨rfl, rfl⟩, ⟨'f', _, rfl, .inl rfl⟩, .inl hfield⟩,
      List.forall_mem_singleton.2 ⟨⟨rfl, rfl⟩, ⟨'T', _, rfl, .inl rfl⟩, .inl hmethod⟩⟩
  exact ⟨hmembers, by decide +kernel, by decide +kernel⟩

end Source

end DartDecoders
