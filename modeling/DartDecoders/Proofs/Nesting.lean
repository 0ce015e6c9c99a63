/-
Properly nested brackets, and the walks over them.

The walks over brackets go over the pieces of a text. `Nested` says that the brackets among some
pieces close in order, and the lemmas behind it say that each walk passes over nested pieces as if
they were one character: looking for a partner keeps what it awaits, and cutting members finds no
end inside brackets.

A text can be put together from parts when none of them leaves a literal open: such a part is cut
into the same pieces whatever follows it (`Sealed`), unless a quote follows, with which two quotes
at its end could open a tripled literal.
-/
import DartDecoders.Proofs.Runs
import DartDecoders.Source.Bracket

set_option autoImplicit false

namespace DartDecoders

namespace Source

open Text

/-! ## Pieces of a text -/

theorem isBlank_of_isQuote {c : CodePoint} (h : isQuote c = true) : isBlank c = false := by
  simp only [isQuote, Bool.or_eq_true, beq_iff_eq] at h
  rcases h with rfl | rfl <;> decide

@[simp] theorem pieces_nil : pieces [] = [] := by
  rw [pieces]

theorem pieces_cons {c : CodePoint} (hc : isQuote c = false) (t : Text) :
    pieces (c :: t) = .char c :: pieces t := by
  rw [pieces]
  simp [hc]

theorem flatten_cons (piece : Piece) (ps : List Piece) :
    flatten (piece :: ps) = piece.text ++ flatten ps :=
  rfl

theorem flatten_append (ps rest : List Piece) :
    flatten (ps ++ rest) = flatten ps ++ flatten rest :=
  List.flatMap_append

/-- A text without quotes is cut into its characters, whatever follows it. -/
theorem pieces_append_of_forall {t : Text} (h : ∀ c ∈ t, isQuote c = false) (rest : Text) :
    pieces (t ++ rest) = t.map Piece.char ++ pieces rest := by
  induction t with
  | nil => rfl
  | cons c t ih =>
      rw [List.cons_append, pieces_cons (h c List.mem_cons_self),
        ih fun d hd => h d (List.mem_cons_of_mem c hd)]
      rfl

theorem pieces_of_forall {t : Text} (h : ∀ c ∈ t, isQuote c = false) :
    pieces t = t.map Piece.char := by
  have happend := pieces_append_of_forall h []
  rwa [List.append_nil, pieces_nil, List.append_nil] at happend

/-- A text is cut the same way whatever follows it, unless a quote does. -/
def Sealed (t : Text) : Prop :=
  ∀ rest : Text, StopsAt isQuote rest → pieces (t ++ rest) = pieces t ++ pieces rest

theorem Sealed.of_forall {t : Text} (h : ∀ c ∈ t, isQuote c = false) : Sealed t := by
  intro rest _
  rw [pieces_append_of_forall h, pieces_of_forall h]

theorem Sealed.append {t u : Text} (ht : Sealed t) (hu : Sealed u) (hstop : StopsAt isQuote u) :
    Sealed (t ++ u) := by
  intro rest hrest
  rw [List.append_assoc, ht (u ++ rest) (hstop.append hrest), hu rest hrest, ht u hstop,
    List.append_assoc]

/-- A text without quotes seals whatever is sealed behind it. -/
theorem Sealed.prepend {t u : Text} (h : ∀ c ∈ t, isQuote c = false) (hu : Sealed u) :
    Sealed (t ++ u) := by
  intro rest hrest
  rw [List.append_assoc, pieces_append_of_forall h, pieces_append_of_forall h, hu rest hrest,
    List.append_assoc]

/-- A character of a literal that is no backslash escapes nothing. -/
theorem afterSimple_cons (quote : CodePoint) {c : CodePoint} (hslash : c ≠ '\\') (rest : Text) :
    afterSimple quote (c :: rest) = if c == quote then rest else afterSimple quote rest := by
  rw [afterSimple]
  · exact fun heq _ => hslash heq
  · exact fun _ _ heq _ => hslash heq

/-- What follows a literal in single quotes with neither quotes nor backslashes in it. -/
theorem afterSimple_append {quote : CodePoint} {t : Text} (hquote : isQuote quote = true)
    (h : ∀ c ∈ t, c ≠ quote ∧ c ≠ '\\') (rest : Text) :
    afterSimple quote (t ++ quote :: rest) = rest := by
  induction t with
  | nil =>
      have hslash : quote ≠ '\\' := by
        rintro rfl
        cases hquote
      rw [List.nil_append, afterSimple_cons quote hslash, if_pos (beq_self_eq_true quote)]
  | cons c t ih =>
      obtain ⟨hne, hslash⟩ := h c List.mem_cons_self
      rw [List.cons_append, afterSimple_cons quote hslash, if_neg (by simpa using hne)]
      exact ih fun d hd => h d (List.mem_cons_of_mem _ hd)

/-- A literal in single quotes is one piece. -/
theorem pieces_literal {quote : CodePoint} {t : Text} (hquote : isQuote quote = true)
    (h : ∀ c ∈ t, c ≠ quote ∧ c ≠ '\\') {rest : Text} (hrest : StopsAt isQuote rest) :
    pieces (quote :: (t ++ quote :: rest)) = .literal (quote :: (t ++ [quote])) :: pieces rest := by
  have hother : StopsAt (· == quote) rest := by
    cases rest with
    | nil => trivial
    | cons c rest =>
        refine beq_eq_false_iff_ne.2 ?_
        rintro rfl
        rw [StopsAt, hquote] at hrest
        cases hrest
  -- the literal is not read as a tripled one
  have htriple := isPrefixOf_quotes_eq_false (fun c hc => (h c hc).1) hother
  have hafter : afterLiteral quote (t ++ quote :: rest) = rest := by
    rw [afterLiteral, htriple]
    exact afterSimple_append hquote h rest
  have hliteral : literalText quote (t ++ quote :: rest) = quote :: (t ++ [quote]) := by
    have happend := literalText_append quote (t ++ quote :: rest)
    rw [hafter] at happend
    refine List.append_cancel_right (happend.trans ?_)
    simp
  rw [pieces]
  simp only [hquote, if_true, hafter, hliteral]

theorem Sealed.literal {quote : CodePoint} {t : Text} (hquote : isQuote quote = true)
    (h : ∀ c ∈ t, c ≠ quote ∧ c ≠ '\\') : Sealed (quote :: (t ++ [quote])) := by
  intro rest hrest
  have halone := pieces_literal hquote h (show StopsAt isQuote [] from trivial)
  rw [halone]
  simpa using pieces_literal hquote h hrest

/-! ## Nested pieces -/

/-- The brackets. -/
def isBracket (c : CodePoint) : Bool :=
  (closerOf? c).isSome || isCloser c

/-- The brackets among the pieces close in order, each with its own kind. -/
inductive Nested : List Piece → Prop
  | nil : Nested []
  | literal {t : Text} {ps : List Piece} : Nested ps → Nested (.literal t :: ps)
  | char {c : CodePoint} {ps : List Piece} : isBracket c = false → Nested ps →
      Nested (.char c :: ps)
  | group {opener closer : CodePoint} {inner ps : List Piece} : closerOf? opener = some closer →
    Nested inner → Nested ps → Nested (.char opener :: (inner ++ .char closer :: ps))

theorem closerOf?_eq_some {opener closer : CodePoint} (h : closerOf? opener = some closer) :
    (opener = '(' ∧ closer = ')') ∨ (opener = '\x7b' ∧ closer = '\x7d')
      ∨ (opener = '[' ∧ closer = ']') := by
  unfold closerOf? at h
  split at h <;> cases h <;> simp

/-- No bracket is a quote. -/
theorem isQuote_of_closerOf? {opener closer : CodePoint} (h : closerOf? opener = some closer) :
    isQuote opener = false ∧ isQuote closer = false := by
  rcases closerOf?_eq_some h with ⟨rfl, rfl⟩ | ⟨rfl, rfl⟩ | ⟨rfl, rfl⟩ <;> exact ⟨rfl, rfl⟩

/-- What closes a bracket opens none. -/
theorem isCloser_of_closerOf? {opener closer : CodePoint} (h : closerOf? opener = some closer) :
    closerOf? closer = none ∧ isCloser closer = true := by
  rcases closerOf?_eq_some h with ⟨rfl, rfl⟩ | ⟨rfl, rfl⟩ | ⟨rfl, rfl⟩ <;> exact ⟨rfl, rfl⟩

theorem Nested.append {ps qs : List Piece} (hp : Nested ps) (hq : Nested qs) :
    Nested (ps ++ qs) := by
  induction hp with
  | nil => exact hq
  | literal _ ih => exact .literal ih
  | char hc _ ih => exact .char hc ih
  | group hcloser hinner _ _ ih =>
      rw [List.cons_append, List.append_assoc, List.cons_append]
      exact .group hcloser hinner ih

theorem Nested.of_forall {t : Text} (h : ∀ c ∈ t, isBracket c = false) :
    Nested (t.map Piece.char) := by
  induction t with
  | nil => exact .nil
  | cons c t ih =>
      exact .char (h c List.mem_cons_self) (ih fun d hd => h d (List.mem_cons_of_mem c hd))

/-- A text whose literals are closed and whose brackets nest. -/
structure Balanced (t : Text) : Prop where
  isSealed : Sealed t
  nested : Nested (pieces t)

/-- A text without quotes and brackets is balanced. -/
theorem Balanced.of_forall {t : Text} (hquote : ∀ c ∈ t, isQuote c = false)
    (hbracket : ∀ c ∈ t, isBracket c = false) : Balanced t where
  isSealed := .of_forall hquote
  nested := by
    rw [pieces_of_forall hquote]
    exact .of_forall hbracket

theorem Balanced.append {t u : Text} (ht : Balanced t) (hu : Balanced u)
    (hstop : StopsAt isQuote u) : Balanced (t ++ u) where
  isSealed := ht.isSealed.append hu.isSealed hstop
  nested := by
    rw [ht.isSealed u hstop]
    exact ht.nested.append hu.nested

theorem Balanced.literal {quote : CodePoint} {t : Text} (hquote : isQuote quote = true)
    (h : ∀ c ∈ t, c ≠ quote ∧ c ≠ '\\') : Balanced (quote :: (t ++ [quote])) where
  isSealed := .literal hquote h
  nested := by
    have halone := pieces_literal hquote h (show StopsAt isQuote [] from trivial)
    rw [halone]
    simpa using Nested.literal .nil

theorem closerOf?_parenthesis : closerOf? '(' = some (.ofChar ')') := rfl

theorem closerOf?_brace : closerOf? '\x7b' = some (.ofChar '\x7d') := rfl

theorem closerOf?_bracket : closerOf? '[' = some (.ofChar ']') := rfl

/-- Brackets and a balanced text in them are cut apart from what follows. -/
theorem pieces_group {opener closer : CodePoint} {inner : Text} (h : closerOf? opener = some closer)
    (hinner : Sealed inner) (rest : Text) :
    pieces (opener :: (inner ++ closer :: rest))
      = .char opener :: (pieces inner ++ .char closer :: pieces rest) := by
  have hchars := isQuote_of_closerOf? h
  rw [pieces_cons hchars.1, hinner _ (show StopsAt isQuote (closer :: rest) from hchars.2),
    pieces_cons hchars.2]

theorem Balanced.group {opener closer : CodePoint} {inner : Text}
    (h : closerOf? opener = some closer) (hinner : Balanced inner) :
    Balanced (opener :: (inner ++ [closer])) where
  isSealed := by
    intro rest _
    rw [pieces_group h hinner.isSealed []]
    simpa using pieces_group h hinner.isSealed rest
  nested := by
    rw [pieces_group h hinner.isSealed []]
    exact .group h hinner.nested (by rw [pieces_nil]; exact .nil)

/-! ## Partners -/

/-- Looking for a partner passes over nested pieces. The induction is on how they nest; a group
pushes the bracket that it awaits and pops it again, so the walk is back where it was. -/
theorem partnerFrom_append {ps : List Piece} (h : Nested ps) :
    ∀ (closer : CodePoint) (awaited : List CodePoint) (offset : Nat) (rest : List Piece),
      partnerFrom (closer :: awaited) offset (ps ++ rest)
        = partnerFrom (closer :: awaited) (offset + (flatten ps).length) rest := by
  induction h with
  | nil => intros; rfl
  | @literal t ps _ ih =>
      intro closer awaited offset rest
      rw [List.cons_append, partnerFrom, ih]
      simp [flatten, Piece.text, Nat.add_assoc]
  | @char c ps hc _ ih =>
      intro closer awaited offset rest
      simp only [isBracket, Bool.or_eq_false_iff, Option.isSome_eq_false_iff,
        Option.isNone_iff_eq_none] at hc
      rw [List.cons_append, partnerFrom, hc.1]
      simp only [hc.2, Bool.false_eq_true, if_false]
      rw [ih]
      simp [flatten, Piece.text, Nat.add_assoc, Nat.add_comm 1]
  | @group opener own inner ps hcloser _ _ ihinner ih =>
      intro closer awaited offset rest
      have hown := isCloser_of_closerOf? hcloser
      rw [List.cons_append, partnerFrom, hcloser, List.append_assoc, List.cons_append]
      simp only
      -- in the group two brackets are awaited, its own one first
      rw [ihinner, partnerFrom, hown.1]
      simp only [hown.2, if_true, beq_self_eq_true, List.isEmpty_cons, Bool.false_eq_true, if_false]
      rw [ih]
      congr 1
      simp only [flatten, List.flatMap_cons, List.flatMap_append, Piece.text, List.length_append,
        List.length_cons, List.length_nil]
      omega

/-- The partner of the bracket in front of a balanced text is the one behind it. -/
theorem partner_group {opener closer : CodePoint} {inner : Text}
    (h : closerOf? opener = some closer) (hinner : Balanced inner) (offset : Nat) (rest : Text) :
    partner offset (opener :: (inner ++ closer :: rest)) = .ok (offset + inner.length + 1) := by
  have hcloser := isCloser_of_closerOf? h
  have hwalk : partnerFrom [] offset (pieces (opener :: (inner ++ closer :: rest)))
      = .found (offset + inner.length + 1) := by
    rw [pieces_group h hinner.isSealed, partnerFrom, h]
    simp only
    rw [partnerFrom_append hinner.nested, flatten_pieces, partnerFrom, hcloser.1]
    simp only [hcloser.2, if_true, beq_self_eq_true, List.isEmpty_nil]
    congr 1
    omega
  rw [partner, hwalk]

/-- What stands in brackets and what follows them. -/
theorem splitGroup_group {opener closer : CodePoint} {inner : Text}
    (h : closerOf? opener = some closer) (hinner : Balanced inner) (offset : Nat) (rest : Text) :
    splitGroup offset (opener :: (inner ++ closer :: rest)) = .ok (inner, rest) := by
  rw [splitGroup, partner_group h hinner]
  have hwidth : offset + inner.length + 1 - offset = inner.length + 1 := by omega
  simp only [bind, Except.bind, hwidth]
  have htake : (opener :: (inner ++ closer :: rest)).take (inner.length + 1) = opener :: inner := by
    simp
  have hdrop : (opener :: (inner ++ closer :: rest)).drop (inner.length + 1 + 1) = rest := by
    simp
  rw [htake, hdrop]
  rfl

end Source

end DartDecoders
