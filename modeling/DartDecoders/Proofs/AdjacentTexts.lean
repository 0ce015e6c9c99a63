/-
Pieces of texts one behind the other.

Cutting a text into literals and characters goes from left to right, so what follows a text can
change its pieces only where a literal is open at its end. A literal that ends before the text does
has found its quote, and it ends there whatever comes next (`exists_afterLiteral`); only an empty
one is not safe from another quote right behind it. So a text may be cut at each of its characters
outside literals, and both sides keep their pieces (`exists_of_pieces_eq`). Of any text the pieces
are the first ones of every longer text, but for a literal at its end (`pieces_append_cases`).
-/
import DartDecoders.Proofs.CommentContents
import DartDecoders.Proofs.Nesting

set_option autoImplicit false

namespace DartDecoders

open Text

namespace Text

/-- What a search takes off a text it takes off in front of every other text too. -/
theorem splitAfter?_exchange {pattern t before after : Text} (hne : pattern ≠ [])
    (h : splitAfter? pattern t = some (before, after)) (rest : Text) :
    splitAfter? pattern (before ++ rest) = some (before, rest) := by
  induction t generalizing before with
  | nil =>
      unfold splitAfter? at h
      rw [if_neg (by simpa using hne)] at h
      cases h
  | cons c t ih =>
      unfold splitAfter? at h
      split at h
      · next hprefix =>
          cases h
          rw [← List.prefix_iff_eq_take.1 (List.isPrefixOf_iff_prefix.1 hprefix)]
          obtain ⟨d, others, rfl⟩ := List.exists_cons_of_ne_nil hne
          have hlonger : (d :: others).isPrefixOf (d :: others ++ rest) = true :=
            List.isPrefixOf_iff_prefix.2 (List.prefix_append _ _)
          rw [List.cons_append] at hlonger ⊢
          rw [splitAfter?, if_pos hlonger, ← List.cons_append, List.take_left, List.drop_left]
      · next hprefix =>
          obtain ⟨⟨found, others⟩, hfound, hpair⟩ := Option.map_eq_some_iff.1 h
          cases hpair
          -- the pattern is found further on, so from here it does not reach beyond what is taken
          have hshort : ¬ pattern.isPrefixOf (c :: (found ++ rest)) = true := by
            intro hlonger
            have htaken : pattern <+: c :: found :=
              List.prefix_of_prefix_length_le (List.isPrefixOf_iff_prefix.1 hlonger)
                (List.prefix_append (c :: found) rest)
                (Nat.le_succ_of_le (suffix_of_splitAfter? hfound).length_le)
            apply hprefix
            rw [List.isPrefixOf_iff_prefix, ← append_of_splitAfter? hfound, ← List.cons_append]
            exact htaken.trans (List.prefix_append _ _)
          rw [List.cons_append, splitAfter?, if_neg hshort, ih hfound]
          rfl

end Text

namespace Source

/-! ## Ends of literals -/

variable {quote : CodePoint} {t : Text}

/-- A literal in single quotes with something behind it ends with its quote, whatever that is. -/
theorem exists_afterSimple (h : afterSimple quote t ≠ []) :
    ∃ s, t = s ++ quote :: afterSimple quote t
      ∧ ∀ rest, afterSimple quote (s ++ quote :: rest) = rest := by
  fun_induction afterSimple quote t with
  | case1 => exact absurd rfl h
  | case2 => exact absurd rfl h
  | case3 c t ih =>
      obtain ⟨s, hs, hlaw⟩ := ih h
      exact ⟨'\\' :: c :: s, by rw [List.cons_append, List.cons_append, ← hs], hlaw⟩
  | case4 c t hnil hcons hquote =>
      have hslash := ne_of_forall_rest hnil hcons
      obtain rfl := beq_iff_eq.1 hquote
      refine ⟨[], rfl, fun rest => ?_⟩
      rw [List.nil_append, afterSimple_cons c hslash, if_pos hquote]
  | case5 c t hnil hcons hquote ih =>
      have hslash := ne_of_forall_rest hnil hcons
      obtain ⟨s, hs, hlaw⟩ := ih h
      refine ⟨c :: s, by rw [List.cons_append, ← hs], fun rest => ?_⟩
      rw [List.cons_append, afterSimple_cons quote hslash, if_neg hquote, hlaw]

/-- The same of a tripled literal. -/
theorem exists_afterTriple (h : afterTriple quote t ≠ []) :
    ∃ s, t = s ++ quote :: afterTriple quote t
      ∧ ∀ rest, afterTriple quote (s ++ quote :: rest) = rest := by
  rw [afterTriple] at h ⊢
  cases hfound : splitAfter? [quote, quote, quote] t with
  | none =>
      rw [hfound] at h
      exact absurd rfl h
  | some found =>
      obtain ⟨before, after⟩ := found
      obtain ⟨s, rfl⟩ := suffix_of_splitAfter? hfound
      have hquotes : ∀ rest : Text, (s ++ [quote, quote]) ++ quote :: rest
          = (s ++ [quote, quote, quote]) ++ rest := by simp
      refine ⟨s ++ [quote, quote], ?_, fun rest => ?_⟩
      · rw [hquotes]
        exact (append_of_splitAfter? hfound).symm
      · rw [afterTriple, hquotes, splitAfter?_exchange (by simp) hfound rest]

/-- A literal with something behind it ends with its quote, whatever that is. An empty one must not
be followed by a third quote, with which it would be a tripled one. -/
theorem exists_afterLiteral (h : afterLiteral quote t ≠ []) :
    ∃ s, t = s ++ quote :: afterLiteral quote t ∧ ∀ rest,
      (StopsAt (· == quote) (afterLiteral quote t) → StopsAt (· == quote) rest) →
        afterLiteral quote (s ++ quote :: rest) = rest := by
  rw [afterLiteral] at h ⊢
  by_cases hdouble : [quote, quote].isPrefixOf t = true
  · rw [if_pos hdouble] at h ⊢
    obtain ⟨inside, rfl⟩ := List.isPrefixOf_iff_prefix.1 hdouble
    obtain ⟨s, hs, hlaw⟩ := exists_afterTriple (t := inside) h
    refine ⟨quote :: quote :: s, congrArg (quote :: quote :: ·) hs, fun rest _ => ?_⟩
    have hlonger : [quote, quote].isPrefixOf (quote :: quote :: s ++ quote :: rest) = true :=
      List.isPrefixOf_iff_prefix.2 (List.prefix_append [quote, quote] (s ++ quote :: rest))
    rw [afterLiteral, if_pos hlonger]
    exact hlaw rest
  · rw [if_neg hdouble] at h ⊢
    obtain ⟨s, hs, hlaw⟩ := exists_afterSimple h
    refine ⟨s, hs, fun rest hrest => ?_⟩
    have hshort : ¬ [quote, quote].isPrefixOf (s ++ quote :: rest) = true := by
      intro hlonger
      rw [hs] at hdouble
      -- only of an empty literal is the second character not its own
      rcases s with _ | ⟨c, _ | ⟨d, s⟩⟩
      · have hthird : ¬ StopsAt (· == quote) rest := by
          cases rest with
          | nil => simp at hlonger
          | cons c rest =>
              have hc : quote = c := by simpa using hlonger
              simp [StopsAt, hc]
        apply hthird
        apply hrest
        cases hafter : afterSimple quote t with
        | nil => trivial
        | cons c others =>
            rw [hafter] at hdouble
            exact beq_eq_false_iff_ne.2 fun hc => hdouble (by simp [hc])
      · exact hdouble (by simpa using hlonger)
      · exact hdouble (by simpa using hlonger)
    rw [afterLiteral, if_neg hshort]
    exact hlaw rest

/-! ## Pieces -/

theorem eq_nil_of_pieces_eq_nil (h : pieces t = []) : t = [] := by
  rw [← flatten_pieces t, h]
  rfl

/-- A literal with something behind it is the first piece whatever that is. -/
theorem exists_pieces_literal (hquote : isQuote quote = true) (h : afterLiteral quote t ≠ []) :
    ∃ s, t = s ++ quote :: afterLiteral quote t ∧ ∀ rest,
      (StopsAt (· == quote) (afterLiteral quote t) → StopsAt (· == quote) rest) →
        pieces (quote :: (s ++ quote :: rest))
          = .literal (quote :: (s ++ [quote])) :: pieces rest := by
  obtain ⟨s, hs, hlaw⟩ := exists_afterLiteral h
  refine ⟨s, hs, fun rest hrest => ?_⟩
  have hafter := hlaw rest hrest
  have hliteral : literalText quote (s ++ quote :: rest) = quote :: (s ++ [quote]) := by
    have happend := literalText_append quote (s ++ quote :: rest)
    rw [hafter] at happend
    refine List.append_cancel_right (happend.trans ?_)
    simp
  rw [pieces, if_pos hquote, hafter, hliteral]

/-- A literal starts visibly, and ends so where something follows it. -/
theorem stopsAt_of_literal {s : Text} {before after : List Piece}
    (h : pieces t = before ++ .literal s :: after) :
    (s ≠ [] ∧ StopsAt isBlank s) ∧ (after ≠ [] → StopsAt isBlank s.reverse) := by
  induction t using pieces.induct generalizing before with
  | case1 =>
      rw [pieces_nil] at h
      simp at h
  | case2 c t hquote ih =>
      rw [pieces, if_pos hquote] at h
      rcases List.cons_eq_append_iff.1 h with ⟨rfl, hfirst⟩ | ⟨others, rfl, hothers⟩
      · obtain ⟨hs, rfl⟩ := List.cons.inj hfirst
        have hs : s = literalText c t := Piece.literal.inj hs
        subst hs
        refine ⟨⟨by simp [literalText], isBlank_of_isQuote hquote⟩, fun hne => ?_⟩
        have hafter : afterLiteral c t ≠ [] := by
          intro hnil
          rw [hnil, pieces_nil] at hne
          exact hne rfl
        obtain ⟨inside, hinside, hlaw⟩ := exists_pieces_literal hquote hafter
        have hpieces := hlaw (afterLiteral c t) id
        rw [← hinside, pieces, if_pos hquote] at hpieces
        rw [Piece.literal.inj (List.cons.inj hpieces).1, List.reverse_cons, List.reverse_append]
        exact isBlank_of_isQuote hquote
      · exact ih hothers
  | case3 c t hquote ih =>
      have hchar : isQuote c = false := by simpa using hquote
      rw [pieces_cons hchar] at h
      rcases List.cons_eq_append_iff.1 h with ⟨rfl, hfirst⟩ | ⟨others, rfl, hothers⟩
      · cases (List.cons.inj hfirst).1
      · exact ih hothers

theorem stopsAt_of_isQuote (hquote : isQuote quote = true) {rest : Text}
    (hrest : StopsAt isQuote rest) : StopsAt (· == quote) rest := by
  cases rest with
  | nil => trivial
  | cons c rest =>
      refine beq_eq_false_iff_ne.2 ?_
      rintro rfl
      rw [StopsAt, hquote] at hrest
      cases hrest

/-- A text may be cut at a character outside literals: both sides keep their pieces, and the first
one is sealed. -/
theorem exists_of_pieces_eq {before after : List Piece} {c : CodePoint}
    (h : pieces t = before ++ .char c :: after) :
    ∃ front behind, t = front ++ c :: behind ∧ pieces front = before ∧ pieces behind = after
      ∧ Sealed front := by
  induction t using pieces.induct generalizing before with
  | case1 =>
      rw [pieces_nil] at h
      simp at h
  | case2 d t hquote ih =>
      have hne : afterLiteral d t ≠ [] := by
        intro hnil
        rw [pieces, if_pos hquote, hnil, pieces_nil] at h
        cases before <;> simp at h
      obtain ⟨s, hs, hlaw⟩ := exists_pieces_literal hquote hne
      have hfirst := hlaw (afterLiteral d t) id
      rw [← hs, h] at hfirst
      obtain ⟨others, rfl, hothers⟩ : ∃ others, before = .literal (d :: (s ++ [d])) :: others
          ∧ others ++ .char c :: after = pieces (afterLiteral d t) := by
        cases before with
        | nil => cases hfirst
        | cons p others =>
            obtain ⟨rfl, hothers⟩ := List.cons.inj hfirst
            exact ⟨others, rfl, hothers⟩
      obtain ⟨front, behind, hbehind, hfront, hafter, hsealed⟩ := ih hothers.symm
      -- what comes behind the literal starts with the same character, or with no quote at all
      have hcut : ∀ rest : Text, StopsAt isQuote rest →
          pieces (d :: (s ++ d :: (front ++ rest)))
            = .literal (d :: (s ++ [d])) :: (pieces front ++ pieces rest) := by
        intro rest hrest
        rw [hlaw, hsealed rest hrest]
        intro hstop
        rw [hbehind] at hstop
        cases front with
        | nil => exact stopsAt_of_isQuote hquote hrest
        | cons e front => exact hstop
      have halone := hcut [] trivial
      rw [List.append_nil, pieces_nil, List.append_nil] at halone
      refine ⟨d :: (s ++ d :: front), behind, ?_, ?_, hafter, fun rest hrest => ?_⟩
      · rw [List.cons_append, List.append_assoc, List.cons_append, ← hbehind, ← hs]
      · rw [halone, hfront]
      · rw [halone, List.cons_append, List.append_assoc, List.cons_append, hcut rest hrest]
        rfl
  | case3 d t hquote ih =>
      have hchar : isQuote d = false := by simpa using hquote
      rw [pieces_cons hchar] at h
      rcases List.cons_eq_append_iff.1 h with ⟨rfl, hfirst⟩ | ⟨others, rfl, hothers⟩
      · obtain ⟨hc, rfl⟩ := List.cons.inj hfirst
        obtain rfl := Piece.char.inj hc
        refine ⟨[], t, rfl, pieces_nil, rfl, fun rest _ => ?_⟩
        rw [pieces_nil]
        rfl
      · obtain ⟨front, behind, rfl, hfront, hafter, hsealed⟩ := ih hothers
        refine ⟨d :: front, behind, rfl, ?_, hafter, fun rest hrest => ?_⟩
        · rw [pieces_cons hchar, hfront]
        · rw [List.cons_append, pieces_cons hchar, pieces_cons hchar, hsealed rest hrest]
          rfl

theorem isQuote_of_mem_pieces {c : CodePoint} (h : Piece.char c ∈ pieces t) :
    isQuote c = false := by
  induction t using pieces.induct with
  | case1 =>
      rw [pieces_nil] at h
      cases h
  | case2 d t hquote ih =>
      rw [pieces, if_pos hquote] at h
      rcases List.mem_cons.1 h with hfirst | hothers
      · cases hfirst
      · exact ih hothers
  | case3 d t hquote ih =>
      rw [pieces, if_neg hquote] at h
      rcases List.mem_cons.1 h with hfirst | hothers
      · rw [Piece.char.inj hfirst]
        simpa using hquote
      · exact ih hothers

/-- A text that ends outside literals is cut into the same pieces whatever follows it. -/
theorem pieces_append {front : List Piece} {c : CodePoint} (h : pieces t = front ++ [.char c])
    (rest : Text) : pieces (t ++ rest) = pieces t ++ pieces rest := by
  have hc : isQuote c = false := isQuote_of_mem_pieces (t := t) (by rw [h]; simp)
  obtain ⟨before, behind, rfl, hbefore, hbehind, hsealed⟩ := exists_of_pieces_eq h
  have hstops : StopsAt isQuote (c :: rest) := hc
  rw [h, eq_nil_of_pieces_eq_nil hbehind, List.append_assoc, List.singleton_append,
    hsealed _ hstops, pieces_cons hc, hbefore, List.append_assoc, List.singleton_append]

/-- With something behind it a text keeps its pieces, but for a literal at its end, which may go
on. -/
theorem pieces_append_cases (t u : Text) : pieces (t ++ u) = pieces t ++ pieces u
    ∨ ∃ front c s s' rest, pieces t = front ++ [.literal (c :: s)]
      ∧ pieces (t ++ u) = front ++ .literal (c :: s') :: rest := by
  induction t using pieces.induct with
  | case1 =>
      rw [pieces_nil]
      exact .inl rfl
  | case2 c t hquote ih =>
      by_cases hne : afterLiteral c t = []
      · obtain ⟨s, hs⟩ : ∃ s, literalText c t = c :: s := ⟨_, rfl⟩
        obtain ⟨s', hs'⟩ : ∃ s, literalText c (t ++ u) = c :: s := ⟨_, rfl⟩
        refine .inr ⟨[], c, s, s', pieces (afterLiteral c (t ++ u)), ?_, ?_⟩
        · rw [pieces, if_pos hquote, hne, pieces_nil, hs]
          rfl
        · rw [List.cons_append, pieces, if_pos hquote, hs']
          rfl
      · obtain ⟨s, hs, hlaw⟩ := exists_pieces_literal hquote hne
        have halone := hlaw (afterLiteral c t) id
        rw [← hs] at halone
        have hlonger : pieces (c :: t ++ u)
            = .literal (c :: (s ++ [c])) :: pieces (afterLiteral c t ++ u) := by
          conv_lhs => rw [hs]
          rw [List.cons_append, List.append_assoc, List.cons_append]
          apply hlaw
          intro hstop
          exact stopsAt_append_of_ne_nil hne hstop u
        rw [halone, hlonger]
        rcases ih with hsame | ⟨front, d, inside, inside', rest, hfront, hrest⟩
        · exact .inl (by rw [hsame]; rfl)
        · exact .inr ⟨_ :: front, d, inside, inside', rest, by rw [hfront]; rfl,
            by rw [hrest]; rfl⟩
  | case3 c t hquote ih =>
      have hchar : isQuote c = false := by simpa using hquote
      rw [List.cons_append, pieces_cons hchar, pieces_cons hchar]
      rcases ih with hsame | ⟨front, d, inside, inside', rest, hfront, hrest⟩
      · exact .inl (by rw [hsame]; rfl)
      · exact .inr ⟨_ :: front, d, inside, inside', rest, by rw [hfront]; rfl,
          by rw [hrest]; rfl⟩

/-! ## White space at the end -/

/-- White space at the end of a sealed text stands in no literal, so what is in front of it is
sealed too. -/
theorem Sealed.of_concat_blank {c : CodePoint} (hc : isBlank c = true) (h : Sealed (t ++ [c])) :
    Sealed t := by
  have hne : pieces (t ++ [c]) ≠ [] := fun hnil =>
    List.concat_ne_nil c t (eq_nil_of_pieces_eq_nil hnil)
  obtain ⟨front, p, hpieces⟩ := (List.eq_nil_or_concat' _).resolve_left hne
  cases p with
  | char d =>
      obtain ⟨before, behind, htext, -, hbehind, hsealed⟩ := exists_of_pieces_eq hpieces
      rw [eq_nil_of_pieces_eq_nil hbehind] at htext
      rwa [(List.append_inj' htext rfl).1]
  | literal s =>
      -- with a comma behind it the literal ends with its quote, which is not the white space
      exfalso
      have hlonger : pieces (t ++ [c] ++ [.ofChar ',']) = front ++ .literal s :: [.char ','] := by
        have hcomma : StopsAt isQuote [','] := rfl
        rw [h [','] hcomma, hpieces, pieces_cons rfl, pieces_nil, List.append_assoc,
          List.singleton_append]
      obtain ⟨⟨hs, -⟩, hfinish⟩ := stopsAt_of_literal hlonger
      have hfinish := hfinish (List.cons_ne_nil _ _)
      have htext := congrArg List.reverse (flatten_pieces (t ++ [c]))
      rw [hpieces, flatten_append, List.reverse_append, List.reverse_append] at htext
      have hlast : (flatten [.literal s]).reverse = s.reverse := by simp [flatten, Piece.text]
      rw [hlast] at htext
      have hstop := stopsAt_append_of_ne_nil (by simpa using hs) hfinish (flatten front).reverse
      rw [htext] at hstop
      exact absurd hc (Bool.eq_false_iff.1 hstop)

theorem Sealed.of_append_gap {gap : Text} (hgap : ∀ c ∈ gap, isBlank c = true)
    (h : Sealed (t ++ gap)) : Sealed t := by
  induction gap generalizing t with
  | nil => rwa [List.append_nil] at h
  | cons c gap ih =>
      obtain ⟨hc, hrest⟩ := List.forall_mem_cons.1 hgap
      rw [List.append_cons] at h
      exact (ih hrest h).of_concat_blank hc

end Source

end DartDecoders
