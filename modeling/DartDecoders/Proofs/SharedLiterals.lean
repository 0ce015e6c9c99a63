/-
The literals of comment removal and those of the bracket walks.

Two readers look for the end of a literal. Comment removal asks a pattern, which matches a literal
only where it is closed and otherwise leaves the quote alone; the bracket walks go from the opening
quote to the next one that no backslash hides, or to the end of the text. Where the pattern matches,
the walk has nothing left to find out: both stop at the same quote (`afterLiteral_of_closed`). The
one text on which they part is a tripled quote that nothing closes, which the pattern takes for an
empty literal and the walk for an open one, so that is excluded (`TripleClosed`).

From the ends follows what the walks see of a source. They walk over it without its comments, and
there the literals are the ones that comment removal has kept, one piece for each, provided that no
quote was left alone (`pieces_stripComments`).
-/
import DartDecoders.Proofs.AdjacentTexts
import DartDecoders.Proofs.BracketGroups
import DartDecoders.Proofs.CommentPattern
import DartDecoders.Proofs.HiddenMarkers

set_option autoImplicit false

namespace DartDecoders

open Text

namespace Text

/-- A search finds a pattern that the text holds. -/
theorem exists_splitAfter? {pattern t : Text} (h : pattern <:+: t) :
    ∃ found, splitAfter? pattern t = some found := by
  induction t with
  | nil =>
      rw [List.infix_nil.1 h]
      exact ⟨_, rfl⟩
  | cons c t ih =>
      rw [splitAfter?]
      by_cases hprefix : pattern.isPrefixOf (c :: t) = true
      · rw [if_pos hprefix]
        exact ⟨_, rfl⟩
      · rw [if_neg hprefix]
        -- the pattern is not right here, so it stands in the rest
        rcases List.infix_cons_iff.1 h with hhere | hrest
        · exact absurd (List.isPrefixOf_iff_prefix.2 hhere) hprefix
        · obtain ⟨found, hfound⟩ := ih hrest
          rw [hfound]
          exact ⟨_, rfl⟩

end Text

namespace Source

/-! ## Ends -/

/-- If the text starts with three equal quotes, the same three come again behind them. -/
def TripleClosed (t : Text) : Prop :=
  startsTriple t = true → t.take 3 <:+: t.drop 3

instance (t : Text) : Decidable (TripleClosed t) :=
  inferInstanceAs (Decidable (_ → _))

variable {quote : CodePoint} {t after : Text}

/-- A literal in single quotes that is closed on its line ends at the first quote that no backslash
hides. -/
theorem afterSimple_of_closed (h : afterClosedSimple? quote t = some after) :
    afterSimple quote t = after := by
  fun_induction afterClosedSimple? quote t with
  | case1 => cases h
  | case2 => cases h
  | case3 c rest ih =>
      rw [afterSimple]
      exact ih h
  | case4 c rest hnil hcons hquote =>
      cases h
      rw [afterSimple_cons quote (ne_of_forall_rest hnil hcons), if_pos hquote]
  | case5 c rest => cases h
  | case6 c rest hnil hcons hquote _ ih =>
      rw [afterSimple_cons quote (ne_of_forall_rest hnil hcons), if_neg hquote]
      exact ih h

/-- A closed literal ends where the walk from its opening quote ends. -/
theorem afterLiteral_of_closed (hquote : isQuote quote = true)
    (h : afterClosed? quote t = some after) (htriple : TripleClosed (quote :: t)) :
    afterLiteral quote t = after := by
  rw [afterClosed?] at h
  rw [afterLiteral]
  by_cases hdouble : [quote, quote].isPrefixOf t = true
  · rw [if_pos hdouble] at h ⊢
    obtain ⟨inside, rfl⟩ := List.isPrefixOf_iff_prefix.1 hdouble
    have hstarts : startsTriple (quote :: ([quote, quote] ++ inside)) = true := by
      simp [startsTriple, hquote]
    have hcloses : [quote, quote, quote] <:+: inside := htriple hstarts
    obtain ⟨⟨before, found⟩, hfound⟩ := exists_splitAfter? hcloses
    have hinside : ([quote, quote] ++ inside).drop 2 = inside := rfl
    rw [hinside, hfound] at h
    cases h
    rw [hinside, afterTriple, hfound]
  · rw [if_neg hdouble] at h ⊢
    exact afterSimple_of_closed h

/-- A match from an opening quote on. -/
theorem match?_drop {p : Nat} (hc : t[p]? = some quote) (hquote : isQuote quote = true) :
    Pattern.literal.match? (t.drop p) = afterClosed? quote (t.drop (p + 1)) := by
  rw [drop_of_getElem? hc, match?_literal, if_pos hquote]

/-- A literal is matched only where a quote opens it. -/
theorem exists_quote_of_match {p : Nat} {rest : Text}
    (h : Pattern.literal.match? (t.drop p) = some rest) :
    ∃ quote, t[p]? = some quote ∧ isQuote quote = true := by
  cases hdrop : t.drop p with
  | nil =>
      rw [hdrop] at h
      cases h
  | cons c behind =>
      refine ⟨c, by rw [← List.head?_drop, hdrop]; rfl, ?_⟩
      rw [hdrop, match?_literal] at h
      split at h
      · next hquote => exact hquote
      · cases h

/-- Where the pattern matches a literal, the match and the walk from the opening quote leave the
same end of the text. -/
theorem drop_literalEnd_of_match {p : Nat} {rest : Text}
    (h : Pattern.literal.match? (t.drop p) = some rest) (htriple : TripleClosed (t.drop p)) :
    literalEnd t p = t.length - rest.length ∧ t.drop (literalEnd t p) = rest := by
  obtain ⟨quote, hc, hquote⟩ := exists_quote_of_match h
  rw [match?_drop hc hquote] at h
  rw [drop_of_getElem? hc] at htriple
  have hend := afterLiteral_of_closed hquote h htriple
  rw [drop_literalEnd hc, literalEnd_eq hc, hend]
  exact ⟨rfl, rfl⟩

/-! ## Pieces -/

/-- The pieces that a token leaves. -/
def Token.kept : Token → List Piece
  | .literal text => [.literal text]
  | .comment text => (commentResidue text).map .char
  | .char c => [.char c]

/-- A literal among the tokens that starts with three equal quotes is closed by the same three. -/
def TriplesClosed : List Token → Prop
  | [] => True
  | .literal s :: rest => TripleClosed (s ++ rest.flatMap Token.text) ∧ TriplesClosed rest
  | _ :: rest => TriplesClosed rest

instance decidableTriplesClosed : (ts : List Token) → Decidable (TriplesClosed ts)
  | [] => inferInstanceAs (Decidable True)
  | .literal _ :: rest =>
    have := decidableTriplesClosed rest
    inferInstanceAs (Decidable (_ ∧ _))
  | .comment _ :: rest => decidableTriplesClosed rest
  | .char _ :: rest => decidableTriplesClosed rest

/-- A text that does not start with a quote does not do so without its comments. -/
theorem stopsAt_stripComments (hquote : isQuote quote = true) (h : StopsAt (· == quote) t) :
    StopsAt (· == quote) (stripComments t) := by
  cases t with
  | nil =>
      rw [stripComments, tokens]
      trivial
  | cons c t =>
      obtain ⟨token, after, hcut⟩ := exists_cut c t
      have htext := hcut.text_append
      have hne := hcut.text_ne_nil
      rw [hcut.stripComments_eq]
      cases token with
      | comment s =>
          refine stopsAt_append_of_ne_nil (commentResidue_ne_nil s) ?_ _
          refine stopsAt_of_forall fun d hd => beq_eq_false_iff_ne.2 ?_
          rintro rfl
          rcases mem_commentResidue hd with rfl | rfl <;> cases hquote
      -- what is left of the other tokens starts as the text does
      | literal s =>
          obtain ⟨d, s, rfl⟩ := List.exists_cons_of_ne_nil (show s ≠ [] from hne)
          rwa [(List.cons.inj htext).1] at h
      | char d => rwa [(List.cons.inj htext).1] at h

/-- A literal that is cut off a text is a piece of its own in front of what the rest of the text
leaves without its comments. -/
theorem Cut.pieces_literal {s : Text} (h : Cut t (.literal s) after) (htriple : TripleClosed t) :
    pieces (s ++ stripComments after) = .literal s :: pieces (stripComments after) := by
  cases h with
  | @literal quote t after s hquote hclosed hs =>
      have hend := afterLiteral_of_closed hquote hclosed htriple
      by_cases hnil : after = []
      -- at the end of the text there is nothing left to be cut
      · have hnone : stripComments after = [] := by
          rw [hnil, stripComments, tokens]
          rfl
        have hwhole := literalText_append quote t
        rw [hend, hs] at hwhole
        rw [hnone, List.append_nil, pieces_nil]
        rw [hnil, List.append_nil] at hs
        rw [← hs, pieces, if_pos hquote, hend, hnil, pieces_nil,
          List.append_cancel_right hwhole, hs]
      · rw [← hend] at hnil
        obtain ⟨inside, hinside, hlaw⟩ := exists_pieces_literal hquote hnil
        rw [hend] at hinside hlaw
        have hliteral : s = quote :: (inside ++ [quote]) := by
          refine List.append_cancel_right (hs.symm.trans ?_)
          rw [hinside]
          simp
        have hpieces := hlaw (stripComments after) (stopsAt_stripComments hquote)
        rw [hliteral, ← hpieces]
        simp

/-- Each token of a text is what a step of cutting takes. -/
theorem exists_cut_of_tokens_eq {t : Text} {before after : List Token} {token : Token}
    (h : tokens t = before ++ token :: after) :
    ∃ u rest, Cut u token rest ∧ tokens rest = after := by
  induction before generalizing t with
  | nil =>
      cases t with
      | nil =>
          rw [tokens] at h
          cases h
      | cons c t =>
          obtain ⟨first, rest, hcut⟩ := exists_cut c t
          rw [hcut.tokens_eq] at h
          obtain ⟨rfl, hrest⟩ := List.cons.inj h
          exact ⟨c :: t, rest, hcut, hrest⟩
  | cons other before ih =>
      cases t with
      | nil =>
          rw [tokens] at h
          cases h
      | cons c t =>
          obtain ⟨first, rest, hcut⟩ := exists_cut c t
          rw [hcut.tokens_eq] at h
          obtain ⟨rfl, hothers⟩ := List.cons.inj h
          exact ih hothers

/-- A literal that comment removal keeps is the piece that a walk takes where it comes to it. -/
theorem pieces_literal_residue {t s : Text} {before after : List Token}
    (h : tokens t = before ++ .literal s :: after)
    (htriple : TripleClosed (s ++ after.flatMap Token.text)) :
    pieces (s ++ after.flatMap Token.residue)
      = .literal s :: pieces (after.flatMap Token.residue) := by
  obtain ⟨u, rest, hcut, rfl⟩ := exists_cut_of_tokens_eq h
  have hu : u = s ++ (tokens rest).flatMap Token.text := by
    rw [flatMap_text_of_cuts (cuts_tokens rest)]
    exact hcut.text_append
  rw [← hu] at htriple
  exact hcut.pieces_literal htriple

/-- Over a source without its comments the walks find one literal for each that comment removal has
kept, if no quote was left alone. The induction is on what is left of the source behind a token. -/
theorem pieces_stripComments {t : Text}
    (hloose : ∀ token ∈ tokens t, token.isLooseQuote = false)
    (htriples : TriplesClosed (tokens t)) :
    pieces (stripComments t) = (tokens t).flatMap Token.kept := by
  match t with
  | [] =>
      rw [stripComments, tokens]
      exact pieces_nil
  | c :: t =>
      obtain ⟨token, after, hcut⟩ := exists_cut c t
      have hshorter := hcut.length_lt
      have htext : token.text ++ (tokens after).flatMap Token.text = c :: t := by
        rw [flatMap_text_of_cuts (cuts_tokens after), ← hcut.text_append]
      rw [hcut.tokens_eq] at hloose htriples ⊢
      obtain ⟨hfirst, hothers⟩ := List.forall_mem_cons.1 hloose
      rw [hcut.stripComments_eq, List.flatMap_cons]
      cases token with
      | literal s =>
          obtain ⟨htriple, hrest⟩ := htriples
          rw [show s ++ _ = c :: t from htext] at htriple
          rw [← pieces_stripComments hothers hrest]
          exact hcut.pieces_literal htriple
      | comment s =>
          have hblank : ∀ d ∈ commentResidue s, isQuote d = false := by
            intro d hd
            rcases mem_commentResidue hd with rfl | rfl <;> rfl
          rw [← pieces_stripComments hothers htriples]
          exact pieces_append_of_forall hblank _
      | char d =>
          rw [← pieces_stripComments hothers htriples]
          exact pieces_cons hfirst _
termination_by t.length
decreasing_by all_goals exact hshorter

/-- **One reading of literals.** Where the pattern of comment removal matches a literal, the walk
from its opening quote ends where the match does, unless three quotes open there that nothing
closes. So a bracket walk over the source without its comments takes each literal that comment
removal has kept where it comes to it, and when no quote of the source was left alone these are all
that it takes. -/
theorem literals_shared (t : Text) :
    (∀ (p : Nat) (rest : Text), Pattern.literal.match? (t.drop p) = some rest →
        TripleClosed (t.drop p) →
          literalEnd t p = t.length - rest.length ∧ t.drop (literalEnd t p) = rest)
      ∧ (∀ (before after : List Token) (s : Text), tokens t = before ++ .literal s :: after →
        TripleClosed (s ++ after.flatMap Token.text) →
          pieces (s ++ after.flatMap Token.residue)
            = .literal s :: pieces (after.flatMap Token.residue))
      ∧ ((∀ token ∈ tokens t, token.isLooseQuote = false) → TriplesClosed (tokens t) →
        pieces (stripComments t) = (tokens t).flatMap Token.kept) := by
  refine ⟨?_, ?_, ?_⟩
  · intro p rest hmatch htriple
    exact drop_literalEnd_of_match hmatch htriple
  · intro before after s htokens htriple
    exact pieces_literal_residue htokens htriple
  · intro hloose htriples
    exact pieces_stripComments hloose htriples

/-- A tripled literal with quotes inside, a hidden quote, and one in a comment. -/
def quotedLine : Text :=
  "a('''it's''', '\\''); // don't".toText

theorem literals_shared_quotedLine :
    literalEnd quotedLine 2 = 12 ∧ literalEnd quotedLine 14 = 18
      ∧ pieces "'\\'');  ".toText = .literal "'\\''".toText :: pieces ");  ".toText
      ∧ pieces (stripComments quotedLine)
        = [.char 'a', .char '(', .literal "'''it's'''".toText, .char ',', .char ' ',
          .literal "'\\''".toText, .char ')', .char ';', .char ' ', .char ' '] := by
  obtain ⟨hends, hkept, hpieces⟩ := literals_shared quotedLine
  have hopens : quotedLine[2]? = some (.ofChar '\'') ∧ quotedLine[14]? = some (.ofChar '\'') := by
    decide
  have htripled : Pattern.literal.match? (quotedLine.drop 2) = some (quotedLine.drop 12) :=
    (match?_drop hopens.1 rfl).trans (by decide)
  have hsimple : Pattern.literal.match? (quotedLine.drop 14) = some (quotedLine.drop 18) :=
    (match?_drop hopens.2 rfl).trans (by decide)
  have hloose : ∀ token ∈ tokens quotedLine, token.isLooseQuote = false := by decide +kernel
  have htriples : TriplesClosed (tokens quotedLine) := by decide +kernel
  have htokens : tokens quotedLine
      = [.char 'a', .char '(', .literal "'''it's'''".toText, .char ',', .char ' ']
        ++ .literal
          "'\\''".toText :: [.char ')', .char ';', .char ' ', .comment "// don't".toText] := by
    decide +kernel
  refine ⟨(hends 2 _ htripled (by decide)).1, (hends 14 _ hsimple (by decide)).1,
    hkept _ _ _ htokens (by decide), ?_⟩
  rw [hpieces hloose htriples]
  decide +kernel

end Source

end DartDecoders
