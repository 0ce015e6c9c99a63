/-
What a comment holds does not matter.

Cutting a text into literals, comments and characters takes one token after the other off its front
(`Cut`). What stands behind a text can change its tokens only where one of them is not yet over: a
quote that opens no literal, two quotes that could open a tripled one, a slash, a line comment at
the end. A text without any of these is `Closed`. One step of cutting takes the same token off a
closed text whatever follows it (`Cut.append`) and leaves a closed text (`Cut.closed`), so by
induction the tokens of a closed text are the first tokens of every text that starts with it
(`tokens_append`). A comment behind it is then one token, and of that token only the line breaks are
left (`scan_comment_eq`).
-/
import Mathlib.Data.List.Infix
import DartDecoders.Proofs.Uncommented
import DartDecoders.Source.Scan

set_option autoImplicit false

namespace DartDecoders

namespace Text

/-! ## Searches -/

/-- A search succeeds only in a text that is at least as long as the pattern. -/
theorem length_le_of_splitAfter? {pattern t before after : Text}
    (h : splitAfter? pattern t = some (before, after)) : pattern.length ≤ t.length := by
  induction t generalizing before with
  | nil =>
      unfold splitAfter? at h
      split at h
      · next hempty => simp [List.isEmpty_iff.1 hempty]
      · cases h
  | cons c t ih =>
      unfold splitAfter? at h
      split at h
      · next hprefix => exact (List.isPrefixOf_iff_prefix.1 hprefix).length_le
      · obtain ⟨⟨found, others⟩, hfound, hpair⟩ := Option.map_eq_some_iff.1 h
        cases hpair
        exact Nat.le_succ_of_le (ih hfound)

/-- What a search takes ends with the pattern. -/
theorem suffix_of_splitAfter? {pattern t before after : Text}
    (h : splitAfter? pattern t = some (before, after)) : pattern <:+ before := by
  induction t generalizing before with
  | nil =>
      unfold splitAfter? at h
      split at h
      · next hempty =>
          rw [List.isEmpty_iff.1 hempty]
          exact List.nil_suffix
      · cases h
  | cons c t ih =>
      unfold splitAfter? at h
      split at h
      · next hprefix =>
          cases h
          rw [← List.prefix_iff_eq_take.1 (List.isPrefixOf_iff_prefix.1 hprefix)]
      · obtain ⟨⟨found, others⟩, hfound, hpair⟩ := Option.map_eq_some_iff.1 h
        cases hpair
        exact (ih hfound).trans (List.suffix_cons c found)

/-- What follows a text does not change a search that succeeds in it. -/
theorem splitAfter?_append {pattern t before after : Text}
    (h : splitAfter? pattern t = some (before, after)) (rest : Text) :
    splitAfter? pattern (t ++ rest) = some (before, after ++ rest) := by
  induction t generalizing before with
  | nil =>
      unfold splitAfter? at h
      split at h
      · next hempty =>
          cases h
          rw [List.isEmpty_iff.1 hempty]
          cases rest <;> rfl
      · cases h
  | cons c t ih =>
      unfold splitAfter? at h
      rw [List.cons_append, splitAfter?]
      split at h
      · next hprefix =>
          cases h
          obtain ⟨others, hothers⟩ := List.isPrefixOf_iff_prefix.1 hprefix
          have hlonger : pattern.isPrefixOf (c :: (t ++ rest)) = true := by
            refine List.isPrefixOf_iff_prefix.2 ⟨others ++ rest, ?_⟩
            rw [← List.append_assoc, hothers, List.cons_append]
          rw [if_pos hlonger, ← List.cons_append, ← hothers, List.append_assoc, List.take_left,
            List.take_left, List.drop_left, List.drop_left]
      · next hprefix =>
          obtain ⟨⟨found, others⟩, hfound, hpair⟩ := Option.map_eq_some_iff.1 h
          cases hpair
          -- the pattern is found further on, so it is too short to reach into `rest` from here
          have hshort : ¬ pattern.isPrefixOf (c :: (t ++ rest)) = true := by
            intro hlonger
            refine hprefix (List.isPrefixOf_iff_prefix.2 ?_)
            have hwhole : c :: t <+: c :: (t ++ rest) := ⟨rest, rfl⟩
            exact List.prefix_of_prefix_length_le (List.isPrefixOf_iff_prefix.1 hlonger) hwhole
              (Nat.le_succ_of_le (length_le_of_splitAfter? hfound))
          rw [if_neg hshort, ih hfound]
          rfl

/-- A search finds the first two characters of a kind where a text without them ends. -/
theorem splitAfter?_pair {a b : CodePoint} (hab : a ≠ b) {s : Text} (hs : ¬ [a, b] <:+: s)
    (rest : Text) : splitAfter? [a, b] (s ++ a :: b :: rest) = some (s ++ [a, b], rest) := by
  induction s with
  | nil =>
      rw [List.nil_append, splitAfter?, if_pos (by simp)]
      rfl
  | cons c s ih =>
      have hothers : ¬ [a, b] <:+: s := fun hin => hs (hin.trans (List.suffix_cons c s).isInfix)
      have hfirst : ¬ [a, b].isPrefixOf (c :: (s ++ a :: b :: rest)) = true := by
        intro hprefix
        cases s with
        | nil => exact hab (by simpa using hprefix : a = c ∧ b = a).2.symm
        | cons d s =>
            have hpair : a = c ∧ b = d := by simpa using hprefix
            exact hs ⟨[], s, by rw [hpair.1, hpair.2]; rfl⟩
      rw [List.cons_append, splitAfter?, if_neg hfirst, ih hothers]
      rfl

end Text

namespace Source

open Text

/-! ## What one step of cutting takes -/

theorem afterClosedSimple?_suffix {quote : CodePoint} {t after : Text}
    (h : afterClosedSimple? quote t = some after) : after <:+ t := by
  fun_induction afterClosedSimple? quote t with
  | case1 => cases h
  | case2 => cases h
  | case3 c rest ih => exact (ih h).trans ⟨['\\', c], rfl⟩
  | case4 c rest =>
      cases h
      exact List.suffix_cons _ _
  | case5 c rest => cases h
  | case6 c rest _ _ _ _ ih => exact (ih h).trans (List.suffix_cons c rest)

/-- What follows a closed literal is an end of the text. -/
theorem afterClosed?_suffix {quote : CodePoint} {t after : Text}
    (h : afterClosed? quote t = some after) : after <:+ t := by
  unfold afterClosed? at h
  split at h
  · split at h
    · next before found hfound =>
        cases h
        have hinside : after <:+ t.drop 2 := ⟨before, append_of_splitAfter? hfound⟩
        exact hinside.trans (List.drop_suffix 2 t)
    · exact afterClosedSimple?_suffix h
  · exact afterClosedSimple?_suffix h

/-- What follows a comment is an end of the text. -/
theorem afterComment?_suffix {t after : Text} (h : afterComment? t = some after) : after <:+ t := by
  unfold afterComment? at h
  split at h
  · next rest =>
      cases h
      exact (List.dropWhile_suffix (l := rest) (· != '\n')).trans ⟨['/', '/'], rfl⟩
  · next rest =>
      obtain ⟨⟨before, found⟩, hfound, hpair⟩ := Option.map_eq_some_iff.1 h
      cases hpair
      have hinside : found <:+ rest := ⟨before, append_of_splitAfter? hfound⟩
      exact hinside.trans ⟨['/', '*'], rfl⟩
  · cases h

/-- Cutting a text takes the token off it and goes on with the rest. -/
inductive Cut : Text → Token → Text → Prop
  | literal {quote : CodePoint} {t after s : Text} : isQuote quote = true →
    afterClosed? quote t = some after → quote :: t = s ++ after →
    Cut (quote :: t) (.literal s) after
  | comment {t after s : Text} : StopsAt isQuote t → afterComment? t = some after →
    t = s ++ after → Cut t (.comment s) after
  | char {c : CodePoint} {t : Text} : (isQuote c = true → afterClosed? c t = none) →
    afterComment? (c :: t) = none → Cut (c :: t) (.char c) t

/-- A comment starts with a slash. -/
theorem stopsAt_of_afterComment? {t after : Text} (h : afterComment? t = some after) :
    StopsAt isQuote t := by
  unfold afterComment? at h
  split at h
  · exact rfl
  · exact rfl
  · cases h

/-- There is a step of cutting for every text but the empty one. -/
theorem exists_cut (c : CodePoint) (t : Text) : ∃ token after, Cut (c :: t) token after := by
  cases hcomment : afterComment? (c :: t) with
  | some after =>
      obtain ⟨s, hs⟩ := afterComment?_suffix hcomment
      exact ⟨.comment s, after, .comment (stopsAt_of_afterComment? hcomment) hcomment hs.symm⟩
  | none =>
      by_cases hquote : isQuote c = true
      · cases hclosed : afterClosed? c t with
        | some after =>
            obtain ⟨s, hs⟩ := (afterClosed?_suffix hclosed).trans (List.suffix_cons c t)
            exact ⟨.literal s, after, .literal hquote hclosed hs.symm⟩
        | none => exact ⟨.char c, t, .char (fun _ => hclosed) hcomment⟩
      · exact ⟨.char c, t, .char (fun htrue => absurd htrue hquote) hcomment⟩

namespace Cut

variable {t after : Text} {token : Token}

/-- Nothing is lost in a step. -/
theorem text_append (h : Cut t token after) : t = token.text ++ after := by
  cases h with
  | literal _ _ hs => exact hs
  | comment _ _ hs => exact hs
  | char => rfl

theorem length_lt (h : Cut t token after) : after.length < t.length := by
  cases h with
  | literal _ hclosed _ => exact Nat.lt_succ_of_le (length_afterClosed? hclosed)
  | comment _ hcomment _ => exact length_afterComment? hcomment
  | char => exact Nat.lt_succ_self _

/-- An offset behind the token is one into what is left. -/
theorem drop_add (h : Cut t token after) (offset : Nat) :
    t.drop (token.text.length + offset) = after.drop offset := by
  rw [h.text_append, ← List.drop_drop, List.drop_left]

theorem length_eq (h : Cut t token after) : t.length = token.text.length + after.length := by
  rw [h.text_append, List.length_append]

/-- The tokens of a text are what the first step takes and the tokens of the rest. -/
theorem tokens_eq (h : Cut t token after) : tokens t = token :: tokens after := by
  cases h with
  | @literal quote t after s hquote hclosed hs =>
      rw [tokens, hs, show t.length + 1 = (quote :: t).length from rfl, hs]
      split
      · next found heq =>
          rw [if_pos hquote, hclosed] at heq
          cases heq
          simp
      · next heq =>
          rw [if_pos hquote, hclosed] at heq
          cases heq
  | @comment t after s hstop hcomment hs =>
      cases t with
      | nil => cases hcomment
      | cons c t =>
          have hquote : ¬ isQuote c = true := by
            rw [show isQuote c = false from hstop]
            exact Bool.false_ne_true
          rw [tokens, show t.length + 1 = (c :: t).length from rfl, hs]
          split
          · next found heq =>
              rw [if_neg hquote] at heq
              cases heq
          · split
            · next found heq =>
                rw [← hs, hcomment] at heq
                cases heq
                simp
            · next heq =>
                rw [← hs, hcomment] at heq
                cases heq
  | @char c t hquote hcomment =>
      rw [tokens]
      split
      · next found heq =>
          split at heq
          · next htrue =>
              rw [hquote htrue] at heq
              cases heq
          · cases heq
      · split
        · next found heq =>
            rw [hcomment] at heq
            cases heq
        · rfl

end Cut

/-! ## Closed texts -/

/-- A quote that belongs to no literal and no comment. -/
def Token.isLooseQuote : Token → Bool
  | .char c => isQuote c
  | _ => false

/-- A comment that ends with its line. -/
def Token.isLineComment : Token → Bool
  | .comment text => [.ofChar '/', .ofChar '/'].isPrefixOf text
  | _ => false

/-- Three equal quotes start the text. -/
def startsTriple : Text → Bool
  | a :: b :: c :: _ => isQuote a && a == b && b == c
  | _ => false

/-- The three characters from an offset on stand in one of the tokens. -/
def Within : List Token → Nat → Prop
  | [], _ => False
  | token :: rest, offset =>
    offset + 3 ≤ token.text.length
      ∨ token.text.length ≤ offset ∧ Within rest (offset - token.text.length)

instance decidableWithin : (ts : List Token) → (offset : Nat) → Decidable (Within ts offset)
  | [], _ => inferInstanceAs (Decidable False)
  | token :: rest, offset =>
    have := decidableWithin rest (offset - token.text.length)
    inferInstanceAs (Decidable (_ ∨ _ ∧ _))

/-- What stands behind the text cannot change how it is cut: no quote and no opening of a block
comment is left over in it, and no slash at its end; three equal quotes in a row stand in one token;
and it does not end in a line comment. -/
structure Closed (t : Text) : Prop where
  quotes : ∀ token ∈ tokens t, token.isLooseQuote = false
  openings : ¬ [.char '/', .char '*'] <:+: tokens t
  slash : (tokens t).getLast? ≠ some (.char '/')
  triples : ∀ offset < t.length, startsTriple (t.drop offset) = true → Within (tokens t) offset
  line : ∀ token ∈ (tokens t).getLast?, token.isLineComment = false

theorem closed_iff {t : Text} :
    Closed t ↔ (∀ token ∈ tokens t, token.isLooseQuote = false)
      ∧ ¬ [.char '/', .char '*'] <:+: tokens t ∧ (tokens t).getLast? ≠ some (.char '/')
      ∧ (∀ offset < t.length, startsTriple (t.drop offset) = true → Within (tokens t) offset)
      ∧ ∀ token ∈ (tokens t).getLast?, token.isLineComment = false :=
  ⟨fun h => ⟨h.quotes, h.openings, h.slash, h.triples, h.line⟩,
    fun ⟨hquotes, hopenings, hslash, htriples, hline⟩ =>
      ⟨hquotes, hopenings, hslash, htriples, hline⟩⟩

instance (t : Text) : Decidable (Closed t) :=
  decidable_of_iff _ closed_iff.symm

/-- The last of some tokens is the last one with another token before them. -/
theorem getLast?_cons_eq_some {token last : Token} {ts : List Token}
    (h : ts.getLast? = some last) : (token :: ts).getLast? = some last := by
  rw [List.getLast?_cons, h]
  rfl

namespace Cut

variable {t after : Text} {token : Token}

/-- What a step leaves of a closed text is closed. -/
theorem closed (h : Cut t token after) (ht : Closed t) : Closed after := by
  have htokens := h.tokens_eq
  refine ⟨?_, ?_, ?_, ?_, ?_⟩
  · intro other hother
    exact ht.quotes other (htokens ▸ List.mem_cons_of_mem token hother)
  · intro hin
    exact ht.openings (htokens ▸ hin.trans (List.suffix_cons token _).isInfix)
  · intro hlast
    exact ht.slash (htokens ▸ getLast?_cons_eq_some hlast)
  -- three quotes in what is left stand behind the token, so they are not within it
  · intro offset hoffset htriple
    have hbound : token.text.length + offset < t.length := by
      rw [h.length_eq]
      omega
    have hwithin := ht.triples _ hbound (by rwa [h.drop_add])
    rw [htokens, Within, Nat.add_sub_cancel_left] at hwithin
    rcases hwithin with hshort | ⟨-, hrest⟩
    · omega
    · exact hrest
  · intro last hlast
    exact ht.line last (htokens ▸ getLast?_cons_eq_some hlast)

end Cut

/-! ## Steps in front of another text -/

/-- What does not stand before any text is not there. -/
theorem ne_of_forall_rest {c d : CodePoint} {t : Text} (hnil : c = d → t = [] → False)
    (hcons : ∀ (e : CodePoint) (rest : Text), c = d → t = e :: rest → False) : c ≠ d := by
  intro heq
  cases t with
  | nil => exact hnil heq rfl
  | cons e rest => exact hcons e rest heq rfl

theorem afterClosedSimple?_append_rest {quote : CodePoint} {t after : Text}
    (h : afterClosedSimple? quote t = some after) (rest : Text) :
    afterClosedSimple? quote (t ++ rest) = some (after ++ rest) := by
  fun_induction afterClosedSimple? quote t with
  | case1 => cases h
  | case2 => cases h
  | case3 c others ih => exact ih h
  | case4 c others hnil hcons hquote =>
      cases h
      rw [List.cons_append, afterClosedSimple?_cons quote (ne_of_forall_rest hnil hcons),
        if_pos hquote]
  | case5 c others => cases h
  | case6 c others hnil hcons hquote hbreak ih =>
      rw [List.cons_append, afterClosedSimple?_cons quote (ne_of_forall_rest hnil hcons),
        if_neg hquote, if_neg hbreak, ih h]

/-- Two quotes stand in front of a text only when they do so without what follows it, unless that is
a quote. -/
theorem not_isPrefixOf_quotes_append {quote : CodePoint} (hquote : isQuote quote = true) {t : Text}
    (hne : t ≠ []) (h : ¬ [quote, quote].isPrefixOf t = true) {rest : Text}
    (hrest : StopsAt isQuote rest) : ¬ [quote, quote].isPrefixOf (t ++ rest) = true := by
  intro hlonger
  rcases t with _ | ⟨c, _ | ⟨d, others⟩⟩
  · exact hne rfl
  -- the text behind would have to start with the second quote
  · cases rest with
    | nil => exact h hlonger
    | cons d rest =>
        have heq : quote = c ∧ quote = d := by simpa using hlonger
        rw [← heq.2, StopsAt, hquote] at hrest
        cases hrest
  · exact h (by simpa using hlonger)

/-- A literal that is closed in a text is the same one whatever follows the text, unless it is empty
and a third quote follows it. -/
theorem afterClosed?_append {quote : CodePoint} {t after : Text} (hquote : isQuote quote = true)
    (h : afterClosed? quote t = some after) {rest : Text} (hrest : StopsAt isQuote rest)
    (hthird : ∀ others : Text, t = quote :: quote :: others → after ≠ quote :: others) :
    afterClosed? quote (t ++ rest) = some (after ++ rest) := by
  have hslash : quote ≠ '\\' := by
    rintro rfl
    cases hquote
  by_cases hdouble : [quote, quote].isPrefixOf t = true
  · obtain ⟨others, rfl⟩ := List.isPrefixOf_iff_prefix.1 hdouble
    have hlonger : [quote, quote].isPrefixOf ([quote, quote] ++ others ++ rest) = true :=
      List.isPrefixOf_iff_prefix.2 ⟨others ++ rest, by simp⟩
    rw [afterClosed?, if_pos hdouble] at h
    rw [afterClosed?, if_pos hlonger, List.append_assoc]
    rw [show ([quote, quote] ++ others).drop 2 = others from rfl] at h
    rw [show ([quote, quote] ++ (others ++ rest)).drop 2 = others ++ rest from rfl]
    cases hfound : splitAfter? [quote, quote, quote] others with
    | some found =>
        rw [hfound] at h
        cases h
        rw [splitAfter?_append hfound]
    -- a tripled literal that is not closed falls back to an empty one, with a quote behind it
    | none =>
        rw [hfound] at h
        simp only [List.cons_append, List.nil_append] at h
        rw [afterClosedSimple?_cons quote hslash, if_pos (beq_self_eq_true quote)] at h
        cases h
        exact absurd rfl (hthird others rfl)
  · rw [afterClosed?, if_neg hdouble] at h
    have hne : t ≠ [] := by
      rintro rfl
      cases h
    rw [afterClosed?, if_neg (not_isPrefixOf_quotes_append hquote hne hdouble hrest)]
    exact afterClosedSimple?_append_rest h rest

/-- A comment is the same one whatever follows the text, unless it is a line comment that ends with
the text. -/
theorem afterComment?_append {t after : Text} (h : afterComment? t = some after) (rest : Text)
    (hline : after = [] → ¬ [.ofChar '/', .ofChar '/'] <+: t) :
    afterComment? (t ++ rest) = some (after ++ rest) := by
  unfold afterComment? at h
  split at h
  · next others =>
      cases h
      have hbreak : ¬ (others.dropWhile (· != .ofChar '\n')).isEmpty = true := fun hnil =>
        hline (List.isEmpty_iff.1 hnil) ⟨others, rfl⟩
      show some ((others ++ rest).dropWhile (· != .ofChar '\n')) = _
      rw [List.dropWhile_append, if_neg hbreak]
  · next others =>
      obtain ⟨⟨before, found⟩, hfound, hpair⟩ := Option.map_eq_some_iff.1 h
      cases hpair
      show (splitAfter? ['*', '/'] (others ++ rest)).map (·.2) = _
      rw [splitAfter?_append hfound]
      rfl
  · cases h

/-- What starts no comment in a text starts none whatever follows the text, unless it is a slash at
the end or opens a block comment. -/
theorem afterComment?_append_eq_none {c : CodePoint} {t : Text} (h : afterComment? (c :: t) = none)
    (hlast : c = '/' → t ≠ []) (hopening : ∀ others : Text, c = '/' → t ≠ .ofChar '*' :: others)
    (rest : Text) : afterComment? (c :: (t ++ rest)) = none := by
  unfold afterComment? at h ⊢
  split at h
  · cases h
  · next others hshape =>
      obtain ⟨rfl, rfl⟩ := List.cons.inj hshape
      exact absurd rfl (hopening others rfl)
  · next hline hblock =>
      split
      · next others heq =>
          obtain ⟨rfl, htail⟩ := List.cons.inj heq
          obtain ⟨d, t, rfl⟩ := List.exists_cons_of_ne_nil (hlast rfl)
          obtain ⟨rfl, -⟩ := List.cons.inj htail
          exact absurd rfl (hline t)
      · next others heq =>
          obtain ⟨rfl, htail⟩ := List.cons.inj heq
          obtain ⟨d, t, rfl⟩ := List.exists_cons_of_ne_nil (hlast rfl)
          obtain ⟨rfl, -⟩ := List.cons.inj htail
          exact absurd rfl (hopening t rfl)
      · rfl

namespace Cut

variable {t after : Text} {token : Token}

/-- The first token of a closed text is the first one whatever follows the text, unless that is a
quote. -/
theorem append (h : Cut t token after) (ht : Closed t) {rest : Text}
    (hrest : StopsAt isQuote rest) : Cut (t ++ rest) token (after ++ rest) := by
  have htokens := h.tokens_eq
  cases h with
  | @literal quote t after s hquote hclosed hs =>
      have hwhole : quote :: (t ++ rest) = s ++ (after ++ rest) := by
        rw [← List.cons_append, hs, List.append_assoc]
      refine .literal hquote (afterClosed?_append hquote hclosed hrest ?_) hwhole
      rintro others rfl rfl
      -- the literal would be empty, and three quotes would not be within it
      have hwidth := congrArg List.length hs
      simp only [List.length_cons, List.length_append] at hwidth
      have hwithin := ht.triples 0 (Nat.succ_pos _) (by simp [startsTriple, hquote])
      rw [htokens, Within, Token.text] at hwithin
      omega
  | @comment t after s hstop hcomment hs =>
      have hne : t ≠ [] := by
        rintro rfl
        cases hcomment
      have hwhole : t ++ rest = s ++ (after ++ rest) := by rw [hs, List.append_assoc]
      refine .comment (stopsAt_append_of_ne_nil hne hstop rest)
        (afterComment?_append hcomment rest ?_) hwhole
      -- the comment would be the last token
      rintro rfl hline
      rw [List.append_nil] at hs
      subst hs
      have hlast := ht.line (.comment t) (by rw [htokens, tokens]; rfl)
      rw [Token.isLineComment, List.isPrefixOf_iff_prefix.2 hline] at hlast
      cases hlast
  | @char c t hquote hcomment =>
      have hplain : isQuote c = false := ht.quotes (.char c) (htokens ▸ List.mem_cons_self)
      refine .char (fun htrue => ?_) (afterComment?_append_eq_none hcomment ?_ ?_ rest)
      · rw [hplain] at htrue
        cases htrue
      · rintro rfl rfl
        refine ht.slash ?_
        rw [htokens, tokens]
        rfl
      · rintro others rfl rfl
        refine ht.openings ⟨[], tokens others, ?_⟩
        rw [htokens, tokens_cons rfl (by decide)]
        rfl

end Cut

/-- The tokens of a closed text are the first ones of every text that goes on without a quote. -/
theorem tokens_append {t rest : Text} (ht : Closed t) (hrest : StopsAt isQuote rest) :
    tokens (t ++ rest) = tokens t ++ tokens rest := by
  match t, ht with
  | [], _ =>
      rw [tokens]
      rfl
  | c :: t, ht =>
      -- the same token is taken off with and without `rest`, and what is left is closed again
      obtain ⟨token, after, hcut⟩ := exists_cut c t
      have hshorter := hcut.length_lt
      rw [(hcut.append ht hrest).tokens_eq, hcut.tokens_eq, tokens_append (hcut.closed ht) hrest]
      rfl
termination_by t.length
decreasing_by exact hshorter

/-! ## Comments -/

/-- The texts of comments in front of a text: a block comment, or a line comment when the line ends
where the text starts. -/
inductive IsComment : Text → Text → Prop
  | block {s rest : Text} : ¬ [.ofChar '*', .ofChar '/'] <:+: s →
      IsComment (.ofChar '/' :: .ofChar '*' :: (s ++ [.ofChar '*', .ofChar '/'])) rest
  | line {s rest : Text} : .ofChar '\n' ∉ s → StopsAt (· != .ofChar '\n') rest →
      IsComment (.ofChar '/' :: .ofChar '/' :: s) rest

/-- A comment is taken off a text whole. -/
theorem IsComment.cut {c rest : Text} (h : IsComment c rest) :
    Cut (c ++ rest) (.comment c) rest := by
  cases h with
  | @block s rest hend =>
      have hsearch := splitAfter?_pair (by decide) hend rest
      refine .comment rfl ?_ rfl
      show (splitAfter? ['*', '/'] (s ++ [.ofChar '*', .ofChar '/'] ++ rest)).map (·.2) = some rest
      rw [List.append_assoc]
      exact congrArg (Option.map (·.2)) hsearch
  | @line s rest hbreak hstop =>
      have hline : ∀ c ∈ s, (c != '\n') = true := fun c hc => bne_iff_ne.2 (by
        rintro rfl
        exact hbreak hc)
      refine .comment rfl ?_ rfl
      show some ((s ++ rest).dropWhile (· != .ofChar '\n')) = some rest
      rw [dropWhile_append_of_stopsAt hline hstop]

theorem IsComment.stopsAt {c rest : Text} (h : IsComment c rest) :
    StopsAt isQuote (c ++ rest) := by
  cases h with
  | block => exact rfl
  | line => exact rfl

/-- A comment behind a closed text leaves its line breaks. -/
theorem stripComments_comment {before c behind : Text} (h : Closed before)
    (hc : IsComment c behind) :
    stripComments (before ++ (c ++ behind))
      = stripComments before ++ (commentResidue c ++ stripComments behind) := by
  rw [stripComments, tokens_append h hc.stopsAt, hc.cut.tokens_eq, List.flatMap_append,
    List.flatMap_cons]
  rfl

/-- **What a comment holds does not matter.** Behind a closed text, two comments with the same
number of line breaks leave the same text, and scanning ends in the same way. -/
theorem scan_comment_eq {before c d behind : Text} (h : Closed before) (hc : IsComment c behind)
    (hd : IsComment d behind) (hbreaks : c.count (.ofChar '\n') = d.count (.ofChar '\n')) :
    stripComments (before ++ (c ++ behind)) = stripComments (before ++ (d ++ behind))
      ∧ ∀ sourceFile : Json, scan (before ++ (c ++ behind)) sourceFile
        = scan (before ++ (d ++ behind)) sourceFile := by
  have hstrip : stripComments (before ++ (c ++ behind))
      = stripComments (before ++ (d ++ behind)) := by
    have hresidue : commentResidue c = commentResidue d := by
      rw [commentResidue, commentResidue, hbreaks]
    rw [stripComments_comment h hc, stripComments_comment h hd, hresidue]
  refine ⟨hstrip, fun sourceFile => ?_⟩
  rw [scan, scan, hstrip]

/-- A comment, a tripled literal and a division. -/
def tripledText : Text :=
  "// a 'list\nvar t = '''it's\n''' + n / 2; ".toText

/-- A comment that holds an annotation and a quote. -/
def markedComment : Text :=
  "/*\n@JsonToModel( ' // */".toText

/-- A comment that holds nothing but quotes, brackets and stars. -/
def quotedComment : Text :=
  "/*\"\x7d\n''')**/".toText

/-- Behind a text with a tripled literal, an annotation in a comment is as good as some quotes. -/
theorem scan_comment_eq_tripled :
    Closed tripledText ∧ IsComment markedComment "\nclass A".toText
      ∧ IsComment quotedComment "\nclass A".toText
      ∧ markedComment.count (.ofChar '\n') = quotedComment.count (.ofChar '\n')
      ∧ stripComments (tripledText ++ (markedComment ++ "\nclass A".toText))
        = stripComments (tripledText ++ (quotedComment ++ "\nclass A".toText)) := by
  have hclosed : Closed tripledText := by decide +kernel
  have hmarked : IsComment markedComment "\nclass A".toText :=
    .block (s := "\n@JsonToModel( ' // ".toText) (by decide +kernel)
  have hquoted : IsComment quotedComment "\nclass A".toText :=
    .block (s := "\"\x7d\n''')*".toText) (by decide +kernel)
  have hbreaks : markedComment.count (.ofChar '\n') = quotedComment.count (.ofChar '\n') := by
    decide
  exact ⟨hclosed, hmarked, hquoted, hbreaks, (scan_comment_eq hclosed hmarked hquoted hbreaks).1⟩

end Source

end DartDecoders
