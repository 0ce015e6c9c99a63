/-
Comments as a pattern cuts them out.

Literals and comments are described by a regular expression with alternatives, greedy and lazy
repetitions. What it matches is said here by the choices that a match tries: a pattern gives the
ends of the text that it can leave, in the order in which they are tried (`Pattern.rests`), and the
match is the first of them. Cutting a text with it takes a match off where there is one and a single
character where there is none (`Cuts`).

Taking the tokens off a text makes no choices: a literal in single quotes has one end at most, a
lazy repetition before an end mark is a search for the mark, and a greedy one takes the whole run.
So each pattern is one of the functions that look for what follows a literal or a comment, and the
tokens are the one way to cut the text (`cuts_iff`). That a text without its comments keeps its
lines follows token by token (`stripComments_of_cuts`).
-/
import DartDecoders.Proofs.CommentContents

set_option autoImplicit false

namespace DartDecoders

namespace Source

open Text

/-! ## Patterns -/

/-- A regular expression over texts, with alternatives in order. -/
inductive Pattern where
  | one (among : CodePoint → Bool)
  | word (text : Text)
  | seq (first second : Pattern)
  | alt (first second : Pattern)
  | many (greedy : Bool) (round : Pattern)

/-- The ends of a text that a repetition leaves. A greedy one tries another round first, a lazy one
tries to stop first. A round that takes nothing is not repeated. -/
def afterRounds (greedy : Bool) (round : Text → List Text) (t : Text) : List Text :=
  let more := (round t).flatMap fun rest =>
    if _ : rest.length < t.length then afterRounds greedy round rest else []
  if greedy then more ++ [t] else t :: more
termination_by t.length

namespace Pattern

/-- The ends of a text that a pattern leaves when it takes something off the front, in the order in
which a match tries them. -/
def rests : Pattern → Text → List Text
  | .one _, [] => []
  | .one among, c :: rest => if among c then [rest] else []
  | .word text, t => (dropStart? text t).toList
  | .seq first second, t => (rests first t).flatMap (rests second)
  | .alt first second, t => rests first t ++ rests second t
  | .many greedy round, t => afterRounds greedy (rests round) t

/-- What a match leaves of a text. -/
def match? (p : Pattern) (t : Text) : Option Text :=
  (p.rests t).head?

/-- Any character, line breaks included. -/
def any : Pattern :=
  .one fun _ => true

/-- Three quotes, the least text there is, and three quotes. -/
def tripled (quote : CodePoint) : Pattern :=
  .seq (.word [quote, quote, quote]) (.seq (.many false any) (.word [quote, quote, quote]))

/-- What may stand in a literal in single quotes: a backslash with the character behind it, or a
character that is none of a quote, a backslash and a line break. -/
def quotable (quote : CodePoint) : Pattern :=
  .alt (.seq (.one (· == '\\')) any) (.one fun c => !(c == quote || c == '\\' || c == '\n'))

def single (quote : CodePoint) : Pattern :=
  .seq (.one (· == quote)) (.seq (.many true (quotable quote)) (.one (· == quote)))

/-- A literal. -/
def literal : Pattern :=
  .alt (tripled '\'') (.alt (tripled '"') (.alt (single '\'') (single '"')))

/-- A comment up to the end of its line, or one up to its first end mark. -/
def comment : Pattern :=
  .alt (.seq (.word ['/', '/']) (.many true (.one (· != '\n'))))
    (.seq (.word ['/', '*']) (.seq (.many false any) (.word ['*', '/'])))

end Pattern

/-- What the pattern takes off a text: a literal where one is matched, else a comment where one is
matched, else a character. -/
inductive Takes : Text → Token → Text → Prop
  | literal {t s rest : Text} : Pattern.literal.match? t = some rest → t = s ++ rest →
    Takes t (.literal s) rest
  | comment {t s rest : Text} : Pattern.literal.match? t = none →
    Pattern.comment.match? t = some rest → t = s ++ rest → Takes t (.comment s) rest
  | char {c : CodePoint} {rest : Text} : Pattern.literal.match? (c :: rest) = none →
    Pattern.comment.match? (c :: rest) = none → Takes (c :: rest) (.char c) rest

/-- Cutting a text from left to right, to its end. -/
inductive Cuts : Text → List Token → Prop
  | nil : Cuts [] []
  | cons {t rest : Text} {token : Token} {ts : List Token} : Takes t token rest → Cuts rest ts →
    Cuts t (token :: ts)

/-! ## Repetitions -/

/-- Where a round takes nothing off the text, there is none. -/
theorem afterRounds_of_eq_nil {greedy : Bool} {round : Text → List Text} {t : Text}
    (h : round t = []) : afterRounds greedy round t = [t] := by
  rw [afterRounds, h]
  cases greedy <;> rfl

/-- Where a round has one end, the choice is between going on there and stopping. -/
theorem afterRounds_of_eq_singleton {greedy : Bool} {round : Text → List Text} {t rest : Text}
    (h : round t = [rest]) (hlt : rest.length < t.length) :
    afterRounds greedy round t
      = if greedy then afterRounds greedy round rest ++ [t]
        else t :: afterRounds greedy round rest := by
  rw [afterRounds, h]
  simp [hlt]

/-- A lazy repetition of any character can leave every end of the text, the longest first. -/
theorem rests_lazy_any (t : Text) : (Pattern.many false .any).rests t = t.tails := by
  show afterRounds false Pattern.any.rests t = t.tails
  induction t with
  | nil => exact afterRounds_of_eq_nil rfl
  | cons c t ih =>
      have hround : Pattern.any.rests (c :: t) = [t] := rfl
      rw [afterRounds_of_eq_singleton hround (Nat.lt_succ_self _), ih, List.tails_cons]
      rfl

/-- A mark behind a lazy repetition of any character is where a search finds it. -/
theorem match?_lazy (mark t : Text) :
    (Pattern.seq (.many false .any) (.word mark)).match? t = (splitAfter? mark t).map (·.2) := by
  rw [Pattern.match?, Pattern.rests, rests_lazy_any, List.head?_flatMap]
  induction t with
  | nil =>
      cases mark with
      | nil => rfl
      | cons c mark => rfl
  | cons c t ih =>
      rw [List.tails_cons, List.findSome?_cons, splitAfter?, ih, Pattern.rests, dropStart?]
      by_cases hmark : mark.isPrefixOf (c :: t) = true
      · rw [if_pos hmark, if_pos hmark]
        rfl
      · rw [if_neg hmark, if_neg hmark]
        cases splitAfter? mark t with
        | none => rfl
        | some found => rfl

/-- A greedy repetition of characters of a kind takes the whole run. -/
theorem match?_greedy (among : CodePoint → Bool) (t : Text) :
    (Pattern.many true (.one among)).match? t = some (t.dropWhile among) := by
  show (afterRounds true (Pattern.one among).rests t).head? = _
  induction t with
  | nil => rw [afterRounds_of_eq_nil rfl]; rfl
  | cons c t ih =>
      rw [List.dropWhile_cons]
      cases hc : among c with
      | true =>
          have hround : (Pattern.one among).rests (c :: t) = [t] := by rw [Pattern.rests, hc]; rfl
          rw [afterRounds_of_eq_singleton hround (Nat.lt_succ_self _), if_pos rfl,
            List.head?_append, ih]
          rfl
      | false =>
          have hround : (Pattern.one among).rests (c :: t) = [] := by rw [Pattern.rests, hc]; rfl
          rw [afterRounds_of_eq_nil hround]
          rfl

/-- A match behind a given text. -/
theorem match?_seq_word (text : Text) (p : Pattern) (t : Text) :
    (Pattern.seq (.word text) p).match? t = (dropStart? text t).bind p.match? := by
  rw [Pattern.match?, Pattern.rests, Pattern.rests]
  cases dropStart? text t with
  | none => rfl
  | some rest => simp [Pattern.match?]

theorem match?_alt (p q : Pattern) (t : Text) :
    (Pattern.alt p q).match? t = (p.match? t).or (q.match? t) :=
  List.head?_append

/-! ## Literals -/

variable {quote : CodePoint}

theorem rests_quotable_escape (c : CodePoint) (rest : Text) :
    (Pattern.quotable quote).rests ('\\' :: c :: rest) = [rest] := by
  simp [Pattern.quotable, Pattern.any, Pattern.rests]

theorem rests_quotable_char {c : CodePoint} (hslash : c ≠ '\\') (rest : Text) :
    (Pattern.quotable quote).rests (c :: rest) = if c = quote ∨ c = '\n' then [] else [rest] := by
  by_cases hclose : c = quote <;> by_cases hbreak : c = '\n' <;>
    simp_all [Pattern.quotable, Pattern.rests]

/-- The inside of a literal in single quotes can end in one place only: of all the ends that its
repetition tries, one alone has the closing quote in front. -/
theorem rests_quotable (hquote : isQuote quote = true) (t : Text) :
    (afterRounds true (Pattern.quotable quote).rests t).flatMap (Pattern.one (· == quote)).rests
      = (afterClosedSimple? quote t).toList := by
  have hslash : quote ≠ '\\' := by
    rintro rfl
    cases hquote
  have hbreak : quote ≠ '\n' := by
    rintro rfl
    cases hquote
  fun_induction afterClosedSimple? quote t with
  | case1 =>
      rw [afterRounds_of_eq_nil rfl]
      rfl
  | case2 =>
      rw [afterRounds_of_eq_nil (by simp [Pattern.quotable, Pattern.any, Pattern.rests])]
      simp [Pattern.rests, hslash.symm]
  | case3 c rest ih =>
      have hshorter : rest.length < (.ofChar '\\' :: c :: rest).length := by
        simp only [List.length_cons]
        omega
      rw [afterRounds_of_eq_singleton (rests_quotable_escape c rest) hshorter, if_pos rfl,
        List.flatMap_append, ih]
      simp [Pattern.rests, hslash.symm]
  | case4 c rest hnil hcons hc =>
      have hround : (Pattern.quotable quote).rests (c :: rest) = _ :=
        rests_quotable_char (ne_of_forall_rest hnil hcons) rest
      rw [if_pos (.inl (beq_iff_eq.1 hc))] at hround
      rw [afterRounds_of_eq_nil hround]
      simp [Pattern.rests, hc]
  | case5 c rest hnil hcons hc hline =>
      have hround : (Pattern.quotable quote).rests (c :: rest) = _ :=
        rests_quotable_char (ne_of_forall_rest hnil hcons) rest
      rw [if_pos (.inr (beq_iff_eq.1 hline))] at hround
      rw [afterRounds_of_eq_nil hround]
      simp [Pattern.rests, hc]
  | case6 c rest hnil hcons hc hline ih =>
      have hround : (Pattern.quotable quote).rests (c :: rest) = _ :=
        rests_quotable_char (ne_of_forall_rest hnil hcons) rest
      rw [if_neg (by simpa using And.intro hc hline)] at hround
      rw [afterRounds_of_eq_singleton hround (Nat.lt_succ_self _), if_pos rfl,
        List.flatMap_append, ih]
      simp [Pattern.rests, hc]

theorem match?_single (hquote : isQuote quote = true) (c : CodePoint) (t : Text) :
    (Pattern.single quote).match? (c :: t)
      = if c = quote then afterClosedSimple? quote t else none := by
  rw [Pattern.match?, Pattern.single, Pattern.rests, Pattern.rests]
  by_cases hc : c = quote
  · have hinside : (Pattern.seq (.many true (.quotable quote)) (.one (· == quote))).rests t
        = (afterClosedSimple? quote t).toList := rests_quotable hquote t
    simp [hc, hinside]
  · simp [hc]

theorem match?_tripled (c : CodePoint) (t : Text) :
    (Pattern.tripled quote).match? (c :: t)
      = if c = quote ∧ [quote, quote].isPrefixOf t
        then (splitAfter? [quote, quote, quote] (t.drop 2)).map (·.2) else none := by
  rw [Pattern.tripled, match?_seq_word, dropStart?]
  by_cases hopens : c = quote ∧ [quote, quote].isPrefixOf t = true
  · obtain ⟨rfl, hpair⟩ := hopens
    have hprefix : [c, c, c].isPrefixOf (c :: t) = true := by
      rw [List.isPrefixOf_cons_cons, hpair]
      simp
    rw [if_pos hprefix, if_pos ⟨rfl, hpair⟩]
    exact match?_lazy _ _
  · have hprefix : ¬ [quote, quote, quote].isPrefixOf (c :: t) = true := by
      rw [List.isPrefixOf_cons_cons, Bool.and_eq_true, beq_iff_eq]
      exact fun h => hopens ⟨h.1.symm, h.2⟩
    rw [if_neg hprefix, if_neg hopens]
    rfl

/-- Three quotes are tried first, so where no three quotes close them the first two are an empty
literal. -/
theorem match?_quoted (hquote : isQuote quote = true) (t : Text) :
    ((Pattern.tripled quote).match? (quote :: t)).or ((Pattern.single quote).match? (quote :: t))
      = afterClosed? quote t := by
  rw [match?_tripled, match?_single hquote, if_pos rfl, afterClosed?]
  by_cases hpair : [quote, quote].isPrefixOf t = true
  · rw [if_pos ⟨rfl, hpair⟩, if_pos hpair]
    cases splitAfter? [quote, quote, quote] (t.drop 2) with
    | none => rfl
    | some found => rfl
  · rw [if_neg fun h => hpair h.2, if_neg hpair]
    rfl

theorem match?_tripled_of_ne {c : CodePoint} (hc : c ≠ quote) (t : Text) :
    (Pattern.tripled quote).match? (c :: t) = none := by
  rw [match?_tripled, if_neg fun h => hc h.1]

theorem match?_single_of_ne {c : CodePoint} (hquote : isQuote quote = true) (hc : c ≠ quote)
    (t : Text) : (Pattern.single quote).match? (c :: t) = none := by
  rw [match?_single hquote, if_neg hc]

/-- What a literal leaves of a text. -/
theorem match?_literal (c : CodePoint) (t : Text) :
    Pattern.literal.match? (c :: t) = if isQuote c then afterClosed? c t else none := by
  simp only [Pattern.literal, match?_alt]
  by_cases hsingle : c = '\''
  · subst hsingle
    have hother : .ofChar '\'' ≠ CodePoint.ofChar '"' := by decide
    rw [match?_tripled_of_ne hother, match?_single_of_ne rfl hother, Option.none_or,
      Option.or_none, match?_quoted rfl]
    rfl
  by_cases hdouble : c = '"'
  · subst hdouble
    rw [match?_tripled_of_ne hsingle, match?_single_of_ne rfl hsingle, Option.none_or,
      Option.none_or, match?_quoted rfl]
    rfl
  have hquote : isQuote c = false := by simp [isQuote, hsingle, hdouble]
  rw [match?_tripled_of_ne hsingle, match?_tripled_of_ne hdouble, match?_single_of_ne rfl hsingle,
    match?_single_of_ne rfl hdouble, hquote]
  rfl

/-! ## Comments -/

theorem dropStart?_eq_none {text t : Text} (h : ∀ rest, t ≠ text ++ rest) :
    dropStart? text t = none := by
  rw [dropStart?, if_neg]
  intro hprefix
  obtain ⟨rest, hrest⟩ := List.isPrefixOf_iff_prefix.1 hprefix
  exact h rest hrest.symm

/-- What a comment leaves of a text. -/
theorem match?_comment (t : Text) : Pattern.comment.match? t = afterComment? t := by
  rw [Pattern.comment, match?_alt, match?_seq_word, match?_seq_word]
  have hline : (Pattern.many true (.one (· != '\n'))).match?
      = fun rest => some (rest.dropWhile (· != '\n')) := funext (match?_greedy _)
  have hblock : (Pattern.seq (.many false .any) (.word ['*', '/'])).match?
      = fun rest => (splitAfter? ['*', '/'] rest).map (·.2) := funext (match?_lazy _)
  rw [hline, hblock]
  unfold afterComment?
  split
  · next rest => simp [dropStart?]
  · next rest => simp [dropStart?]
  · next hnoLine hnoBlock =>
      rw [dropStart?_eq_none hnoLine, dropStart?_eq_none hnoBlock]
      rfl

/-! ## Cutting -/

variable {t rest : Text} {token : Token} {ts : List Token}

/-- What the pattern takes off a text is the token that a step of cutting takes. -/
theorem Takes.cut (h : Takes t token rest) : Cut t token rest := by
  cases h with
  | literal hliteral hs =>
      cases t with
      | nil => cases hliteral
      | cons c t =>
          rw [match?_literal] at hliteral
          split at hliteral
          · next hquote => exact .literal hquote hliteral hs
          · cases hliteral
  | comment _ hcomment hs =>
      rw [match?_comment] at hcomment
      exact .comment (stopsAt_of_afterComment? hcomment) hcomment hs
  | char hliteral hcomment =>
      rw [match?_literal] at hliteral
      rw [match?_comment] at hcomment
      exact .char (fun hquote => by rwa [if_pos hquote] at hliteral) hcomment

theorem takes_of_cut (h : Cut t token rest) : Takes t token rest := by
  cases h with
  | literal hquote hclosed hs => exact .literal (by rw [match?_literal, if_pos hquote, hclosed]) hs
  | comment hstop hcomment hs =>
      refine .comment ?_ (by rw [match?_comment, hcomment]) hs
      cases t with
      | nil => cases hcomment
      | cons c t =>
          rw [match?_literal, show isQuote c = false from hstop, if_neg Bool.false_ne_true]
  | @char c t hclosed hcomment =>
      refine .char ?_ (by rw [match?_comment, hcomment])
      rw [match?_literal]
      split
      · next hquote => exact hclosed hquote
      · rfl

/-- There is a way to cut a text: into its tokens. -/
theorem cuts_tokens (t : Text) : Cuts t (tokens t) := by
  match t with
  | [] =>
      rw [tokens]
      exact .nil
  | c :: t =>
      obtain ⟨token, rest, hcut⟩ := exists_cut c t
      have hshorter := hcut.length_lt
      rw [hcut.tokens_eq]
      exact .cons (takes_of_cut hcut) (cuts_tokens rest)
termination_by t.length
decreasing_by exact hshorter

/-- There is no other. -/
theorem cuts_iff : Cuts t ts ↔ ts = tokens t := by
  refine ⟨?_, ?_⟩
  · intro h
    induction h with
    | nil => rw [tokens]
    | cons htakes _ ih => rw [htakes.cut.tokens_eq, ih]
  · rintro rfl
    exact cuts_tokens t

/-- Three quotes that are not closed by three are an empty literal and the quote of another. -/
example : tokens "'''a'//b".toText
    = [.literal "''".toText, .literal "'a'".toText, .comment "//b".toText] := by
  decide +kernel

/-! ## Lines -/

/-- What a token becomes: of a comment the line breaks are left, or one space when there are none,
and every other token is unchanged. -/
def Token.blanked : Token → Text
  | .comment text => if .ofChar '\n' ∈ text then text.filter (· == .ofChar '\n') else [.ofChar ' ']
  | token => token.text

theorem Token.residue_eq_blanked (token : Token) : token.residue = token.blanked := by
  cases token with
  | literal text => rfl
  | char c => rfl
  | comment text =>
      rw [Token.residue, Token.blanked, commentResidue, List.filter_beq]
      split
      · next hnone => rw [if_neg (List.count_eq_zero.1 hnone)]
      · next n hsome => rw [if_pos (List.count_pos_iff.1 (by omega)), hsome]

/-- A token keeps its line breaks. -/
theorem Token.count_blanked (token : Token) :
    token.blanked.count (.ofChar '\n') = token.text.count (.ofChar '\n') := by
  cases token with
  | literal text => rfl
  | char c => rfl
  | comment text =>
      rw [Token.blanked, Token.text]
      split
      · next hbreak => simp
      · next hbreak => simp [List.count_eq_zero.2 hbreak]

/-- Tokens keep their line breaks. -/
theorem count_blanked (ts : List Token) :
    (ts.flatMap Token.blanked).count (.ofChar '\n')
      = (ts.flatMap Token.text).count (.ofChar '\n') := by
  induction ts with
  | nil => rfl
  | cons token ts ih =>
      rw [List.flatMap_cons, List.flatMap_cons, List.count_append, List.count_append,
        Token.count_blanked, ih]

theorem flatMap_text_of_cuts (h : Cuts t ts) : ts.flatMap Token.text = t := by
  induction h with
  | nil => rfl
  | cons htakes _ ih => rw [List.flatMap_cons, ih, ← htakes.cut.text_append]

/-- The line that an offset of a text is on. -/
def lineAt (t : Text) (offset : Nat) : Nat :=
  (t.take offset).count (.ofChar '\n') + 1

/-- The line of a character of a text that stands between two others. -/
theorem lineAt_append {before inside behind : Text} {i : Nat} (hi : i ≤ inside.length) :
    lineAt (before ++ (inside ++ behind)) (before.length + i)
      = before.count (.ofChar '\n') + (inside.take i).count (.ofChar '\n') + 1 := by
  rw [lineAt, List.take_length_add_append, List.take_append_of_le_length hi, List.count_append]

theorem getElem?_append_inside {before inside behind : Text} {i : Nat} {c : CodePoint}
    (hc : inside[i]? = some c) : (before ++ (inside ++ behind))[before.length + i]? = some c := by
  rw [List.getElem?_append_right (Nat.le_add_right _ _), Nat.add_sub_cancel_left,
    List.getElem?_append_left (List.getElem?_eq_some_iff.1 hc).1, hc]

/-- **Comments go, lines stay.** There is one way to cut a text with the pattern. The text without
comments is made of the same tokens in the same order, with the line breaks of each comment in its
place, or one space where it has none. So it has as many line breaks as the text, and every
character that stands in a literal or by itself stands there on the same line. -/
theorem stripComments_of_cuts (t : Text) : ∃ ts, (∀ us, Cuts t us ↔ us = ts)
    ∧ ts.flatMap Token.text = t ∧ stripComments t = ts.flatMap Token.blanked
    ∧ (stripComments t).count (.ofChar '\n') = t.count (.ofChar '\n')
    ∧ ∀ before token behind, ts = before ++ token :: behind →
      (∀ text, token ≠ .comment text) → ∀ i c, token.text[i]? = some c →
      t[(before.flatMap Token.text).length + i]? = some c
        ∧ (stripComments t)[(before.flatMap Token.blanked).length + i]? = some c
        ∧ lineAt (stripComments t) ((before.flatMap Token.blanked).length + i)
          = lineAt t ((before.flatMap Token.text).length + i) := by
  have htext := flatMap_text_of_cuts (cuts_tokens t)
  have hstrip : stripComments t = (tokens t).flatMap Token.blanked := by
    rw [stripComments, funext Token.residue_eq_blanked]
  refine ⟨tokens t, fun us => cuts_iff, htext, hstrip, ?_, ?_⟩
  · rw [hstrip, count_blanked, htext]
  · intro before token behind hts hkept i c hc
    have hblanked : token.blanked = token.text := by
      cases token with
      | comment text => exact absurd rfl (hkept text)
      | literal text => rfl
      | char c => rfl
    have hi : i ≤ token.text.length := Nat.le_of_lt (List.getElem?_eq_some_iff.1 hc).1
    rw [hts, List.flatMap_append, List.flatMap_cons] at htext hstrip
    rw [hblanked] at hstrip
    rw [hstrip, ← htext]
    refine ⟨getElem?_append_inside hc, getElem?_append_inside hc, ?_⟩
    rw [lineAt_append hi, lineAt_append hi, count_blanked]

end Source

end DartDecoders
