/-
Comments, and the texts that they leave behind.

Here a literal is only what is closed: a tripled one by three quotes, a single one by its quote on
the same line unless a backslash hides it. A quote that opens no such literal is a character like
any other. A line comment ends before the line does, a block comment at its first end mark. A text
without comments has a space or line breaks in their place, so lines keep their numbers.
-/
import DartDecoders.Source.Literal

set_option autoImplicit false

namespace DartDecoders

namespace Source

/-- A literal, a comment, or a character that belongs to neither. -/
inductive Token where
  | literal (text : Text)
  | comment (text : Text)
  | char (c : CodePoint)
  deriving DecidableEq

/-- The text of a token. -/
def Token.text : Token → Text
  | .literal text => text
  | .comment text => text
  | .char c => [c]

/-! ## Closed literals -/

/-- What follows a literal in single quotes that is closed on its line, from behind the opening
quote. A line break is allowed behind a backslash. -/
def afterClosedSimple? (quote : CodePoint) : Text → Option Text
  | [] => none
  | ['\\'] => none
  | '\\' :: _ :: rest => afterClosedSimple? quote rest
  | c :: rest =>
    if c == quote then some rest
    else if c == '\n' then none
    else afterClosedSimple? quote rest

/-- What follows a closed literal, from behind the first of its quotes: a tripled one where three
more quotes come, otherwise one in single quotes. -/
def afterClosed? (quote : CodePoint) (t : Text) : Option Text :=
  if [quote, quote].isPrefixOf t then
    match Text.splitAfter? [quote, quote, quote] (t.drop 2) with
    | some (_, after) => some after
    -- no three quotes close it, so the first two of them are an empty literal
    | none => afterClosedSimple? quote t
  else afterClosedSimple? quote t

/-- What follows a comment, from its first character on. -/
def afterComment? : Text → Option Text
  | '/' :: '/' :: rest => some (rest.dropWhile (· != '\n'))
  | '/' :: '*' :: rest => (Text.splitAfter? ['*', '/'] rest).map (·.2)
  | _ => none

theorem length_afterClosedSimple? {quote : CodePoint} {t after : Text}
    (h : afterClosedSimple? quote t = some after) : after.length < t.length := by
  fun_induction afterClosedSimple? quote t with
  | case1 => simp at h
  | case2 => simp at h
  | case3 c rest ih =>
    have := ih h
    simp only [List.length_cons]
    omega
  | case4 c rest =>
    cases h
    simp
  | case5 c rest => simp at h
  | case6 c rest _ _ _ _ ih =>
    have := ih h
    simp only [List.length_cons]
    omega

theorem length_afterClosed? {quote : CodePoint} {t after : Text}
    (h : afterClosed? quote t = some after) : after.length ≤ t.length := by
  unfold afterClosed? at h
  split at h
  · split at h
    · next before found hfound =>
      cases h
      have happend := congrArg List.length (Text.append_of_splitAfter? hfound)
      have hdrop := List.length_drop (l := t) (i := 2)
      simp only [List.length_append] at happend
      omega
    · exact Nat.le_of_lt (length_afterClosedSimple? h)
  · exact Nat.le_of_lt (length_afterClosedSimple? h)

theorem length_afterComment? {t after : Text} (h : afterComment? t = some after) :
    after.length < t.length := by
  unfold afterComment? at h
  split at h
  · next rest =>
    cases h
    have := (List.dropWhile_sublist (l := rest) (· != '\n')).length_le
    simp only [List.length_cons]
    omega
  · next rest =>
    obtain ⟨⟨before, found⟩, hfound, hpair⟩ := Option.map_eq_some_iff.1 h
    cases hpair
    have happend := congrArg List.length (Text.append_of_splitAfter? hfound)
    simp only [List.length_append, List.length_cons] at happend ⊢
    omega
  · simp at h

/-! ## Tokens -/

/-- The text cut into literals, comments and single characters, from left to right. -/
def tokens : Text → List Token
  | [] => []
  | c :: rest =>
    match hq : (if isQuote c then afterClosed? c rest else none) with
    | some after =>
      .literal ((c :: rest).take (rest.length + 1 - after.length)) :: tokens after
    | none =>
      match hc : afterComment? (c :: rest) with
      | some after =>
        .comment ((c :: rest).take (rest.length + 1 - after.length)) :: tokens after
      | none => .char c :: tokens rest
termination_by t => t.length
decreasing_by
  · split at hq
    · exact Nat.lt_succ_of_le (length_afterClosed? hq)
    · simp at hq
  · exact length_afterComment? hc
  · exact Nat.lt_succ_self _

/-- What a comment leaves behind: its line breaks, or one space when it has none. -/
def commentResidue (comment : Text) : Text :=
  match comment.count (.ofChar '\n') with
  | 0 => [' ']
  | n + 1 => List.replicate (n + 1) '\n'

/-- What a token leaves behind. -/
def Token.residue : Token → Text
  | .literal text => text
  | .comment text => commentResidue text
  | .char c => [c]

/-- The text without its comments. -/
def stripComments (t : Text) : Text :=
  (tokens t).flatMap Token.residue

end Source

end DartDecoders
