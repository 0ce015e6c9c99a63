/-
String literals inside a source text, as the bracket walks see them.

A quote opens a literal. A tripled quote is closed by the next tripled quote and knows no escapes;
a single one is closed by the same quote, a backslash hiding the character behind it. A literal
that is never closed runs to the end of the text. Cutting a text into pieces, literals and single
characters, is done once here, so that a walk over brackets is a walk over a list of pieces. The
pieces are the text: `flatten_pieces`.
-/
import DartDecoders.Text.Basic

set_option autoImplicit false

namespace DartDecoders

namespace Source

/-- The characters that open a literal. -/
def isQuote (c : CodePoint) : Bool :=
  c == '\'' || c == '"'

/-! ## The end of a literal -/

/-- What follows a literal in single quotes, from behind its opening quote. -/
def afterSimple (quote : CodePoint) : Text → Text
  | [] => []
  | ['\\'] => []
  | '\\' :: _ :: rest => afterSimple quote rest
  | c :: rest => if c == quote then rest else afterSimple quote rest

/-- What follows a tripled literal, from behind its opening quotes. -/
def afterTriple (quote : CodePoint) (t : Text) : Text :=
  match Text.splitAfter? [quote, quote, quote] t with
  | some (_, after) => after
  | none => []

/-- What follows a literal, from behind the first of its quotes. -/
def afterLiteral (quote : CodePoint) (t : Text) : Text :=
  if [quote, quote].isPrefixOf t then afterTriple quote (t.drop 2) else afterSimple quote t

theorem afterSimple_suffix (quote : CodePoint) (t : Text) : afterSimple quote t <:+ t := by
  fun_induction afterSimple quote t with
  | case1 => exact List.suffix_rfl
  | case2 => exact List.nil_suffix
  | case3 c rest ih => exact ih.trans ⟨['\\', c], rfl⟩
  | case4 c rest => exact List.suffix_cons c rest
  | case5 c rest _ _ _ ih => exact ih.trans (List.suffix_cons c rest)

theorem afterTriple_suffix (quote : CodePoint) (t : Text) : afterTriple quote t <:+ t := by
  unfold afterTriple
  split
  · next before after h => exact ⟨before, Text.append_of_splitAfter? h⟩
  · exact List.nil_suffix

/-- What follows a literal is an end of the text. -/
theorem afterLiteral_suffix (quote : CodePoint) (t : Text) : afterLiteral quote t <:+ t := by
  unfold afterLiteral
  split
  · exact (afterTriple_suffix quote _).trans (List.drop_suffix 2 t)
  · exact afterSimple_suffix quote t

theorem length_afterLiteral_le (quote : CodePoint) (t : Text) :
    (afterLiteral quote t).length ≤ t.length :=
  (afterLiteral_suffix quote t).length_le

/-! ## Pieces -/

/-- A part of a text that the bracket walks take at once. -/
inductive Piece where
  | literal (text : Text)
  | char (c : CodePoint)
  deriving DecidableEq

/-- The text of a piece. -/
def Piece.text : Piece → Text
  | .literal text => text
  | .char c => [c]

/-- The literal at the start of a text, from its opening quote and the text behind it. -/
def literalText (quote : CodePoint) (t : Text) : Text :=
  quote :: t.take (t.length - (afterLiteral quote t).length)

/-- The text cut into literals and single characters. -/
def pieces : Text → List Piece
  | [] => []
  | c :: rest =>
    if isQuote c then .literal (literalText c rest) :: pieces (afterLiteral c rest)
    else .char c :: pieces rest
termination_by t => t.length
decreasing_by
  · exact Nat.lt_succ_of_le (length_afterLiteral_le c rest)
  · exact Nat.lt_succ_self _

/-- The text of several pieces. -/
def flatten (ps : List Piece) : Text :=
  ps.flatMap Piece.text

theorem literalText_append (quote : CodePoint) (t : Text) :
    literalText quote t ++ afterLiteral quote t = quote :: t := by
  obtain ⟨before, h⟩ := afterLiteral_suffix quote t
  unfold literalText
  generalize afterLiteral quote t = after at h
  subst h
  simp

/-- Nothing is lost in cutting. -/
theorem flatten_pieces (t : Text) : flatten (pieces t) = t := by
  fun_induction pieces t with
  | case1 => rfl
  | case2 c rest h ih =>
    rw [flatten, List.flatMap_cons]
    exact (congrArg (literalText c rest ++ ·) ih).trans (literalText_append c rest)
  | case3 c rest h ih =>
    rw [flatten, List.flatMap_cons]
    exact congrArg (c :: ·) ih

end Source

end DartDecoders
