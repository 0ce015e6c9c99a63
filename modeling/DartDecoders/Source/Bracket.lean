/-
Brackets: finding a partner, and cutting at separators that stand in none.

All walks go over the pieces of a text, so a bracket inside a literal does not count. Finding the
partner of an opening bracket keeps the closing brackets that are awaited, the nearest first. The
walk may start at an offset from the end of a text; where the text ends it then goes on at the
start, and gives up at the end it reaches after that.

Cutting keeps only counts: how many brackets are open, which may fall below zero in a text that is
not balanced, and how many angle brackets are. An arrow closes no angle bracket.
-/
import DartDecoders.Fault
import DartDecoders.Source.Literal

set_option autoImplicit false

namespace DartDecoders

namespace Source

/-! ## Partners -/

/-- The closing bracket for an opening one. -/
def closerOf? : CodePoint → Option CodePoint
  | '(' => some ')'
  | '\x7b' => some '\x7d'
  | '[' => some ']'
  | _ => none

/-- The closing brackets. -/
def isCloser (c : CodePoint) : Bool :=
  c == ')' || c == '\x7d' || c == ']'

/-- The outcome of looking for a partner. -/
inductive Partner where
  /-- The offset of the partner. -/
  | found (offset : Nat)
  /-- A closing bracket at the offset that is not the awaited one. -/
  | unbalanced (bracket : CodePoint) (offset : Nat)
  /-- The text ended first. -/
  | unclosed
  deriving DecidableEq

/-- The walk to a partner: the awaited closing brackets, and the offset of the first piece. -/
def partnerFrom : List CodePoint → Nat → List Piece → Partner
  | _, _, [] => .unclosed
  | awaited, offset, .literal t :: rest => partnerFrom awaited (offset + t.length) rest
  | awaited, offset, .char c :: rest =>
    match closerOf? c with
    | some closer => partnerFrom (closer :: awaited) (offset + 1) rest
    | none =>
      if isCloser c then
        match awaited with
        | [] => .unbalanced c offset
        | closer :: others =>
          if closer == c then
            if others.isEmpty then .found offset else partnerFrom others (offset + 1) rest
          else .unbalanced c offset
      else partnerFrom awaited (offset + 1) rest

/-- The offset of the bracket that closes the one at the start of a text; the text itself starts at
the given offset. An unclosed bracket is named in the error, so there has to be one. -/
def partner (offset : Nat) (t : Text) : Except Fault Nat :=
  match partnerFrom [] offset (pieces t) with
  | .found close => .ok close
  | .unbalanced bracket close => .error (.reported (.unbalancedBracket bracket close))
  | .unclosed =>
    match t with
    | opener :: _ => .error (.reported (.unclosedBracket opener offset))
    | [] => .error .outOfRange

/-- The text inside the brackets at the start of a text, and the text behind them. -/
def splitGroup (offset : Nat) (t : Text) : Except Fault (Text × Text) := do
  let close ← partner offset t
  return ((t.take (close - offset)).drop 1, t.drop (close - offset + 1))

/-! ## Partners from the end -/

theorem length_afterTurn {quote : CodePoint} {rest t : Text} :
    ((afterSimple quote (rest ++ t)).take
      ((afterSimple quote (rest ++ t)).length - t.length)).length ≤ rest.length := by
  have h := (afterSimple_suffix quote (rest ++ t)).length_le
  rw [List.length_append] at h
  rw [List.length_take]
  omega

/-- The pieces of the last part of a text, on a walk that goes on at the start of the text, and the
end of the text that is left for the walk then. A single literal may go on there. A tripled one is
closed where the text itself closes it, and the walk goes on behind that. -/
def piecesToTurn (t : Text) : Text → List Piece × Text
  | [] => ([], t)
  | c :: rest =>
    if isQuote c then
      if [c, c].isPrefixOf rest then
        -- at the very end of the text the search starts over
        let inside := if rest.length ≤ 2 then t else rest.drop 2
        ([.literal (c :: rest)], afterTriple c inside)
      else if t.length ≤ (afterSimple c (rest ++ t)).length then
        let later := (afterSimple c (rest ++ t)).take
          ((afterSimple c (rest ++ t)).length - t.length)
        let found := piecesToTurn t later
        (.literal (c :: rest.take (rest.length - later.length)) :: found.1, found.2)
      else ([.literal (c :: rest)], afterSimple c (rest ++ t))
    else
      let found := piecesToTurn t rest
      (.char c :: found.1, found.2)
termination_by part => part.length
decreasing_by
  · exact Nat.lt_succ_of_le length_afterTurn
  · exact Nat.lt_succ_self _

/-- The offset of the bracket that closes the one so many characters before the end of the text.
Offsets before the turn count from the end too, those behind it from the start. -/
def partnerFromEnd (t : Text) (back : Nat) : Except Fault Int :=
  if t.length < back then .error .outOfRange
  else
    let part := t.drop (t.length - back)
    let (before, after) := piecesToTurn t part
    let turn := (flatten before).length
    let place (walked : Nat) : Int :=
      if walked < turn then (walked : Int) - back
      else ((t.length - after.length + (walked - turn) : Nat) : Int)
    match partnerFrom [] 0 (before ++ pieces after) with
    | .found walked => .ok (place walked)
    | .unbalanced bracket walked => .error (.reported (.unbalancedBracket bracket (place walked)))
    | .unclosed =>
      match part with
      | opener :: _ => .error (.reported (.unclosedBracket opener (-back)))
      | [] => .error .outOfRange

/-- The offset of the bracket that closes the one at an offset of the text. An offset below zero
counts from the end of the text. -/
def findMatching (t : Text) : Int → Except Fault Int
  | .ofNat offset => (partner offset (t.drop offset)).map Int.ofNat
  | .negSucc n => partnerFromEnd t (n + 1)

/-! ## Cutting -/

/-- What cutting knows of the text before a piece. -/
structure Nesting where
  /-- Open brackets, less the closing ones that had no partner. -/
  depth : Int := 0
  /-- Open angle brackets. -/
  angle : Nat := 0
  /-- The character before the piece. -/
  last : CodePoint := ' '
  deriving DecidableEq

namespace Nesting

/-- The start of a text. -/
def start : Nesting := {}

/-- Whether a closing angle bracket closes one here. -/
def closesAngle (n : Nesting) : Bool :=
  decide (0 < n.angle) && n.last != '='

/-- The nesting after a piece. -/
def after (n : Nesting) : Piece → Nesting
  | .literal t => { n with last := t.getLastD n.last }
  | .char c =>
    if (closerOf? c).isSome then { n with depth := n.depth + 1, last := c }
    else if isCloser c then { n with depth := n.depth - 1, last := c }
    else if c == '<' then { n with angle := n.angle + 1, last := c }
    else if c == '>' && n.closesAngle then { n with angle := n.angle - 1, last := c }
    else { n with last := c }

/-- Whether nothing is open. -/
def isTop (n : Nesting) : Bool :=
  n.depth == 0 && n.angle == 0

end Nesting

/-- The parts with a text put before the first of them. -/
def prepend (t : Text) : List Text → List Text
  | [] => [t]
  | part :: rest => (t ++ part) :: rest

/-- The texts without white space at their ends, blank ones left out. -/
def trimmedParts (parts : List Text) : List Text :=
  (parts.map Text.trim).filter fun part => !part.isEmpty

/-- Whether a piece is the separator and stands in no brackets. -/
def separates (separator : Text) (n : Nesting) : Piece → Bool
  | .literal _ => false
  | .char c =>
    -- what opens or closes a bracket never separates
    [c] == separator && n.isTop && !(closerOf? c).isSome && !isCloser c && c != '<'

/-- The raw parts of a text between its separators. -/
def partsFrom (separator : Text) : Nesting → List Piece → List Text
  | _, [] => [[]]
  | n, p :: rest =>
    if separates separator n p then [] :: partsFrom separator (n.after p) rest
    else prepend p.text (partsFrom separator (n.after p) rest)

/-- The parts of a text between the separators that stand in no brackets. Blank parts are left out
and the others trimmed. -/
def splitTopLevel (separator t : Text) : List Text :=
  trimmedParts (partsFrom separator .start (pieces t))

/-! ## Members -/

/-- The characters that continue a member behind a closing brace. -/
def continuesMember (c : CodePoint) : Bool :=
  [.ofChar ';', .ofChar '.', .ofChar ',', .ofChar '?', .ofChar ')', .ofChar ']'].contains c

/-- The first character of the pieces that is not white space. -/
def firstVisible? : List Piece → Option CodePoint
  | [] => none
  | .literal t :: _ => t.head?
  | .char c :: rest => if isBlank c then firstVisible? rest else some c

/-- The bracket depth after a piece. -/
def depthAfter (depth : Int) : Piece → Int
  | .literal _ => depth
  | .char c =>
    if (closerOf? c).isSome then depth + 1 else if isCloser c then depth - 1 else depth

/-- Whether a member ends with a piece: with a semicolon outside brackets, or with a brace that
closes the last open bracket, unless what follows continues the member. -/
def endsMember (depth : Int) (p : Piece) (rest : List Piece) : Bool :=
  match p with
  | .literal _ => false
  | .char ';' => depth == 0
  | .char '\x7d' =>
    depth - 1 == 0 && (match firstVisible? rest with
      | some c => !continuesMember c
      | none => true)
  | .char _ => false

/-- The raw members of a class body. -/
def membersFrom : Int → List Piece → List Text
  | _, [] => [[]]
  | depth, p :: rest =>
    if endsMember depth p rest then p.text :: membersFrom (depthAfter depth p) rest
    else prepend p.text (membersFrom (depthAfter depth p) rest)

/-- The members of a class body, trimmed. -/
def splitMembers (body : Text) : List Text :=
  trimmedParts (membersFrom 0 (pieces body))

end Source

end DartDecoders
