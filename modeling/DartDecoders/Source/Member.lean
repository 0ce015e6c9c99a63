/-
Methods among the members of a class body.

A member is a method when a name stands before its first parenthesis and a semicolon or a body
behind the matching one. Constructors are recognised by the name of the class; accessors,
operators and factories by their keyword; fields by an equals sign before the parenthesis, by
having none, or by what follows. A method is abstract when it ends in a semicolon and is neither
static nor external.
-/
import DartDecoders.Source.Parameter

set_option autoImplicit false

namespace DartDecoders

namespace Source

/-! ## Type parameters -/

/-- The type parameters at the end of a header, read backwards: the shortest group of angle
brackets that is balanced, and the text before it, both backwards. -/
def angleGroup? : Int → Text → Option (Text × Text)
  | _, [] => none
  | depth, c :: before =>
    if c == '<' && depth - 1 == 0 then some ([c], before)
    else
      let depth := if c == '>' then depth + 1 else if c == '<' then depth - 1 else depth
      (angleGroup? depth before).map fun found => (c :: found.1, found.2)

/-- A header without the type parameters at its end, and those. -/
def splitTypeParameters (header : Text) : Except Fault (Text × Text) :=
  let header := Text.trimEnd header
  match header.reverse with
  | '>' :: before =>
    match angleGroup? 0 ('>' :: before) with
    | some (group, before) => .ok (Text.trimEnd before.reverse, group.reverse)
    | none => .error (.reported (.unbalancedTypeParameters header))
  | _ => .ok (header, [])

/-! ## Members -/

/-- The words of members that are no methods. -/
def otherKeywords : List Text :=
  ["get", "set", "operator", "factory"].map String.toText

/-- The modifiers of methods that need no implementation. -/
def concreteModifiers : List Text :=
  ["static", "external"].map String.toText

/-- The modifiers of methods. -/
def methodModifiers : List Text :=
  "abstract".toText :: concreteModifiers

/-- Whether a body starts a text: a brace or an arrow, with or without a mark for asynchronous or
generated results before it. -/
def startsBody (t : Text) : Bool :=
  ["", "async", "async*", "sync*"].any fun mark =>
    match Text.dropStart? mark.toText t with
    | some rest =>
      let rest := Text.trimStart rest
      [.ofChar '\x7b'].isPrefixOf rest || [.ofChar '=', .ofChar '>'].isPrefixOf rest
    | none => false

/-- What stands before the first parenthesis of a member that may be a method. -/
structure MemberHead where
  name : Text
  returnType : Text
  typeParameters : Text
  /-- Whether a modifier says that the method needs no implementation. -/
  concrete : Bool
  deriving DecidableEq

/-- The head of a member of the class, from the text before its parenthesis; there is none when the
member cannot be a method. -/
def memberHead? (className header : Text) : Except Fault (Option MemberHead) := do
  let words := Text.words header
  if header.contains '=' || words.isEmpty || words.any otherKeywords.contains then
    return none
  else
    let modifiers := words.takeWhile methodModifiers.contains
    let header := Text.join [' '] (words.dropWhile methodModifiers.contains)
    let (header, typeParameters) ← splitTypeParameters header
    let qualifier := className ++ [.ofChar '.']
    match Text.splitLastWord? header with
    | none => return none
    | some (before, name) =>
      let returnType := Text.trim before
      if name == className || returnType == qualifier || qualifier.isPrefixOf header then
        return none
      else
        return some {
          name
          returnType := typeOr returnType
          typeParameters
          concrete := modifiers.any concreteModifiers.contains }

/-- The method that a member of the class declares, if it declares one. -/
def parseMember (className member : Text) : Except Fault (Option Method) := do
  let member ← withoutMarkers member
  let header := member.takeWhile (· != .ofChar '(')
  match member.dropWhile (· != .ofChar '(') with
  | [] => return none
  | group =>
    match ← memberHead? className header with
    | none => return none
    | some head =>
      let (inside, behind) ← splitGroup header.length group
      let parameters ← parseParameters inside
      let behind := Text.trim behind
      if behind == [.ofChar ';'] || startsBody behind then
        return some {
          name := .str head.name
          returnType := .str head.returnType
          parameters
          isAbstract := behind == [.ofChar ';'] && !head.concrete
          typeParameters := .str head.typeParameters }
      else
        return none

end Source

end DartDecoders
