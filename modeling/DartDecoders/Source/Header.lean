/-
What an annotation is attached to.

Behind the annotations stands a class, another type declaration, a function or a variable. A type
declaration is a keyword and a name, modifiers before it; of the keywords that fit, the longest
that leaves a name counts. A function is the first word that is followed by a parameter list,
before any character that ends a header. All else is a variable, named by the last word of its
line.
-/
import DartDecoders.Declaration.Basic
import DartDecoders.Source.Member

set_option autoImplicit false

namespace DartDecoders

namespace Source

/-! ## Type declarations -/

/-- The modifiers of type declarations. -/
def classModifiers : List Text :=
  ["abstract", "base", "interface", "final", "sealed"].map String.toText

/-- The text behind the white space at the start of a text that starts with some. -/
def afterBlank? : Text → Option Text
  | c :: rest => if isBlank c then some (Text.trimStart rest) else none
  | [] => none

theorem length_afterBlank? {t after : Text} (h : afterBlank? t = some after) :
    after.length < t.length := by
  unfold afterBlank? at h
  split at h
  · next c rest =>
    split at h
    · cases h
      exact Nat.lt_succ_of_le (Text.length_trimStart_le rest)
    · simp at h
  · simp at h

/-- The modifiers at the start of a text, and the text behind them. -/
def readModifiers (t : Text) : List Text × Text :=
  match _h : afterBlank? (t.dropWhile isWordChar) with
  | some after =>
    let word := t.takeWhile isWordChar
    if classModifiers.contains word then
      let found := readModifiers after
      (word :: found.1, found.2)
    else ([], t)
  | none => ([], t)
termination_by t.length
decreasing_by
  have hword := (List.dropWhile_sublist (l := t) isWordChar).length_le
  have hafter := length_afterBlank? _h
  omega

/-- The keywords of type declarations, each as its words, a longer one before a shorter. -/
def typeKeywords : List (List Text) :=
  [["class"], ["mixin", "class"], ["mixin"], ["enum"], ["extension", "type"], ["extension"]].map
    fun words => words.map String.toText

/-- The text behind words that stand at the start of a text with white space between them. -/
def afterWords? : List Text → Text → Option Text
  | [], t => some t
  | [word], t => Text.dropStart? word t
  | word :: next :: rest, t => do
    let after ← Text.dropStart? word t
    let after ← afterBlank? after
    afterWords? (next :: rest) after

/-- The word behind white space at the start of a text, and the text behind it. -/
def nextWord? (t : Text) : Option (Text × Text) := do
  let t ← afterBlank? t
  match t.takeWhile isWordChar with
  | [] => none
  | word => some (word, t.dropWhile isWordChar)

/-- The head of a type declaration. -/
structure TypeHead where
  modifiers : List Text
  /-- The keyword as its words. -/
  keyword : List Text
  name : Text
  deriving DecidableEq

/-- The head of a type declaration at the start of a text, and the text behind it. -/
def typeHead? (t : Text) : Option (TypeHead × Text) :=
  let (modifiers, t) := readModifiers t
  typeKeywords.findSome? fun keyword => do
    let after ← afterWords? keyword t
    let (name, after) ← nextWord? after
    return ({ modifiers, keyword, name }, after)

/-- The kind that a keyword declares: its first word, but a class whenever it speaks of one. -/
def TypeHead.kind (head : TypeHead) : Text :=
  if head.keyword.contains classKind then classKind else head.keyword.headD []

/-! ## Functions and variables -/

/-- Whether a parameter list starts a text, behind white space and perhaps type parameters. -/
def startsParameters (t : Text) : Bool :=
  match Text.trimStart t with
  | '(' :: _ => true
  | '<' :: rest =>
    -- no parenthesis stands in the type parameters, so they end before the first one
    let isParenthesis (c : CodePoint) : Bool := c == '(' || c == ')'
    (Text.trimEnd (rest.takeWhile fun c => !isParenthesis c)).getLast? == some (.ofChar '>')
      && (rest.dropWhile fun c => !isParenthesis c).head? == some (.ofChar '(')
  | _ => false

/-- The characters that no header of a function goes beyond. -/
def endsHeader (c : CodePoint) : Bool :=
  [.ofChar ';', .ofChar '\x7b', .ofChar '\x7d', .ofChar '(', .ofChar ')', .ofChar '='].contains c

/-- The name of the function whose header starts a text. `fresh` says that no word is open before
the text. -/
def functionName? (fresh : Bool) : Text → Option Text
  | [] => none
  | c :: rest =>
    if fresh && isWordChar c && startsParameters ((c :: rest).dropWhile isWordChar) then
      some ((c :: rest).takeWhile isWordChar)
    else if endsHeader c then none
    else functionName? (!isWordChar c) rest

/-- The name of a variable: the last word of its line, semicolons aside. A line of nothing but
semicolons has no word to name it by. -/
def variableName (t : Text) : Except Fault Text :=
  match Text.trim (t.takeWhile (· != '\n')) with
  | [] => .ok "<unknown>".toText
  | line =>
    match (Text.words (Text.dropEndWhile ';' line)).getLast? with
    | some word => .ok word
    | none => .error .outOfRange

/-! ## Declarations -/

/-- The methods of a class body. -/
def methodsOf (className body : Text) : Except Fault (List Method) :=
  ((splitMembers body).mapM (parseMember className)).map fun found => found.filterMap id

/-- The class of a head, from the text behind it, which is the end of a source of the given
length. The next brace opens the body. -/
def classOfHead (total : Nat) (head : TypeHead) (after : Text) (envelope : Envelope)
    (sourceFile : Json) : Except Fault Declaration :=
  match after.dropWhile (· != .ofChar '\x7b') with
  | [] => .error (.reported (.classWithoutBody head.name))
  | group => do
    let (body, _) ← splitGroup (total - group.length) group
    let methods ← methodsOf head.name body
    return {
      name := .str head.name
      methods
      envelope := some envelope
      isAbstract := head.modifiers.contains "abstract".toText
      sourceFile }

/-- The declaration at the start of a text, which is the end of a source of the given length. -/
def readDeclaration (total : Nat) (t : Text) (envelope : Envelope) (sourceFile : Json) :
    Except Fault Declaration :=
  let other (kind name : Text) : Declaration :=
    { name := .str name, kind := .str kind, envelope := some envelope, sourceFile }
  match typeHead? t with
  | some (head, after) =>
    if head.kind == classKind then classOfHead total head after envelope sourceFile
    else .ok (other head.kind head.name)
  | none =>
    match functionName? true t with
    | some name => .ok (other "function".toText name)
    | none => (variableName t).map (other "variable".toText)

end Source

end DartDecoders
