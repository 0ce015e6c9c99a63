/-
Annotations in a source text: finding the generator's own, reading its arguments, and passing over
the others.

An annotation is an at sign with a dotted name and perhaps arguments in parentheses. Arguments of
the generator's annotation are read wherever a word, a colon and a quoted text or null stand in
this order; what is quoted is taken as it is written. Other annotations are passed over in two
places, before a declaration in the middle of the source and at the start of a member.
-/
import DartDecoders.Source.Bracket

set_option autoImplicit false

namespace DartDecoders

namespace Source

/-- The annotation that asks for an implementation. -/
def markerName : Text := "@JsonToModel".toText

/-- The characters of annotation names. -/
def isMarkerChar (c : CodePoint) : Bool :=
  isWordChar c || c == '.'

/-! ## Finding -/

/-- The text from the opening parenthesis on, where the annotation starts a text. -/
def markerAt? (t : Text) : Option Text :=
  match Text.dropStart? markerName t with
  | some rest =>
    match Text.trimStart rest with
    | '(' :: inside => some ('(' :: inside)
    | _ => none
  | none => none

/-- The text from the opening parenthesis on, for every place where the annotation stands. -/
def markerSites : Text → List Text
  | [] => []
  | c :: rest =>
    match markerAt? (c :: rest) with
    | some site => site :: markerSites rest
    | none => markerSites rest

/-! ## Arguments -/

/-- A quoted argument from behind its opening quote, as written, with the text after it. A
backslash hides the character behind it, which must not be a line break. -/
def quotedArgument? (quote : CodePoint) : Text → Option (Text × Text)
  | [] => none
  | ['\\'] => none
  | '\\' :: c :: rest =>
    if c == '\n' then none
    else (quotedArgument? quote rest).map fun found => ('\\' :: c :: found.1, found.2)
  | c :: rest =>
    if c == quote then some ([], rest)
    else (quotedArgument? quote rest).map fun found => (c :: found.1, found.2)

/-- The value of an argument: a quoted text, or null. -/
def argumentValue? (t : Text) : Option (Option Text × Text) :=
  match t with
  | '\'' :: rest => (quotedArgument? '\'' rest).map fun found => (some found.1, found.2)
  | '"' :: rest => (quotedArgument? '"' rest).map fun found => (some found.1, found.2)
  | _ => (Text.dropStart? "null".toText t).map fun rest => (none, rest)

/-- An argument at the start of a text: its name, its value, and the text after it. -/
def argument? (t : Text) : Option (Text × Option Text × Text) :=
  match t.takeWhile isWordChar with
  | [] => none
  | name =>
    match Text.trimStart (t.dropWhile isWordChar) with
    | ':' :: rest =>
      (argumentValue? (Text.trimStart rest)).map fun found => (name, found.1, found.2)
    | _ => none

theorem length_quotedArgument? {quote : CodePoint} {t : Text} {found : Text × Text}
    (h : quotedArgument? quote t = some found) : found.2.length < t.length := by
  fun_induction quotedArgument? quote t generalizing found with
  | case1 => simp at h
  | case2 => simp at h
  | case3 c rest hc => simp at h
  | case4 c rest hc ih =>
    obtain ⟨inner, hinner, rfl⟩ := Option.map_eq_some_iff.1 h
    have := ih hinner
    simp only [List.length_cons]
    omega
  | case5 c rest =>
    cases h
    simp
  | case6 c rest _ _ _ ih =>
    obtain ⟨inner, hinner, rfl⟩ := Option.map_eq_some_iff.1 h
    have := ih hinner
    simp only [List.length_cons]
    omega

theorem length_argumentValue? {t : Text} {found : Option Text × Text}
    (h : argumentValue? t = some found) : found.2.length ≤ t.length := by
  unfold argumentValue? at h
  split at h
  · obtain ⟨inner, hinner, rfl⟩ := Option.map_eq_some_iff.1 h
    have := length_quotedArgument? hinner
    simp only [List.length_cons]
    omega
  · obtain ⟨inner, hinner, rfl⟩ := Option.map_eq_some_iff.1 h
    have := length_quotedArgument? hinner
    simp only [List.length_cons]
    omega
  · obtain ⟨inner, hinner, rfl⟩ := Option.map_eq_some_iff.1 h
    unfold Text.dropStart? at hinner
    split at hinner
    · cases hinner
      simp
    · simp at hinner

/-- Reading an argument takes something off the text. -/
theorem length_argument? {t : Text} {found : Text × Option Text × Text}
    (h : argument? t = some found) : found.2.2.length < t.length := by
  unfold argument? at h
  split at h
  · simp at h
  · split at h
    · next rest hrest =>
      obtain ⟨inner, hinner, rfl⟩ := Option.map_eq_some_iff.1 h
      have hvalue := length_argumentValue? hinner
      have hinside := Text.length_trimStart_le rest
      have hcolon := Text.length_trimStart_le (t.dropWhile isWordChar)
      have hword := (List.dropWhile_sublist (l := t) isWordChar).length_le
      rw [hrest] at hcolon
      simp only [List.length_cons] at hcolon ⊢
      omega
    · simp at h

/-- The arguments in a text, in order. Text that is no argument is passed over. -/
def argumentsIn : Text → List (Text × Option Text)
  | [] => []
  | c :: rest =>
    match _h : argument? (c :: rest) with
    | some (name, value, after) => (name, value) :: argumentsIn after
    | none => argumentsIn rest
termination_by t => t.length
decreasing_by
  · exact length_argument? _h
  · exact Nat.lt_succ_self _

/-- The arguments as entries: one that is given again keeps its place and takes the later value. -/
def argumentEntries (t : Text) : List (Text × Json) :=
  (argumentsIn t).foldl
    (fun entries found => Json.insert found.1 (found.2.elim .null Json.str) entries) []

/-! ## Passing over the others -/

/-- The text behind the name of an annotation at the start of a text. -/
def markerTail? : Text → Option Text
  | '@' :: rest =>
    if (rest.takeWhile isMarkerChar).isEmpty then none else some (rest.dropWhile isMarkerChar)
  | _ => none

/-- The text behind the arguments of an annotation, from behind its name; without arguments it is
that text itself. Offsets count from the start of a text that ends here too and has the given
length. -/
def behindArguments (total : Nat) (behind : Text) : Except Fault Text :=
  match Text.trimStart behind with
  | '(' :: inside =>
    let offset := total - (inside.length + 1)
    (partner offset ('(' :: inside)).map fun close => inside.drop (close - offset)
  | _ => .ok behind

theorem length_markerTail? {t behind : Text} (h : markerTail? t = some behind) :
    behind.length < t.length := by
  unfold markerTail? at h
  split at h
  · next rest =>
    split at h
    · simp at h
    · cases h
      exact Nat.lt_succ_of_le (List.dropWhile_sublist (l := rest) isMarkerChar).length_le
  · simp at h

theorem length_behindArguments {total : Nat} {behind after : Text}
    (h : behindArguments total behind = .ok after) : after.length ≤ behind.length := by
  unfold behindArguments at h
  split at h
  · next inside hinside =>
    have hstart := Text.length_trimStart_le behind
    rw [hinside, List.length_cons] at hstart
    cases hclose : partner (total - (inside.length + 1)) ('(' :: inside) with
    | error e => simp [hclose, Except.map] at h
    | ok close =>
      simp only [hclose, Except.map, Except.ok.injEq] at h
      rw [← h, List.length_drop]
      omega
  · cases h
    exact Nat.le_refl _

/-- The text behind the white space and the annotations at the start of a text, which is the end
of a source of the given length. -/
def skipMarkers (total : Nat) (t : Text) : Except Fault Text :=
  match _h : markerTail? (Text.trimStart t) with
  | none => .ok (Text.trimStart t)
  | some behind =>
    match _hbehind : behindArguments total behind with
    | .error e => .error e
    | .ok after => skipMarkers total after
termination_by t.length
decreasing_by
  have hstart := Text.length_trimStart_le t
  have htail := length_markerTail? _h
  have harguments := length_behindArguments _hbehind
  omega

/-- The member behind the annotations at its start, trimmed. Offsets count from the start of what
is left of the member at each step. -/
def withoutMarkers (t : Text) : Except Fault Text :=
  match _h : markerTail? (Text.trim t) with
  | none => .ok (Text.trim t)
  | some behind =>
    match _hbehind : behindArguments (Text.trim t).length behind with
    | .error e => .error e
    | .ok after => withoutMarkers after
termination_by t.length
decreasing_by
  have htrim := Text.length_trim_le t
  have htail := length_markerTail? _h
  have harguments := length_behindArguments _hbehind
  omega

end Source

end DartDecoders
