/-
Texts as lists of code points, and the few operations that every reader here is made of.

An offset into a text counts code points, so a text is the list of its code points and nothing has
to convert between byte and character positions. What the operations do is said by the small laws
beside them: trimming only removes white space at the ends, the words of a text hold no white
space, and a search splits a text into parts that join to it again.

What comes from outside is a row of characters: the arguments, the names of files and their
contents. Such a row is a text without a surrogate (`ofChars`), and a text can leave only when it is
one (`chars?`).
-/
import DartDecoders.Text.Alphanumeric
import DartDecoders.Text.Blank
import DartDecoders.Text.CodePoint

set_option autoImplicit false

namespace DartDecoders

/-- A text is the list of its code points. -/
abbrev Text := List CodePoint

/-- A row of characters. -/
abbrev Chars := List Char

namespace Chars

/-- The number of bytes that characters take in UTF-8. -/
def byteLength (cs : Chars) : Nat :=
  cs.foldr (fun c bytes => c.utf8Size + bytes) 0

/-- Whether the null character is there. -/
def hasNull (cs : Chars) : Bool :=
  cs.contains '\x00'

end Chars

namespace Text

/-! ## Texts and characters -/

/-- The text of a row of characters. -/
def ofChars (cs : Chars) : Text :=
  cs.map .ofChar

/-- The characters of a text, unless a surrogate is among its code points. -/
def chars? : Text → Option Chars
  | [] => some []
  | .ofChar c :: rest => (chars? rest).map (c :: ·)
  | .surrogate _ :: _ => none

/-- The characters of a text with another one for every surrogate. -/
def charsWith (other : Char) (t : Text) : Chars :=
  t.map fun
    | .ofChar c => c
    | .surrogate _ => other

theorem chars?_ofChars (cs : Chars) : chars? (ofChars cs) = some cs := by
  induction cs with
  | nil => rfl
  | cons c rest ih =>
    show (chars? (ofChars rest)).map (c :: ·) = some (c :: rest)
    rw [ih, Option.map_some]

/-- A text with characters is their text. -/
theorem chars?_eq_some_iff {t : Text} {cs : Chars} : chars? t = some cs ↔ t = ofChars cs := by
  constructor
  · intro h
    induction t generalizing cs with
    | nil =>
      cases h
      rfl
    | cons c rest ih =>
      cases c with
      | surrogate n => cases h
      | ofChar d =>
        obtain ⟨ds, hds, rfl⟩ := Option.map_eq_some_iff.1 h
        rw [ih hds]
        rfl
  · rintro rfl
    exact chars?_ofChars cs

/-- Only a surrogate keeps a text from having characters. -/
theorem chars?_eq_none_iff {t : Text} : chars? t = none ↔ ∃ n, .surrogate n ∈ t := by
  induction t with
  | nil => simp [chars?]
  | cons c rest ih =>
    cases c with
    | surrogate n => simp [chars?]
    | ofChar d => simp [chars?, ih]

theorem surrogate_not_mem_ofChars (n : Fin 0x800) (cs : Chars) : .surrogate n ∉ ofChars cs := by
  intro hmem
  obtain ⟨c, -, hc⟩ := List.mem_map.1 hmem
  cases hc

@[simp] theorem ofChars_inj {cs ds : Chars} : ofChars cs = ofChars ds ↔ cs = ds :=
  List.map_inj_right fun _ _ h => CodePoint.ofChar.inj h

theorem ofChars_flatMap {α : Type} (l : List α) (f : α → Chars) :
    ofChars (l.flatMap f) = l.flatMap fun a => ofChars (f a) :=
  List.map_flatMap

end Text

end DartDecoders

/-- The text of a string. -/
def String.toText (s : String) : DartDecoders.Text :=
  DartDecoders.Text.ofChars s.toList

@[simp] theorem String.toText_inj {s t : String} : s.toText = t.toText ↔ s = t := by
  rw [toText, toText, DartDecoders.Text.ofChars_inj, String.toList_inj]

namespace DartDecoders

instance : Coe String Text :=
  ⟨String.toText⟩

namespace Text

/-- Texts put one after the other. -/
def concat (parts : List Text) : Text :=
  parts.flatten

/-! ## White space at the ends -/

/-- The text without the white space at its start. -/
def trimStart (t : Text) : Text :=
  t.dropWhile isBlank

/-- The text without the white space at its end. -/
def trimEnd (t : Text) : Text :=
  (t.reverse.dropWhile isBlank).reverse

/-- The text without the white space at both ends. -/
def trim (t : Text) : Text :=
  trimEnd (trimStart t)

/-- The text without the given character at its end, however often it stands there. -/
def dropEndWhile (c : CodePoint) (t : Text) : Text :=
  (t.reverse.dropWhile (· == c)).reverse

theorem length_trimStart_le (t : Text) : (trimStart t).length ≤ t.length :=
  (List.dropWhile_sublist isBlank).length_le

theorem length_trimEnd_le (t : Text) : (trimEnd t).length ≤ t.length := by
  have h := (List.dropWhile_sublist (l := t.reverse) isBlank).length_le
  simpa [trimEnd] using h

theorem length_trim_le (t : Text) : (trim t).length ≤ t.length :=
  Nat.le_trans (length_trimEnd_le _) (length_trimStart_le t)

/-! ## Words -/

/-- The maximal runs of characters that are not white space, in order. -/
def words : Text → List Text
  | [] => []
  | [c] => if isBlank c then [] else [[c]]
  | c :: d :: rest =>
    if isBlank c then words (d :: rest)
    else if isBlank d then [c] :: words (d :: rest)
    else match words (d :: rest) with
      | word :: others => (c :: word) :: others
      | [] => [[c]]

/-- The texts in order with the separator between neighbours. -/
def join (separator : Text) (parts : List Text) : Text :=
  separator.intercalate parts

/-- The word at the end of a text, white space after it ignored, with the text before it. There is
none when the last character that is not white space is no word character. -/
def splitLastWord? (t : Text) : Option (Text × Text) :=
  let backwards := (trimEnd t).reverse
  match backwards.takeWhile isWordChar with
  | [] => none
  | c :: word => some ((backwards.dropWhile isWordChar).reverse, (c :: word).reverse)

/-! ## Search -/

/-- The text up to and with the first occurrence of the pattern, and what follows it. -/
def splitAfter? (pattern : Text) : Text → Option (Text × Text)
  | [] => if pattern.isEmpty then some ([], []) else none
  | c :: rest =>
    if pattern.isPrefixOf (c :: rest) then
      some ((c :: rest).take pattern.length, (c :: rest).drop pattern.length)
    else
      (splitAfter? pattern rest).map fun found => (c :: found.1, found.2)

/-- What follows the pattern in a text that starts with it. -/
def dropStart? (pattern t : Text) : Option Text :=
  if pattern.isPrefixOf t then some (t.drop pattern.length) else none

/-- The two parts of a successful search are the text. -/
theorem append_of_splitAfter? {pattern t before after : Text}
    (h : splitAfter? pattern t = some (before, after)) : before ++ after = t := by
  induction t generalizing before with
  | nil =>
    unfold splitAfter? at h
    split at h
    · simp_all
    · simp at h
  | cons c rest ih =>
    unfold splitAfter? at h
    split at h
    · cases h
      exact List.take_append_drop _ _
    · obtain ⟨⟨found, others⟩, hfound, hpair⟩ := Option.map_eq_some_iff.1 h
      cases hpair
      simp [ih hfound]

/-! ## Order and digits -/

/-- Texts in the order of their code points, a proper start before what it starts. -/
def le : Text → Text → Bool
  | [], _ => true
  | _ :: _, [] => false
  | a :: as, b :: bs => a.toNat < b.toNat || (a == b && le as bs)

/-- The decimal text of a natural number. -/
def ofNat (n : Nat) : Text :=
  ofChars (Nat.toDigits 10 n)

/-- The decimal text of an integer, a minus sign before the negative ones. -/
def ofInt : Int → Text
  | .ofNat n => ofNat n
  | .negSucc n => '-' :: ofNat (n + 1)

end Text

end DartDecoders
