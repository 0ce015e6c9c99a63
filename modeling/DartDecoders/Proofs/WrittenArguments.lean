/-
Arguments of an annotation, written and read back.

Arguments are looked for at every character in turn, but where they are written one behind the other
each search starts outside values: white space and commas start no argument, and at the first
character of a key the whole argument is read, with its value up to the closing quote
(`WrittenArgument.argumentsIn_text`). So what a value holds is never looked at, not even where it
looks like an argument. Distinct keys come in the order in which they are written, since a new key
goes last (`foldl_insert_of_nodup`).
-/
import DartDecoders.Proofs.Annotations
import DartDecoders.Proofs.DeclaredParameters

set_option autoImplicit false

namespace DartDecoders

open Text TypeExpr Source

/-! ## Written arguments -/

/-- The value of an argument: null, or a text in quotes that holds neither its quote nor a
backslash. -/
inductive WrittenValue where
  | null
  | quoted (quote : CodePoint) (isQuote : isQuote quote = true) (inside : Text)
    (plain : ∀ c ∈ inside, c ≠ quote ∧ c ≠ '\\')

namespace WrittenValue

/-- The value as it is written. -/
def text : WrittenValue → Text
  | null => "null".toText
  | quoted quote _ inside _ => quote :: (inside ++ [quote])

/-- What is written, if it is not null. -/
def value? : WrittenValue → Option Text
  | null => none
  | quoted _ _ inside _ => some inside

/-- The value as an entry holds it. -/
def json (v : WrittenValue) : Json :=
  v.value?.elim .null .str

theorem stopsAt_text : ∀ (v : WrittenValue) (rest : Text), StopsAt isBlank (v.text ++ rest)
  | null, _ => rfl
  | quoted _ hquote _ _, _ => isBlank_of_isQuote hquote

/-- A value is read whole, whatever it holds. -/
theorem argumentValue?_text : ∀ (v : WrittenValue) (rest : Text),
    argumentValue? (v.text ++ rest) = some (v.value?, rest)
  | null, _ => rfl
  | quoted quote hquote inside hplain, rest => by
    rw [text, List.cons_append, List.append_assoc, List.singleton_append]
    exact argumentValue?_quoted hquote hplain rest

end WrittenValue

/-- A key and a value with a colon between them, and any white space around all of it. -/
structure WrittenArgument where
  before : Gap
  key : Word
  beforeColon : Gap
  behindColon : Gap
  value : WrittenValue
  behind : Gap

namespace WrittenArgument

/-- The argument as it is written. -/
def text (a : WrittenArgument) : Text :=
  a.before.text ++ (a.key.text ++ (a.beforeColon.text
    ++ .ofChar ':' :: (a.behindColon.text ++ (a.value.text ++ a.behind.text))))

/-- The arguments as they are written, with commas between them. -/
def listText (args : List WrittenArgument) : Text :=
  join [','] (args.map text)

/-- The key and the value. -/
def entry (a : WrittenArgument) : Text × Json :=
  (a.key.text, a.value.json)

/-- No argument starts in white space. -/
theorem argumentsIn_gap {gap : Text} (hgap : ∀ c ∈ gap, isBlank c = true) (t : Text) :
    argumentsIn (gap ++ t) = argumentsIn t := by
  induction gap with
  | nil => rfl
  | cons c gap ih =>
      obtain ⟨hc, hrest⟩ := List.forall_mem_cons.1 hgap
      rw [List.cons_append, argumentsIn_cons (isWordChar_of_isBlank hc), ih hrest]

/-- A search that starts in front of an argument reads it and goes on behind it. -/
theorem argumentsIn_text (a : WrittenArgument) (rest : Text) :
    argumentsIn (a.text ++ rest) = (a.key.text, a.value.value?) :: argumentsIn rest := by
  have hvalue := a.value.argumentValue?_text (a.behind.text ++ rest)
  have hread := argument?_append a.key.ne_nil a.key.chars a.beforeColon.blank a.behindColon.blank
    (a.value.stopsAt_text (a.behind.text ++ rest)) hvalue
  have hne : a.key.text ++ (a.beforeColon.text ++ .ofChar ':' :: (a.behindColon.text
      ++ (a.value.text ++ (a.behind.text ++ rest)))) ≠ [] :=
    List.append_ne_nil_of_left_ne_nil a.key.ne_nil _
  have htext : a.text ++ rest = a.before.text ++ (a.key.text ++ (a.beforeColon.text
      ++ .ofChar ':' :: (a.behindColon.text ++ (a.value.text ++ (a.behind.text ++ rest))))) := by
    simp [text]
  rw [htext, argumentsIn_gap a.before.blank, argumentsIn_of_argument? hne hread,
    argumentsIn_gap a.behind.blank]

/-- Each argument is found, and nothing else is. -/
theorem argumentsIn_listText (args : List WrittenArgument) :
    argumentsIn (listText args) = args.map fun a => (a.key.text, a.value.value?) := by
  rw [listText]
  induction args with
  | nil =>
      rw [List.map_nil, show join [','] [] = [] from rfl, argumentsIn]
      rfl
  | cons a rest ih =>
      cases rest with
      | nil =>
          have hlast := a.argumentsIn_text []
          rw [List.append_nil, argumentsIn] at hlast
          rw [List.map_singleton, join_singleton, hlast]
          rfl
      | cons next rest =>
          have hcomma : isWordChar ',' = false := by decide
          rw [List.map_cons, List.map_cons, join_cons_cons, a.argumentsIn_text,
            List.singleton_append, argumentsIn_cons hcomma, ← List.map_cons, ih]
          rfl

end WrittenArgument

/-! ## Entries -/

/-- A new key goes last. -/
theorem Json.insert_of_forall_ne {key : Text} {entries : List (Text × Json)}
    (h : ∀ entry ∈ entries, entry.1 ≠ key) (value : Json) :
    Json.insert key value entries = entries ++ [(key, value)] := by
  induction entries with
  | nil => rfl
  | cons entry rest ih =>
      obtain ⟨hne, hrest⟩ := List.forall_mem_cons.1 h
      rw [Json.insert, if_neg (by simpa using hne), ih hrest]
      rfl

/-- Distinct keys stay in order. -/
theorem foldl_insert_of_nodup {found : List (Text × Option Text)} {entries : List (Text × Json)}
    (h : (entries.map Prod.fst ++ found.map Prod.fst).Nodup) :
    found.foldl (fun entries found => Json.insert found.1 (found.2.elim .null Json.str) entries)
        entries
      = entries ++ found.map fun found => (found.1, found.2.elim .null Json.str) := by
  induction found generalizing entries with
  | nil => simp
  | cons first rest ih =>
      have hnew : ∀ entry ∈ entries, entry.1 ≠ first.1 := by
        intro entry hentry heq
        have hdisjoint := (List.nodup_append.1 h).2.2
        exact hdisjoint entry.1 (List.mem_map_of_mem hentry) first.1 (by simp) heq
      have hrest : ((entries ++ [(first.1, first.2.elim Json.null Json.str)]).map Prod.fst
          ++ rest.map Prod.fst).Nodup := by
        simpa using h
      rw [List.foldl_cons, Json.insert_of_forall_ne hnew, ih hrest]
      simp

namespace WrittenArgument

/-- **Arguments are read back as they were written.** For every list of arguments with distinct keys
and values of any kind, written with commas between them and white space anywhere around keys,
colons, values and commas: reading gives exactly the keys and values, in order. -/
theorem argumentEntries_listText {args : List WrittenArgument}
    (h : (args.map fun a => a.key.text).Nodup) :
    argumentEntries (listText args) = args.map entry := by
  have hkeys : (([] : List (Text × Json)).map Prod.fst
      ++ (args.map fun a => (a.key.text, a.value.value?)).map Prod.fst).Nodup := by
    simpa [Function.comp_def] using h
  rw [argumentEntries, argumentsIn_listText, foldl_insert_of_nodup hkeys, List.map_map]
  rfl

/-- A value that holds other arguments and both kinds of brackets, over two lines. -/
def misleading : WrittenArgument where
  before := ⟨"\n".toText, by decide⟩
  key := ⟨"wrapperType".toText, by decide, by decide⟩
  beforeColon := ⟨" ".toText, by decide⟩
  behindColon := ⟨"\t".toText, by decide⟩
  value := .quoted '"' rfl "Page', wrapperFromJson: 'fromMap'\n)(a: null,".toText (by decide)
  behind := ⟨" ".toText, by decide⟩

/-- A null value without white space around it. -/
def nullFactory : WrittenArgument where
  before := ⟨[], by decide⟩
  key := ⟨"wrapperFromJson".toText, by decide, by decide⟩
  beforeColon := ⟨[], by decide⟩
  behindColon := ⟨[], by decide⟩
  value := .null
  behind := ⟨[], by decide⟩

/-- The value is one argument, and the key in it is not taken for the one that follows. -/
theorem argumentEntries_listText_misleading :
    (([misleading, nullFactory] : List WrittenArgument).map fun a => a.key.text).Nodup
      ∧ argumentEntries
          ("\nwrapperType :\t\"Page', wrapperFromJson: 'fromMap'\n)(a: null,\" ".toText
            ++ ",wrapperFromJson:null".toText)
        = [("wrapperType".toText, .str "Page', wrapperFromJson: 'fromMap'\n)(a: null,".toText),
          ("wrapperFromJson".toText, .null)] := by
  have hkeys :
      (([misleading, nullFactory] : List WrittenArgument).map fun a => a.key.text).Nodup := by
    decide
  exact ⟨hkeys, argumentEntries_listText hkeys⟩

end WrittenArgument

end DartDecoders
