/-
One layer of options.

A layer gives values to named options, by the names of the fields or by the keys of a file.
Whatever it does not give a value is left as it was, so a layer is known by the values it gives
(`value?`): either it fails, for one of the reasons in `Fails`, or the options behind it are those
before it with its values in place of theirs (`fails_or_updates`). Unknown names have no part in
that. Those of a file are reported, whether or not the file's layer fails (`messagesFrom_report`).
-/
import DartDecoders.Proofs.Endings
import DartDecoders.Proofs.JsonCollections

set_option autoImplicit false

namespace DartDecoders

/-! ## Names and values -/

namespace OptionName

/-- The field of an option. -/
def field : OptionName → Text
  | .implPrefix => "impl_prefix".toText
  | .primitiveHandling => "primitive_handling".toText
  | .primitiveNames => "primitive_names".toText
  | .itemFactory => "item_factory".toText
  | .listDataKey => "list_data_key".toText

/-- The key of an option in a file. -/
def fileKey : OptionName → Text
  | .implPrefix => "implPrefix".toText
  | .primitiveHandling => "primitiveHandling".toText
  | .primitiveNames => "primitiveTypes".toText
  | .itemFactory => "itemFactory".toText
  | .listDataKey => "listDataKey".toText

/-- All options. -/
def all : List OptionName :=
  [.implPrefix, .primitiveHandling, .primitiveNames, .itemFactory, .listDataKey]

theorem mem_all (name : OptionName) : name ∈ all := by
  cases name <;> decide

variable {key : Text} {name : OptionName}

theorem ofField?_eq_some_iff : ofField? key = some name ↔ key = name.field := by
  constructor
  · intro h
    unfold ofField? at h
    repeat' split at h
    all_goals cases h
    all_goals exact eq_of_beq ‹_›
  · rintro rfl
    cases name <;> rfl

theorem ofFileKey?_eq_some_iff : ofFileKey? key = some name ↔ key = name.fileKey := by
  constructor
  · intro h
    unfold ofFileKey? at h
    repeat' split at h
    all_goals cases h
    all_goals exact eq_of_beq ‹_›
  · rintro rfl
    cases name <;> rfl

end OptionName

namespace Json

/-- A value, unless it is null. -/
def given? : Json → Option Json
  | .null => none
  | value => some value

theorem given?_eq_none_iff {value : Json} : given? value = none ↔ value = .null := by
  cases value <;> simp [given?]

theorem given?_eq_some_iff {value given : Json} :
    given? value = some given ↔ value = given ∧ given ≠ .null := by
  constructor
  · intro h
    cases value <;> cases h <;> exact ⟨rfl, nofun⟩
  · rintro ⟨rfl, hne⟩
    cases value <;> first | rfl | exact absurd rfl hne

end Json

/-! ## One layer over the options -/

namespace Options

/-- The type names that a value gives. -/
def typeNames (value : Json) : List Json :=
  match membersOf value with
  | .ok members => Json.distinct members
  | .error _ => []

/-- The options with given values in place of theirs. -/
def updated (o : Options) (given : OptionName → Option Json) : Options where
  implPrefix := (given .implPrefix).getD o.implPrefix
  primitiveHandling := (given .primitiveHandling).getD o.primitiveHandling
  primitiveNames := ((given .primitiveNames).map typeNames).getD o.primitiveNames
  itemFactory := (given .itemFactory).getD o.itemFactory
  listDataKey := (given .listDataKey).getD o.listDataKey

variable {o : Options}

theorem updated_none : o.updated (fun _ => none) = o := rfl

/-- Of two values the later one stays. -/
theorem updated_updated (first second : OptionName → Option Json) :
    (o.updated first).updated second = o.updated fun name => (second name).or (first name) := by
  simp only [updated, Option.map_or, Option.getD_or]

/-- The values of one option. -/
def single (name : OptionName) (given : Option Json) (other : OptionName) : Option Json :=
  if other = name then given else none

theorem NoTypeNames.ne_null {value : Json} (h : NoTypeNames value) : value ≠ .null := by
  rintro rfl
  cases h with
  | scalar _ hne => exact hne rfl

theorem set_eq_updated {name : OptionName} {value : Json} (hne : value ≠ .null)
    (h : name = .primitiveNames → ¬ NoTypeNames value) :
    o.set name value = .ok (o.updated (single name (some value))) := by
  cases name with
  | primitiveNames =>
      cases hmembers : membersOf value with
      | error f => exact absurd ((membersOf_eq_error_iff hne).1 hmembers).2 (h rfl)
      | ok members =>
          have hnames : typeNames value = Json.distinct members := by rw [typeNames, hmembers]
          simp [set, hmembers, bind, Except.bind, pure, Except.pure, updated, single, hnames]
  | _ => rfl

theorem setGiven_eq_updated {name : OptionName} {value : Json}
    (h : name = .primitiveNames → ¬ NoTypeNames value) :
    o.setGiven name value = .ok (o.updated (single name value.given?)) := by
  cases hvalue : value.given? with
  | none =>
      obtain rfl := Json.given?_eq_none_iff.1 hvalue
      have hnone : single name none = fun _ => none := by
        funext other
        exact ite_self none
      rw [hnone, updated_none]
      rfl
  | some given =>
      obtain ⟨rfl, hne⟩ := Json.given?_eq_some_iff.1 hvalue
      rw [← set_eq_updated hne h]
      cases value <;> first | rfl | exact absurd rfl hne

/-- Values by name go over the options, unless the name of the options themselves is among them. -/
theorem withOverrides_eq (o : Options) (values : List (Text × Json)) :
    o.withOverrides values = if ownName ∈ Json.keys values then .error .wrongKind
      else o.overlay (values.filterMap fun value =>
        (OptionName.ofField? value.1).map fun name => (name, value.2)) := by
  have hany : (values.any fun value => value.1 == ownName) = true
      ↔ ownName ∈ Json.keys values := by
    simp [Json.keys, List.any_eq_true]
  rw [withOverrides, if_congr hany rfl rfl]

end Options

/-! ## Layers -/

/-- Values by the names of fields, each name once. -/
structure NamedValues where
  entries : List (Text × Json)
  nodup : (Json.keys entries).Nodup

/-- A layer of options: values by the names of fields, or the file of a path, which is read on a
stack. -/
inductive Layer where
  | named (values : NamedValues)
  | file (stack : Stack) (tree : FileTree) (path : Chars)

namespace Layer

/-- The options with the layer over them. -/
def report : Layer → Options → Report Options
  | .named values, o => Report.lift (o.withOverrides values.entries)
  | .file stack tree path, o => Loading.options stack tree path o

/-- The options behind a layer; one that fails leaves those before it. -/
def apply (l : Layer) (o : Options) : Options :=
  match (l.report o).result with
  | .ok new => new
  | .error _ => o

/-- The entries of a layer. A file has entries when it is there and its bytes are a text that is a
document with an object, of which no more arrays and objects stand in each other than the stack
holds. -/
def entries? : Layer → Option (List (Text × Json))
  | .named values => some values.entries
  | .file stack tree path =>
    match Loading.decodeContent path (tree.readNamed path) with
    | .ok (.ok t) =>
      match Json.parse stack.holdsNested t with
      | .ok (.obj entries) => some entries
      | _ => none
    | _ => none

/-- The name of an option in the layer. -/
def keyOf : Layer → OptionName → Text
  | .named _ => OptionName.field
  | .file .. => OptionName.fileKey

/-- The value that a layer gives an option: the one under its name, unless that is null. -/
def value? (l : Layer) (name : OptionName) : Option Json :=
  l.entries?.bind fun entries => (Json.lookup? (l.keyOf name) entries).bind Json.given?

/-- Why a layer fails. -/
inductive Fails : Layer → Prop
  /-- Its file is missing, or is no text, no document or no object, or is nested too deep. -/
  | unread {l : Layer} : l.entries? = none → Fails l
  /-- What it gives for the primitive types is no set of names. -/
  | typeNames {l : Layer} {value : Json} : l.value? .primitiveNames = some value →
    Options.NoTypeNames value → Fails l
  /-- It gives the options themselves a value. -/
  | ownName {values : NamedValues} : Options.ownName ∈ Json.keys values.entries →
    Fails (.named values)

/-- The name is that of no option. -/
def isUnknown (l : Layer) (key : Text) : Bool :=
  OptionName.all.all fun name => key != l.keyOf name

/-- The names in a layer that no option has, in their order. -/
def unknownKeys (l : Layer) : List Text :=
  (Json.keys (l.entries?.getD [])).filter l.isUnknown

/-- The warning of an unknown key in the file of a path. -/
def unknownWarning (path : Chars) (key : Text) : Text :=
  Text.concat ["Ignoring unknown option '", key, "' in ", Text.ofChars path]

/-- The warnings of a layer: one for each unknown key of its file. -/
def warnings : Layer → List Text
  | .named _ => []
  | .file stack tree path => (file stack tree path).unknownKeys.map (unknownWarning path)

/-! ### What a layer gives -/

/-- The option that a name stands for in the layer. -/
def optionOf : Layer → Text → Option OptionName
  | .named _ => OptionName.ofField?
  | .file .. => OptionName.ofFileKey?

variable {l : Layer} {key : Text} {name : OptionName} {entries : List (Text × Json)}
  {stack : Stack} {tree : FileTree} {path : Chars}

theorem optionOf_eq_some_iff : l.optionOf key = some name ↔ key = l.keyOf name := by
  cases l with
  | named values => exact OptionName.ofField?_eq_some_iff
  | file stack tree path => exact OptionName.ofFileKey?_eq_some_iff

theorem keyOf_inj {other : OptionName} (h : l.keyOf name = l.keyOf other) : name = other :=
  Option.some.inj ((optionOf_eq_some_iff.2 rfl).symm.trans (optionOf_eq_some_iff.2 h))

theorem optionOf_eq_none_iff : l.optionOf key = none ↔ l.isUnknown key = true := by
  rw [Option.eq_none_iff_forall_ne_some]
  simp only [isUnknown, ne_eq, optionOf_eq_some_iff, List.all_eq_true, bne_iff_ne]
  exact ⟨fun h name _ => h name, fun h name => h name (OptionName.mem_all name)⟩

/-- The options that entries set, and their values. -/
def assignments (l : Layer) (entries : List (Text × Json)) : List (OptionName × Json) :=
  entries.filterMap fun entry => (l.optionOf entry.1).map fun name => (name, entry.2)

theorem mem_assignments_iff {value : Json} :
    (name, value) ∈ l.assignments entries ↔ (l.keyOf name, value) ∈ entries := by
  simp only [assignments, List.mem_filterMap, Option.map_eq_some_iff, optionOf_eq_some_iff,
    Prod.mk.injEq]
  constructor
  · rintro ⟨⟨key, given⟩, hentry, option, rfl, rfl, rfl⟩
    exact hentry
  · intro hentry
    exact ⟨_, hentry, name, rfl, rfl, rfl⟩

/-- An entry gives its option the value, and the entries behind it give the other options theirs. -/
theorem given_cons {option : OptionName} (h : l.keyOf option ∉ Json.keys entries) (value : Json)
    (name : OptionName) :
    ((Json.lookup? (l.keyOf name) entries).bind Json.given?).or
        (Options.single option value.given? name)
      = (Json.lookup? (l.keyOf name) ((l.keyOf option, value) :: entries)).bind Json.given? := by
  by_cases hname : name = option
  · subst hname
    simp [Json.lookup?_eq_none h, Options.single, Json.lookup?]
  · have hne : l.keyOf option ≠ l.keyOf name := fun heq => hname (keyOf_inj heq).symm
    simp [Options.single, hname, Json.lookup?, hne]

/-- Entries with each key once update the options by their values, when these are fit for their
options. The induction is on the entries, whatever the options are before them. -/
theorem overlay_assignments (hnodup : (Json.keys entries).Nodup)
    (hnames : ∀ value, (l.keyOf .primitiveNames, value) ∈ entries → ¬ Options.NoTypeNames value)
    (o : Options) : o.overlay (l.assignments entries)
      = .ok (o.updated fun name => (Json.lookup? (l.keyOf name) entries).bind Json.given?) := by
  induction entries generalizing o with
  | nil => rfl
  | cons entry rest ih =>
      obtain ⟨key, value⟩ := entry
      obtain ⟨hkey, hrest⟩ := List.nodup_cons.1 hnodup
      have hothers := ih hrest fun value hvalue => hnames value (List.mem_cons_of_mem _ hvalue)
      cases hoption : l.optionOf key with
      | none =>
          have hne : ∀ name, key ≠ l.keyOf name := fun name heq => by
            rw [optionOf_eq_some_iff.2 heq] at hoption
            cases hoption
          have hskip : l.assignments ((key, value) :: rest) = l.assignments rest :=
            List.filterMap_cons_none (by simp [hoption])
          simp [hskip, hothers, Json.lookup?, hne]
      | some option =>
          obtain rfl := optionOf_eq_some_iff.1 hoption
          have htake : l.assignments ((l.keyOf option, value) :: rest)
              = (option, value) :: l.assignments rest :=
            List.filterMap_cons_some (by simp [hoption])
          have hset : o.setGiven option value
              = .ok (o.updated (Options.single option value.given?)) :=
            Options.setGiven_eq_updated fun heq => hnames value (by simp [heq])
          rw [htake, Options.overlay, List.foldlM_cons, hset]
          refine (hothers _).trans ?_
          rw [Options.updated_updated]
          congr 2
          funext name
          exact given_cons hkey value name

/-! ### How a layer ends -/

theorem parseContent_eq_ok_iff {content : Except SystemCause ByteArray} {value : Json} :
    Loading.parseContent stack path content = .ok (.ok value)
      ↔ ∃ t, Loading.decodeContent path content = .ok (.ok t)
        ∧ Json.parse stack.holdsNested t = .ok value := by
  constructor
  · intro h
    rw [Loading.parseContent, bind_eq_ok_iff] at h
    obtain ⟨opened, hopened, h⟩ := h
    cases opened with
    | error e => cases h
    | ok t =>
        refine ⟨t, hopened, ?_⟩
        dsimp only at h
        split at h
        · next hparse =>
            cases h
            exact hparse
        · split at h <;> cases h
  · rintro ⟨t, hopened, hparse⟩
    rw [Loading.parseContent, hopened]
    simp [hparse, bind, Except.bind, pure, Except.pure]

theorem entries?_file_eq_some_iff : (file stack tree path).entries? = some entries
    ↔ Loading.parseContent stack path (tree.readNamed path) = .ok (.ok (.obj entries)) := by
  rw [parseContent_eq_ok_iff, entries?]
  constructor
  · intro h
    split at h
    · next t hopened =>
        split at h
        · next hparse =>
            cases h
            exact ⟨t, hopened, hparse⟩
        · cases h
    · cases h
  · rintro ⟨t, hopened, hparse⟩
    simp only [hopened, hparse]

theorem nodup_of_entries? (h : l.entries? = some entries) : (Json.keys entries).Nodup := by
  cases l with
  | named values =>
      cases h
      exact values.nodup
  | file stack tree path =>
      obtain ⟨t, -, hparse⟩ := parseContent_eq_ok_iff.1 (entries?_file_eq_some_iff.1 h)
      exact Json.nodup_of_parse hparse

/-- The value for an option is the entry under its name that is not null. -/
theorem value?_eq_some_iff (h : l.entries? = some entries) {value : Json} :
    l.value? name = some value ↔ (l.keyOf name, value) ∈ entries ∧ value ≠ .null := by
  rw [value?, h, Option.bind_some, Option.bind_eq_some_iff]
  simp only [Json.lookup?_eq_some_iff (nodup_of_entries? h), Json.given?_eq_some_iff]
  constructor
  · rintro ⟨found, hfound, rfl, hne⟩
    exact ⟨hfound, hne⟩
  · rintro ⟨hvalue, hne⟩
    exact ⟨value, hvalue, rfl, hne⟩

theorem value?_ne_null {value : Json} (h : l.value? name = some value) : value ≠ .null := by
  obtain ⟨entries, hentries, -⟩ := Option.bind_eq_some_iff.1 h
  exact ((value?_eq_some_iff hentries).1 h).2

/-- A file with entries is loaded as they say, and each unknown key of it is reported. -/
theorem report_file (h : (file stack tree path).entries? = some entries) (o : Options) :
    (file stack tree path).report o = o.withFile path (.ok (.obj entries)) := by
  rw [report, Loading.options, entries?_file_eq_some_iff.1 h]
  rfl

theorem report_file_of_none (h : (file stack tree path).entries? = none) (o : Options) :
    (∃ f, ((file stack tree path).report o).result = .error f)
      ∧ ((file stack tree path).report o).log = [] := by
  rw [report, Loading.options]
  cases hdocument : Loading.parseContent stack path (tree.readNamed path) with
  | error f => exact ⟨⟨f, rfl⟩, rfl⟩
  | ok document =>
      cases document with
      | error cause => exact ⟨⟨_, rfl⟩, rfl⟩
      | ok value =>
          cases value with
          | obj entries =>
              rw [entries?_file_eq_some_iff.2 hdocument] at h
              cases h
          | _ => exact ⟨⟨_, rfl⟩, rfl⟩

/-- A layer with entries overlays the options that they set, unless the options themselves are among
what it names. -/
theorem result_report (h : l.entries? = some entries)
    (hown : ∀ values, l = .named values → Options.ownName ∉ Json.keys values.entries)
    (o : Options) : (l.report o).result = o.overlay (l.assignments entries) := by
  cases l with
  | named values =>
      cases h
      rw [report, Report.result_lift, Options.withOverrides_eq, if_neg (hown values rfl)]
      rfl
  | file stack tree path =>
      rw [report_file h]
      rfl

theorem result_of_ownName {values : NamedValues}
    (h : Options.ownName ∈ Json.keys values.entries) (o : Options) :
    ((named values).report o).result = .error .wrongKind := by
  rw [report, Report.result_lift, Options.withOverrides_eq, if_pos h]

/-- A layer fails, or it updates the options by the values it gives and by nothing else. -/
theorem fails_or_updates (l : Layer) (o : Options) :
    (l.Fails ∧ ∃ f, (l.report o).result = .error f)
      ∨ ¬ l.Fails ∧ (l.report o).result = .ok (o.updated l.value?) := by
  cases hentries : l.entries? with
  | none =>
      cases l with
      | named values => cases hentries
      | file stack tree path => exact .inl ⟨.unread hentries, (report_file_of_none hentries o).1⟩
  | some entries =>
      by_cases hown : ∃ values, l = .named values ∧ Options.ownName ∈ Json.keys values.entries
      · obtain ⟨values, rfl, hmem⟩ := hown
        exact .inl ⟨.ownName hmem, _, result_of_ownName hmem o⟩
      · have hresult := result_report hentries (fun values hl hmem => hown ⟨values, hl, hmem⟩) o
        by_cases hnames : ∃ value, l.value? .primitiveNames = some value
            ∧ Options.NoTypeNames value
        · obtain ⟨value, hvalue, hbad⟩ := hnames
          refine .inl ⟨.typeNames hvalue hbad, .wrongKind, ?_⟩
          rw [hresult, Options.overlay_eq_error_iff]
          have hentry := ((value?_eq_some_iff hentries).1 hvalue).1
          exact ⟨rfl, value, mem_assignments_iff.2 hentry, hbad⟩
        · refine .inr ⟨?_, ?_⟩
          · rintro (hnone | ⟨hvalue, hbad⟩ | hmem)
            · rw [hentries] at hnone
              cases hnone
            · exact hnames ⟨_, hvalue, hbad⟩
            · exact hown ⟨_, rfl, hmem⟩
          · have hgood : ∀ value, (l.keyOf .primitiveNames, value) ∈ entries →
                ¬ Options.NoTypeNames value := fun value hentry hbad =>
              hnames ⟨value, (value?_eq_some_iff hentries).2 ⟨hentry, hbad.ne_null⟩, hbad⟩
            have hvalues : l.value?
                = fun name => (Json.lookup? (l.keyOf name) entries).bind Json.given? := by
              funext name
              rw [value?, hentries]
              rfl
            rw [hresult, hvalues]
            exact overlay_assignments (nodup_of_entries? hentries) hgood o

theorem apply_of_fails (h : l.Fails) (o : Options) : l.apply o = o := by
  rcases l.fails_or_updates o with ⟨-, f, hresult⟩ | ⟨hnot, -⟩
  · rw [apply, hresult]
  · exact absurd h hnot

theorem result_eq_apply (h : ¬ l.Fails) (o : Options) : (l.report o).result = .ok (l.apply o) := by
  rcases l.fails_or_updates o with ⟨hfails, -⟩ | ⟨-, hresult⟩
  · exact absurd hfails h
  · rw [apply, hresult]

theorem apply_of_not_fails (h : ¬ l.Fails) (o : Options) : l.apply o = o.updated l.value? := by
  rcases l.fails_or_updates o with ⟨hfails, -⟩ | ⟨-, hresult⟩
  · exact absurd hfails h
  · rw [apply, hresult]

/-! ### What a layer reports -/

theorem nodup_unknownKeys (l : Layer) : l.unknownKeys.Nodup := by
  refine List.Pairwise.filter _ ?_
  cases hentries : l.entries? with
  | none => exact Json.nodup_keys_nil
  | some entries => exact nodup_of_entries? hentries

/-- The record of an entry whose key is unknown. -/
def unknownRecord (path : Chars) (entry : Text × Json) : Option LogRecord :=
  match OptionName.ofFileKey? entry.1 with
  | some _ => none
  | none => some ⟨.warning, unknownWarning path entry.1⟩

theorem unknownRecord_eq (stack : Stack) (tree : FileTree) (path : Chars) (entry : Text × Json) :
    unknownRecord path entry = if (file stack tree path).isUnknown entry.1
      then some ⟨.warning, unknownWarning path entry.1⟩ else none := by
  have hunknown : (file stack tree path).optionOf entry.1 = none
      ↔ (file stack tree path).isUnknown entry.1 = true := optionOf_eq_none_iff
  rw [optionOf] at hunknown
  unfold unknownRecord
  split
  · next hname => rw [if_neg (mt hunknown.2 (by simp [hname]))]
  · next hname => rw [if_pos (hunknown.1 hname)]

theorem messagesFrom_unknownRecords (stack : Stack) (tree : FileTree) (path : Chars)
    (entries : List (Text × Json)) :
    LogRecord.messagesFrom .warning (entries.filterMap (unknownRecord path))
      = ((Json.keys entries).filter (file stack tree path).isUnknown).map
          (unknownWarning path) := by
  induction entries with
  | nil => rfl
  | cons entry rest ih =>
      rw [Json.keys, List.map_cons, List.filter_cons, List.filterMap_cons,
        unknownRecord_eq stack tree path entry]
      by_cases hunknown : (file stack tree path).isUnknown entry.1 = true
      · rw [if_pos hunknown, if_pos hunknown]
        exact congrArg _ ih
      · rw [if_neg hunknown, if_neg hunknown]
        exact ih

/-- The warnings of a layer are written whether or not it fails. -/
theorem messagesFrom_report (l : Layer) (o : Options) :
    LogRecord.messagesFrom .warning (l.report o).log = l.warnings := by
  cases l with
  | named values => rfl
  | file stack tree path =>
      cases hentries : (file stack tree path).entries? with
      | none =>
          rw [(report_file_of_none hentries o).2, warnings, unknownKeys, hentries]
          rfl
      | some entries =>
          have hlog : ∃ message, ((file stack tree path).report o).log
              = entries.filterMap (unknownRecord path) ++ [⟨.info, message⟩] := by
            rw [report_file hentries]
            exact ⟨_, rfl⟩
          obtain ⟨message, hlog⟩ := hlog
          rw [hlog, warnings, unknownKeys, hentries, LogRecord.messagesFrom, List.filter_append,
            List.map_append]
          exact (List.append_nil _).trans (messagesFrom_unknownRecords stack tree path entries)

end Layer

end DartDecoders
