/-
Declaration data that is loaded.

By its documentation names and return types in declaration data are texts, and methods and
parameters are listed in arrays (`Documented`). All else may be any value. What reading makes of
such data is said once for each level, without a look at how it is read (`ReadsParameter`,
`ReadsMethod`, `ReadsClass`): every field of the result is a field of the entry or has its default,
and a list gives one result for each of its entries, in order. A level is read exactly so
(`parameterOf_eq_ok_iff`, `methodOf_eq_ok_iff`, `classOf_eq_ok_iff`), so there is a result exactly
when the entry is well-formed, and one entry that is not well-formed, at any level, refuses the
whole data. Since nothing in documented data is walked or put in order that cannot be, it is then
refused with an error about declarations (`load_documented`).
-/
import Mathlib.Data.List.Nodup
import DartDecoders.Proofs.DocumentFaults
import DartDecoders.Proofs.Runs

set_option autoImplicit false

namespace DartDecoders

open Text

namespace Declaration

/-! ## Entries -/

/-- The fields of an object. -/
abbrev Fields := List (Text × Json)

/-- The value that is given for a key. -/
def given? (fields : Fields) (key : String) : Option Json :=
  Json.lookup? key.toText fields

theorem field_eq (fields : Fields) (key : String) (absent : Json) :
    field fields key absent = (given? fields key).getD absent := rfl

/-- What is listed under a key; without the key nothing is. -/
def listed (fields : Fields) (key : String) : List Json :=
  match given? fields key with
  | some (.arr items) => items
  | _ => []

/-- The entry is an object with such fields. -/
def IsObject (p : Fields → Prop) (entry : Json) : Prop :=
  ∃ fields, entry = .obj fields ∧ p fields

theorem isObject_obj_iff {p : Fields → Prop} {fields : Fields} :
    IsObject p (.obj fields) ↔ p fields := by
  constructor
  · rintro ⟨_, heq, h⟩
    cases heq
    exact h
  · intro h
    exact ⟨fields, rfl, h⟩

theorem exists_isObject_iff {α : Type} {p : Fields → α → Prop} {q : Fields → Prop}
    (h : ∀ fields, (∃ a, p fields a) ↔ q fields) {entry : Json} :
    (∃ a, IsObject (p · a) entry) ↔ IsObject q entry := by
  constructor
  · rintro ⟨a, fields, heq, ha⟩
    exact ⟨fields, heq, (h fields).1 ⟨a, ha⟩⟩
  · rintro ⟨fields, heq, hq⟩
    obtain ⟨a, ha⟩ := (h fields).2 hq
    exact ⟨a, fields, heq, ha⟩

/-- The value is null or a text. -/
def IsTextOrNull (value : Json) : Prop :=
  value = .null ∨ ∃ t, value = .str t

/-- The value is an array. -/
def IsArray (value : Json) : Prop :=
  ∃ items, value = .arr items

/-- The fields of a method with the types that are documented. -/
structure DocumentedMethod (fields : Fields) : Prop where
  name : ∀ v ∈ given? fields "name", IsTextOrNull v
  returnType : ∀ v ∈ given? fields "returnType", IsTextOrNull v
  parameters : ∀ v ∈ given? fields "parameters", IsArray v

/-- The fields of a class with the types that are documented. Its methods may be no objects. -/
structure DocumentedClass (fields : Fields) : Prop where
  name : ∀ v ∈ given? fields "name", IsTextOrNull v
  methods : ∀ v ∈ given? fields "methods", IsArray v
  method : ∀ method, .obj method ∈ listed fields "methods" → DocumentedMethod method

/-- The data is the list of class entries, or an object that holds it. -/
inductive HoldsClasses : Json → List Json → Prop
  | list {entries : List Json} : HoldsClasses (.arr entries) entries
  | object {fields : Fields} {entries : List Json} :
    given? fields "classes" = some (.arr entries) → HoldsClasses (.obj fields) entries

/-- Data with the types that are documented. It may hold no list, and the entries of the list may be
no objects. -/
def Documented (data : Json) : Prop :=
  ∀ entries, HoldsClasses data entries → ∀ fields, .obj fields ∈ entries → DocumentedClass fields

/-! ## Well-formed data -/

/-- A text that is not empty is given for the key. -/
def HasText (fields : Fields) (key : String) : Prop :=
  ∃ t, given? fields key = some (.str t) ∧ t ≠ []

/-- The groups of parameters that data can name. -/
def parameterKinds : List ParameterKind :=
  [.positional, .optional, .named]

/-- A parameter is a text that holds a space when it is trimmed, or an object with a type, a name
and, unless it is left out, one of the three groups. -/
inductive WellFormedParameter : Json → Prop
  | text {t : Text} : .ofChar ' ' ∈ trim t → WellFormedParameter (.str t)
  | object {fields : Fields} {type name : Json} : given? fields "type" = some type →
    given? fields "name" = some name →
    (∀ kind ∈ given? fields "kind", ∃ k ∈ parameterKinds, kind = .str k.toText) →
    WellFormedParameter (.obj fields)

structure WellFormedMethod (fields : Fields) : Prop where
  name : HasText fields "name"
  returnType : HasText fields "returnType"
  parameters : ∀ entry ∈ listed fields "parameters", WellFormedParameter entry

/-- The name that an entry gives. -/
def entryName? : Json → Option Json
  | .obj fields => given? fields "name"
  | _ => none

structure WellFormedClass (fields : Fields) : Prop where
  name : HasText fields "name"
  methods : ∀ entry ∈ listed fields "methods", IsObject WellFormedMethod entry
  names : ((listed fields "methods").map entryName?).Nodup
  marker : ∀ v ∈ given? fields "annotation", v = .null ∨ ∃ record, v = .obj record

/-- The data holds a list of classes, and each of them is well-formed. -/
def WellFormed (data : Json) : Prop :=
  ∃ entries, HoldsClasses data entries ∧ ∀ entry ∈ entries, IsObject WellFormedClass entry

/-! ## What entries give -/

/-- A text gives a parameter whose name is behind its last space. An object gives one with the type
and the name that it holds. -/
inductive ReadsParameter : Json → Parameter → Prop
  | text {t before name : Text} : trim t = before ++ .ofChar ' ' :: name → .ofChar ' ' ∉ name →
    ReadsParameter (.str t) { typeText := .str (trim before), name := .str name }
  | object {fields : Fields} {type name : Json} {kind : ParameterKind} :
    given? fields "type" = some type → given? fields "name" = some name →
    (given? fields "kind").getD (.str "positional".toText) = .str kind.toText →
    kind ∈ parameterKinds →
    ReadsParameter (.obj fields)
      { typeText := type
        name
        kind
        required := (given? fields "required").any Json.isTruthy
        default := (given? fields "default").getD .null }

/-- The value is the text that is given for the key, and the text is not empty. -/
def GivesText (fields : Fields) (key : String) (value : Json) : Prop :=
  ∃ t, given? fields key = some (.str t) ∧ t ≠ [] ∧ value = .str t

/-- A method keeps the texts of its entry and has a parameter for each that is listed. It is
abstract unless its entry says otherwise. -/
structure ReadsMethod (fields : Fields) (m : Method) : Prop where
  name : GivesText fields "name" m.name
  returnType : GivesText fields "returnType" m.returnType
  parameters : List.Forall₂ ReadsParameter (listed fields "parameters") m.parameters
  isAbstract : m.isAbstract = (given? fields "isAbstract").all Json.isTruthy
  typeParameters :
    m.typeParameters = ((given? fields "typeParameters").filter Json.isTruthy).getD (.str [])

/-- An annotation gives an envelope; null stands for none. -/
inductive ReadsMarker : Option Json → Option Envelope → Prop
  | absent : ReadsMarker none none
  | null : ReadsMarker (some .null) none
  | record (arguments : Fields) :
    ReadsMarker (some (.obj arguments)) (some (.ofArguments arguments))

/-- A class keeps the name of its entry and has a method for each that is listed, no two with the
same name. It is an abstract class unless its entry says otherwise. -/
structure ReadsClass (sourceFile : Json) (fields : Fields) (d : Declaration) : Prop where
  name : GivesText fields "name" d.name
  kind : d.kind = (given? fields "kind").getD (.str classKind)
  methods : List.Forall₂ (fun entry m => IsObject (ReadsMethod · m) entry)
    (listed fields "methods") d.methods
  names : (d.methods.map (·.name)).Nodup
  marker : ReadsMarker (given? fields "annotation") d.envelope
  isAbstract : d.isAbstract = (given? fields "isAbstract").all Json.isTruthy
  sourceFile : d.sourceFile = sourceFile

/-! ## Parameters -/

theorem splitLastSpace?_append {before name : Text} (h : .ofChar ' ' ∉ name) :
    splitLastSpace? (before ++ .ofChar ' ' :: name) = some (before, name) := by
  have hname : ∀ c ∈ name.reverse, (c != ' ') = true := by
    intro c hc
    rw [bne_iff_ne]
    rintro rfl
    exact h (List.mem_reverse.1 hc)
  have hstop : StopsAt (· != ' ') (' ' :: before.reverse) := rfl
  have hback : (before ++ .ofChar ' ' :: name).reverse
      = name.reverse ++ .ofChar ' ' :: before.reverse := by simp
  rw [splitLastSpace?, hback, dropWhile_append_of_stopsAt hname hstop,
    takeWhile_append_of_stopsAt hname hstop]
  simp only [List.reverse_reverse]

/-- A text with a space in it has a last one. -/
theorem exists_last_space {t : Text} (h : .ofChar ' ' ∈ t) :
    ∃ before name, t = before ++ .ofChar ' ' :: name ∧ .ofChar ' ' ∉ name := by
  obtain ⟨back, front, hback, hnone⟩ := List.eq_append_cons_of_mem (List.mem_reverse.2 h)
  refine ⟨front.reverse, back.reverse, ?_, fun hmem => hnone (List.mem_reverse.1 hmem)⟩
  rw [← List.reverse_reverse t, hback]
  simp

theorem splitLastSpace?_eq_none {t : Text} (h : .ofChar ' ' ∉ t) : splitLastSpace? t = none := by
  have hother : ∀ c ∈ t.reverse, (c != ' ') = true := by
    intro c hc
    rw [bne_iff_ne]
    rintro rfl
    exact h (List.mem_reverse.1 hc)
  have hnone := dropWhile_append_of_stopsAt hother (show StopsAt (· != ' ') [] from trivial)
  rw [List.append_nil] at hnone
  rw [splitLastSpace?, hnone]

/-- A trimmed text has something on both sides of each of its spaces. -/
theorem ne_nil_of_trim_eq {t before name : Text} (h : trim t = before ++ .ofChar ' ' :: name) :
    before ≠ [] ∧ name ≠ [] := by
  have htrimmed := trimmed_trim t
  rw [h] at htrimmed
  obtain ⟨hstart, hfinish⟩ := htrimmed
  have hblank : isBlank ' ' = true := by decide
  constructor
  · rintro rfl
    exact absurd hblank (Bool.eq_false_iff.1 hstart)
  · rintro rfl
    rw [List.reverse_append] at hfinish
    exact absurd hblank (Bool.eq_false_iff.1 hfinish)

/-- The name of a parameter stands behind the last space. -/
theorem parameterOfText_of_eq (method : Json) {t before name : Text}
    (ht : trim t = before ++ .ofChar ' ' :: name) (hname : .ofChar ' ' ∉ name) :
    parameterOfText method t = .ok { typeText := .str (trim before), name := .str name } := by
  obtain ⟨hbefore, hne⟩ := ne_nil_of_trim_eq ht
  have hboth : ¬ (before.isEmpty || name.isEmpty) = true := by simp [hbefore, hne]
  rw [parameterOfText, ht, splitLastSpace?_append hname]
  simp only
  rw [if_neg hboth]

theorem parameterOfText_eq_ok_iff {method : Json} {t : Text} {p : Parameter} :
    parameterOfText method t = .ok p ↔ ReadsParameter (.str t) p := by
  constructor
  · intro h
    by_cases hspace : .ofChar ' ' ∈ trim t
    · obtain ⟨before, name, ht, hname⟩ := exists_last_space hspace
      rw [parameterOfText_of_eq method ht hname] at h
      cases h
      exact .text ht hname
    · rw [parameterOfText, splitLastSpace?_eq_none hspace] at h
      cases h
  · intro h
    cases h with
    | text ht hname => exact parameterOfText_of_eq method ht hname

theorem parameterKind?_eq_some_iff {v : Json} {kind : ParameterKind} :
    parameterKind? v = some kind ↔ v = .str kind.toText ∧ kind ∈ parameterKinds := by
  constructor
  · intro h
    cases v with
    | str word =>
        rw [parameterKind?, ParameterKind.ofText] at h
        by_cases hpositional : (word == "positional".toText) = true
        · rw [if_pos hpositional] at h
          cases h
          rw [beq_iff_eq.1 hpositional]
          exact ⟨rfl, by decide⟩
        rw [if_neg hpositional] at h
        by_cases hoptional : (word == "optional".toText) = true
        · rw [if_pos hoptional] at h
          cases h
          rw [beq_iff_eq.1 hoptional]
          exact ⟨rfl, by decide⟩
        rw [if_neg hoptional] at h
        by_cases hnamed : (word == "named".toText) = true
        · rw [if_pos hnamed] at h
          cases h
          rw [beq_iff_eq.1 hnamed]
          exact ⟨rfl, by decide⟩
        rw [if_neg hnamed] at h
        cases h
    | _ => cases h
  · rintro ⟨rfl, hkind⟩
    have hall : ∀ kind ∈ parameterKinds, parameterKind? (.str kind.toText) = some kind := by decide
    exact hall kind hkind

theorem isTruthy_field_false (fields : Fields) (key : String) :
    (field fields key (.bool false)).isTruthy = (given? fields key).any Json.isTruthy := by
  rw [field_eq]
  cases given? fields key <;> rfl

theorem isTruthy_field_true (fields : Fields) (key : String) :
    (field fields key (.bool true)).isTruthy = (given? fields key).all Json.isTruthy := by
  rw [field_eq]
  cases given? fields key <;> rfl

/-- A parameter is read as its entry says. -/
theorem parameterOf_eq_ok_iff {method entry : Json} {p : Parameter} :
    parameterOf method entry = .ok p ↔ ReadsParameter entry p := by
  cases entry with
  | str t => exact parameterOfText_eq_ok_iff
  | obj fields =>
      constructor
      · intro h
        rw [parameterOf] at h
        split at h
        · next type name htype hname =>
            dsimp only at h
            split at h
            · next kind hkind =>
                obtain ⟨hword, hknown⟩ := parameterKind?_eq_some_iff.1 hkind
                cases h
                rw [isTruthy_field_false]
                exact .object htype hname hword hknown
            · cases h
        · cases h
      · intro h
        cases h with
        | @object _ type name kind htype hname hword hknown =>
            have hkind := parameterKind?_eq_some_iff.2 ⟨hword, hknown⟩
            rw [given?] at htype hname
            rw [← field_eq] at hkind
            rw [parameterOf, htype, hname]
            simp only [hkind, isTruthy_field_false]
            rfl
  | _ => exact ⟨fun h => (by cases h), fun h => (by cases h)⟩

theorem exists_readsParameter_iff {entry : Json} :
    (∃ p, ReadsParameter entry p) ↔ WellFormedParameter entry := by
  constructor
  · rintro ⟨p, h⟩
    cases h with
    | text ht _ =>
        refine .text ?_
        rw [ht]
        exact List.mem_append_right _ List.mem_cons_self
    | @object _ _ _ kind htype hname hword hknown =>
        refine .object htype hname fun v hv => ⟨kind, hknown, ?_⟩
        rw [Option.mem_def.1 hv] at hword
        exact hword
  · intro h
    cases h with
    | text hspace =>
        obtain ⟨before, name, ht, hname⟩ := exists_last_space hspace
        exact ⟨_, .text ht hname⟩
    | @object fields type name htype hname hkind =>
        obtain ⟨kind, hknown, hword⟩ : ∃ k ∈ parameterKinds,
            (given? fields "kind").getD (.str "positional".toText) = .str k.toText := by
          cases hgiven : given? fields "kind" with
          | none => exact ⟨.positional, by decide, rfl⟩
          | some v => exact hkind v hgiven
        exact ⟨_, .object htype hname hword hknown⟩

/-! ## Fields of documented data -/

section Documented

variable {fields : Fields} {key : String} {value : Json}

/-- A name counts as given when it is a text that is not empty. -/
theorem isTruthy_field_iff (h : ∀ v ∈ given? fields key, IsTextOrNull v) :
    (field fields key .null).isTruthy = true ↔ GivesText fields key (field fields key .null) := by
  rw [field_eq]
  constructor
  · intro htruthy
    cases hgiven : given? fields key with
    | none =>
        rw [hgiven] at htruthy
        cases htruthy
    | some v =>
        rw [hgiven] at htruthy
        rcases h v hgiven with rfl | ⟨t, rfl⟩
        · cases htruthy
        · refine ⟨t, hgiven, ?_, rfl⟩
          rintro rfl
          cases htruthy
  · rintro ⟨t, hgiven, hne, -⟩
    rw [hgiven]
    simpa [Json.isTruthy] using hne

theorem GivesText.field_eq (h : GivesText fields key value) :
    field fields key .null = value ∧ value.isTruthy = true := by
  obtain ⟨t, hgiven, hne, rfl⟩ := h
  refine ⟨?_, by simpa [Json.isTruthy] using hne⟩
  rw [Declaration.field_eq, hgiven]
  rfl

theorem exists_givesText_iff : (∃ v, GivesText fields key v) ↔ HasText fields key := by
  constructor
  · rintro ⟨v, t, hgiven, hne, -⟩
    exact ⟨t, hgiven, hne⟩
  · rintro ⟨t, hgiven, hne⟩
    exact ⟨.str t, t, hgiven, hne, rfl⟩

theorem field_eq_arr (h : ∀ v ∈ given? fields key, IsArray v) :
    field fields key (.arr []) = .arr (listed fields key) := by
  rw [field_eq, listed]
  cases hgiven : given? fields key with
  | none => rfl
  | some v =>
      obtain ⟨items, rfl⟩ := h v hgiven
      rfl

/-- What is listed is walked. -/
theorem elementsOf_field (h : ∀ v ∈ given? fields key, IsArray v) :
    elementsOf (field fields key (.arr [])) = .ok (listed fields key) := by
  rw [field_eq_arr h]
  rfl

end Documented

/-! ## Methods -/

theorem typeParameters_eq (fields : Fields) :
    (if (field fields "typeParameters" .null).isTruthy then field fields "typeParameters" .null
      else .str []) = ((given? fields "typeParameters").filter Json.isTruthy).getD (.str []) := by
  rw [field_eq]
  cases given? fields "typeParameters" with
  | none => rfl
  | some v =>
      by_cases htruthy : v.isTruthy = true
      · simp [Option.filter, htruthy]
      · simp [Option.filter, htruthy]

/-- A method is read as its entry says. -/
theorem methodOf_eq_ok_iff {fields : Fields} (h : DocumentedMethod fields) {owner : Json}
    {m : Method} : methodOf owner (.obj fields) = .ok m ↔ ReadsMethod fields m := by
  have hparameters : ∀ ps, (listed fields "parameters").mapM
      (parameterOf (field fields "name" .null)) = .ok ps
        ↔ List.Forall₂ ReadsParameter (listed fields "parameters") ps :=
    fun ps => mapM_eq_ok_iff_of_mem fun _ _ _ => parameterOf_eq_ok_iff
  rw [methodOf]
  dsimp only
  rw [elementsOf_field h.parameters]
  constructor
  · intro hread
    split at hread
    · cases hread
    · next hgiven =>
        simp only [Bool.or_eq_true, Bool.not_eq_true', not_or, Bool.not_eq_false] at hgiven
        obtain ⟨items, hitems, hread⟩ := bind_eq_ok_iff.1 hread
        cases hitems
        obtain ⟨ps, hps, hread⟩ := bind_eq_ok_iff.1 hread
        cases hread
        exact
          { name := (isTruthy_field_iff h.name).1 hgiven.1
            returnType := (isTruthy_field_iff h.returnType).1 hgiven.2
            parameters := (hparameters ps).1 hps
            isAbstract := isTruthy_field_true fields "isAbstract"
            typeParameters := typeParameters_eq fields }
  · rintro ⟨hname, htype, hps, habstract, htypeParameters⟩
    obtain ⟨name, returnType, parameters, isAbstract, typeParameters⟩ := m
    obtain ⟨rfl, hnameTruthy⟩ := hname.field_eq
    obtain ⟨rfl, htypeTruthy⟩ := htype.field_eq
    simp only at habstract htypeParameters
    rw [habstract, htypeParameters, ← isTruthy_field_true, ← typeParameters_eq]
    simp only [hnameTruthy, htypeTruthy, Bool.not_true, Bool.or_self, Bool.false_eq_true, if_false]
    refine bind_eq_ok_iff.2 ⟨_, rfl, ?_⟩
    exact bind_eq_ok_iff.2 ⟨parameters, (hparameters parameters).2 hps, rfl⟩

theorem exists_readsMethod_iff {fields : Fields} :
    (∃ m, ReadsMethod fields m) ↔ WellFormedMethod fields := by
  have hparameters : (∃ ps, List.Forall₂ ReadsParameter (listed fields "parameters") ps)
      ↔ ∀ entry ∈ listed fields "parameters", WellFormedParameter entry := by
    rw [exists_forall₂_iff]
    exact forall₂_congr fun entry _ => exists_readsParameter_iff
  constructor
  · rintro ⟨m, h⟩
    exact ⟨exists_givesText_iff.1 ⟨_, h.name⟩, exists_givesText_iff.1 ⟨_, h.returnType⟩,
      hparameters.1 ⟨_, h.parameters⟩⟩
  · rintro ⟨hname, htype, hps⟩
    obtain ⟨name, hname⟩ := exists_givesText_iff.2 hname
    obtain ⟨returnType, htype⟩ := exists_givesText_iff.2 htype
    obtain ⟨ps, hps⟩ := hparameters.2 hps
    exact ⟨⟨name, returnType, ps, _, _⟩, hname, htype, hps, rfl, rfl⟩

/-- What is no object is no method. -/
theorem methodOf_eq_ok_iff_isObject {owner entry : Json}
    (h : ∀ fields, entry = .obj fields → DocumentedMethod fields) {m : Method} :
    methodOf owner entry = .ok m ↔ IsObject (ReadsMethod · m) entry := by
  cases entry with
  | obj fields =>
      rw [methodOf_eq_ok_iff (h fields rfl), isObject_obj_iff]
  | _ => exact ⟨fun h => (by cases h), fun ⟨_, heq, _⟩ => (by cases heq)⟩

/-! ## Classes -/

section Names

variable {items : List Json} {methods : List Method}

/-- The names of methods are those of their entries. -/
theorem map_entryName?
    (h : List.Forall₂ (fun entry m => IsObject (ReadsMethod · m) entry) items methods) :
    items.map entryName? = (methods.map (·.name)).map some := by
  induction h with
  | nil => rfl
  | @cons entry m _ _ hfirst _ ih =>
      obtain ⟨fields, rfl, hm⟩ := hfirst
      obtain ⟨t, hgiven, -, hname⟩ := hm.name
      have hentry : entryName? (.obj fields) = some m.name := by
        rw [hname]
        exact hgiven
      rw [List.map_cons, List.map_cons, List.map_cons, hentry, ih]

/-- They are texts. -/
theorem exists_names
    (h : List.Forall₂ (fun entry m => IsObject (ReadsMethod · m) entry) items methods) :
    ∃ names : List Text, methods.map (·.name) = names.map Json.str := by
  induction h with
  | nil => exact ⟨[], rfl⟩
  | cons hfirst _ ih =>
      obtain ⟨names, hnames⟩ := ih
      obtain ⟨fields, -, hm⟩ := hfirst
      obtain ⟨t, -, -, hname⟩ := hm.name
      exact ⟨t :: names, by rw [List.map_cons, hname, hnames, List.map_cons]⟩

theorem checkNames_methods_iff {owner : Json}
    (h : List.Forall₂ (fun entry m => IsObject (ReadsMethod · m) entry) items methods) :
    checkNames owner (methods.map (·.name)) = .ok () ↔ (methods.map (·.name)).Nodup := by
  obtain ⟨names, hnames⟩ := exists_names h
  have hinjective : Function.Injective Json.str := fun _ _ heq => Json.str.inj heq
  rw [hnames, checkNames_eq_ok_iff, List.nodup_map_iff hinjective]

theorem nodup_entryNames_iff
    (h : List.Forall₂ (fun entry m => IsObject (ReadsMethod · m) entry) items methods) :
    (items.map entryName?).Nodup ↔ (methods.map (·.name)).Nodup := by
  have hinjective : Function.Injective (@some Json) := fun _ _ heq => Option.some.inj heq
  rw [map_entryName? h, List.nodup_map_iff hinjective]

end Names

theorem envelopeOf_eq_ok_iff {owner : Json} {fields : Fields} {e : Option Envelope} :
    envelopeOf owner (field fields "annotation" .null) = .ok e
      ↔ ReadsMarker (given? fields "annotation") e := by
  rw [field_eq]
  constructor
  · intro h
    cases hgiven : given? fields "annotation" with
    | none =>
        rw [hgiven] at h
        cases h
        exact .absent
    | some v =>
        rw [hgiven] at h
        cases v with
        | null =>
            cases h
            exact .null
        | obj record =>
            cases h
            exact .record record
        | _ => cases h
  · intro h
    generalize given? fields "annotation" = v at h
    cases h <;> rfl

theorem exists_readsMarker_iff {v : Option Json} :
    (∃ e, ReadsMarker v e) ↔ ∀ x ∈ v, x = .null ∨ ∃ record, x = .obj record := by
  constructor
  · rintro ⟨e, h⟩ x hx
    cases h with
    | absent => cases hx
    | null =>
        cases hx
        exact .inl rfl
    | record record =>
        cases hx
        exact .inr ⟨record, rfl⟩
  · intro h
    cases v with
    | none => exact ⟨none, .absent⟩
    | some x =>
        rcases h x rfl with rfl | ⟨record, rfl⟩
        · exact ⟨none, .null⟩
        · exact ⟨_, .record record⟩

/-- A class is read as its entry says. -/
theorem classOf_eq_ok_iff {fields : Fields} (h : DocumentedClass fields) {sourceFile : Json}
    {d : Declaration} :
    classOf sourceFile (.obj fields) = .ok d ↔ ReadsClass sourceFile fields d := by
  have hmethods : ∀ methods, (listed fields "methods").mapM
      (methodOf (field fields "name" .null)) = .ok methods
        ↔ List.Forall₂ (fun entry m => IsObject (ReadsMethod · m) entry)
          (listed fields "methods") methods := by
    intro methods
    refine mapM_eq_ok_iff_of_mem fun entry hentry m => methodOf_eq_ok_iff_isObject ?_
    rintro method rfl
    exact h.method method hentry
  rw [classOf, elementsOf_field h.methods]
  constructor
  · intro hread
    split at hread
    · cases hread
    · next hgiven =>
        simp only [Bool.not_eq_true', Bool.not_eq_false] at hgiven
        obtain ⟨items, hitems, hread⟩ := bind_eq_ok_iff.1 hread
        cases hitems
        -- the methods, their names and the annotation come one after the other
        obtain ⟨methods, hlist, hread⟩ := bind_eq_ok_iff.1 hread
        obtain ⟨⟨⟩, hnames, hread⟩ := bind_eq_ok_iff.1 hread
        obtain ⟨envelope, henvelope, hread⟩ := bind_eq_ok_iff.1 hread
        cases hread
        have hlist := (hmethods methods).1 hlist
        exact
          { name := (isTruthy_field_iff h.name).1 hgiven
            kind := rfl
            methods := hlist
            names := (checkNames_methods_iff hlist).1 hnames
            marker := envelopeOf_eq_ok_iff.1 henvelope
            isAbstract := isTruthy_field_true fields "isAbstract"
            sourceFile := rfl }
  · rintro ⟨hname, hkind, hlist, hnames, hmarker, habstract, hsource⟩
    obtain ⟨name, kind, methods, envelope, isAbstract, file⟩ := d
    obtain ⟨rfl, hnameTruthy⟩ := hname.field_eq
    simp only at hkind habstract hsource
    rw [hkind, habstract, hsource, ← isTruthy_field_true, ← field_eq]
    simp only [hnameTruthy, Bool.not_true, Bool.false_eq_true, if_false]
    refine bind_eq_ok_iff.2 ⟨_, rfl, bind_eq_ok_iff.2 ⟨methods, (hmethods methods).2 hlist, ?_⟩⟩
    refine bind_eq_ok_iff.2 ⟨(), (checkNames_methods_iff hlist).2 hnames, ?_⟩
    exact bind_eq_ok_iff.2 ⟨envelope, envelopeOf_eq_ok_iff.2 hmarker, rfl⟩

theorem exists_readsClass_iff (sourceFile : Json) {fields : Fields} :
    (∃ d, ReadsClass sourceFile fields d) ↔ WellFormedClass fields := by
  have hmethods : (∃ methods, List.Forall₂ (fun entry m => IsObject (ReadsMethod · m) entry)
      (listed fields "methods") methods)
        ↔ ∀ entry ∈ listed fields "methods", IsObject WellFormedMethod entry := by
    rw [exists_forall₂_iff]
    exact forall₂_congr fun entry _ => exists_isObject_iff fun method => exists_readsMethod_iff
  constructor
  · rintro ⟨d, hd⟩
    exact
      { name := exists_givesText_iff.1 ⟨_, hd.name⟩
        methods := hmethods.1 ⟨_, hd.methods⟩
        names := (nodup_entryNames_iff hd.methods).2 hd.names
        marker := exists_readsMarker_iff.1 ⟨_, hd.marker⟩ }
  · rintro ⟨hname, hlist, hnames, hmarker⟩
    obtain ⟨name, hname⟩ := exists_givesText_iff.2 hname
    obtain ⟨methods, hlist⟩ := hmethods.2 hlist
    obtain ⟨envelope, hmarker⟩ := exists_readsMarker_iff.2 hmarker
    exact ⟨⟨name, _, methods, envelope, _, sourceFile⟩, hname, rfl, hlist,
      (nodup_entryNames_iff hlist).1 hnames, hmarker, rfl, rfl⟩

/-- What is no object is no class. -/
theorem classOf_eq_ok_iff_isObject {sourceFile entry : Json}
    (h : ∀ fields, entry = .obj fields → DocumentedClass fields) {d : Declaration} :
    classOf sourceFile entry = .ok d ↔ IsObject (ReadsClass sourceFile · d) entry := by
  cases entry with
  | obj fields =>
      rw [classOf_eq_ok_iff (h fields rfl), isObject_obj_iff]
  | _ => exact ⟨fun h => (by cases h), fun ⟨_, heq, _⟩ => (by cases heq)⟩

/-! ## Data -/

theorem classEntries_eq_ok_iff {data : Json} {entries : List Json} :
    classEntries data = .ok entries ↔ HoldsClasses data entries := by
  constructor
  · intro h
    cases data with
    | arr items =>
        cases h
        exact .list
    | obj fields =>
        rw [classEntries, field_eq] at h
        cases hgiven : given? fields "classes" with
        | none =>
            rw [hgiven] at h
            cases h
        | some v =>
            rw [hgiven] at h
            cases v with
            | arr items =>
                cases h
                exact .object hgiven
            | _ => cases h
    | _ => cases h
  · intro h
    cases h with
    | list => rfl
    | object hgiven =>
        rw [classEntries, field_eq, hgiven]
        rfl

theorem ofData_eq_ok_iff {data : Json} (h : Documented data) {sourceFile : Json}
    {ds : List Declaration} :
    ofData data sourceFile = .ok ds ↔ ∃ entries, HoldsClasses data entries
      ∧ List.Forall₂ (fun entry d => IsObject (ReadsClass sourceFile · d) entry) entries ds := by
  rw [ofData, bind_eq_ok_iff]
  refine exists_congr fun entries => ?_
  rw [classEntries_eq_ok_iff]
  refine and_congr_right fun hentries => ?_
  refine mapM_eq_ok_iff_of_mem fun entry hentry d => classOf_eq_ok_iff_isObject ?_
  rintro fields rfl
  exact h entries hentries fields hentry

theorem exists_ofData_iff {data : Json} (h : Documented data) (sourceFile : Json) :
    (∃ ds, ofData data sourceFile = .ok ds) ↔ WellFormed data := by
  simp only [ofData_eq_ok_iff h]
  rw [exists_comm]
  refine exists_congr fun entries => ?_
  rw [exists_and_left, exists_forall₂_iff]
  refine and_congr_right fun _ => forall₂_congr fun entry _ => ?_
  exact exists_isObject_iff fun fields => exists_readsClass_iff sourceFile

/-! ## Errors -/

theorem DocumentedMethod.not_mistyped {fields : Fields} (h : DocumentedMethod fields) :
    ¬ MistypedMethod (.obj fields) := by
  intro hmistyped
  cases hmistyped with
  | parameters _ _ hscalar =>
      rw [field_eq_arr h.parameters] at hscalar
      cases hscalar

theorem DocumentedClass.not_mistyped {fields : Fields} (h : DocumentedClass fields) :
    ¬ MistypedClass (.obj fields) := by
  have hdocumented : ∀ entry ∈ listed fields "methods", ∀ method, entry = .obj method →
      DocumentedMethod method := by
    rintro entry hentry method rfl
    exact h.method method hentry
  intro hmistyped
  cases hmistyped with
  | methods _ hscalar =>
      rw [field_eq_arr h.methods] at hscalar
      cases hscalar
  | method _ hitems hfirst =>
      rw [elementsOf_field h.methods] at hitems
      cases hitems
      obtain ⟨before, entry, after, hlist, -, hmethod⟩ := hfirst
      obtain ⟨method, rfl⟩ : ∃ method, entry = .obj method := by
        cases hmethod with
        | parameters => exact ⟨_, rfl⟩
      have hentry : Json.obj method ∈ listed fields "methods" := by
        rw [hlist]
        exact List.mem_append_right _ List.mem_cons_self
      exact (hdocumented _ hentry method rfl).not_mistyped hmethod
  | names _ hitems hread hnames =>
      rw [elementsOf_field h.methods] at hitems
      cases hitems
      -- the names are texts, and those can be put in order
      have hmethods := (mapM_eq_ok_iff_of_mem fun entry hentry m =>
        methodOf_eq_ok_iff_isObject (hdocumented entry hentry)).1 hread
      obtain ⟨names, htexts⟩ := exists_names hmethods
      obtain ⟨name, hname, htext, -⟩ := hnames
      rw [htexts] at hname
      obtain ⟨t, -, rfl⟩ := List.mem_map.1 hname
      cases htext

/-- Documented data is refused with errors about declarations only. -/
theorem ofData_failsWith_of_documented {data : Json} (h : Documented data) (sourceFile : Json) :
    FailsWith IsDeclarationError (ofData data sourceFile) := by
  intro f hf
  refine (ofData_failsWith data sourceFile f hf).resolve_left ?_
  rintro rfl
  obtain ⟨entries, hentries, before, entry, after, hlist, -, hmistyped⟩ :=
    (ofData_eq_error_iff data sourceFile).1 hf
  obtain ⟨fields, rfl⟩ : ∃ fields, entry = .obj fields := by
    cases hmistyped <;> exact ⟨_, rfl⟩
  have hentry : Json.obj fields ∈ entries := by
    rw [hlist]
    exact List.mem_append_right _ List.mem_cons_self
  exact (h entries (classEntries_eq_ok_iff.1 hentries) fields hentry).not_mistyped hmistyped

/-- **What the loader accepts.** Documented data is loaded exactly when it is well-formed, and
refused with an error about declarations when it is not. What is loaded is one declaration for each
class entry, with one method for each method entry and one parameter for each parameter entry, in
order, and all their fields are those of the entries or their defaults. -/
theorem load_documented {data : Json} (h : Documented data) (sourceFile : Json) :
    ((∃ ds, (load data sourceFile).result = .ok ds) ↔ WellFormed data)
      ∧ (¬ WellFormed data →
        ∃ f, (load data sourceFile).result = .error f ∧ IsDeclarationError f)
      ∧ ∀ ds, (load data sourceFile).result = .ok ds ↔ ∃ entries, HoldsClasses data entries
        ∧ List.Forall₂ (fun entry d => IsObject (ReadsClass sourceFile · d) entry) entries ds := by
  rw [result_load]
  refine ⟨exists_ofData_iff h sourceFile, fun hmalformed => ?_, fun ds => ofData_eq_ok_iff h⟩
  cases hread : ofData data sourceFile with
  | error f => exact ⟨f, rfl, ofData_failsWith_of_documented h sourceFile f hread⟩
  | ok ds => exact absurd ((exists_ofData_iff h sourceFile).1 ⟨ds, hread⟩) hmalformed

/-- A method with a parameter in each of the two forms. -/
def loadMethod : Fields :=
  [("name".toText, .str "load".toText), ("returnType".toText, .str "Task".toText),
    ("parameters".toText, .arr [.str " Map<String, dynamic>  json ".toText, .obj
      [("name".toText, .int 1), ("type".toText, .null), ("kind".toText, .str "named".toText)]])]

def logMethod : Fields :=
  [("name".toText, .str "log".toText), ("returnType".toText, .str "void".toText)]

/-- A class with these methods, and null in place of an annotation. -/
def loadingClass : Fields :=
  [("annotation".toText, .null), ("name".toText, .str "TaskApi".toText),
    ("methods".toText, .arr [.obj loadMethod, .obj logMethod])]

def loadingData : Json :=
  .obj [("classes".toText, .arr [.obj loadingClass])]

theorem documented_loadingData : Documented loadingData := by
  have hfield : ∀ {fields key v w}, given? fields key = some w → v ∈ given? fields key → v = w := by
    intro fields key v w hw hv
    rw [hw] at hv
    exact (Option.some.inj hv).symm
  have hmethod : DocumentedMethod loadMethod :=
    ⟨fun v hv => .inr ⟨_, hfield rfl hv⟩, fun v hv => .inr ⟨_, hfield rfl hv⟩,
      fun v hv => ⟨_, hfield rfl hv⟩⟩
  have hlog : DocumentedMethod logMethod :=
    ⟨fun v hv => .inr ⟨_, hfield rfl hv⟩, fun v hv => .inr ⟨_, hfield rfl hv⟩, nofun⟩
  have hclass : DocumentedClass loadingClass := by
    refine ⟨fun v hv => .inr ⟨_, hfield rfl hv⟩, fun v hv => ⟨_, hfield rfl hv⟩, ?_⟩
    intro method hmem
    rcases List.mem_cons.1 hmem with heq | hmem
    · cases heq
      exact hmethod
    · cases List.mem_singleton.1 hmem
      exact hlog
  intro entries hentries fields hmem
  cases hentries with
  | object hgiven =>
      cases hgiven
      cases List.mem_singleton.1 hmem
      exact hclass

def loadedMethods : List Method :=
  [{ name := .str "load".toText
     returnType := .str "Task".toText
     parameters :=
      [{ typeText := .str "Map<String, dynamic>".toText, name := .str "json".toText },
        { typeText := .null, name := .int 1, kind := .named }] },
    { name := .str "log".toText, returnType := .str "void".toText }]

/-- The words of a text are kept apart, and in an object anything may be a type or a name. -/
theorem load_documented_loadingData :
    let taskApi : Declaration := { name := .str "TaskApi".toText, methods := loadedMethods }
    Documented loadingData ∧ WellFormed loadingData
      ∧ (load loadingData .null).result = .ok [taskApi] := by
  intro taskApi
  have hspace : trim " Map<String, dynamic>  json ".toText
      = "Map<String, dynamic> ".toText ++ .ofChar ' ' :: "json".toText := by decide +kernel
  have htype : trim "Map<String, dynamic> ".toText = "Map<String, dynamic>".toText := by
    decide +kernel
  have htext := ReadsParameter.text hspace (by decide)
  rw [htype] at htext
  have hmethods : List.Forall₂ (fun entry m => IsObject (ReadsMethod · m) entry)
      [.obj loadMethod, .obj logMethod] loadedMethods := by
    refine .cons ⟨loadMethod, rfl, ?_⟩ (.cons ⟨logMethod, rfl, ?_⟩ .nil)
    · exact ⟨⟨_, rfl, by decide, rfl⟩, ⟨_, rfl, by decide, rfl⟩,
        .cons htext (.cons (.object rfl rfl rfl (by decide)) .nil), rfl, rfl⟩
    · exact ⟨⟨_, rfl, by decide, rfl⟩, ⟨_, rfl, by decide, rfl⟩, .nil, rfl, rfl⟩
  have hnames : (loadedMethods.map (·.name)).Nodup := by simp [loadedMethods]
  have hclass : ReadsClass .null loadingClass taskApi :=
    ⟨⟨_, rfl, by decide, rfl⟩, rfl, hmethods, hnames, .null, rfl, rfl⟩
  obtain ⟨haccepts, -, hreads⟩ := load_documented documented_loadingData .null
  have hload := (hreads [taskApi]).2 ⟨_, .object rfl, .cons ⟨_, rfl, hclass⟩ .nil⟩
  exact ⟨documented_loadingData, haccepts.1 ⟨_, hload⟩, hload⟩

end Declaration

end DartDecoders
