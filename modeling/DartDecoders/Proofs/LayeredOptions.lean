/-
Options after any number of layers.

Two layers one behind the other update the options like one whose values are those of the second,
and of the first where the second has none (`updated_updated`). So over a run of layers the last
value that is given stays: that is `LastGiven`, with one law for a layer in front that fails, which
gives nothing, and one for a layer that does not, and `after_lastGiven` is the induction over them.
The options of a command line are such a run: the arguments over the options file, and both over
the standard options (`resolveOptions_eq_after`).
-/
import DartDecoders.Proofs.OptionLayers

set_option autoImplicit false

namespace DartDecoders

/-- The last value that the layers of a list which do not fail give an option, if there is one. -/
def LastGiven (layers : List Layer) (name : OptionName) : Option Json → Prop
  | some value => ∃ before l after, layers = before ++ l :: after ∧ ¬ l.Fails
      ∧ l.value? name = some value ∧ ∀ later ∈ after, ¬ later.Fails → later.value? name = none
  | none => ∀ l ∈ layers, ¬ l.Fails → l.value? name = none

section LastGiven

variable {layers : List Layer} {l : Layer} {name : OptionName} {given : Option Json}

theorem LastGiven.cons {value : Json} (h : LastGiven layers name (some value)) (l : Layer) :
    LastGiven (l :: layers) name (some value) := by
  obtain ⟨before, last, after, rfl, hlast⟩ := h
  exact ⟨l :: before, last, after, rfl, hlast⟩

/-- A layer that fails gives nothing. -/
theorem LastGiven.cons_of_fails (h : LastGiven layers name given) (hl : l.Fails) :
    LastGiven (l :: layers) name given := by
  cases given with
  | none => exact List.forall_mem_cons.2 ⟨fun hnot => absurd hl hnot, h⟩
  | some value => exact h.cons l

/-- What a layer gives stays when no later one gives a value. -/
theorem LastGiven.cons_of_not_fails (h : LastGiven layers name given) (hl : ¬ l.Fails) :
    LastGiven (l :: layers) name (given.or (l.value? name)) := by
  cases given with
  | some value => exact h.cons l
  | none =>
      rw [Option.none_or]
      cases hvalue : l.value? name with
      | none => exact List.forall_mem_cons.2 ⟨fun _ => hvalue, h⟩
      | some value => exact ⟨[], l, layers, rfl, hl, hvalue, h⟩

/-- What is given for the primitive types is a set of names. -/
theorem LastGiven.isSetOf_typeNames {value : Json}
    (h : LastGiven layers .primitiveNames (some value)) :
    ∃ members, Options.membersOf value = .ok members
      ∧ Json.IsSetOf members (Options.typeNames value) := by
  obtain ⟨before, l, after, -, hl, hvalue, -⟩ := h
  cases hmembers : Options.membersOf value with
  | error f =>
      have hbad := (Options.membersOf_eq_error_iff (l.value?_ne_null hvalue)).1 hmembers
      exact absurd (.typeNames hvalue hbad.2) hl
  | ok members =>
      rw [Options.typeNames, hmembers]
      exact ⟨members, rfl, Json.isSetOf_distinct members⟩

end LastGiven

namespace Options

/-- The options after layers, one over the other. -/
def after (layers : List Layer) (o : Options) : Options :=
  layers.foldl (fun o l => l.apply o) o

/-- Layers update the options by the last values they give. The induction is on the layers, whatever
the options are before them. -/
theorem exists_after_eq_updated (layers : List Layer) (o : Options) :
    ∃ given, (∀ name, LastGiven layers name (given name)) ∧ after layers o = o.updated given := by
  induction layers generalizing o with
  | nil => exact ⟨fun _ => none, by simp [LastGiven], rfl⟩
  | cons l rest ih =>
      obtain ⟨given, hgiven, hafter⟩ := ih (l.apply o)
      rw [after, List.foldl_cons]
      by_cases hl : l.Fails
      · rw [l.apply_of_fails hl] at hafter ⊢
        exact ⟨given, fun name => (hgiven name).cons_of_fails hl, hafter⟩
      · rw [l.apply_of_not_fails hl, updated_updated] at hafter
        rw [l.apply_of_not_fails hl]
        exact ⟨_, fun name => (hgiven name).cons_of_not_fails hl, hafter⟩

/-- **The last value that is given stays.** After any layers over the standard options each option
has the last value that a layer which did not fail gives it, the primitive types as a set, and its
standard value when there is none. Over all options a layer either fails, for one of the reasons of
`Layer.Fails`, or updates them by the values it gives and by nothing else. Either way it warns of
each unknown key of its file, in their order and once. -/
theorem after_lastGiven (layers : List Layer) :
    (∃ given, (∀ name, LastGiven layers name (given name))
        ∧ after layers standard = standard.updated given
        ∧ ∀ value ∈ given .primitiveNames, ∃ members, membersOf value = .ok members
            ∧ Json.IsSetOf members (after layers standard).primitiveNames)
      ∧ ∀ (l : Layer) (o : Options),
        (l.Fails ∧ (∃ f, (l.report o).result = .error f)
            ∨ ¬ l.Fails ∧ (l.report o).result = .ok (o.updated l.value?))
          ∧ LogRecord.messagesFrom .warning (l.report o).log = l.warnings
          ∧ l.unknownKeys.Nodup := by
  refine ⟨?_, fun l o => ⟨l.fails_or_updates o, l.messagesFrom_report o, l.nodup_unknownKeys⟩⟩
  obtain ⟨given, hgiven, hafter⟩ := exists_after_eq_updated layers standard
  refine ⟨given, hgiven, hafter, fun value hvalue => ?_⟩
  have hnames : given .primitiveNames = some value := hvalue
  have hlast := hgiven .primitiveNames
  rw [hnames] at hlast
  rw [hafter, updated, hnames]
  exact hlast.isSetOf_typeNames

/-- A null value, an unknown name and a layer that fails leave a prefix that was given before. -/
example : (after [
    .named ⟨[("impl_prefix".toText, .str "Q".toText)], by decide⟩,
    .named ⟨[("impl_prefix".toText, .null), ("colour".toText, .str "red".toText)], by decide⟩,
    .named ⟨[("impl_prefix".toText, .str "X".toText), ("primitive_names".toText, .int 5)],
      by decide⟩] standard).implPrefix = .str "Q".toText :=
  rfl

/-- A layer that gives the options themselves a value. -/
def ownNamed : Layer :=
  .named ⟨[(ownName, .str "x".toText)], by decide⟩

/-- Such a layer fails, though it is read and gives the primitive types no value. -/
theorem ownNamed_fails :
    (∃ f, (ownNamed.report standard).result = .error f) ∧ ownNamed.entries? ≠ none
      ∧ ownNamed.value? .primitiveNames = none :=
  ⟨⟨.wrongKind, rfl⟩, by simp [ownNamed, Layer.entries?], rfl⟩

end Options

/-! ## The layers of a run -/

namespace CommandLine

/-- The layer of the arguments of a run. -/
def argumentLayer (settings : Settings) : Layer :=
  .named ⟨[("impl_prefix".toText, settings.implPrefix),
    ("primitive_handling".toText, if settings.noPrimitives then .bool false else .null)],
    (by decide : ["impl_prefix".toText, "primitive_handling".toText].Nodup)⟩

/-- The layers of a run: the options file, when one is named, then the arguments. -/
def layers (settings : Settings) (machine : Machine) (tree : FileTree) : List Layer :=
  ((settings.optionsFile.filter fun file => !file.isEmpty).map
    (Layer.file machine.stack tree)).toList
    ++ [argumentLayer settings]

/-- The arguments go over the options file, and both go over the standard options. -/
theorem resolveOptions_eq_after {settings : Settings} {machine : Machine} {tree : FileTree}
    (h : ∀ l ∈ layers settings machine tree, ¬ l.Fails) :
    (resolveOptions settings machine tree).result
      = .ok (Options.after (layers settings machine tree) .standard) := by
  have harguments : ∀ o, ((argumentLayer settings).report o).result
      = .ok ((argumentLayer settings).apply o) :=
    Layer.result_eq_apply (h _ (List.mem_append_right _ (List.mem_singleton_self _)))
  cases hnamed : settings.optionsFile.filter fun file : Chars => !file.isEmpty with
  | none =>
      rw [layers, hnamed]
      simp only [resolveOptions, hnamed, Report.result_bind]
      exact harguments .standard
  | some file =>
      have hfile := Layer.result_eq_apply
        (h (.file machine.stack tree file) (by simp [layers, hnamed])) .standard
      rw [layers, hnamed]
      simp only [resolveOptions, hnamed, Report.result_bind]
      rw [show (Loading.options machine.stack tree file .standard).result = _ from hfile]
      exact harguments _

end CommandLine

end DartDecoders
