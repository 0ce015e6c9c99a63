/-
How runs end.

A run whose arguments can be read ends with the code for success or the one for failure, unless a
fault strays from it: only reported errors are handled, and the readers of files end with others as
well. Each reader has one law for its stray faults: the content of a file
(`decodeContent_eq_error_iff`), a document (`parseContent_eq_error_iff`), the options
(`resolveOptions_stray_iff`), declarations (`input_stray_iff`) and an input as a whole
(`verdict_eq_stray_iff`). The formatter adds none, whatever the formatting program does. So when a
run ends with a fault, and with which one, is known from its files, and likewise when it ends with
either code (`run_ending`).
-/
import DartDecoders.Proofs.DocumentFaults
import DartDecoders.Proofs.Libraries
import DartDecoders.Proofs.ScanFaults
import DartDecoders.Proofs.Turns

set_option autoImplicit false

namespace DartDecoders

/-! ## Contents -/

namespace Loading

variable {stack : Stack} {path : Chars} {content : Except SystemCause ByteArray} {f : Fault}

/-- A file whose text is not known for a reason that is not reported. -/
inductive StrayText (path : Chars) (content : Except SystemCause ByteArray) : Fault → Prop
  /-- No file has a path with the null character. -/
  | null : Chars.hasNull path = true → StrayText path content .nullInPath
  /-- The bytes are no text. -/
  | bytes {read : ByteArray} : Chars.hasNull path = false → content = .ok read →
    String.fromUTF8? read = none → StrayText path content .undecodable

theorem decodeContent_eq_error_iff :
    decodeContent path content = .error f ↔ StrayText path content f := by
  constructor
  · intro h
    unfold decodeContent at h
    split at h
    · next hnull =>
        cases h
        exact .null hnull
    · next hnull =>
        split at h
        · cases h
        · next read =>
            unfold FileTree.decode at h
            split at h
            · cases h
            · next hread =>
                cases h
                exact .bytes (by simpa using hnull) rfl hread
  · rintro (hnull | ⟨hnull, rfl, hread⟩)
    · exact if_pos hnull
    · simp [decodeContent, hnull, FileTree.decode, hread, Except.map]

theorem StrayText.isStray (h : StrayText path content f) : IsStray f := by
  rintro e rfl
  cases h

/-- The flaws of a document that go beyond the bounds of its reader are faults of their own. -/
def strayFlaw? : Json.Flaw → Option Fault
  | .numberTooLong figures => some (.numberTooLong figures)
  | .nestedTooDeep => some .nestedTooDeep
  | _ => none

/-- A file whose document is not known for a reason that is not reported. -/
inductive StrayDocument (stack : Stack) (path : Chars) (content : Except SystemCause ByteArray) :
    Fault → Prop
  | text {f : Fault} : StrayText path content f → StrayDocument stack path content f
  | flaw {t : Text} {e : Json.DocumentError} {f : Fault} :
    decodeContent path content = .ok (.ok t) → Json.parse stack.holdsNested t = .error e →
    strayFlaw? e.flaw = some f → StrayDocument stack path content f

theorem parseContent_of_flaw {t : Text} {e : Json.DocumentError}
    (hopened : decodeContent path content = .ok (.ok t))
    (hparse : Json.parse stack.holdsNested t = .error e) :
    parseContent stack path content
      = (strayFlaw? e.flaw).elim (.ok (.error (.malformed e))) .error := by
  rw [parseContent, hopened]
  simp only [bind, Except.bind, hparse]
  cases e.flaw <;> rfl

theorem parseContent_eq_error_iff :
    parseContent stack path content = .error f ↔ StrayDocument stack path content f := by
  constructor
  · intro h
    have hfault := h
    rw [parseContent, bind_eq_error_or_iff, decodeContent_eq_error_iff] at hfault
    rcases hfault with hfault | ⟨opened, hopened, hfault⟩
    · exact .text hfault
    · split at hfault
      · cases hfault
      · next t =>
          split at hfault
          · cases hfault
          · next e hparse =>
              rw [parseContent_of_flaw hopened hparse] at h
              cases hflaw : strayFlaw? e.flaw with
              | none =>
                  rw [hflaw] at h
                  cases h
              | some g =>
                  rw [hflaw] at h
                  cases h
                  exact .flaw hopened hparse hflaw
  · rintro (h | ⟨hopened, hparse, hflaw⟩)
    · exact bind_eq_error_or_iff.2 (.inl (decodeContent_eq_error_iff.2 h))
    · rw [parseContent_of_flaw hopened hparse, hflaw]
      rfl

theorem StrayDocument.isStray (h : StrayDocument stack path content f) : IsStray f := by
  rintro e rfl
  rcases h with h | ⟨-, -, hflaw⟩
  · exact h.isStray e rfl
  · unfold strayFlaw? at hflaw
    split at hflaw <;> cases hflaw

end Loading

/-! ## Options -/

namespace Options

/-- The values that are no set of type names: those that cannot be walked, and arrays that hold an
array or an object. -/
inductive NoTypeNames : Json → Prop
  | scalar {value : Json} : value.isScalar = true → value ≠ .null → NoTypeNames value
  | nested {items : List Json} {item : Json} : item ∈ items → item.isScalar = false →
    item.isText = false → NoTypeNames (.arr items)

theorem membersOf_eq_error_iff {value : Json} (h : value ≠ .null) {f : Fault} :
    membersOf value = .error f ↔ f = .wrongKind ∧ NoTypeNames value := by
  constructor
  · intro hfault
    unfold membersOf at hfault
    split at hfault
    · cases hfault
    · cases hfault
    · split at hfault
      · next hany =>
          cases hfault
          obtain ⟨item, hitem, hkind⟩ := List.any_eq_true.1 hany
          refine ⟨rfl, .nested hitem ?_ ?_⟩
          · cases item <;> first | rfl | cases hkind
          · cases item <;> first | rfl | cases hkind
      · cases hfault
    · cases hfault
      refine ⟨rfl, .scalar ?_ h⟩
      cases value <;> first | rfl | simp_all
  · rintro ⟨rfl, hvalue | @⟨items, item, hitem, hscalar, htext⟩⟩
    · cases value <;> first | rfl | simp_all [Json.isScalar]
    · apply if_pos
      refine List.any_eq_true.2 ⟨_, hitem, ?_⟩
      cases item with
      | arr _ => rfl
      | obj _ => rfl
      | str _ => simp [Json.isText] at htext
      | _ => simp [Json.isScalar] at hscalar

theorem setGiven_eq_error_iff {o : Options} {name : OptionName} {value : Json} {f : Fault} :
    o.setGiven name value = .error f
      ↔ f = .wrongKind ∧ name = .primitiveNames ∧ NoTypeNames value := by
  unfold setGiven
  split
  · constructor
    · intro h
      cases h
    · rintro ⟨-, -, hvalue⟩
      cases hvalue with
      | scalar _ hne => exact absurd rfl hne
  · next hne =>
      unfold set
      split
      all_goals try simp
      rw [← membersOf_eq_error_iff hne]
      exact map_eq_error_iff

/-- A layer of values fails exactly when one of them is given for the primitive types and is no set
of type names. The induction is on the values, whatever the options are before them. -/
theorem overlay_eq_error_iff (o : Options) (values : List (OptionName × Json)) (f : Fault) :
    o.overlay values = .error f
      ↔ f = .wrongKind ∧ ∃ value, (OptionName.primitiveNames, value) ∈ values
        ∧ NoTypeNames value := by
  unfold overlay
  induction values generalizing o with
  | nil => simp [pure, Except.pure]
  | cons first rest ih =>
      obtain ⟨name, given⟩ := first
      rw [List.foldlM_cons, bind_eq_error_or_iff, setGiven_eq_error_iff]
      constructor
      · rintro (⟨rfl, rfl, hgiven⟩ | ⟨new, -, hrest⟩)
        · exact ⟨rfl, given, List.mem_cons_self, hgiven⟩
        · obtain ⟨rfl, value, hvalue, hbad⟩ := (ih new).1 hrest
          exact ⟨rfl, value, List.mem_cons_of_mem _ hvalue, hbad⟩
      · rintro ⟨rfl, value, hvalue, hbad⟩
        cases hfirst : o.setGiven name given with
        | error f => exact .inl ⟨rfl, (setGiven_eq_error_iff.1 hfirst).2⟩
        | ok new =>
            refine .inr ⟨new, rfl, (ih new).2 ⟨rfl, value, ?_, hbad⟩⟩
            rcases List.mem_cons.1 hvalue with heq | hvalue
            · cases heq
              rw [setGiven_eq_error_iff.2 ⟨rfl, rfl, hbad⟩] at hfirst
              cases hfirst
            · exact hvalue

theorem ofFileKey?_eq_primitiveNames_iff {key : Text} :
    OptionName.ofFileKey? key = some .primitiveNames ↔ key = "primitiveTypes".toText := by
  constructor
  · intro h
    unfold OptionName.ofFileKey? at h
    split at h
    · cases h
    · split at h
      · cases h
      · split at h
        · next hkey => exact eq_of_beq hkey
        · split at h
          · cases h
          · split at h <;> cases h
  · rintro rfl
    rfl

end Options

namespace CommandLine

variable {settings : Settings} {machine : Machine} {tree : FileTree} {f : Fault}

/-- An options file with a fault that is not reported. -/
inductive StrayOptions (settings : Settings) (machine : Machine) (tree : FileTree) : Fault → Prop
  | document {file : Chars} {f : Fault} : settings.optionsFile = some file → file ≠ [] →
    Loading.StrayDocument machine.stack file (tree.readNamed file) f →
    StrayOptions settings machine tree f
  | typeNames {file : Chars} {entries : List (Text × Json)} {value : Json} :
    settings.optionsFile = some file → file ≠ [] →
    Loading.parseContent machine.stack file (tree.readNamed file) = .ok (.ok (.obj entries)) →
    ("primitiveTypes".toText, value) ∈ entries → Options.NoTypeNames value →
    StrayOptions settings machine tree .wrongKind

theorem StrayOptions.isStray (h : StrayOptions settings machine tree f) : IsStray f := by
  rcases h with ⟨-, -, h⟩ | _
  · exact h.isStray
  · exact nofun

theorem withFile_eq_error_iff (hf : IsStray f) (o : Options) (path : Chars)
    (document : Except LoadError Json) :
    (o.withFile path document).result = .error f
      ↔ f = .wrongKind ∧ ∃ entries value, document = .ok (.obj entries)
        ∧ ("primitiveTypes".toText, value) ∈ entries ∧ Options.NoTypeNames value := by
  unfold Options.withFile
  split
  · simp [(hf _).symm]
  · next entries =>
      simp only [Report.result_bind, Report.result_notes, Report.result_note, Report.result_lift,
        Except.bind, Options.overlay_eq_error_iff, List.mem_filterMap, Option.map_eq_some_iff,
        Prod.mk.injEq, Except.ok.injEq, Json.obj.injEq, exists_and_left, exists_eq_left']
      apply and_congr_right
      rintro rfl
      apply exists_congr
      intro value
      apply and_congr_left
      intro _
      constructor
      · rintro ⟨⟨key, given⟩, hentry, name, hname, rfl, rfl⟩
        rwa [← Options.ofFileKey?_eq_primitiveNames_iff.1 hname]
      · intro hentry
        exact ⟨_, hentry, _, Options.ofFileKey?_eq_primitiveNames_iff.2 rfl, rfl, rfl⟩
  · next hobject =>
      constructor
      · intro h
        cases h
        exact absurd rfl (hf _)
      · rintro ⟨-, entries, value, hdocument, -⟩
        cases hdocument
        exact absurd rfl (hobject entries)

theorem options_stray_iff (hf : IsStray f) (stack : Stack) (file : Chars) (base : Options) :
    (Loading.options stack tree file base).result = .error f
      ↔ Loading.StrayDocument stack file (tree.readNamed file) f
        ∨ f = .wrongKind ∧ ∃ entries value,
          Loading.parseContent stack file (tree.readNamed file) = .ok (.ok (.obj entries))
            ∧ ("primitiveTypes".toText, value) ∈ entries ∧ Options.NoTypeNames value := by
  rw [Loading.options, Report.result_bind, Report.result_lift]
  refine bind_eq_error_or_iff.trans (or_congr Loading.parseContent_eq_error_iff ?_)
  simp only [withFile_eq_error_iff hf]
  constructor
  · rintro ⟨document, hdocument, rfl, entries, value, rfl, hvalue⟩
    exact ⟨rfl, entries, value, hdocument, hvalue⟩
  · rintro ⟨rfl, entries, value, hdocument, hvalue⟩
    exact ⟨_, hdocument, rfl, entries, value, rfl, hvalue⟩

theorem resolveOptions_stray_iff (hf : IsStray f) :
    (resolveOptions settings machine tree).result = .error f
      ↔ StrayOptions settings machine tree f := by
  have hsettings : ∀ base : Options, base.overlay [(.implPrefix, settings.implPrefix),
      (.primitiveHandling, if settings.noPrimitives then .bool false else .null)] ≠ .error f := by
    intro base hfault
    obtain ⟨-, value, hvalue, -⟩ := (Options.overlay_eq_error_iff ..).1 hfault
    simp at hvalue
  cases hnamed : settings.optionsFile.filter fun file : Chars => !file.isEmpty with
  | some file =>
      obtain ⟨hfile, hne⟩ := Option.filter_eq_some_iff.1 hnamed
      simp only [resolveOptions, hnamed, Report.result_bind]
      refine (bind_eq_error_or_iff.trans (or_iff_left ?_)).trans ?_
      · rintro ⟨base, -, hfault⟩
        exact hsettings base hfault
      · rw [options_stray_iff hf]
        constructor
        · rintro (h | ⟨rfl, entries, value, hdocument, hvalue⟩)
          · exact .document hfile (by simpa using hne) h
          · exact .typeNames hfile (by simpa using hne) hdocument hvalue.1 hvalue.2
        · rintro (⟨hother, -, h⟩ | ⟨hother, -, hdocument, hvalue, hbad⟩)
          · rw [hfile] at hother
            cases hother
            exact .inl h
          · rw [hfile] at hother
            cases hother
            exact .inr ⟨rfl, _, _, hdocument, hvalue, hbad⟩
  | none =>
      simp only [resolveOptions, hnamed, Report.result_bind]
      constructor
      · intro h
        exact absurd h (hsettings .standard)
      · intro h
        rcases h with ⟨hfile, hne, -⟩ | ⟨hfile, hne, -⟩ <;> simp [hfile, hne] at hnamed

end CommandLine

/-! ## Inputs -/

namespace Loading

variable {stack : Stack} {tree : FileTree} {path : Path} {f : Fault}

/-- The first annotation of a source whose declaration cannot be read stands in front of a line of
nothing but semicolons. -/
def NamelessSource (t : Text) (sourceFile : Json) : Prop :=
  StopsAtFirst (fun site => Source.declarationAt (Source.stripComments t).length site sourceFile)
    (Source.NamelessSite (Source.stripComments t).length)
    (Source.markerSites (Source.stripComments t))

/-- A file with declarations that are not known for a reason that is not reported. -/
inductive StrayDeclarations (stack : Stack) (tree : FileTree) (path : Path) : Fault → Prop
  | document {f : Fault} : path.suffix = documentSuffix →
    StrayDocument stack path.toChars (tree.read path) f → StrayDeclarations stack tree path f
  /-- The stack overflows in the reading of its data. -/
  | overflow {data : Json} {n : Nat} : path.suffix = documentSuffix →
    parseContent stack path.toChars (tree.read path) = .ok (.ok data) →
    stack.dataOverflow? data = some n → StrayDeclarations stack tree path .nestedTooDeep
  | data {data : Json} : path.suffix = documentSuffix →
    parseContent stack path.toChars (tree.read path) = .ok (.ok data) →
    stack.dataOverflow? data = none → Declaration.MistypedData (.str (.ofChars path.toChars)) data →
    StrayDeclarations stack tree path .wrongKind
  | text {f : Fault} : path.suffix ≠ documentSuffix →
    StrayText path.toChars (tree.read path) f → StrayDeclarations stack tree path f
  | source {t : Text} : path.suffix ≠ documentSuffix →
    decodeContent path.toChars (tree.read path) = .ok (.ok t) →
    NamelessSource t (.str (.ofChars path.toChars)) → StrayDeclarations stack tree path .outOfRange

theorem StrayDeclarations.isStray (h : StrayDeclarations stack tree path f) : IsStray f := by
  rcases h with ⟨-, h⟩ | _ | _ | ⟨-, h⟩ | _
  · exact h.isStray
  · exact nofun
  · exact nofun
  · exact h.isStray
  · exact nofun

theorem load_stray_iff (hf : IsStray f) (data sourceFile : Json) :
    (Declaration.load data sourceFile).result = .error f
      ↔ f = .wrongKind ∧ Declaration.MistypedData sourceFile data := by
  rw [result_load, ← Declaration.ofData_eq_error_iff]
  constructor
  · intro h
    rcases Declaration.ofData_failsWith data sourceFile f h with rfl | hreported
    · exact ⟨rfl, h⟩
    · exact absurd hreported hf.not_isDeclarationError
  · rintro ⟨rfl, h⟩
    exact h

theorem scan_stray_iff (hf : IsStray f) (t : Text) (sourceFile : Json) :
    (Source.scan t sourceFile).result = .error f
      ↔ f = .outOfRange ∧ NamelessSource t sourceFile := by
  unfold NamelessSource
  rw [← Source.result_scan_eq_error_iff]
  constructor
  · intro h
    have hfault : FailsWith Source.SiteFault (Source.scan t sourceFile).result := by
      rw [Source.result_scan]
      exact .mapM fun site hsite =>
        Source.declarationAt_failsWith (Source.ne_nil_of_mem_markerSites hsite) _ sourceFile
    rcases hfault f h with rfl | hreported
    · exact ⟨rfl, h⟩
    · exact absurd hreported hf.not_isDeclarationError
  · rintro ⟨rfl, h⟩
    exact h

theorem document_stray_iff (hf : IsStray f) :
    (document stack tree path).result = .error f
      ↔ StrayDocument stack path.toChars (tree.read path) f
        ∨ ∃ data, parseContent stack path.toChars (tree.read path) = .ok (.ok data)
          ∧ ((∃ n, stack.dataOverflow? data = some n) ∧ f = .nestedTooDeep
            ∨ stack.dataOverflow? data = none ∧ f = .wrongKind
              ∧ Declaration.MistypedData (.str (.ofChars path.toChars)) data) := by
  rw [document, Report.result_bind, Report.result_lift]
  refine bind_eq_error_or_iff.trans (or_congr parseContent_eq_error_iff ?_)
  constructor
  · rintro ⟨value, hvalue, h⟩
    split at h
    · cases h
      exact absurd rfl (hf _)
    · next data =>
        rw [Report.result_cutShort_eq_error_iff, load_stray_iff hf] at h
        exact ⟨data, hvalue, h⟩
  · rintro ⟨data, hvalue, h⟩
    refine ⟨_, hvalue, ?_⟩
    dsimp only
    rwa [Report.result_cutShort_eq_error_iff, load_stray_iff hf]

theorem source_stray_iff (hf : IsStray f) :
    (source tree path).result = .error f
      ↔ StrayText path.toChars (tree.read path) f
        ∨ f = .outOfRange ∧ ∃ t, decodeContent path.toChars (tree.read path) = .ok (.ok t)
          ∧ NamelessSource t (.str (.ofChars path.toChars)) := by
  rw [source, Report.result_bind, Report.result_lift]
  refine bind_eq_error_or_iff.trans (or_congr decodeContent_eq_error_iff ?_)
  constructor
  · rintro ⟨opened, hopened, h⟩
    split at h
    · cases h
      exact absurd rfl (hf _)
    · next t =>
        obtain ⟨rfl, ht⟩ := (scan_stray_iff hf ..).1 h
        exact ⟨rfl, t, hopened, ht⟩
  · rintro ⟨rfl, t, hopened, ht⟩
    exact ⟨_, hopened, (scan_stray_iff hf ..).2 ⟨rfl, ht⟩⟩

theorem result_input (stack : Stack) (tree : FileTree) (path : Path) :
    (input stack tree path).result
      = if path.suffix = documentSuffix then
          (document stack tree path).result.map fun ds => (ds, none)
        else (source tree path).result.map fun ds => (ds, some (.ofChars path.name)) := by
  unfold input
  by_cases hsuffix : path.suffix = documentSuffix
  · simp only [hsuffix, beq_self_eq_true, if_true, Report.result_bind, Report.result_note,
      Except.bind]
    cases (document stack tree path).result <;> rfl
  · simp only [hsuffix, beq_iff_eq, if_false, Report.result_bind, Report.result_note,
      Except.bind]
    cases (source tree path).result <;> rfl

theorem input_stray_iff (hf : IsStray f) :
    (input stack tree path).result = .error f ↔ StrayDeclarations stack tree path f := by
  rw [result_input]
  by_cases hsuffix : path.suffix = documentSuffix
  · rw [if_pos hsuffix, map_eq_error_iff, document_stray_iff hf]
    constructor
    · rintro (h | ⟨data, hvalue, ⟨⟨n, hn⟩, rfl⟩ | ⟨hnone, rfl, hdata⟩⟩)
      · exact .document hsuffix h
      · exact .overflow hsuffix hvalue hn
      · exact .data hsuffix hvalue hnone hdata
    · rintro (⟨-, h⟩ | ⟨-, hvalue, hn⟩ | ⟨-, hvalue, hnone, hdata⟩ | ⟨hother, -⟩ | ⟨hother, -⟩)
      · exact .inl h
      · exact .inr ⟨_, hvalue, .inl ⟨⟨_, hn⟩, rfl⟩⟩
      · exact .inr ⟨_, hvalue, .inr ⟨hnone, rfl, hdata⟩⟩
      · exact absurd hsuffix hother
      · exact absurd hsuffix hother
  · rw [if_neg hsuffix, map_eq_error_iff, source_stray_iff hf]
    constructor
    · rintro (h | ⟨rfl, t, hopened, ht⟩)
      · exact .text hsuffix h
      · exact .source hsuffix hopened ht
    · rintro (⟨hother, -⟩ | ⟨hother, -⟩ | ⟨hother, -⟩ | ⟨-, h⟩ | ⟨-, hopened, ht⟩)
      · exact absurd hother hsuffix
      · exact absurd hother hsuffix
      · exact absurd hother hsuffix
      · exact .inl h
      · exact .inr ⟨rfl, _, hopened, ht⟩

/-- The library of a file fails like its declarations, or because the stack overflows in making it,
or with the first return type that is no text. -/
theorem library_stray_iff (hf : IsStray f) (o : Options) :
    (library stack tree path o).result = .error f
      ↔ StrayDeclarations stack tree path f
        ∨ ∃ ds partOf, (input stack tree path).result = .ok (ds, partOf)
          ∧ ((∃ n, stack.libraryOverflow? ds partOf o = some n) ∧ f = .nestedTooDeep
            ∨ stack.libraryOverflow? ds partOf o = none
              ∧ StopsAtFirst (fun d => (Implementation.forAnnotated d o stack).result)
                (Implementation.UntypedClass stack o f) ds) := by
  rw [library, Report.result_bind]
  refine bind_eq_error_or_iff.trans (or_congr (input_stray_iff hf) ?_)
  simp only [Prod.exists, Report.result_cutShort_eq_error_iff, Library.generate_eq_error_iff hf]

end Loading

namespace CommandLine

variable {settings : Settings} {o : Options} {machine : Machine} {tree : FileTree}
  {path : Path} {f : Fault}

/-- An input with a fault that is not reported. -/
inductive StrayInput (stack : Stack) (tree : FileTree) (o : Options) (path : Path) : Fault → Prop
  /-- Its path cannot be followed. -/
  | unreachable {cause : SystemCause} : tree.isThere path = .error cause →
    StrayInput stack tree o path (.system ⟨cause, path.toChars⟩)
  /-- Its declarations are not known. -/
  | declarations {f : Fault} : tree.isThere path = .ok true →
    Loading.StrayDeclarations stack tree path f → StrayInput stack tree o path f
  /-- The stack overflows in the making of its library. -/
  | overflow {ds : List Declaration} {partOf : Option Text} {n : Nat} :
    tree.isThere path = .ok true → (Loading.input stack tree path).result = .ok (ds, partOf) →
    stack.libraryOverflow? ds partOf o = some n → StrayInput stack tree o path .nestedTooDeep
  /-- Of its declarations the first that cannot be implemented has a return type that is no text. -/
  | returnType {f : Fault} {ds : List Declaration} {partOf : Option Text} :
    tree.isThere path = .ok true → (Loading.input stack tree path).result = .ok (ds, partOf) →
    stack.libraryOverflow? ds partOf o = none →
    StopsAtFirst (fun d => (Implementation.forAnnotated d o stack).result)
      (Implementation.UntypedClass stack o f) ds → StrayInput stack tree o path f

theorem verdict_eq_stray_iff {input : Chars} :
    verdict machine tree o input = .stray f
      ↔ StrayInput machine.stack tree o (Path.parse input) f := by
  constructor
  · intro h
    unfold verdict at h
    dsimp only at h
    split at h
    · next cause hthere =>
        cases h
        exact .unreachable hthere
    · cases h
    · next hthere =>
        split at h
        · cases h
        · next hreported hlibrary =>
            cases h
            have hf : IsStray f := fun e he => hreported e he
            rcases (Loading.library_stray_iff hf o).1 hlibrary with
              h | ⟨ds, partOf, hinput, ⟨⟨n, hn⟩, rfl⟩ | ⟨hnone, h⟩⟩
            · exact .declarations hthere h
            · exact .overflow hthere hinput hn
            · exact .returnType hthere hinput hnone h
        · cases h
  · intro h
    -- but for an input that is not reached, the fault is that of the library
    have hlibrary : ∀ {f : Fault}, IsStray f → tree.isThere (Path.parse input) = .ok true →
        (Loading.library machine.stack tree (Path.parse input) o).result = .error f →
        verdict machine tree o input = .stray f := by
      intro f hf hthere hresult
      unfold verdict
      dsimp only
      rw [hthere, hresult]
      cases f with
      | reported e => exact absurd rfl (hf e)
      | _ => rfl
    cases h with
    | unreachable hthere =>
        unfold verdict
        dsimp only
        rw [hthere]
    | declarations hthere h =>
        have hf := h.isStray
        exact hlibrary hf hthere ((Loading.library_stray_iff hf o).2 (.inl h))
    | overflow hthere hinput hn =>
        have hf : IsStray .nestedTooDeep := nofun
        exact hlibrary hf hthere ((Loading.library_stray_iff hf o).2
          (.inr ⟨_, _, hinput, .inl ⟨⟨_, hn⟩, rfl⟩⟩))
    | returnType hthere hinput hnone h =>
        have hf : IsStray f := by
          obtain ⟨-, d, -, -, -, hd⟩ := h
          exact hd.isStray
        exact hlibrary hf hthere ((Loading.library_stray_iff hf o).2
          (.inr ⟨_, _, hinput, .inr ⟨hnone, h⟩⟩))

/-! ## Runs -/

/-- A fault strays from a run: from its options, from making its output directory, from the input
of a turn, or from printing or writing the code of a turn. -/
inductive StrayRun (settings : Settings) (tree : FileTree) (machine : Machine) : Fault → Prop
  | options {f : Fault} : StrayOptions settings machine tree f → StrayRun settings tree machine f
  | output {o : Options} {f : Fault} : (resolveOptions settings machine tree).result = .ok o →
    prepareOutput settings machine tree = .error f → StrayRun settings tree machine f
  | input {o : Options} {start : FileTree} {t : Turn} {f : Fault} :
    Starts settings machine tree o start → t ∈ turns settings o machine start settings.inputs →
    StrayInput machine.stack t.tree o (Path.parse t.input) f → StrayRun settings tree machine f
  | unwritable {o : Options} {start : FileTree} {t : Turn} {code : Text} {cause : SystemCause} :
    Starts settings machine tree o start → t ∈ turns settings o machine start settings.inputs →
    verdict machine t.tree o t.input = .text code → code ≠ [] → settings.toStdout = false →
    t.tree.write (target settings t.input)
      (FileTree.contentOf (formattedText settings machine code)) = .error cause →
    StrayRun settings tree machine (.system ⟨cause, (target settings t.input).toChars⟩)
  /-- There is a surrogate in the code, which is to be printed or whose file can be opened. -/
  | unencodable {o : Options} {start : FileTree} {t : Turn} {code out : Text} :
    Starts settings machine tree o start → t ∈ turns settings o machine start settings.inputs →
    verdict machine t.tree o t.input = .text code → code ≠ [] →
    out = formattedText settings machine code → out.chars? = none →
    (settings.toStdout = false →
      ∃ new, t.tree.write (target settings t.input) (FileTree.contentOf out) = .ok new) →
    StrayRun settings tree machine .unencodable

/-- An error is reported in a run: about its options, or about the input of a turn, which may also
be missing. -/
inductive RefusedRun (settings : Settings) (tree : FileTree) (machine : Machine) : Prop
  | options {e : GenerationError} :
    (resolveOptions settings machine tree).result = .error (.reported e) →
    RefusedRun settings tree machine
  | input {o : Options} {start : FileTree} {t : Turn} : Starts settings machine tree o start →
    t ∈ turns settings o machine start settings.inputs →
    verdict machine t.tree o t.input = .refused → RefusedRun settings tree machine

theorem StrayRun.ending (h : StrayRun settings tree machine f) :
    (runWith settings tree machine).2 = .escaped f := by
  have hturn : ∀ {o : Options} {start : FileTree} {t : Turn} {f : Fault},
      Starts settings machine tree o start → t ∈ turns settings o machine start settings.inputs →
      t.EndsWith settings o machine (.escaped f) →
      (runWith settings tree machine).2 = .escaped f := by
    intro o start t f hstarts ht hends
    obtain ⟨s, rfl, -, hrun⟩ := runWith_of_starts hstarts
    rw [hrun]
    exact (processInputs_ending_iff s _ _).2 (.inl ⟨t, ht, hends⟩)
  cases h with
  | options h => exact runWith_of_fault ((resolveOptions_stray_iff h.isStray).2 h) h.isStray
  | output hoptions houtput => exact runWith_of_unprepared hoptions houtput
  | input hstarts ht h => exact hturn hstarts ht (.stray (verdict_eq_stray_iff.2 h))
  | unwritable hstarts ht hverdict hcode hfiles hwrite =>
      exact hturn hstarts ht (.unwritable hverdict hcode hfiles rfl hwrite)
  | unencodable hstarts ht hverdict hcode hout hnone hopens =>
      exact hturn hstarts ht (.unencodable hverdict hcode hout hnone hopens)

theorem RefusedRun.ending (h : RefusedRun settings tree machine) :
    (runWith settings tree machine).2 = .exit 1 := by
  cases h with
  | options h => exact (runWith_of_reported h).2.2
  | input hstarts ht hverdict =>
      obtain ⟨s, rfl, -, hrun⟩ := runWith_of_starts hstarts
      rw [hrun]
      exact (processInputs_ending_iff s _ _).2 (.inl ⟨_, ht, .refused hverdict⟩)

end CommandLine

end DartDecoders
