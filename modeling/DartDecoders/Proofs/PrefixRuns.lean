/-
Runs whose files are apart.

The code of a run is written while later inputs are still to be read, so in general what an input
comes to depends on the turns before it. When the files for the code are apart from the inputs and
from the options file, it does not: `verdict_turn` says that every input comes to what it comes to
before the first turn. Then a run takes the inputs up to the first that is refused and no others
(`TakesPrefix`), and a second run finds the options, the inputs and the directories as the first one
found them, so it ends alike and writes what is there already (`run_takesPrefix`).
-/
import DartDecoders.Proofs.WrittenFiles

set_option autoImplicit false

namespace DartDecoders

/-! ## What depends on a file -/

namespace Loading

variable {stack : Stack} {old new : FileTree} {path : Path}

theorem library_congr (h : new.read path = old.read path) (o : Options) :
    library stack new path o = library stack old path o := by
  unfold library input document source
  rw [h]

end Loading

namespace CommandLine

variable {settings : Settings} {o : Options} {machine : Machine} {tree start old new : FileTree}
  {input : Chars}

/-- Two trees agree on an input: they have the same directories, and the same stands where the input
is. -/
structure Agrees (old new : FileTree) (input : Chars) : Prop where
  directories : FileTree.SameDirectories old new
  kept : ∀ l, old.locate (Path.parse input) = .ok l → new.lookup? l = old.lookup? l

theorem Agrees.verdict_eq (h : Agrees old new input) (o : Options) :
    verdict machine new o input = verdict machine old o input := by
  have hthere := h.directories.isThere_eq h.kept
  unfold verdict
  dsimp only
  rw [hthere]
  split
  · rfl
  · rfl
  · next hold => rw [Loading.library_congr (h.directories.read_eq h.kept hold)]

/-- What is there already comes to the same once more directories are there. -/
theorem verdict_of_addsDirectories (h : FileTree.AddsDirectories old new)
    (hthere : old.isThere (Path.parse input) = .ok true) (o : Options) :
    verdict machine new o input = verdict machine old o input := by
  obtain ⟨hnew, hread⟩ := h.read_eq hthere
  unfold verdict
  dsimp only
  rw [hnew, hthere]
  dsimp only
  rw [Loading.library_congr hread]

theorem resolveOptions_congr (h : ∀ file, settings.optionsFile = some file → file ≠ [] →
    new.readNamed file = old.readNamed file) :
    resolveOptions settings machine new = resolveOptions settings machine old := by
  unfold resolveOptions
  cases hnamed : settings.optionsFile.filter fun file : Chars => !file.isEmpty with
  | none => rfl
  | some file =>
      obtain ⟨hfile, hne⟩ := Option.filter_eq_some_iff.1 hnamed
      simp only [Loading.options, h file hfile (by simpa using hne)]

/-! ## Files that are apart -/

/-- The files for the code of the inputs are apart: none of them is an input or the options file,
and no two inputs share one. -/
structure Apart (settings : Settings) (tree : FileTree) : Prop where
  inputs : ∀ i ∈ settings.inputs, ∀ j ∈ settings.inputs, ∀ l,
    tree.locate (target settings i) = .ok l → tree.locate (Path.parse j) ≠ .ok l
  options : ∀ i ∈ settings.inputs, ∀ file, settings.optionsFile = some file → ∀ l,
    tree.locate (target settings i) = .ok l → tree.locate (Path.parse file) ≠ .ok l
  others : ∀ i ∈ settings.inputs, ∀ j ∈ settings.inputs, SharesFile settings tree i j → i = j

theorem Apart.of_sameDirectories (h : Apart settings old)
    (hdirectories : FileTree.SameDirectories old new) : Apart settings new where
  inputs i hi j hj l hl hinput :=
    h.inputs i hi j hj l (hdirectories.locate_eq_ok_iff.1 hl)
      (hdirectories.locate_eq_ok_iff.1 hinput)
  options i hi file hfile l hl hoptions :=
    h.options i hi file hfile l (hdirectories.locate_eq_ok_iff.1 hl)
      (hdirectories.locate_eq_ok_iff.1 hoptions)
  others := by
    rintro i hi j hj ⟨l, hl, hother⟩
    exact h.others i hi j hj
      ⟨l, hdirectories.locate_eq_ok_iff.1 hl, hdirectories.locate_eq_ok_iff.1 hother⟩

theorem mem_inputs_of_mem_turns {inputs : List Chars} {t : Turn}
    (ht : t ∈ turns settings o machine tree inputs) : t.input ∈ inputs :=
  (prefix_map_input_turns tree inputs).subset (List.mem_map_of_mem ht)

section

variable (hapart : settings.toStdout = false → Apart settings start)

include hapart

/-- No turn writes an input. -/
theorem not_writes_input {t : Turn} (ht : t ∈ turns settings o machine start settings.inputs)
    (hinput : input ∈ settings.inputs) {l : Location}
    (hl : start.locate (Path.parse input) = .ok l) : ¬ t.Writes settings o machine l := by
  intro hwrites
  have hlocated := (turns_sameDirectories ht).locate_eq_ok_iff.1 hwrites.located
  exact (hapart hwrites.files).inputs _ (mem_inputs_of_mem_turns ht) _ hinput l hlocated hl

theorem agrees_turn {t : Turn} (ht : t ∈ turns settings o machine start settings.inputs)
    (hinput : input ∈ settings.inputs) : Agrees start t.tree input where
  directories := turns_sameDirectories ht
  kept _ hl := lookup?_turns (fun _ hu => not_writes_input hapart hu hinput hl) ht

/-- An input comes to what it comes to before the first turn. -/
theorem verdict_turn {t : Turn} (ht : t ∈ turns settings o machine start settings.inputs) :
    verdict machine t.tree o t.input = verdict machine start o t.input :=
  (agrees_turn hapart ht (mem_inputs_of_mem_turns ht)).verdict_eq o

end

theorem agrees_after {s : Session} (hapart : settings.toStdout = false → Apart settings s.tree)
    (hinput : input ∈ settings.inputs) :
    Agrees s.tree (processInputs settings o machine s settings.inputs).1.tree input where
  directories := processInputs_sameDirectories s settings.inputs
  kept _ hl := lookup?_processInputs fun _ ht => not_writes_input hapart ht hinput hl

/-! ## What a run takes -/

/-- Whether there is a library. -/
def Verdict.isText : Verdict → Bool
  | .text _ => true
  | _ => false

/-- The inputs before the first that has no library. -/
def taken (machine : Machine) (o : Options) (tree : FileTree) (inputs : List Chars) : List Chars :=
  inputs.takeWhile fun input => (verdict machine tree o input).isText

theorem mem_taken_cons (h : (verdict machine tree o input).isText = true) (rest : List Chars) :
    input ∈ taken machine o tree (input :: rest) := by
  rw [taken, List.takeWhile_cons, h]
  exact List.mem_cons_self

/-- A run takes the inputs before the first that is refused, each for what it comes to before the
first turn, and changes nothing else. -/
structure TakesPrefix (settings : Settings) (o : Options) (machine : Machine) (start : FileTree)
    (s : Session) (ending : Ending) : Prop where
  /-- The code for success means that all inputs are taken. -/
  ending : ending = .exit (if taken machine o start settings.inputs = settings.inputs then 0 else 1)
  /-- The first input that is not taken is missing, or an error about it is reported. -/
  refused : ∀ input rest, settings.inputs = taken machine o start settings.inputs ++ input :: rest →
    verdict machine start o input = .refused
  /-- The code of the inputs that are taken is printed in their order. -/
  printed : Text.ofChars s.stdout = if settings.toStdout then
      (taken machine o start settings.inputs).flatMap
        fun input => (verdict machine start o input).code
    else []
  /-- Or it is written into their files, unless it is empty. -/
  written : settings.toStdout = false → ∀ input ∈ taken machine o start settings.inputs,
    (verdict machine start o input).code ≠ [] → ∃ l content,
      start.locate (target settings input) = .ok l
        ∧ FileTree.encode? (verdict machine start o input).code = some content
        ∧ s.tree.lookup? l = some (.file content)
  /-- All else is as it was. -/
  kept : ∀ l, (settings.toStdout = false → ∀ input ∈ taken machine o start settings.inputs,
      (verdict machine start o input).code ≠ [] → start.locate (target settings input) ≠ .ok l) →
    s.tree.lookup? l = start.lookup? l

/-- What a turn prints is the code of its input, when code is printed at all and can be. -/
theorem effect_printed (hplain : settings.format = false) {t : Turn}
    (h : ¬ t.EndsWith settings o machine (.escaped .unencodable)) :
    Text.ofChars (effect settings o machine t.tree t.input).printed
      = if settings.toStdout then (verdict machine t.tree o t.input).code else [] := by
  unfold effect
  cases hverdict : verdict machine t.tree o t.input with
  | refused => simp [Verdict.code, Text.ofChars]
  | stray f => simp [Verdict.code, Text.ofChars]
  | text code =>
      cases code with
      | nil => simp [Verdict.code, Text.ofChars]
      | cons c rest =>
          have hout := formattedText_of_plain machine hplain (c :: rest)
          dsimp only
          rw [hout]
          cases hprint : settings.toStdout with
          | false =>
              simp only [Bool.false_eq_true, if_false]
              split <;> rfl
          | true =>
              cases hchars : Text.chars? (c :: rest) with
              | some cs => exact (Text.chars?_eq_some_iff.1 hchars).symm
              | none =>
                  refine absurd (.unencodable hverdict (List.cons_ne_nil _ _) hout.symm hchars ?_) h
                  intro hfiles
                  cases hfiles.symm.trans hprint

section

variable {s : Session} (hapart : settings.toStdout = false → Apart settings s.tree)

include hapart

/-- A run gets to the end, or to a turn that ends it behind inputs that have a library. -/
theorem turns_split :
    ((turns settings o machine s.tree settings.inputs).map Turn.input
        = taken machine o s.tree settings.inputs
      ∧ taken machine o s.tree settings.inputs = settings.inputs
      ∧ (processInputs settings o machine s settings.inputs).2 = .exit 0)
    ∨ ∃ before t more, turns settings o machine s.tree settings.inputs = before ++ [t]
      ∧ settings.inputs = before.map Turn.input ++ t.input :: more
      ∧ (∀ input ∈ before.map Turn.input, (verdict machine s.tree o input).isText = true)
      ∧ t.EndsWith settings o machine (processInputs settings o machine s settings.inputs).2 := by
  have hisText : ∀ t ∈ turns settings o machine s.tree settings.inputs,
      (∀ e, ¬ t.EndsWith settings o machine e) →
      (verdict machine s.tree o t.input).isText = true := by
    intro t ht hpasses
    obtain ⟨code, hverdict, -⟩ := Turn.exists_text hpasses
    rw [← verdict_turn hapart ht, hverdict]
    rfl
  rcases turns_cases s.tree settings.inputs with ⟨hinputs, hpasses⟩ |
    ⟨before, t, e, hturns, hends, hpasses⟩
  · have htaken : taken machine o s.tree settings.inputs = settings.inputs := by
      refine List.takeWhile_eq_self_iff.2 fun input hinput => ?_
      rw [← hinputs] at hinput
      obtain ⟨t, ht, rfl⟩ := List.mem_map.1 hinput
      exact hisText t ht (hpasses t ht)
    exact .inl ⟨hinputs.trans htaken.symm, htaken,
      (processInputs_ending_iff s _ _).2 (.inr ⟨rfl, hpasses⟩)⟩
  · have hprefix : (turns settings o machine s.tree settings.inputs).map Turn.input
        <+: settings.inputs := prefix_map_input_turns _ _
    obtain ⟨more, hmore⟩ := hprefix
    rw [hturns, List.map_append, List.append_assoc] at hmore
    refine .inr ⟨before, t, more, hturns, hmore.symm, ?_, ?_⟩
    · intro input hinput
      obtain ⟨u, hu, rfl⟩ := List.mem_map.1 hinput
      refine hisText u ?_ (hpasses u hu)
      rw [hturns]
      exact List.mem_append_left _ hu
    · rw [(processInputs_ending_iff s _ _).2 (.inl ⟨t, mem_turns_of_eq hturns, hends⟩)]
      exact hends

end

section

variable {s : Session} (hapart : settings.toStdout = false → Apart settings s.tree)
  (hescapes : ∀ f, (processInputs settings o machine s settings.inputs).2 ≠ .escaped f)

include hapart hescapes

/-- The turns of a run that ends with a code are those of the inputs that are taken, and of the
first other one when there is any. -/
theorem turns_taken :
    ((turns settings o machine s.tree settings.inputs).map Turn.input
        = taken machine o s.tree settings.inputs
      ∧ taken machine o s.tree settings.inputs = settings.inputs
      ∧ (processInputs settings o machine s settings.inputs).2 = .exit 0)
    ∨ ∃ before t more, turns settings o machine s.tree settings.inputs = before ++ [t]
      ∧ before.map Turn.input = taken machine o s.tree settings.inputs
      ∧ settings.inputs = taken machine o s.tree settings.inputs ++ t.input :: more
      ∧ verdict machine s.tree o t.input = .refused
      ∧ (processInputs settings o machine s settings.inputs).2 = .exit 1 := by
  rcases turns_split hapart with hall | ⟨before, t, more, hturns, hinputs, hbefore, hends⟩
  · exact .inl hall
  · generalize hending : (processInputs settings o machine s settings.inputs).2 = e at hends
    cases hends with
    | stray => exact absurd hending (hescapes _)
    | unwritable => exact absurd hending (hescapes _)
    | unencodable => exact absurd hending (hescapes _)
    | refused hverdict =>
        rw [verdict_turn hapart (mem_turns_of_eq hturns)] at hverdict
        have htaken : taken machine o s.tree settings.inputs = before.map Turn.input := by
          unfold taken
          rw [hinputs, List.takeWhile_append_of_pos hbefore]
          simp [hverdict, Verdict.isText]
        refine .inr ⟨before, t, more, hturns, htaken.symm, ?_, hverdict, rfl⟩
        rw [htaken]
        exact hinputs

/-- An input with a turn is taken or refused. -/
theorem mem_taken_or_refused {t : Turn}
    (ht : t ∈ turns settings o machine s.tree settings.inputs) :
    t.input ∈ taken machine o s.tree settings.inputs
      ∨ verdict machine s.tree o t.input = .refused := by
  rcases turns_taken hapart hescapes with ⟨hinputs, -⟩ | ⟨before, u, -, hturns, hinputs, -, hu, -⟩
  · rw [← hinputs]
    exact .inl (List.mem_map_of_mem ht)
  · rw [hturns] at ht
    rcases List.mem_append.1 ht with ht | ht
    · rw [← hinputs]
      exact .inl (List.mem_map_of_mem ht)
    · rw [List.mem_singleton.1 ht]
      exact .inr hu

/-- An input that is taken has its turn. -/
theorem exists_turn_of_mem_taken (hinput : input ∈ taken machine o s.tree settings.inputs) :
    ∃ t ∈ turns settings o machine s.tree settings.inputs, t.input = input := by
  rcases turns_taken hapart hescapes with ⟨hinputs, -⟩ | ⟨before, u, -, hturns, hinputs, -⟩
  · rw [← hinputs] at hinput
    exact List.mem_map.1 hinput
  · rw [← hinputs] at hinput
    obtain ⟨t, ht, hinput⟩ := List.mem_map.1 hinput
    refine ⟨t, ?_, hinput⟩
    rw [hturns]
    exact List.mem_append_left _ ht

omit hapart in
/-- A turn only ends the run by its input being refused. -/
theorem passes_of_ne_refused {t : Turn} (ht : t ∈ turns settings o machine s.tree settings.inputs)
    (hne : verdict machine t.tree o t.input ≠ .refused) (e : Ending) :
    ¬ t.EndsWith settings o machine e := by
  intro hends
  have hending := (processInputs_ending_iff s _ _).2 (.inl ⟨t, ht, hends⟩)
  cases hends with
  | refused hverdict => exact hne hverdict
  | stray => exact hescapes _ hending
  | unwritable => exact hescapes _ hending
  | unencodable => exact hescapes _ hending

/-- The turns print the code of the inputs that are taken. -/
theorem flatMap_printed (hplain : settings.format = false) :
    Text.ofChars ((turns settings o machine s.tree settings.inputs).flatMap fun t =>
        (effect settings o machine t.tree t.input).printed)
      = if settings.toStdout then
          (taken machine o s.tree settings.inputs).flatMap
            fun input => (verdict machine s.tree o input).code
        else [] := by
  have hturn : ∀ t ∈ turns settings o machine s.tree settings.inputs,
      Text.ofChars (effect settings o machine t.tree t.input).printed
        = if settings.toStdout then (verdict machine s.tree o t.input).code else [] := by
    intro t ht
    rw [effect_printed hplain, verdict_turn hapart ht]
    intro hends
    exact hescapes _ ((processInputs_ending_iff s _ _).2 (.inl ⟨t, ht, hends⟩))
  rw [Text.ofChars_flatMap, List.flatMap_congr hturn]
  by_cases hprint : settings.toStdout = true
  · simp only [hprint, if_true]
    have hinputs : ∀ run : List Turn, (run.flatMap fun t => (verdict machine s.tree o t.input).code)
        = (run.map Turn.input).flatMap fun input => (verdict machine s.tree o input).code := by
      intro run
      rw [List.flatMap_map]
    rw [hinputs]
    rcases turns_taken hapart hescapes with ⟨htaken, -⟩ | ⟨before, u, -, hturns, htaken, -, hu, -⟩
    · rw [htaken]
    · rw [hturns, List.map_append, htaken, List.flatMap_append]
      simp [hu, Verdict.code]
  · simp [hprint]

/-- The file of an input that is taken holds its code. -/
theorem lookup?_of_taken (hplain : settings.format = false) (hfiles : settings.toStdout = false)
    (hinput : input ∈ taken machine o s.tree settings.inputs)
    (hcode : (verdict machine s.tree o input).code ≠ []) :
    ∃ l content, s.tree.locate (target settings input) = .ok l
      ∧ FileTree.encode? (verdict machine s.tree o input).code = some content
      ∧ (processInputs settings o machine s settings.inputs).1.tree.lookup? l
        = some (.file content) := by
  obtain ⟨t, ht, rfl⟩ := exists_turn_of_mem_taken hapart hescapes hinput
  rw [← verdict_turn hapart ht] at hcode
  have hpasses : ∀ {u : Turn}, u ∈ turns settings o machine s.tree settings.inputs →
      (verdict machine u.tree o u.input).code ≠ [] → ∀ e, ¬ u.EndsWith settings o machine e :=
    fun hu hne => passes_of_ne_refused hescapes hu fun hrefused =>
      hne (by rw [hrefused]; rfl)
  obtain ⟨code, hverdict, hyields⟩ := Turn.exists_text (hpasses ht hcode)
  have hne : code ≠ [] := by rwa [hverdict] at hcode
  obtain ⟨l, hwrites⟩ := Turn.exists_writes hfiles (hpasses ht hcode) hyields hne
  have hlocated := (turns_sameDirectories ht).locate_eq_ok_iff.1 hwrites.located
  obtain ⟨before, u, after, hturns, hlast, -, hlookup⟩ := exists_last_writer ⟨t, ht, hwrites⟩
  have hu := mem_turns_of_eq hturns
  have hencode := hlast.encode?_eq (hpasses hu hlast.code)
  -- no other input shares the file
  have hsame : t.input = u.input := (hapart hfiles).others _ (mem_inputs_of_mem_turns ht) _
    (mem_inputs_of_mem_turns hu)
    ⟨l, hlocated, (turns_sameDirectories hu).locate_eq_ok_iff.1 hlast.located⟩
  rw [formattedText_of_plain machine hplain, verdict_turn hapart hu, ← hsame] at hencode hlookup
  exact ⟨l, _, hlocated, hencode, hlookup⟩

end

theorem takesPrefix (hplain : settings.format = false) {s : Session} (hstdout : s.stdout = [])
    (hapart : settings.toStdout = false → Apart settings s.tree)
    (hescapes : ∀ f, (processInputs settings o machine s settings.inputs).2 ≠ .escaped f) :
    TakesPrefix settings o machine s.tree (processInputs settings o machine s settings.inputs).1
      (processInputs settings o machine s settings.inputs).2 := by
  have htaken := turns_taken hapart hescapes
  refine ⟨?_, ?_, ?_, ?_, ?_⟩
  · rcases htaken with ⟨-, hall, hending⟩ | ⟨-, t, more, -, -, hinputs, -, hending⟩
    · rw [hending, if_pos hall]
    · rw [hending, if_neg]
      intro hall
      rw [hall] at hinputs
      simpa using congrArg List.length hinputs
  · intro input rest hsplit
    rcases htaken with ⟨-, hall, -⟩ | ⟨-, t, more, -, -, hinputs, hrefused, -⟩
    · rw [hall] at hsplit
      simpa using congrArg List.length hsplit
    · obtain ⟨rfl, -⟩ := List.cons.inj (List.append_cancel_left (hinputs.symm.trans hsplit))
      exact hrefused
  · rw [stdout_processInputs, hstdout, List.nil_append, flatMap_printed hapart hescapes hplain]
  · intro hfiles input hinput hcode
    exact lookup?_of_taken hapart hescapes hplain hfiles hinput hcode
  · intro l hl
    apply lookup?_processInputs
    intro t ht hwrites
    have hcode := hwrites.code
    rw [verdict_turn hapart ht] at hcode
    rcases mem_taken_or_refused hapart hescapes ht with hinput | hrefused
    · have hlocated := (turns_sameDirectories ht).locate_eq_ok_iff.1 hwrites.located
      exact hl hwrites.files _ hinput hcode hlocated
    · rw [hrefused] at hcode
      exact hcode rfl

/-! ## Running again -/

theorem taken_congr {inputs : List Chars}
    (h : ∀ input ∈ inputs, verdict machine new o input = verdict machine old o input) :
    taken machine o new inputs = taken machine o old inputs := by
  unfold taken
  induction inputs with
  | nil => rfl
  | cons input rest ih =>
      obtain ⟨hfirst, hrest⟩ := List.forall_mem_cons.1 h
      rw [List.takeWhile_cons, List.takeWhile_cons, hfirst, ih hrest]

section

variable {s second : Session} {ending : Ending}
  (hapart : settings.toStdout = false → Apart settings start)
  (htakes : TakesPrefix settings o machine start s ending)
  (hdirectories : FileTree.SameDirectories start s.tree)
  (hagrees : ∀ input ∈ settings.inputs, Agrees start s.tree input)
  (hsecond : second.tree = s.tree)

include hapart htakes hdirectories hagrees hsecond

/-- What can be read and written in one run can be in the next. -/
theorem again_not_escaped (hplain : settings.format = false) (f : Fault) :
    (processInputs settings o machine second settings.inputs).2 ≠ .escaped f := by
  intro hescaped
  rw [← hsecond] at hdirectories hagrees
  have hagain : settings.toStdout = false → Apart settings second.tree := fun hfiles =>
    (hapart hfiles).of_sameDirectories hdirectories
  rcases turns_split hagain with ⟨-, -, hzero⟩ | ⟨before, t, more, hturns, hinputs, hbefore, hends⟩
  · cases hzero.symm.trans hescaped
  · have ht := mem_turns_of_eq hturns
    have hverdict : verdict machine t.tree o t.input = verdict machine start o t.input :=
      (verdict_turn hagain ht).trans ((hagrees _ (mem_inputs_of_mem_turns ht)).verdict_eq o)
    have htaken : taken machine o start settings.inputs = before.map Turn.input
        ++ (t.input :: more).takeWhile fun input => (verdict machine start o input).isText := by
      unfold taken
      conv_lhs => rw [hinputs]
      refine List.takeWhile_append_of_pos fun input hinput => ?_
      have hmem : input ∈ settings.inputs := by
        rw [hinputs]
        exact List.mem_append_left _ hinput
      rw [← (hagrees input hmem).verdict_eq o]
      exact hbefore input hinput
    have hmem : ∀ code, verdict machine start o t.input = .text code →
        t.input ∈ taken machine o start settings.inputs := by
      intro code htext
      rw [htaken]
      refine List.mem_append_right _ ?_
      simp [htext, Verdict.isText]
    rw [hescaped] at hends
    cases hends with
    -- no fault strays from an input: the first run would have taken it or refused it
    | stray hstray =>
        rw [hverdict] at hstray
        have hnone : ((t.input :: more).takeWhile
            fun input => (verdict machine start o input).isText) = [] := by
          simp [hstray, Verdict.isText]
        rw [hnone, List.append_nil] at htaken
        have hrefused := htakes.refused t.input more (by rw [htaken]; exact hinputs)
        cases hstray.symm.trans hrefused
    -- nor from writing its code: the first run left a file where it goes
    | unwritable htext hcode hfiles hout hwrite =>
        rw [hverdict] at htext
        have hne : (verdict machine start o t.input).code ≠ [] := by
          rw [htext]
          exact hcode
        obtain ⟨l, content, hl, -, hlookup⟩ := htakes.written hfiles _ (hmem _ htext) hne
        have hturn := turns_sameDirectories ht
        have hlocated := (hdirectories.trans hturn).locate_eq_ok_iff.2 hl
        have hfree : t.tree.lookup? l ≠ some .directory := by
          rw [Ne, hturn.directory l, hsecond, hlookup]
          exact nofun
        cases hwrite.symm.trans (FileTree.write_eq_ok_iff.2 ⟨l, hlocated, hfree, rfl⟩)
    -- nor from a surrogate in it: the first run printed or wrote it
    | @unencodable code out htext hcode hout hnone hopens =>
        rw [hverdict] at htext
        rw [formattedText_of_plain machine hplain] at hout
        subst hout
        cases hprint : settings.toStdout with
        | true =>
            obtain ⟨n, hn⟩ := Text.chars?_eq_none_iff.1 hnone
            have hprinted := htakes.printed
            rw [if_pos hprint] at hprinted
            refine Text.surrogate_not_mem_ofChars n s.stdout ?_
            rw [hprinted]
            exact List.mem_flatMap.2 ⟨t.input, hmem _ htext, by rw [htext]; exact hn⟩
        | false =>
            have hne : (verdict machine start o t.input).code ≠ [] := by
              rw [htext]
              exact hcode
            obtain ⟨l, content, -, hencode, -⟩ := htakes.written hprint _ (hmem _ htext) hne
            rw [htext] at hencode
            obtain ⟨cs, hcs, -⟩ := FileTree.encode?_eq_some_iff.1 hencode
            cases hnone.symm.trans (Text.chars?_eq_some_iff.2 hcs)

/-- The next run does the same and changes nothing. -/
theorem again_eq (hplain : settings.format = false) (hstdout : second.stdout = []) :
    (processInputs settings o machine second settings.inputs).2 = ending
      ∧ (processInputs settings o machine second settings.inputs).1.stdout = s.stdout
      ∧ ∀ l, (processInputs settings o machine second settings.inputs).1.tree.lookup? l
        = s.tree.lookup? l := by
  have hagain : settings.toStdout = false → Apart settings second.tree := by
    intro hfiles
    rw [hsecond]
    exact (hapart hfiles).of_sameDirectories hdirectories
  have hthen : TakesPrefix settings o machine second.tree
      (processInputs settings o machine second settings.inputs).1
      (processInputs settings o machine second settings.inputs).2 :=
    takesPrefix hplain hstdout hagain
      (again_not_escaped hapart htakes hdirectories hagrees hsecond hplain)
  have hverdict : ∀ input ∈ settings.inputs,
      verdict machine second.tree o input = verdict machine start o input := by
    intro input hinput
    rw [hsecond]
    exact (hagrees input hinput).verdict_eq o
  have htaken := taken_congr hverdict
  have hmem : ∀ input ∈ taken machine o start settings.inputs, input ∈ settings.inputs :=
    fun _ hinput => (List.takeWhile_prefix _).subset hinput
  refine ⟨?_, ?_, fun l => ?_⟩
  · rw [hthen.ending, htakes.ending, htaken]
  · rw [← Text.ofChars_inj, hthen.printed, htakes.printed, htaken]
    split
    · exact List.flatMap_congr fun input hinput => by rw [hverdict input (hmem input hinput)]
    · rfl
  · by_cases hwritten : settings.toStdout = false ∧ ∃ input ∈ taken machine o start settings.inputs,
        (verdict machine start o input).code ≠ [] ∧ start.locate (target settings input) = .ok l
    · obtain ⟨hfiles, input, hinput, hcode, hl⟩ := hwritten
      -- both runs write the code of the input there
      obtain ⟨m, content, hm, hencode, hfirst⟩ := htakes.written hfiles input hinput hcode
      cases hl.symm.trans hm
      rw [← hverdict input (hmem input hinput)] at hcode
      rw [← htaken] at hinput
      obtain ⟨k, later, hk, hagainEncode, hlater⟩ := hthen.written hfiles input hinput hcode
      rw [hsecond, hdirectories.locate_eq_ok_iff] at hk
      cases hl.symm.trans hk
      rw [hverdict input (hmem input (htaken ▸ hinput)), hencode] at hagainEncode
      cases hagainEncode
      rw [hlater, hfirst]
    -- and neither writes anything else
    · rw [hthen.kept l, hsecond]
      intro hfiles input hinput hcode hl
      rw [htaken] at hinput
      rw [hverdict input (hmem input hinput)] at hcode
      rw [hsecond, hdirectories.locate_eq_ok_iff] at hl
      exact hwritten ⟨hfiles, input, hinput, hcode, hl⟩

end

/-! ## Whole runs -/

/-- Options are known only when their file could be read. -/
theorem exists_readNamed {file : Chars} (h : (resolveOptions settings machine tree).result = .ok o)
    (hfile : settings.optionsFile = some file) (hne : file ≠ []) :
    ∃ content, tree.readNamed file = .ok content := by
  cases hread : tree.readNamed file with
  | ok content => exact ⟨content, rfl⟩
  | error cause =>
      have hnamed : settings.optionsFile.filter (fun file : Chars => !file.isEmpty)
          = some file := Option.filter_eq_some_iff.2 ⟨hfile, by simpa using hne⟩
      simp only [resolveOptions, hnamed, Report.result_bind, Loading.options, Report.result_lift,
        hread, Loading.parseContent, Loading.decodeContent] at h
      split at h
      · cases h
      · cases h

/-- Options are read again as before when their file is untouched. -/
theorem resolveOptions_again (h : (resolveOptions settings machine tree).result = .ok o)
    (hadds : FileTree.AddsDirectories tree start)
    (hdirectories : FileTree.SameDirectories start new)
    (hkept : ∀ file, settings.optionsFile = some file → ∀ l,
      start.locate (Path.parse file) = .ok l → new.lookup? l = start.lookup? l) :
    resolveOptions settings machine new = resolveOptions settings machine tree := by
  refine resolveOptions_congr fun file hfile hne => FileTree.readNamed_congr ?_
  obtain ⟨content, hcontent⟩ := exists_readNamed h hfile hne
  have hread := FileTree.read_of_readNamed hcontent
  obtain ⟨l, hlocate, hlookup⟩ := FileTree.read_eq_ok_iff.1 (hadds.read_eq_ok hread)
  rw [hread]
  refine FileTree.read_eq_ok_iff.2 ⟨l, hdirectories.locate_eq_ok_iff.2 hlocate, ?_⟩
  rw [hkept file hfile l hlocate, hlookup]

/-- **What a run does.** Let the code be written as it is, let the files for it be apart from the
inputs, from the options file and from each other, and let no fault stray from the run. When the
options cannot be read the run changes nothing, prints nothing and ends with the code for failure.
Otherwise it first makes at most directories, the one for the output with those on the way to it,
and every input that was there comes to what it came to before; an input is missing when it is not
there then. From there on the run takes the inputs before the first that is missing or about which
an error is reported. Running again on what is left ends alike, prints the same and changes
nothing. -/
theorem run_takesPrefix (hplain : settings.format = false)
    (hescapes : ∀ f, (runWith settings tree machine).2 ≠ .escaped f)
    (hapart : ∀ start, prepareOutput settings machine tree = .ok start → settings.toStdout = false →
      Apart settings start) :
    (∀ f, (resolveOptions settings machine tree).result = .error f →
        (runWith settings tree machine).1.tree = tree
          ∧ (runWith settings tree machine).1.stdout = []
          ∧ (runWith settings tree machine).2 = .exit 1)
      ∧ (∀ o, (resolveOptions settings machine tree).result = .ok o → ∃ start,
        prepareOutput settings machine tree = .ok start ∧ FileTree.AddsDirectories tree start
          ∧ (∀ input, tree.isThere (Path.parse input) = .ok true →
            verdict machine start o input = verdict machine tree o input)
          ∧ TakesPrefix settings o machine start (runWith settings tree machine).1
            (runWith settings tree machine).2)
      ∧ (runWith settings (runWith settings tree machine).1.tree machine).2
        = (runWith settings tree machine).2
      ∧ (runWith settings (runWith settings tree machine).1.tree machine).1.stdout
        = (runWith settings tree machine).1.stdout
      ∧ ∀ l, (runWith settings (runWith settings tree machine).1.tree machine).1.tree.lookup? l
        = (runWith settings tree machine).1.tree.lookup? l := by
  rcases exists_starts_or settings machine tree with ⟨e, hoptions⟩ | ⟨f, hf, hoptions⟩
    | ⟨o, f, hoptions, houtput⟩ | ⟨o, start, hstarts⟩
  · obtain ⟨htree, hstdout, hending⟩ := runWith_of_reported hoptions
    refine ⟨fun _ _ => ⟨htree, hstdout, hending⟩, fun o ho => ?_, ?_⟩
    · cases hoptions.symm.trans ho
    · rw [htree]
      exact ⟨rfl, rfl, fun _ => by rw [htree]⟩
  · exact absurd (runWith_of_fault hoptions hf) (hescapes f)
  · exact absurd (runWith_of_unprepared hoptions houtput) (hescapes f)
  · obtain ⟨s, rfl, hstdout, hrun⟩ := runWith_of_starts hstarts
    obtain ⟨hadds, hthere⟩ := prepareOutput_eq_ok hstarts.output
    have hstart := hapart s.tree hstarts.output
    rw [hrun] at hescapes ⊢
    have htakes := takesPrefix hplain hstdout hstart hescapes
    have hdirectories : FileTree.SameDirectories s.tree
        (processInputs settings o machine s settings.inputs).1.tree :=
      processInputs_sameDirectories s settings.inputs
    -- the next run finds what the first one found
    have hoptions : resolveOptions settings machine
        (processInputs settings o machine s settings.inputs).1.tree
          = resolveOptions settings machine tree := by
      refine resolveOptions_again hstarts.options hadds hdirectories fun file hfile l hl => ?_
      refine htakes.kept l fun hfiles input hinput _ hlocate => ?_
      exact (hstart hfiles).options input ((List.takeWhile_prefix _).subset hinput) file hfile l
        hlocate hl
    have hagain : Starts settings machine
        (processInputs settings o machine s settings.inputs).1.tree o
        (processInputs settings o machine s settings.inputs).1.tree :=
      ⟨by rw [hoptions]; exact hstarts.options, hthere _ hdirectories⟩
    obtain ⟨second, hsecond, hnothing, hrunAgain⟩ := runWith_of_starts hagain
    refine ⟨fun f hf => ?_, fun o' ho' => ?_, ?_⟩
    · cases hstarts.options.symm.trans hf
    · cases hstarts.options.symm.trans ho'
      exact ⟨s.tree, hstarts.output, hadds,
        fun input hinput => verdict_of_addsDirectories hadds hinput o, htakes⟩
    · rw [hrunAgain]
      exact again_eq hstart htakes hdirectories
        (fun input hinput => agrees_after hstart hinput) hsecond hplain hnothing

/-- A file with declarations. -/
def oneDocument : FileTree :=
  (FileTree.empty []).put ["a.json".toList] (.file (FileTree.bytesOf (documentOf "A")))

/-- The settings of a run over that file and a missing one. -/
def missingSettings : Settings :=
  { inputs := ["a.json".toList, "b.json".toList] }

theorem starts_missing : Starts missingSettings bareMachine oneDocument .standard oneDocument :=
  ⟨rfl, rfl⟩

theorem verdict_document :
    verdict bareMachine oneDocument .standard "a.json".toList = .text (codeOf "A") :=
  verdict_eq_text_iff.2 ⟨rfl,
    library_of_document (by decide) (by decide) rfl (by decide) (by cbv) rfl⟩

theorem verdict_missing (h : tree.isThere (Path.parse "b.json".toList) = .ok false) :
    verdict machine tree .standard "b.json".toList = .refused := by
  unfold verdict
  dsimp only
  rw [h]

theorem writes_document :
    Turn.Writes missingSettings .standard bareMachine ⟨"a.json".toList, oneDocument⟩
      ["a.g.dart".toList] := by
  have hnone : oneDocument.lookup? ["a.g.dart".toList] = none := rfl
  exact .of_text rfl verdict_document (codeOf_ne_nil "A") rfl (hnone.trans_ne nofun)

theorem code_document :
    formattedText missingSettings bareMachine
      (verdict bareMachine oneDocument .standard "a.json".toList).code = codeOf "A" := by
  rw [formattedText_of_plain _ rfl, verdict_document]
  rfl

theorem runWith_missing :
    (runWith missingSettings oneDocument bareMachine).2 = .exit 1 := by
  obtain ⟨s, hs, -, hrun⟩ := runWith_of_starts starts_missing
  have hcode := isSome_chars?_codes.1
  rw [← code_document] at hcode
  have hturns : turns missingSettings .standard bareMachine oneDocument
      missingSettings.inputs = _ := turns_of_writes writes_document hcode _
  rw [code_document] at hturns
  rw [hrun, processInputs_ending_iff, hs, hturns]
  left
  exact ⟨_, List.mem_cons_of_mem _ (mem_turns_cons ..), .refused (verdict_missing rfl)⟩

theorem apart_missing : Apart missingSettings oneDocument := by
  have hinputs : ∀ i ∈ missingSettings.inputs, ∀ j ∈ missingSettings.inputs,
      oneDocument.locate (target missingSettings i) ≠ oneDocument.locate (Path.parse j) := by
    decide +kernel
  have hothers : ∀ i ∈ missingSettings.inputs, ∀ j ∈ missingSettings.inputs,
      oneDocument.locate (target missingSettings i)
        = oneDocument.locate (target missingSettings j) → i = j := by
    decide +kernel
  refine ⟨fun i hi j hj l hl hinput => hinputs i hi j hj (hl.trans hinput.symm), ?_, ?_⟩
  · intro i _ file hfile
    cases hfile
  · rintro i hi j hj ⟨l, hl, hother⟩
    exact hothers i hi j hj (hl.trans hother.symm)

/-- The first input is taken, and running again ends at the second as before. -/
theorem run_takesPrefix_missing :
    (runWith missingSettings oneDocument bareMachine).1.tree.lookup? ["a.g.dart".toList]
        = some (.file (FileTree.contentOf (codeOf "A")))
      ∧ (runWith missingSettings (runWith missingSettings oneDocument bareMachine).1.tree
        bareMachine).2 = .exit 1 := by
  have hescapes : ∀ f, (runWith missingSettings oneDocument bareMachine).2 ≠ .escaped f := by
    intro f
    rw [runWith_missing]
    exact nofun
  have hapart : ∀ start, prepareOutput missingSettings bareMachine oneDocument = .ok start →
      missingSettings.toStdout = false → Apart missingSettings start := by
    intro start hstart _
    cases starts_missing.output.symm.trans hstart
    exact apart_missing
  obtain ⟨-, hstarts, hagain, -⟩ := run_takesPrefix rfl hescapes hapart
  obtain ⟨start, hstart, -, -, htakes⟩ := hstarts .standard starts_missing.options
  cases starts_missing.output.symm.trans hstart
  have hfirst : (verdict bareMachine oneDocument .standard "a.json".toList).isText = true := by
    rw [verdict_document]
    rfl
  have hmem : "a.json".toList ∈ taken bareMachine .standard oneDocument missingSettings.inputs :=
    mem_taken_cons hfirst _
  obtain ⟨l, content, hl, hencode, hlookup⟩ := htakes.written rfl _ hmem writes_document.code
  cases writes_document.located.symm.trans hl
  rw [verdict_document] at hencode
  have hcontent : FileTree.encode? (codeOf "A") = some (FileTree.contentOf (codeOf "A")) :=
    FileTree.encode?_eq_contentOf isSome_chars?_codes.1
  rw [Verdict.code, hcontent] at hencode
  obtain rfl := Option.some.inj hencode
  exact ⟨hlookup, hagain.trans runWith_missing⟩

end CommandLine

end DartDecoders
