/-
What a successful run leaves in its files.

In a run that ends with the code for success every input has its turn, its library is known, and the
code of a library that is not empty is written (`Turn.exists_writes`). The file it goes to has the
stem of the input for its name, so inputs with one stem may share a file, and then the last of them
whose library is not empty decides what is in it: `read_after_success` says that of every input.
Nothing is ended by such a loss, and nothing is reported about it.
-/
import DartDecoders.Proofs.Endings

set_option autoImplicit false

namespace DartDecoders

namespace CommandLine

variable {settings : Settings} {o : Options} {machine : Machine} {tree start : FileTree}
  {t u : Turn} {code : Text}

/-! ## Libraries of turns -/

/-- The library of an input when its turn comes. -/
def Turn.Yields (machine : Machine) (o : Options) (t : Turn) (code : Text) : Prop :=
  (Loading.library machine.stack t.tree (Path.parse t.input) o).result = .ok code

theorem verdict_eq_text_iff {input : Chars} :
    verdict machine tree o input = .text code
      ↔ tree.isThere (Path.parse input) = .ok true
        ∧ (Loading.library machine.stack tree (Path.parse input) o).result = .ok code := by
  unfold verdict
  dsimp only
  constructor
  · intro h
    split at h
    · cases h
    · cases h
    · next hthere =>
        split at h
        · cases h
        · cases h
        · next found hlibrary =>
            cases h
            exact ⟨hthere, hlibrary⟩
  · rintro ⟨hthere, hlibrary⟩
    rw [hthere, hlibrary]

/-- A turn that does not end the run has a library. -/
theorem Turn.exists_text (h : ∀ e, ¬ t.EndsWith settings o machine e) :
    ∃ code, verdict machine t.tree o t.input = .text code ∧ t.Yields machine o code := by
  cases hverdict : verdict machine t.tree o t.input with
  | refused => exact absurd (.refused hverdict) (h _)
  | stray f => exact absurd (.stray hverdict) (h _)
  | text code => exact ⟨code, rfl, (verdict_eq_text_iff.1 hverdict).2⟩

/-- A turn that does not end the run writes the code of its library, unless that is empty. -/
theorem Turn.exists_writes (hfiles : settings.toStdout = false)
    (h : ∀ e, ¬ t.EndsWith settings o machine e) (hyields : t.Yields machine o code)
    (hcode : code ≠ []) : ∃ l, t.Writes settings o machine l := by
  have hverdict : verdict machine t.tree o t.input = .text code := by
    obtain ⟨found, hverdict, hfound⟩ := Turn.exists_text h
    rw [Turn.Yields, hyields] at hfound
    cases hfound
    exact hverdict
  cases hwrite : t.tree.write (target settings t.input)
      (FileTree.contentOf (formattedText settings machine code)) with
  | error cause => exact absurd (.unwritable hverdict hcode hfiles rfl hwrite) (h _)
  | ok new =>
      obtain ⟨l, hlocated, hfree, -⟩ := FileTree.write_eq_ok_iff.1 hwrite
      exact ⟨l, .of_text hfiles hverdict hcode hlocated hfree⟩

/-! ## Shared files -/

/-- Two inputs have their code in one file. -/
def SharesFile (settings : Settings) (tree : FileTree) (input other : Chars) : Prop :=
  ∃ l, tree.locate (target settings input) = .ok l ∧ tree.locate (target settings other) = .ok l

/-- Inputs of one stem share a file when they stand side by side, and wherever they stand when there
is an output directory. -/
theorem target_eq_of_stem {input other : Chars}
    (hstem : (Path.parse input).stem = (Path.parse other).stem)
    (hplace : (∃ dir, settings.outputDir = some dir ∧ dir ≠ [])
      ∨ (Path.parse input).parent = (Path.parse other).parent) :
    target settings input = target settings other := by
  unfold target outputPath
  rw [hstem]
  rcases hplace with ⟨dir, hdir, hne⟩ | hparent
  · have hkept : settings.outputDir.filter (fun dir => !dir.isEmpty) = some dir := by
      simp [Option.filter_eq_some_iff, hdir, hne]
    rw [hkept]
  · rw [hparent]

/-- The file of an input holds the code of the last library that is not empty among those of the
inputs of a run that share the file. -/
def HoldsLast (settings : Settings) (machine : Machine) (o : Options) (start final : FileTree)
    (run : List Turn) (input : Chars) : Prop :=
  ∃ before u after last, run = before ++ u :: after
    ∧ SharesFile settings start input u.input ∧ u.Yields machine o last ∧ last ≠ []
    ∧ (∀ v ∈ after, SharesFile settings start input v.input → v.Yields machine o [])
    ∧ ∃ content, FileTree.encode? last = some content
      ∧ final.read (target settings input) = .ok content

/-- **What is left of the code of an input.** In a successful run that writes plain code every input
has its turn, and when its library is not empty its file holds the code of the last such library
that goes there. -/
theorem read_after_success (hfiles : settings.toStdout = false) (hplain : settings.format = false)
    (hzero : (runWith settings tree machine).2 = .exit 0) :
    ∃ o start, Starts settings machine tree o start
      ∧ (turns settings o machine start settings.inputs).map Turn.input = settings.inputs
      ∧ ∀ t ∈ turns settings o machine start settings.inputs, ∀ code, t.Yields machine o code →
        code ≠ [] → HoldsLast settings machine o start (runWith settings tree machine).1.tree
          (turns settings o machine start settings.inputs) t.input := by
  rcases exists_starts_or settings machine tree with ⟨e, hoptions⟩ | ⟨f, hf, hoptions⟩
    | ⟨o, f, hoptions, houtput⟩ | ⟨o, start, hstarts⟩
  · cases (runWith_of_reported hoptions).2.2.symm.trans hzero
  · cases (runWith_of_fault hoptions hf).symm.trans hzero
  · cases (runWith_of_unprepared hoptions houtput).symm.trans hzero
  obtain ⟨s, rfl, -, hrun⟩ := runWith_of_starts hstarts
  rw [hrun] at hzero ⊢
  have hpasses : ∀ t ∈ turns settings o machine s.tree settings.inputs,
      ∀ e, ¬ t.EndsWith settings o machine e := by
    rcases (processInputs_ending_iff s settings.inputs _).1 hzero with ⟨t, -, hends⟩ | ⟨-, h⟩
    · exact absurd hends not_endsWith_zero
    · exact h
  refine ⟨o, s.tree, hstarts, map_input_turns hpasses, fun t ht code hyields hcode => ?_⟩
  obtain ⟨l, hwrites⟩ := Turn.exists_writes hfiles (hpasses t ht) hyields hcode
  have hlocated := (turns_sameDirectories ht).locate_eq_ok_iff.1 hwrites.located
  obtain ⟨before, u, after, hturns, hlast, hlater, hlookup⟩ :=
    exists_last_writer ⟨t, ht, hwrites⟩
  have hmem : ∀ v ∈ u :: after, v ∈ turns settings o machine s.tree settings.inputs := by
    intro v hv
    rw [hturns]
    exact List.mem_append_right before hv
  have hu := hmem u List.mem_cons_self
  obtain ⟨last, hverdict, hlibrary⟩ := Turn.exists_text (hpasses u hu)
  have hne := hlast.code
  have hencode := hlast.encode?_eq (hpasses u hu)
  rw [formattedText_of_plain machine hplain] at hencode hlookup
  rw [hverdict] at hencode hlookup hne
  refine ⟨before, u, after, last, hturns, ?_, hlibrary, hne, ?_, ?_⟩
  · exact ⟨l, hlocated, (turns_sameDirectories hu).locate_eq_ok_iff.1 hlast.located⟩
  · -- another library behind the last one would be written into the same file
    rintro v hv ⟨m, hm, hshared⟩
    have hmemv := hmem v (List.mem_cons_of_mem u hv)
    obtain ⟨other, -, hother⟩ := Turn.exists_text (hpasses v hmemv)
    by_cases hempty : other = []
    · rwa [hempty] at hother
    · obtain ⟨k, hwritesv⟩ := Turn.exists_writes hfiles (hpasses v hmemv) hother hempty
      have hk := (turns_sameDirectories hmemv).locate_eq_ok_iff.1 hwritesv.located
      rw [hshared] at hk
      rw [hlocated] at hm
      cases hm
      cases hk
      exact absurd hwritesv (hlater v hv)
  · have hdirectories : FileTree.SameDirectories s.tree
        (processInputs settings o machine s settings.inputs).1.tree :=
      processInputs_sameDirectories s settings.inputs
    exact ⟨_, hencode,
      FileTree.read_eq_ok_iff.2 ⟨l, hdirectories.locate_eq_ok_iff.2 hlocated, hlookup⟩⟩

/-! ## Two inputs with one file -/

/-- A document with an annotated class of the name, which has no methods. -/
def documentOf (name : String) : Chars :=
  s!"[\x7b\"name\": \"{name}\", \"annotation\": \x7b\x7d\x7d]".toList

/-- The data of that document. -/
def dataOf (name : String) : Json :=
  .arr [.obj [("name".toText, .str name.toText), ("annotation".toText, .obj [])]]

/-- The class that it declares. -/
def declarationOf (name : String) (path : Path) : Declaration :=
  { name := .str name.toText, envelope := some {}, sourceFile := .str (.ofChars path.toChars) }

/-- The code of its library. -/
def codeOf (name : String) : Text :=
  Library.textOf none [Implementation.classText .standard (.str name.toText) []]

theorem codeOf_ne_nil (name : String) : codeOf name ≠ [] :=
  List.cons_ne_nil _ _

theorem library_of_document {path : Path} {name : String}
    (hsuffix : path.suffix = Loading.documentSuffix) (hnull : Chars.hasNull path.toChars = false)
    (hread : tree.read path = .ok (FileTree.bytesOf (documentOf name)))
    (hline : '\r' ∉ documentOf name)
    (hparse : Json.parse Stack.unbounded.holdsNested (.ofChars (documentOf name))
      = .ok (dataOf name))
    (hdata : Declaration.ofData (dataOf name) (.str (.ofChars path.toChars))
      = .ok [declarationOf name path]) :
    (Loading.library .unbounded tree path .standard).result = .ok (codeOf name) := by
  have hopened : Loading.decodeContent path.toChars (tree.read path)
      = .ok (.ok (.ofChars (documentOf name))) := by
    rw [hread]
    simp [Loading.decodeContent, hnull, FileTree.decode_bytesOf hline, Except.map]
  have hvalue : Loading.parseContent .unbounded path.toChars (tree.read path)
      = .ok (.ok (dataOf name)) := by
    rw [Loading.parseContent, hopened]
    simp only [bind, Except.bind, hparse]
    rfl
  have hdocument : (Loading.document .unbounded tree path).result
      = .ok [declarationOf name path] := by
    rw [Loading.document, Report.result_bind, Report.result_lift, hvalue]
    show (Declaration.load _ _).result = _
    rw [result_load]
    exact hdata
  rw [Loading.library, Report.result_bind, Loading.result_input, if_pos hsuffix, hdocument]
  show (Library.generate [declarationOf name path] none .standard).result = _
  simp only [Library.result_generate, List.mapM_cons, List.mapM_nil,
    Implementation.result_forAnnotated]
  rfl

/-- Two directories with a file of one name, whose contents differ. -/
def sharedStem : FileTree :=
  (((FileTree.empty []).put ["x".toList] .directory).put ["y".toList] .directory).put
    ["x".toList, "a.json".toList] (.file (FileTree.bytesOf (documentOf "A"))) |>.put
    ["y".toList, "a.json".toList] (.file (FileTree.bytesOf (documentOf "B")))

/-- The settings of a run over both files, with one directory for the code. -/
def sharedSettings : Settings :=
  { inputs := ["x/a.json".toList, "y/a.json".toList], outputDir := some ".".toList }

/-- The files when the turn of the second one comes. -/
def sharedAfter : FileTree :=
  sharedStem.put ["a.g.dart".toList] (.file (FileTree.contentOf (codeOf "A")))

theorem starts_shared : Starts sharedSettings bareMachine sharedStem .standard sharedStem :=
  ⟨rfl, rfl⟩

theorem yields_first :
    Turn.Yields bareMachine .standard ⟨"x/a.json".toList, sharedStem⟩ (codeOf "A") :=
  library_of_document (by decide) (by decide) rfl (by decide) (by cbv) rfl

theorem yields_second :
    Turn.Yields bareMachine .standard ⟨"y/a.json".toList, sharedAfter⟩ (codeOf "B") :=
  library_of_document (by decide) (by decide) rfl (by decide) (by cbv) rfl

theorem verdict_first :
    verdict bareMachine sharedStem .standard "x/a.json".toList = .text (codeOf "A") :=
  verdict_eq_text_iff.2 ⟨rfl, yields_first⟩

theorem verdict_second :
    verdict bareMachine sharedAfter .standard "y/a.json".toList = .text (codeOf "B") :=
  verdict_eq_text_iff.2 ⟨rfl, yields_second⟩

theorem writes_first :
    Turn.Writes sharedSettings .standard bareMachine ⟨"x/a.json".toList, sharedStem⟩
      ["a.g.dart".toList] := by
  have hnone : sharedStem.lookup? ["a.g.dart".toList] = none := rfl
  exact .of_text rfl verdict_first (codeOf_ne_nil "A") rfl (hnone.trans_ne nofun)

theorem writes_second :
    Turn.Writes sharedSettings .standard bareMachine ⟨"y/a.json".toList, sharedAfter⟩
      ["a.g.dart".toList] := by
  have hfile : sharedAfter.lookup? ["a.g.dart".toList]
      = some (.file (FileTree.contentOf (codeOf "A"))) := rfl
  exact .of_text rfl verdict_second (codeOf_ne_nil "B") rfl (hfile.trans_ne nofun)

theorem code_first :
    formattedText sharedSettings bareMachine
      (verdict bareMachine sharedStem .standard "x/a.json".toList).code = codeOf "A" := by
  rw [formattedText_of_plain _ rfl, verdict_first]
  rfl

theorem code_second :
    formattedText sharedSettings bareMachine
      (verdict bareMachine sharedAfter .standard "y/a.json".toList).code = codeOf "B" := by
  rw [formattedText_of_plain _ rfl, verdict_second]
  rfl

/-- Both codes can be written. -/
theorem isSome_chars?_codes :
    (codeOf "A").chars?.isSome = true ∧ (codeOf "B").chars?.isSome = true := by
  decide +kernel

theorem turns_shared :
    turns sharedSettings .standard bareMachine sharedStem sharedSettings.inputs
      = [⟨"x/a.json".toList, sharedStem⟩, ⟨"y/a.json".toList, sharedAfter⟩] := by
  obtain ⟨hcode, hlater⟩ := isSome_chars?_codes
  rw [← code_first] at hcode
  rw [← code_second] at hlater
  have hfirst : turns sharedSettings .standard bareMachine sharedStem sharedSettings.inputs = _ :=
    turns_of_writes writes_first hcode _
  have hsecond : turns sharedSettings .standard bareMachine sharedAfter ["y/a.json".toList] = _ :=
    turns_of_writes writes_second hlater _
  rw [code_first] at hfirst
  exact hfirst.trans (congrArg _ hsecond)

theorem mem_second : ⟨"y/a.json".toList, sharedAfter⟩
    ∈ turns sharedSettings .standard bareMachine sharedStem sharedSettings.inputs := by
  rw [turns_shared]
  exact List.mem_cons_of_mem _ List.mem_cons_self

theorem runWith_shared : (runWith sharedSettings sharedStem bareMachine).2 = .exit 0 := by
  obtain ⟨s, hs, -, hrun⟩ := runWith_of_starts starts_shared
  rw [hrun, processInputs_ending_iff, hs, turns_shared]
  refine .inr ⟨rfl, fun t ht => ?_⟩
  obtain ⟨hcode, hlater⟩ := isSome_chars?_codes
  rw [← code_first] at hcode
  rw [← code_second] at hlater
  rcases List.mem_pair.1 ht with rfl | rfl
  · exact writes_first.not_endsWith hcode
  · exact writes_second.not_endsWith hlater

theorem read_shared :
    (runWith sharedSettings sharedStem bareMachine).1.tree.read
      (target sharedSettings "x/a.json".toList) = .ok (FileTree.contentOf (codeOf "B")) := by
  obtain ⟨s, hs, -, hrun⟩ := runWith_of_starts starts_shared
  have hturns := turns_shared
  rw [← hs] at hturns
  have hlookup := lookup?_of_last_writes [_] hturns writes_second
  rw [code_second] at hlookup
  have hdirectories : FileTree.SameDirectories s.tree
      (processInputs sharedSettings .standard bareMachine s sharedSettings.inputs).1.tree :=
    processInputs_sameDirectories s sharedSettings.inputs
  have hlocated := (turns_sameDirectories mem_second).locate_eq_ok_iff.1 writes_second.located
  rw [← hs] at hlocated
  have htarget : target sharedSettings "x/a.json".toList
      = target sharedSettings "y/a.json".toList :=
    target_eq_of_stem (by decide) (.inl ⟨_, rfl, by decide⟩)
  rw [hrun, htarget]
  exact FileTree.read_eq_ok_iff.2 ⟨_, hdirectories.locate_eq_ok_iff.2 hlocated, hlookup⟩

/-- Both inputs go into one file, which holds the code of the second. -/
theorem read_after_success_shared :
    HoldsLast sharedSettings bareMachine .standard sharedStem
      (runWith sharedSettings sharedStem bareMachine).1.tree
      (turns sharedSettings .standard bareMachine sharedStem sharedSettings.inputs)
      "x/a.json".toList := by
  obtain ⟨o, start, hstarts, -, hholds⟩ := read_after_success rfl rfl runWith_shared
  obtain rfl : o = .standard :=
    Except.ok.inj (hstarts.options.symm.trans starts_shared.options)
  obtain rfl : start = sharedStem :=
    Except.ok.inj (hstarts.output.symm.trans starts_shared.output)
  exact hholds ⟨"x/a.json".toList, sharedStem⟩ (mem_turns_cons ..) (codeOf "A") yields_first
    (codeOf_ne_nil "A")

/-- The code of the first is lost. -/
theorem run_shared :
    ∃ outcome, run (["-o", ".", "x/a.json", "y/a.json"].map String.toList) sharedStem bareMachine
        = .ok outcome
      ∧ outcome.ending = .exit 0
      ∧ (Loading.library .unbounded sharedStem (Path.parse "x/a.json".toList) .standard).result
        = .ok (codeOf "A") ∧ codeOf "A" ≠ []
      ∧ outcome.tree.read (target sharedSettings "x/a.json".toList)
        ≠ .ok (FileTree.contentOf (codeOf "A")) := by
  have hread : Arguments.read (["-o", ".", "x/a.json", "y/a.json"].map String.toList)
      = .ok sharedSettings := rfl
  obtain ⟨outcome, hrun, htree, -, hending⟩ := exists_run hread sharedStem bareMachine
  refine ⟨outcome, hrun, hending.trans runWith_shared, yields_first, codeOf_ne_nil "A", ?_⟩
  rw [htree, read_shared]
  intro heq
  obtain ⟨hcode, hlater⟩ := isSome_chars?_codes
  have hcodes := FileTree.encode?_injective (FileTree.encode?_eq_contentOf hlater)
    ((FileTree.encode?_eq_contentOf hcode).trans (congrArg some (Except.ok.inj heq).symm))
  have hends := List.append_cancel_left hcodes
  revert hends
  decide +kernel

end CommandLine

end DartDecoders
