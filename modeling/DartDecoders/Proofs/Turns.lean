/-
The turns of a run.

Whatever records a run writes, what an input does is decided by the files as they are when its turn
comes: it is refused, a fault strays from it, or it has the text of a library (`verdict`). `effect`
is a turn without its records, and `processInput_effect` says that the run takes such turns. The
turns of a run are its inputs up to the first that ends it, each with the files as they are then
(`turns`). How a run ends, which files it writes and what it prints are each known from its turns:
the ending is that of the last one (`processInputs_ending_iff`), a file that no turn writes stays as
it was and any other holds what the last turn that writes it has given it (`lookup?_processInputs`
and `exists_last_writer`), and what is printed is what the turns print, one after the other.
-/
import Mathlib.Data.List.Basic
import DartDecoders.CommandLine
import DartDecoders.Proofs.Directories
import DartDecoders.Proofs.Faults

set_option autoImplicit false

namespace DartDecoders

namespace CommandLine

/-! ## What an input comes to -/

/-- What an input comes to with the files as they are. -/
inductive Verdict where
  /-- There is no such input, or an error about it is reported. -/
  | refused
  /-- A fault that is not reported. -/
  | stray (f : Fault)
  /-- The text of its library. -/
  | text (code : Text)

/-- The verdict on an input. -/
def verdict (machine : Machine) (tree : FileTree) (o : Options) (input : Chars) : Verdict :=
  let path := Path.parse input
  match tree.isThere path with
  | .error cause => .stray (.system ⟨cause, path.toChars⟩)
  | .ok false => .refused
  | .ok true =>
    match (Loading.library machine.stack tree path o).result with
    | .error (.reported _) => .refused
    | .error f => .stray f
    | .ok code => .text code

/-- The library text of a verdict, empty when there is none. -/
def Verdict.code : Verdict → Text
  | .text code => code
  | _ => []

/-- The file for the code of an input. -/
def target (settings : Settings) (input : Chars) : Path :=
  outputPath (Path.parse input) settings.outputDir

/-- The code of a library as it is printed or written. -/
def formattedText (settings : Settings) (machine : Machine) (code : Text) : Text :=
  match (formatted settings machine code).result with
  | .ok t => t
  | .error _ => code

/-- What a turn changes: the files, what is printed, and the ending when it ends the run. -/
structure Effect where
  tree : FileTree
  printed : Chars
  ending : Option Ending

/-- How a turn ends the run when it has text to print or to write: text with a surrogate can be
neither. -/
def endingOf (out : Text) : Option Ending :=
  match out.chars? with
  | some _ => none
  | none => some (.escaped .unencodable)

theorem endingOf_eq_some_iff {out : Text} {e : Ending} :
    endingOf out = some e ↔ out.chars? = none ∧ e = .escaped .unencodable := by
  unfold endingOf
  cases out.chars? <;> simp [eq_comm]

theorem endingOf_eq_none {out : Text} (h : out.chars?.isSome = true) : endingOf out = none := by
  obtain ⟨cs, hcs⟩ := Option.isSome_iff_exists.1 h
  rw [endingOf, hcs]

/-- A turn without its records. -/
def effect (settings : Settings) (o : Options) (machine : Machine) (tree : FileTree)
    (input : Chars) : Effect :=
  match verdict machine tree o input with
  | .refused => ⟨tree, [], some (.exit 1)⟩
  | .stray f => ⟨tree, [], some (.escaped f)⟩
  | .text [] => ⟨tree, [], none⟩
  | .text code =>
    let out := formattedText settings machine code
    if settings.toStdout then ⟨tree, out.chars?.getD [], endingOf out⟩
    else
      match tree.write (target settings input) (FileTree.contentOf out) with
      | .ok new => ⟨new, [], endingOf out⟩
      | .error cause =>
        ⟨tree, [], some (.escaped (.system ⟨cause, (target settings input).toChars⟩))⟩

section

variable {α : Type} {s : Session} {lead : Text} {computation : Report α}

theorem settle_ok {a : α} (h : computation.result = .ok a) :
    settle s lead computation = ({ s with log := s.log ++ computation.log }, .ok a) := by
  unfold settle
  rw [h]

theorem settle_reported {e : GenerationError} (h : computation.result = .error (.reported e)) :
    settle s lead computation
      = (Session.note { s with log := s.log ++ computation.log } .error (lead ++ e.message),
        .error (.exit 1)) := by
  unfold settle
  rw [h]

theorem settle_fault {f : Fault} (h : computation.result = .error f) (hf : IsStray f) :
    settle s lead computation
      = ({ s with log := s.log ++ computation.log }, .error (.escaped f)) := by
  unfold settle
  rw [h]
  split
  · next heq => cases heq
  · next heq =>
      cases heq
      exact absurd rfl (hf _)
  · next heq =>
      cases heq
      rfl

end

variable (settings : Settings) (o : Options) (machine : Machine)

/-- Formatting never fails: code that cannot be formatted stays as it is. -/
theorem exists_format (toolchain : Toolchain) (executable : Option Chars) (code : Text) :
    ∃ outcome, (Formatter.format toolchain executable code).result = .ok outcome := by
  unfold Formatter.format
  dsimp only
  split
  · exact ⟨_, rfl⟩
  · split
    · exact ⟨_, rfl⟩
    · exact ⟨_, rfl⟩
    · exact ⟨_, rfl⟩

theorem result_formatted (code : Text) :
    (formatted settings machine code).result
      = .ok (formattedText settings machine code) := by
  have hformatted : ∃ t, (formatted settings machine code).result = .ok t := by
    unfold formatted
    split
    · obtain ⟨outcome, houtcome⟩ := exists_format machine.toolchain none code
      exact ⟨outcome.code, by rw [Report.result_bind, houtcome]; rfl⟩
    · exact ⟨code, rfl⟩
  obtain ⟨t, ht⟩ := hformatted
  rw [formattedText, ht]

/-- Without the formatter the code is printed or written as it is. -/
theorem formattedText_of_plain {settings : Settings} (h : settings.format = false)
    (code : Text) : formattedText settings machine code = code := by
  rw [formattedText, formatted, h]
  rfl

/-- A turn of a run changes what its effect says. -/
theorem processInput_effect (s : Session) (input : Chars) :
    (processInput settings o machine s input).1.tree
        = (effect settings o machine s.tree input).tree
      ∧ (processInput settings o machine s input).1.stdout
        = s.stdout ++ (effect settings o machine s.tree input).printed
      ∧ (processInput settings o machine s input).2
        = (effect settings o machine s.tree input).ending := by
  -- the cases are those of an input: not reached, missing, without a library, without code, and
  -- with code that is printed or written; records are all that tells the two sides apart
  unfold processInput effect verdict
  dsimp only
  cases hthere : s.tree.isThere (Path.parse input) with
  | error cause => simp
  | ok there =>
      cases there with
      | false => simp [Session.note]
      | true =>
          cases hlibrary : (Loading.library machine.stack s.tree (Path.parse input) o).result with
          | error f =>
              cases f with
              | reported e => simp [settle_reported hlibrary, Session.note]
              | _ => simp [settle_fault hlibrary nofun]
          | ok code =>
              rw [settle_ok hlibrary]
              cases code with
              | nil => simp [Session.note]
              | cons c rest =>
                  dsimp only
                  rw [settle_ok (result_formatted settings machine (c :: rest))]
                  unfold deliver
                  dsimp only
                  unfold endingOf
                  by_cases hprint : settings.toStdout = true
                  · simp only [hprint, if_true]
                    cases (formattedText settings machine (c :: rest)).chars? <;> simp
                  · simp only [hprint, target]
                    cases s.tree.write (outputPath (Path.parse input) settings.outputDir)
                        (FileTree.contentOf (formattedText settings machine (c :: rest))) with
                    | error cause => simp
                    | ok tree =>
                        cases (formattedText settings machine (c :: rest)).chars? <;>
                          simp [Session.note]

/-! ## Turns -/

/-- An input with the files as they are when its turn comes. -/
structure Turn where
  input : Chars
  tree : FileTree

/-- The turns of a run, up to the input that ends it. -/
def turns : FileTree → List Chars → List Turn
  | _, [] => []
  | tree, input :: rest =>
    ⟨input, tree⟩ :: match (effect settings o machine tree input).ending with
      | some _ => []
      | none => turns (effect settings o machine tree input).tree rest

/-- How a turn ends the run: its input is refused, a fault strays from it, its file cannot be
written, or there is a surrogate in the code that is to be printed or written. -/
inductive Turn.EndsWith (t : Turn) : Ending → Prop
  | refused : verdict machine t.tree o t.input = .refused → t.EndsWith (.exit 1)
  | stray {f : Fault} : verdict machine t.tree o t.input = .stray f → t.EndsWith (.escaped f)
  | unwritable {code out : Text} {cause : SystemCause} :
    verdict machine t.tree o t.input = .text code → code ≠ [] → settings.toStdout = false →
    out = formattedText settings machine code →
    t.tree.write (target settings t.input) (FileTree.contentOf out) = .error cause →
    t.EndsWith (.escaped (.system ⟨cause, (target settings t.input).toChars⟩))
  | unencodable {code out : Text} :
    verdict machine t.tree o t.input = .text code → code ≠ [] →
    out = formattedText settings machine code → out.chars? = none →
    (settings.toStdout = false →
      ∃ new, t.tree.write (target settings t.input) (FileTree.contentOf out) = .ok new) →
    t.EndsWith (.escaped .unencodable)

/-- A turn writes the file at a location: it is where its code goes, and no directory is there. -/
structure Turn.Writes (t : Turn) (l : Location) : Prop where
  files : settings.toStdout = false
  code : (verdict machine t.tree o t.input).code ≠ []
  located : t.tree.locate (target settings t.input) = .ok l
  free : t.tree.lookup? l ≠ some .directory

variable {settings o machine}

/-- The ending of a turn is one of its effect. -/
theorem effect_ending_iff {tree : FileTree} {input : Chars} {e : Ending} :
    (effect settings o machine tree input).ending = some e
      ↔ Turn.EndsWith settings o machine ⟨input, tree⟩ e := by
  constructor
  · intro h
    unfold effect at h
    split at h
    · next hverdict =>
        cases h
        exact .refused hverdict
    · next f hverdict =>
        cases h
        exact .stray hverdict
    · cases h
    · next code hcode hverdict =>
        have hne : code ≠ [] := by simpa using hcode
        dsimp only at h
        split at h
        · next hprint =>
            obtain ⟨hnone, rfl⟩ := endingOf_eq_some_iff.1 h
            refine .unencodable hverdict hne rfl hnone fun hfiles => ?_
            cases hfiles.symm.trans hprint
        · next hfiles =>
            split at h
            · next new hwrite =>
                obtain ⟨hnone, rfl⟩ := endingOf_eq_some_iff.1 h
                exact .unencodable hverdict hne rfl hnone fun _ => ⟨new, hwrite⟩
            · next cause hwrite =>
                cases h
                exact .unwritable hverdict hne (by simpa using hfiles) rfl hwrite
  · intro h
    unfold effect
    cases h with
    | refused hverdict => rw [hverdict]
    | stray hverdict => rw [hverdict]
    | @unwritable code out cause hverdict hcode hfiles hout hwrite =>
        obtain ⟨c, rest, rfl⟩ := List.exists_cons_of_ne_nil hcode
        subst hout
        rw [hverdict]
        dsimp only at hwrite ⊢
        rw [hfiles, hwrite]
        rfl
    | @unencodable code out hverdict hcode hout hnone hopens =>
        obtain ⟨c, rest, rfl⟩ := List.exists_cons_of_ne_nil hcode
        subst hout
        have hending := endingOf_eq_some_iff.2 ⟨hnone, rfl⟩
        rw [hverdict]
        dsimp only at hopens ⊢
        cases hprint : settings.toStdout with
        | true => exact hending
        | false =>
            obtain ⟨new, hwrite⟩ := hopens hprint
            rw [hwrite]
            exact hending

/-- No turn ends the run with the code for success. -/
theorem not_endsWith_zero {t : Turn} : ¬ t.EndsWith settings o machine (.exit 0) := by
  intro h
  cases h

/-! ## Files -/

/-- A library that is not empty is written where its file is to be, unless a directory is there. -/
theorem Turn.Writes.of_text {t : Turn} {code : Text} {l : Location}
    (hfiles : settings.toStdout = false) (hverdict : verdict machine t.tree o t.input = .text code)
    (hcode : code ≠ []) (hlocated : t.tree.locate (target settings t.input) = .ok l)
    (hfree : t.tree.lookup? l ≠ some .directory) : t.Writes settings o machine l := by
  refine ⟨hfiles, ?_, hlocated, hfree⟩
  rw [hverdict]
  exact hcode

/-- The code of a turn goes into its file. -/
theorem effect_of_writes {tree : FileTree} {input : Chars} {l : Location}
    (h : Turn.Writes settings o machine ⟨input, tree⟩ l) :
    effect settings o machine tree input
      = ⟨tree.put l (.file (FileTree.contentOf
          (formattedText settings machine (verdict machine tree o input).code))), [],
        endingOf (formattedText settings machine (verdict machine tree o input).code)⟩ := by
  obtain ⟨hfiles, hcode, hlocated, hfree⟩ := h
  have hwrite : ∀ content, tree.write (target settings input) content
      = .ok (tree.put l (.file content)) := fun content =>
    FileTree.write_eq_ok_iff.2 ⟨l, hlocated, hfree, rfl⟩
  dsimp only at hcode
  unfold effect
  cases hverdict : verdict machine tree o input with
  | refused => simp [hverdict, Verdict.code] at hcode
  | stray f => simp [hverdict, Verdict.code] at hcode
  | text code =>
      rw [hverdict] at hcode
      obtain ⟨c, rest, rfl⟩ := List.exists_cons_of_ne_nil hcode
      simp only [hfiles, hwrite]
      rfl

/-- A turn that writes its file does not end the run when its code can be written. -/
theorem Turn.Writes.not_endsWith {t : Turn} {l : Location} (h : t.Writes settings o machine l)
    (hcode : (formattedText settings machine
      (verdict machine t.tree o t.input).code).chars?.isSome = true) (e : Ending) :
    ¬ t.EndsWith settings o machine e := by
  intro hends
  have hending := effect_ending_iff.2 hends
  rw [effect_of_writes h, endingOf_eq_none hcode] at hending
  cases hending

/-- What a turn writes that does not end the run is its code. -/
theorem Turn.Writes.encode?_eq {t : Turn} {l : Location} (h : t.Writes settings o machine l)
    (hpasses : ∀ e, ¬ t.EndsWith settings o machine e) :
    FileTree.encode? (formattedText settings machine (verdict machine t.tree o t.input).code)
      = some (FileTree.contentOf
        (formattedText settings machine (verdict machine t.tree o t.input).code)) := by
  cases hchars :
      (formattedText settings machine (verdict machine t.tree o t.input).code).chars? with
  | some cs => exact FileTree.encode?_eq_contentOf (Option.isSome_iff_exists.2 ⟨cs, hchars⟩)
  | none =>
      -- its file would be opened and left empty
      have hending : (effect settings o machine t.tree t.input).ending
          = some (.escaped .unencodable) := by
        rw [effect_of_writes h]
        exact endingOf_eq_some_iff.2 ⟨hchars, rfl⟩
      exact absurd (effect_ending_iff.1 hending) (hpasses _)

/-- A turn that writes no file leaves all files as they are. -/
theorem effect_tree_of_not_writes {tree : FileTree} {input : Chars}
    (h : ∀ l, ¬ Turn.Writes settings o machine ⟨input, tree⟩ l) :
    (effect settings o machine tree input).tree = tree := by
  unfold effect
  split
  · rfl
  · rfl
  · rfl
  · next code hcode hverdict =>
      dsimp only
      split
      · rfl
      · next hfiles =>
          split
          · next new hwrite =>
              obtain ⟨l, hlocated, hfree, -⟩ := FileTree.write_eq_ok_iff.1 hwrite
              have hwrites : Turn.Writes settings o machine ⟨input, tree⟩ l :=
                .of_text (by simpa using hfiles) hverdict hcode hlocated hfree
              exact absurd hwrites (h l)
          · rfl

/-- A file that a turn does not write stays as it is. -/
theorem lookup?_effect_of_not_writes {tree : FileTree} {input : Chars} {l : Location}
    (h : ¬ Turn.Writes settings o machine ⟨input, tree⟩ l) :
    (effect settings o machine tree input).tree.lookup? l = tree.lookup? l := by
  by_cases hwrites : ∃ m, Turn.Writes settings o machine ⟨input, tree⟩ m
  · obtain ⟨m, hm⟩ := hwrites
    have hne : l ≠ m := by
      rintro rfl
      exact h hm
    rw [effect_of_writes hm]
    exact FileTree.lookup?_put_of_ne _ _ hne
  · rw [effect_tree_of_not_writes (not_exists.1 hwrites)]

theorem lookup?_effect_of_writes {tree : FileTree} {input : Chars} {l : Location}
    (h : Turn.Writes settings o machine ⟨input, tree⟩ l) :
    (effect settings o machine tree input).tree.lookup? l = some (.file (FileTree.contentOf
      (formattedText settings machine (verdict machine tree o input).code))) := by
  rw [effect_of_writes h]
  exact FileTree.lookup?_put_self _ _ _ (FileTree.ne_nil_of_lookup? h.free)

/-- No turn makes a directory or removes one. -/
theorem sameDirectories_effect (tree : FileTree) (input : Chars) :
    FileTree.SameDirectories tree (effect settings o machine tree input).tree := by
  by_cases hwrites : ∃ m, Turn.Writes settings o machine ⟨input, tree⟩ m
  · obtain ⟨m, hm⟩ := hwrites
    rw [effect_of_writes hm]
    exact FileTree.sameDirectories_put hm.free _
  · rw [effect_tree_of_not_writes (not_exists.1 hwrites)]
    exact .refl tree

/-! ## Runs -/

theorem turns_of_ends {tree : FileTree} {input : Chars} {e : Ending}
    (h : (effect settings o machine tree input).ending = some e) (rest : List Chars) :
    turns settings o machine tree (input :: rest) = [⟨input, tree⟩] := by
  rw [turns, h]

theorem turns_of_passes {tree : FileTree} {input : Chars}
    (h : (effect settings o machine tree input).ending = none) (rest : List Chars) :
    turns settings o machine tree (input :: rest) = ⟨input, tree⟩
      :: turns settings o machine (effect settings o machine tree input).tree rest := by
  rw [turns, h]

theorem turns_of_writes {tree : FileTree} {input : Chars} {l : Location}
    (h : Turn.Writes settings o machine ⟨input, tree⟩ l)
    (hcode : (formattedText settings machine
      (verdict machine tree o input).code).chars?.isSome = true) (rest : List Chars) :
    turns settings o machine tree (input :: rest) = ⟨input, tree⟩
      :: turns settings o machine (tree.put l (.file (FileTree.contentOf
        (formattedText settings machine (verdict machine tree o input).code)))) rest := by
  rw [turns, effect_of_writes h, endingOf_eq_none hcode]

/-- The first input has its turn with the files as they were. -/
theorem mem_turns_cons (tree : FileTree) (input : Chars) (rest : List Chars) :
    ⟨input, tree⟩ ∈ turns settings o machine tree (input :: rest) := by
  rw [turns]
  exact List.mem_cons_self

theorem mem_turns_of_eq {tree : FileTree} {inputs : List Chars} {before after : List Turn}
    {t : Turn} (h : turns settings o machine tree inputs = before ++ t :: after) :
    t ∈ turns settings o machine tree inputs := by
  rw [h]
  exact List.mem_append_right before List.mem_cons_self

/-- A turn that ends the run is its last one. -/
theorem processInputs_of_ends {s : Session} {input : Chars} {e : Ending}
    (h : (effect settings o machine s.tree input).ending = some e) (rest : List Chars) :
    processInputs settings o machine s (input :: rest)
      = ((processInput settings o machine s input).1, e) := by
  obtain ⟨-, -, hending⟩ := processInput_effect settings o machine s input
  rw [h] at hending
  rw [processInputs]
  split
  · next s' e' heq =>
      rw [heq] at hending ⊢
      cases hending
      rfl
  · next s' heq =>
      rw [heq] at hending
      cases hending

/-- After any other turn the run goes on. -/
theorem processInputs_of_passes {s : Session} {input : Chars}
    (h : (effect settings o machine s.tree input).ending = none) (rest : List Chars) :
    processInputs settings o machine s (input :: rest)
      = processInputs settings o machine (processInput settings o machine s input).1 rest := by
  obtain ⟨-, -, hending⟩ := processInput_effect settings o machine s input
  rw [h] at hending
  rw [processInputs]
  split
  · next s' e' heq =>
      rw [heq] at hending
      cases hending
  · next s' heq => rw [heq]

/-- The turns of a run are those of its first inputs. -/
theorem prefix_map_input_turns (tree : FileTree) (inputs : List Chars) :
    (turns settings o machine tree inputs).map Turn.input <+: inputs := by
  induction inputs generalizing tree with
  | nil => exact List.prefix_rfl
  | cons input rest ih =>
      cases hending : (effect settings o machine tree input).ending with
      | some e =>
          rw [turns_of_ends hending]
          exact ⟨rest, rfl⟩
      | none =>
          rw [turns_of_passes hending, List.map_cons]
          exact (List.prefix_cons_inj input).2 (ih _)

/-- Either all inputs have turns that pass, or the last turn ends the run behind turns that pass. -/
theorem turns_cases (tree : FileTree) (inputs : List Chars) :
    ((turns settings o machine tree inputs).map Turn.input = inputs
        ∧ ∀ t ∈ turns settings o machine tree inputs, ∀ e, ¬ t.EndsWith settings o machine e)
      ∨ ∃ before t e, turns settings o machine tree inputs = before ++ [t]
        ∧ t.EndsWith settings o machine e
        ∧ ∀ u ∈ before, ∀ e', ¬ u.EndsWith settings o machine e' := by
  induction inputs generalizing tree with
  | nil => exact .inl ⟨rfl, by simp [turns]⟩
  | cons input rest ih =>
      cases hending : (effect settings o machine tree input).ending with
      | some e =>
          rw [turns_of_ends hending]
          exact .inr ⟨[], _, e, rfl, effect_ending_iff.1 hending, by simp⟩
      | none =>
          have hpasses : ∀ e, ¬ Turn.EndsWith settings o machine ⟨input, tree⟩ e := by
            intro e he
            cases hending.symm.trans (effect_ending_iff.2 he)
          rw [turns_of_passes hending]
          rcases ih (effect settings o machine tree input).tree with
            ⟨hinputs, hothers⟩ | ⟨before, t, e, hturns, hends, hbefore⟩
          · refine .inl ⟨?_, List.forall_mem_cons.2 ⟨hpasses, hothers⟩⟩
            rw [List.map_cons, hinputs]
          · refine .inr ⟨⟨input, tree⟩ :: before, t, e, ?_, hends, ?_⟩
            · rw [hturns, List.cons_append]
            · exact List.forall_mem_cons.2 ⟨hpasses, hbefore⟩

/-- A run in which no turn is the last one gets to all inputs. -/
theorem map_input_turns {tree : FileTree} {inputs : List Chars}
    (h : ∀ t ∈ turns settings o machine tree inputs, ∀ e, ¬ t.EndsWith settings o machine e) :
    (turns settings o machine tree inputs).map Turn.input = inputs := by
  rcases turns_cases tree inputs with ⟨hinputs, -⟩ | ⟨before, t, e, hturns, hends, -⟩
  · exact hinputs
  · exact absurd hends (h t (mem_turns_of_eq hturns) e)

/-- **The ending of a run is that of a turn.** A run ends as one of its turns does, or with the code
for success when none of them ends it. -/
theorem processInputs_ending_iff (s : Session) (inputs : List Chars) (e : Ending) :
    (processInputs settings o machine s inputs).2 = e
      ↔ (∃ t ∈ turns settings o machine s.tree inputs, t.EndsWith settings o machine e)
        ∨ e = .exit 0 ∧ ∀ t ∈ turns settings o machine s.tree inputs, ∀ e',
          ¬ t.EndsWith settings o machine e' := by
  induction inputs generalizing s with
  | nil => simp [processInputs, turns, eq_comm]
  | cons input rest ih =>
      obtain ⟨htree, -, -⟩ := processInput_effect settings o machine s input
      cases hending : (effect settings o machine s.tree input).ending with
      | some first =>
          have hfirst := effect_ending_iff.1 hending
          rw [processInputs_of_ends hending, turns_of_ends hending]
          simp only [List.mem_singleton, exists_eq_left, forall_eq]
          constructor
          · rintro rfl
            exact .inl hfirst
          · rintro (h | ⟨-, h⟩)
            · have hboth := effect_ending_iff.2 h
              rw [hending] at hboth
              cases hboth
              rfl
            · exact absurd hfirst (h first)
      | none =>
          have hpasses : ∀ e', ¬ Turn.EndsWith settings o machine ⟨input, s.tree⟩ e' := by
            intro e' he'
            rw [effect_ending_iff.2 he'] at hending
            cases hending
          rw [processInputs_of_passes hending, turns_of_passes hending, ih, htree]
          simp only [List.exists_mem_cons_iff, List.forall_mem_cons, hpasses, false_or,
            not_false_eq_true, implies_true, true_and]

theorem processInputs_sameDirectories (s : Session) (inputs : List Chars) :
    FileTree.SameDirectories s.tree (processInputs settings o machine s inputs).1.tree := by
  induction inputs generalizing s with
  | nil => exact .refl s.tree
  | cons input rest ih =>
      obtain ⟨htree, -, -⟩ := processInput_effect settings o machine s input
      have hfirst : FileTree.SameDirectories s.tree
          (processInput settings o machine s input).1.tree := by
        rw [htree]
        exact sameDirectories_effect s.tree input
      cases hending : (effect settings o machine s.tree input).ending with
      | some e =>
          rw [processInputs_of_ends hending]
          exact hfirst
      | none =>
          rw [processInputs_of_passes hending]
          exact hfirst.trans (ih _)

/-- The directories are the same at every turn. -/
theorem turns_sameDirectories {tree : FileTree} {inputs : List Chars} {t : Turn}
    (h : t ∈ turns settings o machine tree inputs) :
    FileTree.SameDirectories tree t.tree := by
  induction inputs generalizing tree with
  | nil => cases h
  | cons input rest ih =>
      cases hending : (effect settings o machine tree input).ending with
      | some e =>
          rw [turns_of_ends hending, List.mem_singleton] at h
          subst h
          exact .refl tree
      | none =>
          rw [turns_of_passes hending] at h
          rcases List.mem_cons.1 h with rfl | h
          · exact .refl tree
          · exact (sameDirectories_effect tree input).trans (ih h)

/-- A file that no turn writes is the same at every turn. -/
theorem lookup?_turns {tree : FileTree} {inputs : List Chars} {l : Location} {t : Turn}
    (h : ∀ u ∈ turns settings o machine tree inputs, ¬ u.Writes settings o machine l)
    (ht : t ∈ turns settings o machine tree inputs) : t.tree.lookup? l = tree.lookup? l := by
  induction inputs generalizing tree with
  | nil => cases ht
  | cons input rest ih =>
      cases hending : (effect settings o machine tree input).ending with
      | some e =>
          rw [turns_of_ends hending, List.mem_singleton] at ht
          rw [ht]
      | none =>
          rw [turns_of_passes hending] at h ht
          obtain ⟨hfirst, hrest⟩ := List.forall_mem_cons.1 h
          rcases List.mem_cons.1 ht with rfl | ht
          · rfl
          · rw [ih hrest ht]
            exact lookup?_effect_of_not_writes hfirst

/-- A file that no turn writes is after the run what it was before. -/
theorem lookup?_processInputs {s : Session} {inputs : List Chars} {l : Location}
    (h : ∀ t ∈ turns settings o machine s.tree inputs, ¬ t.Writes settings o machine l) :
    (processInputs settings o machine s inputs).1.tree.lookup? l = s.tree.lookup? l := by
  induction inputs generalizing s with
  | nil => rfl
  | cons input rest ih =>
      obtain ⟨htree, -, -⟩ := processInput_effect settings o machine s input
      cases hending : (effect settings o machine s.tree input).ending with
      | some e =>
          rw [turns_of_ends hending] at h
          rw [processInputs_of_ends hending, htree]
          exact lookup?_effect_of_not_writes (h _ List.mem_cons_self)
      | none =>
          rw [turns_of_passes hending] at h
          obtain ⟨hfirst, hrest⟩ := List.forall_mem_cons.1 h
          rw [← htree] at hrest
          rw [processInputs_of_passes hending, ih hrest, htree]
          exact lookup?_effect_of_not_writes hfirst

/-- **The last turn that writes a file decides what is in it.** -/
theorem exists_last_writer {s : Session} {inputs : List Chars} {l : Location}
    (h : ∃ t ∈ turns settings o machine s.tree inputs, t.Writes settings o machine l) :
    ∃ before t after, turns settings o machine s.tree inputs = before ++ t :: after
      ∧ t.Writes settings o machine l ∧ (∀ u ∈ after, ¬ u.Writes settings o machine l)
      ∧ (processInputs settings o machine s inputs).1.tree.lookup? l
        = some (.file (FileTree.contentOf
          (formattedText settings machine (verdict machine t.tree o t.input).code))) := by
  induction inputs generalizing s with
  | nil =>
      obtain ⟨t, ht, -⟩ := h
      cases ht
  | cons input rest ih =>
      obtain ⟨htree, -, -⟩ := processInput_effect settings o machine s input
      cases hending : (effect settings o machine s.tree input).ending with
      | some e =>
          rw [turns_of_ends hending] at h ⊢
          obtain ⟨t, ht, hwrites⟩ := h
          rw [List.mem_singleton] at ht
          subst ht
          refine ⟨[], _, [], rfl, hwrites, by simp, ?_⟩
          rw [processInputs_of_ends hending, htree]
          exact lookup?_effect_of_writes hwrites
      | none =>
          rw [turns_of_passes hending, ← htree] at h ⊢
          rw [processInputs_of_passes hending]
          by_cases hlater : ∃ t ∈ turns settings o machine
              (processInput settings o machine s input).1.tree rest, t.Writes settings o machine l
          · obtain ⟨before, t, after, hturns, hlast⟩ := ih hlater
            exact ⟨⟨input, s.tree⟩ :: before, t, after, by rw [hturns]; rfl, hlast⟩
          -- no later turn writes the file, so it keeps what this one writes
          · obtain ⟨t, ht, hwrites⟩ := h
            have hnone : ∀ u ∈ turns settings o machine
                (processInput settings o machine s input).1.tree rest,
                ¬ u.Writes settings o machine l := fun u hu hw => hlater ⟨u, hu, hw⟩
            rcases List.mem_cons.1 ht with rfl | ht
            · refine ⟨[], _, _, rfl, hwrites, hnone, ?_⟩
              rw [lookup?_processInputs hnone, htree]
              exact lookup?_effect_of_writes hwrites
            · exact absurd hwrites (hnone t ht)

/-- What the last turn of all writes is there after the run. -/
theorem lookup?_of_last_writes {s : Session} {inputs : List Chars} (before : List Turn) {t : Turn}
    {l : Location} (hturns : turns settings o machine s.tree inputs = before ++ [t])
    (hwrites : t.Writes settings o machine l) :
    (processInputs settings o machine s inputs).1.tree.lookup? l
      = some (.file (FileTree.contentOf
        (formattedText settings machine (verdict machine t.tree o t.input).code))) := by
  obtain ⟨first, u, after, hsplit, -, hlater, hlookup⟩ :=
    exists_last_writer ⟨t, mem_turns_of_eq hturns, hwrites⟩
  rw [hturns] at hsplit
  rcases List.eq_nil_or_concat after with rfl | ⟨rest, v, rfl⟩
  · obtain ⟨-, hu⟩ := List.append_inj' hsplit rfl
    cases hu
    exact hlookup
  · rw [List.concat_eq_append] at hsplit hlater
    rw [← List.cons_append, ← List.append_assoc] at hsplit
    obtain ⟨-, hv⟩ := List.append_inj' hsplit rfl
    cases hv
    exact absurd hwrites (hlater t (List.mem_append_right rest List.mem_cons_self))

/-- What is printed is what the turns print, in their order. -/
theorem stdout_processInputs (s : Session) (inputs : List Chars) :
    (processInputs settings o machine s inputs).1.stdout
      = s.stdout ++ (turns settings o machine s.tree inputs).flatMap fun t =>
          (effect settings o machine t.tree t.input).printed := by
  induction inputs generalizing s with
  | nil => simp [processInputs, turns, Session.note]
  | cons input rest ih =>
      obtain ⟨htree, hprinted, -⟩ := processInput_effect settings o machine s input
      cases hending : (effect settings o machine s.tree input).ending with
      | some e =>
          rw [processInputs_of_ends hending, turns_of_ends hending, hprinted]
          simp
      | none =>
          rw [processInputs_of_passes hending, turns_of_passes hending, ih, htree, hprinted]
          simp

/-! ## Runs from their settings -/

/-- A run gets to its inputs: its options are read, and its output directory is there. -/
structure Starts (settings : Settings) (machine : Machine) (tree : FileTree) (o : Options)
    (start : FileTree) : Prop where
  options : (resolveOptions settings machine tree).result = .ok o
  output : prepareOutput settings machine tree = .ok start

/-- A run gets to its inputs unless its options or its output directory are in the way. -/
theorem exists_starts_or (settings : Settings) (machine : Machine) (tree : FileTree) :
    (∃ e, (resolveOptions settings machine tree).result = .error (.reported e))
      ∨ (∃ f, IsStray f ∧ (resolveOptions settings machine tree).result = .error f)
      ∨ (∃ o f, (resolveOptions settings machine tree).result = .ok o
        ∧ prepareOutput settings machine tree = .error f)
      ∨ ∃ o start, Starts settings machine tree o start := by
  cases hoptions : (resolveOptions settings machine tree).result with
  | error f =>
      by_cases hf : IsStray f
      · exact .inr (.inl ⟨f, hf, rfl⟩)
      · obtain ⟨e, he⟩ := not_forall.1 hf
        obtain rfl := not_not.1 he
        exact .inl ⟨e, rfl⟩
  | ok o =>
      cases houtput : prepareOutput settings machine tree with
      | error f => exact .inr (.inr (.inl ⟨o, f, rfl, rfl⟩))
      | ok start => exact .inr (.inr (.inr ⟨o, start, hoptions, houtput⟩))

/-- The inputs are processed with nothing printed yet. -/
theorem runWith_of_starts {tree start : FileTree} (h : Starts settings machine tree o start) :
    ∃ s : Session, s.tree = start ∧ s.stdout = []
      ∧ runWith settings tree machine
        = processInputs settings o machine s settings.inputs := by
  unfold runWith
  rw [settle_ok h.options]
  dsimp only
  rw [h.output]
  exact ⟨_, rfl, rfl, rfl⟩

/-- Options with a reported error end the run before anything is changed. -/
theorem runWith_of_reported {tree : FileTree} {e : GenerationError}
    (h : (resolveOptions settings machine tree).result = .error (.reported e)) :
    (runWith settings tree machine).1.tree = tree
      ∧ (runWith settings tree machine).1.stdout = []
      ∧ (runWith settings tree machine).2 = .exit 1 := by
  unfold runWith
  rw [settle_reported h]
  exact ⟨rfl, rfl, rfl⟩

theorem runWith_of_fault {tree : FileTree} {f : Fault}
    (h : (resolveOptions settings machine tree).result = .error f) (hf : IsStray f) :
    (runWith settings tree machine).2 = .escaped f := by
  unfold runWith
  rw [settle_fault h hf]

theorem runWith_of_unprepared {tree : FileTree} {f : Fault}
    (ho : (resolveOptions settings machine tree).result = .ok o)
    (h : prepareOutput settings machine tree = .error f) :
    (runWith settings tree machine).2 = .escaped f := by
  unfold runWith
  rw [settle_ok ho]
  dsimp only
  rw [h]

/-- Arguments that can be read give a run, with what its settings make of the files. -/
theorem exists_run {arguments : List Chars} (h : Arguments.read arguments = .ok settings)
    (tree : FileTree) (machine : Machine) :
    ∃ outcome, run arguments tree machine = .ok outcome
      ∧ outcome.tree = (runWith settings tree machine).1.tree
      ∧ outcome.stdout = (runWith settings tree machine).1.stdout
      ∧ outcome.ending = (runWith settings tree machine).2 := by
  rw [run, h]
  exact ⟨_, rfl, rfl, rfl, rfl⟩

/-- Making the output directory adds directories only, and leaves it there. -/
theorem prepareOutput_eq_ok {tree start : FileTree}
    (h : prepareOutput settings machine tree = .ok start) :
    FileTree.AddsDirectories tree start ∧ ∀ after, FileTree.SameDirectories start after →
      prepareOutput settings machine after = .ok after := by
  unfold prepareOutput at h ⊢
  split at h
  · next dir hdir =>
      split at h
      · cases h
      · next hnull =>
          obtain ⟨hadds, hentry⟩ := FileTree.ensureDirectories_eq_ok h
          refine ⟨hadds, fun after hafter => ?_⟩
          rw [if_neg hnull]
          apply FileTree.ensureDirectories_again
          intro hne
          obtain ⟨l, hlocate, hlookup⟩ := FileTree.entryAt?_eq_some_iff.1 (hentry hne)
          exact FileTree.entryAt?_eq_some_iff.2
            ⟨l, hafter.locate_eq_ok_iff.2 hlocate, (hafter.directory l).2 hlookup⟩
  · cases h
    exact ⟨.refl tree, fun after _ => rfl⟩

/-- A machine without the formatting program and with a stack that holds everything. -/
def bareMachine : Machine :=
  ⟨⟨none, fun _ _ => .timedOut⟩, .unbounded⟩

end CommandLine

end DartDecoders
