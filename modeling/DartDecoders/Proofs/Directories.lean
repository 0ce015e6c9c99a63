/-
What changes of the files leave as they were.

A run changes a tree of files in two ways. Writing a file keeps all directories, so every path leads
where it led before and is stopped where it was stopped (`SameDirectories`); only the reason may
change, since what was missing may now be a file. Making a directory keeps everything that was there
(`AddsDirectories`): what could be read is read as before, and more paths may lead somewhere. Making
a directory again changes nothing (`ensureDirectories_again`).
-/
import DartDecoders.FileTree

set_option autoImplicit false

namespace DartDecoders

namespace FileTree

variable {tree old middle new : FileTree} {p : Path} {content : ByteArray} {holds : Nat → Bool}

/-! ## Contents -/

/-- Characters without carriage returns are read as they were written. -/
theorem withLineFeeds_eq_self {cs : Chars} (h : '\r' ∉ cs) : withLineFeeds cs = cs := by
  induction cs with
  | nil => rfl
  | cons c rest ih =>
      obtain ⟨hc, hrest⟩ := not_or.1 (mt List.mem_cons.2 h)
      rw [withLineFeeds, ih hrest]
      · rintro after rfl
        exact absurd rfl hc
      · rintro rfl
        exact absurd rfl hc

theorem decode_bytesOf {cs : Chars} (h : '\r' ∉ cs) : decode (bytesOf cs) = .ok (.ofChars cs) := by
  have hvalid : String.fromUTF8? (bytesOf cs) = some (String.ofList cs) := by
    rw [bytesOf, String.fromUTF8?]
    exact dif_pos (String.ofList cs).isValidUTF8
  rw [decode, hvalid]
  simp [withLineFeeds_eq_self h]

theorem encode?_eq_some_iff {t : Text} {content : ByteArray} :
    encode? t = some content ↔ ∃ cs, t = .ofChars cs ∧ content = bytesOf cs := by
  simp only [encode?, Option.map_eq_some_iff, Text.chars?_eq_some_iff, eq_comm (a := content)]

/-- Files with the same content hold the same text. -/
theorem encode?_injective {t u : Text} {content : ByteArray} (ht : encode? t = some content)
    (hu : encode? u = some content) : t = u := by
  obtain ⟨cs, rfl, rfl⟩ := encode?_eq_some_iff.1 ht
  obtain ⟨ds, rfl, heq⟩ := encode?_eq_some_iff.1 hu
  rw [String.ofList_inj.1 (String.toByteArray_inj.1 heq)]

theorem encode?_eq_contentOf {t : Text} (h : t.chars?.isSome = true) :
    encode? t = some (contentOf t) := by
  obtain ⟨cs, hcs⟩ := Option.isSome_iff_exists.1 h
  rw [contentOf, encode?, hcs]
  rfl

/-! ## Walks -/

/-- A name of a path is looked up in a directory. -/
theorem follow_of_directory {l : Location} (h : tree.lookup? l = some .directory) (name : Chars)
    (rest : List Chars) :
    tree.follow l (name :: rest)
      = if nameLimit < Chars.byteLength name then .error .nameTooLong
        else tree.follow (step l name) rest := by
  rw [follow, h]

/-- In anything else the walk is stopped. -/
theorem follow_of_not_directory {l : Location} (h : tree.lookup? l ≠ some .directory) (name : Chars)
    (rest : List Chars) :
    tree.follow l (name :: rest) = .error .missing
      ∨ tree.follow l (name :: rest) = .error .notADirectory := by
  rw [follow]
  split
  · next heq => exact absurd heq h
  · exact .inr rfl
  · exact .inl rfl

/-- Where a walk arrives, if it does. That a name is too long is told apart from the other reasons
to stop. -/
def arrival : Except SystemCause Location → Except Unit (Option Location)
  | .ok l => .ok (some l)
  | .error .nameTooLong => .error ()
  | .error _ => .ok none

theorem arrival_eq_some_iff {walk : Except SystemCause Location} {l : Location} :
    arrival walk = .ok (some l) ↔ walk = .ok l := by
  unfold arrival
  split <;> simp

/-- Whether something stands at a path depends on where its walk arrives. -/
theorem isThere_eq (tree : FileTree) (p : Path) :
    tree.isThere p = match arrival (tree.locate p) with
      | .ok (some l) => .ok (tree.lookup? l).isSome
      | .ok none => .ok false
      | .error () => if Chars.hasNull p.toChars then .ok false else .error .nameTooLong := by
  unfold isThere arrival
  cases tree.locate p with
  | ok l => rfl
  | error cause => cases cause <;> rfl

/-! ## Reading and writing -/

theorem read_eq_ok_iff :
    tree.read p = .ok content
      ↔ ∃ l, tree.locate p = .ok l ∧ tree.lookup? l = some (.file content) := by
  unfold read
  cases tree.locate p with
  | error cause => simp [bind, Except.bind]
  | ok l =>
      simp only [bind, Except.bind, Except.ok.injEq, exists_eq_left']
      split <;> simp_all [pure, Except.pure, throw, throwThe, MonadExceptOf.throw]

/-- A file is written where a path leads, unless a directory stands there. -/
theorem write_eq_ok_iff :
    tree.write p content = .ok new
      ↔ ∃ l, tree.locate p = .ok l ∧ tree.lookup? l ≠ some .directory
        ∧ new = tree.put l (.file content) := by
  unfold write
  cases tree.locate p with
  | error cause => simp [bind, Except.bind]
  | ok l =>
      simp only [bind, Except.bind, Except.ok.injEq, exists_eq_left']
      split
      · next heq => simp [heq, throw, throwThe, MonadExceptOf.throw]
      · next hne =>
          simp only [pure, Except.pure, Except.ok.injEq]
          exact ⟨fun h => ⟨hne, h.symm⟩, fun h => h.2.symm⟩

/-- Characters name what their path leads to. -/
theorem readNamed_congr {t : Chars} (h : new.read (Path.parse t) = old.read (Path.parse t)) :
    new.readNamed t = old.readNamed t := by
  rw [readNamed, readNamed, h]

theorem read_of_readNamed {t : Chars} (h : tree.readNamed t = .ok content) :
    tree.read (Path.parse t) = .ok content := by
  unfold readNamed at h
  by_cases hlong : pathLimit < Chars.byteLength t
  · rw [if_pos hlong] at h
    cases h
  · rw [if_neg hlong] at h
    by_cases hdirectory : asksForDirectory t = true
    · cases hread : tree.read (Path.parse t) <;> simp [hread, hdirectory, bind, Except.bind,
        throw, throwThe, MonadExceptOf.throw] at h
    · cases hread : tree.read (Path.parse t) <;> simp_all [bind, Except.bind, pure, Except.pure]

/-- Where nothing or a file stands is not the root. -/
theorem ne_nil_of_lookup? {l : Location} (h : tree.lookup? l ≠ some .directory) : l ≠ [] := by
  rintro rfl
  exact h rfl

/-! ## Trees with the same directories -/

/-- The trees have the same home and the same directories. -/
structure SameDirectories (old new : FileTree) : Prop where
  home : new.home = old.home
  directory : ∀ l, new.lookup? l = some .directory ↔ old.lookup? l = some .directory

namespace SameDirectories

theorem refl (tree : FileTree) : SameDirectories tree tree :=
  ⟨rfl, fun _ => Iff.rfl⟩

theorem trans (h₁ : SameDirectories old middle) (h₂ : SameDirectories middle new) :
    SameDirectories old new :=
  ⟨h₂.home.trans h₁.home, fun l => (h₂.directory l).trans (h₁.directory l)⟩

/-- A walk only asks where the directories are. The induction is on the names that are left. -/
theorem arrival_follow (h : SameDirectories old new) (names : List Chars) (l : Location) :
    arrival (new.follow l names) = arrival (old.follow l names) := by
  induction names generalizing l with
  | nil => rfl
  | cons name rest ih =>
      by_cases hdirectory : old.lookup? l = some .directory
      · rw [follow_of_directory hdirectory, follow_of_directory ((h.directory l).2 hdirectory)]
        split
        · rfl
        · exact ih (step l name)
      -- both walks stop here, maybe for different reasons: a file may stand in one tree only
      · have hnew : new.lookup? l ≠ some .directory := fun heq =>
          hdirectory ((h.directory l).1 heq)
        rcases follow_of_not_directory hdirectory name rest with hold | hold <;>
          rcases follow_of_not_directory hnew name rest with hnew | hnew <;>
          rw [hold, hnew] <;> rfl

theorem arrival_locate (h : SameDirectories old new) (p : Path) :
    arrival (new.locate p) = arrival (old.locate p) := by
  unfold locate
  split
  · rfl
  · rw [h.home]
    exact h.arrival_follow _ _

theorem locate_eq_ok_iff (h : SameDirectories old new) {l : Location} :
    new.locate p = .ok l ↔ old.locate p = .ok l := by
  rw [← arrival_eq_some_iff, ← arrival_eq_some_iff, h.arrival_locate]

/-- A path has something in both trees or in none when the place it leads to is untouched. -/
theorem isThere_eq (h : SameDirectories old new)
    (hkept : ∀ l, old.locate p = .ok l → new.lookup? l = old.lookup? l) :
    new.isThere p = old.isThere p := by
  rw [FileTree.isThere_eq, FileTree.isThere_eq, h.arrival_locate]
  split
  · next l harrival => rw [hkept l (arrival_eq_some_iff.1 harrival)]
  · rfl
  · rfl

/-- What stands at a path is read alike when it is untouched. -/
theorem read_eq (h : SameDirectories old new)
    (hkept : ∀ l, old.locate p = .ok l → new.lookup? l = old.lookup? l)
    (hthere : old.isThere p = .ok true) : new.read p = old.read p := by
  rw [FileTree.isThere_eq] at hthere
  split at hthere
  · next l harrival =>
      have hold := arrival_eq_some_iff.1 harrival
      rw [read, read, hold, h.locate_eq_ok_iff.2 hold]
      simp only [bind, Except.bind, hkept l hold]
  · cases hthere
  · split at hthere <;> cases hthere

end SameDirectories

/-- Writing a file keeps the directories. -/
theorem sameDirectories_put {l : Location} (h : tree.lookup? l ≠ some .directory)
    (content : ByteArray) : SameDirectories tree (tree.put l (.file content)) where
  home := rfl
  directory m := by
    by_cases hm : m = l
    · subst hm
      rw [lookup?_put_self _ _ _ (ne_nil_of_lookup? h)]
      simp [h]
    · rw [lookup?_put_of_ne _ _ hm]

/-! ## Trees with more directories -/

/-- The new tree has all that the old one has, and besides it only directories. -/
structure AddsDirectories (old new : FileTree) : Prop where
  home : new.home = old.home
  kept : ∀ l entry, old.lookup? l = some entry → new.lookup? l = some entry
  file : ∀ l content, new.lookup? l = some (.file content) → old.lookup? l = some (.file content)

namespace AddsDirectories

theorem refl (tree : FileTree) : AddsDirectories tree tree :=
  ⟨rfl, fun _ _ => id, fun _ _ => id⟩

theorem trans (h₁ : AddsDirectories old middle) (h₂ : AddsDirectories middle new) :
    AddsDirectories old new where
  home := h₂.home.trans h₁.home
  kept l entry h := h₂.kept l entry (h₁.kept l entry h)
  file l content h := h₁.file l content (h₂.file l content h)

/-- A walk that arrives does so in the new tree. -/
theorem follow_eq_ok (h : AddsDirectories old new) {names : List Chars} {l m : Location}
    (hfollow : old.follow l names = .ok m) : new.follow l names = .ok m := by
  induction names generalizing l with
  | nil => exact hfollow
  | cons name rest ih =>
      by_cases hdirectory : old.lookup? l = some .directory
      · rw [follow_of_directory hdirectory] at hfollow
        rw [follow_of_directory (h.kept l _ hdirectory)]
        split at hfollow
        · cases hfollow
        · next hshort =>
            rw [if_neg hshort]
            exact ih hfollow
      · rcases follow_of_not_directory hdirectory name rest with hold | hold <;>
          rw [hold] at hfollow <;> cases hfollow

theorem locate_eq_ok (h : AddsDirectories old new) {l : Location}
    (hlocate : old.locate p = .ok l) : new.locate p = .ok l := by
  unfold locate at hlocate ⊢
  split at hlocate
  · cases hlocate
  · next hshort =>
      rw [if_neg hshort, h.home]
      exact h.follow_eq_ok hlocate

/-- A file that can be read is read as before. -/
theorem read_eq_ok (h : AddsDirectories old new) (hread : old.read p = .ok content) :
    new.read p = .ok content := by
  obtain ⟨l, hlocate, hlookup⟩ := read_eq_ok_iff.1 hread
  exact read_eq_ok_iff.2 ⟨l, h.locate_eq_ok hlocate, h.kept l _ hlookup⟩

/-- What is there stays, and is read as before. -/
theorem read_eq (h : AddsDirectories old new) (hthere : old.isThere p = .ok true) :
    new.isThere p = .ok true ∧ new.read p = old.read p := by
  rw [FileTree.isThere_eq] at hthere
  split at hthere
  · next l harrival =>
      have hold := arrival_eq_some_iff.1 harrival
      have hnew := h.locate_eq_ok hold
      rw [Except.ok.injEq, Option.isSome_iff_exists] at hthere
      obtain ⟨entry, hentry⟩ := hthere
      have hkept := h.kept l entry hentry
      constructor
      · rw [FileTree.isThere, hnew]
        simp [hkept]
      · rw [read, read, hold, hnew]
        simp only [bind, Except.bind, hentry, hkept]
  · cases hthere
  · split at hthere <;> cases hthere

end AddsDirectories

/-- Making a directory where nothing stands keeps all else. -/
theorem addsDirectories_put {l : Location} (h : tree.lookup? l = none) :
    AddsDirectories tree (tree.put l .directory) := by
  have hfree : tree.lookup? l ≠ some .directory := by simp [h]
  have hl : l ≠ [] := ne_nil_of_lookup? hfree
  refine ⟨rfl, fun m entry hm => ?_, fun m content hm => ?_⟩
  · have hne : m ≠ l := by
      rintro rfl
      rw [h] at hm
      cases hm
    rwa [lookup?_put_of_ne _ _ hne]
  · by_cases hne : m = l
    · subst hne
      rw [lookup?_put_self _ _ _ hl] at hm
      cases hm
    · rwa [lookup?_put_of_ne _ _ hne] at hm

/-! ## Making directories -/

theorem isDirectory_iff : tree.isDirectory p = true ↔ tree.entryAt? p = some .directory := by
  unfold isDirectory
  split <;> simp_all

theorem entryAt?_eq_some_iff {entry : Entry} :
    tree.entryAt? p = some entry ↔ ∃ l, tree.locate p = .ok l ∧ tree.lookup? l = some entry := by
  unfold entryAt?
  cases tree.locate p <;> simp

theorem makeDirectory_eq_ok (h : tree.makeDirectory p = .ok new) :
    AddsDirectories tree new ∧ new.entryAt? p = some .directory := by
  unfold makeDirectory at h
  cases hlocate : tree.locate p with
  | error cause =>
      rw [hlocate] at h
      cases h
  | ok l =>
      rw [hlocate] at h
      simp only [bind, Except.bind] at h
      split at h
      · cases h
      · next hnone =>
          cases h
          have hadds := addsDirectories_put hnone
          have hfree : tree.lookup? l ≠ some .directory := by simp [hnone]
          have hl : l ≠ [] := ne_nil_of_lookup? hfree
          exact ⟨hadds, entryAt?_eq_some_iff.2
            ⟨l, hadds.locate_eq_ok hlocate, lookup?_put_self _ _ _ hl⟩⟩

theorem ensureDirectory_eq_ok (h : tree.ensureDirectory p = .ok new) :
    AddsDirectories tree new ∧ new.entryAt? p = some .directory := by
  unfold ensureDirectory at h
  split at h
  · next made hmade =>
      cases h
      exact makeDirectory_eq_ok hmade
  · split at h
    · next hdirectory =>
        cases h
        exact ⟨.refl tree, isDirectory_iff.1 hdirectory⟩
    · cases h

/-- A directory that is there is left as it is. -/
theorem ensureDirectory_again (h : tree.entryAt? p = some .directory) :
    tree.ensureDirectory p = .ok tree := by
  obtain ⟨l, hlocate, hlookup⟩ := entryAt?_eq_some_iff.1 h
  have hmake : tree.makeDirectory p = .error .alreadyThere := by
    unfold makeDirectory
    rw [hlocate]
    simp only [bind, Except.bind, hlookup]
    rfl
  unfold ensureDirectory
  rw [hmake]
  exact if_pos (isDirectory_iff.2 h)

/-- The induction is on the names, from the last one: a directory is only made after the one that it
stands in. -/
theorem ensureAll_eq_ok (root : Chars) (names : List Chars) (missing : Nat)
    (h : tree.ensureAll holds root missing names = .ok new) :
    AddsDirectories tree new
      ∧ (names ≠ [] → new.entryAt? ⟨root, names.reverse⟩ = some .directory) := by
  induction names generalizing tree new missing with
  | nil =>
      rw [ensureAll] at h
      cases h
      exact ⟨.refl tree, fun hne => absurd rfl hne⟩
  | cons name before ih =>
      rw [ensureAll] at h
      split at h
      · next made hmade =>
          cases h
          obtain ⟨hadds, hentry⟩ := ensureDirectory_eq_ok hmade
          exact ⟨hadds, fun _ => hentry⟩
      · split at h
        · cases h
        · cases hbefore : tree.ensureAll holds root (missing + 1) before with
          | error fault =>
              rw [hbefore] at h
              cases h
          | ok made =>
              rw [hbefore] at h
              simp only [bind, Except.bind] at h
              cases hmade : made.ensureDirectory ⟨root, (name :: before).reverse⟩ with
              | error cause =>
                  rw [hmade] at h
                  cases h
              | ok final =>
                  rw [hmade] at h
                  cases h
                  obtain ⟨hfirst, -⟩ := ih (missing + 1) hbefore
                  obtain ⟨hsecond, hentry⟩ := ensureDirectory_eq_ok hmade
                  exact ⟨hfirst.trans hsecond, fun _ => hentry⟩
      · cases h

theorem ensureDirectories_eq_ok (h : tree.ensureDirectories holds p = .ok new) :
    AddsDirectories tree new
      ∧ (p.names ≠ [] → new.entryAt? p = some .directory) := by
  obtain ⟨hadds, hentry⟩ := ensureAll_eq_ok p.root p.names.reverse 0 h
  rw [List.reverse_reverse] at hentry
  exact ⟨hadds, fun hne => hentry (by simpa using hne)⟩

/-- Making directories that are there changes nothing. -/
theorem ensureDirectories_again (h : p.names ≠ [] → tree.entryAt? p = some .directory) :
    tree.ensureDirectories holds p = .ok tree := by
  unfold ensureDirectories
  cases hnames : p.names.reverse with
  | nil => rfl
  | cons name before =>
      have hreverse : (name :: before).reverse = p.names := by
        rw [← hnames, List.reverse_reverse]
      have hne : p.names ≠ [] := by
        intro hnil
        rw [hnil] at hnames
        cases hnames
      rw [ensureAll, hreverse, ensureDirectory_again (h hne)]

end FileTree

end DartDecoders
