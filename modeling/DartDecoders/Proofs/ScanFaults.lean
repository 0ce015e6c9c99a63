/-
Faults of the scanner.

A walk over brackets reads at an offset that was found in the text, annotations are passed over
from their at sign on, and a cut leaves no empty parts. So whatever the text is, these steps end
with one of the scanner's own errors or not at all: `MemberFault` lists those of the members of a
class, and each reader has one lemma. The name of a variable is read without such a guard. It is the
last word of a line without the semicolons at its end, and on a line of nothing but semicolons there
is no word (`IsNameless`). This is the only fault of a scan that is not reported (`scan_fault`).
-/
import DartDecoders.Proofs.Faults
import DartDecoders.Proofs.Annotations
import DartDecoders.Proofs.Nesting
import DartDecoders.Proofs.Words
import DartDecoders.Source.Scan

set_option autoImplicit false

namespace DartDecoders

namespace Source

open Text

/-! ## Brackets and annotations -/

/-- The faults of reading brackets, annotations and the members of a class. -/
inductive MemberFault : Fault → Prop
  | unbalancedBracket (bracket : CodePoint) (offset : Int) :
    MemberFault (.reported (.unbalancedBracket bracket offset))
  | unclosedBracket (bracket : CodePoint) (offset : Int) :
    MemberFault (.reported (.unclosedBracket bracket offset))
  | namelessParameter (declared : Text) : MemberFault (.reported (.namelessParameter declared))
  | unbalancedTypeParameters (header : Text) :
    MemberFault (.reported (.unbalancedTypeParameters header))

theorem partner_failsWith {t : Text} (h : t ≠ []) (offset : Nat) :
    FailsWith MemberFault (partner offset t) := by
  unfold partner
  split
  · exact .ok _
  · exact .error (.unbalancedBracket _ _)
  · split
    · exact .error (.unclosedBracket _ _)
    · exact absurd rfl h

theorem splitGroup_failsWith {t : Text} (h : t ≠ []) (offset : Nat) :
    FailsWith MemberFault (splitGroup offset t) :=
  .bind (partner_failsWith h offset) fun _ _ => .ok _

theorem behindArguments_failsWith (total : Nat) (behind : Text) :
    FailsWith MemberFault (behindArguments total behind) := by
  unfold behindArguments
  split
  · exact .map (partner_failsWith (List.cons_ne_nil _ _) _) _
  · exact .ok behind

theorem withoutMarkers_failsWith (t : Text) : FailsWith MemberFault (withoutMarkers t) := by
  fun_induction withoutMarkers t with
  | case1 t hnone => exact .ok (trim t)
  | case2 t behind hbehind f hfault => exact .error (behindArguments_failsWith _ _ f hfault)
  | case3 t behind hbehind after hafter ih => exact ih

theorem skipMarkers_failsWith (total : Nat) (t : Text) :
    FailsWith MemberFault (skipMarkers total t) := by
  fun_induction skipMarkers total t with
  | case1 t hnone => exact .ok (trimStart t)
  | case2 t behind hbehind f hfault => exact .error (behindArguments_failsWith _ _ f hfault)
  | case3 t behind hbehind after hafter ih => exact ih

/-! ## Members -/

theorem parseParameter_failsWith (kind : ParameterKind) (t : Text) :
    FailsWith MemberFault (parseParameter kind t) := by
  refine .bind (withoutMarkers_failsWith t) fun t _ => ?_
  dsimp only
  split
  · exact .error (.namelessParameter _)
  · exact .ok _

theorem parsePart_failsWith {part : Text} (h : part ≠ []) :
    FailsWith MemberFault (parsePart part) := by
  unfold parsePart
  split
  · exact .bind (splitGroup_failsWith (List.cons_ne_nil _ _) 0) fun _ _ =>
      .mapM fun t _ => parseParameter_failsWith .optional t
  · exact .bind (splitGroup_failsWith (List.cons_ne_nil _ _) 0) fun _ _ =>
      .mapM fun t _ => parseParameter_failsWith .named t
  · exact absurd rfl h
  · exact .map (parseParameter_failsWith .positional part) _

/-- The parts of a cut text are not empty, so there is a first character to tell a group by. -/
theorem ne_nil_of_mem_splitTopLevel {separator t part : Text}
    (h : part ∈ splitTopLevel separator t) : part ≠ [] := by
  obtain ⟨-, hvisible⟩ := List.mem_filter.1 h
  simpa using hvisible

theorem parseParameters_failsWith (t : Text) : FailsWith MemberFault (parseParameters t) :=
  .map (.mapM fun _ hpart => parsePart_failsWith (ne_nil_of_mem_splitTopLevel hpart)) _

theorem splitTypeParameters_failsWith (header : Text) :
    FailsWith MemberFault (splitTypeParameters header) := by
  unfold splitTypeParameters
  dsimp only
  split
  · split
    · exact .ok _
    · exact .error (.unbalancedTypeParameters _)
  · exact .ok _

theorem memberHead?_failsWith (className header : Text) :
    FailsWith MemberFault (memberHead? className header) := by
  unfold memberHead?
  dsimp only
  split
  · exact .ok none
  · refine .bind (splitTypeParameters_failsWith _) fun found _ => ?_
    split
    · exact .ok none
    · split
      · exact .ok none
      · exact .ok _

theorem parseMember_failsWith (className member : Text) :
    FailsWith MemberFault (parseMember className member) := by
  refine .bind (withoutMarkers_failsWith member) fun member _ => ?_
  split
  · exact .ok none
  -- there is a parenthesis, and its partner is looked for from there on
  · next hgroup =>
      refine .bind (memberHead?_failsWith className _) fun head _ => ?_
      split
      · exact .ok none
      · refine .bind (splitGroup_failsWith hgroup _) fun found _ => ?_
        refine .bind (parseParameters_failsWith _) fun parameters _ => ?_
        dsimp only
        split
        · exact .ok _
        · exact .ok none

theorem methodsOf_failsWith (className body : Text) :
    FailsWith MemberFault (methodsOf className body) :=
  .map (.mapM fun member _ => parseMember_failsWith className member) _

/-! ## Classes -/

/-- The faults of reading a class: those of its members, and that it has no body. -/
def ClassFault (className : Text) (f : Fault) : Prop :=
  MemberFault f ∨ f = .reported (.classWithoutBody className)

theorem classOfHead_failsWith (total : Nat) (head : TypeHead) (after : Text) (envelope : Envelope)
    (sourceFile : Json) :
    FailsWith (ClassFault head.name) (classOfHead total head after envelope sourceFile) := by
  unfold classOfHead
  split
  · exact .error (.inr rfl)
  · next hgroup =>
      refine .mono ?_ fun f => Or.inl
      exact .bind (splitGroup_failsWith hgroup _) fun found _ =>
        .bind (methodsOf_failsWith _ _) fun methods _ => .ok _

theorem MemberFault.reported {f : Fault} (h : MemberFault f) : IsDeclarationError f := by
  cases h <;> exact ⟨_, rfl, rfl⟩

theorem ClassFault.reported {className : Text} {f : Fault} (h : ClassFault className f) :
    IsDeclarationError f := by
  rcases h with h | rfl
  · exact h.reported
  · exact ⟨_, rfl, rfl⟩

theorem not_memberFault_outOfRange : ¬ MemberFault .outOfRange :=
  nofun

/-! ## Variables -/

/-- The first line of the text is nothing but semicolons, with white space around them. -/
def IsNameless (t : Text) : Prop :=
  trim (t.takeWhile (· != '\n')) ≠ [] ∧ ∀ c ∈ trim (t.takeWhile (· != '\n')), c = ';'

instance (t : Text) : Decidable (IsNameless t) :=
  inferInstanceAs (Decidable (_ ∧ _))

/-- Without the semicolons at its end a line has no word exactly when it has nothing else. -/
theorem words_dropEndWhile_eq_nil_iff {c : CodePoint} (hc : isBlank c = false) (line : Text) :
    words (dropEndWhile ';' (c :: line)) = [] ↔ ∀ d ∈ c :: line, d = ';' := by
  have hsplit :=
    List.takeWhile_append_dropWhile (p := (· == .ofChar ';')) (l := (c :: line).reverse)
  have hreverse : c :: line = dropEndWhile (.ofChar ';') (c :: line)
      ++ ((c :: line).reverse.takeWhile (· == .ofChar ';')).reverse := by
    rw [dropEndWhile, ← List.reverse_append, hsplit, List.reverse_reverse]
  constructor
  · intro hwords
    cases hdrop : dropEndWhile ';' (c :: line) with
    | nil =>
        rw [hdrop, List.nil_append] at hreverse
        intro d hd
        rw [hreverse, List.mem_reverse] at hd
        exact beq_iff_eq.1 (List.all_eq_true.1 List.all_takeWhile d hd)
    -- what is left would start as the line does, and so have a word
    | cons d rest =>
        rw [hdrop, List.cons_append] at hreverse
        obtain ⟨rfl, -⟩ := List.cons.inj hreverse
        rw [hdrop] at hwords
        exact absurd hwords (words_ne_nil hc _)
  · intro hall
    have hnil : (c :: line).reverse.dropWhile (· == .ofChar ';') = [] :=
      List.dropWhile_eq_nil_iff.2 fun d hd => beq_iff_eq.2 (hall d (List.mem_reverse.1 hd))
    rw [dropEndWhile, hnil]
    rfl

theorem variableName_eq_error_iff {t : Text} {f : Fault} :
    variableName t = .error f ↔ f = .outOfRange ∧ IsNameless t := by
  have hstart := stopsAt_trim (t.takeWhile (· != '\n'))
  unfold variableName IsNameless
  generalize trim (t.takeWhile (· != '\n')) = line at hstart ⊢
  cases line with
  | nil => simp
  | cons c line =>
      have hwords := words_dropEndWhile_eq_nil_iff hstart line
      rw [← hwords, ← List.getLast?_eq_none_iff]
      dsimp only
      cases (words (dropEndWhile ';' (c :: line))).getLast? <;> simp [eq_comm]

/-- Where no white space comes first, a line of nothing but semicolons starts with one. -/
theorem IsNameless.start {t : Text} (h : IsNameless t) (hstart : StopsAt isBlank t) :
    ∃ rest : Text, t = .ofChar ';' :: rest := by
  cases t with
  | nil => exact absurd rfl h.1
  | cons c t =>
      have hbreak : c ≠ '\n' := by
        rintro rfl
        cases hstart
      obtain ⟨rest, hrest⟩ := trimEnd_cons hstart (t.takeWhile (· != '\n'))
      have htake : (c :: t).takeWhile (· != .ofChar '\n') = c :: t.takeWhile (· != .ofChar '\n') :=
        List.takeWhile_cons_of_pos (bne_iff_ne.2 hbreak)
      have hvisible : trimStart (c :: t.takeWhile (· != '\n')) = c :: t.takeWhile (· != '\n') :=
        trimStart_eq_self hstart
      have hline : trim ((c :: t).takeWhile (· != '\n')) = c :: rest := by
        rw [htake, trim, hvisible, hrest]
      have hall := h.2
      rw [hline] at hall
      exact ⟨t, by rw [hall c List.mem_cons_self]⟩

/-! ## Declarations -/

/-- No type declaration and no function starts with a semicolon. -/
theorem typeHead?_semicolon (rest : Text) : typeHead? (';' :: rest) = none := by
  have hmodifiers : readModifiers (.ofChar ';' :: rest) = ([], .ofChar ';' :: rest) := by
    rw [readModifiers]
    split
    · next after heq => cases heq
    · rfl
  rw [typeHead?, hmodifiers]
  rfl

theorem functionName?_semicolon (rest : Text) : functionName? true (';' :: rest) = none := by
  rw [functionName?]
  rfl

theorem readDeclaration_eq_error_iff {t : Text} (h : StopsAt isBlank t) (total : Nat)
    (envelope : Envelope) (sourceFile : Json) :
    readDeclaration total t envelope sourceFile = .error .outOfRange ↔ IsNameless t := by
  constructor
  · unfold readDeclaration
    dsimp only
    split
    · next head after _ =>
        split
        · intro hfault
          obtain ⟨e, he, -⟩ := (classOfHead_failsWith total head after envelope sourceFile _
            hfault).reported
          cases he
        · intro hfault
          cases hfault
    · split
      · intro hfault
        cases hfault
      · intro hfault
        cases hname : variableName t with
        | error f => exact (variableName_eq_error_iff.1 hname).2
        | ok name =>
            rw [hname] at hfault
            cases hfault
  · intro hnameless
    obtain ⟨rest, rfl⟩ := hnameless.start h
    rw [readDeclaration, typeHead?_semicolon, functionName?_semicolon,
      variableName_eq_error_iff.2 ⟨rfl, hnameless⟩]
    rfl

theorem stopsAt_of_skipMarkers {total : Nat} {t declared : Text}
    (h : skipMarkers total t = .ok declared) : StopsAt isBlank declared := by
  fun_induction skipMarkers total t with
  | case1 t hnone =>
      cases h
      exact stopsAt_trimStart t
  | case2 t behind hbehind f hfault => cases h
  | case3 t behind hbehind after hafter ih => exact ih h

/-- Behind the annotations at a site stands nothing but semicolons on the line. -/
def NamelessSite (total : Nat) (site : Text) : Prop :=
  ∃ arguments behind declared, splitGroup (total - site.length) site = .ok (arguments, behind)
    ∧ skipMarkers total behind = .ok declared ∧ IsNameless declared

/-- The faults of reading a declaration. -/
def SiteFault (f : Fault) : Prop :=
  f = .outOfRange ∨ IsDeclarationError f

theorem readDeclaration_failsWith (total : Nat) (t : Text) (envelope : Envelope)
    (sourceFile : Json) : FailsWith SiteFault (readDeclaration total t envelope sourceFile) := by
  unfold readDeclaration
  dsimp only
  split
  · split
    · exact .mono (classOfHead_failsWith total _ _ envelope sourceFile)
        fun f hf => .inr (ClassFault.reported hf)
    · exact .ok _
  · split
    · exact .ok _
    · exact .map (fun f hf => .inl (variableName_eq_error_iff.1 hf).1) _

theorem declarationAt_failsWith {site : Text} (h : site ≠ []) (total : Nat) (sourceFile : Json) :
    FailsWith SiteFault (declarationAt total site sourceFile) := by
  have hmember : ∀ f, MemberFault f → SiteFault f := fun f hf => .inr hf.reported
  refine .bind ((splitGroup_failsWith h _).mono hmember) fun found _ => ?_
  refine .bind ((skipMarkers_failsWith _ _).mono hmember) fun declared _ => ?_
  exact readDeclaration_failsWith total declared _ sourceFile

theorem declarationAt_eq_error_iff {site : Text} (h : site ≠ []) (total : Nat)
    (sourceFile : Json) :
    declarationAt total site sourceFile = .error .outOfRange ↔ NamelessSite total site := by
  rw [declarationAt, FailsWith.bind_eq_error_iff (splitGroup_failsWith h _)
    not_memberFault_outOfRange]
  constructor
  · rintro ⟨⟨arguments, behind⟩, hgroup, hfault⟩
    obtain ⟨declared, hskip, hread⟩ := (FailsWith.bind_eq_error_iff
      (skipMarkers_failsWith total behind) not_memberFault_outOfRange).1 hfault
    exact ⟨arguments, behind, declared, hgroup, hskip,
      (readDeclaration_eq_error_iff (stopsAt_of_skipMarkers hskip) ..).1 hread⟩
  · rintro ⟨arguments, behind, declared, hgroup, hskip, hnameless⟩
    refine ⟨(arguments, behind), hgroup, ?_⟩
    refine (FailsWith.bind_eq_error_iff (skipMarkers_failsWith total behind)
      not_memberFault_outOfRange).2 ⟨declared, hskip, ?_⟩
    exact (readDeclaration_eq_error_iff (stopsAt_of_skipMarkers hskip) ..).2 hnameless

/-! ## Sources -/

/-- A site starts with the parenthesis of its annotation. -/
theorem ne_nil_of_markerAt? {t site : Text} (h : markerAt? t = some site) : site ≠ [] := by
  unfold markerAt? at h
  split at h
  · split at h
    · cases h
      exact List.cons_ne_nil _ _
    · cases h
  · cases h

theorem ne_nil_of_mem_markerSites {t site : Text} (h : site ∈ markerSites t) : site ≠ [] := by
  induction t with
  | nil => cases h
  | cons c t ih =>
      rw [markerSites] at h
      split at h
      · next found hfound =>
          rcases List.mem_cons.1 h with rfl | h
          · exact ne_nil_of_markerAt? hfound
          · exact ih h
      · exact ih h

theorem result_scan_eq_error_iff (t : Text) (sourceFile : Json) :
    (scan t sourceFile).result = .error .outOfRange
      ↔ StopsAtFirst (fun site => declarationAt (stripComments t).length site sourceFile)
        (NamelessSite (stripComments t).length) (markerSites (stripComments t)) := by
  rw [result_scan, declarations]
  exact mapM_eq_error_iff fun site hsite =>
    declarationAt_eq_error_iff (ne_nil_of_mem_markerSites hsite) _ sourceFile

/-- **What escapes a scan.** A scan ends with one of the scanner's own errors or with a word looked
for where there is none. It does the latter exactly when the first annotation whose declaration
cannot be read stands in front of a line of nothing but semicolons. -/
theorem scan_fault (t : Text) (sourceFile : Json) :
    FailsWith SiteFault (scan t sourceFile).result
      ∧ ((scan t sourceFile).result = .error .outOfRange
        ↔ StopsAtFirst (fun site => declarationAt (stripComments t).length site sourceFile)
          (NamelessSite (stripComments t).length) (markerSites (stripComments t))) := by
  refine ⟨?_, result_scan_eq_error_iff t sourceFile⟩
  rw [result_scan]
  exact .mapM fun site hsite =>
    declarationAt_failsWith (ne_nil_of_mem_markerSites hsite) _ sourceFile

/-- An annotation in front of a semicolon. -/
def semicolonSource : Text :=
  "@JsonToModel();".toText

/-- There the scan ends with a fault that is not reported. -/
theorem scan_semicolon : (scan semicolonSource .null).result = .error .outOfRange := by
  have hplain : stripComments semicolonSource = semicolonSource :=
    stripComments_eq_self (.of_forall (by decide))
  have hsites : markerSites semicolonSource = ["();".toText] := by decide +kernel
  have hempty : Balanced [] := .of_forall (by simp) (by simp)
  have hgroup : splitGroup 12 "();".toText = .ok ([], [';']) :=
    splitGroup_group closerOf?_parenthesis hempty 12 [';']
  have hnil : ∀ c ∈ ([] : Text), isBlank c = true := by simp
  have hskip : skipMarkers 15 [';'] = .ok [';'] := skipMarkers_gap (t := [';']) hnil rfl rfl 15
  rw [result_scan_eq_error_iff, hplain, hsites]
  exact ⟨[], _, [], rfl, by simp, [], [';'], [';'], hgroup, hskip, by decide⟩

end Source

end DartDecoders
