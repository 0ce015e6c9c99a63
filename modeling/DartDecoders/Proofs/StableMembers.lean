/-
Members cut again.

Cutting a class body takes off one member after the other, each with its first end (`Parted`). An
end is found by the brackets in front of it and by the first visible character behind it, so a
member keeps its end when the white space around it changes (`EndsIn.trim`,
`EndsIn.splitMembers_append`). What is left behind the last end is trimmed as well; a literal may be
open there and lose white space, but it stays one piece that ends nothing (`Uncut.of_append_gap`).
Hence the members with line breaks between them are cut into the same members, whether or not
brackets and literals of the body are closed (`splitMembers_stable`).
-/
import DartDecoders.Proofs.MemberBoundaries
import DartDecoders.Proofs.TrimmedParts

set_option autoImplicit false

namespace DartDecoders

namespace Source

open Text

/-! ## Going on with a text -/

/-- The first visible character of a text is the one behind the white space at its start. -/
theorem firstVisible?_pieces (t : Text) : firstVisible? (pieces t) = (trimStart t).head? := by
  induction t with
  | nil =>
      rw [pieces_nil]
      rfl
  | cons c t ih =>
      by_cases hblank : isBlank c = true
      · have hquote := (plain_of_isBlank hblank).1
        rw [pieces_cons hquote, firstVisible?, if_pos hblank, ih, trimStart, trimStart,
          List.dropWhile_cons_of_pos hblank]
      · have hstart : trimStart (c :: t) = c :: t := List.dropWhile_cons_of_neg hblank
        rw [hstart]
        by_cases hquote : isQuote c = true
        · rw [pieces, if_pos hquote]
          rfl
        · rw [pieces_cons (Bool.eq_false_iff.2 hquote), firstVisible?, if_neg hblank]
          rfl

/-- White space around members does not change how the text starts. -/
theorem Interleaves.head?_trimStart {ms : List Text} {t : Text}
    (h : Interleaves (isBlank · = true) ms t) (hms : ∀ m ∈ ms, Trimmed m ∧ m ≠ []) :
    (trimStart t).head? = ms.flatten.head? := by
  cases h with
  | nil hgap =>
      have hstart := trimStart_gap_append hgap []
      rw [List.append_nil] at hstart
      rw [hstart]
      rfl
  | @cons gap m rest ms hgap _ =>
      obtain ⟨htrimmed, hne⟩ := hms m List.mem_cons_self
      rw [trimStart_append hgap (stopsAt_append_of_ne_nil hne htrimmed.start rest),
        List.flatten_cons, List.head?_append_of_ne_nil m hne, List.head?_append_of_ne_nil m hne]

theorem Interleaves.goesOn_eq {ms : List Text} {t u : Text}
    (ht : Interleaves (isBlank · = true) ms t) (hu : Interleaves (isBlank · = true) ms u)
    (hms : ∀ m ∈ ms, Trimmed m ∧ m ≠ []) : goesOn (pieces t) = goesOn (pieces u) := by
  rw [goesOn, goesOn, firstVisible?_pieces, firstVisible?_pieces, ht.head?_trimStart hms,
    hu.head?_trimStart hms]

/-! ## Pieces without an end -/

section Uncut

variable {rest rest' ps qs : List Piece} {depth : Int} {t gap : Text}

theorem uncut_append :
    Uncut rest depth (ps ++ qs)
      ↔ Uncut (qs ++ rest) depth ps ∧ Uncut rest (depthBehind depth ps) qs := by
  induction ps generalizing depth with
  | nil => simp [Uncut]
  | cons p ps ih =>
      rw [List.cons_append, Uncut, Uncut, ih, List.append_assoc, depthBehind_cons, and_assoc]

theorem Uncut.congr (h : goesOn rest = goesOn rest') (hps : Uncut rest depth ps) :
    Uncut rest' depth ps := by
  induction ps generalizing depth with
  | nil => trivial
  | cons p ps ih =>
      refine ⟨?_, ih hps.2⟩
      rw [← hps.1]
      exact endsMember_congr (goesOn_append_congr h.symm ps) depth p

/-- Some pieces end no member, or a first one of them does. -/
theorem uncut_or_exists (depth : Int) (ps : List Piece) : Uncut [] depth ps
    ∨ ∃ before p after, ps = before ++ p :: after ∧ Uncut (p :: after) depth before
      ∧ endsMember (depthBehind depth before) p after = true := by
  induction ps generalizing depth with
  | nil => exact .inl trivial
  | cons q ps ih =>
      by_cases hend : endsMember depth q ps = true
      · exact .inr ⟨[], q, ps, rfl, trivial, hend⟩
      · have hfirst := Bool.eq_false_iff.2 hend
        rcases ih (depthAfter depth q) with huncut | ⟨before, p, after, rfl, huncut, hend⟩
        · refine .inl ⟨?_, huncut⟩
          rwa [List.append_nil]
        · exact .inr ⟨q :: before, p, after, rfl, ⟨hfirst, huncut⟩, hend⟩

theorem depthBehind_gap (hgap : ∀ c ∈ gap, isBlank c = true) :
    depthBehind depth (gap.map Piece.char) = depth := by
  have hnested : Nested (gap.map Piece.char) :=
    .of_forall fun c hc => (plain_of_isBlank (hgap c hc)).2.1
  exact hnested.depthBehind_eq depth

theorem goesOn_gap (hgap : ∀ c ∈ gap, isBlank c = true) : goesOn (gap.map Piece.char) = false := by
  have hends := endsBefore_nil.gap hgap
  rwa [List.append_nil, endsBefore_iff, pieces_gap hgap] at hends

/-- White space at the end of a text hides no end in it. If it belongs to a literal that is open
there, that is the last piece without it too. -/
theorem Uncut.of_append_gap (hgap : ∀ c ∈ gap, isBlank c = true)
    (h : Uncut [] depth (pieces (t ++ gap))) : Uncut [] depth (pieces t) := by
  rcases pieces_append_cases t gap with hsame | ⟨front, c, inside, inside', others, ht, hlonger⟩
  · rw [hsame, uncut_append, List.append_nil, pieces_gap hgap] at h
    exact h.1.congr (goesOn_gap hgap)
  · have hlook : goesOn (.literal (c :: inside') :: others ++ [])
        = goesOn ([.literal (c :: inside)] ++ []) := rfl
    rw [hlonger, uncut_append] at h
    rw [ht, uncut_append]
    exact ⟨h.1.congr hlook, rfl, trivial⟩

theorem Uncut.trim (h : Uncut [] 0 (pieces t)) : Uncut [] 0 (pieces (trim t)) := by
  obtain ⟨gap, gap', hgap, hgap', ht⟩ := exists_gaps_trim t
  rw [ht, pieces_gap_append hgap, uncut_append, depthBehind_gap hgap] at h
  exact h.2.of_append_gap hgap'

/-- A text in which no member ends is one member, unless it is blank. -/
theorem splitMembers_uncut (h : Uncut [] 0 (pieces t)) : splitMembers t = trimmedParts [t] := by
  have hwhole := h.membersFrom_append
  rw [List.append_nil, membersFrom, prepend, List.append_nil, flatten_pieces] at hwhole
  rw [splitMembers, hwhole]

end Uncut

/-! ## Texts with an end -/

section EndsMember

variable {c : CodePoint} {depth : Int} {rest : List Piece}

theorem eq_or_eq_of_endsMember (h : endsMember depth (.char c) rest = true) :
    c = ';' ∨ c = '\x7d' := by
  rcases endsMember_cases depth (.char c) rest with hfalse | heq | heq
  · rw [hfalse] at h
    cases h
  · exact .inl (Piece.char.inj heq)
  · exact .inr (Piece.char.inj heq)

/-- Behind an end nothing is open. -/
theorem depthAfter_of_endsMember (h : endsMember depth (.char c) rest = true) :
    depthAfter depth (.char c) = 0 := by
  rcases eq_or_eq_of_endsMember h with rfl | rfl
  · rw [endsMember_semicolon, beq_iff_eq] at h
    exact h
  · rw [endsMember_brace, Bool.and_eq_true, beq_iff_eq] at h
    exact h.1

/-- An end is one whatever follows, but behind a brace that must not go on with the member. -/
theorem endsMember_iff : endsMember depth (.char c) rest = true
    ↔ endsMember depth (.char c) [] = true ∧ (c = ';' ∨ goesOn rest = false) := by
  by_cases hsemicolon : c = ';'
  · rw [hsemicolon]
    exact (and_iff_left (.inl rfl)).symm
  constructor
  · intro h
    obtain rfl := (eq_or_eq_of_endsMember h).resolve_left hsemicolon
    rw [endsMember_brace, Bool.and_eq_true, Bool.not_eq_true'] at h
    refine ⟨?_, .inr h.2⟩
    rw [endsMember_brace, h.1]
    rfl
  · rintro ⟨hend, hrest⟩
    have hnil : goesOn rest = goesOn [] := hrest.resolve_left hsemicolon
    rwa [endsMember_congr hnil]

end EndsMember

/-- A member ends with the text, in the character, and none does before. -/
def EndsIn (c : CodePoint) (m : Text) : Prop :=
  ∃ front, pieces m = front ++ [.char c] ∧ Uncut [.char c] 0 front
    ∧ endsMember (depthBehind 0 front) (.char c) [] = true

namespace EndsIn

variable {c : CodePoint} {m : Text}

theorem isBlank_eq_false (h : EndsIn c m) : isBlank c = false := by
  obtain ⟨_, -, -, hend⟩ := h
  rcases eq_or_eq_of_endsMember hend with rfl | rfl <;> decide

theorem exists_concat (h : EndsIn c m) : ∃ t, m = t ++ [c] := by
  obtain ⟨front, hpieces, -, -⟩ := h
  have htext := flatten_pieces m
  rw [hpieces, flatten_append] at htext
  exact ⟨flatten front, htext.symm⟩

theorem trim_ne_nil (h : EndsIn c m) : trim m ≠ [] := by
  obtain ⟨t, rfl⟩ := h.exists_concat
  rw [trim_concat h.isBlank_eq_false]
  exact List.concat_ne_nil _ _

/-- The text is cut off from what follows it. -/
theorem splitMembers_append (h : EndsIn c m) {rest : Text}
    (hrest : c = ';' ∨ goesOn (pieces rest) = false) :
    splitMembers (m ++ rest) = trim m :: splitMembers rest := by
  obtain ⟨front, hpieces, huncut, hend⟩ := id h
  have hvisible := h.isBlank_eq_false
  have hlook : goesOn [.char c] = goesOn (.char c :: pieces rest) := by
    simp [goesOn, firstVisible?, hvisible]
  have hcut := endsMember_iff.2 ⟨hend, hrest⟩
  have hm : flatten front ++ [c] = m := by
    have htext := flatten_pieces m
    rwa [hpieces, flatten_append] at htext
  have hmembers : membersFrom 0 (pieces (m ++ rest)) = m :: membersFrom 0 (pieces rest) := by
    rw [pieces_append hpieces, hpieces, List.append_assoc, List.singleton_append,
      (huncut.congr hlook).membersFrom_append, membersFrom, if_pos hcut,
      depthAfter_of_endsMember hend, prepend]
    exact congrArg (· :: _) hm
  rw [splitMembers, hmembers, trimmedParts_cons rfl h.trim_ne_nil, splitMembers]

/-- White space at the start of the text is none of its end, and there is none behind it. -/
theorem trim (h : EndsIn c m) : EndsIn c (trim m) := by
  obtain ⟨gap, hgap, hm⟩ := exists_gap_trimStart m
  have htrim : Text.trim m = trimStart m := by
    obtain ⟨t, rfl⟩ := h.exists_concat
    rw [trim_concat h.isBlank_eq_false, trimStart_append_cons h.isBlank_eq_false]
  have hne := h.trim_ne_nil
  obtain ⟨front, hpieces, huncut, hend⟩ := h
  rw [hm, ← htrim, pieces_gap_append hgap] at hpieces
  have hsome : pieces (Text.trim m) ≠ [] := fun hnil => hne (eq_nil_of_pieces_eq_nil hnil)
  -- the pieces of the trimmed text end as those of the text do
  obtain ⟨front', p, hlast⟩ := (List.eq_nil_or_concat' _).resolve_left hsome
  rw [hlast, ← List.append_assoc] at hpieces
  obtain ⟨hfront, hp⟩ := List.append_inj' hpieces rfl
  rw [← hfront, uncut_append, depthBehind_gap hgap] at huncut
  rw [← hfront, depthBehind_append, depthBehind_gap hgap] at hend
  exact ⟨front', by rw [hlast, hp], huncut.2, hend⟩

end EndsIn

/-! ## Bodies -/

/-- Cutting takes off the text up to the first end of a member, as long as there is one. Behind a
brace that is an end, nothing goes on with the member. -/
inductive Parted : Text → List Text → Prop
  | last {t : Text} : Uncut [] 0 (pieces t) → Parted t (trimmedParts [t])
  | member {c : CodePoint} {m rest : Text} {ms : List Text} : EndsIn c m →
    (c = ';' ∨ goesOn (pieces rest) = false) → Parted rest ms → Parted (m ++ rest) (trim m :: ms)

/-- In a text no member ends, or a first one does. -/
theorem exists_endsIn (t : Text) : Uncut [] 0 (pieces t)
    ∨ ∃ c m rest, t = m ++ rest ∧ EndsIn c m ∧ (c = ';' ∨ goesOn (pieces rest) = false) := by
  rcases uncut_or_exists 0 (pieces t) with huncut | ⟨before, p, after, hpieces, huncut, hend⟩
  · exact .inl huncut
  obtain ⟨c, rfl⟩ : ∃ c, p = .char c := by
    cases p with
    | literal s => cases hend
    | char c => exact ⟨c, rfl⟩
  obtain ⟨front, rest, rfl, rfl, rfl, hsealed⟩ := exists_of_pieces_eq hpieces
  obtain ⟨halone, hfollows⟩ := endsMember_iff.1 hend
  -- an end is one with nothing behind it too, as `EndsIn` asks for
  have hc := eq_or_eq_of_endsMember hend
  have hquote : isQuote c = false := by rcases hc with rfl | rfl <;> rfl
  have hfront : pieces (front ++ [c]) = pieces front ++ [.char c] := by
    have hstop : StopsAt isQuote [c] := hquote
    rw [hsealed [c] hstop, pieces_cons hquote, pieces_nil]
  have hlook : goesOn (.char c :: pieces rest) = goesOn [.char c] := by
    rcases hc with rfl | rfl <;> rfl
  refine .inr ⟨c, front ++ [c], rest, ?_, ⟨pieces front, hfront, huncut.congr hlook, halone⟩,
    hfollows⟩
  rw [List.append_assoc, List.singleton_append]

theorem parted_splitMembers (t : Text) : Parted t (splitMembers t) := by
  rcases exists_endsIn t with huncut | ⟨c, m, rest, rfl, hm, hrest⟩
  · rw [splitMembers_uncut huncut]
    exact .last huncut
  · rw [hm.splitMembers_append hrest]
    exact .member hm hrest (parted_splitMembers rest)
termination_by t.length
decreasing_by
  obtain ⟨front, rfl⟩ := hm.exists_concat
  subst_vars
  simp only [List.length_append, List.length_singleton]
  omega

/-- The raw members put together are the text. -/
theorem join_membersFrom (depth : Int) (ps : List Piece) :
    join [] (membersFrom depth ps) = flatten ps := by
  induction ps generalizing depth with
  | nil => rfl
  | cons p ps ih =>
      rw [membersFrom]
      split
      · obtain ⟨part, rest, hparts⟩ :=
          List.exists_cons_of_ne_nil (membersFrom_ne_nil (depthAfter depth p) ps)
        have hrest := ih (depthAfter depth p)
        rw [hparts] at hrest ⊢
        rw [join_cons_cons, hrest]
        rfl
      · rw [join_prepend _ (membersFrom_ne_nil _ _), ih]
        rfl

theorem interleaves_splitMembers (t : Text) :
    Interleaves (isBlank · = true) (splitMembers t) t := by
  have h := interleaves_join (List.forall_mem_nil _) (fun _ hc => hc) (membersFrom 0 (pieces t))
  rwa [join_membersFrom, flatten_pieces] at h

/-! ## Members cut again -/

theorem Uncut.splitMembers_trim {t : Text} (h : Uncut [] 0 (pieces t)) (hne : Text.trim t ≠ []) :
    splitMembers (Text.trim t) = [Text.trim t] := by
  rw [splitMembers_uncut h.trim, trimmedParts_cons (trimmed_trim t).trim_eq hne]
  rfl

theorem EndsIn.splitMembers_trim {c : CodePoint} {m : Text} (h : EndsIn c m) :
    splitMembers (Text.trim m) = [Text.trim m] := by
  have hnil : goesOn (pieces []) = false := by
    rw [pieces_nil]
    rfl
  have hsplit := h.trim.splitMembers_append (.inr hnil)
  rwa [List.append_nil, splitMembers_nil, (trimmed_trim m).trim_eq] at hsplit

theorem trimmedParts_singleton (t : Text) :
    trimmedParts [t] = if trim t = [] then [] else [trim t] := by
  by_cases hblank : trim t = [] <;> simp [trimmedParts, hblank]

variable {t : Text} {ms : List Text}

/-- Cutting gives what a text is parted into. -/
theorem Parted.splitMembers_eq (h : Parted t ms) : splitMembers t = ms := by
  induction h with
  | last huncut => exact splitMembers_uncut huncut
  | member hm hrest _ ih => rw [hm.splitMembers_append hrest, ih]

/-- Each of the members is its own only member. -/
theorem Parted.splitMembers_of_mem (h : Parted t ms) : ∀ m ∈ ms, splitMembers m = [m] := by
  induction h with
  | @last t huncut =>
      rw [trimmedParts_singleton]
      by_cases hblank : trim t = []
      · simp [hblank]
      · rw [if_neg hblank, List.forall_mem_singleton]
        exact huncut.splitMembers_trim hblank
  | member hm _ _ ih => exact List.forall_mem_cons.2 ⟨hm.splitMembers_trim, ih⟩

/-- With line breaks between them the members are cut apart where they were cut before: what follows
a member starts with the same visible character. -/
theorem Parted.splitMembers_join (h : Parted t ms) : splitMembers (join ['\n'] ms) = ms := by
  induction h with
  | @last t huncut =>
      rw [trimmedParts_singleton]
      by_cases hblank : trim t = []
      · rw [if_pos hblank]
        exact splitMembers_nil
      · rw [if_neg hblank, join_singleton]
        exact huncut.splitMembers_trim hblank
  | @member c m rest ms hm hrest hparted ih =>
      -- without a member behind it, it is the whole text
      by_cases hnil : ms = []
      · rw [hnil, join_singleton]
        exact hm.splitMembers_trim
      have hbreak : ∀ c ∈ [CodePoint.ofChar '\n'], isBlank c = true := by decide
      have hms : ∀ m ∈ ms, Trimmed m ∧ m ≠ [] := by
        rw [← hparted.splitMembers_eq]
        exact fun m hmem => trimmed_of_mem_trimmedParts hmem
      -- the rest and the joined members hold the same members, with other white space around them
      have hsame : goesOn (pieces ([.ofChar '\n'] ++ join ['\n'] ms)) = goesOn (pieces rest) := by
        have hbefore := interleaves_splitMembers rest
        have hbehind := interleaves_join hbreak (fun _ hc => hc) ms
        rw [hparted.splitMembers_eq] at hbefore
        rw [trimmedParts_eq_self_iff.2 hms] at hbehind
        exact (hbehind.gap_append hbreak).goesOn_eq hbefore hms
      obtain ⟨next, others, rfl⟩ := List.exists_cons_of_ne_nil hnil
      rw [← hsame] at hrest
      rw [join_cons_cons, hm.trim.splitMembers_append hrest, splitMembers_gap hbreak, ih,
        (trimmed_trim m).trim_eq]

/-- **Members are cut the same again.** For every class body, balanced or not: the body is its
members in order with white space before, between and behind them, and they are trimmed and not
empty. Joined with line breaks they are the members of the joined text, and each of them is its own
only member. They are the texts up to the first end of a member, then to the next one, and so on. -/
theorem splitMembers_stable (body : Text) :
    Interleaves (isBlank · = true) (splitMembers body) body
      ∧ (∀ m ∈ splitMembers body, Trimmed m ∧ m ≠ [])
      ∧ splitMembers (join ['\n'] (splitMembers body)) = splitMembers body
      ∧ (∀ m ∈ splitMembers body, splitMembers m = [m])
      ∧ Parted body (splitMembers body) := by
  have hparted := parted_splitMembers body
  exact ⟨interleaves_splitMembers body, fun m hm => trimmed_of_mem_trimmedParts hm,
    hparted.splitMembers_join, hparted.splitMembers_of_mem, hparted⟩

/-- A brace too many, a literal that is left open and white space at its end. -/
example : splitMembers " a; \x7d b\x7b c\x7d . d; e 'f; ".toText
    = ["a;".toText, "\x7d b\x7b c\x7d . d; e 'f;".toText] := by decide +kernel

end Source

end DartDecoders
