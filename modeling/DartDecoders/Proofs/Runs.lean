/-
Runs of characters.

A reader takes the longest run of characters of a class and goes on behind it. What it takes is
known as soon as the text is a run of the class followed by a text that does not start with the
class: that is `StopsAt`, and the two lemmas behind it are all that readers ever need. White space
is trimmed the same way, and no character of a name or a word is white space, so names and words
stop at it.
-/
import DartDecoders.TypeExpr.Parser

set_option autoImplicit false

namespace DartDecoders

/-- What holds of every character of a text is decided along the text, not by a search through all
characters. -/
instance (priority := high) decidableForallMem (t : Text) (p : CodePoint → Prop) [DecidablePred p] :
    Decidable (∀ c ∈ t, p c) :=
  List.decidableBAll p t

/-! ## Classes of characters -/

/-- The code points of some ranges, one by one. -/
def CodeRanges.codes (ranges : CodeRanges) : List Nat :=
  ranges.flatMap fun range => List.range' range.1 (range.2 + 1 - range.1)

theorem CodeRanges.mem_codes {ranges : CodeRanges} {code : Nat}
    (h : ranges.contains code = true) : code ∈ ranges.codes := by
  obtain ⟨range, hmem, hin⟩ := List.any_eq_true.1 h
  rw [Bool.and_eq_true, decide_eq_true_eq, decide_eq_true_eq] at hin
  refine List.mem_flatMap.2 ⟨range, hmem, ?_⟩
  rw [List.mem_range'_1]
  omega

/-- The white space characters are few, so a statement about all of them is checked on each. -/
theorem forall_isBlank {p : CodePoint → Prop}
    (h : ∀ code ∈ blankRanges.codes, p (.ofNat code)) {c : CodePoint} (hc : isBlank c = true) :
    p c := by
  have hcode := h c.toNat (CodeRanges.mem_codes hc)
  rwa [CodePoint.ofNat_toNat] at hcode

/-- White space is no part of a name. -/
theorem isNameChar_of_isBlank {c : CodePoint} (h : isBlank c = true) :
    TypeExpr.isNameChar c = false :=
  forall_isBlank (p := fun c => TypeExpr.isNameChar c = false) (by decide +kernel) h

/-- A word character may stand in a name. -/
theorem isNameChar_of_isWordChar {c : CodePoint} (h : isWordChar c = true) :
    TypeExpr.isNameChar c = true := by
  rw [isWordChar, Bool.or_eq_true] at h
  rw [TypeExpr.isNameChar]
  rcases h with h | h <;> simp [h]

theorem isBlank_of_isNameChar {c : CodePoint} (h : TypeExpr.isNameChar c = true) :
    isBlank c = false := by
  cases hb : isBlank c with
  | false => rfl
  | true =>
      rw [isNameChar_of_isBlank hb] at h
      cases h

theorem isWordChar_of_isBlank {c : CodePoint} (hc : isBlank c = true) : isWordChar c = false := by
  cases hword : isWordChar c with
  | false => rfl
  | true =>
      rw [isBlank_of_isNameChar (isNameChar_of_isWordChar hword)] at hc
      cases hc

namespace Text

/-! ## Runs -/

/-- A text that does not start with a character of the class. -/
def StopsAt (p : CodePoint → Bool) : Text → Prop
  | [] => True
  | c :: _ => p c = false

theorem takeWhile_append_of_stopsAt {p : CodePoint → Bool} {run rest : Text}
    (hrun : ∀ c ∈ run, p c = true) (hrest : StopsAt p rest) :
    (run ++ rest).takeWhile p = run := by
  rw [List.takeWhile_append_of_pos hrun]
  cases rest with
  | nil => simp
  | cons c rest =>
      have hc : p c = false := hrest
      simp [hc]

theorem dropWhile_append_of_stopsAt {p : CodePoint → Bool} {run rest : Text}
    (hrun : ∀ c ∈ run, p c = true) (hrest : StopsAt p rest) :
    (run ++ rest).dropWhile p = rest := by
  rw [List.dropWhile_append_of_pos hrun]
  cases rest with
  | nil => rfl
  | cons c rest =>
      have hc : p c = false := hrest
      simp [hc]

/-- A text is cut in one way only into a run of the class and a text that does not start with it. -/
theorem append_inj_of_stopsAt {p : CodePoint → Bool} {run run' rest rest' : Text}
    (hrun : ∀ c ∈ run, p c = true) (hrun' : ∀ c ∈ run', p c = true)
    (hrest : StopsAt p rest) (hrest' : StopsAt p rest') (h : run ++ rest = run' ++ rest') :
    run = run' ∧ rest = rest' := by
  have htake := congrArg (List.takeWhile p) h
  have hdrop := congrArg (List.dropWhile p) h
  rw [takeWhile_append_of_stopsAt hrun hrest, takeWhile_append_of_stopsAt hrun' hrest'] at htake
  rw [dropWhile_append_of_stopsAt hrun hrest, dropWhile_append_of_stopsAt hrun' hrest'] at hdrop
  exact ⟨htake, hdrop⟩

theorem StopsAt.append {p : CodePoint → Bool} {t rest : Text} (ht : StopsAt p t)
    (hrest : StopsAt p rest) : StopsAt p (t ++ rest) := by
  cases t with
  | nil => exact hrest
  | cons c t => exact ht

theorem stopsAt_dropWhile (p : CodePoint → Bool) (t : Text) : StopsAt p (t.dropWhile p) := by
  induction t with
  | nil => trivial
  | cons c t ih =>
      by_cases hc : p c = true
      · rwa [List.dropWhile_cons_of_pos hc]
      · rw [List.dropWhile_cons_of_neg hc]
        exact Bool.eq_false_iff.2 hc

/-! ## White space -/

theorem stopsAt_trimStart (t : Text) : StopsAt isBlank (trimStart t) :=
  stopsAt_dropWhile isBlank t

/-- A text that starts visibly starts so without the white space at its end. -/
theorem trimEnd_cons {c : CodePoint} (hc : isBlank c = false) (t : Text) :
    ∃ rest : Text, trimEnd (c :: t) = c :: rest := by
  have hlast : ([c] : Text).dropWhile isBlank = [c] := List.dropWhile_cons_of_neg (by simp [hc])
  rw [trimEnd, List.reverse_cons, List.dropWhile_append, hlast]
  split
  · exact ⟨[], rfl⟩
  · exact ⟨(t.reverse.dropWhile isBlank).reverse, by simp⟩

theorem stopsAt_trim (t : Text) : StopsAt isBlank (trim t) := by
  have hstart := stopsAt_trimStart t
  rw [trim]
  cases htrim : trimStart t with
  | nil => trivial
  | cons c rest =>
      rw [htrim] at hstart
      obtain ⟨others, hothers⟩ := trimEnd_cons hstart rest
      rw [hothers]
      exact hstart

theorem trimStart_append {gap rest : Text} (hgap : ∀ c ∈ gap, isBlank c = true)
    (hrest : StopsAt isBlank rest) : trimStart (gap ++ rest) = rest :=
  dropWhile_append_of_stopsAt hgap hrest

/-- A text is the white space at its start followed by its trimmed form. -/
theorem exists_gap_trimStart (t : Text) :
    ∃ gap : Text, (∀ c ∈ gap, isBlank c = true) ∧ t = gap ++ trimStart t := by
  refine ⟨t.takeWhile isBlank, ?_, (List.takeWhile_append_dropWhile).symm⟩
  intro c hc
  exact List.all_eq_true.1 List.all_takeWhile c hc

/-- White space in front of a text changes nothing about what trimming leaves. -/
theorem trimStart_gap_append {gap : Text} (hgap : ∀ c ∈ gap, isBlank c = true) (t : Text) :
    trimStart (gap ++ t) = trimStart t := by
  rw [trimStart, List.dropWhile_append_of_pos hgap]
  rfl

theorem trimStart_append_cons {d : CodePoint} (hd : isBlank d = false) (t rest : Text) :
    trimStart (t ++ d :: rest) = trimStart t ++ d :: rest := by
  have hrest : (d :: rest).dropWhile isBlank = d :: rest :=
    List.dropWhile_cons_of_neg (by simp [hd])
  rw [trimStart, trimStart, List.dropWhile_append, hrest]
  split
  · next hempty => rw [List.isEmpty_iff.1 hempty, List.nil_append]
  · rfl

theorem trimStart_eq_self {t : Text} (h : StopsAt isBlank t) : trimStart t = t := by
  have hnil : ∀ c ∈ ([] : Text), isBlank c = true := by simp
  exact trimStart_append hnil h

/-! ## Texts without white space at their ends -/

/-- A text has no white space at either end. -/
structure Trimmed (t : Text) : Prop where
  start : StopsAt isBlank t
  finish : StopsAt isBlank t.reverse

theorem stopsAt_append_of_ne_nil {p : CodePoint → Bool} {t : Text} (hne : t ≠ []) (h : StopsAt p t)
    (rest : Text) : StopsAt p (t ++ rest) := by
  cases t with
  | nil => exact absurd rfl hne
  | cons c t => exact h

/-- What is not empty is its last item behind the others. -/
theorem exists_concat_of_ne_nil {α : Type} {l : List α} (hne : l ≠ []) :
    ∃ front last, l = front ++ [last] :=
  ⟨l.dropLast, l.getLast hne, (List.dropLast_concat_getLast hne).symm⟩

/-- What a text ends with is decided by its last part. -/
theorem stopsAt_reverse_append {p : CodePoint → Bool} {t : Text} (hne : t ≠ [])
    (h : StopsAt p t.reverse) (before : Text) : StopsAt p (before ++ t).reverse := by
  rw [List.reverse_append]
  exact stopsAt_append_of_ne_nil (by simpa using hne) h _

theorem stopsAt_reverse_concat {p : CodePoint → Bool} {c : CodePoint} (hc : p c = false)
    (t : Text) : StopsAt p (t ++ [c]).reverse :=
  stopsAt_reverse_append (List.cons_ne_nil c []) hc t

theorem stopsAt_of_forall {p : CodePoint → Bool} {t : Text} (h : ∀ c ∈ t, p c = false) :
    StopsAt p t := by
  cases t with
  | nil => trivial
  | cons c t => exact h c List.mem_cons_self

theorem trimEnd_eq_self {t : Text} (h : StopsAt isBlank t.reverse) : trimEnd t = t := by
  rw [trimEnd, show t.reverse.dropWhile isBlank = t.reverse from trimStart_eq_self h,
    List.reverse_reverse]

theorem trimEnd_append {t : Text} (hne : t ≠ []) (h : StopsAt isBlank t.reverse) (before : Text) :
    trimEnd (before ++ t) = before ++ t :=
  trimEnd_eq_self (stopsAt_reverse_append hne h before)

theorem trimEnd_concat {c : CodePoint} (hc : isBlank c = false) (t : Text) :
    trimEnd (t ++ [c]) = t ++ [c] :=
  trimEnd_eq_self (stopsAt_reverse_concat hc t)

theorem stopsAt_trimEnd (t : Text) : StopsAt isBlank (trimEnd t).reverse := by
  rw [trimEnd, List.reverse_reverse]
  exact stopsAt_dropWhile isBlank _

/-- A text is its form without white space at the end, followed by that white space. -/
theorem exists_gap_trimEnd (t : Text) :
    ∃ gap : Text, (∀ c ∈ gap, isBlank c = true) ∧ t = trimEnd t ++ gap := by
  obtain ⟨back, hback, hreverse⟩ := exists_gap_trimStart t.reverse
  refine ⟨back.reverse, fun c hc => hback c (List.mem_reverse.1 hc), ?_⟩
  calc t = t.reverse.reverse := (List.reverse_reverse t).symm
    _ = (back ++ trimStart t.reverse).reverse := congrArg List.reverse hreverse
    _ = trimEnd t ++ back.reverse := List.reverse_append

/-- A text that ends visibly loses white space at its start only. -/
theorem trim_concat {c : CodePoint} (hc : isBlank c = false) (t : Text) :
    trim (t ++ [c]) = trimStart t ++ [c] := by
  rw [trim, trimStart_append_cons hc, trimEnd_concat hc]

/-- A text with no white space at its ends is its own trimmed form. -/
theorem Trimmed.trim_eq {t : Text} (h : Trimmed t) : trim t = t := by
  rw [trim, trimStart_eq_self h.start, trimEnd_eq_self h.finish]

theorem trimmed_trim (t : Text) : Trimmed (trim t) where
  start := stopsAt_trim t
  finish := stopsAt_trimEnd (trimStart t)

/-- A text with no white space in it has none at its ends. -/
theorem Trimmed.of_forall {t : Text} (h : ∀ c ∈ t, isBlank c = false) : Trimmed t where
  start := stopsAt_of_forall h
  finish := stopsAt_of_forall fun c hc => h c (List.mem_reverse.1 hc)

/-- White space in front of a trimmed text is trimmed off. -/
theorem trim_gap_append {gap t : Text} (hgap : ∀ c ∈ gap, isBlank c = true) (h : Trimmed t) :
    trim (gap ++ t) = t := by
  rw [trim, trimStart_append hgap h.start, trimEnd_eq_self h.finish]

theorem trim_eq_nil {t : Text} (h : ∀ c ∈ t, isBlank c = true) : trim t = [] := by
  have htrim := trim_gap_append (t := []) h ⟨trivial, trivial⟩
  rwa [List.append_nil] at htrim

/-- White space on both sides of a trimmed text is trimmed off. -/
theorem trim_between {gap t gap' : Text} (hgap : ∀ c ∈ gap, isBlank c = true) (h : Trimmed t)
    (hgap' : ∀ c ∈ gap', isBlank c = true) : trim (gap ++ (t ++ gap')) = t := by
  by_cases hnil : t = []
  · rw [hnil, List.nil_append]
    exact trim_eq_nil (List.forall_mem_append.2 ⟨hgap, hgap'⟩)
  · have hstart : StopsAt isBlank (t ++ gap') := stopsAt_append_of_ne_nil hnil h.start gap'
    have hback : ∀ c ∈ gap'.reverse, isBlank c = true := fun c hc =>
      hgap' c (List.mem_reverse.1 hc)
    rw [trim, trimStart_append hgap hstart, trimEnd, List.reverse_append,
      dropWhile_append_of_stopsAt hback h.finish, List.reverse_reverse]

/-- A text is its trimmed form with white space on both sides. -/
theorem exists_gaps_trim (t : Text) : ∃ gap gap' : Text, (∀ c ∈ gap, isBlank c = true)
    ∧ (∀ c ∈ gap', isBlank c = true) ∧ t = gap ++ (trim t ++ gap') := by
  obtain ⟨gap, hgap, ht⟩ := exists_gap_trimStart t
  obtain ⟨gap', hgap', hstart⟩ := exists_gap_trimEnd (trimStart t)
  refine ⟨gap, gap', hgap, hgap', ?_⟩
  rw [trim, ← hstart]
  exact ht

/-- What stands between two trimmed texts does not matter. -/
theorem Trimmed.around {t u : Text} (ht : Trimmed t) (hu : Trimmed u) (htne : t ≠ [])
    (hune : u ≠ []) (middle : Text) : Trimmed (t ++ (middle ++ u)) where
  start := stopsAt_append_of_ne_nil htne ht.start _
  finish := by
    rw [← List.append_assoc]
    exact stopsAt_reverse_append hune hu.finish _

/-! ## Texts between two characters -/

/-- What holds of two characters and of a text holds of the text between the two. -/
theorem forall_mem_between {p : CodePoint → Prop} {first last : CodePoint} {t : Text}
    (hfirst : p first) (ht : ∀ c ∈ t, p c) (hlast : p last) :
    ∀ c ∈ first :: (t ++ [last]), p c := by
  intro c hc
  rcases List.mem_cons.1 hc with rfl | hc
  · exact hfirst
  · rcases List.mem_append.1 hc with hc | hc
    · exact ht c hc
    · rwa [List.mem_singleton.1 hc]

/-- Behind the quote that opens a literal there are not two more quotes. If the literal is empty,
its closing quote is the next character, and then the text behind it decides. -/
theorem isPrefixOf_quotes_eq_false {quote : CodePoint} {t rest : Text} (h : ∀ c ∈ t, c ≠ quote)
    (hrest : StopsAt (· == quote) rest) :
    [quote, quote].isPrefixOf (t ++ quote :: rest) = false := by
  cases t with
  | nil =>
      cases rest with
      | nil => simp
      | cons c rest =>
          have hc : quote ≠ c := (beq_eq_false_iff_ne.1 hrest).symm
          rw [List.nil_append, List.isPrefixOf_cons_cons, List.isPrefixOf_cons_cons,
            beq_eq_false_iff_ne.2 hc, Bool.false_and, Bool.and_false]
  | cons c t =>
      have hc : quote ≠ c := (h c List.mem_cons_self).symm
      rw [List.cons_append, List.isPrefixOf_cons_cons, beq_eq_false_iff_ne.2 hc, Bool.false_and]

end Text

end DartDecoders
