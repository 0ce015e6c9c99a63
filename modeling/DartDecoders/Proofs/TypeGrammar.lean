/-
The grammar of type expressions, and the reader against it.

The grammar is the one sentence of the documentation: a name, perhaps types in angle brackets with
commas between them, perhaps a question mark, white space allowed before every part and after the
whole. `Spelling` is its derivations, with every run of white space kept, so a derivation knows its
text and its tree and two derivations of one text can be compared.

The reader is right about the grammar in both directions. Whatever it reads has a derivation
(`exists_spelling_of_readType`, by induction on the fuel), and every derivation is read
(`readType_text`, by induction on the derivation), because a name ends where the grammar says it
does: nothing that may follow a name can continue it. The same observation shows that no text has
two derivations (`Spelling.text_append_inj`).
-/
import DartDecoders.Proofs.Runs

set_option autoImplicit false

namespace DartDecoders

namespace TypeExpr

open Text

/-! ## Derivations -/

/-- A run of white space, possibly empty. -/
structure Gap where
  text : Text
  blank : ∀ c ∈ text, isBlank c = true

/-- A name: one or more alphanumeric characters, underscores, dollar signs and dots, the first
neither a figure nor a dot and the last no dot. -/
structure Ident where
  text : Text
  chars : ∀ c ∈ text, isAlphanumeric c = true ∨ c = '_' ∨ c = '$' ∨ c = '.'
  nonempty : text ≠ []
  first : ∀ c, text.head? = some c → isFigure c = false ∧ c ≠ '.'
  last : text.getLast? ≠ some (.ofChar '.')

mutual

/-- A derivation of a type. -/
inductive Spelling where
  /-- A name without arguments; the white space is that before the name and, when there is one, that
  before the question mark. -/
  | bare (before : Gap) (ident : Ident) (mark : Option Gap)
  /-- A name with arguments; there is white space before each bracket too. -/
  | generic (before : Gap) (ident : Ident) (opening : Gap) (arguments : Spellings) (closing : Gap)
    (mark : Option Gap)

/-- A derivation of the types between two angle brackets. -/
inductive Spellings where
  | last (argument : Spelling)
  | more (argument : Spelling) (comma : Gap) (rest : Spellings)

end

/-- The text of a question mark, when there is one. -/
def markText : Option Gap → Text
  | none => []
  | some gap => gap.text ++ [.ofChar '?']

mutual

/-- The text that a derivation derives. -/
def Spelling.text : Spelling → Text
  | .bare before ident mark => before.text ++ (ident.text ++ markText mark)
  | .generic before ident opening arguments closing mark =>
    before.text ++ (ident.text ++ (opening.text ++
      .ofChar '<' :: (arguments.text ++ (closing.text ++ .ofChar '>' :: markText mark))))

/-- The text between two angle brackets, without the white space before the second. -/
def Spellings.text : Spellings → Text
  | .last argument => argument.text
  | .more argument comma rest => argument.text ++ (comma.text ++ .ofChar ',' :: rest.text)

end

mutual

/-- The tree of a derivation. The raw arguments of a node are the text between its two brackets,
without the white space at both ends. -/
def Spelling.tree : Spelling → TypeExpr
  | .bare _ ident mark => .node ident.text [] mark.isSome none
  | .generic _ ident _ arguments closing mark =>
    .node ident.text arguments.trees mark.isSome (some (trim (arguments.text ++ closing.text)))

/-- The trees of the types between two angle brackets. -/
def Spellings.trees : Spellings → List TypeExpr
  | .last argument => [argument.tree]
  | .more argument _ rest => argument.tree :: rest.trees

end

/-- A derivation of a whole text: a type and white space behind it. -/
structure Sentence where
  type : Spelling
  after : Gap

/-- The text that a derivation of a whole text derives. -/
def Sentence.text (s : Sentence) : Text :=
  s.type.text ++ s.after.text

/-! ## Names -/

theorem isNameChar_iff {c : CodePoint} :
    isNameChar c = true ↔ isAlphanumeric c = true ∨ c = '_' ∨ c = '$' ∨ c = '.' := by
  simp only [isNameChar, Bool.or_eq_true, beq_iff_eq, or_assoc]

theorem Ident.isNameChar_of_mem (i : Ident) {c : CodePoint} (h : c ∈ i.text) :
    isNameChar c = true :=
  isNameChar_iff.2 (i.chars c h)

theorem Ident.isName (i : Ident) : isName i.text = true := by
  obtain ⟨text, chars, nonempty, first, last⟩ := i
  cases text with
  | nil => exact absurd rfl nonempty
  | cons c rest =>
      obtain ⟨hfigure, hdot⟩ := first c rfl
      simp [TypeExpr.isName, hfigure, hdot, last]

/-- A run of name characters that the reader takes for a name is one of the grammar. -/
def Ident.ofName (name : Text) (hchars : ∀ c ∈ name, isNameChar c = true)
    (hname : TypeExpr.isName name = true) : Ident where
  text := name
  chars := fun c hc => isNameChar_iff.1 (hchars c hc)
  nonempty := by
    rintro rfl
    simp [TypeExpr.isName] at hname
  first := by
    intro c hc
    cases name with
    | nil => simp at hc
    | cons first rest =>
        obtain rfl : first = c := by simpa using hc
        simp only [TypeExpr.isName, Bool.and_eq_true, Bool.not_eq_true', bne_iff_ne] at hname
        exact hname.1
  last := by
    intro hlast
    cases name with
    | nil => simp at hlast
    | cons first rest => simp [TypeExpr.isName, hlast] at hname

theorem Ident.ext {i j : Ident} (h : i.text = j.text) : i = j := by
  obtain ⟨_, _, _, _, _⟩ := i
  obtain ⟨_, _, _, _, _⟩ := j
  cases h
  rfl

theorem Gap.ext {g h : Gap} (heq : g.text = h.text) : g = h := by
  obtain ⟨_, _⟩ := g
  obtain ⟨_, _⟩ := h
  cases heq
  rfl

/-- The white space at the start of a text as a gap. -/
theorem exists_gap (t : Text) : ∃ g : Gap, t = g.text ++ trimStart t := by
  obtain ⟨gap, hgap, ht⟩ := exists_gap_trimStart t
  exact ⟨⟨gap, hgap⟩, ht⟩

theorem Gap.trimStart_append_cons (g : Gap) {c : CodePoint} (hc : isBlank c = false) (t : Text) :
    trimStart (g.text ++ c :: t) = c :: t :=
  trimStart_append g.blank (show StopsAt isBlank (c :: t) from hc)

theorem markText_some_append (g : Gap) (t : Text) :
    markText (some g) ++ t = g.text ++ .ofChar '?' :: t := by
  rw [markText, List.append_assoc, List.singleton_append]

/-- White space is no part of a name. -/
theorem Gap.stopsAt_append (g : Gap) {t : Text} (h : StopsAt isNameChar t) :
    StopsAt isNameChar (g.text ++ t) := by
  cases hg : g.text with
  | nil => exact h
  | cons c rest =>
      have hc : isBlank c = true := g.blank c (by rw [hg]; exact List.mem_cons_self)
      exact isNameChar_of_isBlank hc

theorem Gap.stopsAt_append_opening (g : Gap) (t : Text) :
    StopsAt isNameChar (g.text ++ .ofChar '<' :: t) :=
  g.stopsAt_append (show isNameChar (.ofChar '<') = false from rfl)

/-- A name is no white space. -/
theorem Ident.stopsAt_append (i : Ident) (t : Text) : StopsAt isBlank (i.text ++ t) := by
  cases hi : i.text with
  | nil => exact absurd hi i.nonempty
  | cons c rest =>
      have hc : isNameChar c = true := i.isNameChar_of_mem (by rw [hi]; exact List.mem_cons_self)
      exact isBlank_of_isNameChar hc

/-- White space and a name in front of a text that cannot continue the name are cut off in one way
only. -/
theorem gap_ident_append_inj {g g' : Gap} {i i' : Ident} {t t' : Text}
    (ht : StopsAt isNameChar t) (ht' : StopsAt isNameChar t')
    (h : g.text ++ (i.text ++ t) = g'.text ++ (i'.text ++ t')) : g = g' ∧ i = i' ∧ t = t' := by
  obtain ⟨hgap, hrest⟩ := append_inj_of_stopsAt g.blank g'.blank
    (i.stopsAt_append t) (i'.stopsAt_append t') h
  obtain ⟨hident, htail⟩ := append_inj_of_stopsAt (p := isNameChar)
    (fun c hc => i.isNameChar_of_mem hc) (fun c hc => i'.isNameChar_of_mem hc) ht ht' hrest
  exact ⟨Gap.ext hgap, Ident.ext hident, htail⟩

theorem readName_ident (g : Gap) (i : Ident) {t : Text} (ht : StopsAt isNameChar t) :
    readName (g.text ++ (i.text ++ t)) = .ok (i.text, t) := by
  have hchars : ∀ c ∈ i.text, isNameChar c = true := fun c hc => i.isNameChar_of_mem hc
  simp only [readName, trimStart_append g.blank (i.stopsAt_append t),
    takeWhile_append_of_stopsAt hchars ht, dropWhile_append_of_stopsAt hchars ht, i.isName,
    if_true]

theorem exists_ident_of_readName {t name rest : Text} (h : readName t = .ok (name, rest)) :
    ∃ (g : Gap) (i : Ident), t = g.text ++ (i.text ++ rest) ∧ i.text = name := by
  obtain ⟨g, hg⟩ := exists_gap t
  simp only [readName] at h
  split at h
  · next hname =>
      cases h
      refine ⟨g, .ofName _ ?_ hname, ?_, rfl⟩
      · intro c hc
        exact List.all_eq_true.1 List.all_takeWhile c hc
      · rw [Ident.ofName, List.takeWhile_append_dropWhile]
        exact hg
  · cases h

/-! ## What may follow a type

Behind a type there is white space and then a comma, a closing bracket or the end. None of these
continues a name or is a question mark or an opening bracket, so a type ends where it does. -/

/-- A text that may stand behind a type. -/
def Follows (t : Text) : Prop :=
  StopsAt (fun c => c != ',' && c != '>') (trimStart t)

theorem Follows.gap {t : Text} (g : Gap) (h : Follows t) : Follows (g.text ++ t) := by
  rw [Follows, trimStart_gap_append g.blank]
  exact h

theorem follows_comma (t : Text) : Follows (',' :: t) := rfl

theorem follows_closing (t : Text) : Follows ('>' :: t) := rfl

theorem follows_nil : Follows [] := trivial

theorem Follows.stopsAt {t : Text} (h : Follows t) : StopsAt isNameChar t := by
  cases t with
  | nil => trivial
  | cons c rest =>
      cases hb : isBlank c with
      | true => exact isNameChar_of_isBlank hb
      | false =>
          rw [Follows, trimStart_eq_self (show StopsAt isBlank (c :: rest) from hb)] at h
          have hc : (c != ',' && c != '>') = false := h
          -- what is no white space is one of the two characters behind which a type has ended
          have hcases : c = ',' ∨ c = '>' := by
            by_cases hcomma : c = ','
            · exact .inl hcomma
            · exact .inr (by simpa [hcomma] using hc)
          rcases hcases with rfl | rfl <;> rfl

/-- The text of a mark in front of a text that may follow a type cannot continue a name. -/
theorem stopsAt_markText (mark : Option Gap) {t : Text} (h : Follows t) :
    StopsAt isNameChar (markText mark ++ t) := by
  cases mark with
  | none => exact h.stopsAt
  | some gap =>
      rw [markText_some_append]
      exact gap.stopsAt_append (show isNameChar '?' = false from rfl)

/-- What follows a type, its mark included, does not open brackets. -/
theorem trimStart_markText_ne (mark : Option Gap) {t : Text} (h : Follows t) (inside : Text) :
    trimStart (markText mark ++ t) ≠ .ofChar '<' :: inside := by
  intro heq
  cases mark with
  | none =>
      rw [Follows] at h
      rw [show markText none ++ t = t from rfl] at heq
      rw [heq] at h
      cases h
  | some gap =>
      rw [markText_some_append, gap.trimStart_append_cons rfl] at heq
      cases heq

theorem readMark_markText (mark : Option Gap) {t : Text} (h : Follows t) :
    readMark (markText mark ++ t) = (mark.isSome, t) := by
  cases mark with
  | none =>
      rw [Follows] at h
      simp only [readMark, markText, List.nil_append]
      split
      · next rest heq =>
          rw [heq] at h
          cases h
      · rfl
  | some gap =>
      rw [markText_some_append, readMark, gap.trimStart_append_cons rfl]
      rfl

/-- A mark and a text that may follow a type are cut apart in one way only. -/
theorem markText_append_inj {mark mark' : Option Gap} {t t' : Text} (h : Follows t)
    (h' : Follows t') (heq : markText mark ++ t = markText mark' ++ t') :
    mark = mark' ∧ t = t' := by
  have hread := readMark_markText mark h
  rw [heq, readMark_markText mark' h', Prod.mk.injEq] at hread
  obtain ⟨hsome, htext⟩ := hread
  refine ⟨?_, htext.symm⟩
  subst htext
  cases mark with
  | none =>
      cases mark' with
      | none => rfl
      | some gap' => cases hsome
  | some gap =>
      cases mark' with
      | none => cases hsome
      | some gap' =>
          have htext := List.append_cancel_right heq
          simp only [markText] at htext
          rw [Gap.ext (List.append_cancel_right htext)]

theorem exists_mark_of_readMark (t : Text) :
    ∃ mark : Option Gap, t = markText mark ++ (readMark t).2 ∧ mark.isSome = (readMark t).1 := by
  obtain ⟨g, hg⟩ := exists_gap t
  rw [readMark]
  split
  · next rest heq =>
      refine ⟨some g, ?_, rfl⟩
      rw [heq] at hg
      simpa [markText] using hg
  · exact ⟨none, rfl, rfl⟩

/-! ## What is read has a derivation -/

/-- Reading a type is reading a name and then either arguments between two brackets and a mark, or
a mark. -/
theorem readType_eq_ok {fuel : Nat} {t rest : Text} {e : TypeExpr}
    (h : readType (fuel + 1) t = .ok (e, rest)) :
    ∃ name behind, readName t = .ok (name, behind) ∧
      ((∃ inside args after, trimStart behind = .ofChar '<' :: inside
          ∧ readArgs fuel inside = .ok (args, .ofChar '>' :: after)
          ∧ e = .node name args (readMark after).1
            (some (trim (between inside (.ofChar '>' :: after))))
          ∧ rest = (readMark after).2)
        ∨ (e = .node name [] (readMark behind).1 none ∧ rest = (readMark behind).2)) := by
  rw [readType] at h
  simp only [bind, Except.bind] at h
  split at h
  · cases h
  · next pair hname =>
      obtain ⟨name, behind⟩ := pair
      refine ⟨name, behind, hname, ?_⟩
      dsimp only at h
      split at h
      · next inside hopening =>
          split at h
          · cases h
          · next found hargs =>
              obtain ⟨args, closing⟩ := found
              dsimp only at h
              split at h
              · next after =>
                  cases h
                  exact .inl ⟨inside, args, after, hopening, hargs, rfl, rfl⟩
              · cases h
      · cases h
        exact .inr ⟨rfl, rfl⟩

/-- Reading arguments is reading a type and then either a comma and more of them, or nothing but
white space. -/
theorem readArgs_eq_ok {fuel : Nat} {t rest : Text} {es : List TypeExpr}
    (h : readArgs (fuel + 1) t = .ok (es, rest)) :
    ∃ arg behind, readType fuel t = .ok (arg, behind) ∧
      ((∃ next others, trimStart behind = .ofChar ',' :: next
          ∧ readArgs fuel next = .ok (others, rest) ∧ es = arg :: others)
        ∨ (es = [arg] ∧ rest = trimStart behind)) := by
  rw [readArgs] at h
  simp only [bind, Except.bind] at h
  split at h
  · cases h
  · next pair harg =>
      obtain ⟨arg, behind⟩ := pair
      refine ⟨arg, behind, harg, ?_⟩
      dsimp only at h
      split at h
      · next next hcomma =>
          split at h
          · cases h
          · next found hargs =>
              obtain ⟨others, closing⟩ := found
              cases h
              exact .inl ⟨next, others, hcomma, hargs, rfl⟩
      · cases h
        exact .inr ⟨rfl, rfl⟩

theorem between_append (start stop : Text) : between (start ++ stop) stop = start := by
  simp [between]

mutual

/-- Whatever is read as a type has a derivation: of what was taken off the text, with the tree that
was read. -/
theorem exists_spelling_of_readType : ∀ {fuel : Nat} {t rest : Text} {e : TypeExpr},
    readType fuel t = .ok (e, rest) → ∃ s : Spelling, t = s.text ++ rest ∧ s.tree = e
  | 0, t, rest, e, h => by
    rw [readType] at h
    cases h
  | fuel + 1, t, rest, e, h => by
    obtain ⟨name, behind, hname, hcases⟩ := readType_eq_ok h
    obtain ⟨before, ident, ht, hident⟩ := exists_ident_of_readName hname
    rcases hcases with ⟨inside, args, after, hopening, hargs, rfl, rfl⟩ | ⟨rfl, rfl⟩
    · obtain ⟨arguments, closing, hinside, htrees⟩ := exists_spellings_of_readArgs hargs
      obtain ⟨opening, hbehind⟩ := exists_gap behind
      obtain ⟨mark, hafter, hmark⟩ := exists_mark_of_readMark after
      refine ⟨.generic before ident opening arguments closing mark, ?_, ?_⟩
      · rw [ht, hbehind, hopening, hinside]
        simp only [Spelling.text, List.append_assoc, List.cons_append]
        rw [← hafter]
      -- the raw arguments are what was read between the two brackets
      · rw [hinside, ← List.append_assoc, between_append]
        rw [Spelling.tree, htrees, hident, hmark]
    · obtain ⟨mark, hbehind, hmark⟩ := exists_mark_of_readMark behind
      refine ⟨.bare before ident mark, ?_, ?_⟩
      · rw [ht, Spelling.text, List.append_assoc, List.append_assoc, ← hbehind]
      · rw [Spelling.tree, hident, hmark]

/-- Whatever is read as arguments has a derivation, white space behind it. -/
theorem exists_spellings_of_readArgs : ∀ {fuel : Nat} {t rest : Text} {es : List TypeExpr},
    readArgs fuel t = .ok (es, rest) →
      ∃ (ss : Spellings) (g : Gap), t = ss.text ++ (g.text ++ rest) ∧ ss.trees = es
  | 0, t, rest, es, h => by
    rw [readArgs] at h
    cases h
  | fuel + 1, t, rest, es, h => by
    obtain ⟨arg, behind, harg, hcases⟩ := readArgs_eq_ok h
    obtain ⟨argument, ht, htree⟩ := exists_spelling_of_readType harg
    obtain ⟨gap, hbehind⟩ := exists_gap behind
    rcases hcases with ⟨next, others, hcomma, hothers, rfl⟩ | ⟨rfl, rfl⟩
    · obtain ⟨spellings, closing, hnext, htrees⟩ := exists_spellings_of_readArgs hothers
      refine ⟨.more argument gap spellings, closing, ?_, ?_⟩
      · rw [ht, hbehind, hcomma, hnext]
        simp only [Spellings.text, List.append_assoc, List.cons_append]
      · rw [Spellings.trees, htree, htrees]
    · refine ⟨.last argument, gap, ?_, ?_⟩
      · rw [Spellings.text, ← hbehind, ht]
      · rw [Spellings.trees, htree]

end

/-! ## What has a derivation is read

Every part of a derivation but the white space makes the text longer, so twice the length of the
text is fuel enough: one step for a type and one for the list that it stands in. -/

theorem Ident.length_pos (i : Ident) : 0 < i.text.length :=
  List.length_pos_iff.2 i.nonempty

theorem Spelling.length_pos (s : Spelling) : 0 < s.text.length := by
  cases s with
  | bare before ident mark =>
      have hident := ident.length_pos
      simp only [Spelling.text, List.length_append]
      omega
  | generic before ident opening arguments closing mark =>
      have hident := ident.length_pos
      simp only [Spelling.text, List.length_append]
      omega

/-- One step of reading a type without arguments. -/
theorem readType_bare (fuel : Nat) (before : Gap) (ident : Ident) (mark : Option Gap) {rest : Text}
    (h : Follows rest) :
    readType (fuel + 1) (before.text ++ (ident.text ++ (markText mark ++ rest)))
      = .ok (.node ident.text [] mark.isSome none, rest) := by
  rw [readType, readName_ident before ident (stopsAt_markText mark h)]
  simp only [bind, Except.bind]
  split
  · next inside hopening => exact absurd hopening (trimStart_markText_ne mark h inside)
  · rw [readMark_markText mark h]
    rfl

/-- One step of reading a type with arguments. -/
theorem readType_generic {fuel : Nat} (before : Gap) (ident : Ident) (opening : Gap)
    (mark : Option Gap) {inside rest : Text} {args : List TypeExpr} (h : Follows rest)
    (hargs : readArgs fuel (inside ++ .ofChar '>' :: (markText mark ++ rest))
      = .ok (args, '>' :: (markText mark ++ rest))) :
    readType (fuel + 1) (before.text ++ (ident.text ++ (opening.text ++
        .ofChar '<' :: (inside ++ .ofChar '>' :: (markText mark ++ rest)))))
      = .ok (.node ident.text args mark.isSome (some (trim inside)), rest) := by
  rw [readType, readName_ident before ident (opening.stopsAt_append_opening _)]
  simp only [bind, Except.bind]
  rw [opening.trimStart_append_cons rfl]
  simp only [hargs, readMark_markText mark h, between_append]
  rfl

mutual

/-- Every derivation of a type is read, whatever follows it that may follow a type. -/
theorem readType_text : ∀ (s : Spelling) {fuel : Nat} {rest : Text}, 2 * s.text.length ≤ fuel →
    Follows rest → readType fuel (s.text ++ rest) = .ok (s.tree, rest)
  | .bare before ident mark, fuel, rest, hfuel, hrest => by
    obtain ⟨fuel, rfl⟩ : ∃ n, fuel = n + 1 :=
      ⟨fuel - 1, by have := (Spelling.bare before ident mark).length_pos; omega⟩
    rw [Spelling.text, List.append_assoc, List.append_assoc, readType_bare _ _ _ _ hrest,
      Spelling.tree]
  | .generic before ident opening arguments closing mark, fuel, rest, hfuel, hrest => by
    -- the name pays for this step and the opening bracket for the one into the arguments
    have hident := ident.length_pos
    simp only [Spelling.text, List.length_append, List.length_cons] at hfuel
    obtain ⟨fuel, rfl⟩ : ∃ n, fuel = n + 1 := ⟨fuel - 1, by omega⟩
    have hlength : 2 * arguments.text.length < fuel := by omega
    have hargs := readArgs_text arguments closing (markText mark ++ rest) hlength
    rw [← List.append_assoc] at hargs
    rw [Spelling.tree, ← readType_generic before ident opening mark hrest hargs]
    simp only [Spelling.text, List.append_assoc, List.cons_append]

/-- Every derivation of arguments is read, up to the closing bracket. -/
theorem readArgs_text : ∀ (ss : Spellings) {fuel : Nat} (closing : Gap) (after : Text),
    2 * ss.text.length < fuel →
    readArgs fuel (ss.text ++ (closing.text ++ .ofChar '>' :: after))
      = .ok (ss.trees, .ofChar '>' :: after)
  | .last argument, fuel, closing, after, hfuel => by
    obtain ⟨fuel, rfl⟩ : ∃ n, fuel = n + 1 := ⟨fuel - 1, by omega⟩
    have hlength : 2 * argument.text.length ≤ fuel := by
      rw [Spellings.text] at hfuel
      omega
    have hread := readType_text argument hlength ((follows_closing after).gap closing)
    rw [Spellings.text, readArgs, hread]
    simp only [bind, Except.bind, closing.trimStart_append_cons (show isBlank '>' = false from rfl)]
    rfl
  | .more argument comma others, fuel, closing, after, hfuel => by
    simp only [Spellings.text, List.length_append, List.length_cons] at hfuel
    obtain ⟨fuel, rfl⟩ : ∃ n, fuel = n + 1 := ⟨fuel - 1, by omega⟩
    have hlength : 2 * argument.text.length ≤ fuel := by omega
    have hothersLength : 2 * others.text.length < fuel := by omega
    have hread := readType_text argument hlength
      ((follows_comma (others.text ++ (closing.text ++ .ofChar '>' :: after))).gap comma)
    have hothers := readArgs_text others closing after hothersLength
    simp only [Spellings.text, List.append_assoc, List.cons_append]
    rw [readArgs, hread]
    simp only [bind, Except.bind, comma.trimStart_append_cons (show isBlank ',' = false from rfl)]
    rw [hothers]
    rfl

end

/-! ## No text has two derivations -/

theorem trimStart_opening_ne {gap : Gap} {mark : Option Gap} {inside rest : Text}
    (h : Follows rest) : gap.text ++ .ofChar '<' :: inside ≠ markText mark ++ rest := by
  intro heq
  refine trimStart_markText_ne mark h inside ?_
  rw [← heq, gap.trimStart_append_cons rfl]

theorem gap_cons_append_inj {g g' : Gap} {c : CodePoint} (hc : isBlank c = false) {t t' : Text}
    (h : g.text ++ c :: t = g'.text ++ c :: t') : g = g' ∧ t = t' := by
  obtain ⟨hgap, htail⟩ := append_inj_of_stopsAt g.blank g'.blank
    (show StopsAt isBlank (c :: t) from hc) (show StopsAt isBlank (c :: t') from hc) h
  exact ⟨Gap.ext hgap, (List.cons.inj htail).2⟩

/-- White space and a comma are not white space and a closing bracket. -/
theorem gap_comma_ne_gap_closing {g g' : Gap} {t t' : Text} :
    g.text ++ .ofChar ',' :: t ≠ g'.text ++ .ofChar '>' :: t' := by
  intro h
  have htrim := congrArg trimStart h
  rw [g.trimStart_append_cons rfl, g'.trimStart_append_cons rfl] at htrim
  cases htrim

mutual

/-- The derivation of a type is known from its text, whatever follows it that may follow a type. -/
theorem Spelling.text_append_inj : ∀ (s s' : Spelling) {rest rest' : Text}, Follows rest →
    Follows rest' → s.text ++ rest = s'.text ++ rest' → s = s' ∧ rest = rest'
  | .bare before ident mark, .bare before' ident' mark', rest, rest', h, h', heq => by
    simp only [Spelling.text, List.append_assoc] at heq
    obtain ⟨rfl, rfl, htail⟩ := gap_ident_append_inj (stopsAt_markText mark h)
      (stopsAt_markText mark' h') heq
    obtain ⟨rfl, rfl⟩ := markText_append_inj h h' htail
    exact ⟨rfl, rfl⟩
  | .bare before ident mark, .generic before' ident' opening' arguments' closing' mark', rest,
      rest', h, h', heq => by
    simp only [Spelling.text, List.append_assoc, List.cons_append] at heq
    obtain ⟨-, -, htail⟩ := gap_ident_append_inj (stopsAt_markText mark h)
      (opening'.stopsAt_append_opening _) heq
    exact absurd htail.symm (trimStart_opening_ne h)
  | .generic before ident opening arguments closing mark, .bare before' ident' mark', rest, rest',
      h, h', heq => by
    simp only [Spelling.text, List.append_assoc, List.cons_append] at heq
    obtain ⟨-, -, htail⟩ := gap_ident_append_inj
      (opening.stopsAt_append_opening _)
      (stopsAt_markText mark' h') heq
    exact absurd htail (trimStart_opening_ne h')
  | .generic before ident opening arguments closing mark,
      .generic before' ident' opening' arguments' closing' mark', rest, rest', h, h', heq => by
    simp only [Spelling.text, List.append_assoc, List.cons_append] at heq
    obtain ⟨rfl, rfl, htail⟩ := gap_ident_append_inj
      (opening.stopsAt_append_opening _)
      (opening'.stopsAt_append_opening _) heq
    obtain ⟨rfl, hinside⟩ := gap_cons_append_inj rfl htail
    obtain ⟨rfl, hclosing⟩ := Spellings.text_append_inj arguments arguments' hinside
    obtain ⟨rfl, hmark⟩ := gap_cons_append_inj rfl hclosing
    obtain ⟨rfl, rfl⟩ := markText_append_inj h h' hmark
    exact ⟨rfl, rfl⟩

/-- The derivation of arguments is known from their text, up to the closing bracket. -/
theorem Spellings.text_append_inj : ∀ (ss ss' : Spellings) {closing closing' : Gap}
    {after after' : Text},
    ss.text ++ (closing.text ++ .ofChar '>' :: after)
      = ss'.text ++ (closing'.text ++ .ofChar '>' :: after') →
    ss = ss' ∧ closing.text ++ .ofChar '>' :: after = closing'.text ++ .ofChar '>' :: after'
  | .last argument, .last argument', closing, closing', after, after', heq => by
    obtain ⟨rfl, hrest⟩ := Spelling.text_append_inj argument argument'
      ((follows_closing after).gap closing) ((follows_closing after').gap closing') heq
    exact ⟨rfl, hrest⟩
  | .last argument, .more argument' comma' others', closing, closing', after, after', heq => by
    simp only [Spellings.text, List.append_assoc, List.cons_append] at heq
    obtain ⟨-, hrest⟩ := Spelling.text_append_inj argument argument'
      ((follows_closing after).gap closing) ((follows_comma _).gap comma') heq
    exact absurd hrest.symm gap_comma_ne_gap_closing
  | .more argument comma others, .last argument', closing, closing', after, after', heq => by
    simp only [Spellings.text, List.append_assoc, List.cons_append] at heq
    obtain ⟨-, hrest⟩ := Spelling.text_append_inj argument argument'
      ((follows_comma _).gap comma) ((follows_closing after').gap closing') heq
    exact absurd hrest gap_comma_ne_gap_closing
  | .more argument comma others, .more argument' comma' others', closing, closing', after, after',
      heq => by
    simp only [Spellings.text, List.append_assoc, List.cons_append] at heq
    obtain ⟨rfl, hrest⟩ := Spelling.text_append_inj argument argument'
      ((follows_comma _).gap comma) ((follows_comma _).gap comma') heq
    obtain ⟨rfl, hothers⟩ := gap_cons_append_inj rfl hrest
    obtain ⟨rfl, hclosing⟩ := Spellings.text_append_inj others others' hothers
    exact ⟨rfl, hclosing⟩

end

/-! ## Whole texts -/

theorem Gap.follows (g : Gap) : Follows g.text := by
  have h := follows_nil.gap g
  rwa [List.append_nil] at h

theorem Gap.trimStart_text (g : Gap) : trimStart g.text = [] := by
  have h := trimStart_append g.blank (show StopsAt isBlank [] from trivial)
  rwa [List.append_nil] at h

theorem readWhole_sentence (s : Sentence) : readWhole s.text = .ok s.type.tree := by
  have hlength : 2 * s.type.text.length ≤ 2 * s.text.length + 1 := by
    rw [Sentence.text, List.length_append]
    omega
  have hread := readType_text s.type hlength s.after.follows
  rw [readWhole, show readType (2 * s.text.length + 1) s.text
    = .ok (s.type.tree, s.after.text) from hread]
  simp only [bind, Except.bind, s.after.trimStart_text]
  rfl

theorem exists_sentence_of_readWhole {t : Text} {e : TypeExpr} (h : readWhole t = .ok e) :
    ∃ s : Sentence, s.text = t ∧ s.type.tree = e := by
  simp only [readWhole, bind, Except.bind] at h
  split at h
  · cases h
  · next pair hread =>
      obtain ⟨found, rest⟩ := pair
      dsimp only at h
      split at h
      · next hend =>
          cases h
          obtain ⟨type, ht, htree⟩ := exists_spelling_of_readType hread
          obtain ⟨after, hrest⟩ := exists_gap rest
          rw [hend, List.append_nil] at hrest
          exact ⟨⟨type, after⟩, by rw [Sentence.text, ht, hrest], htree⟩
      · cases h

theorem Sentence.eq_of_text_eq {s s' : Sentence} (h : s.text = s'.text) : s = s' := by
  obtain ⟨type, after⟩ := s
  obtain ⟨type', after'⟩ := s'
  obtain ⟨rfl, hafter⟩ := Spelling.text_append_inj type type' after.follows after'.follows h
  rw [Gap.ext hafter]

theorem parse_eq_ok_iff {t : Text} {e : TypeExpr} :
    parse t = .ok e ↔ ∃ s : Sentence, s.text = t ∧ s.type.tree = e := by
  constructor
  · intro h
    rw [parse] at h
    cases hread : readWhole t with
    | error flaw =>
        rw [hread] at h
        cases h
    | ok found =>
        rw [hread] at h
        cases h
        exact exists_sentence_of_readWhole hread
  · rintro ⟨s, rfl, rfl⟩
    rw [parse, readWhole_sentence]
    rfl

theorem parse?_eq_some_iff {t : Text} {e : TypeExpr} :
    parse? t = some e ↔ ∃ s : Sentence, s.text = t ∧ s.type.tree = e := by
  rw [← parse_eq_ok_iff, parse?]
  cases parse t <;> simp [Except.toOption]

theorem exists_sentence_iff {t : Text} :
    (∃ s : Sentence, s.text = t) ↔ ∃ e, parse t = .ok e := by
  constructor
  · rintro ⟨s, hs⟩
    exact ⟨s.type.tree, parse_eq_ok_iff.2 ⟨s, hs, rfl⟩⟩
  · rintro ⟨e, he⟩
    obtain ⟨s, hs, -⟩ := parse_eq_ok_iff.1 he
    exact ⟨s, hs⟩

/-- **Reading decides the grammar.** Reading a text gives a type exactly when the grammar derives
the text, and then the tree of the derivation; a derivation is known from its text, so there is
never a second one; and the texts that the grammar does not derive are those whose reading is an
error and gives no type. -/
theorem parse_decides_grammar (t : Text) :
    (∀ e, parse t = .ok e ↔ ∃ s : Sentence, s.text = t ∧ s.type.tree = e)
      ∧ (∀ e, parse? t = some e ↔ ∃ s : Sentence, s.text = t ∧ s.type.tree = e)
      ∧ (∀ s s' : Sentence, s.text = s'.text ↔ s = s')
      ∧ ((∃ flaw, parse t = .error flaw) ↔ ¬ ∃ s : Sentence, s.text = t)
      ∧ (parse? t = none ↔ ¬ ∃ s : Sentence, s.text = t) := by
  refine ⟨fun e => parse_eq_ok_iff, fun e => parse?_eq_some_iff, ?_, ?_, ?_⟩
  · intro s s'
    exact ⟨Sentence.eq_of_text_eq, fun h => h ▸ rfl⟩
  · rw [exists_sentence_iff]
    cases parse t <;> simp
  · rw [exists_sentence_iff, parse?]
    cases parse t <;> simp [Except.toOption]

/-- White space is passed over, and a second question mark is no part of a type. -/
example : (parse? " Map < a.Key ,List<int?> >? ".toText).map toText
      = some "Map<a.Key, List<int?>>?".toText
    ∧ (parse? "int??".toText).map toText = none := by
  decide +kernel

end TypeExpr

end DartDecoders
