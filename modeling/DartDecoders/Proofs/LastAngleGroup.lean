/-
The type parameters at the end of a header, by counting.

The walk back from the end of a header keeps a depth: a closing angle bracket adds one, an opening
one takes one away, and the type parameters start where the depth comes down to zero. What it finds
is said here by the number of angle brackets alone. An end of a text is even when it starts with an
opening angle bracket and has as many opening as closing ones (`EvenEnd`), and the type parameters
are the shortest even end (`LastGroup`).

The depth at any place is the depth at the start of the walk and the surplus of closing brackets in
what has been read (`angleSurplus`). It stays positive up to the bracket where the walk stops
(`StaysOpen`, `angleGroup?_cases`). Hence every shorter end of a header has closing brackets to
spare and is not even, and a walk that does not stop shows that no end is
(`splitTypeParameters_lastGroup`).
-/
import Mathlib.Data.List.Infix
import DartDecoders.Proofs.Faults
import DartDecoders.Proofs.MemberHeads

set_option autoImplicit false

namespace DartDecoders

namespace Source

open Text

variable {depth : Int} {c : CodePoint} {t s : Text}

/-! ## Counting angle brackets -/

/-- The closing angle brackets of a text, less the opening ones. -/
def angleSurplus (t : Text) : Int :=
  t.count (.ofChar '>') - t.count (.ofChar '<')

theorem angleSurplus_nil : angleSurplus [] = 0 := rfl

theorem angleSurplus_append (t u : Text) :
    angleSurplus (t ++ u) = angleSurplus t + angleSurplus u := by
  simp only [angleSurplus, List.count_append]
  omega

theorem angleSurplus_cons (c : CodePoint) (t : Text) :
    angleSurplus (c :: t) = angleSurplus [c] + angleSurplus t :=
  angleSurplus_append [c] t

theorem angleSurplus_reverse (t : Text) : angleSurplus t.reverse = angleSurplus t := by
  simp only [angleSurplus, List.count_reverse]

theorem angleSurplus_other (hopen : c ≠ .ofChar '<') (hclose : c ≠ .ofChar '>') :
    angleSurplus [c] = 0 := by
  simp [angleSurplus, hopen, hclose]

/-! ## The walk back -/

/-- On a walk over the text that starts at the depth, angle brackets are open at every place. -/
def StaysOpen (depth : Int) (t : Text) : Prop :=
  ∀ front : Text, front <+: t → 1 ≤ depth + angleSurplus front

theorem staysOpen_nil (h : 1 ≤ depth) : StaysOpen depth [] := by
  intro front hfront
  rw [List.prefix_nil.1 hfront, angleSurplus_nil]
  omega

theorem StaysOpen.cons (h : 1 ≤ depth) (ht : StaysOpen (depth + angleSurplus [c]) t) :
    StaysOpen depth (c :: t) := by
  intro front hfront
  rcases List.prefix_cons_iff.1 hfront with rfl | ⟨rest, rfl, hrest⟩
  · rw [angleSurplus_nil]
    omega
  · have hopen := ht rest hrest
    rw [angleSurplus_cons]
    omega

/-- A step of the walk where brackets are open: it stops at the bracket that opens the last open
one, and goes on with brackets open otherwise. -/
theorem angleGroup?_step (h : 1 ≤ depth) (c : CodePoint) (before : Text) :
    (c = '<' ∧ depth = 1) ∨ (1 ≤ depth + angleSurplus [c]
      ∧ angleGroup? depth (c :: before)
        = (angleGroup? (depth + angleSurplus [c]) before).map
          fun found => (c :: found.1, found.2)) := by
  by_cases hopen : c = '<'
  · subst hopen
    by_cases hlast : depth = 1
    · exact .inl ⟨rfl, hlast⟩
    · obtain ⟨outer, rfl⟩ : ∃ outer, depth = outer + 1 := ⟨depth - 1, by omega⟩
      have houter : 1 ≤ outer := by omega
      have hdepth : outer + 1 + angleSurplus [.ofChar '<'] = outer :=
        Int.add_neg_cancel_right outer 1
      rw [hdepth]
      exact .inr ⟨houter, angleGroup?_opening houter before⟩
  by_cases hclose : c = '>'
  · subst hclose
    have hdepth : depth + angleSurplus [.ofChar '>'] = depth + 1 := rfl
    rw [hdepth]
    exact .inr ⟨by omega, angleGroup?_closing depth before⟩
  · rw [angleSurplus_other hopen hclose, Int.add_zero]
    exact .inr ⟨h, angleGroup?_other hopen hclose depth before⟩

/-- The walk either finds no group, and brackets stay open over the whole text, or it stops at an
opening bracket up to which they stay open and where just one is. -/
theorem angleGroup?_cases (h : 1 ≤ depth) (t : Text) :
    (angleGroup? depth t = none ∧ StaysOpen depth t)
      ∨ ∃ inner before : Text, angleGroup? depth t = some (inner ++ [.ofChar '<'], before)
        ∧ t = inner ++ .ofChar '<' :: before ∧ StaysOpen depth inner
          ∧ depth + angleSurplus inner = 1 := by
  -- the depth is positive at every step that does not stop, so the hypothesis is the invariant
  induction t generalizing depth with
  | nil => exact .inl ⟨rfl, staysOpen_nil h⟩
  | cons c t ih =>
      rcases angleGroup?_step h c t with ⟨rfl, rfl⟩ | ⟨hopen, hstep⟩
      · exact .inr ⟨[], t, angleGroup?_last t, rfl, staysOpen_nil h, rfl⟩
      rcases ih hopen with ⟨hnone, hstays⟩ | ⟨inner, before, hsome, rfl, hstays, hone⟩
      · refine .inl ⟨?_, hstays.cons h⟩
        rw [hstep, hnone]
        rfl
      · refine .inr ⟨c :: inner, before, ?_, rfl, hstays.cons h, ?_⟩
        · rw [hstep, hsome]
          rfl
        · rw [angleSurplus_cons]
          omega

/-- Where brackets stay open behind a closing bracket on the walk back, every end of the text has
closing brackets to spare. -/
theorem StaysOpen.count_lt {back : Text} (h : StaysOpen 1 back)
    (hs : s <:+ back.reverse ++ [.ofChar '>']) (hne : s ≠ []) :
    s.count (.ofChar '<') < s.count (.ofChar '>') := by
  have hback : s.reverse <+: '>' :: back := by
    rw [← List.reverse_suffix, List.reverse_reverse, List.reverse_cons]
    exact hs
  rcases List.prefix_cons_iff.1 hback with hnil | ⟨front, hfront, hprefix⟩
  · exact absurd (List.reverse_eq_nil_iff.1 hnil) hne
  · have hopen : 1 ≤ angleSurplus s := by
      have hstays := h front hprefix
      rwa [← angleSurplus_reverse, hfront, angleSurplus_cons]
    rw [angleSurplus] at hopen
    omega

/-! ## Even ends -/

/-- An end of the text that starts with an opening angle bracket and has as many opening angle
brackets as closing ones. -/
structure EvenEnd (t s : Text) : Prop where
  isEnd : s <:+ t
  opens : s.head? = some (.ofChar '<')
  even : s.count (.ofChar '<') = s.count (.ofChar '>')

theorem EvenEnd.ne_nil (h : EvenEnd t s) : s ≠ [] := by
  rintro rfl
  cases h.opens

/-- The text is a header, white space, and its shortest even end. In every other end of that group
there are more closing brackets than opening ones. -/
structure LastGroup (t header group : Text) : Prop where
  text : ∃ gap : Text, (∀ c ∈ gap, isBlank c = true) ∧ t = header ++ (gap ++ group)
  trimmed : StopsAt isBlank header.reverse
  evenEnd : EvenEnd t group
  shortest : ∀ s, EvenEnd t s → group.length ≤ s.length
  inner : ∀ s, s <:+ group → s ≠ group → s ≠ [] → s.count (.ofChar '<') < s.count (.ofChar '>')

/-- An even end whose own ends all have closing brackets to spare is the shortest one. -/
theorem EvenEnd.lastGroup {before group : Text} (h : EvenEnd (before ++ group) group)
    (hinner : ∀ s, s <:+ group → s ≠ group → s ≠ [] →
      s.count (.ofChar '<') < s.count (.ofChar '>')) :
    LastGroup (before ++ group) (trimEnd before) group where
  text := by
    obtain ⟨gap, hgap, hbefore⟩ := exists_gap_trimEnd before
    exact ⟨gap, hgap, by rw [← List.append_assoc, ← hbefore]⟩
  trimmed := stopsAt_trimEnd before
  evenEnd := h
  shortest := by
    intro s hs
    by_contra hlt
    have hsuffix : s <:+ group := List.suffix_of_suffix_length_le hs.isEnd h.isEnd (by omega)
    have hne : s ≠ group := by
      rintro rfl
      exact hlt (Nat.le_refl _)
    have hspare := hinner s hsuffix hne hs.ne_nil
    have heven := hs.even
    omega
  inner := hinner

/-- Where brackets stay open behind the closing bracket no end is even. -/
theorem StaysOpen.not_evenEnd {back : Text} (h : StaysOpen 1 back) :
    ¬ EvenEnd (back.reverse ++ [.ofChar '>']) s := by
  intro hs
  have hspare := h.count_lt hs.isEnd hs.ne_nil
  have heven := hs.even
  omega

/-- Where brackets stay open up to the bracket that opens the last one, the last group starts. -/
theorem StaysOpen.lastGroup {inner : Text} (h : StaysOpen 1 inner)
    (hone : 1 + angleSurplus inner = 1) (before : Text) :
    LastGroup (before ++ .ofChar '<' :: (inner.reverse ++ [.ofChar '>'])) (trimEnd before)
      ('<' :: (inner.reverse ++ [.ofChar '>'])) := by
  have hsurplus : angleSurplus ('<' :: (inner.reverse ++ [.ofChar '>'])) = 0 := by
    rw [angleSurplus_cons, angleSurplus_append, angleSurplus_reverse]
    show -1 + (angleSurplus inner + 1) = 0
    omega
  have heven : EvenEnd (before ++ .ofChar '<' :: (inner.reverse ++ [.ofChar '>']))
      ('<' :: (inner.reverse ++ [.ofChar '>'])) := by
    refine ⟨List.suffix_append _ _, rfl, ?_⟩
    rw [angleSurplus] at hsurplus
    omega
  refine heven.lastGroup fun s hs hne hnil => ?_
  -- without its opening bracket the group is what the walk has read before it stops
  exact h.count_lt ((List.suffix_cons_iff.1 hs).resolve_left hne) hnil

/-! ## Type parameters -/

/-- White space at the end of a header does not count. -/
theorem splitTypeParameters_trimEnd (header : Text) :
    splitTypeParameters (trimEnd header) = splitTypeParameters header := by
  unfold splitTypeParameters
  simp only [trimEnd_eq_self (stopsAt_trimEnd header)]

/-- Where no closing angle bracket ends the header there are no type parameters. -/
theorem splitTypeParameters_of_getLast?_ne {header : Text}
    (hlast : (trimEnd header).getLast? ≠ some (.ofChar '>')) :
    splitTypeParameters header = .ok (trimEnd header, []) := by
  rw [← splitTypeParameters_trimEnd]
  refine splitTypeParameters_eq_self (stopsAt_trimEnd header) ?_
  rw [← List.head?_reverse] at hlast
  cases hreverse : (trimEnd header).reverse with
  | nil => trivial
  | cons c rest =>
      rw [hreverse] at hlast
      show (c == '>') = false
      simpa using hlast

/-- Behind a closing angle bracket stands the last group, or there is no even end. -/
theorem splitTypeParameters_closing_cases (before : Text) :
    (∃ header group, splitTypeParameters (before ++ [.ofChar '>']) = .ok (header, group)
        ∧ LastGroup (before ++ [.ofChar '>']) header group)
      ∨ (splitTypeParameters (before ++ [.ofChar '>'])
          = .error (.reported (.unbalancedTypeParameters (before ++ [.ofChar '>'])))
        ∧ ∀ s, ¬ EvenEnd (before ++ [.ofChar '>']) s) := by
  have hwalk : angleGroup? 0 (before ++ [.ofChar '>'] : Text).reverse
      = (angleGroup? 1 before.reverse).map fun found => (.ofChar '>' :: found.1, found.2) := by
    rw [List.reverse_append]
    exact angleGroup?_closing 0 before.reverse
  rw [splitTypeParameters_closing, hwalk]
  rcases angleGroup?_cases (Int.le_refl 1) before.reverse with
    ⟨hnone, hstays⟩ | ⟨inner, front, hsome, hreverse, hstays, hone⟩
  · refine .inr ⟨?_, fun s => ?_⟩
    · rw [hnone]
      rfl
    · have hbefore := hstays.not_evenEnd (s := s)
      rwa [List.reverse_reverse] at hbefore
  · have htext : before ++ [.ofChar '>']
        = front.reverse ++ .ofChar '<' :: (inner.reverse ++ [.ofChar '>']) := by
      rw [← List.reverse_reverse before, hreverse]
      simp
    have hgroup : (.ofChar '>' :: (inner ++ [.ofChar '<'])).reverse
        = .ofChar '<' :: (inner.reverse ++ [.ofChar '>']) := by simp
    refine .inl ⟨trimEnd front.reverse, '<' :: (inner.reverse ++ [.ofChar '>']), ?_, ?_⟩
    · rw [hsome, ← hgroup]
      rfl
    · rw [htext]
      exact hstays.lastGroup hone front.reverse

/-- **The last group of angle brackets.** A header that does not end in a closing angle bracket,
white space aside, has no type parameters. Where it does and some end is even, the type parameters
are the shortest even end, and what stands in front loses the white space at its end. Where no end
is even there is an error about declarations. -/
theorem splitTypeParameters_lastGroup (header : Text) :
    ((trimEnd header).getLast? ≠ some (.ofChar '>') →
        splitTypeParameters header = .ok (trimEnd header, []))
      ∧ ((trimEnd header).getLast? = some (.ofChar '>') → (∃ s, EvenEnd (trimEnd header) s) →
        ∃ declared group, splitTypeParameters header = .ok (declared, group)
          ∧ LastGroup (trimEnd header) declared group)
      ∧ ((trimEnd header).getLast? = some (.ofChar '>') → (∀ s, ¬ EvenEnd (trimEnd header) s) →
        ∃ f, splitTypeParameters header = .error f ∧ IsDeclarationError f
          ∧ f = .reported (.unbalancedTypeParameters (trimEnd header))) := by
  refine ⟨splitTypeParameters_of_getLast?_ne, ?_⟩
  have hcases : (trimEnd header).getLast? = some (.ofChar '>') →
      (∃ declared group, splitTypeParameters header = .ok (declared, group)
          ∧ LastGroup (trimEnd header) declared group)
        ∨ (splitTypeParameters header
            = .error (.reported (.unbalancedTypeParameters (trimEnd header)))
          ∧ ∀ s, ¬ EvenEnd (trimEnd header) s) := by
    intro hlast
    obtain ⟨before, hbefore⟩ := List.getLast?_eq_some_iff.1 hlast
    rw [← splitTypeParameters_trimEnd, hbefore]
    exact splitTypeParameters_closing_cases before
  constructor
  · rintro hlast ⟨s, hs⟩
    rcases hcases hlast with hfound | ⟨-, hnone⟩
    · exact hfound
    · exact absurd hs (hnone s)
  · intro hlast hnone
    rcases hcases hlast with ⟨declared, group, -, hgroup⟩ | ⟨herror, -⟩
    · exact absurd hgroup.evenEnd (hnone group)
    · exact ⟨_, herror, ⟨_, rfl, rfl⟩, rfl⟩

/-- A header with groups in its return type and in a bound, and white space in front of the last
group and behind it. -/
def boundedHeader : Text :=
  "Map<K, List<V>> load \t<K, V extends Map<K, K>> \n".toText

/-- A header with a closing bracket too many at its end. -/
def overclosedHeader : Text :=
  "Map<K, V> load<T>> ".toText

/-- The last group goes back to the bracket that opens it, past the group of the bound, and with a
closing bracket too many no group does. -/
theorem splitTypeParameters_lastGroup_boundedHeader :
    (trimEnd boundedHeader).getLast? = some (.ofChar '>')
      ∧ (∃ s, EvenEnd (trimEnd boundedHeader) s)
      ∧ LastGroup (trimEnd boundedHeader) "Map<K, List<V>> load".toText
        "<K, V extends Map<K, K>>".toText
      ∧ (trimEnd overclosedHeader).getLast? = some (.ofChar '>')
      ∧ (∀ s, ¬ EvenEnd (trimEnd overclosedHeader) s)
      ∧ ∃ f, splitTypeParameters overclosedHeader = .error f ∧ IsDeclarationError f := by
  have hlast : (trimEnd boundedHeader).getLast? = some (.ofChar '>') := by decide
  have heven : ∃ s, EvenEnd (trimEnd boundedHeader) s :=
    ⟨"<K, V extends Map<K, K>>".toText, by decide, by decide, by decide⟩
  have hsplit : splitTypeParameters boundedHeader
      = .ok ("Map<K, List<V>> load".toText, "<K, V extends Map<K, K>>".toText) := by rfl
  obtain ⟨-, hgroup, -⟩ := splitTypeParameters_lastGroup boundedHeader
  obtain ⟨declared, group, hfound, hlastGroup⟩ := hgroup hlast heven
  rw [hsplit] at hfound
  cases hfound
  have hlast' : (trimEnd overclosedHeader).getLast? = some (.ofChar '>') := by decide
  have hnone : ∀ s, ¬ EvenEnd (trimEnd overclosedHeader) s := by
    rintro s ⟨hend, hopens, heven'⟩
    have hall : ∀ u ∈ (trimEnd overclosedHeader).tails, u.head? = some (.ofChar '<') →
        u.count (.ofChar '<') ≠ u.count (.ofChar '>') := by decide
    exact hall s ((List.mem_tails s _).2 hend) hopens heven'
  obtain ⟨-, -, herror⟩ := splitTypeParameters_lastGroup overclosedHeader
  obtain ⟨f, hf, hdeclaration, -⟩ := herror hlast' hnone
  exact ⟨hlast, heven, hlastGroup, hlast', hnone, f, hf, hdeclaration⟩

end Source

end DartDecoders
