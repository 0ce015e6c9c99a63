/-
The two ways past annotations.

A declaration in the middle of a source and a member of a class are both looked for behind the
annotations in front of them. For the declaration an offset moves over the source (`skipMarkers`);
of the member what is read is cut off, and the rest is trimmed before the next annotation is tried
(`withoutMarkers`). So the two look at texts that differ by white space at the end and at arguments
whose offsets count from different places. Neither matters: white space at the end holds no bracket
and closes no literal, so the partner of a bracket stays where it is (`partnerFrom_gap`), and an
offset only shifts the walk to it (`partnerFrom_add`). Hence both pass over the same annotations
and give up at the same one.

That the offset moves as the pattern of annotations and the search for a partner move it is said by
a relation on offsets (`SkipsFrom`), of which `skipMarkers` is the one outcome.
-/
import DartDecoders.Proofs.AdjacentTexts
import DartDecoders.Proofs.Annotations
import DartDecoders.Proofs.BracketGroups
import DartDecoders.Proofs.CommentPattern
import DartDecoders.Proofs.Members
import DartDecoders.Proofs.ScanFaults

set_option autoImplicit false

namespace DartDecoders

namespace Source

open Text

/-! ## White space behind a text -/

variable {t gap : Text}

/-- White space behind a literal that runs to the end of the text is taken by it, or left as it is.
-/
theorem blank_of_mem_afterLiteral {quote : CodePoint} (hgap : ∀ c ∈ gap, isBlank c = true)
    (h : afterLiteral quote t = []) : ∀ c ∈ afterLiteral quote (t ++ gap), isBlank c = true := by
  intro c hc
  rcases List.suffix_or_suffix_of_suffix (afterLiteral_suffix quote (t ++ gap))
    (List.suffix_append t gap) with hwithin | ⟨x, hx⟩
  · exact hgap c (hwithin.subset hc)
  · by_cases hnil : x = []
    · rw [hnil, List.nil_append] at hx
      exact hgap c (hx ▸ hc)
    -- a literal that ends within the text would end there without the white space too
    · have hne : afterLiteral quote (t ++ gap) ≠ [] := List.ne_nil_of_mem hc
      obtain ⟨s, hs, hlaw⟩ := exists_afterLiteral hne
      rw [← hx] at hs hlaw
      have ht : t = s ++ quote :: x := by
        refine List.append_cancel_right (hs.trans ?_)
        simp
      have hend : afterLiteral quote (s ++ quote :: x) = x :=
        hlaw x fun hstop => by
          obtain ⟨d, x, rfl⟩ := List.exists_cons_of_ne_nil hnil
          exact hstop
      rw [ht, hend] at h
      exact absurd h hnil

/-- White space holds no partner. -/
theorem partnerFrom_blank (hgap : ∀ c ∈ gap, isBlank c = true) (awaited : List CodePoint)
    (offset : Nat) : partnerFrom awaited offset (pieces gap) = .unclosed := by
  rw [pieces_gap hgap]
  induction gap generalizing offset with
  | nil => rfl
  | cons c gap ih =>
      obtain ⟨hc, hothers⟩ := List.forall_mem_cons.1 hgap
      obtain ⟨-, hbracket, -⟩ := plain_of_isBlank hc
      simp only [isBracket, Bool.or_eq_false_iff, Option.isSome_eq_false_iff,
        Option.isNone_iff_eq_none] at hbracket
      simp only [List.map_cons, partnerFrom, hbracket.1, hbracket.2, Bool.false_eq_true, if_false]
      exact ih hothers (offset + 1)

/-- The walk to a partner does not see white space at the end of the text. The induction is on the
pieces of the text in front of it; only a literal that is open at its end takes the white space. -/
theorem partnerFrom_gap (hgap : ∀ c ∈ gap, isBlank c = true) (t : Text) :
    ∀ (awaited : List CodePoint) (offset : Nat),
      partnerFrom awaited offset (pieces (t ++ gap)) = partnerFrom awaited offset (pieces t) := by
  induction t using pieces.induct with
  | case1 =>
      intro awaited offset
      rw [List.nil_append, partnerFrom_blank hgap, pieces_nil]
      rfl
  | case2 c t hquote ih =>
      intro awaited offset
      by_cases hnil : afterLiteral c t = []
      · have hblank := blank_of_mem_afterLiteral hgap hnil
        rw [List.cons_append, pieces, if_pos hquote, partnerFrom, partnerFrom_blank hblank, pieces,
          if_pos hquote, partnerFrom, hnil, pieces_nil]
        rfl
      · obtain ⟨s, hs, hlaw⟩ := exists_pieces_literal hquote hnil
        have halone := hlaw (afterLiteral c t) id
        have hlonger := hlaw (afterLiteral c t ++ gap) fun hstop =>
          stopsAt_append_of_ne_nil hnil hstop gap
        rw [← hs] at halone
        have htext : c :: t ++ gap = c :: (s ++ c :: (afterLiteral c t ++ gap)) := by
          conv_lhs => rw [hs]
          simp
        rw [htext, hlonger, halone, partnerFrom, partnerFrom, ih]
  | case3 c t hquote ih =>
      intro awaited offset
      have hchar : isQuote c = false := by simpa using hquote
      rw [List.cons_append, pieces_cons hchar, pieces_cons hchar]
      simp only [partnerFrom, ih]

/-! ## Offsets -/

/-- The same outcome in a text that starts so many characters further on. -/
def Partner.shift (d : Nat) : Partner → Partner
  | .found offset => .found (d + offset)
  | .unbalanced bracket offset => .unbalanced bracket (d + offset)
  | .unclosed => .unclosed

theorem partnerFrom_add (d : Nat) (awaited : List CodePoint) (offset : Nat) (ps : List Piece) :
    partnerFrom awaited (d + offset) ps = (partnerFrom awaited offset ps).shift d := by
  induction ps generalizing awaited offset with
  | nil => rfl
  | cons p ps ih =>
      cases p with
      | literal s =>
          rw [partnerFrom, partnerFrom, Nat.add_assoc, ih]
      | char c =>
          simp only [partnerFrom, Nat.add_assoc]
          cases closerOf? c with
          | some closer => exact ih _ _
          | none =>
              dsimp only
              split
              · cases awaited with
                | nil => rfl
                | cons closer others =>
                    dsimp only
                    split
                    · split
                      · rfl
                      · exact ih _ _
                    · rfl
              · exact ih _ _

/-- A partner is found at a distance from the bracket, wherever the text starts. -/
theorem partner_eq_ok_iff {offset close : Nat} :
    partner offset t = .ok close
      ↔ ∃ width, partnerFrom [] 0 (pieces t) = .found width ∧ close = offset + width := by
  have hshift := partnerFrom_add offset [] 0 (pieces t)
  rw [Nat.add_zero] at hshift
  unfold partner
  rw [hshift]
  cases partnerFrom [] 0 (pieces t) with
  | found width => simp [Partner.shift, eq_comm]
  | unbalanced bracket width => simp [Partner.shift]
  | unclosed => cases t <;> simp [Partner.shift]

/-! ## One annotation -/

theorem trimStart_append_of_ne_nil (h : trimStart t ≠ []) (rest : Text) :
    trimStart (t ++ rest) = trimStart t ++ rest := by
  rw [trimStart, List.dropWhile_append, if_neg (by simpa [trimStart] using h)]
  rfl

theorem trimStart_eq_nil (h : ∀ c ∈ t, isBlank c = true) : trimStart t = [] :=
  List.dropWhile_eq_nil_iff.2 h

/-- Trimmed or not at its end, a text starts with the same visible text. -/
theorem exists_trimStart_gap (hgap : ∀ c ∈ gap, isBlank c = true) (t : Text) :
    ∃ gap' : Text, (∀ c ∈ gap', isBlank c = true) ∧ trimStart (t ++ gap) = trim t ++ gap' := by
  obtain ⟨before, behind, hbefore, hbehind, ht⟩ := exists_gaps_trim t
  have hafter : ∀ c ∈ behind ++ gap, isBlank c = true := List.forall_mem_append.2 ⟨hbehind, hgap⟩
  have htext : t ++ gap = before ++ (trim t ++ (behind ++ gap)) := by
    conv_lhs => rw [ht]
    simp
  by_cases hnil : trim t = []
  · refine ⟨[], by simp, ?_⟩
    rw [htext, hnil, List.nil_append, trimStart_gap_append hbefore, trimStart_eq_nil hafter]
    rfl
  · refine ⟨behind ++ gap, hafter, ?_⟩
    rw [htext, trimStart_append hbefore (stopsAt_append_of_ne_nil hnil (stopsAt_trim t) _)]

theorem trimEnd_append_gap (hgap : ∀ c ∈ gap, isBlank c = true) (t : Text) :
    trimEnd (t ++ gap) = trimEnd t := by
  have hback : ∀ c ∈ gap.reverse, isBlank c = true := fun c hc => hgap c (List.mem_reverse.1 hc)
  rw [trimEnd, trimEnd, List.reverse_append, List.dropWhile_append_of_pos hback]

/-- White space is no part of an annotation's name. -/
theorem markerTail?_gap (hgap : ∀ c ∈ gap, isBlank c = true) (t : Text) :
    markerTail? (t ++ gap) = (markerTail? t).map (· ++ gap) := by
  have hstop : StopsAt isMarkerChar gap := stopsAt_of_forall fun c hc =>
    forall_isBlank (p := fun c => isMarkerChar c = false) (by decide +kernel) (hgap c hc)
  have hblank : StopsAt (· == '@') gap := stopsAt_of_forall fun c hc =>
    forall_isBlank (p := fun c => (c == '@') = false) (by decide +kernel) (hgap c hc)
  cases t with
  | nil => exact markerTail?_eq_none hblank
  | cons c t =>
      by_cases hc : c = '@'
      · subst hc
        obtain ⟨run, rest, hrun, hrest, rfl⟩ : ∃ run rest, (∀ d ∈ run, isMarkerChar d = true)
            ∧ StopsAt isMarkerChar rest ∧ t = run ++ rest :=
          ⟨t.takeWhile isMarkerChar, t.dropWhile isMarkerChar,
            fun d hd => List.all_eq_true.1 List.all_takeWhile d hd, stopsAt_dropWhile _ _,
            List.takeWhile_append_dropWhile.symm⟩
        rw [List.cons_append, List.append_assoc, markerTail?, markerTail?,
          takeWhile_append_of_stopsAt hrun hrest, dropWhile_append_of_stopsAt hrun hrest,
          takeWhile_append_of_stopsAt hrun (hrest.append hstop),
          dropWhile_append_of_stopsAt hrun (hrest.append hstop)]
        by_cases hnil : run.isEmpty = true
        · rw [if_pos hnil, if_pos hnil]
          rfl
        · rw [if_neg hnil, if_neg hnil]
          rfl
      · have hother : (c == '@') = false := beq_eq_false_iff_ne.2 hc
        rw [markerTail?_eq_none (t := c :: t) hother,
            markerTail?_eq_none (t := c :: t ++ gap) hother]
        rfl

variable {total total' : Nat} {behind inside after : Text}

theorem behindArguments_eq_self (h : ∀ inside, trimStart behind ≠ .ofChar '(' :: inside) :
    behindArguments total behind = .ok behind := by
  unfold behindArguments
  split
  · next inside hinside => exact absurd hinside (h inside)
  · rfl

theorem behindArguments_of_opening (h : trimStart behind = .ofChar '(' :: inside) :
    behindArguments total behind
      = (partner (total - (inside.length + 1)) (.ofChar '(' :: inside)).map fun close =>
        inside.drop (close - (total - (inside.length + 1))) := by
  unfold behindArguments
  rw [h]
  rfl

/-- Arguments end at the partner of their parenthesis. -/
theorem behindArguments_eq_ok_iff (h : trimStart behind = .ofChar '(' :: inside) :
    behindArguments total behind = .ok after ↔ ∃ width,
      partnerFrom [] 0 (pieces (.ofChar '(' :: inside)) = .found width
        ∧ after = inside.drop width := by
  rw [behindArguments_of_opening h]
  constructor
  · intro hafter
    cases hpartner : partner (total - (inside.length + 1)) (.ofChar '(' :: inside) with
    | error f =>
        rw [hpartner] at hafter
        cases hafter
    | ok close =>
        rw [hpartner] at hafter
        cases hafter
        obtain ⟨width, hwidth, rfl⟩ := partner_eq_ok_iff.1 hpartner
        exact ⟨width, hwidth, congrArg inside.drop (Nat.add_sub_cancel_left ..)⟩
  · rintro ⟨width, hwidth, rfl⟩
    rw [partner_eq_ok_iff.2 ⟨width, hwidth, rfl⟩]
    simp only [Except.map, Nat.add_sub_cancel_left]

/-- The partner of an opening bracket stands in the text. -/
theorem width_le_of_found {opener : CodePoint} {width : Nat}
    (hopens : (closerOf? opener).isSome = true)
    (h : partnerFrom [] 0 (pieces (opener :: inside)) = .found width) :
    width ≤ inside.length := by
  have hfirst : (opener :: inside)[0]? = some opener := rfl
  obtain ⟨_, _, -, -, -, hcloser⟩ := (partnerFrom_eq_iff hfirst hopens (.found width)).1 h
  exact Nat.le_of_lt_succ (lt_length_of_getElem? hcloser)

/-- Neither white space at the end nor the start of the offsets changes what stands behind arguments
and whether they end. -/
theorem behindArguments_gap (hgap : ∀ c ∈ gap, isBlank c = true) (total total' : Nat)
    (behind : Text) :
    (∃ f g, behindArguments total behind = .error f
        ∧ behindArguments total' (behind ++ gap) = .error g)
      ∨ ∃ after, behindArguments total behind = .ok after
        ∧ behindArguments total' (behind ++ gap) = .ok (after ++ gap) := by
  by_cases hopen : ∃ inside, trimStart behind = .ofChar '(' :: inside
  · obtain ⟨inside, hinside⟩ := hopen
    have hlonger : trimStart (behind ++ gap) = .ofChar '(' :: (inside ++ gap) := by
      rw [trimStart_append_of_ne_nil (by simp [hinside]), hinside]
      rfl
    have hwalk : partnerFrom [] 0 (pieces (.ofChar '(' :: (inside ++ gap)))
        = partnerFrom [] 0 (pieces (.ofChar '(' :: inside)) :=
      partnerFrom_gap hgap (.ofChar '(' :: inside) [] 0
    cases hafter : behindArguments total behind with
    | ok after =>
        obtain ⟨width, hwidth, rfl⟩ := (behindArguments_eq_ok_iff hinside).1 hafter
        refine .inr ⟨_, rfl, (behindArguments_eq_ok_iff hlonger).2 ⟨width, hwalk.trans hwidth, ?_⟩⟩
        rw [List.drop_append_of_le_length (width_le_of_found rfl hwidth)]
    | error f =>
        cases hlater : behindArguments total' (behind ++ gap) with
        | error g => exact .inl ⟨f, g, rfl, rfl⟩
        | ok after =>
            obtain ⟨width, hwidth, -⟩ := (behindArguments_eq_ok_iff hlonger).1 hlater
            rw [(behindArguments_eq_ok_iff hinside).2 ⟨width, hwalk.symm.trans hwidth, rfl⟩]
              at hafter
            cases hafter
  · have hnone : ∀ inside, trimStart behind ≠ .ofChar '(' :: inside := fun inside h =>
      hopen ⟨inside, h⟩
    refine .inr ⟨behind, behindArguments_eq_self hnone, behindArguments_eq_self ?_⟩
    intro inside hinside
    -- without visible text behind the name, all that is left is white space
    by_cases hnil : trimStart behind = []
    · have hblank : ∀ c ∈ behind ++ gap, isBlank c = true :=
        List.forall_mem_append.2 ⟨List.dropWhile_eq_nil_iff.1 hnil, hgap⟩
      rw [trimStart_eq_nil hblank] at hinside
      cases hinside
    · rw [trimStart_append_of_ne_nil hnil] at hinside
      obtain ⟨c, rest, hrest⟩ := List.exists_cons_of_ne_nil hnil
      rw [hrest] at hinside
      exact hnone rest (by rw [hrest, (List.cons.inj hinside).1])

/-! ## All annotations -/

/-- Where no annotation starts, what is left starts with the first visible character. -/
theorem skipMarkers_of_eq_none (h : markerTail? (trimStart t) = none) :
    skipMarkers total t = .ok (trimStart t) := by
  rw [skipMarkers]
  split
  · rfl
  · next behind hbehind =>
      rw [h] at hbehind
      cases hbehind

/-- Where an annotation starts, it goes on behind its arguments. -/
theorem skipMarkers_of_eq_some (h : markerTail? (trimStart t) = some behind) :
    skipMarkers total t = (behindArguments total behind).bind (skipMarkers total) := by
  rw [skipMarkers]
  split
  · next hnone =>
      rw [h] at hnone
      cases hnone
  · next found hfound =>
      rw [h] at hfound
      cases hfound
      split
      · next f hf =>
          rw [hf]
          rfl
      · next after hafter =>
          rw [hafter]
          rfl

theorem withoutMarkers_eq_bind (h : markerTail? (trim t) = some behind) :
    withoutMarkers t = (behindArguments (trim t).length behind).bind withoutMarkers := by
  cases hafter : behindArguments (trim t).length behind with
  | ok after => exact withoutMarkers_of_eq_some h hafter
  | error f =>
      rw [withoutMarkers]
      split
      · next hnone =>
          rw [h] at hnone
          cases hnone
      · next found hfound =>
          rw [h] at hfound
          cases hfound
          split
          · next g hg => exact hg.symm.trans hafter
          · next after hother =>
              rw [hafter] at hother
              cases hother

/-- Both ways pass over the same annotations, and fail at the same one. The induction is on the
annotations of the member; the white space behind it is what trimming has taken off so far. -/
theorem withoutMarkers_gap_cases (total : Nat) (t gap : Text) (hgap : ∀ c ∈ gap, isBlank c = true) :
    (∃ f g, skipMarkers total (t ++ gap) = .error f ∧ withoutMarkers t = .error g)
      ∨ ∃ rest, skipMarkers total (t ++ gap) = .ok rest
        ∧ withoutMarkers t = .ok (trimEnd rest) := by
  obtain ⟨gap', hgap', hstart⟩ := exists_trimStart_gap hgap t
  have htail := markerTail?_gap hgap' (trim t)
  rw [← hstart] at htail
  cases hmember : markerTail? (trim t) with
  | none =>
      rw [hmember] at htail
      refine .inr ⟨_, skipMarkers_of_eq_none htail, ?_⟩
      rw [withoutMarkers_of_eq_none hmember, hstart, trimEnd_append_gap hgap',
        trimEnd_eq_self (trimmed_trim t).finish]
  | some behind =>
      rw [hmember] at htail
      rw [skipMarkers_of_eq_some htail, withoutMarkers_eq_bind hmember]
      rcases behindArguments_gap hgap' (trim t).length total behind with
        ⟨f, g, hf, hg⟩ | ⟨after, hafter, hlater⟩
      · rw [hf, hg]
        exact .inl ⟨g, f, rfl, rfl⟩
      · have hshorter : after.length < t.length := by
          have htrim := length_trim_le t
          have hname := length_markerTail? hmember
          have harguments := length_behindArguments hafter
          omega
        rw [hafter, hlater]
        exact withoutMarkers_gap_cases total after gap' hgap'
termination_by t.length

/-! ## The pattern of annotations -/

/-- An annotation: the sign, a dotted name, and perhaps white space and an opening parenthesis. -/
def Pattern.marker : Pattern :=
  .seq (.word ['@']) (.seq (.one isMarkerChar) (.seq (.many true (.one isMarkerChar))
    (.alt (.seq (.many true (.one isBlank)) (.word ['('])) (.word []))))

/-- Where the first part of a pattern prefers an end and the second part matches there, no other end
is tried. -/
theorem match?_seq_of_some {p q : Pattern} {t rest found : Text} (hp : p.match? t = some rest)
    (hq : q.match? rest = some found) : (Pattern.seq p q).match? t = some found := by
  rw [Pattern.match?] at hp hq
  obtain ⟨others, hothers⟩ := List.head?_eq_some_iff.1 hp
  rw [Pattern.match?, Pattern.rests, hothers, List.flatMap_cons, List.head?_append, hq]
  rfl

/-- Behind a run of characters of a kind a character of another kind can only stand at its end. -/
theorem match?_run_char {among : CodePoint → Bool} {c : CodePoint} (hc : among c = false)
    (t : Text) :
    (Pattern.seq (.many true (.one among)) (.word [c])).match? t
      = dropStart? [c] (t.dropWhile among) := by
  show ((afterRounds true (Pattern.one among).rests t).flatMap (Pattern.word [c]).rests).head? = _
  induction t with
  | nil =>
      rw [afterRounds_of_eq_nil rfl]
      rfl
  | cons d t ih =>
      rw [List.dropWhile_cons]
      cases hd : among d with
      | true =>
          have hround : (Pattern.one among).rests (d :: t) = [t] := by rw [Pattern.rests, hd]; rfl
          have hne : c ≠ d := by
            rintro rfl
            rw [hd] at hc
            cases hc
          have hnone : (Pattern.word [c]).rests (d :: t) = [] := by
            simp [Pattern.rests, dropStart?, hne]
          rw [afterRounds_of_eq_singleton hround (Nat.lt_succ_self _), if_pos rfl,
            List.flatMap_append, List.flatMap_singleton, hnone, List.append_nil, ih]
          rfl
      | false =>
          have hround : (Pattern.one among).rests (d :: t) = [] := by rw [Pattern.rests, hd]; rfl
          rw [afterRounds_of_eq_nil hround]
          simp [Pattern.rests]

/-- What the pattern leaves behind the name of an annotation. -/
def behindOpening (behind : Text) : Text :=
  match trimStart behind with
  | .ofChar '(' :: inside => inside
  | _ => behind

theorem behindOpening_of_opening (h : trimStart behind = .ofChar '(' :: inside) :
    behindOpening behind = inside := by
  unfold behindOpening
  rw [h]
  rfl

theorem behindOpening_eq_self (h : ∀ inside, trimStart behind ≠ .ofChar '(' :: inside) :
    behindOpening behind = behind := by
  unfold behindOpening
  split
  · next inside hinside => exact absurd hinside (h inside)
  · rfl

theorem match?_opening (behind : Text) :
    (Pattern.alt (.seq (.many true (.one isBlank)) (.word ['('])) (.word [])).match? behind
      = some (behindOpening behind) := by
  have hword : (Pattern.word []).match? behind = some behind := rfl
  rw [match?_alt, match?_run_char (by decide), hword,
    show behind.dropWhile isBlank = trimStart behind from rfl, behindOpening]
  split
  · next inside hinside =>
      rw [hinside]
      simp [dropStart?]
  · next hnone =>
      rw [dropStart?_eq_none fun inside hinside => hnone inside hinside]
      rfl

/-- The pattern matches where an annotation starts, and takes the parenthesis of its arguments. -/
theorem match?_marker (t : Text) :
    Pattern.marker.match? t = (markerTail? t).map behindOpening := by
  rw [Pattern.marker, match?_seq_word]
  cases t with
  | nil => rfl
  | cons c t =>
      by_cases hc : c = '@'
      · subst hc
        have hsign : dropStart? ['@'] ('@' :: t) = some t := by simp [dropStart?]
        rw [hsign, Option.bind_some, markerTail?]
        cases t with
        | nil => rfl
        | cons d t =>
            cases hd : isMarkerChar d with
            | true =>
                have hfirst : (Pattern.one isMarkerChar).match? (d :: t) = some t := by
                  rw [Pattern.match?, Pattern.rests, hd]
                  rfl
                have hothers := match?_seq_of_some (match?_greedy isMarkerChar t)
                  (match?_opening (t.dropWhile isMarkerChar))
                rw [match?_seq_of_some hfirst hothers, List.takeWhile_cons_of_pos hd,
                  List.dropWhile_cons_of_pos hd]
                rfl
            | false =>
                have hnone : (Pattern.one isMarkerChar).rests (d :: t) = [] := by
                  rw [Pattern.rests, hd]
                  rfl
                rw [Pattern.match?, Pattern.rests, hnone, List.takeWhile_cons_of_neg (by simp [hd])]
                rfl
      · have hsign : dropStart? ['@'] (c :: t) = none :=
          dropStart?_eq_none fun rest h => hc (List.cons.inj h).1
        have hother : (c == '@') = false := beq_eq_false_iff_ne.2 hc
        rw [hsign, markerTail?_eq_none (t := c :: t) hother]
        rfl

/-! ## Offsets of annotations -/

/-- The offset of the first character from an offset on that is not white space. -/
def nextVisible (t : Text) (i : Nat) : Nat :=
  i + ((t.drop i).takeWhile isBlank).length

/-- The way past annotations from an offset on. White space is passed over first. Where the pattern
does not match, the way ends; where it matches a name, it goes on behind the match, and where it
matches a parenthesis too, behind the partner of that. Without a partner it fails. -/
inductive SkipsFrom (t : Text) : Nat → Except Fault Nat → Prop
  | done {i : Nat} : Pattern.marker.match? (t.drop (nextVisible t i)) = none →
    SkipsFrom t i (.ok (nextVisible t i))
  | name {i k : Nat} {r : Except Fault Nat} : k ≤ t.length →
    Pattern.marker.match? (t.drop (nextVisible t i)) = some (t.drop k) →
      t[k - 1]? ≠ some (.ofChar '(') →
    SkipsFrom t k r → SkipsFrom t i r
  | arguments {i k close : Nat} {r : Except Fault Nat} : k ≤ t.length →
    Pattern.marker.match? (t.drop (nextVisible t i)) = some (t.drop k) →
      t[k - 1]? = some (.ofChar '(') →
    findMatching t (k - 1 : Nat) = .ok (close : Int) → SkipsFrom t (close + 1) r → SkipsFrom t i r
  | unpaired {i k : Nat} {f : Fault} : k ≤ t.length →
    Pattern.marker.match? (t.drop (nextVisible t i)) = some (t.drop k) →
      t[k - 1]? = some (.ofChar '(') →
    findMatching t (k - 1 : Nat) = .error f → SkipsFrom t i (.error f)

variable {i j k : Nat}

theorem drop_nextVisible (t : Text) (i : Nat) :
    t.drop (nextVisible t i) = trimStart (t.drop i) := by
  have hsplit : (t.drop i).takeWhile isBlank ++ trimStart (t.drop i) = t.drop i :=
    List.takeWhile_append_dropWhile
  calc t.drop (nextVisible t i)
      = (t.drop i).drop ((t.drop i).takeWhile isBlank).length := by rw [nextVisible, List.drop_drop]
    _ = ((t.drop i).takeWhile isBlank ++ trimStart (t.drop i)).drop
        ((t.drop i).takeWhile isBlank).length := by rw [hsplit]
    _ = trimStart (t.drop i) := List.drop_left

theorem nextVisible_le (hi : i ≤ t.length) : nextVisible t i ≤ t.length := by
  have htake := (List.takeWhile_sublist (l := t.drop i) isBlank).length_le
  rw [List.length_drop] at htake
  rw [nextVisible]
  omega

/-- What stands behind a character in an end of the text is an end of the text itself. -/
theorem exists_drop_of_drop_eq {before rest : Text} {c : CodePoint} (hj : j ≤ t.length)
    (h : t.drop j = before ++ c :: rest) :
    ∃ k, j < k ∧ k ≤ t.length ∧ rest = t.drop k ∧ t[k - 1]? = some c := by
  have hlength := congrArg List.length h
  simp only [List.length_drop, List.length_append, List.length_cons] at hlength
  have hplace : j + (before.length + 1) - 1 = j + before.length := by omega
  refine ⟨j + (before.length + 1), by omega, by omega, ?_, ?_⟩
  · rw [← List.drop_drop, h]
    simp
  · rw [hplace, ← List.getElem?_drop, h]
    simp

/-- Where the arguments of an annotation open, the text goes on behind the partner of the
parenthesis. -/
theorem behindArguments_eq_findMatching (hpos : 0 < k) (hk : k ≤ t.length)
    (hopen : t[k - 1]? = some (.ofChar '(')) (h : trimStart behind = .ofChar '(' :: t.drop k) :
    behindArguments t.length behind
      = (findMatching t (k - 1 : Nat)).map fun close => t.drop (close.toNat + 1) := by
  have hplace : t.length - ((t.drop k).length + 1) = k - 1 := by
    rw [List.length_drop]
    omega
  have hdrop : t.drop (k - 1) = .ofChar '(' :: t.drop k := by
    rw [drop_of_getElem? hopen, Nat.sub_add_cancel hpos]
  have hfind : findMatching t (k - 1 : Nat) = (partner (k - 1) (t.drop (k - 1))).map Int.ofNat :=
    rfl
  rw [behindArguments_of_opening h, hplace, hfind, hdrop]
  cases hpartner : partner (k - 1) ('(' :: t.drop k) with
  | error f => rfl
  | ok close =>
      obtain ⟨width, -, rfl⟩ := partner_eq_ok_iff.1 hpartner
      have hwidth : k + (k - 1 + width - (k - 1)) = k - 1 + width + 1 := by omega
      simp only [Except.map, List.drop_drop, hwidth]
      rfl

/-- An annotation's name ends with a character of names. -/
theorem exists_of_markerTail? (h : markerTail? t = some behind) :
    ∃ before d, t = before ++ d :: behind ∧ isMarkerChar d = true := by
  unfold markerTail? at h
  split at h
  · next rest =>
      split at h
      · cases h
      · next hnonempty =>
          cases h
          obtain ⟨run, d, hrun⟩ :=
            (List.eq_nil_or_concat' (rest.takeWhile isMarkerChar)).resolve_left
              (by simpa using hnonempty)
          have hd : d ∈ rest.takeWhile isMarkerChar := by simp [hrun]
          refine ⟨'@' :: run, d, ?_, List.all_eq_true.1 List.all_takeWhile d hd⟩
          calc (.ofChar '@') :: rest
              = .ofChar '@' :: (rest.takeWhile isMarkerChar ++ rest.dropWhile isMarkerChar) := by
                rw [List.takeWhile_append_dropWhile]
            _ = .ofChar '@' :: run ++ d :: rest.dropWhile isMarkerChar := by rw [hrun]; simp
  · cases h

/-- One step past annotations, by offsets and by what is left of the text. -/
theorem skipMarkers_step (hi : i ≤ t.length) :
    (Pattern.marker.match? (t.drop (nextVisible t i)) = none
        ∧ skipMarkers t.length (t.drop i) = .ok (t.drop (nextVisible t i)))
      ∨ ∃ k, i < k ∧ k ≤ t.length
        ∧ Pattern.marker.match? (t.drop (nextVisible t i)) = some (t.drop k)
        ∧ (t[k - 1]? ≠ some (.ofChar '(')
            ∧ skipMarkers t.length (t.drop i) = skipMarkers t.length (t.drop k)
          ∨ t[k - 1]? = some (.ofChar '(') ∧ skipMarkers t.length (t.drop i)
            = (findMatching t (k - 1 : Nat)).bind fun close =>
              skipMarkers t.length (t.drop (close.toNat + 1))) := by
  have hstart := drop_nextVisible t i
  have hforward : i ≤ nextVisible t i := Nat.le_add_right ..
  cases htail : markerTail? (trimStart (t.drop i)) with
  | none =>
      rw [skipMarkers_of_eq_none htail, hstart, match?_marker, htail]
      exact .inl ⟨rfl, rfl⟩
  | some behind =>
      obtain ⟨before, d, hbefore, hd⟩ := exists_of_markerTail? htail
      rw [← hstart] at hbefore
      rw [skipMarkers_of_eq_some htail]
      have hmatch : Pattern.marker.match? (t.drop (nextVisible t i))
          = some (behindOpening behind) := by rw [hstart, match?_marker, htail]; rfl
      by_cases hopen : ∃ inside, trimStart behind = .ofChar '(' :: inside
      · obtain ⟨inside, hinside⟩ := hopen
        obtain ⟨blanks, -, hblanks⟩ := exists_gap_trimStart behind
        have hopening :
            t.drop (nextVisible t i) = (before ++ d :: blanks) ++ .ofChar '(' :: inside := by
          rw [hbefore, ← hinside, List.append_assoc, List.cons_append, ← hblanks]
        obtain ⟨k, hlt, hk, rfl, hparen⟩ := exists_drop_of_drop_eq (nextVisible_le hi) hopening
        rw [behindOpening_of_opening hinside] at hmatch
        refine .inr ⟨k, by omega, hk, hmatch, .inr ⟨hparen, ?_⟩⟩
        rw [behindArguments_eq_findMatching (by omega) hk hparen hinside]
        cases findMatching t (k - 1 : Nat) <;> rfl
      · have hnone : ∀ inside, trimStart behind ≠ .ofChar '(' :: inside := fun inside h =>
          hopen ⟨inside, h⟩
        obtain ⟨k, hlt, hk, rfl, hlast⟩ := exists_drop_of_drop_eq (nextVisible_le hi) hbefore
        rw [behindOpening_eq_self hnone] at hmatch
        have hname : t[k - 1]? ≠ some (.ofChar '(') := by
          rw [hlast]
          rintro heq
          rw [Option.some.inj heq] at hd
          revert hd
          decide
        refine .inr ⟨k, by omega, hk, hmatch, .inl ⟨hname, ?_⟩⟩
        rw [behindArguments_eq_self hnone]
        rfl

/-- A partner stands behind its bracket. -/
theorem lt_of_findMatching {opener : CodePoint} {close : Int} (h : t[i]? = some opener)
    (hopens : (closerOf? opener).isSome = true) (hclose : findMatching t i = .ok close) :
    ∃ j : Nat, close = j ∧ i < j ∧ j < t.length := by
  obtain ⟨hgroup, -⟩ := findMatching_eq_iff h hopens
  obtain ⟨j, rfl, _, _, -, -, hitems, hcloser⟩ := (hgroup close).1 hclose
  exact ⟨j, rfl, hitems.le, lt_length_of_getElem? hcloser⟩

/-- The step where an annotation is matched up to a given offset. -/
theorem skipMarkers_of_match (hi : i ≤ t.length) (hk : k ≤ t.length)
    (h : Pattern.marker.match? (t.drop (nextVisible t i)) = some (t.drop k)) :
    i < k ∧ (t[k - 1]? ≠ some (.ofChar '(')
        ∧ skipMarkers t.length (t.drop i) = skipMarkers t.length (t.drop k)
      ∨ t[k - 1]? = some (.ofChar '(') ∧ skipMarkers t.length (t.drop i)
        = (findMatching t (k - 1 : Nat)).bind fun close =>
          skipMarkers t.length (t.drop (close.toNat + 1))) := by
  rcases skipMarkers_step hi with ⟨hnone, -⟩ | ⟨stop, hlt, hend, hmatch, hstep⟩
  · rw [h] at hnone
    cases hnone
  · rw [h] at hmatch
    have hlength := congrArg List.length (Option.some.inj hmatch)
    rw [List.length_drop, List.length_drop] at hlength
    obtain rfl : stop = k := by omega
    exact ⟨hlt, hstep⟩

/-- The way past annotations ends where the walk on what is left of the text ends, or fails with it.
The induction is on the steps of the way. -/
theorem SkipsFrom.skipMarkers_eq {r : Except Fault Nat} (h : SkipsFrom t i r)
    (hi : i ≤ t.length) :
    (∃ f, r = .error f ∧ skipMarkers t.length (t.drop i) = .error f)
      ∨ ∃ q, q ≤ t.length ∧ r = .ok q ∧ skipMarkers t.length (t.drop i) = .ok (t.drop q) := by
  induction h with
  | @done i hnone =>
      rcases skipMarkers_step hi with ⟨-, hstop⟩ | ⟨k, -, -, hsome, -⟩
      · exact .inr ⟨_, nextVisible_le hi, rfl, hstop⟩
      · rw [hnone] at hsome
        cases hsome
  | name hk hmatch hname _ ih =>
      obtain ⟨-, ⟨-, hstep⟩ | ⟨hparen, -⟩⟩ := skipMarkers_of_match hi hk hmatch
      · rw [hstep]
        exact ih hk
      · exact absurd hparen hname
  | arguments hk hmatch hparen hclose _ ih =>
      obtain ⟨-, ⟨hname, -⟩ | ⟨-, hstep⟩⟩ := skipMarkers_of_match hi hk hmatch
      · exact absurd hparen hname
      · obtain ⟨j, hj, -, hend⟩ := lt_of_findMatching hparen rfl hclose
        obtain rfl := Int.ofNat_inj.1 hj
        rw [hstep, hclose]
        exact ih hend
  | @unpaired i k f hk hmatch hparen hfault =>
      obtain ⟨-, ⟨hname, -⟩ | ⟨-, hstep⟩⟩ := skipMarkers_of_match hi hk hmatch
      · exact absurd hparen hname
      · rw [hstep, hfault]
        exact .inl ⟨f, rfl, rfl⟩

/-- There is a way past annotations from every offset. -/
theorem exists_skipsFrom (t : Text) (i : Nat) (hi : i ≤ t.length) : ∃ r, SkipsFrom t i r := by
  rcases skipMarkers_step hi with ⟨hnone, -⟩ | ⟨k, hlt, hk, hmatch, hstep⟩
  · exact ⟨_, .done hnone⟩
  · rcases hstep with ⟨hname, -⟩ | ⟨hparen, -⟩
    · obtain ⟨r, hr⟩ := exists_skipsFrom t k hk
      exact ⟨r, .name hk hmatch hname hr⟩
    · cases hclose : findMatching t (k - 1 : Nat) with
      | error f => exact ⟨_, .unpaired hk hmatch hparen hclose⟩
      | ok close =>
          obtain ⟨j, rfl, hj, hend⟩ := lt_of_findMatching hparen rfl hclose
          obtain ⟨r, hr⟩ := exists_skipsFrom t (j + 1) hend
          exact ⟨r, .arguments hk hmatch hparen hclose hr⟩
termination_by t.length - i

/-- The walk on what is left of the text is the one way past annotations. -/
theorem skipsFrom_iff (hi : i ≤ t.length) {r : Except Fault Nat} :
    SkipsFrom t i r
      ↔ r = (skipMarkers t.length (t.drop i)).map fun rest => t.length - rest.length := by
  have hresult : ∀ {r}, SkipsFrom t i r →
      r = (skipMarkers t.length (t.drop i)).map fun rest => t.length - rest.length := by
    intro r h
    rcases h.skipMarkers_eq hi with ⟨f, rfl, hf⟩ | ⟨q, hq, rfl, hrest⟩
    · rw [hf]
      rfl
    · have hplace : t.length - (t.drop q).length = q := by
        rw [List.length_drop]
        omega
      rw [hrest]
      exact congrArg Except.ok hplace.symm
  refine ⟨hresult, ?_⟩
  rintro rfl
  obtain ⟨r, hr⟩ := exists_skipsFrom t i hi
  rwa [← hresult hr]

/-! ## Agreement -/

/-- **The two ways agree.** In front of any text, the offset that moves over it as the pattern of
annotations and the search for a partner say, and the member that is cut and trimmed step by step,
come to the same end: either both fail, with an error about declarations, or the offset stops
somewhere and the member is what stands from there on, without white space at its end. -/
theorem annotations_skipped_alike (t : Text) :
    (∀ r, SkipsFrom t 0 r
        ↔ r = (skipMarkers t.length t).map fun rest => t.length - rest.length)
      ∧ ((∃ f g, skipMarkers t.length t = .error f ∧ withoutMarkers t = .error g
          ∧ IsDeclarationError f ∧ IsDeclarationError g)
        ∨ ∃ q, q ≤ t.length ∧ skipMarkers t.length t = .ok (t.drop q)
          ∧ withoutMarkers t = .ok (trimEnd (t.drop q))) := by
  refine ⟨fun r => skipsFrom_iff (Nat.zero_le _), ?_⟩
  have hnil : ∀ c ∈ ([] : Text), isBlank c = true := by simp
  have hboth := withoutMarkers_gap_cases t.length t [] hnil
  rw [List.append_nil] at hboth
  rcases hboth with ⟨f, g, hf, hg⟩ | ⟨rest, hrest, hmember⟩
  · exact .inl ⟨f, g, hf, hg, (skipMarkers_failsWith _ _ f hf).reported,
      (withoutMarkers_failsWith _ g hg).reported⟩
  · obtain ⟨r, hr⟩ := exists_skipsFrom t 0 (Nat.zero_le _)
    rcases hr.skipMarkers_eq (Nat.zero_le _) with ⟨f, -, hf⟩ | ⟨q, hq, -, hq'⟩
    · rw [List.drop_zero, hrest] at hf
      cases hf
    · rw [List.drop_zero, hrest] at hq'
      cases hq'
      exact .inr ⟨q, hq, hrest, hmember⟩

end Source

end DartDecoders
