/-
Cutting a text at its equals signs, and putting the parts together again.

The parts are trimmed, and blank ones are left out. Nothing is lost by that exactly when the parts
were trimmed and not empty to begin with, since a part that changes gets shorter
(`join_trimmedParts_iff`). Seen from the text, that is when each equals sign outside literals and
brackets stands directly between two characters that are neither white space nor equals signs
(`glued_iff`). No literal gets in the way of this, since it starts visibly, and ends so where
something follows it (`stopsAt_of_literal`).
-/
import DartDecoders.Proofs.AdjacentTexts
import DartDecoders.Proofs.TopLevelParts
import DartDecoders.Proofs.TrimmedParts

set_option autoImplicit false

namespace DartDecoders

open Text

namespace Source

/-! ## Raw parts -/

/-- The raw parts with the separator between them are the text. -/
theorem join_partsFrom (s : CodePoint) (n : Nesting) (ps : List Piece) :
    join [s] (partsFrom [s] n ps) = flatten ps := by
  induction ps generalizing n with
  | nil => rfl
  | cons p ps ih =>
      rw [partsFrom]
      split
      · next hseparates =>
          obtain ⟨rfl, -⟩ := eq_of_separates hseparates
          obtain ⟨part, rest, hparts⟩ :=
            List.exists_cons_of_ne_nil (partsFrom_ne_nil [s] (n.after (.char s)) ps)
          have hrest := ih (n.after (.char s))
          rw [hparts] at hrest ⊢
          rw [join_cons_cons, hrest]
          rfl
      · rw [join_prepend _ (partsFrom_ne_nil _ _ _), ih]
        rfl

/-! ## Equals signs between other pieces -/

/-- A piece that is neither white space nor an equals sign. -/
def Piece.IsSolid : Piece → Prop
  | .literal _ => True
  | .char c => isBlank c = false ∧ c ≠ '='

/-- Each equals sign outside literals and brackets stands directly between two pieces that are
neither white space nor equals signs. -/
def Glued (t : Text) : Prop :=
  ∀ before after, StandsOutside '=' t before after →
    (∃ p ∈ before.getLast?, p.IsSolid) ∧ ∃ p ∈ after.head?, p.IsSolid

/-- The same on a walk, whose first piece stands at the start of a part. -/
structure GluedFrom (n : Nesting) (ps : List Piece) : Prop where
  head : ∃ p ∈ ps.head?, p.IsSolid
  around : ∀ before after, ps = before ++ .char '=' :: after →
    (before.foldl Nesting.after n).isTop = true →
      (∃ p ∈ before.getLast?, p.IsSolid) ∧ ∃ p ∈ after.head?, p.IsSolid

/-- There is no white space at the end, and none at the ends of literals. -/
structure EndsVisibly (ps : List Piece) : Prop where
  finish : StopsAt isBlank (flatten ps).reverse
  literals : ∀ before s after, ps = before ++ .literal s :: after →
    (s ≠ [] ∧ StopsAt isBlank s) ∧ (after ≠ [] → StopsAt isBlank s.reverse)

variable {n : Nesting} {ps before after : List Piece}

theorem EndsVisibly.behind {p : Piece} (h : EndsVisibly (before ++ p :: after)) :
    EndsVisibly after where
  finish := by
    have hfinish := h.finish
    rw [flatten, List.flatMap_append, List.flatMap_cons, List.reverse_append, List.reverse_append,
      List.append_assoc] at hfinish
    show StopsAt isBlank (after.flatMap Piece.text).reverse
    cases hlast : (after.flatMap Piece.text).reverse with
    | nil => trivial
    | cons c rest =>
        rw [hlast] at hfinish
        exact hfinish
  literals := fun front s rest heq => h.literals (before ++ p :: front) s rest (by simp [heq])

theorem isTop_after_equals (n : Nesting) : (n.after (.char '=')).isTop = n.isTop := by
  rw [after_char rfl (by decide) (by decide)]
  rfl

/-- Where the walk finds no separator, something is open at each equals sign. -/
theorem Quiet.not_isTop (h : Quiet ['='] n ps) (heq : ps = before ++ .char '=' :: after) :
    ¬ (before.foldl Nesting.after n).isTop = true := by
  rw [(quiet_iff rfl (by decide)).1 h before after heq]
  exact Bool.false_ne_true

/-- On a walk that comes with nothing open and finds no separator, the text starts visibly exactly
when its first piece does, which is no equals sign. -/
theorem start_iff (hn : n.isTop = true) (hquiet : Quiet ['='] n ps)
    (hliterals : ∀ s rest, ps = .literal s :: rest → s ≠ [] ∧ StopsAt isBlank s) :
    flatten ps ≠ [] ∧ StopsAt isBlank (flatten ps) ↔ ∃ p ∈ ps.head?, p.IsSolid := by
  match ps with
  | [] => simp [flatten]
  | .literal s :: rest =>
      obtain ⟨hne, hstart⟩ := hliterals s rest rfl
      refine ⟨fun _ => ⟨.literal s, rfl, trivial⟩, fun _ => ⟨?_, ?_⟩⟩
      · exact List.append_ne_nil_of_left_ne_nil hne _
      · exact stopsAt_append_of_ne_nil hne hstart _
  | .char c :: rest =>
      have hc : c ≠ '=' := by
        rintro rfl
        have hfirst := hquiet.1
        rw [separates_separator rfl (by decide), hn] at hfirst
        cases hfirst
      simp [flatten, Piece.text, Piece.IsSolid, StopsAt, hc]

/-- The text ends visibly exactly when its last piece does, which is no equals sign either when
nothing is open behind it. -/
theorem finish_iff (hquiet : Quiet ['='] n ps) (htop : (ps.foldl Nesting.after n).isTop = true)
    (hne : ps ≠ []) (hliterals : ∀ front s, ps = front ++ [.literal s] → StopsAt isBlank s.reverse
      ∧ s ≠ []) :
    StopsAt isBlank (flatten ps).reverse ↔ ∃ p ∈ ps.getLast?, p.IsSolid := by
  obtain ⟨front, p, rfl⟩ := exists_concat_of_ne_nil hne
  have hflatten : (flatten (front ++ [p])).reverse = p.text.reverse ++ (flatten front).reverse := by
    simp [flatten]
  rw [hflatten, List.getLast?_concat]
  cases p with
  | literal s =>
      obtain ⟨hfinish, hs⟩ := hliterals front s rfl
      refine ⟨fun _ => ⟨.literal s, rfl, trivial⟩, fun _ => ?_⟩
      exact stopsAt_append_of_ne_nil (by simpa using hs) hfinish _
  | char c =>
      have hc : c ≠ '=' := by
        rintro rfl
        rw [List.foldl_append, List.foldl_cons, List.foldl_nil, isTop_after_equals] at htop
        exact hquiet.not_isTop rfl htop
      simp [Piece.text, Piece.IsSolid, StopsAt, hc]

theorem getLast?_behind {p q : Piece} {front : List Piece} (h : front.getLast? = some q) :
    (before ++ p :: front).getLast? = some q := by
  rw [List.getLast?_append_cons, List.getLast?_cons, h]
  rfl

/-- Behind a first separator the walk goes on as at a start. -/
theorem gluedFrom_iff_of_first (hquiet : Quiet ['='] n before)
    (htop : (before.foldl Nesting.after n).isTop = true) :
    GluedFrom n (before ++ .char '=' :: after) ↔ (∃ p ∈ before.head?, p.IsSolid)
      ∧ (∃ p ∈ before.getLast?, p.IsSolid)
      ∧ GluedFrom ((before.foldl Nesting.after n).after (.char '=')) after := by
  constructor
  · rintro ⟨hhead, haround⟩
    obtain ⟨hlast, hnext⟩ := haround before after rfl htop
    refine ⟨?_, hlast, hnext, fun front rest heq hopen => ?_⟩
    · cases before with
      | nil => simp at hlast
      | cons p before => exact hhead
    · obtain ⟨hbefore, hbehind⟩ := haround (before ++ .char '=' :: front) rest (by simp [heq])
        (by rwa [List.foldl_append, List.foldl_cons])
      refine ⟨?_, hbehind⟩
      cases hfront : front.getLast? with
      | none =>
          -- then the piece before is the equals sign that the part starts behind
          rw [List.getLast?_eq_none_iff.1 hfront, List.getLast?_concat] at hbefore
          obtain ⟨p, hp, hsolid⟩ := hbefore
          cases hp
          exact absurd rfl hsolid.2
      | some p => rwa [getLast?_behind hfront] at hbefore
  · rintro ⟨hhead, hlast, hnext, hbehind⟩
    refine ⟨?_, fun front rest heq hopen => ?_⟩
    · cases before with
      | nil => simp at hhead
      | cons p before => exact hhead
    -- an equals sign outside brackets is the first one or stands behind it
    · have hsame : front = before → rest = after → (∃ p ∈ front.getLast?, p.IsSolid)
          ∧ ∃ p ∈ rest.head?, p.IsSolid := by
        rintro rfl rfl
        exact ⟨hlast, hnext⟩
      rcases List.append_eq_append_iff.1 heq with
        ⟨middle, hfront, hmiddle⟩ | ⟨middle, hbefore, hmiddle⟩
      · rcases List.cons_eq_append_iff.1 hmiddle with ⟨rfl, hrest⟩ | ⟨others, rfl, hothers⟩
        · exact hsame (by simpa using hfront) (List.cons.inj hrest).2
        · subst hfront
          obtain ⟨⟨p, hp, hsolid⟩, hrest⟩ := hbehind others rest hothers
            (by rwa [List.foldl_append, List.foldl_cons] at hopen)
          exact ⟨⟨p, getLast?_behind hp, hsolid⟩, hrest⟩
      · rcases List.cons_eq_append_iff.1 hmiddle with ⟨rfl, hrest⟩ | ⟨others, rfl, -⟩
        · exact hsame (by simpa using hbefore.symm) (List.cons.inj hrest).2.symm
        · exact absurd hopen (hquiet.not_isTop hbefore)

/-- The parts of a walk are trimmed and not empty exactly when its equals signs stand between other
pieces. The induction takes off one part at a time. -/
theorem parts_iff (n : Nesting) (ps : List Piece) (hn : n.isTop = true) (hends : EndsVisibly ps) :
    (∀ part ∈ partsFrom ['='] n ps, Trimmed part ∧ part ≠ []) ↔ GluedFrom n ps := by
  rcases quiet_or_exists '=' n ps with hquiet | ⟨before, after, rfl, hquiet, htop⟩
  -- without an equals sign outside brackets the text is one part
  · have hstart := start_iff hn hquiet fun s rest heq => (hends.literals [] s rest heq).1
    rw [partsFrom_quiet hquiet, List.forall_mem_singleton]
    constructor
    · rintro ⟨htrimmed, hne⟩
      exact ⟨hstart.1 ⟨hne, htrimmed.start⟩, fun _ _ heq hopen =>
        absurd hopen (hquiet.not_isTop heq)⟩
    · rintro ⟨hhead, -⟩
      obtain ⟨hne, hfirst⟩ := hstart.2 hhead
      exact ⟨⟨hfirst, hends.finish⟩, hne⟩
  -- the part in front of the first one ends visibly too, the others are those of the walk behind it
  · have hothers := parts_iff ((before.foldl Nesting.after n).after (.char '=')) after
      (by rwa [isTop_after_equals]) hends.behind
    have hstart := start_iff hn hquiet fun s rest heq =>
      (hends.literals [] s (rest ++ .char '=' :: after) (by simp [heq])).1
    rw [partsFrom_first rfl (by decide) hquiet htop, List.forall_mem_cons, hothers,
      gluedFrom_iff_of_first hquiet htop, ← and_assoc, ← hstart]
    refine and_congr_left fun _ => ?_
    have hliterals : ∀ front s, before = front ++ [.literal s] → StopsAt isBlank s.reverse
        ∧ s ≠ [] := by
      intro front s heq
      obtain ⟨⟨hne, -⟩, hfinish⟩ := hends.literals front s (.char '=' :: after) (by simp [heq])
      exact ⟨hfinish (List.cons_ne_nil _ _), hne⟩
    have hfinish : flatten before ≠ [] → (StopsAt isBlank (flatten before).reverse
        ↔ ∃ p ∈ before.getLast?, p.IsSolid) := by
      intro hne
      refine finish_iff hquiet htop ?_ hliterals
      rintro rfl
      exact hne rfl
    constructor
    · rintro ⟨htrimmed, hne⟩
      exact ⟨⟨hne, htrimmed.start⟩, (hfinish hne).1 htrimmed.finish⟩
    · rintro ⟨⟨hne, hfirst⟩, hlast⟩
      exact ⟨⟨hfirst, (hfinish hne).2 hlast⟩, hne⟩
termination_by ps.length

/-- The parts of a default value are trimmed and not empty exactly when it is glued. -/
theorem glued_iff {t : Text} (hne : t ≠ []) (htrimmed : Trimmed t) :
    (∀ part ∈ partsFrom ['='] .start (pieces t), Trimmed part ∧ part ≠ []) ↔ Glued t := by
  have hends : EndsVisibly (pieces t) := by
    refine ⟨?_, fun before s after heq => stopsAt_of_literal heq⟩
    rw [flatten_pieces]
    exact htrimmed.finish
  rw [parts_iff .start (pieces t) rfl hends]
  refine ⟨fun h before after hstands => h.around before after hstands.1 hstands.2, fun h => ?_⟩
  refine ⟨?_, fun before after heq htop => h before after ⟨heq, htop⟩⟩
  obtain ⟨c, rest, rfl⟩ := List.exists_cons_of_ne_nil hne
  by_cases hquote : isQuote c = true
  · rw [pieces, if_pos hquote]
    exact ⟨_, rfl, trivial⟩
  · have hpieces := pieces_cons (Bool.eq_false_iff.2 hquote) rest
    refine ⟨.char c, by rw [hpieces]; rfl, htrimmed.start, ?_⟩
    rintro rfl
    obtain ⟨⟨p, hp, -⟩, -⟩ := h [] (pieces rest) ⟨hpieces, rfl⟩
    cases hp

/-- A glued text falls apart into something. -/
theorem Glued.splitTopLevel_ne_nil {t : Text} (h : Glued t) (hne : t ≠ []) (htrimmed : Trimmed t) :
    splitTopLevel ['='] t ≠ [] := by
  rw [splitTopLevel, trimmedParts_eq_self_iff.2 ((glued_iff hne htrimmed).2 h)]
  exact partsFrom_ne_nil _ _ _

/-- What a text falls apart into at its equals signs, put together again, is the text exactly when
it is glued. -/
theorem join_splitTopLevel_iff {t : Text} (htrimmed : Trimmed t)
    (hne : splitTopLevel ['='] t ≠ []) :
    join ['='] (splitTopLevel ['='] t) = t ↔ Glued t := by
  have htne : t ≠ [] := by
    rintro rfl
    rw [splitTopLevel, pieces_nil] at hne
    exact hne rfl
  have hjoin := join_partsFrom '=' .start (pieces t)
  rw [flatten_pieces] at hjoin
  rw [← glued_iff htne htrimmed, ← join_trimmedParts_iff (c := '=') hne, hjoin, splitTopLevel]

/-- A text that falls apart into nothing is made of equals signs and white space. -/
theorem equals_of_splitTopLevel_eq_nil {t : Text} (h : splitTopLevel ['='] t = []) :
    ∀ c ∈ t, c = '=' ∨ isBlank c = true := by
  intro c hc
  have hjoin := join_partsFrom '=' .start (pieces t)
  rw [flatten_pieces] at hjoin
  rw [← hjoin] at hc
  rcases mem_join hc with hc | ⟨part, hpart, hc⟩
  · exact .inl (List.mem_singleton.1 hc)
  · have hblank : trim part = [] := by
      by_contra hvisible
      have hmem : trim part ∈ splitTopLevel ['='] t :=
        List.mem_filter.2 ⟨List.mem_map.2 ⟨part, hpart, rfl⟩, by simpa using hvisible⟩
      rw [h] at hmem
      cases hmem
    obtain ⟨gap, gap', hgap, hgap', heq⟩ := exists_gaps_trim part
    rw [hblank, List.nil_append] at heq
    rw [heq, List.mem_append] at hc
    exact .inr (hc.elim (hgap c) (hgap' c))

end Source

end DartDecoders
