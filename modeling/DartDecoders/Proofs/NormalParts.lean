/-
Cutting at separators is cutting into a normal form.

The raw parts of a text are the texts between the separators that stand outside literals and
brackets. None of them has such a separator in it, and all but the last leave nothing open, no
literal, no bracket and no angle bracket (`Separable`). Such texts are cut apart again wherever they
stand in a row (`Separable.partsFrom_join`): a walk that comes out of one of them with nothing open
meets the next one as it would meet it at the start of a text. It does remember the character
before, but that matters only to a closing angle bracket, and none is open then.

Trimming keeps all this. White space in front of a text opens nothing, and white space at its end is
either outside literals or belongs to an open one, in which case the text is the last part and may
stay open (`Separable.trimmedParts`). Hence the parts of a text put together are cut into the same
parts (`splitTopLevel_normal`).
-/
import DartDecoders.Proofs.AdjacentTexts
import DartDecoders.Proofs.GluedParts
import DartDecoders.Proofs.WrittenParameters

set_option autoImplicit false

namespace DartDecoders

namespace Source

open Text

/-! ## Separators -/

/-- A character that texts can be cut at: it is no quote, no bracket and no white space. -/
structure IsSeparator (s : CodePoint) : Prop where
  quote : isQuote s = false
  bracket : isBracket s = false
  opening : s ≠ '<'
  closing : s ≠ '>'
  visible : isBlank s = false

theorem isSeparator_of_mem {s : CodePoint} (hs : s ∈ [.ofChar ',', .ofChar '=', .ofChar ':']) :
    IsSeparator s := by
  have hall : ∀ c ∈ [CodePoint.ofChar ',', .ofChar '=', .ofChar ':'],
      isQuote c = false ∧ isBracket c = false ∧ c ≠ '<' ∧ c ≠ '>' ∧ isBlank c = false := by
    decide
  obtain ⟨hquote, hbracket, hopen, hclose, hvisible⟩ := hall s hs
  exact ⟨hquote, hbracket, hopen, hclose, hvisible⟩

/-! ## Walks that come with nothing open -/

section Walks

variable {separator : Text} {n m : Nesting}

theorem shifted_of_isTop (hn : n.isTop = true) (hm : m.isTop = true) : Shifted 0 n m := by
  simp only [Nesting.isTop, Bool.and_eq_true, beq_iff_eq] at hn hm
  exact ⟨by rw [hn.1, hm.1, Int.add_zero], by rw [hn.2, hm.2], .inl hn.2⟩

theorem Shifted.partsFrom (h : Shifted 0 n m) (ps : List Piece) :
    partsFrom separator n ps = partsFrom separator m ps := by
  induction ps generalizing n m with
  | nil => rfl
  | cons p ps ih =>
      rw [Source.partsFrom, Source.partsFrom, h.separates separator p, ih (h.after p)]

end Walks

/-! ## White space around a text -/

section WhiteSpace

variable {s : CodePoint} {t gap : Text}

theorem level_of_blank (hs : IsSeparator s) (hgap : ∀ c ∈ gap, isBlank c = true) :
    Levelled [s] gap := by
  have hplain : ∀ c ∈ gap, isQuote c = false ∧ isBracket c = false := fun c hc =>
    ⟨(plain_of_isBlank (hgap c hc)).1, (plain_of_isBlank (hgap c hc)).2.1⟩
  have hangle : AngleNested gap := .of_forall fun c hc =>
    ⟨ne_of_class (hgap c hc) (by decide), ne_of_class (hgap c hc) (by decide)⟩
  exact .of_forall (fun c hc => (hplain c hc).1) (fun c hc => (hplain c hc).2) hangle
    fun c hc => ne_of_class (hgap c hc) hs.visible

/-- Behind white space at its start a text is walked over as from the start. -/
theorem shifted_gap (hs : IsSeparator s) (hgap : ∀ c ∈ gap, isBlank c = true) :
    Shifted 0 .start ((gap.map Piece.char).foldl Nesting.after .start) := by
  rw [(level_of_blank hs hgap).after]
  exact shifted_of_isTop rfl rfl

/-- Nothing separates in a text when nothing does in a longer one. A literal at its end may be
longer there, but no literal separates. -/
theorem Quiet.of_append {n : Nesting} {u : Text} (h : Quiet [s] n (pieces (t ++ u))) :
    Quiet [s] n (pieces t) := by
  rcases pieces_append_cases t u with hsame | ⟨front, c, inside, inside', rest, ht, htu⟩
  · rw [hsame] at h
    exact (quiet_append.1 h).1
  · rw [htu] at h
    rw [ht]
    exact (quiet_append.1 h).1.append ⟨rfl, trivial⟩

theorem Quiet.trim (hs : IsSeparator s) (h : Quiet [s] .start (pieces t)) :
    Quiet [s] .start (pieces (trim t)) := by
  obtain ⟨gap, gap', hgap, -, ht⟩ := exists_gaps_trim t
  rw [ht, pieces_gap_append hgap] at h
  exact ((shifted_gap hs hgap).quiet (quiet_append.1 h).2).of_append

/-- The text leaves no literal and no bracket open. -/
structure Whole (t : Text) : Prop where
  isSealed : Sealed t
  isTop : ((pieces t).foldl Nesting.after .start).isTop = true

theorem Whole.trim (h : Whole t) : Whole (trim t) := by
  have hcomma : IsSeparator ',' := isSeparator_of_mem List.mem_cons_self
  obtain ⟨gap, gap', hgap, hgap', ht⟩ := exists_gaps_trim t
  have hquotes' := (level_of_blank hcomma hgap').quotes
  obtain ⟨hsealed, htop⟩ := h
  rw [ht] at hsealed htop
  -- a literal that is open at the end of the trimmed text would still be open behind the gap
  have hinner : Sealed (Text.trim t) := by
    have hbehind : Sealed (Text.trim t ++ gap') := by
      intro rest hrest
      have happend := hsealed rest hrest
      rw [List.append_assoc gap, pieces_gap_append hgap, pieces_gap_append hgap,
        List.append_assoc (gap.map Piece.char)] at happend
      exact List.append_cancel_left happend
    exact hbehind.of_append_gap hgap'
  refine ⟨hinner, ?_⟩
  rw [pieces_gap_append hgap, hinner gap' (stopsAt_of_forall hquotes'), pieces_gap hgap',
    List.foldl_append, List.foldl_append,
    (level_of_blank hcomma hgap').after] at htop
  rw [((shifted_gap hcomma hgap).foldl (pieces (Text.trim t))).isTop]
  exact htop

end WhiteSpace

/-! ## Texts that are cut apart -/

/-- No separator stands in one of the texts where nothing is open, and all but the last leave
nothing open. -/
inductive Separable (s : CodePoint) : List Text → Prop
  | nil : Separable s []
  | cons {part : Text} {rest : List Text} : Quiet [s] .start (pieces part) →
    (rest ≠ [] → Whole part) → Separable s rest → Separable s (part :: rest)

namespace Separable

variable {s : CodePoint} {parts : List Text}

/-- A text in front of a separator is the first part. -/
theorem partsFrom_next (hs : IsSeparator s) {part : Text}
    (hquiet : Quiet [s] .start (pieces part)) (hwhole : Whole part) (rest : Text) :
    partsFrom [s] .start (pieces (part ++ s :: rest))
      = part :: partsFrom [s] .start (pieces rest) := by
  have hstop : StopsAt isQuote (s :: rest) := hs.quote
  have hbehind : Shifted 0 (((pieces part).foldl Nesting.after .start).after (.char s)) .start := by
    rw [after_char hs.bracket hs.opening hs.closing]
    exact shifted_of_isTop hwhole.isTop rfl
  rw [hwhole.isSealed _ hstop, pieces_cons hs.quote,
    partsFrom_first hs.bracket hs.opening hquiet hwhole.isTop, flatten_pieces,
    hbehind.partsFrom]

/-- In a row with separators between them the texts are cut apart again. -/
theorem partsFrom_join (hs : IsSeparator s) (h : Separable s parts) (hne : parts ≠ []) :
    partsFrom [s] .start (pieces (join [s] parts)) = parts := by
  induction h with
  | nil => exact absurd rfl hne
  | @cons part rest hquiet hwhole _ ih =>
      by_cases hnil : rest = []
      · rw [hnil, join_singleton, partsFrom_quiet hquiet, flatten_pieces]
      · obtain ⟨next, others, rfl⟩ := List.exists_cons_of_ne_nil hnil
        rw [join_cons_cons, List.singleton_append, partsFrom_next hs hquiet (hwhole hnil), ih hnil]

/-- The raw parts of a text can be cut apart. The induction takes off the part in front of the first
separator. -/
theorem of_partsFrom (hs : IsSeparator s) (t : Text) :
    Separable s (partsFrom [s] .start (pieces t)) := by
  rcases quiet_or_exists s .start (pieces t) with hquiet | ⟨before, after, hpieces, hquiet, htop⟩
  · rw [partsFrom_quiet hquiet, flatten_pieces]
    exact .cons hquiet (fun hne => absurd rfl hne) .nil
  · obtain ⟨front, behind, rfl, rfl, -, hsealed⟩ := exists_of_pieces_eq hpieces
    have hwhole : Whole front := ⟨hsealed, htop⟩
    rw [partsFrom_next hs hquiet hwhole]
    exact .cons hquiet (fun _ => hwhole) (of_partsFrom hs behind)
termination_by t.length
decreasing_by
  subst_vars
  simp only [List.length_append, List.length_cons]
  omega

/-- So they can without the white space around them and without the blank ones. -/
theorem trimmedParts (hs : IsSeparator s) (h : Separable s parts) :
    Separable s (trimmedParts parts) := by
  induction h with
  | nil => exact .nil
  | @cons part rest hquiet hwhole _ ih =>
      by_cases hblank : trim part = []
      · rwa [trimmedParts_cons_of_blank hblank]
      · rw [trimmedParts_cons rfl hblank]
        -- a part with a visible one behind it had one behind it before
        refine .cons (hquiet.trim hs) (fun hne => (hwhole ?_).trim) ih
        rintro rfl
        exact hne rfl

theorem quiet_of_mem (h : Separable s parts) {part : Text} (hpart : part ∈ parts) :
    Quiet [s] .start (pieces part) := by
  induction h with
  | nil => cases hpart
  | cons hquiet _ _ ih =>
      rcases List.mem_cons.1 hpart with rfl | hmem
      · exact hquiet
      · exact ih hmem

theorem whole_of_mem_dropLast (h : Separable s parts) {part : Text}
    (hpart : part ∈ parts.dropLast) : Whole part := by
  induction h with
  | nil => cases hpart
  | @cons first rest _ hwhole _ ih =>
      by_cases hnil : rest = []
      · rw [hnil] at hpart
        cases hpart
      · rw [List.dropLast_cons_of_ne_nil hnil] at hpart
        rcases List.mem_cons.1 hpart with rfl | hmem
        · exact hwhole hnil
        · exact ih hmem

end Separable

/-! ## The normal form -/

/-- A text that nothing separates is its own part. -/
theorem splitTopLevel_quiet {s : CodePoint} {t : Text} (hquiet : Quiet [s] .start (pieces t))
    (htrimmed : Trimmed t) (hne : t ≠ []) : splitTopLevel [s] t = [t] := by
  rw [splitTopLevel, partsFrom_quiet hquiet, flatten_pieces,
    trimmedParts_cons htrimmed.trim_eq hne]
  rfl

/-- **Cutting at a separator gives a normal form.** For every text: the parts are trimmed and not
empty, each of them is its own only part, and put together with separators they are cut into the
same parts. The text is the parts in order, with white space and separators before, between and
behind them. More exactly it is raw parts between separators, of which the parts are the trimmed
ones. No separator stands outside literals and brackets in a raw part, and all of them but the last
leave nothing open. -/
theorem splitTopLevel_normal {s : CodePoint} (hs : s ∈ [.ofChar ',', .ofChar '=', .ofChar ':'])
    (t : Text) :
    (∀ part ∈ splitTopLevel [s] t, Trimmed part ∧ part ≠ [])
      ∧ (∀ part ∈ splitTopLevel [s] t, splitTopLevel [s] part = [part])
      ∧ splitTopLevel [s] (join [s] (splitTopLevel [s] t)) = splitTopLevel [s] t
      ∧ Interleaves (fun c => c = s ∨ isBlank c = true) (splitTopLevel [s] t) t
      ∧ ∃ raw, t = join [s] raw ∧ splitTopLevel [s] t = trimmedParts raw
        ∧ (∀ part ∈ raw, ∀ before after, ¬ StandsOutside s part before after)
        ∧ ∀ part ∈ raw.dropLast, Whole part := by
  have hseparator := isSeparator_of_mem hs
  have hraw := Separable.of_partsFrom hseparator t
  have hparts : Separable s (splitTopLevel [s] t) := hraw.trimmedParts hseparator
  have htrimmed : ∀ part ∈ splitTopLevel [s] t, Trimmed part ∧ part ≠ [] :=
    fun part hpart => trimmed_of_mem_trimmedParts hpart
  have hjoin : join [s] (partsFrom [s] .start (pieces t)) = t := by
    rw [join_partsFrom, flatten_pieces]
  refine ⟨htrimmed, ?_, ?_, ?_, _, hjoin.symm, rfl, ?_, fun part hpart =>
    hraw.whole_of_mem_dropLast hpart⟩
  · intro part hpart
    obtain ⟨hpartTrimmed, hne⟩ := htrimmed part hpart
    exact splitTopLevel_quiet (hparts.quiet_of_mem hpart) hpartTrimmed hne
  · by_cases hnil : splitTopLevel [s] t = []
    · rw [hnil, splitTopLevel, show join [s] [] = [] from rfl, pieces_nil]
      rfl
    · rw [splitTopLevel, hparts.partsFrom_join hseparator hnil]
      exact trimmedParts_eq_self_iff.2 htrimmed
  · have hgap : ∀ c ∈ [s], c = s ∨ isBlank c = true := by simp
    have hinterleaves := interleaves_join hgap (fun c hc => .inr hc)
      (partsFrom [s] .start (pieces t))
    rwa [hjoin] at hinterleaves
  · intro part hpart
    exact (quiet_iff_standsOutside hseparator.bracket hseparator.opening).1
      (hraw.quiet_of_mem hpart)

/-- A literal that is left open at the end keeps its equals sign, but not the space behind that. -/
theorem splitTopLevel_normal_open :
    let t := "= f(x = 1) = 'a=b' = \"open = ".toText
    let parts := ["f(x = 1)".toText, "'a=b'".toText, "\"open =".toText]
    CodePoint.ofChar '=' ∈ [.ofChar ',', .ofChar '=', .ofChar ':'] ∧ splitTopLevel ['='] t = parts
      ∧ (∀ part ∈ parts, splitTopLevel ['='] part = [part])
      ∧ splitTopLevel ['='] (join ['='] parts) = parts
      ∧ Interleaves (fun c => c = '=' ∨ isBlank c = true) parts t := by
  intro t parts
  have hs : CodePoint.ofChar '=' ∈ [.ofChar ',', .ofChar '=', .ofChar ':'] := by decide
  have hparts : splitTopLevel ['='] t = parts := by decide +kernel
  obtain ⟨-, hown, hjoin, hinterleaves, -⟩ := splitTopLevel_normal hs t
  rw [hparts] at hown hjoin hinterleaves
  exact ⟨hs, hparts, hown, hjoin, hinterleaves⟩

end Source

end DartDecoders
