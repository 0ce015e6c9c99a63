/-
Cutting a text at separators that stand in no literal and no brackets.

Three conditions say what cutting passes over. A text without quotes is `Levelled` for a separator
when cutting passes over it as over one character, and `Kept` when that is so for every separator
inside brackets. Brackets of any kind around a kept text are level for every separator
(`Levelled.angle`, `Levelled.bracket`): types are level for commas because all their commas stand
between angle brackets. A text that may hold literals is `Passed` when nothing in it separates and
nothing in it stays open, for walks that come to it with no angle bracket open. Brackets other than
angle brackets around a closed and nested text are passed over whatever the separator is
(`Passed.bracket`), and a list is cut at its own commas and no others (`splitTopLevel_join`).
-/
import DartDecoders.Proofs.Angles

set_option autoImplicit false

namespace DartDecoders

namespace Source

open Text

/-! ## Cutting at a separator -/

/-- No piece of a walk separates. -/
def Quiet (separator : Text) : Nesting → List Piece → Prop
  | _, [] => True
  | n, p :: rest => separates separator n p = false ∧ Quiet separator (n.after p) rest

theorem partsFrom_ne_nil (separator : Text) (n : Nesting) (ps : List Piece) :
    partsFrom separator n ps ≠ [] := by
  cases ps with
  | nil => simp [partsFrom]
  | cons p rest =>
      rw [partsFrom]
      split
      · simp
      · exact prepend_ne_nil _ _

/-- Pieces that do not separate belong to the next part. -/
theorem partsFrom_append {separator : Text} {n : Nesting} {ps : List Piece}
    (h : Quiet separator n ps) (rest : List Piece) :
    partsFrom separator n (ps ++ rest)
      = prepend (flatten ps) (partsFrom separator (ps.foldl Nesting.after n) rest) := by
  induction ps generalizing n with
  | nil => exact (prepend_nil (partsFrom_ne_nil _ _ _)).symm
  | cons p ps ih =>
      rw [List.cons_append, partsFrom, h.1]
      simp only [Bool.false_eq_true, if_false]
      rw [ih h.2]
      exact (prepend_append p.text (flatten ps) _).symm

theorem quiet_append {separator : Text} {n : Nesting} {ps qs : List Piece} :
    Quiet separator n (ps ++ qs)
      ↔ Quiet separator n ps ∧ Quiet separator (ps.foldl Nesting.after n) qs := by
  induction ps generalizing n with
  | nil => simp [Quiet]
  | cons p ps ih => rw [List.cons_append, Quiet, Quiet, ih, List.foldl_cons, and_assoc]

theorem Quiet.append {separator : Text} {n : Nesting} {ps qs : List Piece}
    (hp : Quiet separator n ps) (hq : Quiet separator (ps.foldl Nesting.after n) qs) :
    Quiet separator n (ps ++ qs) :=
  quiet_append.2 ⟨hp, hq⟩

/-- Pieces that do not separate are one part. -/
theorem partsFrom_quiet {separator : Text} {n : Nesting} {ps : List Piece}
    (h : Quiet separator n ps) : partsFrom separator n ps = [flatten ps] := by
  have hparts := partsFrom_append h []
  rwa [List.append_nil, partsFrom, prepend, List.append_nil] at hparts

theorem flatten_map_char (t : Text) : flatten (t.map Piece.char) = t := by
  induction t with
  | nil => rfl
  | cons c t ih => exact congrArg (c :: ·) ih

/-- Where the separator does not occur, nothing separates. -/
theorem Quiet.of_forall {s : CodePoint} {t : Text} (h : ∀ c ∈ t, c ≠ s) (n : Nesting) :
    Quiet [s] n (t.map Piece.char) := by
  induction t generalizing n with
  | nil => trivial
  | cons c t ih =>
      refine ⟨?_, ih (fun d hd => h d (List.mem_cons_of_mem c hd)) _⟩
      simp [separates, h c List.mem_cons_self]

/-- Nothing is open at the top. -/
theorem depth_of_isTop {n : Nesting} (h : n.isTop = true) : 0 ≤ n.depth := by
  simp only [Nesting.isTop, Bool.and_eq_true, beq_iff_eq] at h
  omega

/-- An open angle bracket is not the top. -/
theorem isTop_of_angle {n : Nesting} (h : 0 < n.angle) : n.isTop = false := by
  simp only [Nesting.isTop, Bool.and_eq_false_iff, beq_eq_false_iff_ne]
  omega

theorem isTop_of_depth {n : Nesting} (h : 0 < n.depth) : n.isTop = false := by
  simp only [Nesting.isTop, Bool.and_eq_false_iff, beq_eq_false_iff_ne]
  omega

theorem separates_of_not_isTop {separator : Text} {n : Nesting} {p : Piece}
    (h : n.isTop = false) : separates separator n p = false := by
  cases p with
  | literal t => rfl
  | char c => simp [separates, h]

theorem after_char {n : Nesting} {c : CodePoint} (hbracket : isBracket c = false) (hopen : c ≠ '<')
    (hclose : c ≠ '>') : n.after (.char c) = { n with last := c } := by
  simp only [isBracket, Bool.or_eq_false_iff] at hbracket
  simp [Nesting.after, hbracket.1, hbracket.2, hopen, hclose]

theorem after_opening (n : Nesting) :
    n.after (.char '<') = { n with angle := n.angle + 1, last := '<' } := rfl

theorem after_closing {n : Nesting} (hangle : 0 < n.angle) (hlast : n.last ≠ '=') :
    n.after (.char '>') = { n with angle := n.angle - 1, last := '>' } := by
  have hcloses : n.closesAngle = true := by simp [Nesting.closesAngle, hangle, hlast]
  simp [Nesting.after, closerOf?, isCloser, hcloses]

theorem after_opener {opener closer : CodePoint} (h : closerOf? opener = some closer)
    (n : Nesting) :
    n.after (.char opener) = { n with depth := n.depth + 1, last := opener } := by
  simp [Nesting.after, h]

theorem after_closer {opener closer : CodePoint} (h : closerOf? opener = some closer)
    (n : Nesting) :
    n.after (.char closer) = { n with depth := n.depth - 1, last := closer } := by
  obtain ⟨hopens, hcloses⟩ := isCloser_of_closerOf? h
  simp [Nesting.after, hopens, hcloses]

theorem getLastD_opening_ne {inner : Text} (h : inner.getLast? ≠ some (.ofChar '=')) :
    inner.getLastD '<' ≠ '=' := by
  rw [List.getLastD_eq_getLast?]
  cases hlast : inner.getLast? with
  | none => simp
  | some c =>
      rintro rfl
      exact h hlast

/-! ## Characters that stand outside -/

/-- The character stands in the text where no literal and no bracket is open, between the pieces. -/
def StandsOutside (s : CodePoint) (t : Text) (before after : List Piece) : Prop :=
  pieces t = before ++ .char s :: after ∧ (before.foldl Nesting.after .start).isTop = true

theorem eq_of_separates {s : CodePoint} {n : Nesting} {p : Piece} (h : separates [s] n p = true) :
    p = .char s ∧ n.isTop = true := by
  cases p with
  | literal t => cases h
  | char c =>
      simp only [separates, Bool.and_eq_true, beq_iff_eq] at h
      exact ⟨congrArg Piece.char (List.singleton_inj.1 h.1.1.1.1), h.1.1.1.2⟩

/-- A separator that is no bracket separates where nothing is open. -/
theorem separates_separator {s : CodePoint} (hbracket : isBracket s = false) (hopen : s ≠ '<')
    (n : Nesting) : separates [s] n (.char s) = n.isTop := by
  simp only [isBracket, Bool.or_eq_false_iff] at hbracket
  simp [separates, hbracket.1, hbracket.2, hopen]

theorem isTop_eq_false_of_separates {s : CodePoint} (hbracket : isBracket s = false)
    (hopen : s ≠ '<') {n : Nesting} (h : separates [s] n (.char s) = false) : n.isTop = false := by
  rwa [separates_separator hbracket hopen] at h

/-- A walk finds no separator, or a first one. -/
theorem quiet_or_exists (s : CodePoint) (n : Nesting) (ps : List Piece) : Quiet [s] n ps
    ∨ ∃ before after, ps = before ++ .char s :: after ∧ Quiet [s] n before
      ∧ (before.foldl Nesting.after n).isTop = true := by
  induction ps generalizing n with
  | nil => exact .inl trivial
  | cons p ps ih =>
      cases hp : separates [s] n p with
      | true =>
          obtain ⟨rfl, htop⟩ := eq_of_separates hp
          exact .inr ⟨[], ps, rfl, trivial, htop⟩
      | false =>
          rcases ih (n.after p) with hquiet | ⟨before, after, rfl, hquiet, htop⟩
          · exact .inl ⟨hp, hquiet⟩
          · exact .inr ⟨p :: before, after, rfl, ⟨hp, hquiet⟩, htop⟩

/-- At a separator the walk starts a new part. -/
theorem partsFrom_first {s : CodePoint} (hbracket : isBracket s = false) (hopen : s ≠ '<')
    {n : Nesting} {before : List Piece} (hquiet : Quiet [s] n before)
    (htop : (before.foldl Nesting.after n).isTop = true) (after : List Piece) :
    partsFrom [s] n (before ++ .char s :: after) = flatten before
      :: partsFrom [s] ((before.foldl Nesting.after n).after (.char s)) after := by
  rw [partsFrom_append hquiet, partsFrom, separates_separator hbracket hopen, if_pos htop, prepend,
    List.append_nil]

/-- Nothing separates exactly when the separator stands nowhere outside. -/
theorem quiet_iff {s : CodePoint} (hbracket : isBracket s = false) (hopen : s ≠ '<')
    {ps : List Piece} {n : Nesting} :
    Quiet [s] n ps ↔ ∀ before after, ps = before ++ .char s :: after →
      (before.foldl Nesting.after n).isTop = false := by
  induction ps generalizing n with
  | nil => simp [Quiet]
  | cons p ps ih =>
      rw [Quiet, ih]
      constructor
      · rintro ⟨hfirst, hothers⟩ before after heq
        cases before with
        | nil =>
            obtain ⟨rfl, -⟩ := List.cons.inj heq
            exact isTop_eq_false_of_separates hbracket hopen hfirst
        | cons q before =>
            obtain ⟨rfl, htail⟩ := List.cons.inj heq
            exact hothers before after htail
      · intro h
        refine ⟨?_, fun before after heq => h (p :: before) after (by rw [heq]; rfl)⟩
        cases p with
        | literal t => rfl
        | char c =>
            by_cases hc : c = s
            · subst hc
              exact separates_of_not_isTop (h [] ps rfl)
            · simp [separates, hc]

theorem quiet_iff_standsOutside {s : CodePoint} (hbracket : isBracket s = false) (hopen : s ≠ '<')
    {t : Text} :
    Quiet [s] .start (pieces t) ↔ ∀ before after, ¬ StandsOutside s t before after := by
  rw [quiet_iff hbracket hopen]
  simp [StandsOutside]

/-! ## Levelled texts -/

/-- Cutting at the separator passes over the text: nothing in it separates, and behind it the same
is open as before it. -/
structure Levelled (separator t : Text) : Prop where
  quotes : ∀ c ∈ t, isQuote c = false
  quiet : ∀ n : Nesting, 0 ≤ n.depth → Quiet separator n (t.map Piece.char)
  after : ∀ n : Nesting,
    (t.map Piece.char).foldl Nesting.after n = { n with last := t.getLastD n.last }

/-- Inside brackets cutting passes over the text, whatever the separator is. -/
structure Kept (t : Text) : Prop where
  quotes : ∀ c ∈ t, isQuote c = false
  quiet : ∀ (separator : Text) (n : Nesting), 0 ≤ n.depth → n.isTop = false →
    Quiet separator n (t.map Piece.char)
  after : ∀ n : Nesting,
    (t.map Piece.char).foldl Nesting.after n = { n with last := t.getLastD n.last }

theorem foldl_after_append {t u : Text}
    (ht : ∀ n : Nesting,
      (t.map Piece.char).foldl Nesting.after n = { n with last := t.getLastD n.last })
    (hu : ∀ n : Nesting,
      (u.map Piece.char).foldl Nesting.after n = { n with last := u.getLastD n.last })
    (n : Nesting) :
    ((t ++ u).map Piece.char).foldl Nesting.after n
      = { n with last := (t ++ u).getLastD n.last } := by
  rw [List.map_append, List.foldl_append, ht, hu]
  simp [List.getLastD_eq_getLast?, List.getLast?_append]

theorem Levelled.append {separator t u : Text} (ht : Levelled separator t)
    (hu : Levelled separator u) : Levelled separator (t ++ u) where
  quotes := List.forall_mem_append.2 ⟨ht.quotes, hu.quotes⟩
  quiet := by
    intro n hn
    rw [List.map_append]
    refine (ht.quiet n hn).append ?_
    rw [ht.after]
    exact hu.quiet _ hn
  after := foldl_after_append ht.after hu.after

theorem Kept.append {t u : Text} (ht : Kept t) (hu : Kept u) : Kept (t ++ u) where
  quotes := List.forall_mem_append.2 ⟨ht.quotes, hu.quotes⟩
  quiet := by
    intro separator n hn htop
    rw [List.map_append]
    refine (ht.quiet separator n hn htop).append ?_
    rw [ht.after]
    exact hu.quiet separator _ hn htop
  after := foldl_after_append ht.after hu.after

theorem Kept.of_levelled {t : Text} (h : ∀ separator, Levelled separator t) : Kept t where
  quotes := (h []).quotes
  quiet := fun separator n hn _ => (h separator).quiet n hn
  after := (h []).after

theorem Kept.nil : Kept [] :=
  .of_levelled fun _ => ⟨by simp, fun _ _ => trivial, fun _ => rfl⟩

theorem Kept.char {c : CodePoint} (hquote : isQuote c = false) (hbracket : isBracket c = false)
    (hopen : c ≠ '<') (hclose : c ≠ '>') : Kept [c] where
  quotes := List.forall_mem_singleton.2 hquote
  quiet := fun _ _ _ htop => ⟨separates_of_not_isTop htop, trivial⟩
  after := fun _ => after_char hbracket hopen hclose

/-- Angle brackets around a kept text. What is in them is met with one of them open, the closing one
too. -/
theorem Levelled.angle {separator inner : Text} (h : Kept inner)
    (hlast : inner.getLast? ≠ some (.ofChar '=')) :
    Levelled separator ('<' :: (inner ++ [.ofChar '>'])) where
  quotes := forall_mem_between rfl h.quotes rfl
  quiet := by
    intro n hn
    have hinside : ∀ last : CodePoint,
        Nesting.isTop { n with angle := n.angle + 1, last } = false :=
      fun _ => isTop_of_angle (Nat.succ_pos _)
    rw [List.map_cons, List.map_append]
    refine ⟨by simp [separates], ?_⟩
    rw [after_opening]
    refine (h.quiet separator { n with angle := n.angle + 1, last := '<' } hn
      (hinside _)).append ?_
    rw [h.after]
    exact ⟨separates_of_not_isTop (hinside _), trivial⟩
  after := by
    intro n
    rw [List.map_cons, List.map_append, List.foldl_cons, after_opening, List.foldl_append, h.after,
      List.map_singleton, List.foldl_cons,
      after_closing (Nat.succ_pos _) (getLastD_opening_ne hlast)]
    simp [List.getLastD_eq_getLast?, List.getLast?_cons]

/-- Other brackets around a kept text. -/
theorem Levelled.bracket {separator inner : Text} {opener closer : CodePoint}
    (hcloser : closerOf? opener = some closer) (h : Kept inner) :
    Levelled separator (opener :: (inner ++ [closer])) where
  quotes := by
    obtain ⟨hopener, hquote⟩ := isQuote_of_closerOf? hcloser
    exact forall_mem_between hopener h.quotes hquote
  quiet := by
    intro n hn
    -- a depth below zero could come back to the top here, but the walk is never there
    have hinside : ∀ last : CodePoint,
        Nesting.isTop { n with depth := n.depth + 1, last } = false :=
      fun _ => isTop_of_depth (Int.lt_add_one_of_le hn)
    rw [List.map_cons, List.map_append]
    refine ⟨by simp [separates, hcloser], ?_⟩
    rw [after_opener hcloser]
    refine (h.quiet separator _ (Int.le_add_one hn) (hinside _)).append ?_
    rw [h.after]
    exact ⟨separates_of_not_isTop (hinside _), trivial⟩
  after := by
    intro n
    rw [List.map_cons, List.map_append, List.foldl_cons, after_opener hcloser, List.foldl_append,
      h.after, List.map_singleton, List.foldl_cons, after_closer hcloser]
    simp [List.getLastD_eq_getLast?, List.getLast?_cons]

/-- Nested angle brackets without brackets of other kinds are kept. -/
theorem AngleNested.kept {t : Text} (h : AngleNested t) (hquote : ∀ c ∈ t, isQuote c = false)
    (hbracket : ∀ c ∈ t, isBracket c = false) : Kept t := by
  induction h with
  | nil => exact .nil
  | @char c t hopen hclose _ ih =>
      have hfirst := Kept.char (hquote c List.mem_cons_self) (hbracket c List.mem_cons_self) hopen
        hclose
      exact hfirst.append (ih (fun d hd => hquote d (List.mem_cons_of_mem c hd))
        fun d hd => hbracket d (List.mem_cons_of_mem c hd))
  | @group inner t hlast _ _ ihinner ih =>
      have hinner := ihinner (fun d hd => hquote d (by simp [hd])) fun d hd =>
        hbracket d (by simp [hd])
      have hrest := ih (fun d hd => hquote d (by simp [hd])) fun d hd => hbracket d (by simp [hd])
      have hgroup : Kept ('<' :: (inner ++ [.ofChar '>'])) :=
        .of_levelled fun _ => Levelled.angle hinner hlast
      simpa using hgroup.append hrest

/-- A kept text in which the separator does not occur is level for it. -/
theorem Kept.levelled {s : CodePoint} {t : Text} (h : Kept t) (hs : ∀ c ∈ t, c ≠ s) :
    Levelled [s] t where
  quotes := h.quotes
  quiet := fun n _ => Quiet.of_forall hs n
  after := h.after

/-- Text without quotes and brackets of other kinds in which the separator does not occur. -/
theorem Levelled.of_forall {s : CodePoint} {t : Text} (hquote : ∀ c ∈ t, isQuote c = false)
    (hbracket : ∀ c ∈ t, isBracket c = false) (hangle : AngleNested t) (hs : ∀ c ∈ t, c ≠ s) :
    Levelled [s] t :=
  (hangle.kept hquote hbracket).levelled hs

/-! ## Texts that are passed over -/

/-- Where no angle bracket is open, cutting at the separator passes over the text: no literal of it
is left open, nothing in it separates, and behind it the same is open as before it. -/
structure Passed (separator t : Text) : Prop where
  isSealed : Sealed t
  quiet : ∀ n : Nesting, 0 ≤ n.depth → n.angle = 0 → Quiet separator n (pieces t)
  depth : ∀ n : Nesting, ((pieces t).foldl Nesting.after n).depth = n.depth
  angle : ∀ n : Nesting, n.angle = 0 → ((pieces t).foldl Nesting.after n).angle = 0

theorem Levelled.passed {separator t : Text} (h : Levelled separator t) : Passed separator t where
  isSealed := .of_forall h.quotes
  quiet := by
    intro n hn _
    rw [pieces_of_forall h.quotes]
    exact h.quiet n hn
  depth := by
    intro n
    rw [pieces_of_forall h.quotes, h.after]
  angle := by
    intro n hn
    rw [pieces_of_forall h.quotes, h.after]
    exact hn

/-- Two texts one behind the other, where that changes no literal. -/
theorem Passed.of_pieces {separator t u : Text} (ht : Passed separator t) (hu : Passed separator u)
    (hsealed : Sealed (t ++ u)) (hpieces : pieces (t ++ u) = pieces t ++ pieces u) :
    Passed separator (t ++ u) where
  isSealed := hsealed
  quiet := by
    intro n hn hangle
    rw [hpieces]
    refine (ht.quiet n hn hangle).append (hu.quiet _ ?_ (ht.angle n hangle))
    rw [ht.depth]
    exact hn
  depth := by
    intro n
    rw [hpieces, List.foldl_append, hu.depth, ht.depth]
  angle := by
    intro n hn
    rw [hpieces, List.foldl_append]
    exact hu.angle _ (ht.angle n hn)

theorem Passed.append {separator t u : Text} (ht : Passed separator t) (hu : Passed separator u)
    (hstop : StopsAt isQuote u) : Passed separator (t ++ u) :=
  .of_pieces ht hu (ht.isSealed.append hu.isSealed hstop) (ht.isSealed u hstop)

/-- A level text holds no quotes, so nothing behind it can change its pieces. -/
theorem Levelled.append_passed {separator t u : Text} (ht : Levelled separator t)
    (hu : Passed separator u) : Passed separator (t ++ u) := by
  refine .of_pieces ht.passed hu (.prepend ht.quotes hu.isSealed) ?_
  rw [pieces_append_of_forall ht.quotes, pieces_of_forall ht.quotes]

/-- Behind the text a walk that came with nothing open has nothing open. -/
theorem Passed.isTop {separator t : Text} (h : Passed separator t) {n : Nesting}
    (hn : n.isTop = true) : ((pieces t).foldl Nesting.after n).isTop = true := by
  simp only [Nesting.isTop, Bool.and_eq_true, beq_iff_eq] at hn ⊢
  exact ⟨by rw [h.depth, hn.1], h.angle n hn.2⟩

/-! ## Groups -/

theorem depth_after_char {c : CodePoint} (hc : isBracket c = false) (n : Nesting) :
    (n.after (.char c)).depth = n.depth := by
  simp only [isBracket, Bool.or_eq_false_iff] at hc
  simp only [Nesting.after, hc.1, hc.2, Bool.false_eq_true, if_false]
  split
  · rfl
  · split <;> rfl

/-- Behind nested pieces the same brackets are open as before them. -/
theorem Nested.depth_foldl {ps : List Piece} (h : Nested ps) :
    ∀ n : Nesting, (ps.foldl Nesting.after n).depth = n.depth := by
  induction h with
  | nil => exact fun _ => rfl
  | literal _ ih => exact fun n => ih _
  | char hc _ ih => exact fun n => (ih _).trans (depth_after_char hc n)
  | group hcloser _ _ ihinner ih =>
      intro n
      rw [List.foldl_cons, List.foldl_append, List.foldl_cons, ih, after_closer hcloser,
        after_opener hcloser]
      simp only [ihinner, Int.add_sub_cancel]

/-- In brackets nothing separates nested pieces. -/
theorem Nested.quiet {ps : List Piece} (h : Nested ps) (separator : Text) :
    ∀ n : Nesting, 0 < n.depth → Quiet separator n ps := by
  induction h with
  | nil => exact fun _ _ => trivial
  | literal _ ih => exact fun n hn => ⟨rfl, ih _ hn⟩
  | char hc _ ih =>
      intro n hn
      exact ⟨separates_of_not_isTop (isTop_of_depth hn), ih _ (by rwa [depth_after_char hc])⟩
  | @group opener closer inner ps hcloser hinner _ ihinner ih =>
      intro n hn
      have hopened : 0 < (n.after (.char opener)).depth := by
        rw [after_opener hcloser]
        exact Int.add_pos hn Int.one_pos
      refine ⟨separates_of_not_isTop (isTop_of_depth hn), (ihinner _ hopened).append ⟨?_, ?_⟩⟩
      · exact separates_of_not_isTop (isTop_of_depth (by rwa [hinner.depth_foldl]))
      · refine ih _ ?_
        rw [after_closer hcloser]
        simp only [hinner.depth_foldl, after_opener hcloser]
        omega

/-- The literals of the text are closed, its brackets nest, and its angle brackets come out even. -/
structure Settled (t : Text) : Prop where
  balanced : Balanced t
  angle : ∀ n : Nesting, n.angle = 0 → ((pieces t).foldl Nesting.after n).angle = 0

theorem Settled.of_forall {t : Text} (hquote : ∀ c ∈ t, isQuote c = false)
    (hbracket : ∀ c ∈ t, isBracket c = false) (hangle : AngleNested t) : Settled t where
  balanced := .of_forall hquote hbracket
  angle := by
    intro n hn
    rw [pieces_of_forall hquote, (hangle.kept hquote hbracket).after]
    exact hn

theorem Settled.of_pieces {t u : Text} (ht : Settled t) (hu : Settled u) (hsealed : Sealed (t ++ u))
    (hpieces : pieces (t ++ u) = pieces t ++ pieces u) : Settled (t ++ u) where
  balanced := ⟨hsealed, by rw [hpieces]; exact ht.balanced.nested.append hu.balanced.nested⟩
  angle := by
    intro n hn
    rw [hpieces, List.foldl_append]
    exact hu.angle _ (ht.angle n hn)

theorem Settled.append {t u : Text} (ht : Settled t) (hu : Settled u) (hstop : StopsAt isQuote u) :
    Settled (t ++ u) :=
  .of_pieces ht hu (ht.balanced.isSealed.append hu.balanced.isSealed hstop)
    (ht.balanced.isSealed u hstop)

theorem Settled.prepend {t u : Text} (hquote : ∀ c ∈ t, isQuote c = false) (ht : Settled t)
    (hu : Settled u) : Settled (t ++ u) := by
  refine .of_pieces ht hu (.prepend hquote hu.balanced.isSealed) ?_
  rw [pieces_append_of_forall hquote, pieces_of_forall hquote]

/-- Settled texts in a list with commas between them. -/
theorem Settled.list {texts : List Text} (h : ∀ t ∈ texts, Settled t) :
    Settled (join [',', ' '] texts) := by
  induction texts with
  | nil => exact .of_forall (by simp [join]) (by simp [join]) .nil
  | cons t rest ih =>
      have ht := h t List.mem_cons_self
      have hrest := ih fun u hu => h u (List.mem_cons_of_mem t hu)
      cases rest with
      | nil => rwa [join_singleton]
      | cons u rest =>
          have hcomma : Settled [',', ' '] :=
            .of_forall (by decide) (by decide) (.of_forall (by decide))
          rw [join_cons_cons]
          exact ht.append (hcomma.prepend (by decide) hrest) rfl

/-- Brackets around a settled text are passed over, whatever the separator is. -/
theorem Passed.bracket {separator inner : Text} {opener closer : CodePoint}
    (hcloser : closerOf? opener = some closer) (h : Settled inner) :
    Passed separator (opener :: (inner ++ [closer])) := by
  have hpieces : pieces (opener :: (inner ++ [closer]))
      = .char opener :: (pieces inner ++ [.char closer]) := by
    rw [pieces_group hcloser h.balanced.isSealed, pieces_nil]
  have hgroup := h.balanced.group hcloser
  refine ⟨hgroup.isSealed, ?_, hgroup.nested.depth_foldl, ?_⟩
  · intro n hn hangle
    have hopened : 0 < (n.after (.char opener)).depth := by
      rw [after_opener hcloser]
      exact Int.lt_add_one_of_le hn
    rw [hpieces]
    refine ⟨by simp [separates, hcloser], (h.balanced.nested.quiet separator _ hopened).append ?_⟩
    refine ⟨separates_of_not_isTop (isTop_of_depth ?_), trivial⟩
    rwa [h.balanced.nested.depth_foldl]
  · intro n hn
    rw [hpieces, List.foldl_cons, List.foldl_append, List.foldl_cons, List.foldl_nil,
      after_closer hcloser]
    exact h.angle _ (by rwa [after_opener hcloser])

/-! ## The parts of a text -/

/-- A text that is passed over belongs to the next part. -/
theorem partsFrom_passed {separator t : Text} (h : Passed separator t) {n : Nesting}
    (hn : 0 ≤ n.depth) (hangle : n.angle = 0) {rest : Text} (hstop : StopsAt isQuote rest) :
    partsFrom separator n (pieces (t ++ rest))
      = prepend t (partsFrom separator ((pieces t).foldl Nesting.after n) (pieces rest)) := by
  rw [h.isSealed rest hstop, partsFrom_append (h.quiet n hn hangle), flatten_pieces]

/-- A level text belongs to the next part. -/
theorem partsFrom_level {separator t : Text} (h : Levelled separator t) {n : Nesting}
    (hn : 0 ≤ n.depth) (rest : Text) :
    partsFrom separator n (pieces (t ++ rest))
      = prepend t (partsFrom separator { n with last := t.getLastD n.last } (pieces rest)) := by
  rw [pieces_append_of_forall h.quotes, partsFrom_append (h.quiet n hn), flatten_map_char, h.after]

/-- A separator outside brackets starts a new part. -/
theorem partsFrom_separator {s : CodePoint} (hquote : isQuote s = false)
    (hbracket : isBracket s = false) (hopen : s ≠ '<') (hclose : s ≠ '>') {n : Nesting}
    (hn : n.isTop = true) (rest : Text) :
    partsFrom [s] n (pieces (s :: rest))
      = [] :: partsFrom [s] { n with last := s } (pieces rest) := by
  have hquiet : Quiet [s] n [] := trivial
  rw [pieces_cons hquote, ← after_char hbracket hopen hclose]
  exact partsFrom_first hbracket hopen hquiet hn (pieces rest)

/-- A text that is passed over is one part. -/
theorem splitTopLevel_passed {separator t : Text} (h : Passed separator t) (htrim : Trimmed t)
    (hne : t ≠ []) : splitTopLevel separator t = [t] := by
  have hparts := partsFrom_passed h (n := .start) (Int.le_refl 0) rfl
    (show StopsAt isQuote [] from trivial)
  rw [List.append_nil] at hparts
  rw [splitTopLevel, hparts, pieces_nil, partsFrom, prepend, List.append_nil,
    trimmedParts_cons htrim.trim_eq hne]
  rfl

/-- A level text is one part. -/
theorem splitTopLevel_level {separator t : Text} (h : Levelled separator t) (htrim : Trimmed t)
    (hne : t ≠ []) : splitTopLevel separator t = [t] :=
  splitTopLevel_passed h.passed htrim hne

/-- A walk that comes to a list with nothing open cuts it at its commas. -/
theorem partsFrom_join {parts : List Text} (hne : parts ≠ [])
    (h : ∀ t ∈ parts, Passed [','] t) {n : Nesting} (hn : n.isTop = true) :
    partsFrom [','] n (pieces (join [','] parts)) = parts := by
  induction parts generalizing n with
  | nil => exact absurd rfl hne
  | cons t rest ih =>
      have hdepth := depth_of_isTop hn
      have hangle : n.angle = 0 := by simpa using (Bool.and_eq_true_iff.1 hn).2
      have ht := h t List.mem_cons_self
      by_cases hnil : rest = []
      · have hparts := partsFrom_passed ht hdepth hangle (show StopsAt isQuote [] from trivial)
        rw [List.append_nil] at hparts
        rw [hnil, join_singleton, hparts, pieces_nil, partsFrom, prepend, List.append_nil]
      · obtain ⟨u, others, rfl⟩ := List.exists_cons_of_ne_nil hnil
        have htop := ht.isTop hn
        have hothers := ih hnil (fun v hv => h v (List.mem_cons_of_mem t hv))
          (n := { (pieces t).foldl Nesting.after n with last := ',' }) htop
        rw [join_cons_cons, List.singleton_append, partsFrom_passed ht hdepth hangle
            (show StopsAt isQuote (',' :: _) from rfl),
          partsFrom_separator rfl rfl (by decide) (by decide) htop, prepend, List.append_nil,
          hothers]

/-- A list is cut into the texts between its commas. -/
theorem splitTopLevel_join {parts : List Text} (h : ∀ t ∈ parts, Passed [','] t) :
    splitTopLevel [','] (join [','] parts) = trimmedParts parts := by
  by_cases hnil : parts = []
  · rw [hnil, splitTopLevel, show join [','] [] = [] from rfl, pieces_nil]
    rfl
  · rw [splitTopLevel, partsFrom_join hnil h rfl]

/-- A space behind each comma is white space before the texts behind the first. -/
theorem join_comma_space (t : Text) (rest : List Text) :
    join [',', ' '] (t :: rest) = join [','] (t :: rest.map fun u => ' ' :: u) := by
  induction rest generalizing t with
  | nil => rw [List.map_nil, join_singleton, join_singleton]
  | cons u rest ih =>
      rw [join_cons_cons, ih u, List.map_cons, join_cons_cons]
      cases rest with
      | nil => simp [join_singleton]
      | cons v rest => simp [join_cons_cons]

/-- The space before a text is trimmed off. -/
theorem trimmedParts_map_space {texts : List Text} (h : ∀ t ∈ texts, Trimmed t ∧ t ≠ []) :
    trimmedParts (texts.map fun t => ' ' :: t) = texts := by
  induction texts with
  | nil => rfl
  | cons t rest ih =>
      obtain ⟨htrim, hne⟩ := h t List.mem_cons_self
      have hgap : ∀ c ∈ ([' '] : Text), isBlank c = true := by decide
      have hspace : trim (' ' :: t) = t := trim_gap_append hgap htrim
      rw [List.map_cons, trimmedParts_cons hspace hne,
        ih fun u hu => h u (List.mem_cons_of_mem t hu)]

/-- Texts in a list with commas between them are the parts of the list. -/
theorem splitTopLevel_list {texts : List Text}
    (h : ∀ t ∈ texts, Passed [','] t ∧ Trimmed t ∧ t ≠ []) :
    splitTopLevel [','] (join [',', ' '] texts) = texts := by
  cases texts with
  | nil =>
      have hnone : ∀ t ∈ ([] : List Text), Passed [','] t := by simp
      exact splitTopLevel_join hnone
  | cons t rest =>
      have hspace : Levelled [','] [' '] := Levelled.of_forall (by decide) (by decide)
        (AngleNested.of_forall (by decide)) (by decide)
      have hrest : trimmedParts (rest.map fun u => ' ' :: u) = rest :=
        trimmedParts_map_space fun u hu => (h u (List.mem_cons_of_mem t hu)).2
      obtain ⟨ht, htrim, hne⟩ := h t List.mem_cons_self
      rw [join_comma_space, splitTopLevel_join, trimmedParts_cons htrim.trim_eq hne, hrest]
      refine List.forall_mem_cons.2 ⟨ht, fun u hu => ?_⟩
      obtain ⟨v, hv, rfl⟩ := List.mem_map.1 hu
      exact hspace.append_passed (h v (List.mem_cons_of_mem t hv)).1

end Source

end DartDecoders
