/-
Parameters as a list writes them, and reading the list back.

The default value of a parameter may be any text. A list keeps it apart from what stands around it
when its literals are closed, its brackets nest, its angle brackets come out even, and no comma and
no equals sign stands outside them (`Detached`). All this is said of a walk over the value alone. In
a list the walk comes to the value with other brackets open and behind another character; that
changes neither how its angle brackets count, since none is open in front of it, nor whether
anything is open at one of its characters (`Shifted`). So each text is one part of its group, its
one equals sign cuts the value off, and the list is read back as it was
(`parseParameters_renderAll`).
-/
import DartDecoders.Proofs.AbstractMethods
import DartDecoders.Proofs.CommentContents

set_option autoImplicit false

namespace DartDecoders

open Text TypeExpr

namespace Source

/-! ## Closed literals -/

/-- Whether a literal in single quotes is closed, from behind its opening quote. -/
def closesSimple (quote : CodePoint) : Text → Bool
  | [] => false
  | ['\\'] => false
  | '\\' :: _ :: rest => closesSimple quote rest
  | c :: rest => c == quote || closesSimple quote rest

/-- Whether a literal is closed, from behind the first of its quotes. -/
def closesLiteral (quote : CodePoint) (t : Text) : Bool :=
  if [quote, quote].isPrefixOf t then (splitAfter? [quote, quote, quote] (t.drop 2)).isSome
  else closesSimple quote t

/-- Whether all literals of a text are closed. -/
def closesLiterals : Text → Bool
  | [] => true
  | c :: rest =>
    if isQuote c then closesLiteral c rest && closesLiterals (afterLiteral c rest)
    else closesLiterals rest
termination_by t => t.length
decreasing_by
  · exact Nat.lt_succ_of_le (length_afterLiteral_le c rest)
  · exact Nat.lt_succ_self _

theorem afterSimple_append_of_closes {quote : CodePoint} {t : Text}
    (h : closesSimple quote t = true) (rest : Text) :
    afterSimple quote (t ++ rest) = afterSimple quote t ++ rest := by
  fun_induction closesSimple quote t with
  | case1 => cases h
  | case2 => cases h
  | case3 c t ih => exact ih h
  | case4 c t hnil hcons ih =>
      have hslash := ne_of_forall_rest hnil hcons
      rw [List.cons_append, afterSimple_cons quote hslash, afterSimple_cons quote hslash]
      split
      · rfl
      · next hquote =>
          rw [Bool.or_eq_true] at h
          exact ih (h.resolve_left hquote)

/-- A closed literal is the same one whatever follows the text, unless it is empty and a quote
follows it. -/
theorem afterLiteral_append_of_closes {quote : CodePoint} (hquote : isQuote quote = true) {t : Text}
    (h : closesLiteral quote t = true) {rest : Text} (hrest : StopsAt isQuote rest) :
    afterLiteral quote (t ++ rest) = afterLiteral quote t ++ rest := by
  rw [closesLiteral] at h
  by_cases hdouble : [quote, quote].isPrefixOf t = true
  · rw [if_pos hdouble] at h
    obtain ⟨found, hfound⟩ := Option.isSome_iff_exists.1 h
    obtain ⟨inside, rfl⟩ := List.isPrefixOf_iff_prefix.1 hdouble
    have hlonger : [quote, quote].isPrefixOf ([quote, quote] ++ inside ++ rest) = true := by
      rw [List.append_assoc]
      exact List.isPrefixOf_iff_prefix.2 (List.prefix_append _ _)
    have hfound : splitAfter? [quote, quote, quote] inside = some found := hfound
    have hfoundLonger := splitAfter?_append hfound rest
    rw [afterLiteral, if_pos hlonger, afterLiteral, if_pos hdouble]
    show afterTriple quote (inside ++ rest) = afterTriple quote inside ++ rest
    rw [afterTriple, afterTriple, hfound, hfoundLonger]
  · rw [if_neg hdouble] at h
    have hne : t ≠ [] := by
      rintro rfl
      cases h
    have hshort := not_isPrefixOf_quotes_append hquote hne hdouble hrest
    rw [afterLiteral, if_neg hshort, afterLiteral, if_neg hdouble]
    exact afterSimple_append_of_closes h rest

theorem Sealed.of_closesLiterals {t : Text} (h : closesLiterals t = true) : Sealed t := by
  intro rest hrest
  induction t using pieces.induct with
  | case1 =>
      rw [pieces_nil]
      rfl
  | case2 c t hquote ih =>
      rw [closesLiterals, if_pos hquote, Bool.and_eq_true] at h
      have hafter := afterLiteral_append_of_closes hquote h.1 hrest
      have hliteral : literalText c (t ++ rest) = literalText c t := by
        have happend := literalText_append c (t ++ rest)
        rw [hafter, ← List.cons_append, ← literalText_append c t, List.append_assoc] at happend
        exact List.append_cancel_right happend
      rw [List.cons_append, pieces, if_pos hquote, hafter, hliteral, ih h.2, pieces,
        if_pos hquote]
      rfl
  | case3 c t hquote ih =>
      have hchar : isQuote c = false := by simpa using hquote
      rw [closesLiterals, if_neg hquote] at h
      rw [List.cons_append, pieces_cons hchar, pieces_cons hchar, ih h]
      rfl

/-! ## Walks that differ in what is open around them -/

/-- The two walks are at the same piece, the first with more brackets open around it. What the
character before was does not matter where no angle bracket is open. -/
structure Shifted (more : Int) (n m : Nesting) : Prop where
  depth : n.depth = m.depth + more
  angle : n.angle = m.angle
  last : n.angle = 0 ∨ n.last = m.last

theorem Shifted.closesAngle {more : Int} {n m : Nesting} (h : Shifted more n m) :
    n.closesAngle = m.closesAngle := by
  rcases h.last with hnone | hlast
  · simp [Nesting.closesAngle, ← h.angle, hnone]
  · rw [Nesting.closesAngle, Nesting.closesAngle, h.angle, hlast]

theorem Shifted.after {more : Int} {n m : Nesting} (h : Shifted more n m) (p : Piece) :
    Shifted more (n.after p) (m.after p) := by
  obtain ⟨hdepth, hangle, hlast⟩ := id h
  cases p with
  | literal t =>
      refine ⟨hdepth, hangle, hlast.imp id fun heq => ?_⟩
      simp only [Nesting.after, heq]
  | char c =>
      simp only [Nesting.after, h.closesAngle]
      split
      · exact ⟨by simp only; omega, hangle, .inr rfl⟩
      split
      · exact ⟨by simp only; omega, hangle, .inr rfl⟩
      split
      · exact ⟨hdepth, by simp only; omega, .inr rfl⟩
      split
      · exact ⟨hdepth, by simp only; omega, .inr rfl⟩
      · exact ⟨hdepth, hangle, .inr rfl⟩

theorem Shifted.foldl {more : Int} {n m : Nesting} (h : Shifted more n m) (ps : List Piece) :
    Shifted more (ps.foldl Nesting.after n) (ps.foldl Nesting.after m) := by
  induction ps generalizing n m with
  | nil => exact h
  | cons p ps ih => exact ih (h.after p)

/-- A walk that comes to a text with no angle bracket open. -/
theorem shifted_start {n : Nesting} (h : n.angle = 0) : Shifted n.depth n .start :=
  ⟨(Int.zero_add _).symm, h, .inl h⟩

theorem Shifted.isTop {n m : Nesting} (h : Shifted 0 n m) : n.isTop = m.isTop := by
  rw [Nesting.isTop, Nesting.isTop, h.depth, h.angle, Int.add_zero]

theorem Shifted.separates {n m : Nesting} (h : Shifted 0 n m) (separator : Text) (p : Piece) :
    separates separator n p = separates separator m p := by
  cases p with
  | literal t => rfl
  | char c => rw [Source.separates, Source.separates, h.isTop]

theorem Shifted.quiet {separator : Text} {n m : Nesting} (h : Shifted 0 n m) {ps : List Piece}
    (hquiet : Quiet separator m ps) : Quiet separator n ps := by
  induction ps generalizing n m with
  | nil => trivial
  | cons p ps ih => exact ⟨(h.separates separator p).trans hquiet.1, ih (h.after p) hquiet.2⟩

/-! ## Default values -/

instance decidableQuiet (separator : Text) :
    (n : Nesting) → (ps : List Piece) → Decidable (Quiet separator n ps)
  | _, [] => inferInstanceAs (Decidable True)
  | n, p :: rest =>
    have := decidableQuiet separator (n.after p) rest
    inferInstanceAs (Decidable (_ ∧ _))

/-- A list keeps the text apart from what stands around it: all literals are closed, the brackets
nest, behind the text no angle bracket is open, and no comma and no equals sign stands outside. -/
structure Detached (t : Text) : Prop where
  literals : closesLiterals t = true
  nested : Nested (pieces t)
  angle : ((pieces t).foldl Nesting.after .start).angle = 0
  comma : ∀ before after, ¬ StandsOutside ',' t before after
  equals : ∀ before after, ¬ StandsOutside '=' t before after

namespace Detached

variable {t : Text}

theorem quiet (h : Detached t) :
    Quiet [','] .start (pieces t) ∧ Quiet ['='] .start (pieces t) :=
  ⟨(quiet_iff_standsOutside rfl (by decide)).2 h.comma,
    (quiet_iff_standsOutside rfl (by decide)).2 h.equals⟩

theorem of_quiet (hliterals : closesLiterals t = true) (hnested : Nested (pieces t))
    (hangle : ((pieces t).foldl Nesting.after .start).angle = 0)
    (hquiet : Quiet [','] .start (pieces t) ∧ Quiet ['='] .start (pieces t)) : Detached t where
  literals := hliterals
  nested := hnested
  angle := hangle
  comma := (quiet_iff_standsOutside rfl (by decide)).1 hquiet.1
  equals := (quiet_iff_standsOutside rfl (by decide)).1 hquiet.2

theorem settled (h : Detached t) : Settled t where
  balanced := ⟨.of_closesLiterals h.literals, h.nested⟩
  angle := by
    intro n hn
    rw [((shifted_start hn).foldl _).angle]
    exact h.angle

/-- Inside other brackets nothing separates since one is open, and outside them nothing separates
that does not in the text alone. -/
theorem passed (h : Detached t) {separator : Text} (hquiet : Quiet separator .start (pieces t)) :
    Passed separator t where
  isSealed := h.settled.balanced.isSealed
  quiet := by
    intro n hn hangle
    by_cases hdepth : n.depth = 0
    · have hshifted := shifted_start hangle
      rw [hdepth] at hshifted
      exact hshifted.quiet hquiet
    · exact h.nested.quiet separator n (by omega)
  depth := h.nested.depth_foldl
  angle := h.settled.angle

end Detached

end Source

open Source

/-! ## Parameters -/

/-- What may be written behind the equals sign of a parameter. -/
structure DefaultText where
  text : Text
  ne_nil : text ≠ []
  trimmed : Trimmed text

/-- A parameter with a type that modifies no parameters, a name, and perhaps a default value. -/
structure WrittenParameter where
  type : CanonicalType
  type_free : type.text ∉ parameterModifiers
  name : Word
  default : Option DefaultText := none

namespace WrittenParameter

/-- The parameter as a member of a group, perhaps marked as required. -/
def toParameter (kind : ParameterKind) (required : Bool) (p : WrittenParameter) : Parameter where
  typeText := .str p.type.text
  name := .str p.name.text
  kind
  required
  default := p.default.elim .null fun value => .str value.text

/-- The parameter without its default value. -/
def declared (required : Bool) (p : WrittenParameter) : Text :=
  parameterHead required p.type.text p.name

/-- The parameter as it is written. -/
def text (required : Bool) (p : WrittenParameter) : Text :=
  p.declared required ++ p.default.elim [] fun value => " = ".toText ++ value.text

variable {kind : ParameterKind} {required : Bool}

theorem render_toParameter (h : required = true → kind = .named) (p : WrittenParameter) :
    (p.toParameter kind required).render = p.text required := by
  have hdefault : (p.toParameter kind required).default
      = (p.default.map DefaultText.text).elim .null .str := by
    rw [toParameter]
    cases p.default <;> rfl
  rw [render_eq_parameterHead rfl rfl hdefault h, text]
  cases p.default <;> rfl

theorem isPart_declared (required : Bool) (p : WrittenParameter) : IsPart (p.declared required) :=
  p.type.isTypeText.isPart_declared p.name required

theorem start_text (required : Bool) (p : WrittenParameter) :
    ∃ c rest, p.text required = c :: rest ∧ isNameChar c = true := by
  obtain ⟨c, rest, hdeclared, hc⟩ := (p.isPart_declared required).start
  exact ⟨c, rest ++ p.default.elim [] fun value => " = ".toText ++ value.text,
    by rw [text, hdeclared]; rfl, hc⟩

theorem trimmed_text (required : Bool) (p : WrittenParameter) : Trimmed (p.text required) := by
  have hpart := p.isPart_declared required
  rw [text]
  cases p.default with
  | none =>
      rw [Option.elim_none, List.append_nil]
      exact hpart.trimmed
  | some value => exact hpart.trimmed.around value.trimmed hpart.ne_nil value.ne_nil " = ".toText

/-- A parameter starts with a name, so no annotation stands before it. -/
theorem withoutMarkers_text (required : Bool) (p : WrittenParameter) :
    withoutMarkers (p.text required) = .ok (p.text required) := by
  refine withoutMarkers_eq_self (p.trimmed_text required) ?_
  obtain ⟨c, rest, htext, hc⟩ := p.start_text required
  rw [htext]
  exact beq_eq_false_iff_ne.2 (ne_of_class hc (by decide))

/-- The name is not the word that marks a parameter as required, and a list keeps the default value
apart from what stands around it. -/
structure Separable (p : WrittenParameter) : Prop where
  name : p.name.text ≠ "required".toText
  default : ∀ value ∈ p.default, Detached value.text

variable {p : WrittenParameter}

/-- The default value is cut off at the equals sign in front of it. -/
theorem Separable.cutDefaults_text (h : p.Separable) (required : Bool) :
    cutDefaults (p.text required)
      = (p.declared required, p.default.elim .null fun value => .str value.text) := by
  have hwhole : ∀ v ∈ p.default.map DefaultText.text, splitTopLevel ['='] v = [v] := by
    intro v hv
    obtain ⟨value, hvalue, rfl⟩ := Option.map_eq_some_iff.1 hv
    have hdetached := h.default value hvalue
    exact splitTopLevel_passed (hdetached.passed hdetached.quiet.2) value.trimmed value.ne_nil
  have hcut := cutDefaults_whole p.type.isTypeText p.name required _ hwhole
  rwa [Option.elim_map, Option.elim_map] at hcut

theorem Separable.parseParameter_text (h : p.Separable) (kind : ParameterKind) (required : Bool) :
    parseParameter kind (p.text required) = .ok (p.toParameter kind required) := by
  rw [parseParameter_declared p.type.isTypeText p.type_free p.name required
    (p.withoutMarkers_text required) (h.cutDefaults_text required),
    beq_eq_false_iff_ne.2 h.name, Bool.or_false]
  rfl

/-- In a list the text is one part. -/
theorem Separable.passed_text (h : p.Separable) (required : Bool) :
    Passed [','] (p.text required) ∧ Settled (p.text required) := by
  have hpart := p.isPart_declared required
  have hdefault := h.default
  rw [text]
  cases hvalue : p.default with
  | none =>
      rw [Option.elim_none, List.append_nil]
      exact ⟨hpart.level.passed, hpart.settled⟩
  | some value =>
      have hdetached := hdefault value hvalue
      have hequals : Levelled [','] " = ".toText :=
        .of_forall (by decide) (by decide) (.of_forall (by decide)) (by decide)
      have hsettled : Settled " = ".toText :=
        .of_forall (by decide) (by decide) (.of_forall (by decide))
      rw [Option.elim_some]
      exact ⟨hpart.level.append_passed
          (hequals.append_passed (hdetached.passed hdetached.quiet.1)),
        hpart.settled.prepend hpart.isQuote (hsettled.prepend (by decide) hdetached.settled)⟩

theorem Separable.rereads (h : p.Separable) (hrequired : required = true → kind = .named) :
    Rereads (p.toParameter kind required) := by
  obtain ⟨hpassed, hsettled⟩ := h.passed_text required
  have hrender := p.render_toParameter hrequired
  refine ⟨?_, ?_, ?_, ?_, ?_⟩ <;> rw [hrender]
  · exact h.parseParameter_text kind required
  · exact hpassed
  · exact hsettled
  · exact p.trimmed_text required
  · exact p.start_text required

/-- **Parameter lists survive.** However many plain, optional and named parameters there are, a list
of them is read back as it was: no name may be the word for required parameters, and the default
values have to be detached. -/
theorem parseParameters_renderAll {positional optional : List WrittenParameter}
    {named : List (WrittenParameter × Bool)} (hpositional : ∀ p ∈ positional, p.Separable)
    (hoptional : ∀ p ∈ optional, p.Separable) (hnamed : ∀ p ∈ named, p.1.Separable) :
    let ps := positional.map (toParameter .positional false)
      ++ (optional.map (toParameter .optional false)
        ++ named.map fun p => p.1.toParameter .named p.2)
    parseParameters (Parameter.renderAll ps) = .ok ps := by
  refine parseParameters_render ?_ ?_ ?_
  · exact List.forall_mem_map.2 fun p hp => ⟨(hpositional p hp).rereads (by simp), rfl⟩
  · exact List.forall_mem_map.2 fun p hp => ⟨(hoptional p hp).rereads (by simp), rfl⟩
  · exact List.forall_mem_map.2 fun p hp => ⟨(hnamed p hp).rereads fun _ => rfl, rfl⟩

/-- The labels of a map. -/
def labels : WrittenParameter where
  type :=
    { tree := .node "Map".toText [.node "String".toText [] false none,
        .node "int".toText [] true none] false (some [])
      wellFormed := by decide }
  type_free := by decide +kernel
  name := { text := "labels".toText, ne_nil := by decide, chars := by decide }

/-- A text of separators, in a literal. -/
def glue : WrittenParameter where
  type := { tree := .node "String".toText [] false none, wellFormed := by decide }
  type_free := by decide +kernel
  name := { text := "glue".toText, ne_nil := by decide, chars := by decide }
  default := some
    { text := "', \x7b = '".toText, ne_nil := by decide, trimmed := ⟨rfl, rfl⟩ }

/-- A map with a comma between its angle brackets and one between its braces. -/
def sizes : WrittenParameter where
  type := labels.type
  type_free := by decide +kernel
  name := { text := "sizes".toText, ne_nil := by decide, chars := by decide }
  default := some
    { text := "const <String, int>\x7b'a': 1, 'b': 2\x7d".toText
      ne_nil := by decide
      trimmed := ⟨rfl, rfl⟩ }

/-- A parameter of each group. -/
def labelled : List Parameter :=
  [labels.toParameter .positional false, glue.toParameter .optional false,
    sizes.toParameter .named true]

example : Parameter.renderAll labelled
    = ("Map<String, int?> labels, [String glue = ', \x7b = '], "
      ++ "\x7brequired Map<String, int?> sizes = "
      ++ "const <String, int>\x7b'a': 1, 'b': 2\x7d\x7d").toText := by
  decide +kernel

/-- Commas, braces and equals signs in literals and brackets are passed over. -/
theorem parseParameters_renderAll_labelled :
    labels.Separable ∧ glue.Separable ∧ sizes.Separable
      ∧ parseParameters (Parameter.renderAll labelled) = .ok labelled := by
  have hlabels : labels.Separable := ⟨by decide, by simp [labels]⟩
  have hquoted : ∀ t : Text, (∀ c ∈ t, c ≠ '\'' ∧ c ≠ '\\') →
      Balanced ('\'' :: (t ++ [.ofChar '\''])) := fun _ ht => .literal rfl ht
  have hliteral : Balanced "', \x7b = '".toText := hquoted ", \x7b = ".toText (by decide)
  have hglue : glue.Separable := by
    refine ⟨by decide, ?_⟩
    rintro value ⟨⟩
    exact .of_quiet (by decide +kernel) hliteral.nested (by decide +kernel) (by decide +kernel)
  have hfirst : Balanced "'a'".toText := hquoted ['a'] (by decide)
  have hsecond : Balanced "'b'".toText := hquoted ['b'] (by decide)
  have hplain : ∀ t ∈ [": 1, ".toText, ": 2".toText, "const <String, int>".toText], Balanced t := by
    intro t ht
    have hchars : ∀ t ∈ [": 1, ".toText, ": 2".toText, "const <String, int>".toText],
        ∀ c ∈ t, isQuote c = false ∧ isBracket c = false := by decide +kernel
    exact .of_forall (fun c hc => (hchars t ht c hc).1) fun c hc => (hchars t ht c hc).2
  have hentries : Balanced ("'a'".toText ++ (": 1, ".toText ++ ("'b'".toText ++ ": 2".toText))) :=
    hfirst.append (.prepend (by decide) (hplain _ (by simp))
      (hsecond.append (hplain _ (by simp)) rfl)) rfl
  have hmap : Balanced ("const <String, int>".toText ++ .ofChar '\x7b' :: ("'a'".toText
      ++ (": 1, ".toText ++ ("'b'".toText ++ ": 2".toText)) ++ [.ofChar '\x7d'])) :=
    .append (hplain _ (by simp)) (.group rfl hentries) rfl
  have hsizes : sizes.Separable := by
    refine ⟨by decide, ?_⟩
    rintro value ⟨⟩
    exact .of_quiet (by decide +kernel) hmap.nested (by decide +kernel) (by decide +kernel)
  have hpositional : ∀ p ∈ [labels], p.Separable := List.forall_mem_singleton.2 hlabels
  have hoptional : ∀ p ∈ [glue], p.Separable := List.forall_mem_singleton.2 hglue
  have hnamed : ∀ p ∈ [(sizes, true)], p.1.Separable := List.forall_mem_singleton.2 hsizes
  have hread := parseParameters_renderAll hpositional hoptional hnamed
  exact ⟨hlabels, hglue, hsizes, hread⟩

end WrittenParameter

end DartDecoders
