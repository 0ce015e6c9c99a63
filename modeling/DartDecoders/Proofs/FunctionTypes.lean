/-
Parameters of function types.

What stands in the parentheses of a function type is a parameter list of its own: types of any kind,
with names behind them or without, and parameters of the other groups in brackets. Types are looked
at only for how their brackets nest (`Bracketed`), so functions, records and type arguments may
stand in each other, and white space anywhere.

Reading such a list cuts it into the parameters that it is made of and reads each of them. A
parameter is read when it ends in a word, which is then taken for its name, and is not made of
modifiers alone (`IsNamed`). A type that ends in a bracket or a mark, with no name behind it, cannot
be read, so a list is read exactly when no such parameter is in it (`parseParameters_isRead_iff`).
-/
import DartDecoders.Proofs.PlainParameter

set_option autoImplicit false

namespace DartDecoders

open Text TypeExpr Source

/-! ## Bracketed texts -/

/-- The characters of types outside their brackets: those of names, white space, commas and question
marks. -/
def isListChar (c : CodePoint) : Bool :=
  isNameChar c || isBlank c || c == ',' || c == '?'

theorem plain_of_isListChar {c : CodePoint} (h : isListChar c = true) :
    isQuote c = false ∧ isBracket c = false ∧ c ≠ '<' ∧ c ≠ '>' := by
  have hall : ∀ d ∈ brackets, isListChar d = false := by decide +kernel
  have hsingle : c ≠ '\'' := ne_of_class h (by decide +kernel)
  have hdouble : c ≠ '"' := ne_of_class h (by decide +kernel)
  refine ⟨by simp [isQuote, hsingle, hdouble], ?_, ?_, ?_⟩
  · exact isBracket_eq_false fun d hd => ne_of_class h (hall d hd)
  · exact ne_of_class h (by decide +kernel)
  · exact ne_of_class h (by decide +kernel)

/-- Characters of types and brackets of all kinds, which nest. Outside of them commas stand only
where they are allowed. -/
inductive Bracketed : Bool → Text → Prop
  | nil {commas : Bool} : Bracketed commas []
  | char {commas : Bool} {c : CodePoint} {t : Text} :
      isListChar c = true → (c = ',' → commas = true) →
    Bracketed commas t → Bracketed commas (c :: t)
  | angle {commas : Bool} {inner t : Text} : Bracketed true inner → Bracketed commas t →
    Bracketed commas (.ofChar '<' :: (inner ++ .ofChar '>' :: t))
  | group {commas : Bool} {opener closer : CodePoint} {inner t : Text} :
      closerOf? opener = some closer →
    Bracketed true inner → Bracketed commas t →
    Bracketed commas (opener :: (inner ++ closer :: t))

namespace Bracketed

variable {commas : Bool} {t u : Text}

theorem append (ht : Bracketed commas t) (hu : Bracketed commas u) : Bracketed commas (t ++ u) := by
  induction ht with
  | nil => exact hu
  | char hc hcomma _ ih => exact .char hc hcomma (ih hu)
  | angle hinner _ _ ih =>
      rw [List.cons_append, List.append_assoc, List.cons_append]
      exact .angle hinner (ih hu)
  | group hcloser hinner _ _ ih =>
      rw [List.cons_append, List.append_assoc, List.cons_append]
      exact .group hcloser hinner (ih hu)

theorem of_forall (h : ∀ c ∈ t, isListChar c = true ∧ c ≠ ',') : Bracketed commas t := by
  induction t with
  | nil => exact .nil
  | cons c t ih =>
      obtain ⟨hc, hcomma⟩ := h c List.mem_cons_self
      exact .char hc (fun heq => absurd heq hcomma) (ih fun d hd => h d (List.mem_cons_of_mem c hd))

/-- White space. -/
theorem gap (g : Gap) : Bracketed commas g.text := by
  refine of_forall fun c hc => ⟨?_, ?_⟩
  · simp [isListChar, g.blank c hc]
  · rintro rfl
    exact absurd (g.blank ',' hc) (by decide)

/-- Where commas are not allowed there are fewer texts. -/
theorem allow (h : Bracketed false t) : Bracketed true t := by
  generalize hcommas : false = commas at h
  induction h with
  | nil => exact .nil
  | char hc _ _ ih => exact .char hc (fun _ => rfl) (ih hcommas)
  | angle hinner _ _ ih => exact .angle hinner (ih hcommas)
  | group hcloser hinner _ _ ih => exact .group hcloser hinner (ih hcommas)

/-- No equals sign, colon or annotation is in the text. -/
theorem ne_of_mem (h : Bracketed commas t) {d : CodePoint} (hd : isListChar d = false)
    (hangle : d ≠ '<' ∧ d ≠ '>') (hbracket : isBracket d = false) : ∀ c ∈ t, c ≠ d := by
  induction h with
  | nil => simp
  | char hc _ _ ih => exact List.forall_mem_cons.2 ⟨ne_of_class hc hd, ih⟩
  | angle _ _ ihinner ih =>
      refine List.forall_mem_cons.2 ⟨hangle.1.symm, List.forall_mem_append.2 ⟨ihinner, ?_⟩⟩
      exact List.forall_mem_cons.2 ⟨hangle.2.symm, ih⟩
  | group hcloser _ _ ihinner ih =>
      have hopener : ∀ e, isBracket e = true → e ≠ d := fun e he => ne_of_class he hbracket
      have hchars := isCloser_of_closerOf? hcloser
      refine List.forall_mem_cons.2 ⟨hopener _ (by simp [isBracket, hcloser]),
        List.forall_mem_append.2 ⟨ihinner, ?_⟩⟩
      exact List.forall_mem_cons.2 ⟨hopener _ (by simp [isBracket, hchars.2]), ih⟩

theorem getLast?_ne (h : Bracketed commas t) : t.getLast? ≠ some (.ofChar '=') := by
  intro hlast
  exact h.ne_of_mem (by decide +kernel) (by decide) (by decide) '=' (List.mem_of_getLast? hlast) rfl

/-- Inside brackets the text is passed over. -/
theorem kept (h : Bracketed commas t) : Kept t := by
  induction h with
  | nil => exact .nil
  | char hc _ _ ih =>
      obtain ⟨hquote, hbracket, hopen, hclose⟩ := plain_of_isListChar hc
      exact (Kept.char hquote hbracket hopen hclose).append ih
  | @angle commas inner t hinner _ ihinner ih =>
      have hgroup : Kept ('<' :: (inner ++ [.ofChar '>'])) :=
        .of_levelled fun _ => Levelled.angle ihinner hinner.getLast?_ne
      simpa using hgroup.append ih
  | @group commas opener closer inner t hcloser _ _ ihinner ih =>
      have hgroup : Kept (opener :: (inner ++ [closer])) :=
        .of_levelled fun _ => Levelled.bracket hcloser ihinner
      simpa using hgroup.append ih

/-- Where no commas are allowed outside brackets, none separates. -/
theorem level (h : Bracketed false t) : Levelled [','] t := by
  generalize hcommas : false = commas at h
  induction h with
  | nil => exact Kept.nil.levelled (by simp)
  | @char commas c t hc hcomma _ ih =>
      obtain ⟨hquote, hbracket, hopen, hclose⟩ := plain_of_isListChar hc
      have hne : c ≠ ',' := fun heq => by
        rw [← hcommas] at hcomma
        exact absurd (hcomma heq) (by decide)
      exact ((Kept.char hquote hbracket hopen hclose).levelled (by simpa using hne)).append
        (ih hcommas)
  | angle hinner _ _ ih =>
      have hgroup : Levelled [','] _ := Levelled.angle hinner.kept hinner.getLast?_ne
      simpa using hgroup.append (ih hcommas)
  | group hcloser hinner _ _ ih =>
      have hgroup : Levelled [','] _ := Levelled.bracket hcloser hinner.kept
      simpa using hgroup.append (ih hcommas)

/-- The brackets that have to match do. -/
theorem nested (h : Bracketed commas t) : Nested (t.map Piece.char) := by
  induction h with
  | nil => exact .nil
  | char hc _ _ ih => exact .char (plain_of_isListChar hc).2.1 ih
  | angle _ _ ihinner ih =>
      rw [List.map_cons, List.map_append, List.map_cons]
      exact .char (by decide) (ihinner.append (.char (by decide) ih))
  | group hcloser _ _ ihinner ih =>
      rw [List.map_cons, List.map_append, List.map_cons]
      exact .group hcloser ihinner ih

theorem balanced (h : Bracketed commas t) : Balanced t where
  isSealed := .of_forall h.kept.quotes
  nested := by
    rw [pieces_of_forall h.kept.quotes]
    exact h.nested

end Bracketed

/-! ## Parameters -/

/-- A parameter that can be read: it ends in a word and is not made of modifiers alone. -/
def IsNamed (t : Text) : Prop :=
  (∃ c ∈ t.getLast?, isWordChar c = true) ∧ ∃ w ∈ words t, w ∉ parameterModifiers

/-- A parameter is read exactly when it is named. -/
theorem parseParameter_isRead_iff (kind : ParameterKind) {t : Text} (h : Bracketed false t)
    (htrimmed : Trimmed t) (hne : t ≠ []) :
    (∃ p, parseParameter kind t = .ok p) ↔ IsNamed t := by
  obtain ⟨before, c, rfl⟩ := exists_concat_of_ne_nil hne
  have hc : isBlank c = false := by
    have hfinish := htrimmed.finish
    rwa [List.reverse_append] at hfinish
  have hmarkers : withoutMarkers (before ++ [c]) = .ok (before ++ [c]) := by
    refine withoutMarkers_eq_self htrimmed (stopsAt_of_forall fun d hd => ?_)
    exact beq_eq_false_iff_ne.2 (h.ne_of_mem (by decide +kernel) (by decide) (by decide) d hd)
  have hdefaults : cutDefaults (before ++ [c]) = (before ++ [c], .null) := by
    have hequals : Levelled ['='] (before ++ [c]) :=
      h.kept.levelled (h.ne_of_mem (by decide +kernel) (by decide) (by decide))
    have hcolon : Levelled [':'] (before ++ [c]) :=
      h.kept.levelled (h.ne_of_mem (by decide +kernel) (by decide) (by decide))
    exact cutDefaults_of_level hequals hcolon htrimmed hne
  have hlast : (∃ d ∈ (before ++ [c]).getLast?, isWordChar d = true) ↔ isWordChar c = true := by
    simp
  rw [parseParameter_eq hmarkers hdefaults, declaredParameter, IsNamed, hlast]
  -- either all words are modifiers, or the last character is still the last one without them
  rcases join_dropWhile_words hc parameterModifiers.contains before with
    ⟨hall, hnil⟩ | ⟨⟨w, hw, hwords⟩, rest, hrest⟩
  · rw [hnil]
    refine ⟨fun hread => ?_, fun hnamed => ?_⟩
    · obtain ⟨p, hp⟩ := hread
      cases hp
    · obtain ⟨w, hw, hmem⟩ := hnamed.2
      exact absurd (List.contains_iff_mem.1 (hall w hw)) hmem
  · rw [hrest]
    have hword : ∃ w ∈ words (before ++ [c]), w ∉ parameterModifiers :=
      ⟨w, hw, fun hmem => by
        rw [List.contains_iff_mem.2 hmem] at hwords
        cases hwords⟩
    cases hsplit : splitLastWord? (rest ++ [c]) with
    | none =>
        have hfalse := (splitLastWord?_concat hc rest).1 hsplit
        simp [hfalse]
    | some found =>
        have htrue : isWordChar c = true := by
          by_contra hnot
          rw [(splitLastWord?_concat hc rest).2 (by simpa using hnot)] at hsplit
          cases hsplit
        exact ⟨fun _ => ⟨htrue, hword⟩, fun _ => ⟨_, rfl⟩⟩

/-! ## Lists -/

/-- What stands between two commas of a list: a text with white space around it. There may be white
space only, which is passed over. -/
structure Item where
  before : Gap := Gap.none
  text : Text
  after : Gap := Gap.none
  trimmed : Trimmed text
  bracketed : Bracketed false text

namespace Item

/-- The text with its white space. -/
def spread (i : Item) : Text :=
  i.before.text ++ (i.text ++ i.after.text)

theorem trim_spread (i : Item) : trim i.spread = i.text :=
  trim_between i.before.blank i.trimmed i.after.blank

theorem bracketed_spread (i : Item) : Bracketed false i.spread :=
  (Bracketed.gap i.before).append (i.bracketed.append (Bracketed.gap i.after))

end Item

/-- The items with commas between them. -/
def listText (items : List Item) : Text :=
  join [','] (items.map Item.spread)

theorem bracketed_listText (items : List Item) : Bracketed true (listText items) := by
  induction items with
  | nil => exact .nil
  | cons i rest ih =>
      rw [listText, List.map_cons]
      cases rest with
      | nil =>
          rw [List.map_nil, join_singleton]
          exact i.bracketed_spread.allow
      | cons next rest =>
          rw [List.map_cons, join_cons_cons]
          have hcomma : Bracketed true (',' :: listText (next :: rest)) :=
            .char (by decide +kernel) (fun _ => rfl) ih
          exact i.bracketed_spread.allow.append hcomma

/-- A list is cut into the texts of its items. -/
theorem splitTopLevel_listText (items : List Item) :
    splitTopLevel [','] (listText items) = (items.map Item.text).filter fun t => !t.isEmpty := by
  have hpassed : ∀ t ∈ items.map Item.spread, Passed [','] t := by
    intro t ht
    obtain ⟨i, -, rfl⟩ := List.mem_map.1 ht
    exact i.bracketed_spread.level.passed
  have htrim : (items.map Item.spread).map trim = items.map Item.text := by
    rw [List.map_map]
    exact List.map_congr_left fun i _ => i.trim_spread
  rw [listText, splitTopLevel_join hpassed, trimmedParts, htrim]

/-- A list is read exactly when everything in it is. -/
theorem mapM_isRead_iff {α β : Type} {read : α → Except Fault β} {items : List α} :
    (∃ results, items.mapM read = .ok results) ↔ ∀ x ∈ items, ∃ y, read x = .ok y := by
  induction items with
  | nil => exact ⟨fun _ => by simp, fun _ => ⟨[], rfl⟩⟩
  | cons x rest ih =>
      rw [List.mapM_cons, List.forall_mem_cons, ← ih]
      cases hx : read x with
      | error e =>
          constructor
          · rintro ⟨results, h⟩
            cases h
          · rintro ⟨⟨y, h⟩, -⟩
            cases h
      | ok y =>
          cases hrest : rest.mapM read with
          | error e =>
              constructor
              · rintro ⟨results, h⟩
                cases h
              · rintro ⟨-, results, h⟩
                cases h
          | ok results => exact ⟨fun _ => ⟨⟨y, rfl⟩, results, rfl⟩, fun _ => ⟨y :: results, rfl⟩⟩

/-! ## Parameter lists -/

/-- What a part of a parameter list holds: itself, or the parameters of a group in its brackets. -/
inductive Holds : Text → List Text → Prop
  | one {t : Text} : StopsAt (· == '[') t → StopsAt (· == '\x7b') t → Holds t [t]
  | group {opener closer : CodePoint} {items : List Item} : closerOf? opener = some closer →
    opener ≠ '(' → Holds (opener :: (listText items ++ [closer])) (items.map Item.text)

/-- A part of a parameter list with the parameters that it holds. -/
structure ListPart extends Item where
  parameters : List Text
  holds : Holds text parameters

/-- The parameters in a list that is cut into texts are read one by one. -/
theorem mapM_parseParameter_isRead_iff (kind : ParameterKind) (items : List Item) :
    (∃ ps, ((items.map Item.text).filter fun t => !t.isEmpty).mapM (parseParameter kind) = .ok ps)
      ↔ ∀ t ∈ items.map Item.text, t ≠ [] → IsNamed t := by
  rw [mapM_isRead_iff]
  simp only [List.mem_filter, Bool.not_eq_true', List.isEmpty_eq_false_iff, and_imp]
  refine forall_congr' fun t => forall_congr' fun ht => forall_congr' fun hne => ?_
  obtain ⟨i, -, rfl⟩ := List.mem_map.1 ht
  exact parseParameter_isRead_iff kind i.bracketed i.trimmed hne

/-- What is made of a result is there exactly when the result is. -/
theorem map_isRead_iff {α β : Type} {read : Except Fault α} {use : α → β} :
    (∃ y, read.map use = .ok y) ↔ ∃ x, read = .ok x := by
  cases read with
  | error e =>
      constructor
      · rintro ⟨y, h⟩
        cases h
      · rintro ⟨x, h⟩
        cases h
  | ok x => exact ⟨fun _ => ⟨x, rfl⟩, fun _ => ⟨use x, rfl⟩⟩

/-- A part is read exactly when the parameters that it holds are named. -/
theorem Holds.isRead_iff {t : Text} {parameters : List Text} (h : Holds t parameters)
    (hbracketed : Bracketed false t) (htrimmed : Trimmed t) (hne : t ≠ []) :
    (∃ ps, parsePart t = .ok ps) ↔ ∀ u ∈ parameters, u ≠ [] → IsNamed u := by
  cases h with
  | one hbracket hbrace =>
      rw [parsePart_eq_parseParameter hne hbracket hbrace, map_isRead_iff,
        parseParameter_isRead_iff .positional hbracketed htrimmed hne, List.forall_mem_singleton]
      exact ⟨fun hnamed _ => hnamed, fun hnamed => hnamed hne⟩
  | @group opener closer items hcloser hparen =>
      have hsplit := splitGroup_group hcloser (bracketed_listText items).balanced 0 []
      rcases closerOf?_eq_some hcloser with ⟨rfl, -⟩ | ⟨rfl, -⟩ | ⟨rfl, -⟩
      · exact absurd rfl hparen
      · rw [← mapM_parseParameter_isRead_iff .named, parsePart]
        simp only [hsplit, bind, Except.bind, splitTopLevel_listText]
      · rw [← mapM_parseParameter_isRead_iff .optional, parsePart]
        simp only [hsplit, bind, Except.bind, splitTopLevel_listText]

/-- White space holds no parameter. -/
theorem Holds.eq_nil {parameters : List Text} (h : Holds [] parameters) {t : Text}
    (ht : t ∈ parameters) : t = [] := by
  cases h with
  | one => exact List.mem_singleton.1 ht

/-- The text of a parameter list. -/
def parameterList (parts : List ListPart) : Text :=
  listText (parts.map ListPart.toItem)

theorem bracketed_parameterList (parts : List ListPart) : Bracketed true (parameterList parts) :=
  bracketed_listText _

/-- A parameter list is read exactly when every parameter in it is named, in whatever group it is.
-/
theorem parseParameters_isRead_iff (parts : List ListPart) :
    (∃ ps, parseParameters (parameterList parts) = .ok ps)
      ↔ ∀ p ∈ parts, ∀ t ∈ p.parameters, t ≠ [] → IsNamed t := by
  rw [parseParameters, map_isRead_iff, parameterList, splitTopLevel_listText, mapM_isRead_iff]
  simp only [List.mem_filter, List.map_map, List.mem_map, Function.comp_apply, Bool.not_eq_true',
    List.isEmpty_eq_false_iff, and_imp, forall_exists_index]
  constructor
  · intro hread p hp
    -- a part of white space only is not read, and it holds nothing
    by_cases hnil : p.text = []
    · intro t ht hne
      exact absurd ((hnil ▸ p.holds).eq_nil ht) hne
    · exact (p.holds.isRead_iff p.bracketed p.trimmed hnil).1 (hread p.text p hp rfl hnil)
  · rintro hnamed _ p hp rfl hne
    exact (p.holds.isRead_iff p.bracketed p.trimmed hne).2 (hnamed p hp)

end DartDecoders
