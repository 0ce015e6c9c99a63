/-
Annotations in a text whose at signs are known.

Three walks look for at signs: one over the whole source for the generator's annotation, one over
what follows it and one over the start of every member and parameter for other annotations. A text
without at signs is passed over by the first (`Unmarked`) and left alone by the others, and so is
one annotation without arguments at the start of a member. The two arguments of the generator's
annotation are read back from their texts (`argumentEntries_envelopeText`).
-/
import DartDecoders.Proofs.Runs
import DartDecoders.Proofs.Uncommented
import DartDecoders.Source.Marker

set_option autoImplicit false

namespace DartDecoders

namespace Source

open Text

/-! ## Members without annotations -/

theorem markerTail?_eq_none {t : Text} (h : StopsAt (· == '@') t) : markerTail? t = none := by
  unfold markerTail?
  split
  · cases h
  · rfl

/-- Where no annotation starts, a member is only trimmed. -/
theorem withoutMarkers_of_eq_none {t : Text} (h : markerTail? (trim t) = none) :
    withoutMarkers t = .ok (trim t) := by
  rw [withoutMarkers]
  split
  · rfl
  · next behind hbehind =>
      rw [h] at hbehind
      cases hbehind

/-- Where an annotation starts, what is behind its arguments is left. -/
theorem withoutMarkers_of_eq_some {t behind after : Text} (h : markerTail? (trim t) = some behind)
    (hafter : behindArguments (trim t).length behind = .ok after) :
    withoutMarkers t = withoutMarkers after := by
  rw [withoutMarkers]
  split
  · next hnone =>
      rw [h] at hnone
      cases hnone
  · next found hfound =>
      rw [h] at hfound
      cases hfound
      split
      · next e he =>
          rw [hafter] at he
          cases he
      · next rest hrest =>
          rw [hafter] at hrest
          cases hrest
          rfl

/-- A member that starts with no annotation is left as it is, without the white space before it. -/
theorem withoutMarkers_gap {gap t : Text} (hgap : ∀ c ∈ gap, isBlank c = true) (htrim : Trimmed t)
    (h : StopsAt (· == '@') t) : withoutMarkers (gap ++ t) = .ok t := by
  have htrimmed := trim_gap_append hgap htrim
  have hnone : markerTail? (trim (gap ++ t)) = none := by
    rw [htrimmed]
    exact markerTail?_eq_none h
  rw [withoutMarkers_of_eq_none hnone, htrimmed]

theorem withoutMarkers_eq_self {t : Text} (htrim : Trimmed t) (h : StopsAt (· == '@') t) :
    withoutMarkers t = .ok t := by
  have hnil : ∀ c ∈ ([] : Text), isBlank c = true := by simp
  exact withoutMarkers_gap hnil htrim h

/-- An annotation without arguments is taken off the start of a member. -/
theorem withoutMarkers_marker {name gap t : Text} (hne : name ≠ [])
    (hname : ∀ c ∈ name, isMarkerChar c = true) (hgap : ∀ c ∈ gap, isBlank c = true)
    (hgapStop : StopsAt isMarkerChar gap) (hgapne : gap ≠ []) (htne : t ≠ []) (htrim : Trimmed t)
    (hmarker : StopsAt (· == '@') t) (hparen : StopsAt (· == '(') t) :
    withoutMarkers ('@' :: (name ++ (gap ++ t))) = .ok t := by
  have hstop : StopsAt isMarkerChar (gap ++ t) := stopsAt_append_of_ne_nil hgapne hgapStop t
  have hwhole :
      trim (.ofChar '@' :: (name ++ (gap ++ t))) = .ofChar '@' :: (name ++ (gap ++ t)) := by
    have hsign : Trimmed ['@'] := ⟨rfl, rfl⟩
    have haround := hsign.around htrim (by simp) htne (name ++ gap)
    rw [List.append_assoc] at haround
    exact haround.trim_eq
  have htail : markerTail? ('@' :: (name ++ (gap ++ t))) = some (gap ++ t) := by
    rw [markerTail?, takeWhile_append_of_stopsAt hname hstop,
      dropWhile_append_of_stopsAt hname hstop, if_neg (by simpa using hne)]
  -- the annotation has no arguments: what follows the white space behind it is no parenthesis
  have hbehind : behindArguments (trim ('@' :: (name ++ (gap ++ t)))).length (gap ++ t)
      = .ok (gap ++ t) := by
    unfold behindArguments
    rw [trimStart_append hgap htrim.start]
    split
    · cases hparen
    · rfl
  rw [← hwhole] at htail
  rw [withoutMarkers_of_eq_some htail hbehind]
  exact withoutMarkers_gap hgap htrim hmarker

/-- A declaration that starts with no annotation is found behind the white space before it. -/
theorem skipMarkers_gap {gap t : Text} (hgap : ∀ c ∈ gap, isBlank c = true)
    (hblank : StopsAt isBlank t) (h : StopsAt (· == '@') t) (total : Nat) :
    skipMarkers total (gap ++ t) = .ok t := by
  have htrim : trimStart (gap ++ t) = t := trimStart_append hgap hblank
  rw [skipMarkers]
  split
  · rw [htrim]
  · next behind hbehind =>
      rw [htrim, markerTail?_eq_none h] at hbehind
      cases hbehind

/-! ## The generator's annotation -/

theorem markerAt?_eq_none {c : CodePoint} (hc : c ≠ '@') (t : Text) :
    markerAt? (c :: t) = none := by
  have hprefix : markerName.isPrefixOf (c :: t) = false := by
    rw [show markerName = .ofChar '@' :: "JsonToModel".toText from rfl, List.isPrefixOf_cons_cons,
      beq_eq_false_iff_ne.2 (Ne.symm hc), Bool.false_and]
  rw [markerAt?, dropStart?, hprefix]
  rfl

/-- The generator's annotation does not stand in the text, nor does it start there. -/
def Unmarked (t : Text) : Prop :=
  ∀ rest : Text, markerSites (t ++ rest) = markerSites rest

theorem Unmarked.append {t u : Text} (ht : Unmarked t) (hu : Unmarked u) : Unmarked (t ++ u) := by
  intro rest
  rw [List.append_assoc, ht, hu]

theorem Unmarked.of_forall {t : Text} (h : ∀ c ∈ t, c ≠ '@') : Unmarked t := by
  intro rest
  induction t with
  | nil => rfl
  | cons c t ih =>
      rw [List.cons_append, markerSites, markerAt?_eq_none (h c List.mem_cons_self)]
      exact ih fun d hd => h d (List.mem_cons_of_mem c hd)

/-- Another annotation in front of a text. -/
theorem Unmarked.marker {c : CodePoint} {t : Text} (hc : c ≠ 'J') (h : Unmarked (c :: t)) :
    Unmarked ('@' :: c :: t) := by
  intro rest
  have hprefix : markerName.isPrefixOf ('@' :: c :: (t ++ rest)) = false := by
    rw [show markerName = .ofChar '@' :: .ofChar 'J' :: "sonToModel".toText from rfl,
      List.isPrefixOf_cons_cons, List.isPrefixOf_cons_cons, beq_eq_false_iff_ne.2 (Ne.symm hc),
      Bool.false_and, Bool.and_false]
  rw [List.cons_append, List.cons_append, markerSites, markerAt?, dropStart?, hprefix]
  exact h rest

/-- The generator's annotation with its arguments is one site. -/
theorem markerSites_marker (inside : Text) :
    markerSites (markerName ++ .ofChar '(' :: inside)
      = (.ofChar '(' :: inside) :: markerSites inside := by
  have hsite : markerAt? (markerName ++ .ofChar '(' :: inside) = some (.ofChar '(' :: inside) := by
    rw [markerAt?, dropStart?, List.isPrefixOf_iff_prefix.2 (List.prefix_append _ _)]
    simp only [if_true]
    rw [List.drop_left, trimStart_eq_self (show StopsAt isBlank ('(' :: inside) from rfl)]
    rfl
  -- the search goes on right behind the sign, so it passes over the rest of the name
  have hname : Unmarked ("JsonToModel".toText ++ [.ofChar '(']) := Unmarked.of_forall (by decide)
  have hrest := hname inside
  rw [show markerName ++ .ofChar '(' :: inside
      = .ofChar '@' :: ("JsonToModel".toText ++ .ofChar '(' :: inside) from rfl]
    at hsite ⊢
  rw [markerSites, hsite]
  simpa using hrest

/-! ## Arguments -/

/-- The text of an argument's value. -/
def valueText : Option Text → Text
  | some value => '\'' :: (value ++ [.ofChar '\''])
  | none => "null".toText

/-- An argument with its name. -/
def argumentText (name : Text) (value : Option Text) : Text :=
  name ++ .ofChar ':' :: .ofChar ' ' :: valueText value

/-- The arguments of the generator's annotation as they are written. -/
def envelopeText (wrapper factory : Option Text) : Text :=
  argumentText "wrapperType".toText wrapper
    ++ .ofChar ',' :: .ofChar ' ' :: argumentText "wrapperFromJson".toText factory

/-- A quoted text ends at its quote, unless that stands in it or a backslash does. -/
theorem quotedArgument?_append {quote : CodePoint} (hquote : isQuote quote = true) {value : Text}
    (h : ∀ c ∈ value, c ≠ quote ∧ c ≠ '\\') (rest : Text) :
    quotedArgument? quote (value ++ quote :: rest) = some (value, rest) := by
  have hend : quote ≠ '\\' := by
    rintro rfl
    cases hquote
  induction value with
  | nil =>
      rw [List.nil_append]
      unfold quotedArgument?
      split
      · next heq => cases heq
      · next heq => exact absurd (List.cons.inj heq).1 hend
      · next heq => exact absurd (List.cons.inj heq).1 hend
      · next heq =>
          obtain ⟨rfl, rfl⟩ := List.cons.inj heq
          rw [if_pos (beq_self_eq_true _)]
  | cons c value ih =>
      obtain ⟨hother, hslash⟩ := h c List.mem_cons_self
      rw [List.cons_append]
      unfold quotedArgument?
      split
      · next heq => cases heq
      · next heq => exact absurd (List.cons.inj heq).1 hslash
      · next heq => exact absurd (List.cons.inj heq).1 hslash
      · next heq =>
          obtain ⟨rfl, rfl⟩ := List.cons.inj heq
          simp only [beq_iff_eq, hother, if_false]
          rw [ih fun d hd => h d (List.mem_cons_of_mem _ hd)]
          rfl

/-- A value in quotes is read as it is written. -/
theorem argumentValue?_quoted {quote : CodePoint} (hquote : isQuote quote = true) {value : Text}
    (h : ∀ c ∈ value, c ≠ quote ∧ c ≠ '\\') (rest : Text) :
    argumentValue? (quote :: (value ++ quote :: rest)) = some (some value, rest) := by
  have hquoted := quotedArgument?_append hquote h rest
  simp only [isQuote, Bool.or_eq_true, beq_iff_eq] at hquote
  rcases hquote with rfl | rfl
  · rw [argumentValue?, hquoted]
    rfl
  · rw [argumentValue?, hquoted]
    rfl

/-- An argument is read with any white space around its colon. -/
theorem argument?_append {name gap gap' rest after : Text} {value : Option Text} (hne : name ≠ [])
    (hname : ∀ c ∈ name, isWordChar c = true) (hgap : ∀ c ∈ gap, isBlank c = true)
    (hgap' : ∀ c ∈ gap', isBlank c = true) (hrest : StopsAt isBlank rest)
    (hvalue : argumentValue? rest = some (value, after)) :
    argument? (name ++ (gap ++ .ofChar ':' :: (gap' ++ rest))) = some (name, value, after) := by
  have hstop : StopsAt isWordChar (gap ++ .ofChar ':' :: (gap' ++ rest)) := by
    cases gap with
    | nil =>
        show isWordChar ':' = false
        decide
    | cons c gap => exact isWordChar_of_isBlank (hgap c List.mem_cons_self)
  have hcolon :
      trimStart (gap ++ .ofChar ':' :: (gap' ++ rest)) = .ofChar ':' :: (gap' ++ rest) := by
    have hvisible : StopsAt isBlank (':' :: (gap' ++ rest)) := rfl
    exact trimStart_append hgap hvisible
  obtain ⟨c, others, rfl⟩ := List.exists_cons_of_ne_nil hne
  rw [argument?, takeWhile_append_of_stopsAt hname hstop, dropWhile_append_of_stopsAt hname hstop,
    hcolon]
  simp only
  rw [trimStart_append hgap' hrest, hvalue]
  rfl

/-- An argument with its name is read. -/
theorem argument?_argumentText {name : Text} (hne : name ≠ [])
    (hname : ∀ c ∈ name, isWordChar c = true) {value : Option Text}
    (h : ∀ v ∈ value, ∀ c ∈ v, isPlainChar c = true) (rest : Text) :
    argument? (argumentText name value ++ rest) = some (name, value, rest) := by
  have hvalue : argumentValue? (valueText value ++ rest) = some (value, rest) := by
    cases value with
    | none => rfl
    | some v =>
        have hplain : ∀ c ∈ v, c ≠ '\'' ∧ c ≠ '\\' := fun c hc =>
          let hc := isPlainChar_iff.1 (h v rfl c hc)
          ⟨hc.1, hc.2.1⟩
        rw [valueText, List.cons_append, List.append_assoc, List.singleton_append]
        exact argumentValue?_quoted rfl hplain rest
  have hstop : StopsAt isBlank (valueText value ++ rest) := by cases value <;> rfl
  have hnone : ∀ c ∈ ([] : Text), isBlank c = true := by simp
  have hspace : ∀ c ∈ ([' '] : Text), isBlank c = true := by decide
  have htext : argumentText name value ++ rest
      = name ++ ([] ++ .ofChar ':' :: ([.ofChar ' '] ++ (valueText value ++ rest))) := by
    simp [argumentText]
  rw [htext]
  exact argument?_append hne hname hnone hspace hstop hvalue

theorem argumentsIn_of_argument? {t after name : Text} {value : Option Text} (hne : t ≠ [])
    (h : argument? t = some (name, value, after)) :
    argumentsIn t = (name, value) :: argumentsIn after := by
  obtain ⟨c, rest, rfl⟩ := List.exists_cons_of_ne_nil hne
  rw [argumentsIn]
  split
  · next heq =>
      rw [h] at heq
      cases heq
      rfl
  · next heq =>
      rw [h] at heq
      cases heq

theorem argumentsIn_cons {c : CodePoint} (hc : isWordChar c = false) (t : Text) :
    argumentsIn (c :: t) = argumentsIn t := by
  have hnone : argument? (c :: t) = none := by
    rw [argument?, List.takeWhile_cons_of_neg (by simp [hc])]
  rw [argumentsIn]
  split
  · next heq =>
      rw [hnone] at heq
      cases heq
  · rfl

/-- The arguments of an envelope are read back. -/
theorem argumentEntries_envelopeText {wrapper factory : Option Text}
    (hwrapper : ∀ v ∈ wrapper, ∀ c ∈ v, isPlainChar c = true)
    (hfactory : ∀ v ∈ factory, ∀ c ∈ v, isPlainChar c = true) :
    argumentEntries (envelopeText wrapper factory)
      = [("wrapperType".toText, wrapper.elim .null Json.str),
        ("wrapperFromJson".toText, factory.elim .null Json.str)] := by
  have hwrapperName : ∀ c ∈ "wrapperType".toText, isWordChar c = true := by decide
  have hfactoryName : ∀ c ∈ "wrapperFromJson".toText, isWordChar c = true := by decide
  have hfirst := argument?_argumentText (by decide) hwrapperName hwrapper
    (',' :: ' ' :: argumentText "wrapperFromJson".toText factory)
  have hsecond := argument?_argumentText (by decide) hfactoryName hfactory []
  rw [List.append_nil] at hsecond
  have hne : ∀ (name : Text) (value : Option Text) (rest : Text),
      argumentText name value ++ rest ≠ [] := by simp [argumentText]
  have hlast : argumentText "wrapperFromJson".toText factory ≠ [] := by simp [argumentText]
  -- between the two arguments there are a comma and a space, at which none starts
  have harguments : argumentsIn (envelopeText wrapper factory)
      = [("wrapperType".toText, wrapper), ("wrapperFromJson".toText, factory)] := by
    rw [envelopeText, argumentsIn_of_argument? (hne _ _ _) hfirst, argumentsIn_cons (by decide),
      argumentsIn_cons (by decide), argumentsIn_of_argument? hlast hsecond, argumentsIn]
  rw [argumentEntries, harguments]
  rfl

end Source

end DartDecoders
