/-
Annotations that stand in literals and comments.

The search for the generator's annotation goes over a text that still has its literals. When the
name of the annotation stands in literals and comments only (`MarkersHidden`), a comment leaves
nothing that the search could find, and neither does a character between the two: the name would
have to start there already in the text with its comments, since no character of it is left behind
by a comment (`prefix_of_prefix_stripComments`). A literal ends with a quote, which no annotation
goes beyond, so each literal gives the sites that it has on its own, whatever follows it
(`markerSites_quoted`). Hence a scan finds the annotations that are complete inside a literal and no
others (`scan_markersHidden`).
-/
import DartDecoders.Proofs.Annotations
import DartDecoders.Proofs.CommentContents
import DartDecoders.Proofs.Faults
import DartDecoders.Proofs.Nesting

set_option autoImplicit false

namespace DartDecoders

namespace Text

/-- A character that a pattern does not have ends a search at the start of a text. -/
theorem prefix_append_cons_iff {pattern t rest : Text} {d : CodePoint} (hd : d ∉ pattern) :
    pattern <+: t ++ d :: rest ↔ pattern <+: t := by
  constructor
  · intro h
    rcases List.prefix_or_prefix_of_prefix h (List.prefix_append t (d :: rest)) with hshort | hlong
    · exact hshort
    -- a pattern that goes beyond the text has the character
    · obtain ⟨others, rfl⟩ := hlong
      have hothers := (List.prefix_append_right_inj t).1 h
      cases others with
      | nil => simp
      | cons c others =>
          rw [List.cons_prefix_cons] at hothers
          exact absurd (by simp [hothers.1]) hd
  · exact fun h => h.trans (List.prefix_append t _)

end Text

namespace Source

open Text

/-! ## Hidden annotations -/

/-- What is no code: a literal or a comment. -/
def Token.isHidden : Token → Bool
  | .char _ => false
  | _ => true

/-- So many characters from an offset on stand in one literal or in one comment. -/
def Hidden (width : Nat) : List Token → Nat → Prop
  | [], _ => False
  | token :: rest, offset =>
    if offset < token.text.length then
      token.isHidden = true ∧ offset + width ≤ token.text.length
    else Hidden width rest (offset - token.text.length)

instance decidableHidden (width : Nat) :
    (ts : List Token) → (offset : Nat) → Decidable (Hidden width ts offset)
  | [], _ => inferInstanceAs (Decidable False)
  | token :: rest, offset =>
    have := decidableHidden width rest (offset - token.text.length)
    inferInstanceAs (Decidable (if offset < token.text.length then
      token.isHidden = true ∧ offset + width ≤ token.text.length
      else Hidden width rest (offset - token.text.length)))

/-- Wherever the name of the generator's annotation stands in the text, it stands in a literal or
in a comment. -/
def MarkersHidden (t : Text) : Prop :=
  ∀ offset < t.length, markerName <+: t.drop offset → Hidden markerName.length (tokens t) offset

instance (t : Text) : Decidable (MarkersHidden t) :=
  inferInstanceAs (Decidable (∀ offset < t.length, _))

/-- The literals among the tokens. -/
def literalsOf : List Token → List Text
  | [] => []
  | .literal s :: rest => s :: literalsOf rest
  | _ :: rest => literalsOf rest

/-- The sites of the annotation that are complete inside a literal. -/
def sitesInLiterals (t : Text) : List Text :=
  (literalsOf (tokens t)).flatMap markerSites

namespace Cut

variable {t after : Text} {token : Token}

theorem text_ne_nil (h : Cut t token after) : token.text ≠ [] := by
  intro hnil
  have hshorter := h.length_lt
  rw [h.length_eq, hnil, List.length_nil, Nat.zero_add] at hshorter
  exact Nat.lt_irrefl _ hshorter

/-- What a step leaves has its annotations hidden, too. -/
theorem markersHidden (h : Cut t token after) (ht : MarkersHidden t) : MarkersHidden after := by
  intro offset hoffset hname
  have hbound : token.text.length + offset < t.length := by
    rw [h.length_eq]
    omega
  have hhidden := ht _ hbound (by rwa [h.drop_add])
  rw [h.tokens_eq, Hidden, if_neg (by omega), Nat.add_sub_cancel_left] at hhidden
  exact hhidden

/-- The annotation does not start with a character between literals and comments. -/
theorem not_startsMarker {c : CodePoint} (h : Cut t (.char c) after) (ht : MarkersHidden t) :
    ¬ markerName <+: t := by
  intro hname
  have hhidden := ht 0 (Nat.zero_lt_of_lt h.length_lt) hname
  rw [h.tokens_eq, Hidden, if_pos (by simp [Token.text])] at hhidden
  cases hhidden.1

theorem stripComments_eq (h : Cut t token after) :
    stripComments t = token.residue ++ stripComments after := by
  rw [stripComments, h.tokens_eq, List.flatMap_cons]
  rfl

end Cut

/-! ## Comments and characters -/

/-- A comment leaves a space or line breaks. -/
theorem mem_commentResidue {comment : Text} {c : CodePoint} (h : c ∈ commentResidue comment) :
    c = ' ' ∨ c = '\n' := by
  unfold commentResidue at h
  split at h
  · exact .inl (List.mem_singleton.1 h)
  · exact .inr (List.mem_replicate.1 h).2

theorem commentResidue_ne_nil (comment : Text) : commentResidue comment ≠ [] := by
  unfold commentResidue
  split
  · simp
  · simp

/-- What holds of both quotes holds of every quote. -/
theorem forall_isQuote {p : CodePoint → Prop} (hsingle : p '\'') (hdouble : p '"') {c : CodePoint}
    (h : isQuote c = true) : p c := by
  rw [isQuote, Bool.or_eq_true, beq_iff_eq, beq_iff_eq] at h
  rcases h with rfl | rfl
  · exact hsingle
  · exact hdouble

theorem isWordChar_of_isQuote {c : CodePoint} (h : isQuote c = true) : isWordChar c = false :=
  forall_isQuote (p := fun c => isWordChar c = false) (by decide) (by decide) h

/-- What a literal or a comment leaves starts with a quote or with white space. -/
theorem Cut.stopsAt_residue {t after : Text} {token : Token} (h : Cut t token after)
    (hhidden : token.isHidden = true) (rest : Text) :
    StopsAt isWordChar (token.residue ++ rest) ∧ token.residue ++ rest ≠ [] := by
  have hne := h.text_ne_nil
  cases h with
  | @literal quote t after s hquote _ hs =>
      obtain ⟨c, others, rfl⟩ := List.exists_cons_of_ne_nil (show s ≠ [] from hne)
      obtain ⟨rfl, -⟩ := List.cons.inj hs
      exact ⟨isWordChar_of_isQuote hquote, List.cons_ne_nil _ _⟩
  | @comment t after s _ _ _ =>
      obtain ⟨c, others, hresidue⟩ := List.exists_cons_of_ne_nil (commentResidue_ne_nil s)
      have hmem : c ∈ commentResidue s := by simp [hresidue]
      have hc := mem_commentResidue hmem
      rw [Token.residue, hresidue]
      refine ⟨?_, List.cons_ne_nil _ _⟩
      rcases hc with rfl | rfl
      · show isWordChar ' ' = false
        decide
      · show isWordChar '\n' = false
        decide
  | char => cases hhidden

/-- Word characters at the start of a text without its comments stand at the start of the text. -/
theorem prefix_of_prefix_stripComments {w t : Text} (hw : ∀ c ∈ w, isWordChar c = true)
    (h : w <+: stripComments t) : w <+: t := by
  induction w generalizing t with
  | nil => exact List.nil_prefix
  | cons d w ih =>
      obtain ⟨hd, hothers⟩ := List.forall_mem_cons.1 hw
      cases t with
      | nil =>
          rw [stripComments, tokens] at h
          cases List.prefix_nil.1 h
      | cons c t =>
          obtain ⟨token, after, hcut⟩ := exists_cut c t
          rw [hcut.stripComments_eq] at h
          -- only a character is left as it is, all else starts with a quote or white space
          cases hhidden : token.isHidden with
          | true =>
              obtain ⟨hstop, hne⟩ := hcut.stopsAt_residue hhidden (stripComments after)
              obtain ⟨e, others, hleft⟩ := List.exists_cons_of_ne_nil hne
              rw [hleft] at h hstop
              rw [(List.cons_prefix_cons.1 h).1, show isWordChar e = false from hstop] at hd
              cases hd
          | false =>
              cases hcut with
              | literal => cases hhidden
              | comment => cases hhidden
              | char =>
                  obtain ⟨rfl, hafter⟩ := List.cons_prefix_cons.1 h
                  exact List.cons_prefix_cons.2 ⟨rfl, ih hothers hafter⟩

theorem markerAt?_eq_none_of_start {t : Text} (h : ¬ markerName <+: t) : markerAt? t = none := by
  rw [markerAt?, dropStart?, if_neg fun hprefix => h (List.isPrefixOf_iff_prefix.1 hprefix)]

/-- Between literals and comments the search finds nothing. -/
theorem Cut.markerSites_char {c : CodePoint} {t after : Text} (h : Cut t (.char c) after)
    (ht : MarkersHidden t) :
    markerSites (c :: stripComments after) = markerSites (stripComments after) := by
  have hname : ¬ markerName <+: c :: stripComments after := by
    intro hname
    -- the name behind the sign is made of word characters, so it stands in the text itself
    obtain ⟨rfl, hothers⟩ := List.cons_prefix_cons.1
      (show .ofChar '@' :: "JsonToModel".toText <+: c :: stripComments after from hname)
    have hrest := prefix_of_prefix_stripComments (by decide) hothers
    refine h.not_startsMarker ht ?_
    rw [h.text_append]
    exact List.cons_prefix_cons.2 ⟨rfl, hrest⟩
  rw [markerSites, markerAt?_eq_none_of_start hname]

/-! ## Literals -/

/-- A closed literal ends with its quote. -/
theorem afterClosedSimple?_eq_some {quote : CodePoint} {t after : Text}
    (h : afterClosedSimple? quote t = some after) : ∃ inside, t = inside ++ quote :: after := by
  fun_induction afterClosedSimple? quote t with
  | case1 => cases h
  | case2 => cases h
  | case3 c rest ih =>
      obtain ⟨inside, hinside⟩ := ih h
      exact ⟨'\\' :: c :: inside, by rw [hinside]; rfl⟩
  | case4 c rest hnil hcons hquote =>
      cases h
      exact ⟨[], by rw [beq_iff_eq.1 hquote]; rfl⟩
  | case5 c rest => cases h
  | case6 c rest _ _ _ _ ih =>
      obtain ⟨inside, hinside⟩ := ih h
      exact ⟨c :: inside, by rw [hinside]; rfl⟩

theorem afterClosed?_eq_some {quote : CodePoint} {t after : Text}
    (h : afterClosed? quote t = some after) : ∃ inside, t = inside ++ quote :: after := by
  unfold afterClosed? at h
  split at h
  · split at h
    · next before found hfound =>
        cases h
        obtain ⟨inside, rfl⟩ := suffix_of_splitAfter? hfound
        refine ⟨t.take 2 ++ (inside ++ [quote, quote]), ?_⟩
        calc t = t.take 2 ++ t.drop 2 := (List.take_append_drop 2 t).symm
          _ = t.take 2 ++ (inside ++ [quote, quote, quote] ++ after) := by
            rw [append_of_splitAfter? hfound]
          _ = t.take 2 ++ (inside ++ [quote, quote]) ++ quote :: after := by simp
    · exact afterClosedSimple?_eq_some h
  · exact afterClosedSimple?_eq_some h

/-- A quote stands neither in the annotation's name nor between the name and the parenthesis. -/
theorem quote_not_mem_markerName {quote : CodePoint} (h : isQuote quote = true) :
    quote ∉ markerName ∧ isBlank quote = false ∧ quote ≠ '(' :=
  forall_isQuote (p := fun c => c ∉ markerName ∧ isBlank c = false ∧ c ≠ '(') (by decide)
    (by decide) h

/-- Behind the name of the annotation comes a site when the next visible character opens one. -/
theorem markerAt?_markerName (behind : Text) :
    markerAt? (markerName ++ behind)
      = if (trimStart behind).head? = some (.ofChar '(') then some (trimStart behind)
        else none := by
  rw [markerAt?, dropStart?, List.isPrefixOf_iff_prefix.2 (List.prefix_append _ _), if_pos rfl,
    List.drop_left]
  dsimp only
  cases trimStart behind with
  | nil => rfl
  | cons c others =>
      by_cases hc : c = '('
      · subst hc
        rfl
      · rw [if_neg (by simpa using hc)]
        split
        · next heq => exact absurd (List.cons.inj heq).1 hc
        · rfl

/-- The annotation does not go beyond a quote. -/
theorem markerAt?_append_cons {quote : CodePoint} (hquote : isQuote quote = true) (t rest : Text) :
    markerAt? (t ++ quote :: rest) = (markerAt? (t ++ [quote])).map (· ++ rest) := by
  obtain ⟨hmem, hblank, hopen⟩ := quote_not_mem_markerName hquote
  by_cases hname : markerName <+: t
  · obtain ⟨behind, rfl⟩ := hname
    rw [List.append_assoc, List.append_assoc, markerAt?_markerName, markerAt?_markerName,
      trimStart_append_cons hblank, trimStart_append_cons hblank]
    -- if nothing visible is left behind the name, the quote is next, and it opens no arguments
    cases trimStart behind with
    | nil => simp [hopen]
    | cons c others => by_cases hc : c = '(' <;> simp [hc]
  · have hlonger : ∀ others : Text, ¬ markerName <+: t ++ quote :: others := fun others h =>
      hname ((prefix_append_cons_iff hmem).1 h)
    rw [markerAt?_eq_none_of_start (hlonger rest), markerAt?_eq_none_of_start (hlonger [])]
    rfl

/-- A text that ends with a quote has its own sites, whatever follows it. -/
theorem markerSites_quoted {quote : CodePoint} (hquote : isQuote quote = true) (t rest : Text) :
    markerSites (t ++ quote :: rest)
      = (markerSites (t ++ [quote])).map (· ++ rest) ++ markerSites rest := by
  have hsign : quote ≠ '@' := by
    rintro rfl
    cases hquote
  induction t with
  | nil =>
      rw [List.nil_append, List.nil_append, markerSites, markerSites, markerAt?_eq_none hsign,
        markerAt?_eq_none hsign]
      rfl
  | cons c t ih =>
      have hfirst := markerAt?_append_cons hquote (c :: t) rest
      rw [List.cons_append, List.cons_append] at hfirst ⊢
      rw [markerSites, markerSites, hfirst, ih]
      cases markerAt? (c :: (t ++ [quote])) with
      | none => rfl
      | some site => rfl

/-- A literal ends with a quote. -/
theorem Cut.literal_ends {t after s : Text} (h : Cut t (.literal s) after) :
    ∃ quote inside, isQuote quote = true ∧ s = inside ++ [quote] := by
  cases h with
  | @literal quote t after s hquote hclosed hs =>
      obtain ⟨inside, rfl⟩ := afterClosed?_eq_some hclosed
      refine ⟨quote, quote :: inside, hquote, List.append_cancel_right (hs.symm.trans ?_)⟩
      simp

/-! ## Sources -/

/-- Where the annotation is hidden, the search finds it in the literals only. -/
theorem length_markerSites_stripComments {t : Text} (h : MarkersHidden t) :
    (markerSites (stripComments t)).length = (sitesInLiterals t).length := by
  match t with
  | [] =>
      rw [sitesInLiterals, stripComments, tokens]
      rfl
  | c :: t =>
      -- one token after the other is taken off, and what is left has its annotations hidden, too
      obtain ⟨token, after, hcut⟩ := exists_cut c t
      have hshorter := hcut.length_lt
      have hrest := length_markerSites_stripComments (hcut.markersHidden h)
      rw [sitesInLiterals] at hrest ⊢
      rw [hcut.stripComments_eq, hcut.tokens_eq]
      cases token with
      | literal s =>
          obtain ⟨quote, inside, hquote, rfl⟩ := hcut.literal_ends
          rw [Token.residue, List.append_assoc, List.singleton_append, markerSites_quoted hquote]
          simp [literalsOf, hrest]
      | comment s =>
          have hresidue : Unmarked (commentResidue s) := .of_forall fun d hd => by
            rcases mem_commentResidue hd with rfl | rfl
            · decide
            · decide
          rw [Token.residue, hresidue]
          exact hrest
      | char d =>
          rw [Token.residue, List.singleton_append, hcut.markerSites_char h]
          exact hrest
termination_by t.length
decreasing_by exact hshorter

/-- **Annotations in literals and comments.** Where the generator's annotation stands in literals
and comments only, a scan that returns gives one declaration for each that is complete inside a
literal. So it returns nothing, and does return, exactly when no literal holds such a one: what a
comment holds never matters. -/
theorem scan_markersHidden {t : Text} (h : MarkersHidden t) (sourceFile : Json) :
    (∀ found, (scan t sourceFile).result = .ok found →
        found.length = (sitesInLiterals t).length)
      ∧ ((scan t sourceFile).result = .ok []
        ↔ ∀ s ∈ literalsOf (tokens t), markerSites s = []) := by
  have hlength := length_markerSites_stripComments h
  rw [result_scan, declarations]
  constructor
  · intro found hfound
    rw [← hlength]
    exact (mapM_eq_ok_iff.1 hfound).length_eq.symm
  · rw [mapM_eq_ok_iff, List.forall₂_nil_right_iff, ← List.length_eq_zero_iff, hlength,
      List.length_eq_zero_iff, sitesInLiterals, List.flatMap_eq_nil_iff]

/-- A literal that names the annotation, and a comment that holds it. -/
def namingSource : Text :=
  "var s = 'see @JsonToModel'; // @JsonToModel()\n".toText

/-- Nothing is declared there. -/
theorem scan_markersHidden_naming :
    MarkersHidden namingSource ∧ (scan namingSource .null).result = .ok [] := by
  have hhidden : MarkersHidden namingSource := by decide +kernel
  have hliterals : ∀ s ∈ literalsOf (tokens namingSource), markerSites s = [] := by
    decide +kernel
  exact ⟨hhidden, (scan_markersHidden hhidden .null).2.2 hliterals⟩

/-- A literal that holds the annotation. -/
def hintSource : Text :=
  "const hint = 'use @JsonToModel() here';".toText

/-- There the rest of the literal is taken for a variable. -/
theorem scan_hint :
    MarkersHidden hintSource
      ∧ (scan hintSource .null).result = .ok [{
        name := .str "here'".toText
        kind := .str "variable".toText
        envelope := some .plain }] := by
  have hhidden : MarkersHidden hintSource := by decide +kernel
  have hplain : stripComments hintSource = hintSource := by decide +kernel
  have hsites : markerSites hintSource = ["() here';".toText] := by decide +kernel
  have hempty : Balanced [] := .of_forall (by simp) (by simp)
  have hgroup : splitGroup 30 "() here';".toText = .ok ([], " here';".toText) :=
    splitGroup_group closerOf?_parenthesis hempty 30 " here';".toText
  have hspace : ∀ c ∈ ([' '] : Text), isBlank c = true := by decide
  have hskip : skipMarkers 39 " here';".toText = .ok "here';".toText :=
    skipMarkers_gap (t := "here';".toText) hspace rfl rfl 39
  have harguments : argumentEntries [] = [] := by
    rw [argumentEntries, argumentsIn]
    rfl
  have htype : typeHead? "here';".toText = none := by decide +kernel
  have hfunction : functionName? true "here';".toText = none := by decide +kernel
  have hname : variableName "here';".toText = .ok "here'".toText := by rfl
  have hread : readDeclaration 39 "here';".toText (.ofArguments []) .null = .ok {
      name := .str "here'".toText
      kind := .str "variable".toText
      envelope := some .plain } := by
    rw [readDeclaration, htype, hfunction, hname]
    rfl
  refine ⟨hhidden, ?_⟩
  rw [result_scan, declarations, hplain, hsites, mapM_eq_ok_iff, List.forall₂_cons]
  refine ⟨(declarationAt_eq hgroup hskip .null).trans ?_, .nil⟩
  rw [harguments]
  exact hread

end Source

end DartDecoders
