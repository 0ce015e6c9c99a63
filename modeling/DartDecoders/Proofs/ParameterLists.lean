/-
Parameter lists.

A parameter list is written from the texts of its parameters and read back part by part. What that
asks of one parameter is said once (`Rereads`): reading its text gives the parameter, and in a list
its text is passed over, at its commas and between the brackets of a group. Then a list of such
parameters is read back as it was (`parseParameters_renderAll`): it is cut at the commas between
its parts, and each group inside its brackets at its own.
-/
import DartDecoders.Proofs.PlainParameter

set_option autoImplicit false

namespace DartDecoders

open Text TypeExpr Source

/-! ## Lists -/

/-- Reading the texts of some data one by one gives the data. -/
theorem mapM_map_eq_ok {α β γ : Type} {read : β → Except Fault γ} {write : α → β} {result : α → γ}
    {items : List α} (h : ∀ x ∈ items, read (write x) = .ok (result x)) :
    (items.map write).mapM read = .ok (items.map result) := by
  induction items with
  | nil => rfl
  | cons x rest ih =>
      rw [List.map_cons, List.mapM_cons, h x List.mem_cons_self,
        ih fun y hy => h y (List.mem_cons_of_mem x hy)]
      rfl

/-! ## Groups -/

theorem renderGroup_append (kind : ParameterKind) (ps qs : List Parameter) :
    Parameter.renderGroup kind (ps ++ qs)
      = Parameter.renderGroup kind ps ++ Parameter.renderGroup kind qs := by
  simp [Parameter.renderGroup]

/-- The parameters of a group are written in it and in no other. -/
theorem renderGroup_of_kind {own kind : ParameterKind} {ps : List Parameter}
    (h : ∀ p ∈ ps, p.kind = own) :
    Parameter.renderGroup kind ps = if own = kind then ps.map Parameter.render else [] := by
  rw [Parameter.renderGroup]
  split
  · next heq => rw [List.filter_eq_self.2 fun p hp => beq_iff_eq.2 ((h p hp).trans heq)]
  · next hne =>
      rw [List.filter_eq_nil_iff.2 fun p hp hkind => hne ((h p hp).symm.trans (beq_iff_eq.1 hkind))]
      rfl

/-- The parameters of a group in its brackets; nothing when the group is empty. -/
def bracketedGroup (opener closer : CodePoint) (ps : List Parameter) : List Text :=
  if ps.isEmpty then [] else [opener :: (join [',', ' '] (ps.map Parameter.render) ++ [closer])]

/-- A parameter list is made of the plain parameters and of the other groups in their brackets. -/
theorem renderAll_append {positional optional named : List Parameter}
    (hpositional : ∀ p ∈ positional, p.kind = .positional)
    (hoptional : ∀ p ∈ optional, p.kind = .optional) (hnamed : ∀ p ∈ named, p.kind = .named) :
    Parameter.renderAll (positional ++ (optional ++ named))
      = join [',', ' '] (positional.map Parameter.render
        ++ (bracketedGroup '[' ']' optional ++ bracketedGroup '\x7b' '\x7d' named)) := by
  have hgroup : ∀ kind : ParameterKind,
      Parameter.renderGroup kind (positional ++ (optional ++ named))
        = (if .positional = kind then positional.map Parameter.render else [])
          ++ ((if .optional = kind then optional.map Parameter.render else [])
            ++ (if .named = kind then named.map Parameter.render else [])) := by
    intro kind
    rw [renderGroup_append, renderGroup_append, renderGroup_of_kind hpositional,
      renderGroup_of_kind hoptional, renderGroup_of_kind hnamed]
  simp [Parameter.renderAll, hgroup, bracketedGroup]

theorem trimmed_group {opener closer : CodePoint} (hcloser : closerOf? opener = some closer)
    (inner : Text) : Trimmed (opener :: (inner ++ [closer])) := by
  have hchars : isBlank opener = false ∧ isBlank closer = false := by
    rcases closerOf?_eq_some hcloser with ⟨rfl, rfl⟩ | ⟨rfl, rfl⟩ | ⟨rfl, rfl⟩ <;>
      exact ⟨by decide, by decide⟩
  have hopener : Trimmed [opener] := ⟨hchars.1, hchars.1⟩
  have hcloser : Trimmed [closer] := ⟨hchars.2, hchars.2⟩
  exact hopener.around hcloser (by simp) (by simp) inner

/-! ## Parameters in a list -/

/-- Reading the text of the parameter gives the parameter, and in a list the text is one part. -/
structure Rereads (p : Parameter) : Prop where
  parse : parseParameter p.kind p.render = .ok p
  passed : Passed [','] p.render
  settled : Settled p.render
  trimmed : Trimmed p.render
  start : ∃ c rest, p.render = c :: rest ∧ isNameChar c = true

variable {ps : List Parameter}

theorem Rereads.ne_nil {p : Parameter} (h : Rereads p) : p.render ≠ [] := by
  obtain ⟨c, rest, hrender, -⟩ := h.start
  rw [hrender]
  exact List.cons_ne_nil c rest

/-- The text starts with a name, so it is not taken for a group. -/
theorem Rereads.parsePart_eq {p : Parameter} (h : Rereads p) (hkind : p.kind = .positional) :
    parsePart p.render = .ok [p] := by
  have hparse := h.parse
  obtain ⟨c, rest, hrender, hc⟩ := h.start
  rw [hrender] at hparse ⊢
  rw [parsePart_eq_parseParameter (List.cons_ne_nil c rest)
    (beq_eq_false_iff_ne.2 (ne_of_class hc (by decide)))
    (beq_eq_false_iff_ne.2 (ne_of_class hc (by decide))), ← hkind, hparse]
  rfl

theorem settled_join (h : ∀ p ∈ ps, Rereads p) :
    Settled (join [',', ' '] (ps.map Parameter.render)) :=
  .list (List.forall_mem_map.2 fun p hp => (h p hp).settled)

/-- A parameter, or a group in its brackets, is one part of the list. -/
theorem passed_of_mem_bracketedGroup {opener closer : CodePoint}
    (hcloser : closerOf? opener = some closer) (h : ∀ p ∈ ps, Rereads p) {t : Text}
    (ht : t ∈ bracketedGroup opener closer ps) :
    Passed [','] t ∧ Trimmed t ∧ t ≠ [] := by
  rw [bracketedGroup] at ht
  split at ht
  · cases ht
  · rw [List.mem_singleton.1 ht]
    exact ⟨.bracket hcloser (settled_join h), trimmed_group hcloser _, List.cons_ne_nil _ _⟩

/-- The parameters in brackets are read one by one; a group that is left out when it is empty is
read as well as one that is there. -/
theorem mapM_parsePart_bracketedGroup {opener closer : CodePoint} {kind : ParameterKind}
    (hcloser : closerOf? opener = some closer)
    (hpart : ∀ rest : Text, parsePart (opener :: rest) = do
      let (inside, _) ← splitGroup 0 (opener :: rest)
      (splitTopLevel [','] inside).mapM (parseParameter kind))
    (h : ∀ p ∈ ps, Rereads p) (hkind : ∀ p ∈ ps, p.kind = kind) :
    ∃ groups, (bracketedGroup opener closer ps).mapM parsePart = .ok groups
      ∧ groups.flatten = ps := by
  rw [bracketedGroup]
  split
  · next hempty =>
      rw [List.isEmpty_iff.1 hempty]
      exact ⟨[], rfl, rfl⟩
  · have hsplit : splitTopLevel [','] (join [',', ' '] (ps.map Parameter.render))
        = ps.map Parameter.render := splitTopLevel_list
      (List.forall_mem_map.2 fun p hp => ⟨(h p hp).passed, (h p hp).trimmed, (h p hp).ne_nil⟩)
    have hread : (ps.map Parameter.render).mapM (parseParameter kind) = .ok (ps.map id) :=
      mapM_map_eq_ok fun p hp => by
        rw [← hkind p hp]
        exact (h p hp).parse
    refine ⟨[ps], ?_, by simp⟩
    rw [List.mapM_cons, List.mapM_nil, hpart, splitGroup_group hcloser (settled_join h).balanced]
    simp only [bind, Except.bind, hsplit, hread, List.map_id]
    rfl

/-- The plain parameters are read one by one. -/
theorem mapM_parsePart_render (h : ∀ p ∈ ps, Rereads p) (hkind : ∀ p ∈ ps, p.kind = .positional) :
    ∃ groups, (ps.map Parameter.render).mapM parsePart = .ok groups ∧ groups.flatten = ps := by
  refine ⟨ps.map fun p => [p], mapM_map_eq_ok fun p hp => (h p hp).parsePart_eq (hkind p hp), ?_⟩
  rw [← List.flatMap_def, List.flatMap_singleton']

/-- Reading a parameter list gives the parameters. -/
theorem parseParameters_render {positional optional named : List Parameter}
    (hpositional : ∀ p ∈ positional, Rereads p ∧ p.kind = .positional)
    (hoptional : ∀ p ∈ optional, Rereads p ∧ p.kind = .optional)
    (hnamed : ∀ p ∈ named, Rereads p ∧ p.kind = .named) :
    parseParameters (Parameter.renderAll (positional ++ (optional ++ named)))
      = .ok (positional ++ (optional ++ named)) := by
  obtain ⟨plain, hplain, hplainFlat⟩ := mapM_parsePart_render (fun p hp => (hpositional p hp).1)
    fun p hp => (hpositional p hp).2
  obtain ⟨inSquare, hsquare, hsquareFlat⟩ := mapM_parsePart_bracketedGroup closerOf?_bracket
    (fun _ => rfl) (fun p hp => (hoptional p hp).1) fun p hp => (hoptional p hp).2
  obtain ⟨inBraces, hbraces, hbracesFlat⟩ := mapM_parsePart_bracketedGroup closerOf?_brace
    (fun _ => rfl) (fun p hp => (hnamed p hp).1) fun p hp => (hnamed p hp).2
  have hparts : ∀ t ∈ positional.map Parameter.render
      ++ (bracketedGroup '[' ']' optional ++ bracketedGroup '\x7b' '\x7d' named),
      Passed [','] t ∧ Trimmed t ∧ t ≠ [] := by
    refine List.forall_mem_append.2 ⟨List.forall_mem_map.2 fun p hp => ?_,
      List.forall_mem_append.2 ⟨fun t ht => ?_, fun t ht => ?_⟩⟩
    · have hp := (hpositional p hp).1
      exact ⟨hp.passed, hp.trimmed, hp.ne_nil⟩
    · exact passed_of_mem_bracketedGroup closerOf?_bracket (fun p hp => (hoptional p hp).1) ht
    · exact passed_of_mem_bracketedGroup closerOf?_brace (fun p hp => (hnamed p hp).1) ht
  rw [renderAll_append (fun p hp => (hpositional p hp).2) (fun p hp => (hoptional p hp).2)
    fun p hp => (hnamed p hp).2, parseParameters, splitTopLevel_list hparts, List.mapM_append,
    List.mapM_append, hplain, hsquare, hbraces]
  simp only [bind, Except.bind, pure, Except.pure, Except.map, List.flatten_append, hplainFlat,
    hsquareFlat, hbracesFlat]

/-! ## Plain parameters -/

theorem IsPart.settled {t : Text} (h : IsPart t) : Settled t :=
  .of_forall h.isQuote (fun c hc => isBracket_of_isSignatureChar (h.chars c hc)) h.angleNested

/-- A plain parameter is read back. -/
theorem PlainParameter.rereads {kind : ParameterKind} {required : Bool}
    (h : required = true → kind = .named) (p : PlainParameter) :
    Rereads (p.toParameter kind required) := by
  have hrender := p.render_toParameter h
  have hpart := p.isPart_text required
  refine ⟨?_, ?_, ?_, ?_, ?_⟩ <;> rw [hrender]
  · exact p.parseParameter_text kind required
  · exact hpart.level.passed
  · exact hpart.settled
  · exact hpart.trimmed
  · exact hpart.start

end DartDecoders
