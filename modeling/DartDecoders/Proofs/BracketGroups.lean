/-
Groups of brackets, and where they end.

The walk to a partner keeps a stack of the brackets that it awaits. What it looks for is said here
without a stack, by a grammar over the offsets of a text: a group is an opening bracket, any items
and the closing bracket of the same kind, and an item is a literal, a character that is neither
quote nor bracket, or a group (`Items`, `IsGroup`). A literal reaches as far as it does in the whole
text, so one that is not closed leaves no room for a closing bracket behind it.

The grammar itself shows that an opening bracket starts a group or is stuck: a closing bracket comes
that the innermost open one does not await, or the text ends with brackets open
(`isGroup_or_isStuck`). The walk passes over items whatever it awaits, so it tells the three apart
(`partnerFrom_eq_iff`).
-/
import DartDecoders.Proofs.Faults
import DartDecoders.Proofs.Nesting

set_option autoImplicit false

namespace DartDecoders

namespace Source

open Text

/-! ## Offsets -/

/-- The offset behind the literal that starts at an offset. -/
def literalEnd (t : Text) (i : Nat) : Nat :=
  match t.drop i with
  | [] => i
  | quote :: rest => t.length - (afterLiteral quote rest).length

variable {t : Text} {i j k p : Nat} {b c : CodePoint}

theorem drop_of_getElem? (h : t[i]? = some c) : t.drop i = c :: t.drop (i + 1) := by
  obtain ⟨hlt, rfl⟩ := List.getElem?_eq_some_iff.1 h
  exact List.drop_eq_getElem_cons hlt

theorem lt_length_of_getElem? (h : t[i]? = some c) : i < t.length :=
  (List.getElem?_eq_some_iff.1 h).1

theorem literalEnd_eq (h : t[i]? = some c) :
    literalEnd t i = t.length - (afterLiteral c (t.drop (i + 1))).length := by
  rw [literalEnd, drop_of_getElem? h]

/-- A literal takes at least its quote, and it ends within the text. -/
theorem literalEnd_bounds (h : t[i]? = some c) :
    i < literalEnd t i ∧ literalEnd t i ≤ t.length := by
  have hlt := lt_length_of_getElem? h
  have hle := length_afterLiteral_le c (t.drop (i + 1))
  rw [List.length_drop] at hle
  rw [literalEnd_eq h]
  omega

/-- What stands behind the literal is what the walks go on with. -/
theorem drop_literalEnd (h : t[i]? = some c) :
    t.drop (literalEnd t i) = afterLiteral c (t.drop (i + 1)) := by
  have hsuffix := (afterLiteral_suffix c (t.drop (i + 1))).trans (List.drop_suffix (i + 1) t)
  rw [literalEnd_eq h]
  exact (List.suffix_iff_eq_drop.1 hsuffix).symm

/-- The pieces from a literal on. -/
theorem pieces_drop_literal (h : t[i]? = some c) (hquote : isQuote c = true) :
    ∃ s : Text, i + s.length = literalEnd t i
      ∧ pieces (t.drop i) = .literal s :: pieces (t.drop (literalEnd t i)) := by
  refine ⟨literalText c (t.drop (i + 1)), ?_, ?_⟩
  · have hlength := congrArg List.length (literalText_append c (t.drop (i + 1)))
    have hlt := lt_length_of_getElem? h
    simp only [List.length_append, List.length_cons, List.length_drop] at hlength
    rw [literalEnd_eq h]
    omega
  · rw [drop_literalEnd h, drop_of_getElem? h, pieces, if_pos hquote]

/-- The pieces from any other character on. -/
theorem pieces_drop_char (h : t[i]? = some c) (hquote : isQuote c = false) :
    pieces (t.drop i) = .char c :: pieces (t.drop (i + 1)) := by
  rw [drop_of_getElem? h, pieces_cons hquote]

/-! ## The grammar -/

/-- Between the two offsets stand items: literals, characters that are neither quotes nor brackets,
and groups. -/
inductive Items (t : Text) : Nat → Nat → Prop
  | nil (i : Nat) : Items t i i
  | literal {i j : Nat} {quote : CodePoint} : t[i]? = some quote → isQuote quote = true →
    Items t (literalEnd t i) j → Items t i j
  | char {i j : Nat} {c : CodePoint} : t[i]? = some c → isQuote c = false → isBracket c = false →
    Items t (i + 1) j → Items t i j
  | group {i j k : Nat} {opener closer : CodePoint} : t[i]? = some opener →
    closerOf? opener = some closer → Items t (i + 1) k → t[k]? = some closer →
    Items t (k + 1) j → Items t i j

/-- The text from the first offset to the second, both included, is a group. -/
def IsGroup (t : Text) (i j : Nat) : Prop :=
  ∃ opener closer, t[i]? = some opener ∧ closerOf? opener = some closer ∧ Items t (i + 1) j
    ∧ t[j]? = some closer

/-- Of the brackets opened from the first offset on, some are open at the second, and the innermost
of them awaits the closer. -/
inductive Awaits (t : Text) : Nat → Nat → CodePoint → Prop
  | own {i j : Nat} {opener closer : CodePoint} : t[i]? = some opener →
    closerOf? opener = some closer → Items t (i + 1) j → Awaits t i j closer
  | inner {i j k : Nat} {opener closer awaited : CodePoint} : t[i]? = some opener →
    closerOf? opener = some closer → Items t (i + 1) k → Awaits t k j awaited →
    Awaits t i j awaited

/-- A closing bracket stands at the second offset that the innermost bracket open there does not
await. -/
def Clashes (t : Text) (i j : Nat) (bracket : CodePoint) : Prop :=
  ∃ awaited, Awaits t i j awaited ∧ t[j]? = some bracket ∧ isCloser bracket = true
    ∧ bracket ≠ awaited

/-- The text ends while brackets opened from the offset on are open. -/
def EndsOpen (t : Text) (i : Nat) : Prop :=
  ∃ awaited, Awaits t i t.length awaited

theorem Items.le (h : Items t i j) : i ≤ j := by
  induction h with
  | nil => exact Nat.le_refl _
  | literal hquote _ _ ih =>
      have hpast := (literalEnd_bounds hquote).1
      omega
  | char _ _ _ _ ih => omega
  | group _ _ _ _ _ ihinner ih => omega

/-! ## Groups and stuck brackets -/

/-- The items behind an opening bracket come to no end that closes it. -/
def IsStuck (t : Text) (i : Nat) : Prop :=
  EndsOpen t i ∨ ∃ j b, Clashes t i j b

/-- Behind an opening bracket stand items, and where these do not go on it is not closed. -/
theorem isStuck_of_items {opener closer : CodePoint} (h : t[i]? = some opener)
    (hcloser : closerOf? opener = some closer) (hitems : Items t (i + 1) k)
    (hk : k = t.length ∨ (∃ b, t[k]? = some b ∧ isCloser b = true) ∨ IsStuck t k)
    (hopen : t[k]? ≠ some closer) : IsStuck t i := by
  rcases hk with rfl | ⟨b, hb, hcloses⟩ | ⟨awaited, hinner⟩ | ⟨j, b, awaited, hinner, hclash⟩
  · exact .inl ⟨closer, .own h hcloser hitems⟩
  · have hne : b ≠ closer := fun heq => hopen (heq ▸ hb)
    exact .inr ⟨k, b, closer, .own h hcloser hitems, hb, hcloses, hne⟩
  · exact .inl ⟨awaited, .inner h hcloser hitems hinner⟩
  · exact .inr ⟨j, b, awaited, .inner h hcloser hitems hinner, hclash⟩

/-- Items go on up to the end of the text, a closing bracket, or an opening one that is stuck. The
induction is on what is left of the text, since the items behind an opening bracket decide whether
it starts a group and is passed over. -/
theorem exists_items (t : Text) (i : Nat) (hi : i ≤ t.length) : ∃ j, Items t i j
    ∧ (j = t.length ∨ (∃ b, t[j]? = some b ∧ isCloser b = true) ∨ IsStuck t j) := by
  by_cases hend : i = t.length
  · exact ⟨i, .nil i, .inl hend⟩
  have hlt : i < t.length := by omega
  obtain ⟨c, hc⟩ : ∃ c, t[i]? = some c := ⟨t[i], List.getElem?_eq_getElem hlt⟩
  by_cases hquote : isQuote c = true
  · obtain ⟨hpast, hle⟩ := literalEnd_bounds hc
    obtain ⟨j, hitems, hj⟩ := exists_items t (literalEnd t i) hle
    exact ⟨j, .literal hc hquote hitems, hj⟩
  cases hopens : closerOf? c with
  | none =>
      by_cases hcloses : isCloser c = true
      · exact ⟨i, .nil i, .inr (.inl ⟨c, hc, hcloses⟩)⟩
      · have hplain : isBracket c = false := by simp [isBracket, hopens, hcloses]
        obtain ⟨j, hitems, hj⟩ := exists_items t (i + 1) hlt
        exact ⟨j, .char hc (by simpa using hquote) hplain hitems, hj⟩
  | some closer =>
      obtain ⟨k, hitems, hk⟩ := exists_items t (i + 1) hlt
      by_cases hclosed : t[k]? = some closer
      · have hforward := hitems.le
        obtain ⟨j, hothers, hj⟩ := exists_items t (k + 1) (lt_length_of_getElem? hclosed)
        exact ⟨j, .group hc hopens hitems hclosed hothers, hj⟩
      · exact ⟨i, .nil i, .inr (.inr (isStuck_of_items hc hopens hitems hk hclosed))⟩
termination_by t.length - i

/-- An opening bracket starts a group or is stuck. -/
theorem isGroup_or_isStuck {opener : CodePoint} (h : t[p]? = some opener)
    (hopens : (closerOf? opener).isSome = true) : (∃ j, IsGroup t p j) ∨ IsStuck t p := by
  obtain ⟨closer, hcloser⟩ := Option.isSome_iff_exists.1 hopens
  obtain ⟨k, hitems, hk⟩ := exists_items t (p + 1) (lt_length_of_getElem? h)
  by_cases hclosed : t[k]? = some closer
  · exact .inl ⟨k, opener, closer, h, hcloser, hitems, hclosed⟩
  · exact .inr (isStuck_of_items h hcloser hitems hk hclosed)

/-! ## The walk -/

/-- Items are nested pieces. -/
theorem Items.exists_pieces (h : Items t i j) : ∃ ps, Nested ps ∧ i + (flatten ps).length = j
    ∧ pieces (t.drop i) = ps ++ pieces (t.drop j) := by
  induction h with
  | nil i => exact ⟨[], .nil, rfl, rfl⟩
  | literal hc hquote _ ih =>
      obtain ⟨ps, hnested, hlength, hpieces⟩ := ih
      obtain ⟨s, hwidth, hfirst⟩ := pieces_drop_literal hc hquote
      refine ⟨.literal s :: ps, .literal hnested, ?_, by rw [hfirst, hpieces]; rfl⟩
      simp only [flatten_cons, Piece.text, List.length_append]
      omega
  | @char i j c hc hquote hbracket _ ih =>
      obtain ⟨ps, hnested, hlength, hpieces⟩ := ih
      refine ⟨.char c :: ps, .char hbracket hnested, ?_, ?_⟩
      · simp only [flatten_cons, Piece.text, List.length_append, List.length_singleton]
        omega
      · rw [pieces_drop_char hc hquote, hpieces]
        rfl
  | @group i j k opener closer hc hcloser _ hk _ ihinner ih =>
      obtain ⟨inner, hinner, hinnerLength, hinnerPieces⟩ := ihinner
      obtain ⟨ps, hnested, hlength, hpieces⟩ := ih
      obtain ⟨hopenerQuote, hcloserQuote⟩ := isQuote_of_closerOf? hcloser
      refine ⟨.char opener :: (inner ++ .char closer :: ps), .group hcloser hinner hnested, ?_, ?_⟩
      · simp only [flatten_cons, flatten_append, Piece.text, List.length_append,
          List.length_singleton]
        omega
      · rw [pieces_drop_char hc hopenerQuote, hinnerPieces, pieces_drop_char hk hcloserQuote,
          hpieces]
        simp

/-- Where a bracket is awaited the walk passes over items. -/
theorem Items.partnerFrom_eq (h : Items t i j) (closer : CodePoint) (awaited : List CodePoint) :
    partnerFrom (closer :: awaited) i (pieces (t.drop i))
      = partnerFrom (closer :: awaited) j (pieces (t.drop j)) := by
  obtain ⟨ps, hnested, hlength, hpieces⟩ := h.exists_pieces
  rw [hpieces, partnerFrom_append hnested, hlength]

/-- Behind an opening bracket its closer is awaited. -/
theorem partnerFrom_opener {opener closer : CodePoint} (h : t[i]? = some opener)
    (hcloser : closerOf? opener = some closer) (awaited : List CodePoint) :
    partnerFrom awaited i (pieces (t.drop i))
      = partnerFrom (closer :: awaited) (i + 1) (pieces (t.drop (i + 1))) := by
  rw [pieces_drop_char h (isQuote_of_closerOf? hcloser).1]
  simp only [partnerFrom, hcloser]

/-- Where brackets are open the walk awaits the innermost of them first. -/
theorem Awaits.exists_partnerFrom_eq {closer : CodePoint} (h : Awaits t i j closer) :
    ∀ awaited : List CodePoint, ∃ others, partnerFrom awaited i (pieces (t.drop i))
      = partnerFrom (closer :: others) j (pieces (t.drop j)) := by
  induction h with
  | own hc hcloser hitems =>
      intro awaited
      exact ⟨awaited, by rw [partnerFrom_opener hc hcloser, hitems.partnerFrom_eq]⟩
  | inner hc hcloser hitems _ ih =>
      intro awaited
      obtain ⟨others, hothers⟩ := ih (_ :: awaited)
      exact ⟨others, by rw [partnerFrom_opener hc hcloser, hitems.partnerFrom_eq, hothers]⟩

theorem isQuote_of_isCloser (h : isCloser b = true) : isQuote b = false ∧ closerOf? b = none := by
  simp only [isCloser, Bool.or_eq_true, beq_iff_eq] at h
  rcases h with (rfl | rfl) | rfl <;> exact ⟨rfl, rfl⟩

/-- A group ends where the walk ends. -/
theorem IsGroup.partnerFrom_eq (h : IsGroup t p j) :
    partnerFrom [] p (pieces (t.drop p)) = .found j := by
  obtain ⟨opener, closer, hopener, hcloser, hitems, hj⟩ := h
  obtain ⟨hnone, hcloses⟩ := isCloser_of_closerOf? hcloser
  rw [partnerFrom_opener hopener hcloser, hitems.partnerFrom_eq,
    pieces_drop_char hj (isQuote_of_closerOf? hcloser).2, partnerFrom, hnone]
  simp [hcloses]

theorem Clashes.partnerFrom_eq (h : Clashes t p j b) :
    partnerFrom [] p (pieces (t.drop p)) = .unbalanced b j := by
  obtain ⟨awaited, hopen, hb, hcloses, hne⟩ := h
  obtain ⟨others, hwalk⟩ := hopen.exists_partnerFrom_eq []
  obtain ⟨hquote, hnone⟩ := isQuote_of_isCloser hcloses
  rw [hwalk, pieces_drop_char hb hquote, partnerFrom, hnone]
  simp [hcloses, hne.symm]

theorem EndsOpen.partnerFrom_eq (h : EndsOpen t p) :
    partnerFrom [] p (pieces (t.drop p)) = .unclosed := by
  obtain ⟨awaited, hopen⟩ := h
  obtain ⟨others, hwalk⟩ := hopen.exists_partnerFrom_eq []
  rw [hwalk, List.drop_length, pieces_nil]
  rfl

/-- What becomes of an opening bracket, said by the grammar. -/
def Fate (t : Text) (p : Nat) : Partner → Prop
  | .found j => IsGroup t p j
  | .unbalanced b j => Clashes t p j b
  | .unclosed => EndsOpen t p

theorem Fate.partnerFrom_eq {fate : Partner} (h : Fate t p fate) :
    partnerFrom [] p (pieces (t.drop p)) = fate := by
  cases fate with
  | found j => exact IsGroup.partnerFrom_eq h
  | unbalanced b j => exact Clashes.partnerFrom_eq h
  | unclosed => exact EndsOpen.partnerFrom_eq h

/-- The walk from an opening bracket finds its fate: there is one, and the walk ends in one way. -/
theorem partnerFrom_eq_iff {opener : CodePoint} (h : t[p]? = some opener)
    (hopens : (closerOf? opener).isSome = true) (fate : Partner) :
    partnerFrom [] p (pieces (t.drop p)) = fate ↔ Fate t p fate := by
  refine ⟨?_, Fate.partnerFrom_eq⟩
  rintro rfl
  obtain ⟨fate, hfate⟩ : ∃ fate, Fate t p fate := by
    rcases isGroup_or_isStuck h hopens with ⟨j, hj⟩ | hend | ⟨j, b, hj⟩
    · exact ⟨.found j, hj⟩
    · exact ⟨.unclosed, hend⟩
    · exact ⟨.unbalanced b j, hj⟩
  rwa [hfate.partnerFrom_eq]

/-- What looking for a partner makes of the end of the walk. -/
def Partner.result (opener : CodePoint) (p : Nat) : Partner → Except Fault Int
  | .found j => .ok j
  | .unbalanced b j => .error (.reported (.unbalancedBracket b j))
  | .unclosed => .error (.reported (.unclosedBracket opener p))

theorem findMatching_eq_result {opener : CodePoint} (h : t[p]? = some opener) :
    findMatching t p = (partnerFrom [] p (pieces (t.drop p))).result opener p := by
  show (partner p (t.drop p)).map Int.ofNat = _
  unfold partner
  cases partnerFrom [] p (pieces (t.drop p)) with
  | found j => rfl
  | unbalanced b j => rfl
  | unclosed =>
      rw [drop_of_getElem? h]
      rfl

/-- **Where a group ends.** From an opening bracket on, the search returns an offset exactly when
the text up to it is a group. In every other case it ends with an error about declarations: a
closing bracket is reported where one comes that the innermost open bracket does not await, and the
opening bracket where the text ends with brackets open. -/
theorem findMatching_eq_iff {opener : CodePoint} (h : t[p]? = some opener)
    (hopens : (closerOf? opener).isSome = true) :
    (∀ j : Int, findMatching t p = .ok j ↔ ∃ k : Nat, j = k ∧ IsGroup t p k)
      ∧ ((∀ k, ¬ IsGroup t p k) → ∃ f, findMatching t p = .error f ∧ IsDeclarationError f)
      ∧ (∀ b (j : Nat), findMatching t p = .error (.reported (.unbalancedBracket b j))
        ↔ Clashes t p j b)
      ∧ (findMatching t p = .error (.reported (.unclosedBracket opener p)) ↔ EndsOpen t p) := by
  have hwalk := partnerFrom_eq_iff h hopens
  rw [findMatching_eq_result h]
  generalize partnerFrom [] p (pieces (t.drop p)) = fate at hwalk
  have hgroup : ∀ k, IsGroup t p k ↔ fate = .found k := fun k => (hwalk (.found k)).symm
  have hclash : ∀ b k, Clashes t p k b ↔ fate = .unbalanced b k := fun b k =>
    (hwalk (.unbalanced b k)).symm
  have hend : EndsOpen t p ↔ fate = .unclosed := (hwalk .unclosed).symm
  simp only [hgroup, hclash, hend]
  cases fate with
  | found k => simp [Partner.result, eq_comm]
  | unbalanced b k =>
      have hoffset : ∀ j : Nat, (k : Int) = j ↔ k = j := fun j => by omega
      refine ⟨by simp [Partner.result], ?_, ?_, by simp [Partner.result]⟩
      · simp [Partner.result, IsDeclarationError, GenerationError.kind]
      · simp only [Partner.result, Except.error.injEq, Fault.reported.injEq,
          GenerationError.unbalancedBracket.injEq, Partner.unbalanced.injEq, hoffset, implies_true]
  | unclosed => simp [Partner.result, IsDeclarationError, GenerationError.kind]

/-- A call with brackets in its literals, and a literal that is not closed behind it. -/
def quotedCall : Text :=
  "f(a[')'], '''it's(''') + '".toText

/-- The brackets in literals are passed over, and the literal behind the group is not reached. -/
theorem findMatching_eq_iff_quotedCall :
    quotedCall[1]? = some (.ofChar '(') ∧ (closerOf? '(').isSome = true
      ∧ IsGroup quotedCall 1 21 := by
  have hopener : quotedCall[1]? = some (.ofChar '(') := by decide
  have hwalk : partnerFrom [] 1 (pieces (quotedCall.drop 1)) = .found 21 := by decide +kernel
  have hfound : findMatching quotedCall 1 = .ok 21 := by
    rw [← Int.natCast_one, findMatching_eq_result hopener, hwalk]
    rfl
  obtain ⟨hgroup, -⟩ := findMatching_eq_iff hopener rfl
  obtain ⟨k, hk, hisGroup⟩ := (hgroup 21).1 hfound
  obtain rfl : k = 21 := by omega
  exact ⟨hopener, rfl, hisGroup⟩

end Source

end DartDecoders
