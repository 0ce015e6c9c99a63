/-
Fields, accessors and operators among the members of a class.

None of them is ever read as a method. A field or a getter may have no parenthesis at all, or an
equals sign before the first one; an accessor has its keyword among the words before it; an operator
has its keyword there too, unless its symbol stands right behind it, and then the symbol is no name.
Where a function or a record is part of the type, the first parenthesis is that of the type, and
what is behind its parameters does not end a method.

Reading them can fail in two places, and each case says which. An operator whose symbol ends in a
closing angle bracket, right behind the keyword, looks like one with type parameters that were never
opened. And the parameters of a function type are read as those of a method, which fails for those
that have no name (`OtherMember.parseMember_eq_none_iff`).
-/
import DartDecoders.Proofs.FunctionTypes
import DartDecoders.Proofs.MemberHeads

set_option autoImplicit false

namespace DartDecoders

open Text TypeExpr Source

/-! ## Type parameters at the end of a header -/

/-- The angle brackets at the end of a text are closed: it does not end in one, or what that one
closes is there. -/
inductive EndsClosed : Text → Prop
  | nil : EndsClosed []
  | char {before : Text} {c : CodePoint} : isBlank c = false → c ≠ '>' → EndsClosed (before ++ [c])
  | angle {before inner : Text} : AngleNested inner →
    EndsClosed (before ++ .ofChar '<' :: (inner ++ [.ofChar '>']))

theorem isSome_angleGroup?_group {inner : Text} (h : AngleNested inner) (before : Text) :
    (angleGroup? 0 (before ++ .ofChar '<' :: (inner ++ [.ofChar '>']) : Text).reverse).isSome
      = true := by
  have hreverse : (before ++ .ofChar '<' :: (inner ++ [.ofChar '>']) : Text).reverse
      = .ofChar '>' :: (inner.reverse ++ .ofChar '<' :: before.reverse) := by simp
  rw [hreverse, angleGroup?_closing, Int.zero_add, angleGroup?_append h (Int.le_refl 1),
    angleGroup?_last]
  rfl

/-- Nothing opens the brackets at the end of a text in which the others nest. -/
theorem angleGroup?_unopened {t : Text} (h : AngleNested t) {depth : Int} (hdepth : 1 ≤ depth) :
    angleGroup? depth t.reverse = none := by
  have happend := angleGroup?_append h hdepth []
  rwa [List.append_nil, angleGroup?, Option.map_none] at happend

/-- The type parameters of a closed header are read. -/
theorem EndsClosed.isRead {header : Text} (h : EndsClosed header) :
    ∃ found, splitTypeParameters (declaredText header) = .ok found := by
  cases h with
  | nil => exact ⟨_, rfl⟩
  | @char before c hc hclose =>
      rcases declaredText_concat hc before with hnil | ⟨rest, hrest⟩
      · exact ⟨_, by rw [hnil]; rfl⟩
      · exact ⟨_, by rw [hrest, splitTypeParameters_concat hc hclose]⟩
  | @angle before inner hinner =>
      have hsome := isSome_angleGroup?_group hinner before
      have hheader : before ++ .ofChar '<' :: (inner ++ [.ofChar '>'])
          = (before ++ .ofChar '<' :: inner) ++ [.ofChar '>'] := by
        simp
      rw [← isSome_angleGroup?_declaredText, hheader] at hsome
      rw [hheader]
      obtain ⟨rest, hrest⟩ :=
        declaredText_mark (c := '>') (by decide) (by decide) (before ++ .ofChar '<' :: inner)
      rw [hrest] at hsome
      obtain ⟨found, hfound⟩ := Option.isSome_iff_exists.1 hsome
      exact ⟨_, by rw [hrest, splitTypeParameters_closing, hfound]⟩

/-- A closed header is read, as that of a method or of another member. -/
theorem EndsClosed.memberHead?_isRead {header : Text} (h : EndsClosed header)
    (hequals : .ofChar '=' ∉ header) (g : Gap) (className : Text) :
    ∃ head, memberHead? className (header ++ g.text) = .ok head := by
  have hequals' : .ofChar '=' ∉ header ++ g.text := by
    intro hmem
    rcases List.mem_append.1 hmem with hmem | hmem
    · exact hequals hmem
    · exact absurd (g.blank '=' hmem) (by decide)
  -- a keyword among the words is found before the brackets are looked at
  by_cases hkeyword : ∃ w ∈ words (header ++ g.text), w ∈ otherKeywords
  · obtain ⟨w, hw, hmem⟩ := hkeyword
    exact ⟨none, memberHead?_keyword hw hmem className⟩
  · obtain ⟨found, hfound⟩ := h.isRead
    have hkeywords : ∀ w ∈ words (header ++ g.text), w ∉ otherKeywords := fun w hw hmem =>
      hkeyword ⟨w, hw, hmem⟩
    rw [memberHead?_eq_map hequals' hkeywords, declaredText_append_gap, hfound]
    exact ⟨_, rfl⟩

/-! ## Accessors -/

/-- A getter or a setter with a parenthesis: its keyword, with white space behind it and perhaps
modifiers and a type before it, and what stands there up to the parenthesis and behind it. -/
structure Accessor where
  lead : Text := []
  lead_ends : StopsAt (fun c => !isBlank c) lead.reverse
  keyword : Text
  keyword_mem : keyword ∈ ["get", "set"].map String.toText
  gap : Gap := Gap.space
  gap_ne_nil : gap.text ≠ [] := by decide
  declared : Text
  rest : Text
  not_mem : .ofChar '(' ∉ lead ++ declared

namespace Accessor

/-- What stands before the first parenthesis. -/
def header (a : Accessor) : Text :=
  a.lead ++ (a.keyword ++ (a.gap.text ++ a.declared))

theorem not_mem_header (a : Accessor) : .ofChar '(' ∉ a.header := by
  have hkeyword : .ofChar '(' ∉ a.keyword := by
    have hall : ∀ w ∈ ["get", "set"].map String.toText, .ofChar '(' ∉ w := by decide
    exact hall _ a.keyword_mem
  have hgap : .ofChar '(' ∉ a.gap.text := fun hc =>
    absurd (a.gap.blank (.ofChar '(') hc) (by decide)
  have hothers := a.not_mem
  rw [List.mem_append, not_or] at hothers
  simp [header, hothers, hkeyword, hgap]

/-- The keyword is one of the words. -/
theorem keyword_mem_words (a : Accessor) : a.keyword ∈ words a.header := by
  have hchars : ∀ w ∈ ["get", "set"].map String.toText,
      w ≠ [] ∧ ∀ c ∈ w, isBlank c = false := by decide
  obtain ⟨hne, hblank⟩ := hchars _ a.keyword_mem
  rw [header, words_append_of_stopsAt a.lead_ends,
    words_append_gap_append a.gap.blank a.gap_ne_nil, words_of_forall hne hblank]
  simp

theorem keyword_mem_otherKeywords (a : Accessor) : a.keyword ∈ otherKeywords := by
  have hall : ∀ w ∈ ["get", "set"].map String.toText, w ∈ otherKeywords := by decide +kernel
  exact hall _ a.keyword_mem

end Accessor

/-! ## Operators -/

/-- The keyword of operators. -/
def operatorKeyword : Text :=
  "operator".toText

theorem words_operatorKeyword : words operatorKeyword = [operatorKeyword] :=
  words_of_forall (by decide) (by decide)

/-- The symbols of operators. -/
def operatorSymbols : List Text :=
  ["<", ">", "<=", ">=", "==", "-", "+", "/", "~/", "*", "%", "|", "^", "&", "<<", ">>", ">>>",
    "[]", "[]=", "~"].map String.toText

/-- An operator: modifiers and a type, the keyword, and the symbol, with white space or none before
the symbol and behind it. -/
structure Operator where
  lead : Text := []
  lead_ends : StopsAt (fun c => !isBlank c) lead.reverse
  lead_words : ∀ w ∈ words lead, w ∉ otherKeywords
  lead_angles : AngleNested lead
  not_mem : .ofChar '(' ∉ lead ∧ .ofChar '=' ∉ lead
  before : Gap := Gap.none
  symbol : Text
  symbol_mem : symbol ∈ operatorSymbols
  after : Gap := Gap.none
  rest : Text

namespace Operator

variable (o : Operator)

/-- The keyword and the symbol. -/
def name : Text :=
  operatorKeyword ++ (o.before.text ++ o.symbol)

/-- What stands before the parenthesis. -/
def header : Text :=
  o.lead ++ (o.name ++ o.after.text)

/-- Whether a symbol that ends in a closing angle bracket stands right behind the keyword. -/
def isMisread : Prop :=
  o.before.text = [] ∧ o.symbol ∈ [">", ">>", ">>>"].map String.toText

theorem not_mem_header : .ofChar '(' ∉ o.header := by
  have hgap : ∀ g : Gap, .ofChar '(' ∉ g.text := fun g hc =>
    absurd (g.blank (.ofChar '(') hc) (by decide)
  have hkeyword : .ofChar '(' ∉ operatorKeyword := by decide
  have hsymbol : .ofChar '(' ∉ o.symbol := by
    have hall : ∀ s ∈ operatorSymbols, .ofChar '(' ∉ s := by decide +kernel
    exact hall _ o.symbol_mem
  simp [header, name, o.not_mem.1, hkeyword, hgap, hsymbol]

/-- Behind white space the keyword is a word of its own. -/
theorem memberHead?_spaced (hbefore : o.before.text ≠ []) (className : Text) :
    memberHead? className o.header = .ok none := by
  refine memberHead?_keyword (w := operatorKeyword) ?_ (by decide +kernel) className
  rw [header, words_append_of_stopsAt o.lead_ends, name, List.append_assoc, List.append_assoc,
    words_append_gap_append o.before.blank hbefore, words_operatorKeyword]
  simp

/-- An equals sign in the symbol is one in the header. -/
theorem memberHead?_equals (hsymbol : .ofChar '=' ∈ o.symbol) (className : Text) :
    memberHead? className o.header = .ok none := by
  refine Source.memberHead?_equals ?_ className
  simp [header, name, hsymbol]

section Attached

variable (hbefore : o.before.text = [])

include hbefore

theorem not_mem_equals (hequals : .ofChar '=' ∉ o.symbol) : .ofChar '=' ∉ o.header := by
  have hgap : .ofChar '=' ∉ o.after.text := fun hc =>
    absurd (o.after.blank (.ofChar '=') hc) (by decide)
  have hkeyword : .ofChar '=' ∉ operatorKeyword := by decide
  simp [header, name, hbefore, o.not_mem.2, hkeyword, hequals, hgap]

/-- The keyword and the symbol right behind it are one word, and no keyword. -/
theorem words_header : ∀ w ∈ words o.header, w ∉ otherKeywords := by
  have hsymbols : ∀ s ∈ operatorSymbols,
      (∀ c ∈ s, isBlank c = false) ∧ operatorKeyword ++ s ∉ otherKeywords := by decide +kernel
  obtain ⟨hblank, hkeyword⟩ := hsymbols _ o.symbol_mem
  have hname : o.name = operatorKeyword ++ o.symbol := by rw [name, hbefore, List.nil_append]
  have hword : words o.name = [o.name] := by
    rw [hname]
    exact words_of_forall (List.append_ne_nil_of_left_ne_nil (by decide) _)
      (List.forall_mem_append.2 ⟨by decide, hblank⟩)
  rw [header, words_append_of_stopsAt o.lead_ends, words_append_gap o.after.blank, hword]
  refine List.forall_mem_append.2 ⟨o.lead_words, ?_⟩
  rw [List.forall_mem_singleton, hname]
  exact hkeyword

/-- The last character of the symbol is the last of what is declared. -/
theorem exists_concat {c : CodePoint} (hc : c ∈ o.symbol.getLast?) (hblank : isBlank c = false)
    (hname : isNameChar c = false) :
    ∃ rest, declaredText (o.lead ++ o.name) = rest ++ [c] := by
  obtain ⟨front, hfront⟩ := List.getLast?_eq_some_iff.1 hc
  have hend : o.lead ++ o.name = (o.lead ++ (operatorKeyword ++ front)) ++ [c] := by
    rw [name, hbefore, hfront]
    simp
  rw [hend]
  exact declaredText_mark hblank hname _

end Attached

theorem declaredText_header : declaredText o.header = declaredText (o.lead ++ o.name) := by
  rw [header, ← List.append_assoc, declaredText_append_gap]

/-- Where the symbol ends in a character of no name and in no closing angle bracket, no name is at
the end of the header. -/
theorem memberHead?_nameless (hbefore : o.before.text = []) (hequals : .ofChar '=' ∉ o.symbol)
    {c : CodePoint} (hc : c ∈ o.symbol.getLast?) (hblank : isBlank c = false)
    (hname : isNameChar c = false) (hclose : c ≠ '>') (className : Text) :
    memberHead? className o.header = .ok none := by
  obtain ⟨rest, hrest⟩ := o.exists_concat hbefore hc hblank hname
  have hword : isWordChar c = false := by
    refine Bool.eq_false_iff.2 fun hword => ?_
    rw [isNameChar_of_isWordChar hword] at hname
    cases hname
  have hsplit : splitTypeParameters (declaredText o.header) = .ok (rest ++ [c], []) := by
    rw [o.declaredText_header, hrest, splitTypeParameters_concat hblank hclose]
  rw [memberHead?_eq (o.not_mem_equals hbefore hequals) (o.words_header hbefore) hsplit,
    declaredHead?, (splitLastWord?_concat hblank rest).2 hword]

/-- The closing angle brackets of a symbol close nothing. -/
theorem memberHead?_misread (h : o.isMisread) (className : Text) :
    memberHead? className o.header
      = .error (.reported (.unbalancedTypeParameters (declaredText o.header))) := by
  obtain ⟨hbefore, hsymbol⟩ := h
  have hsymbols : ∀ s ∈ [">", ">>", ">>>"].map String.toText,
      .ofChar '=' ∉ s ∧ .ofChar '>' ∈ s.getLast? := by decide
  obtain ⟨hequals, hlast⟩ := hsymbols _ hsymbol
  have hfront : AngleNested (o.lead ++ operatorKeyword) :=
    o.lead_angles.append (.of_forall (by decide))
  have hnone : ∀ depth : Int, 0 ≤ depth →
      angleGroup? depth ('>' :: (o.lead ++ operatorKeyword).reverse) = none := by
    intro depth hdepth
    rw [angleGroup?_closing, angleGroup?_unopened hfront (by omega)]
    rfl
  have hname : (o.lead ++ o.name).reverse
      = o.symbol.reverse ++ (o.lead ++ operatorKeyword).reverse := by
    rw [name, hbefore, List.nil_append, ← List.append_assoc, List.reverse_append]
  -- every closing bracket goes one level deeper, and before the symbol all brackets nest
  have hunopened : angleGroup? 0 (o.lead ++ o.name).reverse = none := by
    rw [hname]
    simp only [List.map_cons, List.map_nil, List.mem_cons, List.not_mem_nil, or_false] at hsymbol
    rcases hsymbol with hsymbol | hsymbol | hsymbol
    · rw [hsymbol]
      exact hnone 0 (by omega)
    · rw [hsymbol]
      show angleGroup? 0 ('>' :: '>' :: (o.lead ++ operatorKeyword).reverse) = none
      rw [angleGroup?_closing, hnone _ (by omega)]
      rfl
    · rw [hsymbol]
      show angleGroup? 0 ('>' :: '>' :: '>' :: (o.lead ++ operatorKeyword).reverse) = none
      rw [angleGroup?_closing, angleGroup?_closing, hnone _ (by omega)]
      rfl
  obtain ⟨rest, hrest⟩ := o.exists_concat hbefore hlast (by decide) (by decide)
  -- the same holds when the modifiers are left out
  have hdeclared : angleGroup? 0 (rest ++ [.ofChar '>'] : Text).reverse = none := by
    have hsome := isSome_angleGroup?_declaredText (o.lead ++ o.name)
    rw [hunopened, hrest] at hsome
    simpa using hsome
  rw [memberHead?_eq_map (o.not_mem_equals hbefore hequals) (o.words_header hbefore),
    o.declaredText_header, hrest, splitTypeParameters_closing, hdeclared]
  rfl

/-- Every other operator has the header of no method. -/
theorem memberHead?_header (h : ¬ o.isMisread) (className : Text) :
    memberHead? className o.header = .ok none := by
  have hsymbols : ∀ s ∈ operatorSymbols, .ofChar '=' ∈ s ∨ s ∈ [">", ">>", ">>>"].map String.toText
      ∨ s.getLast?.any (fun c => !isBlank c && !isNameChar c && c != '>') = true := by
    decide +kernel
  by_cases hbefore : o.before.text = []
  · rcases hsymbols _ o.symbol_mem with hequals | hmisread | hlast
    · exact o.memberHead?_equals hequals className
    · exact absurd ⟨hbefore, hmisread⟩ h
    · obtain ⟨c, hc, hmark⟩ := (Option.any_eq_true _ _).1 hlast
      simp only [Bool.and_eq_true, Bool.not_eq_true', bne_iff_ne] at hmark
      obtain ⟨⟨hblank, hname⟩, hclose⟩ := hmark
      by_cases hequals : .ofChar '=' ∈ o.symbol
      · exact o.memberHead?_equals hequals className
      · exact o.memberHead?_nameless hbefore hequals hc hblank hname hclose className
  · exact o.memberHead?_spaced hbefore className

end Operator

/-! ## Members that are passed over -/

section Passed

variable {read : Except Fault (Option Method)} {p : Prop}

/-- Reading passes over a member. -/
theorem passed_of_none (h : read = .ok none) (hp : p) :
    (read = .ok none ↔ p) ∧ ∀ method, read ≠ .ok (some method) := by
  subst h
  exact ⟨⟨fun _ => hp, fun _ => rfl⟩, by simp⟩

/-- Reading fails on a member, which gives no method either. -/
theorem passed_of_error {e : Fault} (h : read = .error e) (hp : ¬ p) :
    (read = .ok none ↔ p) ∧ ∀ method, read ≠ .ok (some method) := by
  subst h
  exact ⟨⟨fun heq => (by cases heq), fun hread => absurd hread hp⟩, by simp⟩

end Passed

/-! ## Types with a parenthesis -/

/-- A member in the type of which there is the first parenthesis: what stands before it, the
parameters of the function type or the fields of the record, and what stands behind them, which ends
no method. -/
structure FunctionTyped where
  header : Text
  closed : EndsClosed header
  not_mem : .ofChar '(' ∉ header ∧ .ofChar '=' ∉ header
  gap : Gap := Gap.none
  parts : List ListPart
  behind : Text
  not_method : endsMethod behind = false

namespace FunctionTyped

variable (f : FunctionTyped)

/-- The member as it is written. -/
def text : Text :=
  (f.header ++ f.gap.text) ++ .ofChar '(' :: (parameterList f.parts ++ .ofChar ')' :: f.behind)

/-- Whether the parameters can be read: each of them has a name. They are not looked at when what
stands before them is not taken for the header of a method. -/
def isRead (className : Text) : Prop :=
  (∃ head, memberHead? className (f.header ++ f.gap.text) = .ok (some head)) →
    ∀ p ∈ f.parts, ∀ t ∈ p.parameters, t ≠ [] → IsNamed t

theorem not_mem_header : .ofChar '(' ∉ f.header ++ f.gap.text := by
  have hgap : .ofChar '(' ∉ f.gap.text := fun hc =>
    absurd (f.gap.blank (.ofChar '(') hc) (by decide)
  simp [f.not_mem.1, hgap]

/-- Behind the parameters no method ends, so when they are read there is none. -/
theorem parseMember_text {className member : Text} (hmember : withoutMarkers member = .ok f.text) :
    (parseMember className member = .ok none ↔ f.isRead className)
      ∧ ∀ method, parseMember className member ≠ .ok (some method) := by
  obtain ⟨head, hhead⟩ := f.closed.memberHead?_isRead f.not_mem.2 f.gap className
  cases head with
  -- the parameters are not looked at
  | none =>
      refine passed_of_none (parseMember_eq_none hmember f.not_mem_header hhead) ?_
      rintro ⟨head, hsome⟩
      rw [hhead] at hsome
      cases hsome
  | some head =>
      have hread := parseMember_eq_methodOf? (bracketed_parameterList f.parts).balanced hmember
        f.not_mem_header hhead
      have hiff : f.isRead className ↔ ∃ ps, parseParameters (parameterList f.parts) = .ok ps := by
        rw [parseParameters_isRead_iff]
        exact ⟨fun h => h ⟨head, hhead⟩, fun h _ => h⟩
      cases hparameters : parseParameters (parameterList f.parts) with
      | error e =>
          rw [hparameters] at hread hiff
          refine passed_of_error hread fun h => ?_
          obtain ⟨ps, hps⟩ := hiff.1 h
          cases hps
      | ok ps =>
          have hmethod : methodOf? head f.behind ps = none := by
            rw [methodOf?, f.not_method]
            rfl
          rw [hparameters, Except.map, hmethod] at hread
          exact passed_of_none hread (hiff.2 ⟨ps, hparameters⟩)

end FunctionTyped

/-! ## The members that are no methods -/

/-- The fields, accessors and operators of a class. -/
inductive OtherMember where
  /-- A field or a getter without a parenthesis. -/
  | plain (text : Text) (not_mem : .ofChar '(' ∉ text)
  /-- A field or a getter with an equals sign before the first parenthesis. -/
  | valued (before rest : Text) (not_mem : .ofChar '(' ∉ before)
  | accessor (a : Accessor)
  | operator (o : Operator)
  | functionTyped (f : FunctionTyped)

namespace OtherMember

/-- The member as it is written. -/
def text : OtherMember → Text
  | plain t _ => t
  | valued before rest _ => before ++ .ofChar '=' :: rest
  | accessor a => a.header ++ .ofChar '(' :: a.rest
  | operator o => o.header ++ .ofChar '(' :: o.rest
  | functionTyped f => f.text

/-- Whether the scanner can read the member. -/
def isRead (className : Text) : OtherMember → Prop
  | operator o => ¬ o.isMisread
  | functionTyped f => f.isRead className
  | _ => True

/-- An equals sign before the first parenthesis is in the header. -/
theorem parseMember_valued {className member before rest : Text} (hbefore : .ofChar '(' ∉ before)
    (hmember : withoutMarkers member = .ok (before ++ .ofChar '=' :: rest)) :
    parseMember className member = .ok none := by
  by_cases hrest : .ofChar '(' ∈ rest
  · obtain ⟨middle, behind, rfl, hmiddle⟩ := List.eq_append_cons_of_mem hrest
    have hcut : before ++ .ofChar '=' :: (middle ++ .ofChar '(' :: behind)
        = (before ++ .ofChar '=' :: middle) ++ .ofChar '(' :: behind := by simp
    rw [hcut] at hmember
    refine parseMember_eq_none hmember ?_ (memberHead?_equals (by simp) className)
    simp [hbefore, hmiddle]
  · refine parseMember_of_not_mem hmember ?_
    simp [hbefore, hrest]

/-- A field, an accessor or an operator is never read as a method, and it is passed over exactly
when the scanner can read it. -/
theorem parseMember_text (m : OtherMember) {className member : Text}
    (hmember : withoutMarkers member = .ok m.text) :
    (parseMember className member = .ok none ↔ m.isRead className)
      ∧ ∀ method, parseMember className member ≠ .ok (some method) := by
  cases m with
  | plain t hparen => exact passed_of_none (parseMember_of_not_mem hmember hparen) trivial
  | valued before rest hparen => exact passed_of_none (parseMember_valued hparen hmember) trivial
  | accessor a =>
      have hhead := memberHead?_keyword a.keyword_mem_words a.keyword_mem_otherKeywords className
      exact passed_of_none (parseMember_eq_none hmember a.not_mem_header hhead) trivial
  | operator o =>
      by_cases hmisread : o.isMisread
      · have herror := o.memberHead?_misread hmisread className
        exact passed_of_error (parseMember_eq_error hmember o.not_mem_header herror)
          fun h => h hmisread
      · have hhead := o.memberHead?_header hmisread className
        exact passed_of_none (parseMember_eq_none hmember o.not_mem_header hhead) hmisread
  | functionTyped f => exact f.parseMember_text hmember

/-- **Fields, accessors and operators are no methods.** None is ever read as a method. Exactly those
that the scanner can read are passed over, and then the methods of the class are those of the other
members. -/
theorem parseMember_eq_none_iff (m : OtherMember) {className member : Text}
    (hmember : withoutMarkers member = .ok m.text) :
    (parseMember className member = .ok none ↔ m.isRead className)
      ∧ (∀ method, parseMember className member ≠ .ok (some method))
      ∧ (m.isRead className → ∀ (body : Text) (before after : List Text),
          splitMembers body = before ++ member :: after →
          methodsOf className body
            = ((before ++ after).mapM (parseMember className)).map
              fun found => found.filterMap id) := by
  obtain ⟨hiff, hmethod⟩ := m.parseMember_text hmember
  refine ⟨hiff, hmethod, fun hread body before after hbody => ?_⟩
  exact methodsOf_of_none (hiff.2 hread) hbody

/-- A parameter with a name. -/
def itemParameter : Item where
  text := "T item".toText
  trimmed := ⟨rfl, rfl⟩
  bracketed := .of_forall (by decide)

/-- A nullable one. -/
def sizeParameter : Item where
  text := "int? size".toText
  trimmed := ⟨rfl, rfl⟩
  bracketed := .of_forall (by decide)

/-- A map of functions with a type parameter and a named parameter. -/
def handlers : FunctionTyped where
  header := "final Map<String, void Function".toText ++ .ofChar '<' :: ("T".toText ++ [.ofChar '>'])
  closed := .angle (.of_forall (by decide))
  not_mem := by decide
  parts :=
    [{ itemParameter with
       parameters := [itemParameter.text]
       holds := .one rfl rfl },
     { before := Gap.space
       text := .ofChar '\x7b' :: (listText [sizeParameter] ++ [CodePoint.ofChar '\x7d'])
       trimmed := ⟨rfl, rfl⟩
       bracketed := .group rfl (bracketed_listText _) .nil
       parameters := [sizeParameter].map Item.text
       holds := .group rfl (by decide) }]
  behind := "> handlers;".toText
  not_method := by decide

theorem parseMember_handlers :
    parseMember "TaskApi".toText
      "final Map<String, void Function<T>(T item, \x7bint? size\x7d)> handlers;".toText
      = .ok none := by
  have hmember : withoutMarkers
      "final Map<String, void Function<T>(T item, \x7bint? size\x7d)> handlers;".toText
      = .ok (functionTyped handlers).text :=
    withoutMarkers_eq_self ⟨rfl, rfl⟩ rfl
  have hitem : IsNamed itemParameter.text :=
    ⟨⟨'m', rfl, by decide⟩, "T".toText, by decide, by decide +kernel⟩
  have hsize : IsNamed sizeParameter.text :=
    ⟨⟨'e', rfl, by decide⟩, "int?".toText, by decide, by decide +kernel⟩
  refine ((functionTyped handlers).parseMember_eq_none_iff hmember).1.2 fun _ => ?_
  refine List.forall_mem_cons.2 ⟨?_, List.forall_mem_singleton.2 ?_⟩
  · exact List.forall_mem_singleton.2 fun _ => hitem
  · exact List.forall_mem_singleton.2 fun _ => hsize

/-- A field of a function type in which a parameter has no name, and an operator right behind its
keyword, cannot be read. -/
theorem parseMember_unreadable :
    parseMember "TaskApi".toText "final void Function(int?) onChanged;".toText
        = .error (.reported (.namelessParameter "int?".toText))
      ∧ parseMember "TaskApi".toText "bool operator>(TaskApi other);".toText
        = .error (.reported (.unbalancedTypeParameters "bool operator>".toText)) := by
  constructor
  · have hmember : withoutMarkers "final void Function(int?) onChanged;".toText
        = .ok ("final void Function".toText
          ++ .ofChar '(' :: ("int?".toText ++ .ofChar ')' :: " onChanged;".toText)) :=
      withoutMarkers_eq_self ⟨rfl, rfl⟩ rfl
    have hhead : memberHead? "TaskApi".toText "final void Function".toText
        = .ok (some { name := "Function".toText, returnType := "final void".toText
                      typeParameters := [], concrete := false }) := rfl
    have hbracketed : Bracketed false "int?".toText := .of_forall (by decide)
    have htrimmed : Trimmed "int?".toText := ⟨rfl, rfl⟩
    have hmarkers : withoutMarkers "int?".toText = .ok "int?".toText :=
      withoutMarkers_eq_self htrimmed rfl
    have hdefaults : cutDefaults "int?".toText = ("int?".toText, .null) :=
      cutDefaults_eq_self (by decide) (.of_forall (by decide)) htrimmed (by decide)
    have hpart : parsePart "int?".toText
        = (parseParameter .positional "int?".toText).map fun p => [p] := rfl
    have hparameters : parseParameters "int?".toText
        = .error (.reported (.namelessParameter "int?".toText)) := by
      rw [parseParameters_of_level hbracketed.level htrimmed (by decide), hpart,
        parseParameter_eq hmarkers hdefaults]
      rfl
    rw [parseMember_eq_methodOf? hbracketed.balanced hmember (by decide) hhead, hparameters]
    rfl
  · have hmember : withoutMarkers "bool operator>(TaskApi other);".toText
        = .ok ("bool operator>".toText ++ .ofChar '(' :: "TaskApi other);".toText) :=
      withoutMarkers_eq_self ⟨rfl, rfl⟩ rfl
    have hhead : memberHead? "TaskApi".toText "bool operator>".toText
        = .error (.reported (.unbalancedTypeParameters "bool operator>".toText)) := rfl
    exact parseMember_eq_error hmember (by decide) hhead

end OtherMember

end DartDecoders
