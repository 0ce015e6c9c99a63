/-
Constructors among the members of a class.

A constructor may have one of three modifiers and is named by the class, perhaps with a dot and an
identifier behind it. Five of the six forms are recognised, each by another test: a factory by its
keyword, an unnamed constructor by its name, a named one by the start of its header, where the
modifier of an external one has been taken off. The sixth is taken for a method: the header of a
named constant constructor starts with its modifier and not with the class
(`Constructor.parseMember_header`). So the methods of a class do not depend on its constructors
unless one of them is of that form.
-/
import DartDecoders.Proofs.MemberHeads

set_option autoImplicit false

namespace DartDecoders

open Text TypeExpr Source

/-- The modifiers of constructors. -/
inductive ConstructorModifier where
  | constant
  | external
  | factory
  deriving DecidableEq

/-- The word of a modifier. -/
def ConstructorModifier.text : ConstructorModifier → Text
  | .constant => "const".toText
  | .external => "external".toText
  | .factory => "factory".toText

/-- What stands before the parameters of a constructor: perhaps a modifier with white space behind
it, the class, perhaps a dot and the constructor's own name, and perhaps white space. -/
structure Constructor where
  modifier : Option ConstructorModifier := none
  between : Gap := Gap.space
  between_ne_nil : between.text ≠ [] := by decide
  className : Word
  ownName : Option Identifier := none
  after : Gap := Gap.none

namespace Constructor

/-- The name with which the constructor is called. -/
def name (k : Constructor) : Text :=
  k.className.text ++ k.ownName.elim [] fun n => .ofChar '.' :: n.text

/-- The header of the constructor. -/
def header (k : Constructor) : Text :=
  (k.modifier.elim [] fun m => m.text ++ k.between.text) ++ (k.name ++ k.after.text)

/-- What is taken for the head of a method: the word at the end of the own name of a constant
constructor, unless that is the class. All before the word is taken for the type. -/
def mistaken? (k : Constructor) : Option MemberHead :=
  match k.modifier, k.ownName with
  | some .constant, some n =>
    (n.lastWord?.filter fun found => found.2 != k.className.text).map fun found =>
      { name := found.2
        returnType := "const ".toText ++ (k.className.text ++ .ofChar '.' :: found.1)
        typeParameters := []
        concrete := false }
  | _, _ => none

variable (k : Constructor)

/-! ## The header -/

theorem name_isNameChar : ∀ c ∈ k.name, isNameChar c = true := by
  refine List.forall_mem_append.2 ⟨k.className.isNameChar, ?_⟩
  cases k.ownName with
  | none => simp
  | some n => exact List.forall_mem_cons.2 ⟨rfl, n.isNameChar⟩

theorem name_ne_nil : k.name ≠ [] := by
  simp [name, k.className.ne_nil]

/-- The words of the header. -/
theorem words_header :
    words k.header = (k.modifier.elim [] fun m => [m.text]) ++ [k.name] := by
  have hname : words (k.name ++ k.after.text) = [k.name] := by
    rw [words_append_gap k.after.blank, words_of_forall k.name_ne_nil fun c hc =>
      isBlank_of_isNameChar (k.name_isNameChar c hc)]
  rw [header]
  cases k.modifier with
  | none => exact hname
  | some m =>
      have hmodifier : words m.text = [m.text] := by
        cases m <;> exact words_of_forall (by decide) (by decide)
      rw [Option.elim_some, List.append_assoc,
        words_append_gap_append k.between.blank k.between_ne_nil, hmodifier, hname]
      rfl

/-- Neither an equals sign nor a parenthesis stands in the header. -/
theorem not_mem_header {c : CodePoint} (hname : isNameChar c = false) (hblank : isBlank c = false) :
    c ∉ k.header := by
  have hgap : ∀ g : Gap, c ∉ g.text := by
    intro g hc
    rw [g.blank c hc] at hblank
    cases hblank
  have hown : c ∉ k.name := fun hc => by
    rw [k.name_isNameChar c hc] at hname
    cases hname
  rw [header, List.mem_append, List.mem_append]
  rintro (hc | hc | hc)
  · cases hmodifier : k.modifier with
    | none =>
        rw [hmodifier] at hc
        cases hc
    | some m =>
        rw [hmodifier] at hc
        rcases List.mem_append.1 hc with hc | hc
        · have hchars : ∀ d ∈ m.text, isNameChar d = true := by cases m <;> decide
          rw [hchars c hc] at hname
          cases hname
        · exact hgap k.between hc
  · exact hown hc
  · exact hgap k.after hc

/-! ## Names -/

/-- A name with a dot is no word of the scanner's lists. -/
theorem name_not_mem {n : Identifier} (hown : k.ownName = some n) {keywords : List Text}
    (hkeywords : ∀ w ∈ keywords, .ofChar '.' ∉ w) : k.name ∉ keywords := by
  intro hmem
  refine hkeywords _ hmem ?_
  rw [name, hown]
  simp

/-- The name of a constructor declares no method: it is the class, or starts with it and a dot. -/
theorem declaredHead?_name (typeParameters : Text) (concrete : Bool) :
    declaredHead? k.className.text k.name typeParameters concrete = none := by
  cases hown : k.ownName with
  | none =>
      have hname : k.name = k.className.text := by simp [name, hown]
      rw [hname, declaredHead?, splitLastWord?_word k.className.ne_nil k.className.chars]
      simp
  | some n =>
      refine declaredHead?_qualified ⟨n.text, ?_⟩ typeParameters concrete
      simp [name, hown]

/-- No class and a dot stand at the start of a text that starts with another word and a space. -/
theorem not_qualified (className : Word) (rest : Text) :
    ¬ className.text ++ [.ofChar '.'] <+: "const".toText ++ .ofChar ' ' :: rest := by
  intro hprefix
  obtain ⟨others, hothers⟩ := qualifier_prefix_of_space className.chars hprefix
  have hdot : .ofChar '.' ∈ "const".toText := by
    rw [← hothers]
    simp
  exact absurd hdot (by decide)

/-- The modifier of a constant constructor is read into the type, up to the own name. -/
theorem trim_constant (className : Word) {before : Text}
    (hbefore : ∀ c ∈ before, isBlank c = false) :
    trim ("const ".toText ++ className.text ++ .ofChar '.' :: before)
      = "const ".toText ++ (className.text ++ .ofChar '.' :: before) := by
  have hconst : Trimmed "const".toText := Trimmed.of_forall (by decide)
  have hdotted : Trimmed ('.' :: before) :=
    Trimmed.of_forall (List.forall_mem_cons.2 ⟨by decide, hbefore⟩)
  rw [List.append_assoc]
  exact (hconst.around hdotted (by decide) (by simp) (' ' :: className.text)).trim_eq

/-- Behind the modifier of a constant constructor the class is still told by its name, but not by
the dot behind it. -/
theorem declaredHead?_constant (hconstant : k.modifier = some .constant) :
    declaredHead? k.className.text ("const ".toText ++ k.name) [] false = k.mistaken? := by
  cases hown : k.ownName with
  | none =>
      have hname :
          "const ".toText ++ k.name = "const".toText ++ .ofChar ' ' :: k.className.text := by
        simp [name, hown, String.toText, ofChars]
      rw [hname, declaredHead?, splitLastWord?_append k.className.ne_nil k.className.chars,
        mistaken?, hconstant, hown]
      simp
  | some n =>
      have hname : "const ".toText ++ k.name
          = ("const ".toText ++ k.className.text) ++ .ofChar '.' :: n.text := by
        simp [name, hown]
      have hlast := n.splitLastWord?_behind (c := '.') (by decide)
        ("const ".toText ++ k.className.text)
      rw [← hname] at hlast
      simp only [mistaken?, hconstant, hown]
      cases hfound : n.lastWord? with
      | none =>
          rw [hfound] at hlast
          rw [declaredHead?, hlast]
          rfl
      | some found =>
          obtain ⟨before, word⟩ := found
          have hsplit := append_of_splitLastWord? n.trimmed.finish hfound
          have hbefore : ∀ c ∈ before, isBlank c = false := fun c hc =>
            n.isBlank c (hsplit ▸ List.mem_append_left word hc)
          have hstart : "const ".toText ++ (k.className.text ++ .ofChar '.' :: before)
              <+: "const ".toText ++ k.name := by
            rw [hname, ← hsplit]
            exact ⟨word, by simp⟩
          rw [hfound] at hlast
          rw [declaredHead?_typed hlast (trim_constant k.className hbefore) (by simp) hstart
            (not_qualified k.className _)]
          by_cases hclass : word = k.className.text <;> simp [Option.filter, hclass]

/-! ## Reading a constructor -/

theorem mistaken?_of_ne (h : k.modifier ≠ some .constant) : k.mistaken? = none := by
  unfold mistaken?
  split
  · next heq _ => exact absurd heq h
  · rfl

theorem mistaken?_of_unnamed (h : k.ownName = none) : k.mistaken? = none := by
  unfold mistaken?
  split
  · next heq =>
      rw [h] at heq
      cases heq
  · rfl

/-- No keyword is among the words of a constructor that is taken for a method. -/
theorem mistaken?_of_keyword {w : Text} (hw : w ∈ words k.header) (hkeyword : w ∈ otherKeywords) :
    k.mistaken? = none := by
  by_cases hconstant : k.modifier = some .constant
  · cases hown : k.ownName with
    | none => exact k.mistaken?_of_unnamed hown
    | some n =>
        rw [k.words_header, hconstant, Option.elim_some, List.singleton_append, List.mem_cons,
          List.mem_singleton] at hw
        -- the two words are the modifier and the name, and the name has a dot
        rcases hw with rfl | rfl
        · exact absurd hkeyword (by decide +kernel)
        · exact absurd hkeyword (k.name_not_mem hown (by decide))
  · exact k.mistaken?_of_ne hconstant

/-- Where the modifiers are taken off, what is left is the name, or nothing when the class is named
like a modifier. Neither declares a method. -/
theorem memberHead?_of_dropWhile (hkeywords : ∀ w ∈ words k.header, w ∉ otherKeywords)
    (hdrop : (words k.header).dropWhile methodModifiers.contains
      = [k.name].dropWhile methodModifiers.contains) :
    memberHead? k.className.text k.header = .ok none := by
  have hequals : .ofChar '=' ∉ k.header := k.not_mem_header (by decide) (by decide)
  -- a class may be named like a modifier, and then its name goes with the others
  by_cases hmodifier : k.name ∈ methodModifiers
  · have hdeclared : declaredText k.header = [] := by
      rw [declaredText, hdrop, List.dropWhile_cons_of_pos (List.contains_iff_mem.2 hmodifier)]
      rfl
    have hsplit : splitTypeParameters (declaredText k.header) = .ok ([], []) := by
      rw [hdeclared]
      rfl
    rw [memberHead?_eq hequals hkeywords hsplit]
    rfl
  · have hdeclared : declaredText k.header = k.name := by
      rw [declaredText, hdrop, List.dropWhile_cons_of_neg (by simpa using hmodifier),
        join_singleton]
    have hsplit : splitTypeParameters (declaredText k.header) = .ok (k.name, []) := by
      rw [hdeclared]
      exact splitTypeParameters_name k.name_ne_nil k.name_isNameChar []
    rw [memberHead?_eq hequals hkeywords hsplit, k.declaredHead?_name]

/-- The modifier of a constant constructor is not taken off. -/
theorem memberHead?_constant (hconstant : k.modifier = some .constant)
    (hkeywords : ∀ w ∈ words k.header, w ∉ otherKeywords) :
    memberHead? k.className.text k.header = .ok k.mistaken? := by
  have hwords := k.words_header
  rw [hconstant, Option.elim_some, List.singleton_append] at hwords
  have hequals : .ofChar '=' ∉ k.header := k.not_mem_header (by decide) (by decide)
  have hconst : ¬ methodModifiers.contains ConstructorModifier.constant.text = true := by
    decide +kernel
  have hdeclared : declaredText k.header = "const ".toText ++ k.name := by
    rw [declaredText, hwords, List.dropWhile_cons_of_neg hconst, join_cons_cons, join_singleton]
    rfl
  have hconcrete : isConcrete k.header = false := by
    rw [isConcrete, hwords, List.takeWhile_cons_of_neg hconst]
    rfl
  have hsplit : splitTypeParameters (declaredText k.header)
      = .ok ("const ".toText ++ k.name, []) := by
    rw [hdeclared]
    exact splitTypeParameters_name k.name_ne_nil k.name_isNameChar _
  rw [memberHead?_eq hequals hkeywords hsplit, hconcrete, k.declaredHead?_constant hconstant]

/-- Of all constructors only a named constant one has the header of a method. -/
theorem memberHead?_header : memberHead? k.className.text k.header = .ok k.mistaken? := by
  have hwords := k.words_header
  -- the keyword is that of a factory, or the class is named like a keyword
  by_cases hkeyword : ∃ w ∈ words k.header, w ∈ otherKeywords
  · obtain ⟨w, hw, hmem⟩ := hkeyword
    rw [memberHead?_keyword hw hmem, k.mistaken?_of_keyword hw hmem]
  · have hkeywords : ∀ w ∈ words k.header, w ∉ otherKeywords := fun w hw hmem =>
      hkeyword ⟨w, hw, hmem⟩
    cases hmodifier : k.modifier with
    | none =>
        rw [hmodifier, Option.elim_none, List.nil_append] at hwords
        rw [k.memberHead?_of_dropWhile hkeywords (by rw [hwords]),
          k.mistaken?_of_ne (by simp [hmodifier])]
    | some m =>
        rw [hmodifier, Option.elim_some, List.singleton_append] at hwords
        cases m with
        | constant => exact k.memberHead?_constant hmodifier hkeywords
        | external =>
            have hexternal : methodModifiers.contains ConstructorModifier.external.text = true := by
              decide +kernel
            rw [k.memberHead?_of_dropWhile hkeywords
              (by rw [hwords, List.dropWhile_cons_of_pos hexternal]),
              k.mistaken?_of_ne (by simp [hmodifier])]
        | factory =>
            refine absurd ?_ (hkeywords "factory".toText ?_)
            · decide +kernel
            · rw [hwords]
              exact List.mem_cons_self

/-- **Constructors are no methods**, except named constant ones. Behind its annotations a
constructor is passed over whatever its parameters and its end are, and the methods of the class are
those of the other members. A named constant constructor is read as a method of that name when it
ends as one. -/
theorem parseMember_header {member inner behind : Text} (hinner : Balanced inner)
    (hmember :
      withoutMarkers member = .ok (k.header ++ .ofChar '(' :: (inner ++ .ofChar ')' :: behind))) :
    match k.mistaken? with
    | none =>
      parseMember k.className.text member = .ok none
        ∧ ∀ (body : Text) (before after : List Text),
          splitMembers body = before ++ member :: after →
          methodsOf k.className.text body
            = ((before ++ after).mapM (parseMember k.className.text)).map
              fun found => found.filterMap id
    | some head =>
      parseMember k.className.text member
        = (parseParameters inner).map (methodOf? head behind) := by
  have hparen : .ofChar '(' ∉ k.header := k.not_mem_header (by decide) (by decide)
  have hhead := k.memberHead?_header
  cases hmistaken : k.mistaken? with
  | none =>
      rw [hmistaken] at hhead
      have hnone := parseMember_eq_none hmember hparen hhead
      exact ⟨hnone, fun body before after hbody => methodsOf_of_none hnone hbody⟩
  | some head =>
      rw [hmistaken] at hhead
      exact parseMember_eq_methodOf? hinner hmember hparen hhead

/-- An external constructor with a name of its own, in which there is a dollar sign. -/
def taskApiOf : Constructor where
  modifier := some .external
  className := taskApi
  ownName := some ⟨"of$".toText, by decide, by decide, rfl⟩

theorem parseMember_header_taskApiOf :
    parseMember "TaskApi".toText "external TaskApi.of$(List<Task> all) : this(all);".toText
      = .ok none := by
  have hmember : withoutMarkers "external TaskApi.of$(List<Task> all) : this(all);".toText
      = .ok (taskApiOf.header
        ++ .ofChar '(' :: ("List<Task> all".toText ++ .ofChar ')' :: " : this(all);".toText)) :=
    withoutMarkers_eq_self ⟨rfl, rfl⟩ rfl
  have hinner : Balanced "List<Task> all".toText := .of_forall (by decide) (by decide)
  exact (taskApiOf.parseMember_header hinner hmember).1

/-- A named constant constructor is read as an abstract method. -/
theorem exists_parseMember_constant :
    ∃ method, parseMember "TaskApi".toText "const TaskApi.named();".toText = .ok (some method)
      ∧ method.name = .str "named".toText ∧ method.isAbstract = true := by
  have hmember : withoutMarkers "const TaskApi.named();".toText
      = .ok ("const TaskApi.named".toText ++ .ofChar '(' :: ([] ++ .ofChar ')' :: [.ofChar ';'])) :=
    withoutMarkers_eq_self ⟨rfl, rfl⟩ rfl
  have hhead : memberHead? "TaskApi".toText "const TaskApi.named".toText
      = .ok (some { name := "named".toText, returnType := "const TaskApi.".toText
                    typeParameters := [], concrete := false }) := rfl
  have hparameters : parseParameters [] = .ok [] := by
    rw [parseParameters, splitTopLevel, pieces_nil]
    rfl
  have hread := parseMember_eq_methodOf? (.of_forall (by simp) (by simp)) hmember (by decide) hhead
  rw [hparameters] at hread
  exact ⟨_, hread, rfl, rfl⟩

end Constructor

end DartDecoders
