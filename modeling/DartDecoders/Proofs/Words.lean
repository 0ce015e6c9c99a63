/-
Words, and texts that are their words with single spaces between them.

Scanning a declaration takes a text apart into words and puts the words together again with single
spaces. That loses nothing when the text is written with single spaces to begin with (`Spaced`), and
such texts can be put together: side by side with a space between them, in lists with commas
(`Enclosed`), and between brackets. The brackets and commas are also what keeps a keyword from
showing up by accident: a word that holds a character no keyword has is none, so the only words to
fear are the names. Where the spaces are any, the words and the last character are still the same
(`join_dropWhile_words`).
-/
import Mathlib.Data.List.TakeWhile
import DartDecoders.Proofs.Runs

set_option autoImplicit false

namespace DartDecoders

namespace Text

/-! ## Joining -/

theorem join_cons_cons (separator part next : Text) (rest : List Text) :
    join separator (part :: next :: rest)
      = part ++ (separator ++ join separator (next :: rest)) := by
  rw [join, List.intercalate_cons_cons, List.append_assoc]
  rfl

theorem join_singleton (separator part : Text) : join separator [part] = part :=
  List.intercalate_singleton

theorem join_append {separator : Text} {parts others : List Text} (hparts : parts ≠ [])
    (hothers : others ≠ []) :
    join separator (parts ++ others)
      = join separator parts ++ (separator ++ join separator others) := by
  induction parts with
  | nil => exact absurd rfl hparts
  | cons part rest ih =>
      cases rest with
      | nil =>
          obtain ⟨next, others, rfl⟩ := List.exists_cons_of_ne_nil hothers
          rw [List.singleton_append, join_cons_cons, join_singleton]
      | cons next rest =>
          rw [List.cons_append, List.cons_append, join_cons_cons, ← List.cons_append,
            ih (List.cons_ne_nil _ _), join_cons_cons]
          simp only [List.append_assoc]

theorem join_ne_nil {separator part : Text} (hne : part ≠ []) (rest : List Text) :
    join separator (part :: rest) ≠ [] := by
  cases rest with
  | nil => rwa [join_singleton]
  | cons next rest =>
      rw [join_cons_cons]
      exact List.append_ne_nil_of_left_ne_nil hne _

/-- Texts without white space at their ends put together have none there either. -/
theorem trimmed_join {separator : Text} {parts : List Text}
    (h : ∀ part ∈ parts, Trimmed part ∧ part ≠ []) : Trimmed (join separator parts) := by
  induction parts with
  | nil => exact ⟨trivial, trivial⟩
  | cons part rest ih =>
      obtain ⟨hpart, hne⟩ := h part List.mem_cons_self
      have hrest := ih fun u hu => h u (List.mem_cons_of_mem part hu)
      cases rest with
      | nil => rwa [join_singleton]
      | cons next rest =>
          have hnext := (h next (by simp)).2
          rw [join_cons_cons]
          exact hpart.around hrest hne (join_ne_nil hnext rest) separator

theorem mem_join {separator : Text} {parts : List Text} {c : CodePoint}
    (h : c ∈ join separator parts) : c ∈ separator ∨ ∃ part ∈ parts, c ∈ part := by
  induction parts with
  | nil => cases h
  | cons part rest ih =>
      cases rest with
      | nil =>
          rw [join_singleton] at h
          exact .inr ⟨part, List.mem_cons_self, h⟩
      | cons next rest =>
          rw [join_cons_cons, List.mem_append, List.mem_append] at h
          rcases h with h | h | h
          · exact .inr ⟨part, List.mem_cons_self, h⟩
          · exact .inl h
          · rcases ih h with hin | ⟨other, hmem, hc⟩
            · exact .inl hin
            · exact .inr ⟨other, List.mem_cons_of_mem part hmem, hc⟩

/-! ## Words -/

theorem words_ne_nil {c : CodePoint} (hc : isBlank c = false) (t : Text) : words (c :: t) ≠ [] := by
  cases t with
  | nil => simp [words, hc]
  | cons d rest =>
      rw [words]
      simp only [hc, Bool.false_eq_true, if_false]
      split
      · simp
      · split <;> simp

/-- White space at the start of a text belongs to no word. -/
theorem words_cons_blank {c : CodePoint} (hc : isBlank c = true) (t : Text) :
    words (c :: t) = words t := by
  cases t with
  | nil => simp [words, hc]
  | cons d rest => simp [words, hc]

/-- White space ends a word. Everything about words follows from this equation. -/
theorem words_append_blank {c : CodePoint} (hc : isBlank c = true) (t u : Text) :
    words (t ++ c :: u) = words t ++ words u := by
  fun_induction words t with
  | case1 => exact words_cons_blank hc u
  | case2 d hd =>
      rw [List.singleton_append, words_cons_blank hd, words_cons_blank hc]
      rfl
  | case3 d hd =>
      rw [List.singleton_append, words]
      simp [hd, hc, words_cons_blank hc]
  | case4 d e rest hd ih =>
      rw [List.cons_append, words_cons_blank hd]
      exact ih
  | case5 d e rest hd he ih =>
      rw [List.cons_append, List.cons_append, words]
      simp only [hd, he, Bool.false_eq_true, if_false, if_true]
      rw [← List.cons_append, ih]
      rfl
  | case6 d e rest hd he word others hwords ih =>
      rw [List.cons_append, List.cons_append, words]
      rw [← List.cons_append, ih, hwords]
      simp [hd, he]
  -- a visible character always starts a word
  | case7 d e rest hd he hwords ih => exact absurd hwords (words_ne_nil (by simpa using he) rest)

/-- White space at the start of a text belongs to no word. -/
theorem words_gap_append {gap : Text} (hgap : ∀ c ∈ gap, isBlank c = true) (t : Text) :
    words (gap ++ t) = words t := by
  induction gap with
  | nil => rfl
  | cons c gap ih =>
      rw [List.cons_append, words_cons_blank (hgap c List.mem_cons_self),
        ih fun d hd => hgap d (List.mem_cons_of_mem c hd)]

/-- White space between two texts separates their words. -/
theorem words_append_gap_append {gap : Text} (hgap : ∀ c ∈ gap, isBlank c = true) (hne : gap ≠ [])
    (t u : Text) : words (t ++ (gap ++ u)) = words t ++ words u := by
  obtain ⟨c, gap, rfl⟩ := List.exists_cons_of_ne_nil hne
  rw [List.cons_append, words_append_blank (hgap c List.mem_cons_self),
    words_gap_append fun d hd => hgap d (List.mem_cons_of_mem c hd)]

/-- White space at the end of a text belongs to no word. -/
theorem words_append_gap {gap : Text} (hgap : ∀ c ∈ gap, isBlank c = true) (t : Text) :
    words (t ++ gap) = words t := by
  by_cases hne : gap = []
  · rw [hne, List.append_nil]
  · have hwords := words_append_gap_append hgap hne t []
    rwa [List.append_nil, words, List.append_nil] at hwords

/-- Where a text is empty or ends in white space, a word starts behind it. -/
theorem words_append_of_stopsAt {t : Text} (ht : StopsAt (fun c => !isBlank c) t.reverse)
    (u : Text) : words (t ++ u) = words t ++ words u := by
  by_cases hnil : t = []
  · rw [hnil]
    rfl
  · obtain ⟨before, c, rfl⟩ := exists_concat_of_ne_nil hnil
    have hc : isBlank c = true := by
      rw [List.reverse_append] at ht
      simpa using (show (!isBlank c) = false from ht)
    have hend := words_append_blank hc before []
    rw [words, List.append_nil] at hend
    rw [List.append_assoc, List.singleton_append, words_append_blank hc, hend]

/-- A text with no white space in it is one word. -/
theorem words_of_forall {t : Text} (hne : t ≠ []) (h : ∀ c ∈ t, isBlank c = false) :
    words t = [t] := by
  induction t with
  | nil => exact absurd rfl hne
  | cons c t ih =>
      have hc := h c List.mem_cons_self
      cases t with
      | nil => simp [words, hc]
      | cons d rest =>
          have hd := h d (List.mem_cons_of_mem _ List.mem_cons_self)
          rw [words, ih (List.cons_ne_nil _ _) fun e he => h e (List.mem_cons_of_mem _ he)]
          simp [hc, hd]

/-! ## Words that are left out -/

/-- The words of a text hold its visible characters in order. -/
theorem flatten_words (t : Text) : (words t).flatten = t.filter fun c => !isBlank c := by
  fun_induction words t with
  | case1 => rfl
  | case2 c hc => simp [hc]
  | case3 c hc => simp [hc]
  | case4 c d rest hc ih =>
      have hskip : (c :: d :: rest).filter (fun e => !isBlank e)
          = (d :: rest).filter fun e => !isBlank e :=
        List.filter_cons_of_neg (by simp [hc])
      rw [ih, hskip]
  | case5 c d rest hc hd ih =>
      have hkeep : (c :: d :: rest).filter (fun e => !isBlank e)
          = c :: (d :: rest).filter fun e => !isBlank e :=
        List.filter_cons_of_pos (by simp [hc])
      rw [List.flatten_cons, ih, hkeep]
      rfl
  | case6 c d rest hc hd word others hwords ih =>
      have hkeep : (c :: d :: rest).filter (fun e => !isBlank e)
          = c :: (d :: rest).filter fun e => !isBlank e :=
        List.filter_cons_of_pos (by simp [hc])
      rw [hwords] at ih
      rw [List.flatten_cons, List.cons_append, ← List.flatten_cons, ih, hkeep]
  -- a visible character always starts a word
  | case7 c d rest hc hd hwords ih => exact absurd hwords (words_ne_nil (by simpa using hd) rest)

/-- A visible character at the end of a text ends its last word. -/
theorem exists_words_concat {c : CodePoint} (hc : isBlank c = false) (t : Text) :
    ∃ (others : List Text) (w : Text), words (t ++ [c]) = others ++ [w ++ [c]] := by
  induction t with
  | nil => exact ⟨[], [], by simp [words, hc]⟩
  | cons d t ih =>
      obtain ⟨others, w, ih⟩ := ih
      by_cases hd : isBlank d = true
      · exact ⟨others, w, by rw [List.cons_append, words_cons_blank hd, ih]⟩
      · obtain ⟨e, rest, hrest⟩ := List.exists_cons_of_ne_nil
          (List.append_ne_nil_of_right_ne_nil t (List.cons_ne_nil c []))
        rw [hrest] at ih
        rw [List.cons_append, hrest, words, ih, if_neg hd]
        by_cases he : isBlank e = true
        · exact ⟨[d] :: others, w, by rw [if_pos he]; rfl⟩
        · rw [if_neg he]
          cases others with
          | nil => exact ⟨[], d :: w, rfl⟩
          | cons o others => exact ⟨(d :: o) :: others, w, rfl⟩

/-- Joined words end as the last of them does. -/
theorem exists_join_concat (others : List Text) (w : Text) (c : CodePoint) :
    ∃ before : Text, join [' '] (others ++ [w ++ [c]]) = before ++ [c] := by
  by_cases hnil : others = []
  · exact ⟨w, by rw [hnil, List.nil_append, join_singleton]⟩
  · refine ⟨join [' '] others ++ ([.ofChar ' '] ++ w), ?_⟩
    rw [join_append hnil (by simp), join_singleton]
    simp only [List.append_assoc]

/-- Words at the start of a text that are left out leave nothing, or a text with the same end. -/
theorem join_dropWhile_words {c : CodePoint} (hc : isBlank c = false) (p : Text → Bool) (t : Text) :
    ((∀ w ∈ words (t ++ [c]), p w = true) ∧ join [' '] ((words (t ++ [c])).dropWhile p) = [])
      ∨ ((∃ w ∈ words (t ++ [c]), p w = false)
        ∧ ∃ before : Text, join [' '] ((words (t ++ [c])).dropWhile p) = before ++ [c]) := by
  by_cases hall : ∀ w ∈ words (t ++ [c]), p w = true
  · refine .inl ⟨hall, ?_⟩
    rw [List.dropWhile_eq_nil_iff.2 hall]
    rfl
  · obtain ⟨others, w, hwords⟩ := exists_words_concat hc t
    have hne : (words (t ++ [c])).dropWhile p ≠ [] := fun hnil =>
      hall (List.dropWhile_eq_nil_iff.1 hnil)
    obtain ⟨dropped, hdropped⟩ := List.dropWhile_suffix (l := words (t ++ [c])) p
    obtain ⟨left, last, hleft⟩ := exists_concat_of_ne_nil hne
    have hlast : last = w ++ [c] := by
      rw [hleft, hwords, ← List.append_assoc] at hdropped
      have hpair := List.append_inj' hdropped rfl
      exact (List.cons.inj hpair.2).1
    obtain ⟨before, hbefore⟩ := exists_join_concat left w c
    refine .inr ⟨by simpa using hall, before, ?_⟩
    rw [hleft, hlast, hbefore]

/-- Joining adds spaces only. -/
theorem filter_join {p : CodePoint → Bool} (hp : p ' ' = false) (parts : List Text) :
    (join [' '] parts).filter p = parts.flatten.filter p := by
  induction parts with
  | nil => rfl
  | cons part rest ih =>
      cases rest with
      | nil => rw [join_singleton, List.flatten_cons, List.flatten_nil, List.append_nil]
      | cons next rest =>
          rw [join_cons_cons, List.filter_append, List.filter_append, ih,
            List.filter_cons_of_neg (by simp [hp]), List.filter_nil, List.nil_append,
            List.flatten_cons (l := part), List.filter_append]

/-- Of the visible characters that stand in no word that is left out, none is lost. -/
theorem filter_join_dropWhile {p : CodePoint → Bool} (hp : ∀ c, isBlank c = true → p c = false)
    {q : Text → Bool} (hq : ∀ w : Text, q w = true → ∀ c ∈ w, p c = false) (t : Text) :
    (join [' '] ((words t).dropWhile q)).filter p = t.filter p := by
  have hdropped : ((words t).takeWhile q).flatten.filter p = [] := by
    refine List.filter_eq_nil_iff.2 fun c hc => ?_
    obtain ⟨w, hw, hcw⟩ := List.mem_flatten.1 hc
    simpa using hq w (List.mem_takeWhile_imp hw) c hcw
  have hvisible : (t.filter fun c => !isBlank c).filter p = t.filter p := by
    rw [List.filter_filter]
    refine List.filter_congr fun c _ => ?_
    cases hblank : isBlank c with
    | false => simp
    | true => simp [hp c hblank]
  have hsplit := congrArg List.flatten (List.takeWhile_append_dropWhile (p := q) (l := words t))
  rw [filter_join (hp ' ' (by decide)), ← hvisible, ← flatten_words, ← hsplit,
    List.flatten_append, List.filter_append, hdropped, List.nil_append]

/-! ## The word at the end -/

/-- Whether a text ends in a word is decided by its last visible character. -/
theorem splitLastWord?_concat {c : CodePoint} (hc : isBlank c = false) (t : Text) :
    splitLastWord? (t ++ [c]) = none ↔ isWordChar c = false := by
  rw [splitLastWord?, trimEnd_concat hc, List.reverse_append, List.reverse_singleton,
    List.singleton_append]
  by_cases hword : isWordChar c = true
  · rw [List.takeWhile_cons_of_pos hword, hword]
    simp
  · rw [List.takeWhile_cons_of_neg hword]
    simpa using hword

/-- The name at the end of a text, behind a space. -/
theorem splitLastWord?_append {before name : Text} (hne : name ≠ [])
    (hname : ∀ c ∈ name, isWordChar c = true) :
    splitLastWord? (before ++ .ofChar ' ' :: name) = some (before ++ [.ofChar ' '], name) := by
  have hblank : ∀ c ∈ name, isBlank c = false := fun c hc =>
    isBlank_of_isNameChar (isNameChar_of_isWordChar (hname c hc))
  have hreverse : ∀ c ∈ name.reverse, isWordChar c = true := fun c hc =>
    hname c (List.mem_reverse.1 hc)
  have htrim : trimEnd (before ++ .ofChar ' ' :: name) = before ++ .ofChar ' ' :: name := by
    rw [List.append_cons]
    exact trimEnd_append hne (Trimmed.of_forall hblank).finish _
  have hbackwards :
      (before ++ .ofChar ' ' :: name).reverse = name.reverse ++ .ofChar ' ' :: before.reverse := by
    simp
  have hstop : StopsAt isWordChar (' ' :: before.reverse) := by
    show isWordChar ' ' = false
    decide
  obtain ⟨c, word, hword⟩ := List.exists_cons_of_ne_nil
    (show name.reverse ≠ [] by simpa using hne)
  rw [splitLastWord?, htrim, hbackwards]
  simp only [takeWhile_append_of_stopsAt hreverse hstop, dropWhile_append_of_stopsAt hreverse hstop]
  rw [hword]
  simp [← hword]

/-- A text without white space at its end is the word there behind what stands before it. -/
theorem append_of_splitLastWord? {t before word : Text} (ht : StopsAt isBlank t.reverse)
    (h : splitLastWord? t = some (before, word)) : before ++ word = t := by
  rw [splitLastWord?, trimEnd_eq_self ht] at h
  have hrun := List.takeWhile_append_dropWhile (p := isWordChar) (l := t.reverse)
  cases htake : t.reverse.takeWhile isWordChar with
  | nil =>
      rw [htake] at h
      cases h
  | cons c others =>
      rw [htake] at h hrun
      cases h
      have hreverse := congrArg List.reverse hrun
      simpa using hreverse

/-- The word at the end of a text is made of word characters. -/
theorem isWordChar_of_splitLastWord? {t before word : Text}
    (h : splitLastWord? t = some (before, word)) : ∀ c ∈ word, isWordChar c = true := by
  have hall := List.all_takeWhile (p := isWordChar) (l := (trimEnd t).reverse)
  rw [splitLastWord?] at h
  cases htake : (trimEnd t).reverse.takeWhile isWordChar with
  | nil =>
      rw [htake] at h
      cases h
  | cons d others =>
      rw [htake] at h hall
      cases h
      intro c hc
      exact List.all_eq_true.1 hall c (List.mem_reverse.1 hc)

/-- The word at the end of a text is looked for behind the last character that belongs to none. -/
theorem splitLastWord?_stop {c : CodePoint} (hc : isWordChar c = false) {t : Text} (hne : t ≠ [])
    (ht : StopsAt isBlank t.reverse) (before : Text) :
    splitLastWord? (before ++ c :: t)
      = (splitLastWord? t).map fun found => (before ++ c :: found.1, found.2) := by
  have hreverse : (before ++ c :: t).reverse = t.reverse ++ c :: before.reverse := by simp
  have htrim : trimEnd (before ++ c :: t) = before ++ c :: t := by
    rw [List.append_cons]
    exact trimEnd_append hne ht _
  have htake : (t.reverse ++ c :: before.reverse).takeWhile isWordChar
      = t.reverse.takeWhile isWordChar := by
    rw [List.takeWhile_append]
    split
    · next hall =>
        rw [List.takeWhile_cons_of_neg (by simp [hc]), List.append_nil]
        exact ((List.takeWhile_prefix isWordChar).eq_of_length hall).symm
    · rfl
  have hdrop : (t.reverse ++ c :: before.reverse).dropWhile isWordChar
      = t.reverse.dropWhile isWordChar ++ c :: before.reverse := by
    rw [List.dropWhile_append]
    split
    · next hempty =>
        rw [List.isEmpty_iff.1 hempty, List.dropWhile_cons_of_neg (by simp [hc])]
        rfl
    · rfl
  rw [splitLastWord?, splitLastWord?, htrim, trimEnd_eq_self ht, hreverse]
  simp only [htake, hdrop]
  cases t.reverse.takeWhile isWordChar with
  | nil => rfl
  | cons d word => simp

/-- A text of word characters is the word at its end. -/
theorem splitLastWord?_word {name : Text} (hne : name ≠ [])
    (hname : ∀ c ∈ name, isWordChar c = true) : splitLastWord? name = some ([], name) := by
  have hspace : splitLastWord? ([] ++ .ofChar ' ' :: name) = some ([] ++ [.ofChar ' '], name) :=
    splitLastWord?_append hne hname
  have hblank : ∀ c ∈ name, isBlank c = false := fun c hc =>
    isBlank_of_isNameChar (isNameChar_of_isWordChar (hname c hc))
  rw [splitLastWord?_stop (by decide) hne (Trimmed.of_forall hblank).finish] at hspace
  obtain ⟨⟨before, word⟩, hfound, hpair⟩ := Option.map_eq_some_iff.1 hspace
  obtain ⟨hbefore, rfl⟩ := Prod.mk.inj hpair
  rw [hfound]
  simpa using hbefore

/-- A space behind a trimmed text is trimmed off. -/
theorem trim_append_space {t : Text} (h : Trimmed t) : trim (t ++ [.ofChar ' ']) = t := by
  have hnil : ∀ c ∈ ([] : Text), isBlank c = true := by simp
  exact trim_between hnil h (by decide)

/-! ## Texts with single spaces -/

/-- The words that a declaration may not use as names: they mark members that are no methods, modify
methods, or modify parameters. -/
def reservedWords : List Text :=
  ["get", "set", "operator", "factory", "static", "external", "abstract", "required", "covariant",
    "final", "var", "const"].map String.toText

/-- Every character of a reserved word is one of names. -/
theorem isNameChar_of_mem_reservedWords {w : Text} (hw : w ∈ reservedWords) {c : CodePoint}
    (hc : c ∈ w) : TypeExpr.isNameChar c = true := by
  have hall : ∀ w ∈ reservedWords, ∀ c ∈ w, TypeExpr.isNameChar c = true := by decide +kernel
  exact hall w hw c hc

/-- A text is its words with single spaces between them, and none of them is reserved. -/
structure Worded (t : Text) : Prop where
  join_words : join [' '] (words t) = t
  ne_nil : words t ≠ []
  unreserved : ∀ w ∈ words t, w ∉ reservedWords

/-- A piece of a word that no reserved word holds: it has no white space and is empty or holds a
character that stands in no name. -/
structure Delimits (t : Text) : Prop where
  visible : ∀ c ∈ t, isBlank c = false
  marked : t = [] ∨ ∃ c ∈ t, TypeExpr.isNameChar c = false

theorem Delimits.nil : Delimits [] :=
  ⟨by simp, .inl rfl⟩

/-- What holds a character that stands in no name is delimiting, when it has no white space. -/
theorem Delimits.of_mem {t : Text} {c : CodePoint} (h : ∀ c ∈ t, isBlank c = false) (hc : c ∈ t)
    (hname : TypeExpr.isNameChar c = false) : Delimits t :=
  ⟨h, .inr ⟨c, hc, hname⟩⟩

theorem Delimits.append {t u : Text} (ht : Delimits t) (hu : Delimits u) : Delimits (t ++ u) := by
  refine ⟨?_, ?_⟩
  · exact List.forall_mem_append.2 ⟨ht.visible, hu.visible⟩
  · rcases ht.marked with rfl | ⟨c, hc, hname⟩
    · exact hu.marked
    · exact .inr ⟨c, List.mem_append_left u hc, hname⟩

theorem Worded.of_word {t : Text} (hne : t ≠ []) (h : ∀ c ∈ t, isBlank c = false)
    (hreserved : t ∉ reservedWords) : Worded t := by
  have hwords := words_of_forall hne h
  refine ⟨by rw [hwords, join_singleton], by rw [hwords]; simp, ?_⟩
  intro w hw
  rw [hwords, List.mem_singleton] at hw
  rwa [hw]

theorem Worded.space {t u : Text} (ht : Worded t) (hu : Worded u) :
    Worded (t ++ .ofChar ' ' :: u) := by
  have hwords := words_append_blank (c := ' ') (by decide) t u
  refine ⟨?_, ?_, ?_⟩
  · rw [hwords, join_append ht.ne_nil hu.ne_nil, ht.join_words, hu.join_words]
    rfl
  · rw [hwords]
    simp [ht.ne_nil]
  · rw [hwords]
    exact List.forall_mem_append.2 ⟨ht.unreserved, hu.unreserved⟩

/-- A text is written with single spaces and free of reserved words, also where brackets or commas
stand directly before and behind it. -/
def Spaced (t : Text) : Prop :=
  ∀ p s : Text, Delimits p → Delimits s → Worded (p ++ (t ++ s))

theorem Spaced.worded {t : Text} (h : Spaced t) : Worded t := by
  have hw := h [] [] Delimits.nil Delimits.nil
  rwa [List.append_nil] at hw

/-- One name with brackets or commas beside it. Either it is not reserved, or what stands behind it
keeps it from being so. -/
theorem Worded.of_name {p t s : Text} (hp : Delimits p) (hs : Delimits s) (hne : t ≠ [])
    (h : ∀ c ∈ t, TypeExpr.isNameChar c = true) (hreserved : t ∉ reservedWords ∨ s ≠ []) :
    Worded (p ++ (t ++ s)) := by
  have hvisible : ∀ c ∈ t ++ s, isBlank c = false :=
    List.forall_mem_append.2 ⟨fun c hc => isBlank_of_isNameChar (h c hc), hs.visible⟩
  refine Worded.of_word (by simp [hne]) (List.forall_mem_append.2 ⟨hp.visible, hvisible⟩) ?_
  -- the character that marks what stands beside the name is in no reserved word
  intro hmem
  rcases (hp.append hs).marked with hnil | ⟨c, hc, hname⟩
  · obtain ⟨rfl, rfl⟩ := List.append_eq_nil_iff.1 hnil
    rw [List.append_nil] at hmem
    rcases hreserved with hreserved | hs
    · exact hreserved hmem
    · exact hs rfl
  · have hword : c ∈ p ++ (t ++ s) := by
      rcases List.mem_append.1 hc with hc | hc <;> simp [hc]
    rw [isNameChar_of_mem_reservedWords hmem hword] at hname
    cases hname

/-- One name that is not reserved. -/
theorem Spaced.of_name {t : Text} (hne : t ≠ []) (h : ∀ c ∈ t, TypeExpr.isNameChar c = true)
    (hreserved : t ∉ reservedWords) : Spaced t :=
  fun _ _ hp hs => .of_name hp hs hne h (.inl hreserved)

theorem Spaced.space {t u : Text} (ht : Spaced t) (hu : Spaced u) :
    Spaced (t ++ .ofChar ' ' :: u) := by
  intro p s hp hs
  have hw := (ht p [] hp Delimits.nil).space (hu [] s Delimits.nil hs)
  rw [List.append_nil] at hw
  simpa only [List.append_assoc, List.cons_append, List.nil_append] using hw

/-- A text is written with single spaces and free of reserved words where a bracket or a comma
stands directly behind it. That may keep the text itself from being a reserved word. -/
def Enclosed (t : Text) : Prop :=
  ∀ p s : Text, Delimits p → Delimits s → s ≠ [] → Worded (p ++ (t ++ s))

theorem Spaced.enclosed {t : Text} (h : Spaced t) : Enclosed t :=
  fun p s hp hs _ => h p s hp hs

/-- One name, reserved or not. -/
theorem Enclosed.of_name {t : Text} (hne : t ≠ []) (h : ∀ c ∈ t, TypeExpr.isNameChar c = true) :
    Enclosed t :=
  fun _ _ hp hs hmarked => .of_name hp hs hne h (.inr hmarked)

/-- What stands before and behind an enclosed text, when there is something behind it, keeps all of
them free of reserved words. -/
theorem Enclosed.between {t u v : Text} (ht : Enclosed t) (hu : Delimits u) (hv : Delimits v)
    (hne : v ≠ []) : Spaced (u ++ (t ++ v)) := by
  intro p s hp hs
  have hw := ht (p ++ u) (v ++ s) (hp.append hu) (hv.append hs) (by simp [hne])
  simpa only [List.append_assoc] using hw

/-- Enclosed texts in a list with a comma and a space between neighbours. -/
theorem Enclosed.list {texts : List Text} (hne : texts ≠ []) (h : ∀ t ∈ texts, Enclosed t) :
    Enclosed (join [',', ' '] texts) := by
  induction texts with
  | nil => exact absurd rfl hne
  | cons t rest ih =>
      have ht := h t List.mem_cons_self
      cases rest with
      | nil => rwa [join_singleton]
      | cons u rest =>
          have hcomma : Delimits [','] := Delimits.of_mem (by decide) List.mem_cons_self (by decide)
          have hrest := ih (List.cons_ne_nil _ _) fun v hv => h v (List.mem_cons_of_mem _ hv)
          intro p s hp hs hmarked
          have hw := (ht p [','] hp hcomma (by simp)).space (hrest [] s Delimits.nil hs hmarked)
          rw [join_cons_cons]
          simpa only [List.append_assoc, List.cons_append, List.nil_append] using hw

end Text

end DartDecoders
