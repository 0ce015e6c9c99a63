/-
Texts without comments.

A source text may hold literals whose contents look like comments, so the absence of comments is
said along the way the text is cut: outside its literals there is no slash, and every literal is
closed on its line. Removing comments changes nothing in such a text. Two quotes followed by a
third one would open a tripled literal, so a literal is always followed by a character that is no
quote.
-/
import DartDecoders.Proofs.Runs
import DartDecoders.Source.Comment

set_option autoImplicit false

namespace DartDecoders

namespace Source

open Text

/-- The characters of a literal in single quotes that is taken as it is written. -/
def isPlainChar (c : CodePoint) : Bool :=
  c != '\'' && c != '\\' && c != '\n'

/-- There is no comment in the text, and every literal is in single quotes and closed on its line.
-/
inductive Uncommented : Text → Prop
  | nil : Uncommented []
  | char {c : CodePoint} {t : Text} : isQuote c = false → c ≠ '/' → Uncommented t →
    Uncommented (c :: t)
  | literal {s : Text} {c : CodePoint} {t : Text} : (∀ d ∈ s, isPlainChar d = true) →
    isQuote c = false → Uncommented (c :: t) →
      Uncommented (.ofChar '\'' :: (s ++ .ofChar '\'' :: c :: t))

theorem isPlainChar_iff {c : CodePoint} : isPlainChar c = true ↔
    c ≠ '\'' ∧ c ≠ '\\' ∧ c ≠ '\n' := by
  simp only [isPlainChar, Bool.and_eq_true, bne_iff_ne, and_assoc]

theorem Uncommented.append {t u : Text} (ht : Uncommented t) (hu : Uncommented u) :
    Uncommented (t ++ u) := by
  induction ht with
  | nil => exact hu
  | char hquote hslash _ ih => exact .char hquote hslash ih
  | literal hs hquote _ ih =>
      rw [List.cons_append, List.append_assoc, List.cons_append, List.cons_append]
      exact .literal hs hquote ih

/-- Text without quotes and slashes in front of a text without comments. -/
theorem Uncommented.prepend {t u : Text} (h : ∀ c ∈ t, isQuote c = false ∧ c ≠ '/')
    (hu : Uncommented u) : Uncommented (t ++ u) := by
  induction t with
  | nil => exact hu
  | cons c t ih =>
      obtain ⟨hquote, hslash⟩ := h c List.mem_cons_self
      exact .char hquote hslash (ih fun d hd => h d (List.mem_cons_of_mem c hd))

theorem Uncommented.of_forall {t : Text} (h : ∀ c ∈ t, isQuote c = false ∧ c ≠ '/') :
    Uncommented t := by
  have hprepend := Uncommented.prepend h .nil
  rwa [List.append_nil] at hprepend

/-! ## Tokens -/

theorem tokens_cons {c : CodePoint} {t : Text} (hquote : isQuote c = false) (hslash : c ≠ '/') :
    tokens (c :: t) = .char c :: tokens t := by
  have hcomment : afterComment? (c :: t) = none := by
    unfold afterComment?
    split
    · next heq => exact absurd (List.cons.inj heq).1 hslash
    · next heq => exact absurd (List.cons.inj heq).1 hslash
    · rfl
  rw [tokens]
  split
  · next after hafter => simp [hquote] at hafter
  · split
    · next after hafter =>
        rw [hcomment] at hafter
        cases hafter
    · rfl

/-- A character of a literal that is no backslash escapes nothing. -/
theorem afterClosedSimple?_cons (quote : CodePoint) {c : CodePoint} (hslash : c ≠ '\\')
    (rest : Text) :
    afterClosedSimple? quote (c :: rest)
      = if c == quote then some rest
        else if c == '\n' then none else afterClosedSimple? quote rest := by
  rw [afterClosedSimple?]
  · exact fun heq _ => hslash heq
  · exact fun _ _ heq _ => hslash heq

/-- What follows a literal that is closed on its line. -/
theorem afterClosedSimple?_append {s : Text} (h : ∀ d ∈ s, isPlainChar d = true) (rest : Text) :
    afterClosedSimple? '\'' (s ++ .ofChar '\'' :: rest) = some rest := by
  induction s with
  | nil =>
      have hslash : .ofChar '\'' ≠ CodePoint.ofChar '\\' := by decide
      rw [List.nil_append, afterClosedSimple?_cons '\'' hslash, if_pos (beq_self_eq_true _)]
  | cons d s ih =>
      obtain ⟨hquote, hslash, hbreak⟩ := isPlainChar_iff.1 (h d List.mem_cons_self)
      rw [List.cons_append, afterClosedSimple?_cons '\'' hslash, if_neg (by simpa using hquote),
        if_neg (by simpa using hbreak)]
      exact ih fun e he => h e (List.mem_cons_of_mem _ he)

theorem tokens_literal {s : Text} {c : CodePoint} {t : Text} (hs : ∀ d ∈ s, isPlainChar d = true)
    (hc : isQuote c = false) :
    tokens (.ofChar '\'' :: (s ++ .ofChar '\'' :: c :: t))
      = .literal ('\'' :: (s ++ [.ofChar '\''])) :: tokens (c :: t) := by
  have hother : StopsAt (· == '\'') (c :: t) := by
    refine beq_eq_false_iff_ne.2 ?_
    rintro rfl
    cases hc
  -- the literal is not read as a tripled one
  have htriple := isPrefixOf_quotes_eq_false (fun d hd => (isPlainChar_iff.1 (hs d hd)).1) hother
  have hafter : afterClosed? '\'' (s ++ .ofChar '\'' :: c :: t) = some (c :: t) := by
    rw [afterClosed?, htriple]
    exact afterClosedSimple?_append hs (c :: t)
  have htake : (.ofChar '\'' :: (s ++ .ofChar '\'' :: c :: t)).take
      ((s ++ .ofChar '\'' :: c :: t).length + 1 - (c :: t).length)
      = .ofChar '\'' :: (s ++ [.ofChar '\'']) := by
    have hsplit : .ofChar '\'' :: (s ++ .ofChar '\'' :: c :: t)
        = (.ofChar '\'' :: (s ++ [.ofChar '\''])) ++ (c :: t) := by simp
    rw [hsplit, List.take_left']
    simp only [List.length_append, List.length_cons, List.length_nil]
    omega
  rw [tokens]
  split
  · next after heq =>
      have hquote : isQuote '\'' = true := rfl
      rw [if_pos hquote, hafter] at heq
      cases heq
      rw [htake]
  · next heq =>
      have hquote : isQuote '\'' = true := rfl
      rw [if_pos hquote, hafter] at heq
      cases heq

/-- Removing comments from a text without comments changes nothing. -/
theorem stripComments_eq_self {t : Text} (h : Uncommented t) : stripComments t = t := by
  induction h with
  | nil => rw [stripComments, tokens]; rfl
  | @char c t hquote hslash _ ih =>
      rw [stripComments, tokens_cons hquote hslash, List.flatMap_cons]
      exact congrArg (c :: ·) ih
  | @literal s c t hs hc _ ih =>
      rw [stripComments, tokens_literal hs hc, List.flatMap_cons, Token.residue]
      rw [stripComments] at ih
      rw [ih]
      simp

end Source

end DartDecoders
