/-
Trimmed parts of a text.

What a text is cut into is trimmed, and blank parts are left out. What is lost by that is white
space and what the text was cut at, before the parts, between them and behind them
(`interleaves_join`). Nothing is lost exactly when the parts were trimmed and not empty to begin
with, since a part that changes gets shorter (`join_trimmedParts_iff`).
-/
import DartDecoders.Proofs.Members
import DartDecoders.Proofs.Words

set_option autoImplicit false

namespace DartDecoders

namespace Source

open Text

/-! ## Parts put together -/

theorem join_prepend {separator : Text} (t : Text) {parts : List Text} (hne : parts ≠ []) :
    join separator (prepend t parts) = t ++ join separator parts := by
  obtain ⟨part, rest, rfl⟩ := List.exists_cons_of_ne_nil hne
  rw [prepend]
  cases rest with
  | nil => rw [join_singleton, join_singleton]
  | cons next rest => rw [join_cons_cons, join_cons_cons, List.append_assoc]

/-- The width of parts, each with a separator behind it. -/
def width : List Text → Nat
  | [] => 0
  | part :: rest => part.length + 1 + width rest

theorem length_join {c : CodePoint} {parts : List Text} (hne : parts ≠ []) :
    (join [c] parts).length + 1 = width parts := by
  induction parts with
  | nil => exact absurd rfl hne
  | cons part rest ih =>
      cases rest with
      | nil => simp [join_singleton, width]
      | cons next rest =>
          have hrest := ih (List.cons_ne_nil _ _)
          rw [join_cons_cons]
          simp only [width, List.length_append, List.length_singleton] at hrest ⊢
          omega

theorem trim_eq_self_of_length {t : Text} (h : t.length ≤ (trim t).length) : trim t = t := by
  obtain ⟨gap, gap', -, -, ht⟩ := exists_gaps_trim t
  have hlength := congrArg List.length ht
  simp only [List.length_append] at hlength
  have hgap : gap = [] := List.length_eq_zero_iff.1 (by omega)
  have hgap' : gap' = [] := List.length_eq_zero_iff.1 (by omega)
  rw [hgap, hgap', List.append_nil, List.nil_append] at ht
  exact ht.symm

/-- Trimming parts and leaving out blank ones makes them narrower, unless it changes nothing. -/
theorem width_trimmedParts (parts : List Text) : width (trimmedParts parts) ≤ width parts
    ∧ (width parts ≤ width (trimmedParts parts) → trimmedParts parts = parts) := by
  induction parts with
  | nil => exact ⟨Nat.le_refl _, fun _ => rfl⟩
  | cons part rest ih =>
      obtain ⟨hle, heq⟩ := ih
      have hpart := length_trim_le part
      by_cases hnil : trim part = []
      · rw [trimmedParts_cons_of_blank hnil]
        simp only [width] at hle ⊢
        exact ⟨by omega, fun hwide => by omega⟩
      · rw [trimmedParts_cons rfl hnil]
        simp only [width] at hle heq ⊢
        refine ⟨by omega, fun hwide => ?_⟩
        rw [trim_eq_self_of_length (by omega), heq (by omega)]

theorem trimmedParts_eq_self_iff {parts : List Text} :
    trimmedParts parts = parts ↔ ∀ part ∈ parts, Trimmed part ∧ part ≠ [] := by
  constructor
  · intro h part hpart
    rw [← h] at hpart
    exact trimmed_of_mem_trimmedParts hpart
  · intro h
    induction parts with
    | nil => rfl
    | cons part rest ih =>
        obtain ⟨⟨htrimmed, hne⟩, hrest⟩ := List.forall_mem_cons.1 h
        rw [trimmedParts_cons htrimmed.trim_eq hne, ih hrest]

/-- The trimmed parts put together are the text exactly when no part changes. -/
theorem join_trimmedParts_iff {c : CodePoint} {parts : List Text} (hne : trimmedParts parts ≠ []) :
    join [c] (trimmedParts parts) = join [c] parts
      ↔ ∀ part ∈ parts, Trimmed part ∧ part ≠ [] := by
  rw [← trimmedParts_eq_self_iff]
  refine ⟨fun h => (width_trimmedParts parts).2 ?_, fun h => by rw [h]⟩
  have hparts : parts ≠ [] := by
    rintro rfl
    exact hne rfl
  rw [← length_join (c := c) hparts, ← length_join (c := c) hne, h]

/-! ## Texts around parts -/

/-- The text is the parts in order, and all before, between and behind them is of the class. -/
inductive Interleaves (p : CodePoint → Prop) : List Text → Text → Prop
  | nil {gap : Text} : (∀ c ∈ gap, p c) → Interleaves p [] gap
  | cons {gap part rest : Text} {parts : List Text} : (∀ c ∈ gap, p c) →
    Interleaves p parts rest → Interleaves p (part :: parts) (gap ++ (part ++ rest))

section Class

variable {p : CodePoint → Prop} {parts : List Text} {t : Text}

theorem Interleaves.gap_append {gap : Text} (hgap : ∀ c ∈ gap, p c) (h : Interleaves p parts t) :
    Interleaves p parts (gap ++ t) := by
  cases h with
  | nil ht => exact .nil (List.forall_mem_append.2 ⟨hgap, ht⟩)
  | cons hfirst hrest =>
      rw [← List.append_assoc]
      exact .cons (List.forall_mem_append.2 ⟨hgap, hfirst⟩) hrest

/-- A part in front is there without the white space at its ends, unless it is nothing else. -/
theorem Interleaves.part_append (hblank : ∀ c, isBlank c = true → p c) (part : Text)
    (h : Interleaves p (trimmedParts parts) t) :
    Interleaves p (trimmedParts (part :: parts)) (part ++ t) := by
  obtain ⟨gap, gap', hgap, hgap', hpart⟩ := exists_gaps_trim part
  have hbehind := h.gap_append fun c hc => hblank c (hgap' c hc)
  by_cases hnil : trim part = []
  · rw [trimmedParts_cons_of_blank hnil, hpart, hnil, List.nil_append, List.append_assoc]
    exact hbehind.gap_append fun c hc => hblank c (hgap c hc)
  · rw [trimmedParts_cons rfl hnil]
    conv => arg 3; rw [hpart, List.append_assoc, List.append_assoc]
    exact .cons (fun c hc => hblank c (hgap c hc)) hbehind

/-- Parts with a separator between neighbours are the trimmed ones with white space and separators
around them. -/
theorem interleaves_join {separator : Text} (hseparator : ∀ c ∈ separator, p c)
    (hblank : ∀ c, isBlank c = true → p c) (parts : List Text) :
    Interleaves p (trimmedParts parts) (join separator parts) := by
  have hnone : Interleaves p (trimmedParts []) [] := .nil (List.forall_mem_nil _)
  induction parts with
  | nil => exact hnone
  | cons part rest ih =>
      cases rest with
      | nil =>
          rw [join_singleton]
          have hone := hnone.part_append hblank part
          rwa [List.append_nil] at hone
      | cons next rest =>
          rw [join_cons_cons]
          exact (ih.gap_append hseparator).part_append hblank part

end Class

end Source

end DartDecoders
