/-
Angle brackets: nested ones, and the type parameters at the end of a header.

Angle brackets are counted and not matched, and a closing one right behind an equals sign does not
count. `AngleNested` is the texts on which the count comes out even. Reading such a text backwards
finds the opening bracket of the last one (`splitTypeParameters_append`).
-/
import DartDecoders.Proofs.Members
import DartDecoders.Proofs.Words
import DartDecoders.Source.Member

set_option autoImplicit false

namespace DartDecoders

namespace Source

open Text

/-! ## Nested angle brackets -/

/-- The angle brackets of the text close in order, none of them right behind an equals sign. -/
inductive AngleNested : Text → Prop
  | nil : AngleNested []
  | char {c : CodePoint} {t : Text} : c ≠ '<' → c ≠ '>' → AngleNested t → AngleNested (c :: t)
  | group {inner t : Text} : inner.getLast? ≠ some (.ofChar '=') → AngleNested inner →
      AngleNested t →
    AngleNested (.ofChar '<' :: (inner ++ .ofChar '>' :: t))

theorem AngleNested.append {t u : Text} (ht : AngleNested t) (hu : AngleNested u) :
    AngleNested (t ++ u) := by
  induction ht with
  | nil => exact hu
  | char hopen hclose _ ih => exact .char hopen hclose ih
  | group hlast hinner _ _ ih =>
      rw [List.cons_append, List.append_assoc, List.cons_append]
      exact .group hlast hinner ih

theorem AngleNested.of_forall {t : Text} (h : ∀ c ∈ t, c ≠ '<' ∧ c ≠ '>') : AngleNested t := by
  induction t with
  | nil => exact .nil
  | cons c t ih =>
      obtain ⟨hopen, hclose⟩ := h c List.mem_cons_self
      exact .char hopen hclose (ih fun d hd => h d (List.mem_cons_of_mem c hd))

/-- Nested texts in a list with commas between them. -/
theorem AngleNested.list {texts : List Text} (h : ∀ t ∈ texts, AngleNested t) :
    AngleNested (join [',', ' '] texts) := by
  induction texts with
  | nil => exact .nil
  | cons t rest ih =>
      have ht := h t List.mem_cons_self
      have hrest := ih fun u hu => h u (List.mem_cons_of_mem t hu)
      cases rest with
      | nil => rwa [join_singleton]
      | cons u rest =>
          rw [join_cons_cons]
          exact ht.append ((AngleNested.of_forall (by decide)).append hrest)

/-! ## Type parameters -/

theorem angleGroup?_other {c : CodePoint} (hopen : c ≠ '<') (hclose : c ≠ '>') (depth : Int)
    (before : Text) :
    angleGroup? depth (c :: before)
      = (angleGroup? depth before).map fun found => (c :: found.1, found.2) := by
  rw [angleGroup?]
  simp [hopen, hclose]

theorem angleGroup?_closing (depth : Int) (before : Text) :
    angleGroup? depth ('>' :: before)
      = (angleGroup? (depth + 1) before).map fun found => (.ofChar '>' :: found.1, found.2) := rfl

theorem angleGroup?_opening {depth : Int} (h : 1 ≤ depth) (before : Text) :
    angleGroup? (depth + 1) ('<' :: before)
      = (angleGroup? depth before).map fun found => (.ofChar '<' :: found.1, found.2) := by
  have hinside : (depth == 0) = false := by
    simp only [beq_eq_false_iff_ne, ne_eq]
    omega
  rw [angleGroup?, Int.add_sub_cancel, hinside]
  rfl

theorem angleGroup?_last (before : Text) :
    angleGroup? 1 (.ofChar '<' :: before) = some ([.ofChar '<'], before) := rfl

/-- Looking backwards for the bracket that opens the last group passes over nested text. -/
theorem angleGroup?_append {t : Text} (h : AngleNested t) :
    ∀ {depth : Int}, 1 ≤ depth → ∀ before : Text,
      angleGroup? depth (t.reverse ++ before)
        = (angleGroup? depth before).map fun found => (t.reverse ++ found.1, found.2) := by
  induction h with
  | nil =>
      intro depth _ before
      simp
  | @char c t hopen hclose _ ih =>
      intro depth hdepth before
      rw [List.reverse_cons, List.append_assoc, ih hdepth, List.singleton_append,
        angleGroup?_other hopen hclose, Option.map_map]
      congr 1
      funext found
      simp
  | @group inner t _ _ _ ihinner ih =>
      intro depth hdepth before
      -- backwards the closing bracket comes first, so the depth goes up before it comes down again
      have hreverse : (.ofChar '<' :: (inner ++ .ofChar '>' :: t)).reverse ++ before
          = t.reverse ++ (.ofChar '>' :: (inner.reverse ++ .ofChar '<' :: before)) := by simp
      rw [hreverse, ih hdepth, angleGroup?_closing, ihinner (by omega), angleGroup?_opening hdepth]
      simp only [Option.map_map]
      congr 1
      funext found
      simp

/-- Type parameters at the end of a header are split off. -/
theorem splitTypeParameters_append {header inner : Text} (h : AngleNested inner)
    (hheader : StopsAt isBlank header.reverse) :
    splitTypeParameters (header ++ .ofChar '<' :: (inner ++ [.ofChar '>']))
      = .ok (header, '<' :: (inner ++ [.ofChar '>'])) := by
  have hreverse : (header ++ .ofChar '<' :: (inner ++ [.ofChar '>']) : Text).reverse
      = .ofChar '>' :: (inner.reverse ++ .ofChar '<' :: header.reverse) := by simp
  have htrim : trimEnd (header ++ .ofChar '<' :: (inner ++ [.ofChar '>']))
      = header ++ .ofChar '<' :: (inner ++ [.ofChar '>']) := by
    rw [← List.cons_append, ← List.append_assoc]
    exact trimEnd_concat (by decide) _
  have hgroup : angleGroup? 0 (.ofChar '>' :: (inner.reverse ++ .ofChar '<' :: header.reverse))
      = some (.ofChar '>' :: (inner.reverse ++ [.ofChar '<']), header.reverse) := by
    rw [angleGroup?_closing, Int.zero_add, angleGroup?_append h (Int.le_refl 1), angleGroup?_last]
    rfl
  rw [splitTypeParameters]
  simp only [htrim, hreverse, hgroup]
  rw [List.reverse_reverse, trimEnd_eq_self hheader]
  simp

/-- A header that does not end in a closing angle bracket has no type parameters. -/
theorem splitTypeParameters_eq_self {header : Text} (hblank : StopsAt isBlank header.reverse)
    (hangle : StopsAt (· == '>') header.reverse) :
    splitTypeParameters header = .ok (header, []) := by
  rw [splitTypeParameters]
  simp only [trimEnd_eq_self hblank]
  split
  · next before hreverse =>
      rw [hreverse] at hangle
      cases hangle
  · rfl

/-- The characters that the search for type parameters counts. -/
def isAngle (c : CodePoint) : Bool :=
  c == '<' || c == '>'

/-- Whether the last group of angle brackets is closed is decided by the angle brackets alone. -/
theorem isSome_angleGroup?_filter (t : Text) (depth : Int) :
    (angleGroup? depth (t.filter isAngle)).isSome = (angleGroup? depth t).isSome := by
  induction t generalizing depth with
  | nil => rfl
  | cons c t ih =>
      by_cases hopen : c = '<'
      · subst hopen
        rw [List.filter_cons_of_pos (by decide), angleGroup?, angleGroup?]
        split
        · rfl
        · rw [Option.isSome_map, Option.isSome_map, ih]
      · by_cases hclose : c = '>'
        · subst hclose
          rw [List.filter_cons_of_pos (by decide), angleGroup?_closing, angleGroup?_closing,
            Option.isSome_map, Option.isSome_map, ih]
        · rw [List.filter_cons_of_neg (by simp [isAngle, hopen, hclose]),
            angleGroup?_other hopen hclose, Option.isSome_map, ih]

end Source

end DartDecoders
