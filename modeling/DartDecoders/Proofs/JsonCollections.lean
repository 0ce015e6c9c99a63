/-
The keys of an object, and values as a set.

An entry that is written under a key that is there takes the place of the one before it, so the
entries of an object that is read have each key once, whatever its text repeats (`nodup_of_parse`).
With such entries a value is found under a key exactly when the two are an entry
(`lookup?_eq_some_iff`). Values of which one is kept for all that are the same are a set of them
(`isSetOf_distinct`).
-/
import DartDecoders.Json.Reader
import DartDecoders.Proofs.Faults

set_option autoImplicit false

namespace DartDecoders

namespace Json

/-! ## Entries -/

/-- The keys of entries in their order. -/
def keys (entries : List (Text × Json)) : List Text :=
  entries.map (·.1)

section Keys

variable {key : Text} {value : Json} {known found : List (Text × Json)}

theorem nodup_keys_nil : (keys []).Nodup :=
  List.nodup_nil

theorem lookup?_eq_some_iff (h : (keys known).Nodup) :
    lookup? key known = some value ↔ (key, value) ∈ known := by
  induction known with
  | nil => simp [lookup?]
  | cons entry rest ih =>
      obtain ⟨name, old⟩ := entry
      obtain ⟨hname, hrest⟩ := List.nodup_cons.1 h
      by_cases heq : name = key
      · subst heq
        have hother : (name, value) ∉ rest := fun hmem =>
          hname (List.mem_map.2 ⟨_, hmem, rfl⟩)
        simp [lookup?, hother, eq_comm]
      · simp [lookup?, heq, ih hrest, Ne.symm heq]

theorem lookup?_eq_none (h : key ∉ keys known) : lookup? key known = none := by
  induction known with
  | nil => rfl
  | cons entry rest ih =>
      obtain ⟨name, old⟩ := entry
      obtain ⟨hname, hrest⟩ := not_or.1 (mt List.mem_cons.2 h)
      rw [lookup?, if_neg (by simpa using Ne.symm hname), ih hrest]

theorem mem_keys_insert {other : Text} :
    other ∈ keys (insert key value known) ↔ other = key ∨ other ∈ keys known := by
  induction known with
  | nil => simp [insert, keys]
  | cons entry rest ih =>
      obtain ⟨name, old⟩ := entry
      by_cases heq : name = key
      · subst heq
        simp [insert, keys]
      · rw [insert, if_neg (by simpa using heq)]
        simp only [keys, List.map_cons, List.mem_cons] at ih ⊢
        rw [ih, or_left_comm]

theorem nodup_keys_insert (h : (keys known).Nodup) :
    (keys (insert key value known)).Nodup := by
  induction known with
  | nil => simp [insert, keys]
  | cons entry rest ih =>
      obtain ⟨name, old⟩ := entry
      obtain ⟨hname, hrest⟩ := List.nodup_cons.1 h
      by_cases heq : name = key
      · subst heq
        simpa [insert, keys] using h
      · rw [insert, if_neg (by simpa using heq)]
        refine List.nodup_cons.2 ⟨fun hmem => ?_, ih hrest⟩
        rcases mem_keys_insert.1 hmem with hsame | hmem
        · exact heq hsame
        · exact hname hmem

/-! ## Objects in a text -/

variable {holds : Nat → Bool} {fuel level : Nat} {t rest : Text}

/-- The induction is on the entries that are still to be read, behind those that are known. -/
theorem nodup_of_entries (hknown : (keys known).Nodup)
    (h : entries holds fuel level known t = .ok (found, rest)) : (keys found).Nodup := by
  induction fuel generalizing known t with
  | zero =>
      unfold entries at h
      cases h
  | succ fuel ih =>
      unfold entries at h
      split at h
      · obtain ⟨⟨name, behind⟩, -, h⟩ := bind_eq_ok_iff.1 h
        dsimp only at h
        split at h
        · obtain ⟨⟨item, behind⟩, -, h⟩ := bind_eq_ok_iff.1 h
          dsimp only at h
          split at h
          · cases h
            exact nodup_keys_insert hknown
          · exact ih (nodup_keys_insert hknown) h
          · cases h
        · cases h
      · cases h

theorem ne_obj_of_scalar (h : scalar t = .ok (value, rest)) : value ≠ .obj found := by
  rintro rfl
  unfold scalar at h
  split at h
  · next hword =>
      cases h
      obtain ⟨word, hmem, hword⟩ := List.exists_of_findSome?_eq_some hword
      obtain ⟨behind, -, hvalue⟩ := Option.map_eq_some_iff.1 hword
      have hnone : ∀ word ∈ words, word.2 ≠ .obj found := by simp [words]
      exact hnone word hmem (Prod.mk.inj hvalue).1
  · unfold number at h
    dsimp only at h
    split at h
    · cases h
    · split at h
      · cases h
      · split at h
        · cases h
        · split at h <;> cases h

theorem nodup_of_value (h : Json.value holds fuel level t = .ok (.obj found, rest)) :
    (keys found).Nodup := by
  unfold Json.value at h
  split at h
  · cases h
  · split at h
    -- a string
    · obtain ⟨⟨body, behind⟩, -, h⟩ := bind_eq_ok_iff.1 h
      cases h
    -- an array
    · split at h
      · cases h
      · split at h
        · cases h
        · obtain ⟨⟨items, behind⟩, -, h⟩ := bind_eq_ok_iff.1 h
          cases h
    -- an object
    · split at h
      · cases h
      · split at h
        · cases h
          exact nodup_keys_nil
        · obtain ⟨⟨entries, behind⟩, hentries, h⟩ := bind_eq_ok_iff.1 h
          cases h
          exact nodup_of_entries nodup_keys_nil hentries
    · exact absurd rfl (ne_obj_of_scalar h)

/-- A document that is an object has each key once. -/
theorem nodup_of_parse (h : parse holds t = .ok (.obj found)) : (keys found).Nodup := by
  have hdocument : document holds t = .ok (.obj found) := by
    unfold parse at h
    cases hresult : document holds t with
    | error e => simp [hresult, Except.mapError] at h
    | ok v => simpa [hresult, Except.mapError] using h
  unfold document at hdocument
  split at hdocument
  · cases hdocument
  · obtain ⟨⟨v, rest⟩, hvalue, hdocument⟩ := bind_eq_ok_iff.1 hdocument
    dsimp only at hdocument
    split at hdocument
    · cases hdocument
      exact nodup_of_value hvalue
    · cases hdocument

end Keys

/-! ## Sets of values -/

/-- The second list is the first as a set: it has members of the first only, a same one for each,
and no two that are the same. -/
structure IsSetOf (members kept : List Json) : Prop where
  mem : ∀ x ∈ kept, x ∈ members
  covers : ∀ x ∈ members, x ∈ kept ∨ ∃ y ∈ kept, same x y = true
  distinct : kept.Pairwise fun x y => same y x = false

theorem isSetOf_step {members kept : List Json} (h : IsSetOf members kept.reverse) (value : Json) :
    IsSetOf (members ++ [value])
      (if memberOf value kept then kept else value :: kept).reverse := by
  by_cases hmember : memberOf value kept = true
  · rw [if_pos hmember]
    refine ⟨fun x hx => List.mem_append_left _ (h.mem x hx), fun x hx => ?_, h.distinct⟩
    rcases List.mem_append.1 hx with hx | hx
    · exact h.covers x hx
    · obtain ⟨found, hfound, hsame⟩ := List.any_eq_true.1 hmember
      rw [List.mem_singleton.1 hx]
      exact .inr ⟨found, List.mem_reverse.2 hfound, hsame⟩
  · rw [if_neg hmember, List.reverse_cons]
    refine ⟨fun x hx => ?_, fun x hx => ?_, List.pairwise_append.2 ⟨h.distinct, by simp, ?_⟩⟩
    · rcases List.mem_append.1 hx with hx | hx
      · exact List.mem_append_left _ (h.mem x hx)
      · exact List.mem_append_right _ hx
    · rcases List.mem_append.1 hx with hx | hx
      · refine (h.covers x hx).imp (List.mem_append_left _) ?_
        rintro ⟨y, hy, hsame⟩
        exact ⟨y, List.mem_append_left _ hy, hsame⟩
      · exact .inl (List.mem_append_right _ hx)
    · intro x hx y hy
      rw [List.mem_singleton.1 hy]
      exact Bool.eq_false_iff.2 fun hsame =>
        hmember (List.any_eq_true.2 ⟨x, List.mem_reverse.1 hx, hsame⟩)

/-- The induction is on the values that are still to come, behind those that are kept already. -/
theorem isSetOf_foldl {members kept : List Json} (h : IsSetOf members kept.reverse)
    (values : List Json) : IsSetOf (members ++ values) (values.foldl
      (fun kept value => if memberOf value kept then kept else value :: kept) kept).reverse := by
  induction values generalizing members kept with
  | nil => rwa [List.append_nil]
  | cons value rest ih =>
      rw [List.foldl_cons, List.append_cons]
      exact ih (isSetOf_step h value)

/-- The distinct values of a list are its values as a set. -/
theorem isSetOf_distinct (values : List Json) : IsSetOf values (distinct values) := by
  have hnone : IsSetOf [] ([] : List Json).reverse := ⟨by simp, by simp, List.Pairwise.nil⟩
  exact isSetOf_foldl hnone values

end Json

end DartDecoders
