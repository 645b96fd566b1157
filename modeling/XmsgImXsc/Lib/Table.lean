/-
# Tables -- finite tables as association lists with distinct keys

`Table κ ν` is Mathlib's `AList` with values of one type.  The lemmas say what the three
updates of a table (insert under a fresh key, erase, keep the values that satisfy a
predicate) do to the multiset of its values, and that each keeps a predicate that holds of
every entry.
-/
import Mathlib.Data.List.AList

namespace Tables

universe u v

/-- A finite table from keys to values of one type. -/
abbrev Table (κ : Type u) (ν : Type v) := AList fun _ : κ => ν

variable {κ : Type u} {ν : Type v} [DecidableEq κ]

/-- The values of a table, in its order. -/
def values (t : Table κ ν) : List ν := t.entries.map (·.2)

/-- Keep the entries whose value satisfies `p`. -/
def filter (p : ν → Bool) (t : Table κ ν) : Table κ ν :=
  ⟨t.entries.filter fun e => p e.2, List.NodupKeys.sublist List.filter_sublist t.nodupKeys⟩

/-- The values are those that some key has. -/
theorem mem_values_iff {t : Table κ ν} {v : ν} :
    v ∈ values t ↔ ∃ k, t.lookup k = some v := by
  unfold values
  constructor
  · intro h
    obtain ⟨⟨k, v'⟩, hmem, rfl⟩ := List.mem_map.mp h
    exact ⟨k, AList.mem_lookup_iff.mpr hmem⟩
  · rintro ⟨k, hk⟩
    exact List.mem_map.mpr ⟨⟨k, v⟩, AList.mem_lookup_iff.mp hk, rfl⟩

theorem erase_of_notMem {t : Table κ ν} {k : κ} (h : k ∉ t) : t.erase k = t :=
  AList.ext (List.kerase_of_notMem_keys h)

/-- Erasing a key loses the value found under it and no other. -/
theorem values_erase_perm {t : Table κ ν} {k : κ} {v : ν} (h : t.lookup k = some v) :
    (values t).Perm (v :: values (t.erase k)) := by
  have hmem : k ∈ t.entries.keys := AList.lookup_isSome.mp (by rw [h]; rfl)
  obtain ⟨v', l₁, l₂, hnot, hentries, hkerase⟩ := List.exists_of_kerase hmem
  have hv : v' = v := by
    have hlook : t.lookup k = some v' := by
      apply AList.mem_lookup_iff.mpr
      rw [hentries]
      exact List.mem_append_right l₁ List.mem_cons_self
    rw [h] at hlook
    exact (Option.some.inj hlook).symm
  have herase : (t.erase k).entries = l₁ ++ l₂ := hkerase
  unfold values
  rw [hentries, herase, hv, List.map_append, List.map_cons, List.map_append]
  exact List.perm_middle

omit [DecidableEq κ] in
/-- A filter splits the values into those it drops and those it keeps. -/
theorem values_filter_perm (p : ν → Bool) (t : Table κ ν) :
    (values t).Perm ((values t).filter (fun v => !p v) ++ values (filter p t)) := by
  have hkeep : values (filter p t) = (values t).filter p := by
    unfold values filter
    rw [List.filter_map]
    rfl
  rw [hkeep]
  exact (List.filter_append_perm p (values t)).symm.trans List.perm_append_comm

omit [DecidableEq κ] in
theorem filter_eq_self {p : ν → Bool} {t : Table κ ν} (h : ∀ v ∈ values t, p v = true) :
    filter p t = t := by
  apply AList.ext
  refine List.filter_eq_self.mpr ?_
  intro e he
  exact h e.2 (List.mem_map_of_mem he)

/-! ## What stays in a smaller table -/

theorem lookup_of_erase {t : Table κ ν} {k k' : κ} {v : ν}
    (h : (t.erase k).lookup k' = some v) : t.lookup k' = some v := by
  by_cases hk : k' = k
  · subst hk
    simp at h
  · rw [AList.lookup_erase_ne hk] at h
    exact h

theorem lookup_of_filter {t : Table κ ν} {p : ν → Bool} {k : κ} {v : ν}
    (h : (filter p t).lookup k = some v) : t.lookup k = some v := by
  have hmem := AList.mem_lookup_iff.mp h
  exact AList.mem_lookup_iff.mpr (List.mem_of_mem_filter hmem)

/-! ## Predicates on the entries -/

/-- Every entry satisfies `P`. -/
def All (P : κ → ν → Prop) (t : Table κ ν) : Prop := ∀ k v, t.lookup k = some v → P k v

section All

variable {P : κ → ν → Prop} {t : Table κ ν}

theorem all_empty : All P (∅ : Table κ ν) := by
  intro k v h
  simp at h

theorem All.insert (h : All P t) {k : κ} {v : ν} (hv : P k v) : All P (t.insert k v) := by
  intro k' v' hlook
  by_cases hk : k' = k
  · subst hk
    rw [AList.lookup_insert] at hlook
    exact Option.some.inj hlook ▸ hv
  · rw [AList.lookup_insert_ne hk] at hlook
    exact h k' v' hlook

theorem All.perm (h : All P t) {t' : Table κ ν} (hp : t'.entries.Perm t.entries) :
    All P t' := by
  intro k v hlook
  rw [AList.perm_lookup hp] at hlook
  exact h k v hlook

end All

end Tables
