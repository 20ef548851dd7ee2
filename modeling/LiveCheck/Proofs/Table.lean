import LiveCheck.Table
import Mathlib.Algebra.GroupWithZero.Nat
import Mathlib.Data.List.Nodup

/-!
# Looking up in tables

How the value of a key depends on what was done to a table (`get?_put`, `get?_erase`,
`get?_modify`), and what becomes of the keys. A table whose keys are distinct has an entry for
exactly the values it gives (`mem_entries_iff`).
-/

namespace LiveCheck.Table

variable {κ α : Type} [DecidableEq κ]

@[simp] theorem get?_empty (k : κ) : (∅ : Table κ α).get? k = none := rfl

omit [DecidableEq κ] in
@[simp] theorem keys_empty : (∅ : Table κ α).keys = [] := rfl

/-! ## Putting -/

/-- After a value was put under a key, it is found there, and all else is found as before. -/
theorem get?_put (t : Table κ α) (k k' : κ) (v : α) :
    (t.put k v).get? k' = if k' = k then some v else t.get? k' := by
  obtain ⟨entries⟩ := t
  simp only [put, get?]
  induction entries with
  | nil => by_cases h : k = k' <;> simp [putEntry, h, eq_comm]
  | cons e rest ih =>
    by_cases he : e.1 = k
    · by_cases h : k' = k
      · simp [putEntry, he, h]
      · have hk : k ≠ k' := fun hk => h hk.symm
        simp [putEntry, he, h, hk]
    · by_cases h : e.1 = k'
      · have hk : k' ≠ k := fun hk => he (h.trans hk)
        simp [putEntry, h, hk]
      · simpa [putEntry, he, h] using ih

@[simp] theorem get?_put_self (t : Table κ α) (k : κ) (v : α) : (t.put k v).get? k = some v := by
  simp [get?_put]

theorem get?_put_of_ne {t : Table κ α} {k k' : κ} (h : k' ≠ k) (v : α) :
    (t.put k v).get? k' = t.get? k' := by
  simp [get?_put, h]

/-- Putting the value that a key has changes nothing. -/
theorem put_eq_self {t : Table κ α} {k : κ} {v : α} (h : t.get? k = some v) : t.put k v = t := by
  obtain ⟨entries⟩ := t
  simp only [put, get?] at h ⊢
  congr 1
  induction entries with
  | nil => simp at h
  | cons e rest ih =>
    by_cases he : e.1 = k
    · obtain rfl : e.2 = v := by simpa [he] using h
      rw [putEntry, if_pos he, ← he]
    · rw [putEntry, if_neg he, ih (by simpa [he] using h)]

/-! ## Erasing and modifying -/

/-- After a key was erased, nothing is found under it, and all else is found as before. -/
theorem get?_erase (t : Table κ α) (k k' : κ) :
    (t.erase k).get? k' = if k' = k then none else t.get? k' := by
  obtain ⟨entries⟩ := t
  simp only [erase, get?]
  induction entries with
  | nil => simp
  | cons e rest ih =>
    by_cases he : e.1 = k
    · have hf : (e :: rest).filter (fun e => e.1 ≠ k) = rest.filter (fun e => e.1 ≠ k) := by
        simp [he]
      rw [hf, ih]
      by_cases h : k' = k
      · simp [h]
      · have hk : k ≠ k' := fun hk => h hk.symm
        simp [h, he, hk]
    · by_cases h : e.1 = k'
      · have hk : k' ≠ k := fun hk => he (h.trans hk)
        simp [h, hk]
      · simpa [he, h] using ih

/-- After a change under a key, the changed value is found there, and all else is found as
    before. -/
theorem get?_modify (t : Table κ α) (k k' : κ) (f : α → α) :
    (t.modify k f).get? k' = if k' = k then (t.get? k).map f else t.get? k' := by
  obtain ⟨entries⟩ := t
  simp only [modify, get?]
  induction entries with
  | nil => simp
  | cons e rest ih =>
    by_cases he : e.1 = k
    · by_cases h : k' = k
      · simp [he, h]
      · have hk : k ≠ k' := fun hk => h hk.symm
        simpa [he, h, hk] using ih
    · by_cases h : e.1 = k'
      · have hk : k' ≠ k := fun hk => he (h.trans hk)
        simp [h, hk]
      · simpa [he, h] using ih

theorem get?_modify_self (t : Table κ α) (k : κ) (f : α → α) :
    (t.modify k f).get? k = (t.get? k).map f := by
  simp [get?_modify]

theorem get?_modify_of_ne {t : Table κ α} {k k' : κ} (h : k' ≠ k) (f : α → α) :
    (t.modify k f).get? k' = t.get? k' := by
  simp [get?_modify, h]

/-- A table whose values were all changed. -/
theorem get?_mapValues {β : Type} (t : Table κ α) (f : α → β) (k : κ) :
    Table.get? ⟨t.entries.map fun e => (e.1, f e.2)⟩ k = (t.get? k).map f := by
  obtain ⟨entries⟩ := t
  simp only [get?]
  induction entries with
  | nil => rfl
  | cons e rest ih =>
    by_cases h : e.1 = k
    · simp [h]
    · simpa [h] using ih

/-! ## Keys -/

@[simp] theorem keys_modify (t : Table κ α) (k : κ) (f : α → α) : (t.modify k f).keys = t.keys := by
  simp only [keys, modify, List.map_map]
  refine List.map_congr_left fun e _ => ?_
  by_cases h : e.1 = k <;> simp [h]

/-- A key of a table has a value. -/
theorem mem_keys_iff (t : Table κ α) (k : κ) : k ∈ t.keys ↔ ∃ v, t.get? k = some v := by
  obtain ⟨entries⟩ := t
  simp only [keys, get?]
  induction entries with
  | nil => simp
  | cons e rest ih =>
    by_cases h : e.1 = k
    · simp [h]
    · have hk : k ≠ e.1 := fun hk => h hk.symm
      simpa [h, hk] using ih

theorem keys_putEntry (k : κ) (v : α) (entries : List (κ × α)) :
    (putEntry k v entries).map (·.1) =
      if k ∈ entries.map (·.1) then entries.map (·.1) else entries.map (·.1) ++ [k] := by
  induction entries with
  | nil => simp [putEntry]
  | cons e rest ih =>
    by_cases he : e.1 = k
    · simp [putEntry, he]
    · have hk : k ≠ e.1 := fun hk => he hk.symm
      by_cases h : k ∈ rest.map (·.1)
      · rw [if_pos h] at ih
        rw [putEntry, if_neg he, List.map_cons, ih, List.map_cons,
          if_pos (List.mem_cons_of_mem _ h)]
      · rw [if_neg h] at ih
        rw [putEntry, if_neg he, List.map_cons, ih, List.map_cons, if_neg (by simp [hk, h]),
          List.cons_append]

theorem mem_putEntry {k : κ} {v : α} {entries : List (κ × α)} {e : κ × α}
    (h : e ∈ putEntry k v entries) : e = (k, v) ∨ e ∈ entries := by
  induction entries with
  | nil => exact .inl (List.mem_singleton.1 h)
  | cons f rest ih =>
    rw [putEntry] at h
    split at h
    · exact (List.mem_cons.1 h).imp_right (List.mem_cons_of_mem _)
    · rcases List.mem_cons.1 h with rfl | h
      · exact .inr List.mem_cons_self
      · exact (ih h).imp_right (List.mem_cons_of_mem _)

theorem keys_put_of_mem {t : Table κ α} {k : κ} (h : k ∈ t.keys) (v : α) :
    (t.put k v).keys = t.keys := by
  simp only [keys] at h ⊢
  rw [put, keys_putEntry, if_pos h]

theorem keys_put_of_not_mem {t : Table κ α} {k : κ} (h : k ∉ t.keys) (v : α) :
    (t.put k v).keys = t.keys ++ [k] := by
  simp only [keys] at h ⊢
  rw [put, keys_putEntry, if_neg h]

/-- No key is in a table twice. -/
theorem nodup_put {t : Table κ α} (ht : t.keys.Nodup) (k : κ) (v : α) : (t.put k v).keys.Nodup := by
  by_cases h : k ∈ t.keys
  · rwa [keys_put_of_mem h]
  · rw [keys_put_of_not_mem h]
    exact List.concat_eq_append ▸ ht.concat h

omit [DecidableEq κ] in
@[simp] theorem length_keys (t : Table κ α) : t.keys.length = t.entries.length := by simp [keys]

/-! ## Entries -/

theorem mem_entries_of_get? {t : Table κ α} {k : κ} {v : α} (h : t.get? k = some v) :
    (k, v) ∈ t.entries := by
  obtain ⟨e, he, rfl⟩ := Option.map_eq_some_iff.1 h
  have hk : e.1 = k := by simpa using List.find?_some he
  exact hk ▸ List.mem_of_find?_eq_some he

theorem mem_values_of_get? {t : Table κ α} {k : κ} {v : α} (h : t.get? k = some v) :
    v ∈ t.values :=
  List.mem_map.2 ⟨(k, v), mem_entries_of_get? h, rfl⟩

/-- Distinct keys make the entries and the values by key the same thing. -/
theorem mem_entries_iff {t : Table κ α} (ht : t.keys.Nodup) {k : κ} {v : α} :
    (k, v) ∈ t.entries ↔ t.get? k = some v := by
  refine ⟨fun h => ?_, mem_entries_of_get?⟩
  obtain ⟨w, hw⟩ := (t.mem_keys_iff k).1 (List.mem_map_of_mem (f := Prod.fst) h)
  have := List.inj_on_of_nodup_map ht h (mem_entries_of_get? hw) rfl
  rw [hw, (Prod.mk.inj this).2]

/-- A table without a value for any key has no entries. -/
theorem entries_eq_nil {t : Table κ α} (h : ∀ k, t.get? k = none) : t.entries = [] := by
  refine List.eq_nil_iff_forall_not_mem.2 fun e he => ?_
  obtain ⟨v, hv⟩ := (t.mem_keys_iff e.1).1 (List.mem_map_of_mem (f := Prod.fst) he)
  simp [h] at hv

/-! ## Changing a value -/

theorem modify_of_not_mem {t : Table κ α} {k : κ} (h : k ∉ t.keys) (f : α → α) :
    t.modify k f = t := by
  refine congrArg Table.mk ((List.map_congr_left fun e he => if_neg ?_).trans (List.map_id _))
  rintro rfl
  exact h (List.mem_map_of_mem he)

/-- Changing the value of a key is to look it up and to assign the new one. -/
theorem put_eq_modify {t : Table κ α} (ht : t.keys.Nodup) {k : κ} {v : α} (hv : t.get? k = some v)
    (f : α → α) : t.put k (f v) = t.modify k f := by
  obtain ⟨entries⟩ := t
  refine congrArg Table.mk ?_
  induction entries with
  | nil => simp [get?] at hv
  | cons e rest ih =>
    simp only [keys, List.map_cons, List.nodup_cons] at ht
    by_cases he : e.1 = k
    · obtain rfl : e.2 = v := by simpa [get?, he] using hv
      have hrest := congrArg entries (modify_of_not_mem (t := ⟨rest⟩) (he ▸ ht.1) f)
      simp only [modify] at hrest
      rw [putEntry, if_pos he, List.map_cons, if_pos he, hrest, he]
    · have hv' : Table.get? ⟨rest⟩ k = some v := by simpa [get?, he] using hv
      rw [putEntry, if_neg he, List.map_cons, if_neg he, ih ht.2 hv']

/-! ## Laying entries over a table -/

omit [DecidableEq κ] in
/-- Where no key is there twice, an entry has another key than those in front of it. -/
theorem not_mem_of_nodup {done rest : List (κ × α)} {e : κ × α}
    (h : ((done ++ e :: rest).map (·.1)).Nodup) : e.1 ∉ done.map (·.1) := by
  rw [List.map_append, List.nodup_append] at h
  exact fun hmem => h.2.2 _ hmem _ List.mem_cons_self rfl

/-- A new key goes behind the entries, a present one is found behind those with other keys. -/
theorem putEntry_append {k : κ} (v : α) {done : List (κ × α)} (h : k ∉ done.map (·.1))
    (rest : List (κ × α)) : putEntry k v (done ++ rest) = done ++ putEntry k v rest := by
  induction done with
  | nil => rfl
  | cons e done ih =>
    rw [List.map_cons, List.mem_cons, not_or] at h
    rw [List.cons_append, putEntry, if_neg (Ne.symm h.1), ih h.2, List.cons_append]

/-- Entries that begin with the keys of a table, in their order, take its place when they are laid
    over it. -/
theorem overlay_eq {t : Table κ α} {entries : List (κ × α)} (h : t.keys <+: entries.map (·.1))
    (hnodup : (entries.map (·.1)).Nodup) : t.overlay entries = ⟨entries⟩ := by
  -- The entries so far are in place, and the keys that are left begin with those left of the table.
  have hgo : ∀ (done left : List (κ × α)) (entries : List (κ × α)),
      left.map (·.1) <+: entries.map (·.1) → ((done ++ entries).map (·.1)).Nodup →
        overlay ⟨done ++ left⟩ entries = ⟨done ++ entries⟩ := by
    intro done left entries
    induction entries generalizing done left with
    | nil =>
      intro h _
      rw [List.map_nil, List.prefix_nil, List.map_eq_nil_iff] at h
      rw [h]
      rfl
    | cons e rest ih =>
      intro h hnodup
      have hnew := not_mem_of_nodup hnodup
      obtain ⟨left', hput, hleft⟩ : ∃ left', putEntry e.1 e.2 left = e :: left' ∧
          left'.map (·.1) <+: rest.map (·.1) := by
        cases left with
        | nil => exact ⟨[], rfl, List.nil_prefix⟩
        | cons f left =>
          obtain ⟨hkey, hleft⟩ := List.cons_prefix_cons.1 h
          exact ⟨left, by rw [putEntry, if_pos hkey], hleft⟩
      rw [overlay, List.foldl_cons, put, putEntry_append _ hnew, hput,
        List.append_cons done e left', List.append_cons done e rest]
      exact ih (done ++ [e]) left' hleft (by rwa [← List.append_cons])
  exact hgo [] t.entries entries h hnodup

/-- The value of a key is the one in its last entry, or else the one that was there. -/
theorem get?_overlay (t : Table κ α) (entries : List (κ × α)) (k : κ) :
    (t.overlay entries).get? k = (Table.get? ⟨entries.reverse⟩ k).or (t.get? k) := by
  induction entries generalizing t with
  | nil => rfl
  | cons e rest ih =>
    rw [overlay, List.foldl_cons, ← overlay, ih, get?_put, List.reverse_cons]
    simp only [get?, List.find?_append]
    cases rest.reverse.find? fun e => e.1 = k with
    | some found => rfl
    | none =>
      by_cases hk : k = e.1
      · simp [hk]
      · have hne : e.1 ≠ k := Ne.symm hk
        simp [hk, hne]

/-! ## Sums over the values -/

/-- Modifying the value of a key changes a sum over the values by what it changes in its term. -/
theorem sum_modify {t : Table κ α} (ht : t.keys.Nodup) {k : κ} {v : α} (hv : t.get? k = some v)
    (f : α → α) (w : α → Nat) :
    ((t.modify k f).values.map w).sum + w v = (t.values.map w).sum + w (f v) := by
  obtain ⟨entries⟩ := t
  induction entries with
  | nil => simp [get?] at hv
  | cons e rest ih =>
    simp only [keys, List.map_cons, List.nodup_cons] at ht
    by_cases he : e.1 = k
    · obtain rfl : e.2 = v := by simpa [get?, he] using hv
      have hrest := congrArg entries (modify_of_not_mem (t := ⟨rest⟩) (he ▸ ht.1) f)
      simp only [modify] at hrest
      simp only [modify, values, List.map_cons, hrest, he, if_true, List.sum_cons]
      omega
    · have hv' : Table.get? ⟨rest⟩ k = some v := by simpa [get?, he] using hv
      have := ih ht.2 hv'
      simp only [modify, values, List.map_cons, he, if_false, List.sum_cons] at this ⊢
      omega

end LiveCheck.Table
