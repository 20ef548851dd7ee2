import LiveCheck.Listing.Basic

/-!
# Sorting records by place

Sorting keeps the records of one place in their order (`filter_sortRecords`), and a sorted list is
determined by what it holds for each place (`eq_of_places`). So records may be sorted in parts first
(`sortRecords_append`).
-/

namespace LiveCheck

namespace Record

/-- Records are ordered by line, and then by column. -/
theorem le_iff {a b : Record} :
    a.le b = true ↔ a.line < b.line ∨ (a.line = b.line ∧ a.column ≤ b.column) := by
  simp [Record.le]

theorem le_trans (a b c : Record) (hab : a.le b) (hbc : b.le c) : a.le c := by
  rw [le_iff] at *
  omega

theorem le_refl (a : Record) : a.le a := by
  rw [le_iff]
  omega

theorem le_total (a b : Record) : a.le b || b.le a := by
  rw [Bool.or_eq_true, le_iff, le_iff]
  omega

/-- Do the records have the same place? -/
def besides (a b : Record) : Bool := a.le b && b.le a

theorem besides_iff {a b : Record} :
    a.besides b = true ↔ a.line = b.line ∧ a.column = b.column := by
  rw [besides, Bool.and_eq_true, le_iff, le_iff]
  omega

end Record

/-- The records are in the order of their places. -/
def Sorted (records : List Record) : Prop := records.Pairwise fun a b => a.le b

theorem Sorted.head_le {a b : Record} {records : List Record} (h : Sorted (a :: records))
    (hb : b ∈ a :: records) : a.le b := by
  rcases List.mem_cons.1 hb with rfl | hb
  · exact b.le_refl
  · exact (List.pairwise_cons.1 h).1 b hb

/-- Sorting sorts. -/
theorem sorted_sortRecords (records : List Record) : Sorted (sortRecords records) :=
  List.pairwise_mergeSort Record.le_trans Record.le_total records

/-- What is sorted already stays as it is. -/
theorem sortRecords_of_sorted {records : List Record} (h : Sorted records) :
    sortRecords records = records :=
  List.mergeSort_of_pairwise h

/-- Sorting keeps the records of one place in their order. -/
theorem filter_sortRecords (a : Record) (records : List Record) :
    (sortRecords records).filter a.besides = records.filter a.besides := by
  have hsame : (records.filter a.besides).Pairwise fun b c => b.le c :=
    List.pairwise_of_forall_mem_list fun b hb c hc => by
      have hb := Record.besides_iff.1 (List.mem_filter.1 hb).2
      have hc := Record.besides_iff.1 (List.mem_filter.1 hc).2
      rw [Record.le_iff]
      omega
  have hsub : (records.filter a.besides).Sublist (sortRecords records) :=
    List.sublist_mergeSort Record.le_trans Record.le_total hsame List.filter_sublist
  have hsub := hsub.filter a.besides
  simp only [List.filter_filter, Bool.and_self] at hsub
  have hperm := (List.mergeSort_perm records Record.le).filter a.besides
  exact (hsub.eq_of_length hperm.length_eq.symm).symm

/-- A sorted list is determined by what it holds for each place. -/
theorem eq_of_places {xs ys : List Record} (hx : Sorted xs) (hy : Sorted ys)
    (h : ∀ a : Record, xs.filter a.besides = ys.filter a.besides) : xs = ys := by
  induction xs generalizing ys with
  | nil =>
    refine (List.eq_nil_iff_forall_not_mem.2 fun y hmem => ?_).symm
    have hfilter : y ∈ ys.filter y.besides :=
      List.mem_filter.2 ⟨hmem, Record.besides_iff.2 ⟨rfl, rfl⟩⟩
    rw [← h y] at hfilter
    exact absurd hfilter List.not_mem_nil
  | cons x xs ih =>
    have hself : ∀ r : Record, r.besides r = true := fun r => Record.besides_iff.2 ⟨rfl, rfl⟩
    have hmem : ∀ r, r ∈ x :: xs ↔ r ∈ ys := fun r => by
      have hr := congrArg (r ∈ ·) (h r)
      simpa [List.mem_filter, hself] using hr
    cases ys with
    | nil => simpa using hmem x
    | cons y ys =>
      -- The heads are before each other, so they have one place, and both come first there.
      have hplace : x.besides y = true := by
        rw [Record.besides, Bool.and_eq_true]
        exact ⟨hx.head_le ((hmem y).2 List.mem_cons_self),
          hy.head_le ((hmem x).1 List.mem_cons_self)⟩
      have hheads := h x
      rw [List.filter_cons_of_pos (hself x), List.filter_cons_of_pos hplace] at hheads
      obtain ⟨rfl, -⟩ := List.cons.inj hheads
      rw [ih (List.pairwise_cons.1 hx).2 (List.pairwise_cons.1 hy).2 fun a => ?_]
      have ha := h a
      by_cases hax : a.besides x
      · rw [List.filter_cons_of_pos hax, List.filter_cons_of_pos hax] at ha
        exact (List.cons.inj ha).2
      · rwa [List.filter_cons_of_neg hax, List.filter_cons_of_neg hax] at ha

/-- Lists of records may be sorted on their own before they are sorted together. -/
theorem sortRecords_append (xs ys : List Record) :
    sortRecords (sortRecords xs ++ sortRecords ys) = sortRecords (xs ++ ys) := by
  refine eq_of_places (sorted_sortRecords _) (sorted_sortRecords _) fun a => ?_
  rw [filter_sortRecords, filter_sortRecords, List.filter_append, List.filter_append,
    filter_sortRecords, filter_sortRecords]

end LiveCheck
