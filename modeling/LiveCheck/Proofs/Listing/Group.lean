import LiveCheck.Proofs.Listing.Marker

/-!
# Groups of codes

A group of codes stands behind every dollar sign that has a digit right after it (`groupPlaces`),
and holds the codes of the longest list that begins there: runs of digits with single commas between
them (`IsCodeList`, `IsLongestList`). There is just one such list, and `leadingCodes` finds it
(`isLongestList_iff`): what follows the list that it reads would not go on with a list
(`exists_join_codesFrom`), while in the text of a list a digit follows every comma
(`IsCodeList.head_of_comma`).

The search goes on right behind a dollar sign, and not behind its list. Since no list holds a dollar
sign, no two groups overlap for all that. The main theorem tells all markers of a line
(`findMarkers_groups`).
-/

namespace LiveCheck

/-! ## Lists of codes -/

/-- A list of codes: there is one at least, and each is a run of digits. -/
structure IsCodeList (codes : List Text) : Prop where
  nonempty : codes ≠ []
  digits : ∀ code ∈ codes, code ≠ [] ∧ ∀ c ∈ code, isDecimalDigit c

/-- The codes are those of the longest comma-separated list that a text begins with. -/
structure IsLongestList (text : Text) (codes : List Text) : Prop where
  isCodeList : IsCodeList codes
  starts : Text.join [','] codes <+: text
  longest : ∀ others, IsCodeList others → Text.join [','] others <+: text →
    (Text.join [','] others).length ≤ (Text.join [','] codes).length

/-- A list in front of the text could go on with it, with a digit or with a comma and a digit. -/
def CodesGoOn (rest : Text) : Prop :=
  rest.head?.any isDecimalDigit ∨ ∃ more, rest = ',' :: more ∧ more.head?.any isDecimalDigit

variable {codes : List Text} {text : Text}

/-- A list is made of digits and commas. -/
theorem IsCodeList.mem_join (h : IsCodeList codes) {c : Char} (hc : c ∈ Text.join [','] codes) :
    c = ',' ∨ isDecimalDigit c := by
  rcases Text.mem_join hc with hc | ⟨code, hcode, hc⟩
  · exact .inl (List.mem_singleton.1 hc)
  · exact .inr ((h.digits code hcode).2 c hc)

theorem IsCodeList.head_join (h : IsCodeList codes) :
    (Text.join [','] codes).head?.any isDecimalDigit := by
  obtain ⟨code, codes, rfl⟩ := List.exists_cons_of_ne_nil h.nonempty
  obtain ⟨hne, hdigits⟩ := h.digits code List.mem_cons_self
  simpa using LiveCheck.head_join hne hdigits codes []

theorem comma_not_mem {code : Text} (h : ∀ c ∈ code, isDecimalDigit c) : ',' ∉ code :=
  fun hmem => absurd (h ',' hmem) (by decide)

/-- In a list, a digit follows every comma. -/
theorem IsCodeList.head_of_comma (h : IsCodeList codes) {before after : Text}
    (hsplit : Text.join [','] codes = before ++ ',' :: after) :
    after.head?.any isDecimalDigit := by
  induction codes generalizing before with
  | nil => exact absurd rfl h.nonempty
  | cons code codes ih =>
    have hcode := comma_not_mem (h.digits code List.mem_cons_self).2
    cases codes with
    | nil =>
      rw [Text.join_singleton] at hsplit
      exact absurd (hsplit ▸ List.mem_append_right _ List.mem_cons_self) hcode
    | cons next codes =>
      have htail : IsCodeList (next :: codes) :=
        ⟨List.cons_ne_nil _ _, fun d hd => h.digits d (List.mem_cons_of_mem _ hd)⟩
      rw [Text.join_cons_cons, List.append_assoc, List.singleton_append] at hsplit
      -- The comma is the one behind the first code, or one of the rest of the list.
      rcases List.append_eq_append_iff.1 hsplit with ⟨between, -, hafter⟩ | ⟨left, hleft, hafter⟩
      · cases between with
        | nil => exact (List.cons.inj hafter).2 ▸ htail.head_join
        | cons c between => exact ih htail (List.cons.inj hafter).2
      · cases left with
        | nil => exact (List.cons.inj hafter).2 ▸ htail.head_join
        | cons c left =>
          obtain rfl := (List.cons.inj hafter).1
          exact absurd (hleft ▸ List.mem_append_right _ List.mem_cons_self) hcode

/-! ## The list that is read -/

theorem codesFrom_ne_nil (code text : Text) : codesFrom code text ≠ [] := by
  induction text generalizing code with
  | nil => exact List.cons_ne_nil _ _
  | cons c rest ih =>
    rw [codesFrom]
    split
    · exact ih _
    · split <;> exact List.cons_ne_nil _ _

/-- Reading stops where a list would not go on. -/
theorem exists_join_codesFrom (code text : Text) :
    ∃ rest, code ++ text = Text.join [','] (codesFrom code text) ++ rest ∧ ¬CodesGoOn rest := by
  induction text generalizing code with
  | nil => exact ⟨[], by rw [codesFrom, Text.join_singleton], by simp [CodesGoOn]⟩
  | cons c rest ih =>
    rw [codesFrom]
    split
    · obtain ⟨left, hread, hleft⟩ := ih (code ++ [c])
      exact ⟨left, by rw [← hread, List.append_assoc, List.singleton_append], hleft⟩
    · rename_i hdigit
      split
      · rename_i hcomma
        -- A comma with a digit after it begins the next code.
        obtain ⟨rfl, -⟩ : c = ',' ∧ _ := by simpa using hcomma
        obtain ⟨left, hread, hleft⟩ := ih []
        obtain ⟨next, codes, hcodes⟩ := List.exists_cons_of_ne_nil (codesFrom_ne_nil [] rest)
        rw [hcodes, List.nil_append] at hread
        refine ⟨left, ?_, hleft⟩
        rw [hcodes, Text.join_cons_cons, List.append_assoc, List.append_assoc, ← hread,
          List.singleton_append]
      · rename_i hcomma
        refine ⟨c :: rest, by rw [Text.join_singleton], ?_⟩
        rintro (hhead | ⟨more, hmore, hhead⟩)
        · exact hdigit hhead
        · obtain ⟨rfl, rfl⟩ := List.cons.inj hmore
          exact hcomma (by simpa using hhead)

theorem isCodeList_leadingCodes (h : text.head?.any isDecimalDigit) :
    IsCodeList (leadingCodes text) := by
  rw [leadingCodes, if_pos h]
  refine ⟨codesFrom_ne_nil [] text, fun code hcode => ?_⟩
  exact digits_of_mem_codesFrom (fun _ hd => absurd hd List.not_mem_nil) (.inr h) hcode

/-- The codes that are read behind a dollar sign are those of the longest list there. -/
theorem isLongestList_leadingCodes (h : text.head?.any isDecimalDigit) :
    IsLongestList text (leadingCodes text) := by
  obtain ⟨rest, hread, hrest⟩ := exists_join_codesFrom [] text
  have hcodes : leadingCodes text = codesFrom [] text := if_pos h
  rw [List.nil_append, ← hcodes] at hread
  refine ⟨isCodeList_leadingCodes h, ⟨rest, hread.symm⟩, fun others hothers hstarts => ?_⟩
  -- A longer list would go on behind the one that was read.
  refine Nat.le_of_not_lt fun hlonger => ?_
  obtain ⟨more, hmore⟩ :=
    List.prefix_of_prefix_length_le ⟨rest, hread.symm⟩ hstarts (Nat.le_of_lt hlonger)
  obtain ⟨left, hleft⟩ := hstarts
  obtain rfl : more ++ left = rest :=
    List.append_cancel_left (by rw [← hread, ← List.append_assoc, hmore, hleft])
  cases more with
  | nil => exact absurd hlonger (by rw [← hmore, List.append_nil]; exact Nat.lt_irrefl _)
  | cons c more =>
    refine hrest ?_
    rcases hothers.mem_join (hmore ▸ List.mem_append_right _ List.mem_cons_self) with rfl | hc
    · have hhead := hothers.head_of_comma hmore.symm
      refine .inr ⟨more ++ left, rfl, ?_⟩
      obtain ⟨d, more, rfl⟩ :=
        List.exists_cons_of_ne_nil (l := more) (by rintro rfl; simp at hhead)
      exact hhead
    · exact .inl hc

/-- The text of a list tells its codes. -/
theorem IsCodeList.leadingCodes_join (h : IsCodeList codes) :
    leadingCodes (Text.join [','] codes) = codes := by
  have hends : EndsCodes [] := nofun
  simpa using LiveCheck.leadingCodes_join h.digits h.nonempty hends

/-- There is one longest list. -/
theorem IsLongestList.unique {others : List Text} (h : IsLongestList text codes)
    (hothers : IsLongestList text others) : codes = others := by
  have hlength : (Text.join [','] codes).length = (Text.join [','] others).length :=
    Nat.le_antisymm (hothers.longest codes h.isCodeList h.starts)
      (h.longest others hothers.isCodeList hothers.starts)
  have hprefix := List.prefix_of_prefix_length_le h.starts hothers.starts (Nat.le_of_eq hlength)
  have hjoin : Text.join [','] codes = Text.join [','] others := hprefix.eq_of_length hlength
  rw [← h.isCodeList.leadingCodes_join, hjoin, hothers.isCodeList.leadingCodes_join]

/-- The list that is read is the longest one, and there is no other. -/
theorem isLongestList_iff (h : text.head?.any isDecimalDigit) :
    IsLongestList text codes ↔ codes = leadingCodes text :=
  ⟨fun hcodes => hcodes.unique (isLongestList_leadingCodes h),
    fun hcodes => hcodes ▸ isLongestList_leadingCodes h⟩

/-! ## The places of the groups -/

/-- The places of a line where a group begins: those of the dollar signs with a digit right after
    them. -/
def groupPlaces (text : Text) : List Nat :=
  (List.range text.length).filter fun i => text[i]? = some '$' ∧ text[i + 1]?.any isDecimalDigit

/-- The markers of a group that begins at a place. -/
def markersAt (place : Nat) (codes : List Text) : List Marker :=
  codes.map fun code => ⟨code, place - 2⟩

/-- A group begins where a dollar sign is followed by a digit. -/
theorem mem_groupPlaces {text : Text} {i : Nat} :
    i ∈ groupPlaces text ↔ text[i]? = some '$' ∧ text[i + 1]?.any isDecimalDigit := by
  rw [groupPlaces, List.mem_filter, List.mem_range, decide_eq_true_eq, and_iff_right_iff_imp]
  exact fun ⟨hdollar, _⟩ => (List.getElem?_eq_some_iff.1 hdollar).1

/-- All markers of a group have the column of its dollar sign, without the asterisks. -/
theorem column_of_mem_markersAt {place : Nat} {m : Marker} (h : m ∈ markersAt place codes) :
    m.column = place - 2 := by
  obtain ⟨code, -, rfl⟩ := List.mem_map.1 h
  rfl

/-- The groups of a text are the one at its head, if there is one, and those of the rest. -/
theorem groupPlaces_cons (c : Char) (rest : Text) :
    groupPlaces (c :: rest) =
      (if c = '$' ∧ rest.head?.any isDecimalDigit then [0] else []) ++
        (groupPlaces rest).map (· + 1) := by
  have hrest : (fun i => decide ((c :: rest)[i]? = some '$' ∧
      (c :: rest)[i + 1]?.any isDecimalDigit)) ∘ Nat.succ =
        fun i => decide (rest[i]? = some '$' ∧ rest[i + 1]?.any isDecimalDigit) := by
    funext i
    simp
  rw [groupPlaces, List.length_cons, List.range_succ_eq_map, List.filter_cons, List.filter_map,
    hrest, ← groupPlaces]
  simp only [List.getElem?_cons_zero, Option.some.injEq, List.getElem?_cons_succ,
    List.head?_eq_getElem?, decide_eq_true_eq]
  split <;> rfl

/-- Groups come in the order of their places. -/
theorem groupPlaces_pairwise (text : Text) : (groupPlaces text).Pairwise (· < ·) :=
  List.Pairwise.filter _ List.pairwise_lt_range

/-- The scan for markers is a scan for groups. -/
theorem markersFrom_eq_groups (offset : Nat) (text : Text) :
    markersFrom offset text = (groupPlaces text).flatMap fun i =>
      markersAt (offset + i) (leadingCodes (text.drop (i + 1))) := by
  induction text generalizing offset with
  | nil => rfl
  | cons c rest ih =>
    rw [markersFrom, groupPlaces_cons, List.flatMap_append, List.flatMap_map, ih]
    congr 1
    · by_cases hc : c = '$' <;> by_cases hhead : rest.head?.any isDecimalDigit
      · simp [hc, hhead, markersAt, markerShift]
      · simp [hc, hhead, leadingCodes]
      · simp [hc]
      · simp [hc]
    · simp only [List.drop_succ_cons, Nat.add_assoc, Nat.add_comm 1]

/-- The dollar sign of a group stands behind the lists of the groups before it. -/
theorem groupPlaces_apart (text : Text) : (groupPlaces text).Pairwise fun i j =>
    i + (Text.join [','] (leadingCodes (text.drop (i + 1)))).length < j := by
  refine (groupPlaces_pairwise text).imp_of_mem fun {i j} hi hj hij => ?_
  obtain ⟨-, hhead⟩ := mem_groupPlaces.1 hi
  obtain ⟨hdollar, -⟩ := mem_groupPlaces.1 hj
  rw [← List.head?_drop] at hhead
  obtain ⟨rest, hrest⟩ := (isLongestList_leadingCodes hhead).starts
  refine Nat.lt_of_not_le fun hle => ?_
  -- Otherwise the dollar sign would be one of the characters of the list.
  have hat : (text.drop (i + 1))[j - (i + 1)]? = some '$' := by
    rw [List.getElem?_drop, Nat.add_sub_cancel' hij, hdollar]
  rw [← hrest, List.getElem?_append_left (by omega)] at hat
  rcases (isCodeList_leadingCodes hhead).mem_join (List.mem_of_getElem? hat) with h | h
  · exact absurd h (by decide)
  · exact absurd h (by decide)

/-- **All markers of a line.** Behind each dollar sign with a digit after it there is just one
    longest list of codes, and these lists do not overlap. The markers of a line are the codes of
    the lists, from left to right, each with the place of the dollar sign less two. So each code is
    a run of digits, columns do not decrease, they are equal for the codes of one dollar sign only,
    and no dollar sign with a digit after it is left out. -/
theorem findMarkers_groups (text : Text) :
    ∃ group : Nat → List Text,
      (∀ i ∈ groupPlaces text, ∀ codes,
        IsLongestList (text.drop (i + 1)) codes ↔ codes = group i) ∧
      (groupPlaces text).Pairwise (fun i j => i + (Text.join [','] (group i)).length < j) ∧
      findMarkers text = (groupPlaces text).flatMap (fun i => markersAt i (group i)) ∧
      (∀ m ∈ findMarkers text, m.code ≠ [] ∧ ∀ c ∈ m.code, isDecimalDigit c) ∧
      (findMarkers text).Pairwise (·.column ≤ ·.column) ∧
      (∀ m ∈ findMarkers text, ∀ n ∈ findMarkers text, m.column = n.column ↔
        ∃ i ∈ groupPlaces text, m ∈ markersAt i (group i) ∧ n ∈ markersAt i (group i)) ∧
      ∀ i : Nat, text[i]? = some '$' → text[i + 1]?.any isDecimalDigit →
        ∃ m ∈ findMarkers text, m.column = i - 2 := by
  let group (i : Nat) : List Text := leadingCodes (text.drop (i + 1))
  have hlongest : ∀ i ∈ groupPlaces text, ∀ codes,
      IsLongestList (text.drop (i + 1)) codes ↔ codes = group i := by
    intro i hi codes
    refine isLongestList_iff ?_
    rw [List.head?_drop]
    exact (mem_groupPlaces.1 hi).2
  have hmarkers : findMarkers text = (groupPlaces text).flatMap fun i => markersAt i (group i) := by
    rw [findMarkers, markersFrom_eq_groups]
    simp only [Nat.zero_add, group]
  have hmem : ∀ m ∈ findMarkers text, ∃ i ∈ groupPlaces text, m ∈ markersAt i (group i) := by
    rw [hmarkers]
    exact fun m hm => List.mem_flatMap.1 hm
  refine ⟨group, hlongest, groupPlaces_apart text, hmarkers, fun m => digits_of_mem_findMarkers,
    ?_, fun m hm n hn => ⟨fun hcolumn => ?_, ?_⟩, fun i hdollar hdigit => ?_⟩
  · -- Within a group the columns are equal, and from group to group they rise.
    rw [hmarkers, List.pairwise_flatMap]
    refine ⟨fun i _ => List.pairwise_map.2 (List.pairwise_of_forall fun _ _ => Int.le_refl _),
      (groupPlaces_pairwise text).imp fun {i j} hij m hm n hn => ?_⟩
    rw [column_of_mem_markersAt hm, column_of_mem_markersAt hn]
    omega
  · obtain ⟨i, hi, hmi⟩ := hmem m hm
    obtain ⟨j, hj, hnj⟩ := hmem n hn
    rw [column_of_mem_markersAt hmi, column_of_mem_markersAt hnj] at hcolumn
    obtain rfl : i = j := by omega
    exact ⟨i, hi, hmi, hnj⟩
  · rintro ⟨i, -, hmi, hni⟩
    rw [column_of_mem_markersAt hmi, column_of_mem_markersAt hni]
  · -- A dollar sign with a digit after it names one code at least.
    have hi := mem_groupPlaces.2 ⟨hdollar, hdigit⟩
    obtain ⟨code, codes, hgroup⟩ :=
      List.exists_cons_of_ne_nil ((hlongest i hi _).2 rfl).isCodeList.nonempty
    refine ⟨⟨code, i - 2⟩, ?_, rfl⟩
    rw [hmarkers]
    refine List.mem_flatMap.2 ⟨i, hi, ?_⟩
    rw [hgroup]
    exact List.mem_cons_self

/-- A second dollar sign in a row, a second comma in a row, and a comma in front of the end. -/
example : findMarkers "****  $$1,20,,3$4$5,".toList =
    [⟨['1'], 5⟩, ⟨['2', '0'], 5⟩, ⟨['4'], 13⟩, ⟨['5'], 15⟩] := by
  decide +kernel

end LiveCheck
