import LiveCheck.Path.Basic

/-!
# Texts put together

Several texts with a separator between neighbours are put together from the front
(`Text.join_cons_cons`), and hold the characters of all of them and of the separator
(`Text.mem_join`, `Text.mem_join_of_mem`). The text of a path is put together in this way from its
names, so that a name behind it adds only its own characters and a slash
(`Path.mem_text_of_child`), and they come behind its text (`Path.text_prefix_child`).
-/

namespace LiveCheck

namespace Text

theorem join_singleton (separator part : Text) : join separator [part] = part := by simp [join]

theorem join_cons_cons (separator part next : Text) (parts : List Text) :
    join separator (part :: next :: parts) =
      part ++ separator ++ join separator (next :: parts) := by
  simp [join]

/-- What the whole is made of, a part or the separator is made of. -/
theorem mem_join {separator : Text} {parts : List Text} {c : Char}
    (h : c ∈ join separator parts) : c ∈ separator ∨ ∃ part ∈ parts, c ∈ part := by
  induction parts with
  | nil => simp [join] at h
  | cons part parts ih =>
    cases parts with
    | nil => exact .inr ⟨part, List.mem_cons_self, by simpa [join] using h⟩
    | cons next rest =>
      rw [join_cons_cons, List.mem_append, List.mem_append] at h
      rcases h with (h | h) | h
      · exact .inr ⟨part, List.mem_cons_self, h⟩
      · exact .inl h
      · exact (ih h).imp_right fun ⟨p, hp, hc⟩ => ⟨p, List.mem_cons_of_mem _ hp, hc⟩

theorem mem_join_of_mem (separator : Text) {parts : List Text} {part : Text} (hpart : part ∈ parts)
    {c : Char} (h : c ∈ part) : c ∈ join separator parts := by
  induction parts with
  | nil => cases hpart
  | cons first parts ih =>
    cases parts with
    | nil =>
      rw [join_singleton, ← List.mem_singleton.1 hpart]
      exact h
    | cons next rest =>
      rw [join_cons_cons, List.mem_append, List.mem_append]
      rcases List.mem_cons.1 hpart with rfl | hpart
      · exact .inl (.inl h)
      · exact .inr (ih hpart)

/-- More parts go behind the ones in front. -/
theorem join_prefix (separator : Text) (parts more : List Text) :
    join separator parts <+: join separator (parts ++ more) := by
  induction parts with
  | nil => exact List.nil_prefix
  | cons part rest ih =>
    cases rest with
    | nil =>
      rw [join_singleton]
      cases more with
      | nil => exact (join_singleton separator part).symm ▸ List.prefix_rfl
      | cons next more =>
        rw [List.singleton_append, join_cons_cons, List.append_assoc]
        exact List.prefix_append _ _
    | cons next rest =>
      rw [List.cons_append, List.cons_append, join_cons_cons, join_cons_cons]
      exact (List.prefix_append_right_inj _).2 ih

end Text

/-- What the text of a path is made of, its root and its names are made of. -/
theorem Path.mem_text {p : Path} {c : Char} (h : c ∈ p.root ∨ ∃ name ∈ p.names, c ∈ name) :
    c ∈ p.text := by
  rw [text, if_neg, List.mem_append]
  · exact h.imp_right fun ⟨name, hname, hc⟩ => Text.mem_join_of_mem _ hname hc
  · rintro ⟨hroot, hnames⟩
    simp [hroot, hnames] at h

/-- A name behind a path adds only its characters and a slash. -/
theorem Path.mem_text_of_child {p : Path} {name : Text} {c : Char}
    (h : c ∈ (p.child name).text) : c ∈ p.text ∨ c = '/' ∨ c ∈ name := by
  rw [text, if_neg (by simp [child]), List.mem_append] at h
  rcases h with h | h
  · exact .inl (mem_text (.inl h))
  rcases Text.mem_join h with h | ⟨part, hpart, hc⟩
  · exact .inr (.inl (List.mem_singleton.1 h))
  rcases List.mem_append.1 hpart with hpart | hpart
  · exact .inl (mem_text (.inr ⟨part, hpart, hc⟩))
  · exact .inr (.inr (List.mem_singleton.1 hpart ▸ hc))

/-- A path is made up of its directory and its last name. -/
theorem Path.exists_child {p : Path} (h : p.names ≠ []) : ∃ name, p = p.parent.child name := by
  refine ⟨p.names.getLast h, ?_⟩
  rw [child, parent, List.dropLast_concat_getLast]

/-- The text of a path goes on from the text of its directory, unless that is the empty path. -/
theorem Path.text_prefix_child (p : Path) (name : Text) :
    p.text = ['.'] ∨ p.text <+: (p.child name).text := by
  by_cases hempty : p.root = [] ∧ p.names = []
  · exact .inl (if_pos hempty)
  · right
    rw [text, text, if_neg hempty, if_neg (by simp [child]), child]
    exact (List.prefix_append_right_inj _).2 (Text.join_prefix _ _ _)

end LiveCheck
