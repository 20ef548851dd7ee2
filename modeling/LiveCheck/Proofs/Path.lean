import LiveCheck.Compiler.Command
import LiveCheck.Disk.Basic

/-!
# Resolved paths and their suffixes

A path is *plain* if it lies below the root and has no double dots (`Path.Plain`), so that its names
are the way to the place it stands for. Resolving makes a path plain (`Path.plain_resolve`), and
replacing its suffix keeps it so (`Path.plain_withSuffix`).

Two paths become one by replacing their suffixes only if they differ in nothing else
(`Path.eq_of_withSuffix`). The listing of a source is the source itself if the settings give
listings the suffix that the source has (`Settings.listingSuffix`, `Path.withSuffix_eq_self_iff`).
-/

namespace LiveCheck

namespace Path

/-- The path lies below the root, and its names lead to it without turning back. -/
def Plain (p : Path) : Prop := p.root = ['/'] ∧ ['.', '.'] ∉ p.names

instance (p : Path) : Decidable p.Plain := inferInstanceAs (Decidable (_ ∧ _))

theorem Plain.ext {p q : Path} (hp : p.Plain) (hq : q.Plain) (h : p.names = q.names) : p = q := by
  have hroot : p.root = q.root := hp.1.trans hq.1.symm
  cases p
  cases q
  simp_all

theorem Plain.fullNames {p : Path} (hp : p.Plain) (here : List Text) :
    p.fullNames here = p.names := by
  rw [Path.fullNames, if_neg (by rw [hp.1]; simp)]

/-! ## Resolving -/

theorem not_mem_follow {start names : List Text} (h : ['.', '.'] ∉ start) :
    ['.', '.'] ∉ follow start names := by
  induction names generalizing start with
  | nil => exact h
  | cons name names ih =>
    rw [follow, List.foldl_cons]
    refine ih ?_
    split
    · exact fun hmem => h ((List.dropLast_subset start) hmem)
    · rename_i hname
      rw [List.mem_append, List.mem_singleton, not_or]
      exact ⟨h, Ne.symm hname⟩

theorem plain_resolve (here : List Text) (p : Path) : (p.resolve here).Plain :=
  ⟨rfl, not_mem_follow List.not_mem_nil⟩

/-! ## Replacing the suffix -/

/-- The last name without its suffix. -/
def stem (p : Path) : Text := p.name.take (p.name.length - p.suffix.length)

theorem suffixOf_suffix (name : Text) : suffixOf name <:+ name := by
  rw [suffixOf]
  split
  · exact List.nil_suffix
  rename_i hlong
  simp only [List.length_reverse, not_or, Nat.not_le, List.isEmpty_reverse] at hlong
  -- The part after the last dot does not make up the whole name, so a dot stands in front of it.
  obtain ⟨c, rest, hrest⟩ : ∃ c rest, name.reverse.dropWhile (· ≠ '.') = c :: rest := by
    refine List.exists_cons_of_ne_nil fun hnil => ?_
    have hwhole := List.takeWhile_append_dropWhile (p := (· ≠ '.')) (l := name.reverse)
    rw [hnil, List.append_nil] at hwhole
    have := congrArg List.length hwhole
    rw [List.length_reverse] at this
    omega
  have hc : c = '.' := by
    have := List.head?_dropWhile_not (fun c : Char => decide (c ≠ '.')) name.reverse
    rw [hrest] at this
    simpa using this
  refine ⟨rest.reverse, ?_⟩
  have hwhole := List.takeWhile_append_dropWhile (p := (· ≠ '.')) (l := name.reverse)
  rw [hrest, hc] at hwhole
  have := congrArg List.reverse hwhole
  simpa using this

theorem stem_append_suffix (p : Path) : p.stem ++ p.suffix = p.name :=
  (List.suffix_iff_eq_append.1 (suffixOf_suffix p.name))

theorem stem_ne_nil {p : Path} (h : p.name ≠ []) : p.stem ≠ [] := by
  have hpos := List.length_pos_iff.2 h
  have hlt : p.suffix.length < p.name.length := by
    rw [suffix, suffixOf]
    split
    · exact hpos
    · rename_i hlong
      simp only [not_or, Nat.not_le] at hlong
      simpa using hlong.2
  rw [stem, ← List.length_pos_iff, List.length_take]
  omega

/-- A path is made up of its parent and its name. -/
theorem names_eq_of_name {p : Path} (h : p.name ≠ []) : p.names = p.names.dropLast ++ [p.name] := by
  rcases List.eq_nil_or_concat p.names with hnil | ⟨front, last, hlast⟩
  · simp [name, hnil] at h
  · simp [name, hlast]

/-- Replacing the suffix keeps all names but the last one, and its stem. -/
theorem withSuffix_eq {p q : Path} {suffix : Text} (h : p.withSuffix suffix = .ok q) :
    suffix ≠ ['.'] ∧ p.name ≠ [] ∧
      q = { p with names := p.names.dropLast ++ [p.stem ++ suffix] } := by
  rw [withSuffix] at h
  split at h
  · simp at h
  split at h
  · simp at h
  · rename_i hsuffix hname
    exact ⟨fun hdot => hsuffix (.inr hdot), by simpa using hname, (Except.ok.inj h).symm⟩

theorem plain_withSuffix {p q : Path} (hp : p.Plain) {suffix : Text} (hne : suffix ≠ [])
    (h : p.withSuffix suffix = .ok q) : q.Plain := by
  obtain ⟨hdot, hname, rfl⟩ := withSuffix_eq h
  refine ⟨hp.1, ?_⟩
  rw [List.mem_append, List.mem_singleton, not_or]
  refine ⟨fun hmem => hp.2 (List.dropLast_subset p.names hmem), fun hdots => hdot ?_⟩
  -- Stem and suffix have a character each, and the suffix would be the second dot.
  obtain ⟨a, stem, hstem⟩ := List.exists_cons_of_ne_nil (stem_ne_nil hname)
  obtain ⟨b, rest, rfl⟩ := List.exists_cons_of_ne_nil hne
  rw [hstem, List.cons_append, List.cons.injEq] at hdots
  cases stem with
  | nil => exact (hdots.2).symm
  | cons c stem => simp at hdots

/-- Paths that become one by replacing their suffixes differ in their suffixes only. -/
theorem eq_of_withSuffix {p p' q : Path} {suffix : Text} (h : p.withSuffix suffix = .ok q)
    (h' : p'.withSuffix suffix = .ok q) : p.parent = p'.parent ∧ p.stem = p'.stem := by
  obtain ⟨-, -, rfl⟩ := withSuffix_eq h
  obtain ⟨-, -, heq⟩ := withSuffix_eq h'
  obtain ⟨hroot, hnames⟩ := Path.mk.inj heq
  obtain ⟨hfront, hlast⟩ := List.append_inj' hnames rfl
  refine ⟨?_, List.append_cancel_right (List.cons.inj hlast).1⟩
  rw [parent, parent, hroot, hfront]

/-- The paths differ in their suffixes, and in nothing else. -/
def Twins (p q : Path) : Prop := p.parent = q.parent ∧ p.stem = q.stem ∧ p.suffix ≠ q.suffix

/-- Two paths that become one by replacing their suffixes are twins. -/
theorem twins_of_withSuffix {p p' q : Path} {suffix : Text} (h : p.withSuffix suffix = .ok q)
    (h' : p'.withSuffix suffix = .ok q) (hne : p ≠ p') : p.Twins p' := by
  obtain ⟨hparent, hstem⟩ := eq_of_withSuffix h h'
  refine ⟨hparent, hstem, fun hsuffix => hne ?_⟩
  have hname : p.name = p'.name := by
    rw [← stem_append_suffix p, ← stem_append_suffix p', hstem, hsuffix]
  obtain ⟨hroot, hfront⟩ := Path.mk.inj hparent
  have hall : p.names = p'.names := by
    rw [names_eq_of_name (withSuffix_eq h).2.1, names_eq_of_name (withSuffix_eq h').2.1, hfront,
      hname]
  cases p
  cases p'
  simp_all

end Path

/-- A resolved path is plain. -/
theorem Disk.plain_of_resolved {d : Disk} {path : Text} {p : Path} (h : d.resolved path = .ok p) :
    p.Plain := by
  rw [resolved] at h
  split at h
  · simp at h
  · exact Except.ok.inj h ▸ Path.plain_resolve _ _

/-- The text of a path below the root is that of a path below the root. -/
theorem Path.Plain.root_ofText {p : Path} (hp : p.Plain) : (Path.ofText p.text).root ≠ [] := by
  have htext : p.text = '/' :: Text.join ['/'] p.names := by simp [Path.text, hp.1]
  rw [htext, Path.ofText, Path.rootOf, List.takeWhile_cons_of_pos (by simp)]
  split <;> simp_all

/-- A text that leads on from the root stands for the same path wherever one is. -/
theorem Disk.resolved_of_rooted {path : Text} (h : (Path.ofText path).root ≠ []) (d d' : Disk) :
    d.resolved path = d'.resolved path := by
  rw [resolved, resolved, Path.resolve, Path.resolve, Path.fullNames, Path.fullNames, if_neg h,
    if_neg h]

/-- A path that is given its own suffix stays as it is, and with any other suffix it does not. -/
theorem Path.withSuffix_eq_self_iff {p q : Path} {suffix : Text} (h : p.withSuffix suffix = .ok q) :
    q = p ↔ suffix = p.suffix := by
  obtain ⟨-, hname, rfl⟩ := withSuffix_eq h
  have hnames := names_eq_of_name hname
  constructor
  · intro hself
    have hall :
        p.names.dropLast ++ [p.stem ++ suffix] = p.names.dropLast ++ [p.stem ++ p.suffix] := by
      rw [stem_append_suffix, ← hnames]
      exact congrArg Path.names hself
    exact List.append_cancel_left (List.cons.inj (List.append_cancel_left hall)).1
  · rintro rfl
    rw [stem_append_suffix, ← hnames]

namespace Settings

/-- The suffix that the settings give to listings, with its dot. With one that is no text, a null
    character stands for every half. -/
def listingSuffix (settings : Settings) : Text :=
  match settings.getOrDefault "listing_ext" with
  | .text ext => '.' :: ext.dropWhile (· = '.')
  | .string (.broken letters) =>
    JsonString.textWith '\x00' (.broken (.char '.' :: letters.dropWhile (· = .char '.')))
  | _ => ['.']

theorem listingSuffix_ne_nil (settings : Settings) : settings.listingSuffix ≠ [] := by
  rw [listingSuffix]
  split <;> simp [JsonString.textWith]

/-- The settings give the listings of all sources one suffix. -/
theorem withSuffix_of_listingPath {settings : Settings} {source listing : Path}
    (h : settings.listingPath source = .ok listing) :
    source.withSuffix settings.listingSuffix = .ok listing := by
  rw [listingPath] at h
  rw [listingSuffix]
  cases hext : settings.getOrDefault "listing_ext" with
  | string ext =>
    rw [hext] at h
    cases ext with
    | text ext =>
      dsimp only at h ⊢
      split at h
      · rename_i hp
        rw [hp, Except.ok.inj h]
      · simp at h
    | broken letters =>
      dsimp only at h ⊢
      split at h
      · rename_i hp
        rw [hp, Except.ok.inj h]
      · simp at h
      · simp at h
  | _ => simp [hext] at h

end Settings

end LiveCheck
