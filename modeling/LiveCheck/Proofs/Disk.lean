import LiveCheck.Proofs.Path

/-!
# Faults of the disk

A path with a null character is refused before the disk is looked at, and no other path is refused
for that reason (`atPath_eq_null_iff`). A walk takes one name at a time, and stops at the first one
that does not lead on (`walkFrom_cons_eq_ok`, `walkFrom_cons_eq_error`).

Whether there is something at a path cannot be told in two cases only: the path, or a name of it, is
too long, or the system denies the look (`Denials.Hides`, `hides_of_pathExists`).

What is on a disk is told by the open disk, on which nothing is denied (`Disk.opened`): a walk that
is not denied goes as on the open disk (`opened_walk`, `opened_walk_error`), and a file is there or
not, whether or not the system lets it be looked at (`hasFile_iff`).
-/

namespace LiveCheck

/-- The path is longer than a path may be, or has a name that is longer than a name may be. -/
def Path.Overlong (p : Path) : Prop :=
  Disk.pathLimit < (Utf8.encode p.text).length ∨
    ∃ name ∈ p.names, Disk.nameLimit < (Utf8.encode name).length

instance (p : Path) : Decidable p.Overlong := inferInstanceAs (Decidable (_ ∨ _))

/-- A denial does not tell that there is nothing. -/
theorem SystemError.meansAbsent_denied (denial : Denial) : (denied denial).meansAbsent = false := by
  have hforeign := denial.foreign
  simp only [treeErrors, List.mem_cons, List.not_mem_nil, or_false, not_or] at hforeign
  simp [meansAbsent, absences, number, hforeign]

/-- What keeps a path from being looked at: it is too long, or the system denies the look at its
    end, or the way through a directory that leads there. -/
inductive Denials.Hides (denials : Denials) (p : Path) : DiskFault → Prop
  /-- The path is too long. -/
  | overlong (h : p.Overlong) : Hides denials p (.system .nameTooLong p.text)
  /-- What is at the path may not be looked at. -/
  | look {denial : Denial} (h : denials .look p.names = some denial) :
    Hides denials p (.system (.denied denial) p.text)
  /-- A directory on the way may not be passed. -/
  | pass {denial : Denial} {way : Place} (hway : way <+: p.names) (hne : way ≠ p.names)
    (h : denials .pass way = some denial) : Hides denials p (.system (.denied denial) p.text)

/-- What keeps a file at a path from being removed: the system denies it at the end of the path, or
    the way through a directory that leads there. -/
inductive Denials.Keeps (denials : Denials) (p : Path) : Prop
  /-- What is at the path may not be removed. -/
  | remove {denial : Denial} (h : denials .remove p.names = some denial) : Keeps denials p
  /-- A directory on the way may not be passed. -/
  | pass {denial : Denial} {way : Place} (hway : way <+: p.names) (hne : way ≠ p.names)
    (h : denials .pass way = some denial) : Keeps denials p

/-- Where nothing is denied, a path that is not too long can be looked at. -/
theorem Denials.none_not_hides {p : Path} (h : ¬p.Overlong) (fault : DiskFault) :
    ¬Denials.none.Hides p fault := by
  intro hhides
  cases hhides with
  | overlong hlong => exact h hlong
  | look hdenied | pass _ _ hdenied => cases hdenied

/-- Where nothing is denied, no file is kept. -/
theorem Denials.none_not_keeps (p : Path) : ¬Denials.none.Keeps p := by
  intro hkeeps
  cases hkeeps with
  | remove hdenied | pass _ _ hdenied => cases hdenied

namespace Disk

variable {d : Disk} {p : Path} {start place : Place} {name : Text} {rest names : List Text}
  {access : Access} {error : SystemError}

/-! ## Walking -/

@[simp] theorem grant_eq_ok : d.grant access place = .ok () ↔ d.denials access place = none := by
  unfold grant
  cases d.denials access place <;> simp

/-- Access fails with what the system denies. -/
theorem grant_eq_error : d.grant access place = .error error ↔
    ∃ denial, d.denials access place = some denial ∧ error = .denied denial := by
  unfold grant
  cases d.denials access place <;> simp [eq_comm]

/-- A walk goes on from a directory that may be passed, along a name that is short enough. -/
theorem walkFrom_cons_eq_ok : d.walkFrom start (name :: rest) = .ok place ↔
    d.node? start = some .directory ∧ d.denials .pass start = none ∧
      ((name = ['.', '.'] ∧ d.walkFrom start.dropLast rest = .ok place) ∨
        (name ≠ ['.', '.'] ∧ (Utf8.encode name).length ≤ nameLimit ∧
          d.walkFrom (start ++ [name]) rest = .ok place)) := by
  rw [walkFrom]
  split
  · simp [*]
  · simp [*]
  · simp only [‹d.node? start = _›, true_and]
    -- What the directory lets pass is asked for before the name is looked at.
    cases hgrant : d.grant .pass start with
    | error e =>
      obtain ⟨denial, hdenial, rfl⟩ := grant_eq_error.1 hgrant
      simp [bind, Except.bind, hdenial]
    | ok granted =>
      simp only [grant_eq_ok.1 hgrant, true_and]
      by_cases hup : name = ['.', '.']
      · simp [bind, Except.bind, hup]
      · by_cases hlong : nameLimit < (Utf8.encode name).length
        · simp [bind, Except.bind, hup, hlong, Nat.not_le_of_lt hlong]
        · simp [bind, Except.bind, hup, hlong, Nat.le_of_not_lt hlong]

/-- A walk stops where no directory leads on or where one may not be passed, at a name that is too
    long, or later. -/
theorem walkFrom_cons_eq_error (h : d.walkFrom start (name :: rest) = .error error) :
    (d.node? start = none ∧ error = .notFound) ∨
    ((∃ bytes executable, d.node? start = some (.file bytes executable)) ∧ error = .notDirectory) ∨
    (d.node? start = some .directory ∧
      ((∃ denial, d.denials .pass start = some denial ∧ error = .denied denial) ∨
        (name ≠ ['.', '.'] ∧ nameLimit < (Utf8.encode name).length ∧ error = .nameTooLong) ∨
        (name = ['.', '.'] ∧ d.walkFrom start.dropLast rest = .error error) ∨
        (name ≠ ['.', '.'] ∧ (Utf8.encode name).length ≤ nameLimit ∧
          d.walkFrom (start ++ [name]) rest = .error error))) := by
  rw [walkFrom] at h
  split at h
  · exact .inl ⟨‹_›, (Except.error.inj h).symm⟩
  · exact .inr (.inl ⟨⟨_, _, ‹_›⟩, (Except.error.inj h).symm⟩)
  · refine .inr (.inr ⟨‹_›, ?_⟩)
    -- In a directory the refusal comes first, then the name, then the rest of the way.
    cases hgrant : d.grant .pass start with
    | error e =>
      rw [hgrant] at h
      obtain rfl : e = error := Except.error.inj h
      exact .inl (grant_eq_error.1 hgrant)
    | ok granted =>
      rw [hgrant] at h
      dsimp only [bind, Except.bind] at h
      split at h
      · exact .inr (.inr (.inl ⟨‹_›, h⟩))
      · split at h
        · exact .inr (.inl ⟨‹_›, ‹_›, (Except.error.inj h).symm⟩)
        · exact .inr (.inr (.inr ⟨‹_›, Nat.le_of_not_lt ‹_›, h⟩))

/-- A walk does not stop because of what is at its end. -/
theorem walkFrom_error (h : d.walkFrom start names = .error error) :
    error ≠ .exists ∧ error ≠ .isDirectory := by
  induction names generalizing start with
  | nil => simp [walkFrom] at h
  | cons name rest ih =>
    rcases walkFrom_cons_eq_error h with
      ⟨-, rfl⟩ | ⟨-, rfl⟩ | ⟨-, ⟨_, -, rfl⟩ | ⟨-, -, rfl⟩ | ⟨-, h⟩ | ⟨-, -, h⟩⟩
    · simp
    · simp
    · simp
    · simp
    · exact ih h
    · exact ih h

/-- A walk that stops at a name that is too long was given such a name. -/
theorem walkFrom_nameTooLong (h : d.walkFrom start names = .error .nameTooLong) :
    ∃ name ∈ names, nameLimit < (Utf8.encode name).length := by
  induction names generalizing start with
  | nil => simp [walkFrom] at h
  | cons name rest ih =>
    rcases walkFrom_cons_eq_error h with
      ⟨-, h⟩ | ⟨-, h⟩ | ⟨-, ⟨denial, -, h⟩ | ⟨-, hlong, -⟩ | ⟨-, h⟩ | ⟨-, -, h⟩⟩
    · cases h
    · cases h
    · cases h
    · exact ⟨name, List.mem_cons_self, hlong⟩
    · obtain ⟨n, hn, hlong⟩ := ih h
      exact ⟨n, List.mem_cons_of_mem _ hn, hlong⟩
    · obtain ⟨n, hn, hlong⟩ := ih h
      exact ⟨n, List.mem_cons_of_mem _ hn, hlong⟩

/-- A walk along names that do not lead up goes down along all of them, and each is short enough. -/
theorem walkFrom_of_plain (hnames : ['.', '.'] ∉ names)
    (hwalk : d.walkFrom start names = .ok place) :
    place = start ++ names ∧ ∀ name ∈ names, (Utf8.encode name).length ≤ nameLimit := by
  induction names generalizing start with
  | nil => simpa [walkFrom, eq_comm] using hwalk
  | cons name rest ih =>
    rw [List.mem_cons, not_or] at hnames
    obtain ⟨-, -, ⟨hup, -⟩ | ⟨-, hshort, hrest⟩⟩ := walkFrom_cons_eq_ok.1 hwalk
    · exact absurd hup.symm hnames.1
    · obtain ⟨rfl, hall⟩ := ih hnames.2 hrest
      refine ⟨by rw [List.append_assoc, List.singleton_append], fun n hn => ?_⟩
      rcases List.mem_cons.1 hn with rfl | hn
      · exact hshort
      · exact hall n hn

/-- A plain path leads to the place that its names spell. -/
theorem walk_of_plain (hp : p.Plain) (hwalk : d.walk p = .ok place) :
    place = p.names ∧ ∀ name ∈ p.names, (Utf8.encode name).length ≤ nameLimit := by
  rw [walk, hp.fullNames] at hwalk
  exact walkFrom_of_plain hp.2 hwalk

/-- A walk that leads down passes every directory on the way. -/
theorem walkFrom_passes (hnames : ['.', '.'] ∉ names) (hwalk : d.walkFrom start names = .ok place)
    {way : Place} (hway : way <+: names) (hne : way ≠ names) :
    d.denials .pass (start ++ way) = none := by
  induction names generalizing start way with
  | nil => exact absurd (List.prefix_nil.1 hway) hne
  | cons name rest ih =>
    rw [List.mem_cons, not_or] at hnames
    obtain ⟨-, hpass, ⟨hup, -⟩ | ⟨-, -, hrest⟩⟩ := walkFrom_cons_eq_ok.1 hwalk
    · exact absurd hup.symm hnames.1
    · cases way with
      | nil => simpa using hpass
      | cons head more =>
        obtain ⟨rfl, hmore⟩ := List.cons_prefix_cons.1 hway
        simpa using ih hnames.2 hrest hmore (by simpa using hne)

/-- A walk that leads down is denied at a directory on the way. -/
theorem walkFrom_denied {denial : Denial} (hnames : ['.', '.'] ∉ names)
    (h : d.walkFrom start names = .error (.denied denial)) : ∃ way, way <+: names ∧ way ≠ names ∧
      d.denials .pass (start ++ way) = some denial := by
  induction names generalizing start with
  | nil => simp [walkFrom] at h
  | cons name rest ih =>
    rw [List.mem_cons, not_or] at hnames
    rcases walkFrom_cons_eq_error h with
      ⟨-, h⟩ | ⟨-, h⟩ | ⟨-, ⟨_, hdenial, h⟩ | ⟨-, -, h⟩ | ⟨h, -⟩ | ⟨-, -, h⟩⟩
    · cases h
    · cases h
    · obtain rfl := SystemError.denied.inj h
      exact ⟨[], List.nil_prefix, by simp, by simpa using hdenial⟩
    · cases h
    · exact absurd h.symm hnames.1
    · obtain ⟨way, hway, hne, hdenial⟩ := ih hnames.2 h
      exact ⟨name :: way, List.cons_prefix_cons.2 ⟨rfl, hway⟩, by simpa using hne,
        by simpa using hdenial⟩

/-! ## Operations at a path -/

/-- The path is one that the system looks at. -/
def Acceptable (p : Path) : Prop := '\x00' ∉ p.text ∧ (Utf8.encode p.text).length ≤ pathLimit

theorem located_eq_ok {α : Type} {result : Except SystemError α} {a : α} :
    located p result = .ok a ↔ result = .ok a := by
  cases result <;> simp [located]

/-- An operation at a path is one at the place that the path leads to. -/
theorem atPath_of_walk {α : Type} {f : Place → Except SystemError α} (hacceptable : Acceptable p)
    (hwalk : d.walk p = .ok place) : d.atPath p f = located p (f place) := by
  rw [atPath, if_neg (by simpa using hacceptable.1), if_neg (Nat.not_lt_of_le hacceptable.2), hwalk]
  rfl

/-- An operation at a path comes off if the system looks at the path, it leads to a place, and the
    operation comes off there. -/
theorem atPath_eq_ok {α : Type} {f : Place → Except SystemError α} {a : α} :
    d.atPath p f = .ok a ↔
      Acceptable p ∧ ∃ place, d.walk p = .ok place ∧ f place = .ok a := by
  rw [atPath, Acceptable]
  by_cases hnull : '\x00' ∈ p.text
  · simp [hnull]
  by_cases hlong : pathLimit < (Utf8.encode p.text).length
  · simp [hnull, hlong, Nat.not_le_of_lt hlong, located]
  simp only [hnull, hlong, List.contains_eq_mem, decide_false, Bool.false_eq_true, if_false,
    located_eq_ok, not_false_eq_true, true_and, Nat.le_of_not_lt hlong]
  cases d.walk p with
  | error e => simp [bind, Except.bind]
  | ok place => simp [bind, Except.bind]

/-- Every operation fails alike for a path with a null character, and for no other one. -/
theorem atPath_eq_null_iff {α : Type} {f : Place → Except SystemError α} :
    d.atPath p f = .error .nullCharacter ↔ '\x00' ∈ p.text := by
  unfold atPath located
  by_cases h : '\x00' ∈ p.text
  · simp [h]
  · by_cases hl : pathLimit < (Utf8.encode p.text).length
    · simp [h, hl]
    · cases hw : d.walk p >>= f <;> simp [h, hl]

/-- No operation at a path fails because too many directories are missing. -/
theorem atPath_ne_tooDeep {α : Type} {f : Place → Except SystemError α} :
    d.atPath p f ≠ .error .tooDeep := by
  unfold atPath located
  split
  · simp
  · split
    · simp
    · cases d.walk p >>= f <;> simp

/-- The system refuses a path because it is too long, because of what it meets on the walk, or
    because of what is at the end. -/
theorem atPath_eq_system {α : Type} {f : Place → Except SystemError α} {path : Text}
    (h : d.atPath p f = .error (.system error path)) :
    path = p.text ∧ ((error = .nameTooLong ∧ pathLimit < (Utf8.encode p.text).length) ∨
      (Acceptable p ∧ (d.walk p = .error error ∨
        ∃ place, d.walk p = .ok place ∧ f place = .error error))) := by
  rw [atPath] at h
  split at h
  · simp at h
  -- A null character is no fault of the system.
  rename_i hnull
  split at h
  · simp only [located, Except.error.injEq, DiskFault.system.injEq] at h
    exact ⟨h.2.symm, .inl ⟨h.1.symm, ‹_›⟩⟩
  rename_i hlong
  have hacceptable : Acceptable p := ⟨by simpa using hnull, Nat.le_of_not_lt hlong⟩
  -- The path is acceptable, so the fault is one of the walk or of what is done at its end.
  cases hw : d.walk p with
  | error e =>
    simp only [hw, bind, Except.bind, located, Except.error.injEq, DiskFault.system.injEq] at h
    exact ⟨h.2.symm, .inr ⟨hacceptable, .inl (congrArg _ h.1)⟩⟩
  | ok place =>
    cases hf : f place with
    | ok a => simp [hw, bind, Except.bind, located, hf] at h
    | error e =>
      simp only [hw, bind, Except.bind, hf, located, Except.error.injEq,
        DiskFault.system.injEq] at h
      exact ⟨h.2.symm, .inr ⟨hacceptable, .inr ⟨place, rfl, hf.trans (congrArg _ h.1)⟩⟩⟩

/-! ## The open disk -/

/-- The same disk, if nothing is denied. -/
def opened (d : Disk) : Disk := { d with denials := .none }

/-- What is at a place does not depend on what is denied. -/
@[simp] theorem node?_opened : d.opened.node? place = d.node? place := rfl

/-- A walk that gets somewhere gets there if nothing is denied. -/
theorem opened_walkFrom (h : d.walkFrom start names = .ok place) :
    d.opened.walkFrom start names = .ok place := by
  induction names generalizing start with
  | nil => exact h
  | cons name rest ih =>
    obtain ⟨hnode, -, ⟨hup, h⟩ | ⟨hdown, hshort, h⟩⟩ := walkFrom_cons_eq_ok.1 h
    · exact walkFrom_cons_eq_ok.2 ⟨hnode, rfl, .inl ⟨hup, ih h⟩⟩
    · exact walkFrom_cons_eq_ok.2 ⟨hnode, rfl, .inr ⟨hdown, hshort, ih h⟩⟩

theorem opened_walk (h : d.walk p = .ok place) : d.opened.walk p = .ok place := opened_walkFrom h

/-- A walk that is not denied stops where it stops on the open disk. -/
theorem opened_walkFrom_error (h : d.walkFrom start names = .error error)
    (hopen : ∀ denial, error ≠ .denied denial) : d.opened.walkFrom start names = .error error := by
  induction names generalizing start with
  | nil => exact h
  | cons name rest ih =>
    have hgrant : d.opened.grant .pass start = .ok () := rfl
    rw [walkFrom]
    rcases walkFrom_cons_eq_error h with ⟨hnode, rfl⟩ | ⟨⟨bytes, executable, hnode⟩, rfl⟩ |
      ⟨hnode, ⟨denial, -, rfl⟩ | ⟨hdown, hlong, rfl⟩ | ⟨hup, h⟩ | ⟨hdown, hshort, h⟩⟩
    · rw [node?_opened, hnode]
    · rw [node?_opened, hnode]
    · exact absurd rfl (hopen denial)
    · simp [node?_opened, hnode, hgrant, bind, Except.bind, hdown, hlong]
    · simpa [node?_opened, hnode, hgrant, bind, Except.bind, hup] using ih h
    · simpa [node?_opened, hnode, hgrant, bind, Except.bind, hdown, Nat.not_lt_of_le hshort]
        using ih h

/-- A walk that fails, but not for what is denied, fails if nothing is denied. -/
theorem opened_walk_error (h : d.walk p = .error error) (hopen : ∀ denial, error ≠ .denied denial) :
    d.opened.walk p = .error error := opened_walkFrom_error h hopen

/-- What the file at a path holds, whether or not the system lets it be read. -/
def contents (d : Disk) (p : Path) : Except DiskFault (List UInt8) := d.opened.readBytes p

/-! ## Looking -/

/-- A look shows what is at the place that the path leads to, if the system lets it be looked at. -/
theorem lookup_eq_ok {node : Node} : d.lookup p = .ok node ↔ Acceptable p ∧ ∃ place,
    d.walk p = .ok place ∧ d.denials .look place = none ∧ d.node? place = some node := by
  rw [lookup, atPath_eq_ok]
  refine and_congr_right fun _ => exists_congr fun place => and_congr_right fun _ => ?_
  cases d.node? place with
  | none => simp
  | some found =>
    cases hgrant : d.grant .look place with
    | error error =>
      obtain ⟨denial, hdenial, rfl⟩ := grant_eq_error.1 hgrant
      simp [Except.map, hdenial]
    | ok granted => simp [Except.map, grant_eq_ok.1 hgrant]

/-- There is a file at the path, whether or not the system lets it be looked at. -/
def HasFile (d : Disk) (p : Path) : Prop :=
  ∃ bytes executable, d.opened.lookup p = .ok (.file bytes executable)

/-- There is a file at a path if it leads to one on the open disk. -/
theorem hasFile_iff : d.HasFile p ↔ Acceptable p ∧ ∃ place, d.opened.walk p = .ok place ∧
    ∃ bytes executable, d.node? place = some (.file bytes executable) := by
  constructor
  · rintro ⟨bytes, executable, hlookup⟩
    obtain ⟨hacceptable, place, hwalk, -, hnode⟩ := lookup_eq_ok.1 hlookup
    exact ⟨hacceptable, place, hwalk, bytes, executable, hnode⟩
  · rintro ⟨hacceptable, place, hwalk, bytes, executable, hnode⟩
    exact ⟨bytes, executable, lookup_eq_ok.2 ⟨hacceptable, place, hwalk, rfl, hnode⟩⟩

/-- What a look at a plain path fails with, if not because there is nothing. -/
theorem hides_of_lookup (hp : p.Plain) {fault : DiskFault} (h : d.lookup p = .error fault)
    (habsent : fault.meansAbsent = false) : d.denials.Hides p fault := by
  cases fault with
  | nullCharacter => cases habsent
  | tooDeep => exact absurd h atPath_ne_tooDeep
  | system error path =>
    obtain ⟨rfl, ⟨rfl, hlong⟩ | ⟨-, hwalk | ⟨place, hwalk, hend⟩⟩⟩ := atPath_eq_system h
    · exact .overlong (.inl hlong)
    · rw [walk, hp.fullNames] at hwalk
      have hnot := walkFrom_error hwalk
      cases error with
      -- Faults that mean that there is nothing hide nothing.
      | notFound | notDirectory => cases habsent
      | «exists» | isDirectory => simp at hnot
      | nameTooLong => exact .overlong (.inr (walkFrom_nameTooLong hwalk))
      | denied denial =>
        obtain ⟨way, hway, hne, hdenial⟩ := walkFrom_denied hp.2 hwalk
        exact .pass hway hne hdenial
    · -- The walk came to its end, so the look itself was refused.
      obtain ⟨rfl, -⟩ := walk_of_plain hp hwalk
      split at hend
      · obtain rfl := Except.error.inj hend
        cases habsent
      · cases hgrant : d.grant .look p.names with
        | ok granted => simp [hgrant, Except.map] at hend
        | error e =>
          obtain ⟨denial, hdenial, rfl⟩ := grant_eq_error.1 hgrant
          rw [hgrant] at hend
          obtain rfl := Except.error.inj hend
          exact .look hdenial

theorem asks_eq_ok {question : Node → Bool} {answer : Bool} : d.asks p question = .ok answer ↔
    (∃ node, d.lookup p = .ok node ∧ answer = question node) ∨
      (∃ fault, d.lookup p = .error fault ∧ fault.meansAbsent = true ∧ answer = false) := by
  rw [asks]
  cases d.lookup p with
  | ok node =>
    simp only [Except.ok.injEq, reduceCtorEq, false_and, exists_false, or_false, exists_eq_left']
    exact ⟨Eq.symm, Eq.symm⟩
  | error fault =>
    simp only [Except.error.injEq, reduceCtorEq, false_and, exists_false, false_or, exists_eq_left']
    split
    · rename_i habsent
      rw [Except.ok.injEq]
      exact ⟨fun h => ⟨habsent, h.symm⟩, fun h => h.2.symm⟩
    · rename_i hpresent
      constructor
      · intro h
        cases h
      · exact fun h => absurd h.1 hpresent

/-- A question about a path fails if the look does, and not for the reason that nothing is there. -/
theorem asks_eq_error {question : Node → Bool} {fault : DiskFault} :
    d.asks p question = .error fault ↔ d.lookup p = .error fault ∧ fault.meansAbsent = false := by
  rw [asks]
  cases d.lookup p with
  | ok node => simp
  | error found =>
    simp only [Except.error.injEq]
    split
    · rename_i habsent
      constructor
      · intro h
        cases h
      · rintro ⟨rfl, hfalse⟩
        rw [habsent] at hfalse
        cases hfalse
    · rename_i habsent
      rw [Except.error.injEq]
      constructor
      · rintro rfl
        exact ⟨rfl, by simpa using habsent⟩
      · exact And.left

/-- Whether there is something at a plain path cannot be told only if something hides it. -/
theorem hides_of_pathExists (hp : p.Plain) {fault : DiskFault} (h : d.pathExists p = .error fault) :
    d.denials.Hides p fault :=
  let ⟨hlookup, habsent⟩ := asks_eq_error.1 h
  hides_of_lookup hp hlookup habsent

/-- What is found at a plain path is not hidden. -/
theorem not_hides_of_pathExists (hp : p.Plain) (h : d.pathExists p = .ok true) (fault : DiskFault) :
    ¬d.denials.Hides p fault := by
  obtain ⟨node, hlookup⟩ : ∃ node, d.lookup p = .ok node := by
    rcases asks_eq_ok.1 h with ⟨node, hnode, -⟩ | ⟨fault, -, -, hfalse⟩
    · exact ⟨node, hnode⟩
    · cases hfalse
  obtain ⟨hacceptable, place, hwalk, hlook, -⟩ := lookup_eq_ok.1 hlookup
  obtain ⟨rfl, hshort⟩ := walk_of_plain hp hwalk
  rw [walk, hp.fullNames] at hwalk
  intro hhides
  -- Each of the causes would have kept the look-up from succeeding.
  cases hhides with
  | overlong hlong =>
    rcases hlong with hlong | ⟨name, hname, hlong⟩
    · exact absurd hacceptable.2 (Nat.not_le_of_lt hlong)
    · exact absurd (hshort name hname) (Nat.not_le_of_lt hlong)
  | look hdenied =>
    rw [hlook] at hdenied
    cases hdenied
  | pass hway hne hdenied =>
    have hpassed := walkFrom_passes hp.2 hwalk hway hne
    rw [List.nil_append, hdenied] at hpassed
    cases hpassed

/-- There is nothing at a path with a null character. -/
theorem not_mem_null_of_pathExists (h : d.pathExists p = .ok true) : '\x00' ∉ p.text := by
  intro hnull
  have hlookup : d.lookup p = .error .nullCharacter := atPath_eq_null_iff.2 hnull
  rcases asks_eq_ok.1 h with ⟨node, hnode, -⟩ | ⟨fault, -, -, hfalse⟩
  · rw [hlookup] at hnode
    cases hnode
  · cases hfalse

end Disk

end LiveCheck
