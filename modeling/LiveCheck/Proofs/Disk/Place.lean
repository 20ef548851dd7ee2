import LiveCheck.Proofs.Disk.Change
import Mathlib.Data.List.Infix

/-!
# What is at a place

What planting a node makes of every place of a disk is told by `Disk.node?_plant`: the node comes to
its place, and directories to the empty places on the way.

What an operation finds at a path depends on what is at the places on the way to it, and at its end
(`Disk.Agree`).
-/

namespace LiveCheck.Disk

variable {d d' : Disk} {p : Path} {place q : Place} {node : Node} {bytes : List UInt8}

/-! ## Planting -/

/-- The places behind a place on the way along some names: the next one, and those behind that. -/
theorem behind_iff {start r : Place} {name : Text} {rest : List Text} :
    (r ≠ start ∧ start <+: r ∧ r <+: start ++ name :: rest) ↔ r = start ++ [name] ∨
      (r ≠ start ++ [name] ∧ start ++ [name] <+: r ∧ r <+: start ++ [name] ++ rest) := by
  rw [← List.append_cons]
  constructor
  · rintro ⟨hne, ⟨way, rfl⟩, hto⟩
    rw [List.prefix_append_right_inj] at hto
    rcases way with _ | ⟨first, way⟩
    · simp at hne
    · obtain ⟨rfl, -⟩ := List.cons_prefix_cons.1 hto
      -- A place on the way is the first one, or lies behind it.
      by_cases hway : way = []
      · exact .inl (by rw [hway])
      · exact .inr ⟨by simpa using hway, ⟨way, by simp⟩, by simpa using hto⟩
  · rintro (rfl | ⟨-, hfrom, hto⟩)
    · exact ⟨by simp, List.prefix_append _ _, by simp⟩
    · refine ⟨?_, (List.prefix_append _ _).trans hfrom, hto⟩
      rintro rfl
      have := hfrom.length_le
      rw [List.length_append, List.length_singleton] at this
      omega

/-- Clearing the way puts directories at all places of the way at which there is nothing. -/
theorem node?_clearWay (start : Place) (names : List Text) (r : Place) :
    (d.clearWay start names).node? r =
      if d.node? r = none ∧ r ≠ start ∧ start <+: r ∧ r <+: start ++ names then some .directory
      else d.node? r := by
  induction names generalizing d start with
  | nil =>
    rw [clearWay, if_neg]
    rintro ⟨-, hne, hfrom, hto⟩
    rw [List.append_nil] at hto
    exact hne (hto.eq_of_length_le hfrom.length_le)
  | cons name rest ih =>
    simp only [clearWay, ih, behind_iff]
    -- The first directory on the way is made now, the others by the induction.
    by_cases hr : r = start ++ [name]
    · subst hr
      cases hnode : d.node? (start ++ [name]) with
      | none => simp [node?_setNode]
      | some node => simp [hnode]
    · have hget : (if (d.node? (start ++ [name])).isSome then d
          else d.setNode (start ++ [name]) .directory).node? r = d.node? r := by
        split
        · rfl
        · rw [node?_setNode (by simp), if_neg hr]
      simp only [hget, hr, false_or, ne_eq, not_false_eq_true]

/-- What is at a place after a node was planted there. -/
def planted : Option Node → Node → Node
  | some .directory, _ => .directory
  | some (.file _ true), .file bytes _ => .file bytes true
  | _, node => node

/-- On the way to a place there are directories. The places on the way are those in front of the
    place, and the root is never empty. -/
theorem node?_clearWay_of_ne (d : Disk) (front : Place) (last : Text) ⦃r : Place⦄
    (hr : r ≠ front ++ [last]) : (d.clearWay [] front).node? r =
      if d.node? r = none ∧ r <+: front ++ [last] then some .directory else d.node? r := by
  simp only [node?_clearWay, List.nil_append, List.nil_prefix, true_and, List.prefix_concat_iff,
    hr, false_or]
  refine if_congr (and_congr_right fun hnone => and_iff_right ?_) rfl rfl
  rintro rfl
  simp [node?] at hnone

/-- The way to a place does not reach the place. -/
theorem node?_clearWay_self (d : Disk) (front : Place) (last : Text) :
    (d.clearWay [] front).node? (front ++ [last]) = d.node? (front ++ [last]) := by
  rw [node?_clearWay, if_neg]
  rintro ⟨-, -, -, hto⟩
  have := hto.length_le
  rw [List.nil_append, List.length_append, List.length_singleton] at this
  omega

/-- After a node was planted, it is at its place, with directories on the way to it where there was
    nothing. -/
theorem node?_plant (h : place ≠ []) (node : Node) (r : Place) :
    (d.plant place node).node? r =
      if r = place then some (planted (d.node? place) node)
      else if d.node? r = none ∧ r <+: place then some .directory else d.node? r := by
  obtain ⟨front, last, rfl⟩ := (List.eq_nil_or_concat place).resolve_left h
  rw [List.concat_eq_append] at h ⊢
  have hclear := d.node?_clearWay_of_ne front last
  have hself := d.node?_clearWay_self front last
  unfold plant
  rw [List.dropLast_concat]
  -- What the node is put on is what was there before the way was cleared.
  generalize d.clearWay [] front = d₁ at hclear hself
  have hset : ∀ node, (d₁.setNode (front ++ [last]) node).node? r =
      if r = front ++ [last] then some node
      else if d.node? r = none ∧ r <+: front ++ [last] then some .directory else d.node? r := by
    intro node
    rw [node?_setNode h]
    split
    · rfl
    · exact hclear ‹_›
  dsimp only
  split
  · rename_i hnode
    split
    · subst r
      rw [hnode, ← hself, hnode]
      rfl
    · exact hclear ‹_›
  · rename_i hnode
    rw [hset, ← hself, hnode]
    rfl
  · rename_i hdirectory hprogram
    rw [hset, ← hself]
    rw [planted]
    · exact hdirectory
    · exact hprogram

/-! ## Finding -/

/-- The same is at a place in both disks, and at all places on the way to it, and the same is
    denied. -/
structure Agree (place : Place) (d d' : Disk) : Prop extends Frame d d' where
  node : ∀ q, q <+: place → d'.node? q = d.node? q

theorem Agree.refl (place : Place) (d : Disk) : Agree place d d := ⟨.refl d, fun _ _ => rfl⟩

theorem Agree.trans {d'' : Disk} (h : Agree place d d') (h' : Agree place d' d'') :
    Agree place d d'' :=
  ⟨h.toFrame.trans h'.toFrame, fun q hq => (h'.node q hq).trans (h.node q hq)⟩

/-- The same is granted where the same is denied. -/
theorem Frame.grant (h : Frame d d') (access : Access) (place : Place) :
    d'.grant access place = d.grant access place := by
  rw [Disk.grant, Disk.grant, h.denials]

/-- A walk goes the same way on disks that agree along it. -/
theorem walkFrom_of_agree {start : Place} {names : List Text} (hnames : ['.', '.'] ∉ names)
    (hframe : Frame d d')
    (h : ∀ way, way <+: names → d'.node? (start ++ way) = d.node? (start ++ way)) :
    d'.walkFrom start names = d.walkFrom start names := by
  induction names generalizing start with
  | nil => rfl
  | cons name rest ih =>
    rw [List.mem_cons, not_or] at hnames
    have hstart : d'.node? start = d.node? start := by simpa using h [] List.nil_prefix
    have hrest : d'.walkFrom (start ++ [name]) rest = d.walkFrom (start ++ [name]) rest := by
      refine ih hnames.2 fun way hway => ?_
      rw [← List.append_cons]
      exact h _ (List.cons_prefix_cons.2 ⟨rfl, hway⟩)
    simp only [walkFrom, hstart, hrest, hframe.grant, if_neg (Ne.symm hnames.1)]

/-- Disks that agree at a place lead to it alike. -/
theorem Agree.walk (h : Agree p.names d d') (hp : p.Plain) : d'.walk p = d.walk p := by
  rw [Disk.walk, Disk.walk, h.here, hp.fullNames]
  exact walkFrom_of_agree hp.2 h.toFrame fun way hway => by simpa using h.node way hway

/-- What is found at a plain path is found at the place that its names spell. -/
theorem Agree.atPath (h : Agree p.names d d') (hp : p.Plain) {α : Type}
    {f f' : Place → Except SystemError α} (hf : f' p.names = f p.names) :
    d'.atPath p f' = d.atPath p f := by
  rw [Disk.atPath, Disk.atPath, h.walk hp]
  cases hwalk : d.walk p with
  | error error => rfl
  | ok place =>
    obtain ⟨rfl, -⟩ := walk_of_plain hp hwalk
    simp only [bind, Except.bind, hf]

theorem Agree.lookup (h : Agree p.names d d') (hp : p.Plain) : d'.lookup p = d.lookup p :=
  h.atPath hp (by rw [h.node _ (List.prefix_refl _), h.grant])

theorem Agree.pathExists (h : Agree p.names d d') (hp : p.Plain) :
    d'.pathExists p = d.pathExists p := by
  rw [Disk.pathExists, Disk.pathExists, asks, asks, h.lookup hp]

/-- Disks that agree at a place read the same there. -/
theorem Agree.readBytes (h : Agree p.names d d') (hp : p.Plain) : d'.readBytes p = d.readBytes p :=
  h.atPath hp (by rw [h.node _ (List.prefix_refl _), h.grant])

/-- The file at a plain path holds the same, whether or not the system lets it be read. -/
theorem Agree.contents (h : Agree p.names d d') (hp : p.Plain) : d'.contents p = d.contents p := by
  have hopened : Agree p.names d.opened d'.opened := ⟨h.toFrame.opened, h.node⟩
  exact hopened.readBytes hp

/-! ### The same change in both disks -/

theorem Agree.setNode (h : Agree place d d') (hq : q ≠ []) (node : Node) :
    Agree place (d.setNode q node) (d'.setNode q node) := by
  refine ⟨⟨h.here, h.denials⟩, fun r hr => ?_⟩
  rw [node?_setNode hq, node?_setNode hq, h.node r hr]

theorem Agree.removeNode (h : Agree place d d') (hq : q ≠ []) :
    Agree place (d.removeNode q) (d'.removeNode q) := by
  refine ⟨⟨h.here, h.denials⟩, fun r hr => ?_⟩
  rw [node?_removeNode hq, node?_removeNode hq, h.node r hr]

/-- Disks that agree at a place still do when the same is planted on both. -/
theorem Agree.plant (h : Agree place d d') (hq : q ≠ []) (node : Node) :
    Agree place (d.plant q node) (d'.plant q node) := by
  refine ⟨((frame_plant q node).symm.trans h.toFrame).trans (frame_plant q node), fun r hr => ?_⟩
  rw [node?_plant hq, node?_plant hq, h.node r hr]
  split
  · rw [h.node q (‹r = q› ▸ hr)]
  · rfl

/-- An operation at a plain path has the same outcome in both disks. -/
theorem Agree.atPath_disk (h : Agree p.names d d') (hp : p.Plain)
    {f f' : Place → Except SystemError Disk} {R : Disk → Disk → Prop}
    (hf : (∃ error, f p.names = .error error ∧ f' p.names = .error error) ∨
      ∃ d₁ d₁', f p.names = .ok d₁ ∧ f' p.names = .ok d₁' ∧ R d₁ d₁') :
    (∃ fault, d.atPath p f = .error fault ∧ d'.atPath p f' = .error fault) ∨
      ∃ d₁ d₁', d.atPath p f = .ok d₁ ∧ d'.atPath p f' = .ok d₁' ∧ R d₁ d₁' := by
  rw [Disk.atPath, Disk.atPath, h.walk hp]
  split
  · exact .inl ⟨_, rfl, rfl⟩
  split
  · exact .inl ⟨_, rfl, rfl⟩
  cases hwalk : d.walk p with
  | error error => exact .inl ⟨_, rfl, rfl⟩
  | ok r =>
    obtain ⟨rfl, -⟩ := walk_of_plain hp hwalk
    simp only [bind, Except.bind]
    rcases hf with ⟨error, herror, herror'⟩ | ⟨d₁, d₁', hd, hd', hR⟩
    · rw [herror, herror']
      exact .inl ⟨_, rfl, rfl⟩
    · rw [hd, hd']
      exact .inr ⟨d₁, d₁', rfl, rfl, hR⟩

/-- A change that the system is asked for is made in both disks, or in none. -/
theorem Agree.granted (h : Agree p.names d d') (access : Access) {R : Disk → Disk → Prop}
    {d₁ d₁' : Disk} (hR : R d₁ d₁') :
    (∃ error, (d.grant access p.names).map (fun _ => d₁) = .error error ∧
        (d'.grant access p.names).map (fun _ => d₁') = .error error) ∨
      ∃ d₂ d₂', (d.grant access p.names).map (fun _ => d₁) = .ok d₂ ∧
        (d'.grant access p.names).map (fun _ => d₁') = .ok d₂' ∧ R d₂ d₂' := by
  rw [h.grant]
  cases d.grant access p.names with
  | error error => exact .inl ⟨error, rfl, rfl⟩
  | ok granted => exact .inr ⟨d₁, d₁', rfl, rfl, hR⟩

/-- A text is written to both disks, or to none. -/
theorem Agree.writeText (h : Agree p.names d d') (hp : p.Plain) (text : Text) :
    (∃ fault, d.writeText p text = .error fault ∧ d'.writeText p text = .error fault) ∨
      ∃ d₁ d₁', d.writeText p text = .ok d₁ ∧ d'.writeText p text = .ok d₁' ∧
        ∀ place, Agree place d d' → Agree place d₁ d₁' := by
  refine h.atPath_disk hp ?_
  rw [h.node _ (List.prefix_refl _)]
  have hwrite (hnode : d.node? p.names ≠ some .directory) (node : Node) (place : Place)
      (hplace : Agree place d d') :
      Agree place (d.setNode p.names node) (d'.setNode p.names node) :=
    hplace.setNode (ne_nil_of_node? hnode) node
  cases hnode : d.node? p.names with
  | none => exact h.granted .write (hwrite (by simp [hnode]) _)
  | some node =>
    cases node with
    | directory => exact .inl ⟨_, rfl, rfl⟩
    | file => exact h.granted .write (hwrite (by simp [hnode]) _)

/-- A file is removed from both disks, or from none. -/
theorem Agree.removeFile (h : Agree p.names d d') (hp : p.Plain) :
    (∃ fault, d.removeFile p = .error fault ∧ d'.removeFile p = .error fault) ∨
      ∃ d₁ d₁', d.removeFile p = .ok d₁ ∧ d'.removeFile p = .ok d₁' ∧
        ∀ place, Agree place d d' → Agree place d₁ d₁' := by
  refine h.atPath_disk hp ?_
  rw [h.node _ (List.prefix_refl _), h.grant]
  cases hnode : d.node? p.names with
  | none => exact .inl ⟨_, rfl, rfl⟩
  | some node =>
    cases d.grant .remove p.names with
    | error error => exact .inl ⟨error, rfl, rfl⟩
    | ok granted =>
      cases node with
      | directory => exact .inl ⟨_, rfl, rfl⟩
      | file =>
        have hroot : p.names ≠ [] := ne_nil_of_node? (d := d) (by simp [hnode])
        exact .inr ⟨_, _, rfl, rfl, fun _ h => h.removeNode hroot⟩

/-! ### A change elsewhere -/

/-- A node that is put somewhere else than on the way to a place does not matter there. -/
theorem agree_setNode (hq : q ≠ []) (hto : ¬q <+: place) (node : Node) :
    Agree place d (d.setNode q node) := by
  refine ⟨⟨rfl, rfl⟩, fun r hr => ?_⟩
  rw [node?_setNode hq, if_neg]
  rintro rfl
  exact hto hr

/-- A file that is written somewhere else than on the way to a place does not matter there. -/
theorem agree_writeText (hp : p.Plain) (hto : ¬p.names <+: place) {text : Text}
    (h : d.writeText p text = .ok d') : Agree place d d' := by
  obtain ⟨-, r, executable, hwalk, -, hnode, rfl⟩ := writeBytes_eq_ok h
  obtain ⟨rfl, -⟩ := walk_of_plain hp hwalk
  exact agree_setNode (ne_nil_of_node? hnode) hto _

/-- A file that is removed somewhere else than on the way to a place does not matter there. -/
theorem agree_removeFile (hp : p.Plain) (hto : ¬p.names <+: place) (h : d.removeFile p = .ok d') :
    Agree place d d' := by
  obtain ⟨-, r, hwalk, -, ⟨bytes, executable, hnode⟩, rfl⟩ := removeFile_eq_ok.1 h
  obtain ⟨rfl, -⟩ := walk_of_plain hp hwalk
  refine ⟨⟨rfl, rfl⟩, fun r hr => ?_⟩
  rw [node?_removeNode (ne_nil_of_node? (d := d) (by simp [hnode])), if_neg]
  rintro rfl
  exact hto hr

/-- A node that is planted where the directories are there is all that comes in. -/
theorem agree_plant (hq : q ≠ []) (hto : ¬q <+: place)
    (hway : ∀ r, r <+: q → r ≠ q → d.node? r = some .directory) (node : Node) :
    Agree place d (d.plant q node) := by
  refine ⟨frame_plant q node, fun r hr => ?_⟩
  have hne : r ≠ q := by
    rintro rfl
    exact hto hr
  rw [node?_plant hq, if_neg hne, if_neg]
  rintro ⟨hnone, hrq⟩
  simp [hway r hrq hne] at hnone

/-! ## What holds on to the ground -/

/-- If there is something at the place, there is something at all places on the way to it. -/
def Grounded (d : Disk) (place : Place) : Prop :=
  (d.node? place).isSome → ∀ q, q <+: place → (d.node? q).isSome

/-- Does everything on the disk hold on to the ground? -/
def grounded (d : Disk) : Bool :=
  d.nodes.keys.all fun place => place.inits.all fun q => (d.node? q).isSome

/-- A disk that checks grounded holds on to the ground everywhere. -/
theorem grounded_of_check (h : d.grounded = true) (place : Place) : d.Grounded place := by
  intro hplace q hq
  by_cases hroot : place = []
  · rw [hroot, List.prefix_nil] at hq
    simp [node?, hq]
  · have hkey : place ∈ d.nodes.keys := by
      rw [node?, if_neg hroot] at hplace
      exact (Table.mem_keys_iff _ _).2 (Option.isSome_iff_exists.1 hplace)
    exact List.all_eq_true.1 (List.all_eq_true.1 h place hkey) q ((List.mem_inits q place).2 hq)

theorem isSome_plant (h : q ≠ []) (hplace : (d.node? place).isSome) :
    ((d.plant q node).node? place).isSome := by
  rw [node?_plant h]
  split
  · rfl
  · split
    · rfl
    · exact hplace

/-- Planting a node leaves a place that holds on to the ground doing so. -/
theorem Grounded.plant (h : d.Grounded place) (hq : q ≠ []) : (d.plant q node).Grounded place := by
  intro hplace r hr
  by_cases hbefore : (d.node? place).isSome
  · exact isSome_plant hq (h hbefore r hr)
  · -- The place was empty, so it is the planted one or on the way to it, and so is the other one.
    have hto : place <+: q := by
      rw [node?_plant hq] at hplace
      split at hplace
      · exact ‹place = q› ▸ List.prefix_refl _
      · split at hplace
        · exact (‹_ ∧ place <+: q›).2
        · exact absurd hplace hbefore
    rw [node?_plant hq]
    split
    · rfl
    · split
      · rfl
      · rename_i hnot
        exact Option.isSome_iff_ne_none.2 fun hnone => hnot ⟨hnone, hr.trans hto⟩

/-- Where a file was removed, nothing is left to stand on the ground. -/
theorem Grounded.removeFile (hp : p.Plain)
    (hremove : d.removeFile p = .ok d') : d'.Grounded p.names := by
  obtain ⟨-, r, hwalk, -, ⟨bytes, executable, hnode⟩, rfl⟩ := removeFile_eq_ok.1 hremove
  obtain ⟨rfl, -⟩ := walk_of_plain hp hwalk
  intro hplace
  rw [node?_removeNode (ne_nil_of_node? (d := d) (by simp [hnode])), if_pos rfl] at hplace
  simp at hplace

/-- What is read after something was planted elsewhere was there before. -/
theorem readBytes_of_plant (hp : p.Plain) (hq : q ≠ []) (hto : ¬q <+: p.names)
    (hground : d.Grounded p.names) (hread : (d.plant q node).readBytes p = .ok bytes) :
    d.readBytes p = .ok bytes := by
  obtain ⟨-, r, hwalk, -, executable, hnode⟩ := readBytes_eq_ok.1 hread
  obtain ⟨rfl, -⟩ := walk_of_plain hp hwalk
  have hne : q ≠ p.names := fun heq => hto (heq ▸ List.prefix_refl _)
  have hsome : (d.node? p.names).isSome := by rw [file_of_plant hne hnode]; rfl
  have hagree : Agree p.names d (d.plant q node) := by
    refine ⟨frame_plant q node, fun r hr => ?_⟩
    rw [node?_plant hq, if_neg, if_neg]
    · rintro ⟨hnone, -⟩
      simpa [hnone] using hground hsome r hr
    · rintro rfl
      exact hto hr
  rwa [hagree.readBytes hp] at hread

/-- What is read where something was planted was planted. -/
theorem readBytes_plant_self (hp : p.Plain) (hne : p.names ≠ [])
    (hread : (d.plant p.names node).readBytes p = .ok bytes) :
    ∃ executable, node = .file bytes executable := by
  obtain ⟨-, r, hwalk, -, executable, hnode⟩ := readBytes_eq_ok.1 hread
  obtain ⟨rfl, -⟩ := walk_of_plain hp hwalk
  rw [node?_plant hne, if_pos rfl, Option.some.injEq] at hnode
  unfold planted at hnode
  split at hnode
  · simp at hnode
  · simp only [Node.file.injEq] at hnode
    exact ⟨_, by rw [hnode.1]⟩
  · exact ⟨executable, hnode⟩

/-- Writing another file leaves a place that holds on to the ground doing so. -/
theorem Grounded.writeText (h : d.Grounded place) {path : Path} (hpath : path.Plain)
    (hne : path.names ≠ place) {text : Text} (hwrite : d.writeText path text = .ok d') :
    d'.Grounded place := by
  obtain ⟨-, r, executable, hwalk, -, hnode, rfl⟩ := writeBytes_eq_ok hwrite
  obtain ⟨rfl, -⟩ := walk_of_plain hpath hwalk
  have hget := fun r => @node?_setNode d path.names (.file (Utf8.encode text) executable)
    (ne_nil_of_node? hnode) r
  intro hplace r hr
  rw [hget, if_neg (Ne.symm hne)] at hplace
  rw [hget]
  split
  · rfl
  · exact h hplace r hr

/-- What is read after another file was written was there before. -/
theorem readBytes_of_writeText {path : Path} (hp : p.Plain) (hpath : path.Plain)
    (hne : path ≠ p) {text : Text} (hwrite : d.writeText path text = .ok d')
    (hread : d'.readBytes p = .ok bytes) : d.readBytes p = .ok bytes := by
  obtain ⟨hok, r, hwalk, hgranted, executable, hnode⟩ := readBytes_eq_ok.1 hread
  obtain ⟨rfl, -⟩ := walk_of_plain hp hwalk
  obtain ⟨-, place, _, hwalkTo, -, hempty, rfl⟩ := writeBytes_eq_ok hwrite
  obtain ⟨rfl, -⟩ := walk_of_plain hpath hwalkTo
  have hroot := ne_nil_of_node? hempty
  refine readBytes_eq_ok.2 ⟨hok, p.names, ?_, hgranted, executable, ?_⟩
  · exact walk_of_directoriesIn (directoriesIn_of_setFile hroot) ⟨rfl, rfl⟩ hwalk
  · rwa [node?_setNode hroot, if_neg fun hnames => hne (hpath.ext hp hnames.symm)] at hnode

end LiveCheck.Disk
