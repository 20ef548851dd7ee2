import LiveCheck.Proofs.Check.Turn
import LiveCheck.Proofs.Disk.Change

/-!
# What a turn does

A session *sets out* when its turn has come and it is still the newest one of its source
(`Session.SetOut`): its text is saved, and its compiler asked for. All that it does to the disk
later on is *litter* (`Litter`): its compiler leaves something in the place of a listing, and its
own listing is deleted. A session whose text is none does not set out: its turn empties the source,
and its task ends (`Session.Spoils`).

There is one lemma for each turn of a check: `proceed_overtaken`, `proceed_unsaved`,
`proceed_spoiled` and `proceed_saved` for a session whose turn has come, `launch_follows` and
`collect_follows` for one that set out. They tell in one go how the session goes on, what happens to
the disk, and which compiler is asked for (`Follows`). So any turn of a task that has its source to
itself gets to one of its ends (`Turn.reaches`).
-/

namespace LiveCheck

/-- The session got its turn while it was the newest one of its source. One that was overtaken
    before has neither a process nor a fault. -/
def Session.SetOut (s : Session) : Prop :=
  s.phase ≠ .idle ∧ (s.phase = .superseded → s.process.isSome ∨ s.fault.isSome)

/-- The session got its turn, but its text could not be saved. -/
def Session.Unsaved (s : Session) : Prop :=
  s.phase = .reportedEmpty ∧ s.process = none ∧ ∃ fault, s.fault = some (.disk fault)

/-- What becomes of the disk when the text of the session is saved, if it has one. -/
def Session.Saves (s : Session) (d d' : Disk) : Prop :=
  match s.text with
  | none => d' = d
  | some text => ∃ written, text.encode = .ok written ∧ d.writeText s.source written = .ok d'

/-- What becomes of the disk when the text of the session is none: the source is emptied. -/
def Session.Spoils (s : Session) (d d' : Disk) : Prop :=
  ∃ text fault, s.text = some text ∧ text.encode = .error fault ∧ d.writeText s.source [] = .ok d'

/-- A change to the disk that a session makes after it was saved. -/
inductive Litter (s : Session) (d : Disk) : Disk → Prop
  /-- The compiler leaves something. -/
  | leave {p : CompilerProcess} {path : Path} {node : Node} : s.process = some p →
      p.behaviour.early = some node ∨ p.behaviour.listing = some node →
      s.source.withSuffix ('.' :: p.behaviour.listingSuffix) = .ok path →
      Litter s d (d.plant (path.fullNames d.here) node)
  /-- The listing is deleted. -/
  | remove {d' : Disk} : d.removeFile s.listing = .ok d' → Litter s d d'

/-- A session that is past its beginning, and was not overtaken, has set out. -/
theorem Session.setOut_of_phase {s : Session} (h : s.phase ≠ .idle) (h' : s.phase ≠ .superseded) :
    s.SetOut :=
  ⟨h, fun hs => absurd hs h'⟩

/-- A session whose text could not be saved had set out. -/
theorem Session.Unsaved.setOut {s : Session} (h : s.Unsaved) : s.SetOut :=
  setOut_of_phase (by simp [h.1]) (by simp [h.1])

theorem Session.deliver_fault (s : Session) (diagnostics : List Diagnostic) :
    (s.deliver diagnostics).fault = s.fault := by
  rw [Session.deliver]
  split <;> rfl

@[simp] theorem started_behaviour (s : Session) (b : Behaviour) : (s.started b).behaviour = b := by
  rw [Session.started]
  split <;> rfl

theorem written_of_encode {text : JsonString} {written : Text} (h : text.encode = .ok written) :
    text.written = written := by
  cases text with
  | text value => exact Except.ok.inj h
  | broken letters => cases h

theorem written_of_encode_error {text : JsonString} {fault : EncodingFault}
    (h : text.encode = .error fault) : text.written = [] := by
  cases text with
  | text value => cases h
  | broken letters => rfl

/-- A session that is saved leaves the disk as it is, or writes its source. -/
theorem Session.Saves.writes {s : Session} {d d' : Disk} (h : s.Saves d d') :
    d' = d ∨ s.text.isSome ∧ ∃ written, d.writeText s.source written = .ok d' := by
  rw [Session.Saves] at h
  split at h
  · exact .inl h
  · rename_i text htext
    obtain ⟨written, -, hwrite⟩ := h
    exact .inr ⟨by rw [htext]; rfl, written, hwrite⟩

/-- Writing a source keeps all directories: nothing is written at the root. -/
theorem directories_of_writeText {source : Path} {d d' : Disk} {written : Text}
    (hs : source.Plain) (h : d.writeText source written = .ok d') : Disk.Spares [] d d' := by
  refine Disk.spares_writeText hs (fun hnil => ?_) h
  obtain ⟨-, r, executable, hwalk, -, hnode, -⟩ := Disk.writeBytes_eq_ok h
  obtain ⟨rfl, -⟩ := Disk.walk_of_plain hs hwalk
  exact Disk.ne_nil_of_node? hnode hnil

/-- Saving a session spares all places but that of its source. -/
theorem Session.Saves.spares {s : Session} {d d' : Disk} (h : s.Saves d d') (hs : s.source.Plain)
    {place : Place} (hne : s.text.isSome → s.source.names ≠ place) : Disk.Spares place d d' := by
  rcases h.writes with rfl | ⟨hsome, written, hwrite⟩
  · exact .refl place d'
  · exact Disk.spares_writeText hs (hne hsome) hwrite

/-- Saving a text moves no directory. -/
theorem Session.Saves.directories {s : Session} {d d' : Disk} (h : s.Saves d d')
    (hs : s.source.Plain) : Disk.Spares [] d d' := by
  rcases h.writes with rfl | ⟨-, written, hwrite⟩
  · exact .refl [] d'
  · exact directories_of_writeText hs hwrite

/-- A session without a process brings no file about. -/
theorem hasFile_of_litter {s : Session} {d d' : Disk} (hp : s.process = none)
    (h : Relation.ReflTransGen (Litter s) d d') {p : Path} (hfile : d'.HasFile p) :
    d.HasFile p := by
  induction h with
  | refl => exact hfile
  | tail _ hlitter ih =>
    cases hlitter with
    | leave hsome => simp [hp] at hsome
    | remove hd => exact ih (Disk.hasFile_of_removeFile hd hfile)

/-- Saving a session brings no file about but its source. -/
theorem Session.Saves.hasFile {s : Session} {d d' : Disk} (h : s.Saves d d') {p : Path}
    (hp : p.Plain) (hs : s.source.Plain) (hne : s.source ≠ p) (hfile : d'.HasFile p) :
    d.HasFile p := by
  rcases h.writes with rfl | ⟨-, written, hwrite⟩
  · exact hfile
  · exact Disk.hasFile_of_writeText hp hs hne hwrite hfile

/-- A session that is left where it was made has a text that is none. -/
theorem Left.of_idle {around : Engine.Surroundings} {b : Behaviour} {progress : Progress}
    {s : Session} (h : Left around b progress s) (hidle : s.phase = .idle) :
    ∃ text fault, s.text = some text ∧ text.encode = .error fault ∧
      progress = .ends (.failed (.text fault)) := by
  cases h with
  | unwritable htext hencode => exact ⟨_, _, htext, hencode, rfl⟩
  | finished hfinal => simp [hidle, Phase.isFinal] at hfinal
  | untold _ hphase => simp [hidle] at hphase
  | asked hphase | running hphase | uncallable _ hphase | rejected _ hphase | unseen _ hphase
    | null _ hphase => simp [hidle] at hphase

namespace Engine

variable {e e' : Engine} {b : Behaviour} {s s' : Session} {r : Engine × Progress}
  {asked : List Spawn}

/-- A process keeps its behaviour, whatever its session does. -/
theorem Act.process {x y : Engine × Session} (h : Act x y) {p : CompilerProcess}
    (hp : x.2.process = some p) : ∃ q, y.2.process = some q ∧ q.behaviour = p.behaviour := by
  cases h with
  | start b hnone => exact absurd (hnone.symm.trans hp) nofun
  | exit status hold =>
    obtain rfl := Option.some.inj (hp.symm.trans hold)
    exact ⟨_, rfl, rfl⟩
  | report => exact ⟨p, (Session.deliver_process _ _).trans hp, rfl⟩
  | _ => exact ⟨p, hp, rfl⟩

/-- A compiler that has started stays with its session through a turn. -/
theorem Works.process {x y : Engine × Session} (h : Works x y) {p : CompilerProcess}
    (hp : x.2.process = some p) : ∃ q, y.2.process = some q ∧ q.behaviour = p.behaviour :=
  h.preserves (P := fun z => ∃ q, z.2.process = some q ∧ q.behaviour = p.behaviour)
    (fun _ _ ha ⟨_, hq, hb⟩ => (ha.process hq).imp fun _ h => ⟨h.1, h.2.trans hb⟩) ⟨p, hp, rfl⟩

/-- No session goes back to where it was made. -/
theorem Act.phase_ne_idle {x y : Engine × Session} (h : Act x y) (hx : x.2.phase ≠ .idle) :
    y.2.phase ≠ .idle := by
  cases h with
  | @move e s next hnext =>
    rintro rfl
    revert hnext
    cases s.phase <;> decide
  | report _ _ _ hnext =>
    rw [Session.deliver_phase]
    rcases hnext with rfl | rfl <;> simp
  | _ => exact hx

/-- No turn leads back to the first phase. -/
theorem Works.phase_ne_idle {x y : Engine × Session} (h : Works x y) (hx : x.2.phase ≠ .idle) :
    y.2.phase ≠ .idle :=
  h.preserves (P := fun z => z.2.phase ≠ .idle) (fun _ _ ha => ha.phase_ne_idle) hx

/-- What a session litters, it litters in all its later forms. -/
theorem Works.litter {x y : Engine × Session} (h : Works x y) {d d' : Disk}
    (hl : Litter x.2 d d') : Litter y.2 d d' := by
  cases hl with
  | @leave p path node hp hnode hpath =>
    obtain ⟨q, hq, hb⟩ := h.process hp
    exact .leave hq (hb ▸ hnode) (by rw [h.same.source, hb, hpath])
  | remove hd => exact .remove (h.same.listing ▸ hd)

/-! ## Moving and reporting -/

/-- Nothing happens to the disk, and no compiler is asked for. -/
structure Still (e e' : Engine) : Prop where
  disk : e'.disk = e.disk
  spawns : e'.spawns = e.spawns

theorem Still.trans {e'' : Engine} (h : Still e e') (h' : Still e' e'') : Still e e'' :=
  ⟨h'.disk.trans h.disk, h'.spawns.trans h.spawns⟩

theorem note_still (e : Engine) (events : List Event) : Still e (e.note events) := ⟨rfl, rfl⟩

theorem putSession_still (e : Engine) (s : Session) : Still e (e.putSession s) := ⟨rfl, rfl⟩

theorem moved_still (e : Engine) (s : Session) (next : Phase) : Still e (e.moved s next) :=
  ⟨rfl, rfl⟩

/-- A report goes to its receiver alone: the disk and the spawns stay as they were. -/
theorem deliver_still (e : Engine) (s : Session) (diagnostics : List Diagnostic) :
    Still e (e.deliver s diagnostics) := by
  obtain ⟨deliveries, log, hd⟩ := e.deliver_eq s diagnostics
  rw [hd]
  exact ⟨rfl, rfl⟩

theorem readDiagnostics_still (e : Engine) (s : Session) : Still e (e.readDiagnostics s).1 := by
  rw [readDiagnostics]
  split
  · exact ⟨rfl, rfl⟩
  split
  · exact ⟨rfl, rfl⟩
  dsimp only
  split <;> exact ⟨rfl, rfl⟩

/-- Reading and reporting a listing leaves the disk and the spawns as they were. -/
theorem reportListing_still (hs : s.phase = .parsing) : Still e (e.reportListing s).1 := by
  have hread := e.readDiagnostics_still s
  rw [reportListing]
  split
  · rename_i e₁ diagnostics h
    rw [h] at hread
    rw [report_eq (by rw [hs]; decide)]
    exact hread.trans ((moved_still _ _ _).trans (deliver_still _ _ _))
  · rename_i e₁ fault h
    rw [h] at hread
    dsimp only
    rw [reportEmpty, report_eq (s := { s with fault := some fault }) (by simp only [hs]; decide)]
    exact hread.trans ((note_still _ _).trans ((putSession_still _ _).trans
      ((moved_still _ _ _).trans (deliver_still _ _ _))))

/-! ## After the compiler has exited -/

/-- The listing of a session is deleted, and nothing else happens. A file is left there only if the
    system keeps it. -/
structure Cleared (e : Engine) (s : Session) (e' : Engine) : Prop where
  spawns : e'.spawns = e.spawns
  disk : e'.disk = e.disk ∨ e.disk.removeFile s.listing = .ok e'.disk
  kept : e'.disk.HasFile s.listing → e.disk.denials.Keeps s.listing

theorem Still.cleared {e'' : Engine} (h : Still e e') (h' : Cleared e' s e'') : Cleared e s e'' :=
  ⟨h'.spawns.trans h.spawns, h.disk ▸ h'.disk, h.disk ▸ h'.kept⟩

theorem Cleared.congr {s : Session} (h : Cleared e s e') (hlisting : s.listing = s'.listing) :
    Cleared e s' e' :=
  ⟨h.spawns, hlisting ▸ h.disk, hlisting ▸ h.kept⟩

/-- A file that is not there need not be deleted. -/
theorem Still.cleared_of_no_file (h : Still e e') (hfile : ¬e.disk.HasFile s.listing) :
    Cleared e s e' :=
  ⟨h.spawns, .inl h.disk, fun hleft => absurd (h.disk ▸ hleft) hfile⟩

/-- Removing the listing clears it away, or the system keeps it. -/
theorem removeListing_cleared (e : Engine) (hs : s.listing.Plain) :
    Cleared e s (e.removeListing s).1 := by
  rw [removeListing]
  split
  · exact ⟨rfl, .inr ‹_›, fun hfile => absurd hfile (Disk.no_file_of_removeFile ‹_›)⟩
  · exact ⟨rfl, .inl rfl, Disk.keeps_of_removeFile hs ‹_›⟩
  · exact ⟨rfl, .inl rfl, Disk.keeps_of_removeFile hs ‹_›⟩
  · exact ⟨rfl, .inl rfl, Disk.keeps_of_removeFile hs ‹_›⟩

/-- The look at the listing of the newest session fails. -/
def Unseen (e : Engine) (s : Session) (fault : DiskFault) : Prop :=
  e.isCurrent s ∧ e.disk.pathExists s.listing = .error fault

/-- Nothing catches the fault of a look, so the session stays where it is. -/
theorem Unseen.afterExit {fault : DiskFault} (h : Unseen e s fault) (status : Int) :
    e.afterExit s status = (e, .ends (.failed (.disk fault))) := by
  rw [Engine.afterExit, h.1, h.2]
  rfl

/-- After the exit of its compiler a session clears its listing away, unless the look at it
    fails. -/
theorem afterExit_cleared (hs : s.phase = .running) (hplain : s.listing.Plain)
    (hseen : ∀ fault, ¬Unseen e s fault) (status : Int) :
    Cleared e s (e.afterExit s status).1 := by
  have hover : .superseded ∈ s.phase.successors := by rw [hs]; decide
  have hempty : .reportedEmpty ∈ s.phase.successors := by rw [hs]; decide
  have hparse : .parsing ∈ s.phase.successors := by rw [hs]; decide
  rw [afterExit]
  split
  · rw [supersede_eq hover]
    simp only [endTurn_fst]
    exact (moved_still e s _).cleared (removeListing_cleared _ hplain)
  · rename_i hc
    split
    · rename_i fault hfault
      exact absurd ⟨by simpa using hc, hfault⟩ (hseen fault)
    · -- There is no listing to clear away.
      rw [reportEmpty, report_eq hempty, endTurn_fst]
      refine Still.cleared_of_no_file ?_ (Disk.no_file_of_pathExists ‹_›)
      exact (note_still e _).trans ((moved_still _ _ _).trans (deliver_still _ _ _))
    · -- The listing is read and reported, and then removed.
      rw [move_eq hparse]
      have hreport := reportListing_still (e := e.moved s .parsing) (s := s.to .parsing) rfl
      have hremove := removeListing_cleared (s := s.to .parsing)
        ((e.moved s .parsing).reportListing (s.to .parsing)).1 hplain
      have hboth : Cleared e s _ :=
        ((moved_still e s .parsing).trans hreport).cleared (hremove.congr rfl)
      dsimp only
      rwa [endTurn_fst]

/-- How a session that set out comes to the end of a turn. -/
structure Follows (e : Engine) (b : Behaviour) (s : Session) (r : Engine × Progress)
    (asked : List Spawn) (s' : Session) : Prop where
  works : Works (e, s) (r.1, s')
  left : Left e.surroundings b r.2 s'
  spawns : r.1.spawns = e.spawns ++ asked
  disk : Relation.ReflTransGen (Litter s') e.disk r.1.disk
  setOut : s'.SetOut
  saved : ¬s'.Unsaved
  kept : s'.process.isSome → s'.phase.isFinal → r.1.disk.HasFile s'.listing →
    e.disk.denials.Keeps s'.listing

/-- What was done before the last part of a turn. -/
theorem Follows.after {e₁ : Engine} {s₁ : Session} {later : List Spawn}
    (hworks : Works (e, s) (e₁, s₁)) (hspawns : e₁.spawns = e.spawns ++ asked)
    (hdisk : Relation.ReflTransGen (Litter s₁) e.disk e₁.disk) (h : Follows e₁ b s₁ r later s') :
    Follows e b s r (asked ++ later) s' where
  works := hworks.trans h.works
  left := hworks.kept.surroundings ▸ h.left
  spawns := by rw [h.spawns, hspawns, List.append_assoc]
  disk := (Relation.ReflTransGen.mono (fun _ _ => h.works.litter) _ _ hdisk).trans h.disk
  setOut := h.setOut
  saved := h.saved
  kept := hworks.kept.frame.denials ▸ h.kept

/-- A session with a process set out, and was saved. -/
theorem Follows.of_process (hworks : Works (e, s) (r.1, s')) (hleft : Left e.surroundings b r.2 s')
    (hspawns : r.1.spawns = e.spawns ++ asked)
    (hdisk : Relation.ReflTransGen (Litter s') e.disk r.1.disk) {p : CompilerProcess}
    (hp : s'.process = some p) (hphase : s'.phase ≠ .idle) (hkept : s'.phase.isFinal →
      r.1.disk.HasFile s'.listing → e.disk.denials.Keeps s'.listing) :
    Follows e b s r asked s' :=
  ⟨hworks, hleft, hspawns, hdisk, ⟨hphase, fun _ => .inl (by simp [hp])⟩,
    fun h => by simp [Session.Unsaved, hp] at h, fun _ => hkept⟩

/-- What comes after the exit of the compiler is how a session that set out ends its turn. -/
theorem afterExit_follows (hs : s.phase = .running) (hr : s.Rests) {q : CompilerProcess}
    (hq : s.process = some q) (hplain : s.listing.Plain) (status : Int) :
    ∃ s', Follows e b s (e.afterExit s status) [] s' := by
  have hne : s.phase ≠ .idle := by simp [hs]
  -- If the look at the listing fails, so does the check, and the listing is not removed.
  by_cases hseen : ∃ fault, Unseen e s fault
  · obtain ⟨fault, hunseen⟩ := hseen
    rw [hunseen.afterExit]
    refine ⟨s, .of_process .refl (.unseen ?_ hs hr) (List.append_nil _).symm .refl hq hne ?_⟩
    · exact Disk.hides_of_pathExists hplain hunseen.2
    · simp [hs, Phase.isFinal]
  · obtain ⟨s', hworks, hleft⟩ := afterExit_reaches (e := e) (b := b) hs hr hplain status
    have hcleared := afterExit_cleared hs hplain (not_exists.1 hseen) status
    obtain ⟨q', hq', -⟩ := hworks.process hq
    refine ⟨s', .of_process hworks hleft ?_ ?_ hq' (hworks.phase_ne_idle hne) fun _ => ?_⟩
    · rw [hcleared.spawns, List.append_nil]
    · rcases hcleared.disk with hd | hd
      · rw [hd]
      · exact .single (.remove (hworks.same.listing ▸ hd))
    · rw [hworks.same.listing]
      exact hcleared.kept

/-- Collecting the exit of the compiler is how a session that set out ends its turn. -/
theorem collect_follows (hs : s.phase = .running) (hr : s.Rests) {q : CompilerProcess}
    (hq : s.process = some q) (hplain : s.listing.Plain) (p : CompilerProcess) (status : Int) :
    ∃ s', Follows e b s (e.collect s p status) [] s' := by
  obtain ⟨s', h⟩ := afterExit_follows (e := e.note _) hs hr hq hplain status
  exact ⟨s', .after (Act.note _).works (List.append_nil _).symm .refl h⟩

/-! ## Up to the compiler's exit -/

/-- The output of a compiler comes next to the source, under the suffix that the compiler gives
    it. -/
theorem outputPlace_eq_some {b : Behaviour} {place : Place} (h : e.outputPlace s b = some place) :
    ∃ path, s.source.withSuffix ('.' :: b.listingSuffix) = .ok path ∧
      place = path.fullNames e.disk.here := by
  rw [outputPlace] at h
  split at h
  · exact ⟨_, ‹_›, (Option.some.inj h).symm⟩
  · simp at h

/-- A compiler does not leave its listing at the root. -/
theorem outputPlace_ne_nil {b : Behaviour} {place : Place} (hs : s.source.Plain)
    (h : e.outputPlace s b = some place) : place ≠ [] := by
  obtain ⟨path, hpath, rfl⟩ := outputPlace_eq_some h
  rw [(Path.plain_withSuffix hs (by simp) hpath).fullNames, (Path.withSuffix_eq hpath).2.2]
  simp

/-- What a compiler leaves on the disk is litter of its session. -/
theorem emit_litter {p : CompilerProcess} (hp : s'.process = some p)
    (hsource : s'.source = s.source) {node : Option Node}
    (hnode : node = p.behaviour.early ∨ node = p.behaviour.listing) :
    Relation.ReflTransGen (Litter s') e.disk (e.emit s p.behaviour node).disk := by
  unfold emit
  split
  · rename_i place node hplace
    obtain ⟨path, hpath, rfl⟩ := outputPlace_eq_some hplace
    exact .single (.leave hp (hnode.imp Eq.symm Eq.symm) (hsource ▸ hpath))
  · exact .refl

/-- A compiler that exits by itself leaves its listing. -/
theorem exitProcess_litter {p : CompilerProcess} (status : Int) :
    Relation.ReflTransGen (Litter (e.exitProcess s p status).2) e.disk
      (e.exitProcess s p status).1.disk := by
  let p₁ : CompilerProcess := { p with status := some status }
  let s₁ : Session := { s with process := some p₁ }
  have hemit : Relation.ReflTransGen (Litter s₁) e.disk
      (e.emit s₁ p₁.behaviour p₁.behaviour.listing).disk := emit_litter rfl rfl (.inr rfl)
  exact hemit

theorem exitProcess_spawns (e : Engine) (s : Session) (p : CompilerProcess) (status : Int) :
    (e.exitProcess s p status).1.spawns = e.spawns := by
  obtain ⟨disk, hd, -⟩ := e.emit_eq { s with process := some { p with status := some status } }
    p.behaviour p.behaviour.listing
  rw [exitProcess, hd]
  rfl

/-- The session whose compiler has started. -/
def runs (s : Session) (b : Behaviour) : Session :=
  Session.to { s with process := s.started b } .running

/-- The engine in which the compiler of the session has started. -/
def started (e : Engine) (s : Session) (b : Behaviour) : Engine :=
  ((e.emit s b b.early).putSession { s with process := s.started b }).moved
    { s with process := s.started b } .running

/-- What follows the start of a compiler. -/
theorem launch_eq {task : Task} (hs : s.phase = .spawning)
    (hf : task.behaviour.failedStart = none) : e.launch task s =
      match (s.started task.behaviour).status with
      | some status => (e.started s task.behaviour).collect (runs s task.behaviour)
          (s.started task.behaviour) status
      | none =>
        if task.behaviour.holdsExit then (e.started s task.behaviour, .waits .waiting)
        else
          let x := (e.started s task.behaviour).exitProcess (runs s task.behaviour)
            (s.started task.behaviour) task.behaviour.status
          x.1.collect x.2 (s.started task.behaviour) task.behaviour.status := by
  have hrun : Phase.running ∈ s.phase.successors := by rw [hs]; decide
  rw [launch]
  dsimp only
  rw [hf]
  dsimp only
  rw [started_eq, move_eq (s := { s with process := s.started task.behaviour }) hrun]
  rfl

/-- The start of a compiler is made of acts. -/
theorem started_works {b : Behaviour} (hs : s.phase = .spawning) (hp : s.process = none) :
    Works (e, s) (e.started s b, runs s b) := by
  have hrun : Phase.running ∈ s.phase.successors := by rw [hs]; decide
  refine (Act.emit b b.early).works.trans ((Act.start b hp).works.trans ?_)
  exact (Act.move (s := { s with process := s.started b }) hrun (by decide) (by decide)
    (by simp)).works

theorem started_spawns (e : Engine) (s : Session) (b : Behaviour) :
    (e.started s b).spawns = e.spawns := by
  obtain ⟨disk, hd, -⟩ := e.emit_eq s b b.early
  rw [started, hd]
  rfl

/-- What a compiler leaves at its start is litter of its session. -/
theorem started_litter (e : Engine) (s : Session) (b : Behaviour) :
    Relation.ReflTransGen (Litter (runs s b)) e.disk (e.started s b).disk := by
  have hemit : Relation.ReflTransGen (Litter (runs s b)) e.disk
      (e.emit s (s.started b).behaviour (s.started b).behaviour.early).disk :=
    emit_litter rfl rfl (.inl rfl)
  rwa [started_behaviour] at hemit

/-- A session without a process that ends without diagnostics. -/
theorem reportEmpty_left (hs : .reportedEmpty ∈ s.phase.successors) (hc : e.isCurrent s)
    (hp : s.process = none) : ∃ s', Works (e, s) ((e.reportEmpty s).1, s') ∧
      Left e.surroundings b (endTurn (e.reportEmpty s)).2 s' ∧ Still e (e.reportEmpty s).1 ∧
      s'.phase = .reportedEmpty ∧ s'.process = none ∧ s'.fault = s.fault := by
  rw [reportEmpty, report_eq hs]
  have hphase : ((s.to .reportedEmpty).deliver []).phase = .reportedEmpty :=
    Session.deliver_phase _ _
  have hprocess : ((s.to .reportedEmpty).deliver []).process = none :=
    (Session.deliver_process _ _).trans hp
  refine ⟨_, (Act.report [] hc hs (.inr rfl)).works, ?_,
    (moved_still e s .reportedEmpty).trans (deliver_still _ _ _), hphase, hprocess,
    Session.deliver_fault _ _⟩
  exact (received_deliveryResult (Session.deliver_same _ _).receiver).left (.inr hphase)
    (by simp [Session.Rests, hprocess])

/-- A session whose compiler does not start is over, with its fault. -/
theorem giveUp_follows (hs : s.phase = .spawning) (hp : s.process = none) {fault : SpawnFault}
    (hfault : s.fault = some (.spawn fault)) :
    ∃ s', Follows e b s (endTurn (e.giveUp s)) [] s' := by
  rw [giveUp]
  split
  · rename_i hc
    obtain ⟨s', hworks, hleft, hstill, hphase, hprocess, hfault'⟩ :=
      reportEmpty_left (b := b) (by rw [hs]; decide) hc hp
    have hspawns := hstill.spawns.trans (List.append_nil _).symm
    refine ⟨s', ?_, hleft, ?_, ?_, Session.setOut_of_phase (by simp [hphase]) (by simp [hphase]),
      ?_, by simp [hprocess]⟩
    · rwa [endTurn_fst]
    · rwa [endTurn_fst]
    · rw [endTurn_fst, hstill.disk]
    · -- The fault is that of the start, so it is not that the text could not be saved.
      rintro ⟨-, -, other, hother⟩
      rw [hfault', hfault] at hother
      cases hother
  · rename_i hc
    have hnext : .superseded ∈ s.phase.successors := by rw [hs]; decide
    rw [supersede_eq hnext]
    have hfault' : (s.to .superseded).fault = some (.spawn fault) := hfault
    have hprocess : (s.to .superseded).process = none := hp
    refine ⟨s.to .superseded, (supersede_act hnext (Bool.eq_false_iff.2 hc)).works,
      .finished rfl (by simp [Session.Rests, hprocess]), (List.append_nil _).symm, .refl,
      ⟨by simp, fun _ => .inr (by rw [hfault']; rfl)⟩, fun h => by simp [Session.Unsaved] at h,
      by simp [hprocess]⟩

/-- A compiler that cannot be started leaves its session in spawning, or the session gives up. -/
theorem launch_follows_of_failed {task : Task} {failure : FailedStart}
    (hf : task.behaviour.failedStart = some failure) (hs : s.phase = .spawning)
    (hp : s.process = none) :
    ∃ s', Follows e task.behaviour s (e.launch task s) [] s' := by
  rw [launch]
  simp only [hf]
  cases failure with
  | rejected reason =>
    exact ⟨s, .refl, .rejected hf hs hp, (List.append_nil _).symm, .refl,
      Session.setOut_of_phase (by simp [hs]) (by simp [hs]), fun h => by simp [h.1] at hs,
      by simp [hp]⟩
  | refused startFault =>
    have hfail := (Act.note (e := e) (s := s)
      [.checkFailed s.source.name (e.spawnFault startFault)]).works.trans
        (Act.fail (.spawn (e.spawnFault startFault))).works
    obtain ⟨s', hfollows⟩ := giveUp_follows (b := task.behaviour)
      (e := (e.note [.checkFailed s.source.name (e.spawnFault startFault)]).putSession
        { s with fault := some (.spawn (e.spawnFault startFault)) })
      (s := { s with fault := some (.spawn (e.spawnFault startFault)) }) hs hp rfl
    exact ⟨s', .after hfail (List.append_nil _).symm .refl hfollows⟩

/-- The session of a process that exits by itself goes on with what the process printed. -/
theorem exitProcess_follows {p : CompilerProcess} (hs : s.phase = .running)
    (hp : s.process = some p) (hrun : p.isRunning) (hplain : s.listing.Plain) (status : Int) :
    ∃ s', Follows e b s ((e.exitProcess s p status).1.collect (e.exitProcess s p status).2 p status)
      [] s' := by
  have hrests : (e.exitProcess s p status).2.Rests := fun q hq => by
    obtain rfl := Option.some.inj hq
    rfl
  obtain ⟨s', h⟩ := collect_follows (e := (e.exitProcess s p status).1)
    (s := (e.exitProcess s p status).2) (b := b) hs hrests rfl hplain p status
  exact ⟨s', .after (exitProcess_works hp hrun status)
    ((exitProcess_spawns _ _ _ _).trans (List.append_nil _).symm) (exitProcess_litter status) h⟩

/-- Starting the compiler is how a session that set out goes on. -/
theorem launch_follows (task : Task) (hs : s.phase = .spawning) (hp : s.process = none)
    (hplain : s.listing.Plain) : ∃ s', Follows e task.behaviour s (e.launch task s) [] s' := by
  cases hf : task.behaviour.failedStart with
  | some failure => exact launch_follows_of_failed hf hs hp
  | none =>
    rw [launch_eq hs hf]
    generalize task.behaviour = b
    have hworks := started_works (e := e) (b := b) hs hp
    have hspawns := e.started_spawns s b
    have hlitter := e.started_litter s b
    -- The session is running now, with a process that may have been stopped already.
    have hafter : ∀ {r s'}, Follows (e.started s b) b (runs s b) r [] s' → Follows e b s r [] s' :=
      fun h => .after hworks (hspawns.trans (List.append_nil _).symm) hlitter h
    generalize hp' : s.started b = p
    have hprocess : (runs s b).process = some p := hp' ▸ rfl
    cases hstatus : p.status with
    | some status =>
      have hrests : (runs s b).Rests := fun q hq => by
        obtain rfl := Option.some.inj (hprocess.symm.trans hq)
        simp [CompilerProcess.isRunning, hstatus]
      exact (collect_follows rfl hrests hprocess hplain p status).imp fun _ h => hafter h
    | none =>
      have hrunning : p.isRunning := by simp [CompilerProcess.isRunning, hstatus]
      dsimp only
      split
      · refine ⟨runs s b, hafter (.of_process .refl (.running rfl hprocess hrunning)
          (List.append_nil _).symm .refl hprocess ?_ ?_)⟩
        · simp [runs]
        · simp [runs, Phase.isFinal]
      · exact (exitProcess_follows rfl hprocess hrunning hplain b.status).imp fun _ h => hafter h

/-! ## Up to the start of the compiler -/

/-- A session that is the newest of its source sets out: it asks for one compiler at most, its
    own. -/
theorem spawn_follows (task : Task) (hs : s.phase = .idle) (hp : s.process = none)
    (hplain : s.listing.Plain) (hc : e.isCurrent s) : ∃ asked s',
      Follows e task.behaviour s (e.spawn task s) asked s' ∧
        (asked = [] ∨ ∃ command, asked = [⟨s.id, command, s.source.parent⟩]) := by
  have hnext : .spawning ∈ s.phase.successors := by rw [hs]; decide
  have hmove : Works (e, s) (e.moved s .spawning, s.to .spawning) :=
    (Act.move hnext (by decide) (by decide) (by simp)).works
  have hprocess : (s.to .spawning).process = none := hp
  have hsetOut : (s.to .spawning).SetOut := Session.setOut_of_phase (by simp) (by simp)
  have hsaved : ¬(s.to .spawning).Unsaved := fun h => by simp [Session.Unsaved] at h
  rw [spawn, move_eq hnext]
  dsimp only
  split
  · rename_i fault hcommand
    -- The command cannot be told from the settings, and no compiler is asked for.
    exact ⟨[], s.to .spawning, ⟨hmove, .uncallable (directives_of_command hcommand) rfl hp,
      (List.append_nil _).symm, .refl, hsetOut, hsaved, by simp [hprocess]⟩, .inl rfl⟩
  · rename_i command hcommand
    let noted := (e.moved s .spawning).note [.spawning command s.source.parent]
    have hc' : noted.isCurrent (s.to .spawning) := hc
    have hask := hmove.trans ((Act.note [.spawning command s.source.parent]).works.trans
      (Act.ask command hc' rfl).works)
    split
    · exact ⟨[⟨s.id, command, s.source.parent⟩], s.to .spawning, ⟨hask, .asked rfl hp, rfl, .refl,
        hsetOut, hsaved, by simp [hprocess]⟩, .inr ⟨command, rfl⟩⟩
    · -- Nothing holds up the start, so the compiler starts, or fails to, in this turn.
      obtain ⟨s', h⟩ := launch_follows (e := { noted with
        spawns := noted.spawns ++ [⟨s.id, command, s.source.parent⟩] }) (s := s.to .spawning) task
        rfl hp hplain
      exact ⟨[⟨s.id, command, s.source.parent⟩], s', .after hask rfl .refl h, .inr ⟨command, rfl⟩⟩

/-- A session that was overtaken before its turn came does nothing but end. -/
theorem proceed_overtaken {task : Task} (hs : s.phase = .idle) (hc : e.isCurrent s = false) :
    e.proceed task s = (e.moved s .superseded, .ends .done) := by
  have hnext : .superseded ∈ s.phase.successors := by rw [hs]; decide
  rw [proceed, hc, supersede_eq hnext]
  rfl

/-- A session whose turn has come saves its text and asks for its compiler. -/
theorem proceed_saved (task : Task) (hs : s.phase = .idle) (hp : s.process = none)
    (hplain : s.listing.Plain) (hc : e.isCurrent s) {d : Disk} (hd : s.Saves e.disk d) :
    ∃ asked s', Works (e, s) ((e.proceed task s).1, s') ∧
      Follows { e with disk := d } task.behaviour s (e.proceed task s) asked s' ∧
      d.denials = e.disk.denials ∧
      (asked = [] ∨ ∃ command, asked = [⟨s.id, command, s.source.parent⟩]) := by
  rw [Session.Saves] at hd
  rw [proceed, hc]
  simp only [Bool.not_true, Bool.false_eq_true, if_false]
  cases htext : s.text with
  | none =>
    rw [htext] at hd
    obtain rfl : d = e.disk := hd
    obtain ⟨asked, s', h, hasked⟩ := spawn_follows task hs hp hplain hc
    exact ⟨asked, s', h.works, h, rfl, hasked⟩
  | some text =>
    rw [htext] at hd
    obtain ⟨written, hencode, hwrite⟩ := hd
    have hwrite : e.disk.writeText s.source text.written = .ok d := by
      rwa [written_of_encode hencode]
    simp only [hwrite, hencode]
    -- Saving comes first, and the rest goes on from the disk that it leaves.
    have hsave : Act (e, s) ({ e with disk := d }, s) := .save hc hs htext hwrite
    obtain ⟨asked, s', h, hasked⟩ :=
      spawn_follows (e := { e with disk := d }) task hs hp hplain hc
    exact ⟨asked, s', hsave.works.trans h.works, h, hsave.kept.frame.denials, hasked⟩

/-- A session whose text is none empties its source, and stays where it is. -/
theorem proceed_spoiled (task : Task) (hs : s.phase = .idle) (hp : s.process = none)
    (hc : e.isCurrent s) {d : Disk} (hd : s.Spoils e.disk d) :
    Works (e, s) ((e.proceed task s).1, s) ∧ Left e.surroundings b (e.proceed task s).2 s ∧
      (e.proceed task s).1.disk = d ∧ (e.proceed task s).1.spawns = e.spawns := by
  obtain ⟨text, fault, htext, hencode, hwrite⟩ := hd
  have hwrite : e.disk.writeText s.source text.written = .ok d := by
    rwa [written_of_encode_error hencode]
  have heq : e.proceed task s = ({ e with disk := d }, .ends (.failed (.text fault))) := by
    rw [proceed, hc]
    simp only [Bool.not_true, Bool.false_eq_true, if_false, htext, hwrite, hencode]
  rw [heq]
  exact ⟨(Act.save hc hs htext hwrite).works, .unwritable htext hencode hs hp, rfl, rfl⟩

/-- A session whose text cannot be saved ends without diagnostics. -/
theorem proceed_unsaved (task : Task) (hs : s.phase = .idle) (hp : s.process = none)
    (hc : e.isCurrent s) (hd : ∀ d, ¬s.Saves e.disk d ∧ ¬s.Spoils e.disk d) : ∃ s',
      Works (e, s) ((e.proceed task s).1, s') ∧ Left e.surroundings b (e.proceed task s).2 s' ∧
        Still e (e.proceed task s).1 ∧ s'.Unsaved := by
  rw [proceed, hc]
  simp only [Bool.not_true, Bool.false_eq_true, if_false]
  split
  · rename_i htext
    exact absurd (by rw [Session.Saves, htext]) (hd e.disk).1
  · rename_i text htext
    split
    · rename_i disk hwrite
      -- If the file could be written, the text was saved or the source was emptied.
      cases hencode : text.encode with
      | ok written =>
        refine absurd ?_ (hd disk).1
        rw [Session.Saves, htext]
        exact ⟨written, hencode, by rwa [← written_of_encode hencode]⟩
      | error fault =>
        refine absurd ?_ (hd disk).2
        exact ⟨text, fault, htext, hencode, by rwa [← written_of_encode_error hencode]⟩
    · rename_i fault hfault
      let s₁ : Session := { s with fault := some (.disk fault) }
      let e₁ : Engine := (e.note [.sourceNotSaved s.source fault]).putSession s₁
      have hfail : Works (e, s) (e₁, s₁) := (Act.note _).works.trans (Act.fail (.disk fault)).works
      have hstill : Still e e₁ := (note_still e _).trans (putSession_still _ _)
      obtain ⟨s', hworks, hleft, hreport, hphase, hprocess, hfault'⟩ :=
        reportEmpty_left (e := e₁) (b := b) (s := s₁) (by simp only [s₁, hs]; decide) hc hp
      rw [endTurn_fst]
      exact ⟨s', hfail.trans hworks, hleft, hstill.trans hreport, hphase, hprocess, fault, hfault'⟩

/-! ## Any turn -/

/-- A session whose turn has come gets to one of the ends of a turn. -/
theorem proceed_reaches (task : Task) (hs : s.phase = .idle) (hp : s.process = none)
    (hplain : s.listing.Plain) : Reaches e task.behaviour s (e.proceed task s) := by
  by_cases hc : e.isCurrent s
  · by_cases hsave : ∃ d, s.Saves e.disk d
    · obtain ⟨d, hd⟩ := hsave
      obtain ⟨asked, s', hworks, h, hdenials, -⟩ := proceed_saved task hs hp hplain hc hd
      have haround : surroundings { e with disk := d } = e.surroundings :=
        congrArg (Surroundings.mk e.settings) hdenials
      exact ⟨s', hworks, haround ▸ h.left⟩
    · by_cases hspoil : ∃ d, s.Spoils e.disk d
      · obtain ⟨d, hd⟩ := hspoil
        obtain ⟨hworks, hleft, -⟩ := proceed_spoiled task hs hp hc hd
        exact ⟨s, hworks, hleft⟩
      · obtain ⟨s', hworks, hleft, -⟩ := proceed_unsaved task hs hp hc fun d =>
          ⟨not_exists.1 hsave d, not_exists.1 hspoil d⟩
        exact ⟨s', hworks, hleft⟩
  · have hc : e.isCurrent s = false := Bool.eq_false_iff.2 hc
    have hnext : .superseded ∈ s.phase.successors := by rw [hs]; decide
    rw [proceed_overtaken hs hc]
    exact (supersede_act hnext hc).reaches
      (reaches_of_left (.finished rfl (by simp [Session.Rests, Session.to, hp])))

/-- A turn of a task that has its source to itself. -/
inductive Turn (e : Engine) (task : Task) (s : Session) : Engine × Progress → Prop
  /-- It has just got its source. -/
  | proceed : s.phase = .idle → s.process = none → Turn e task s (e.proceed task s)
  /-- The start of its compiler is over. -/
  | launch : s.phase = .spawning → s.process = none → Turn e task s (e.launch task s)
  /-- Its compiler has exited. -/
  | collect {p status} : s.phase = .running → s.process = some p → p.status = some status →
      Turn e task s (e.collect s p status)

/-- The compiler of the session has not started, or its exit is not over for the session. -/
theorem Turn.live {task : Task} (h : Turn e task s r) :
    s.process = none ∨ s.phase = .running := by
  cases h with
  | proceed _ hprocess | launch _ hprocess => exact .inl hprocess
  | collect hphase => exact .inr hphase

/-- A turn of a task that has its source is made of acts, and ends in order. -/
theorem Turn.reaches {task : Task} (h : Turn e task s r) (hplain : s.listing.Plain) :
    Reaches e task.behaviour s r := by
  cases h with
  | proceed hphase hprocess => exact proceed_reaches task hphase hprocess hplain
  | launch hphase hprocess =>
    obtain ⟨s', h⟩ := launch_follows task hphase hprocess hplain
    exact ⟨s', h.works, h.left⟩
  | collect hphase hprocess hstatus =>
    refine collect_reaches hphase (fun q hq => ?_) hplain _ _
    obtain rfl := Option.some.inj (hprocess.symm.trans hq)
    simp [CompilerProcess.isRunning, hstatus]

end Engine

end LiveCheck
