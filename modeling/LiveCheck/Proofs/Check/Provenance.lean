import LiveCheck.Proofs.Check.Stopping
import LiveCheck.Proofs.Check.Saved
import LiveCheck.Proofs.Disk.Place

/-!
# Whose listing is reported

A compiler process leaves one file when it starts and another one when it exits by itself
(`CompilerProcess.output`). The listing that a session reads is the one that its own compiler left
at its path (`Session.Wrote`), or one that was there before the first compiler of the source started
(`Steps.listing_written`): nothing deletes a listing before a compiler starts, and a session whose
compiler leaves none takes what it finds.
-/

namespace LiveCheck

variable {s s' : Session} {p : CompilerProcess} {bytes : List UInt8} {settings : Settings}

/-- Has the process been stopped, so that it will not exit by itself? -/
def CompilerProcess.isStopped (p : CompilerProcess) : Bool :=
  p.behaviour.onStop = .exits ∧ p.stops ≠ 0

/-- What the process has left so far. -/
def CompilerProcess.output (p : CompilerProcess) : Option Node :=
  if p.isRunning ∨ p.isStopped then p.behaviour.early else p.behaviour.listing.or p.behaviour.early

theorem CompilerProcess.output_of_running (h : p.isRunning) : p.output = p.behaviour.early :=
  if_pos (.inl h)

/-- A process that is stopped leaves nothing more. -/
theorem CompilerProcess.stop_output (p : CompilerProcess) : p.stop.output = p.output := by
  cases hp : p.status with
  | some status => simp [stop, hp]
  | none =>
    rw [output_of_running (p := p) (by simp [isRunning, hp])]
    by_cases hstop : p.behaviour.onStop = .exits
    · simp [output, stop, hp, isStopped, hstop]
    · simp [output, stop, hp, isRunning, hstop]

namespace Session

/-- The process leaves its listing where the session looks for it. -/
def Meets (s : Session) (p : CompilerProcess) : Prop :=
  s.source.withSuffix ('.' :: p.behaviour.listingSuffix) = .ok s.listing

/-- The compiler process of the session has left the bytes at the path of the session's listing. -/
def Wrote (s : Session) (bytes : List UInt8) : Prop :=
  ∃ p executable, s.process = some p ∧ s.Meets p ∧ p.output = some (.file bytes executable)

/-- No process of the session has left anything at the path of the session's listing. -/
def WroteNothing (s : Session) : Prop := ∀ p, s.process = some p → s.Meets p → p.output = none

/-- The diagnostics are what the bytes of a listing tell about the source of the session. -/
def Told (s : Session) (bytes : List UInt8) (diagnostics : List Diagnostic) : Prop :=
  ∃ records text, readListing (Text.unifyNewlines (Utf8.decodeLenient bytes)) = .ok records ∧
    diagnostics = placeRecords records text s.source.text

/-- The session is about the same files, and its process has left the same. -/
structure Leaves (s s' : Session) : Prop where
  source : s'.source = s.source
  listing : s'.listing = s.listing
  process : s'.process.map (fun p => (p.behaviour, p.output)) =
    s.process.map fun p => (p.behaviour, p.output)

theorem Leaves.symm (h : s.Leaves s') : s'.Leaves s :=
  ⟨h.source.symm, h.listing.symm, h.process.symm⟩

/-- A session that is told to stop has left what it left before. -/
theorem cancel_leaves (s : Session) : s.Leaves s.cancel := by
  refine ⟨rfl, rfl, ?_⟩
  rw [cancel, Option.map_map]
  refine congrArg (Option.map · s.process) (funext fun p => ?_)
  rw [Function.comp_apply, CompilerProcess.stop_behaviour, CompilerProcess.stop_output]

theorem Leaves.wrote (h : s.Leaves s') (hs : s.Wrote bytes) : s'.Wrote bytes := by
  obtain ⟨p, executable, hp, hmeets, houtput⟩ := hs
  have hprocess := h.process
  rw [hp, Option.map_some, Option.map_eq_some_iff] at hprocess
  obtain ⟨q, hq, heq⟩ := hprocess
  obtain ⟨hbehaviour, hleft⟩ := Prod.mk.inj heq
  refine ⟨q, executable, hq, ?_, hleft.trans houtput⟩
  rwa [Meets, h.source, h.listing, hbehaviour]

theorem Leaves.wroteNothing (h : s.Leaves s') (hs : s.WroteNothing) : s'.WroteNothing := by
  intro q hq hmeets
  have hprocess := h.symm.process
  rw [hq, Option.map_some, Option.map_eq_some_iff] at hprocess
  obtain ⟨p, hp, heq⟩ := hprocess
  obtain ⟨hbehaviour, hleft⟩ := Prod.mk.inj heq
  rw [Meets, h.source, h.listing, ← hbehaviour] at hmeets
  exact hleft ▸ hs p hp hmeets

theorem wroteNothing_of_none (h : s.process = none) : s.WroteNothing := by simp [WroteNothing, h]

theorem Wrote.process_isSome (h : s.Wrote bytes) : s.process.isSome := by
  obtain ⟨p, -, hp, -⟩ := h
  simp [hp]

end Session

namespace Engine

variable {e e' : Engine} {r : Engine × Progress} {old : List UInt8 → Prop}

/-! ## What a compiler leaves -/

/-- A compiler leaves its output next to its source, under its own suffix. -/
theorem outputPlace_eq {b : Behaviour} {path : Path} (hs : s.source.Plain)
    (h : s.source.withSuffix ('.' :: b.listingSuffix) = .ok path) :
    e.outputPlace s b = some path.names := by
  have hplain := Path.plain_withSuffix hs (by simp) h
  rw [outputPlace, h]
  dsimp only
  rw [hplain.fullNames]

/-- What is read at the path of a listing after a compiler has left something was left by it, or was
    there before. -/
theorem readBytes_of_emit (hs : s.source.Plain) {suffix : Text} (hne : suffix ≠ [])
    (hlisting : s.source.withSuffix suffix = .ok s.listing)
    (hground : e.disk.Grounded s.listing.names) {b : Behaviour} {node : Option Node}
    (hread : (e.emit s b node).disk.readBytes s.listing = .ok bytes) :
    (s.source.withSuffix ('.' :: b.listingSuffix) = .ok s.listing ∧
      ∃ executable, node = some (.file bytes executable)) ∨
    ((s.source.withSuffix ('.' :: b.listingSuffix) = .ok s.listing → node = none) ∧
      e.disk.readBytes s.listing = .ok bytes) := by
  unfold emit at hread
  cases hpath : s.source.withSuffix ('.' :: b.listingSuffix) with
  | error fault =>
    simp only [outputPlace, hpath] at hread
    exact .inr ⟨by simp, hread⟩
  | ok path =>
    simp only [outputPlace_eq hs hpath] at hread
    cases node with
    | none => exact .inr ⟨fun _ => rfl, hread⟩
    | some node =>
      have hplain := Path.plain_withSuffix hs (by simp) hpath
      have hplain' := Path.plain_withSuffix hs hne hlisting
      obtain ⟨-, -, hnames⟩ := Path.withSuffix_eq hpath
      obtain ⟨-, -, hnames'⟩ := Path.withSuffix_eq hlisting
      by_cases hself : path = s.listing
      · subst hself
        obtain ⟨executable, rfl⟩ := Disk.readBytes_plant_self hplain (by rw [hnames]; simp) hread
        exact .inl ⟨rfl, executable, rfl⟩
      · refine .inr ⟨fun h => absurd (Except.ok.inj h) hself, ?_⟩
        refine Disk.readBytes_of_plant hplain' (by rw [hnames]; simp) (fun hto => hself ?_) hground
          hread
        -- Both lie in the directory of the source, so none is on the way to the other.
        refine hplain.ext hplain' (hto.eq_of_length ?_)
        rw [hnames, hnames']
        simp

/-- What a compiler leaves does not move the directories above a place. -/
theorem emit_grounded (hs : s.source.Plain) {place : Place} (hground : e.disk.Grounded place)
    (b : Behaviour) (node : Option Node) : (e.emit s b node).disk.Grounded place := by
  unfold emit
  split
  · exact hground.plant (outputPlace_ne_nil hs ‹_›)
  · exact hground

/-- What is read at the path of the session's listing was left by its compiler; or its compiler has
    left nothing there, and it is an old file. -/
structure Sourced (old : List UInt8 → Prop) (e : Engine) (s : Session) : Prop where
  plain : s.source.Plain
  listing : ∃ suffix, suffix ≠ [] ∧ s.source.withSuffix suffix = .ok s.listing
  ground : e.disk.Grounded s.listing.names
  read : ∀ bytes, e.disk.readBytes s.listing = .ok bytes →
    s.Wrote bytes ∨ (s.WroteNothing ∧ old bytes)

theorem Sourced.plain_listing (h : Sourced old e s) : s.listing.Plain := by
  obtain ⟨suffix, hne, hlisting⟩ := h.listing
  exact Path.plain_withSuffix h.plain hne hlisting

/-- A compiler that starts leaves its early output, which is the session's own. -/
theorem Sourced.start (h : Sourced old e s) (b : Behaviour) (hprocess : s.process = none) :
    Sourced old (e.started s b) (runs s b) := by
  have houtput : (s.started b).output = b.early := by
    rw [Session.started]
    split
    · exact (CompilerProcess.stop_output _).trans (CompilerProcess.output_of_running rfl)
    · exact CompilerProcess.output_of_running rfl
  refine ⟨h.plain, h.listing, emit_grounded h.plain h.ground b b.early, fun bytes hread => ?_⟩
  obtain ⟨suffix, hne, hlisting⟩ := h.listing
  rcases readBytes_of_emit h.plain hne hlisting h.ground hread with
    ⟨hmeets, executable, hearly⟩ | ⟨hnone, hread⟩
  · refine .inl ⟨s.started b, executable, rfl, ?_, houtput.trans hearly⟩
    rwa [Session.Meets, started_behaviour]
  · refine .inr ⟨fun p hp hmeets => ?_, ?_⟩
    · obtain rfl := Option.some.inj hp
      rw [Session.Meets, started_behaviour] at hmeets
      exact houtput.trans (hnone hmeets)
    · refine ((h.read bytes hread).resolve_left fun hwrote => ?_).2
      simpa [hprocess] using hwrote.process_isSome

/-- A compiler that exits leaves its output, which is the session's own. -/
theorem Sourced.exit (h : Sourced old e s) (hp : s.process = some p) (hrun : p.isRunning)
    (hstops : p.isStopped = false) (status : Int) :
    Sourced old (e.exitProcess s p status).1 (e.exitProcess s p status).2 := by
  let q : CompilerProcess := { p with status := some status }
  have hbefore : p.output = p.behaviour.early := CompilerProcess.output_of_running hrun
  have hafter : q.output = p.behaviour.listing.or p.behaviour.early := by
    refine if_neg ?_
    rintro (hrun | hstopped)
    · simp [q, CompilerProcess.isRunning] at hrun
    · rw [show q.isStopped = p.isStopped from rfl, hstops] at hstopped
      simp at hstopped
  refine ⟨h.plain, h.listing, emit_grounded h.plain h.ground _ _, fun bytes hread => ?_⟩
  obtain ⟨suffix, hne, hlisting⟩ := h.listing
  -- What is read is what the process has just left, or was there before it exited.
  rcases readBytes_of_emit h.plain hne hlisting h.ground hread with
    ⟨hmeets, executable, hleft⟩ | ⟨hnone, hread⟩
  · exact .inl ⟨q, executable, rfl, hmeets, by rw [hafter, hleft]; rfl⟩
  · -- The process leaves no second file, so what it has left is what it left when it started.
    have hsame : s.Meets p → q.output = p.output := fun hmeets => by
      rw [hafter, hnone hmeets, Option.none_or, hbefore]
    rcases h.read bytes hread with ⟨p', executable, hp', hmeets, houtput⟩ | ⟨hnothing, hold⟩
    · obtain rfl := Option.some.inj (hp.symm.trans hp')
      exact .inl ⟨q, executable, rfl, hmeets, (hsame hmeets).trans houtput⟩
    · refine .inr ⟨fun q' hq' hmeets => ?_, hold⟩
      obtain rfl : q = q' := Option.some.inj hq'
      exact (hsame hmeets).trans (hnothing p hp hmeets)

/-- What a session does without a look at the disk, and without a compiler. -/
theorem Sourced.congr (h : Sourced old e s) (hsame : s.Same s') (hdisk : e'.disk = e.disk)
    (hprocess : s'.process = s.process) : Sourced old e' s' := by
  have hleaves : s.Leaves s' := ⟨hsame.source, hsame.listing, by rw [hprocess]⟩
  refine ⟨hsame.source ▸ h.plain, ?_, ?_, fun bytes hread => ?_⟩
  · rw [hsame.source, hsame.listing]
    exact h.listing
  · rw [hdisk, hsame.listing]
    exact h.ground
  · rw [hdisk, hsame.listing] at hread
    exact (h.read bytes hread).imp hleaves.wrote (And.imp_left hleaves.wroteNothing)

/-! ## The course of a turn -/

/-- What a session does in a turn before its compiler has exited. -/
inductive Move : Engine × Session → Engine × Session → Prop
  /-- Neither the disk nor the process changes. -/
  | quiet {e e' : Engine} {s s' : Session} : Works (e, s) (e', s') → e'.disk = e.disk →
      e'.deliveries = e.deliveries → s'.process = s.process → Move (e, s) (e', s')
  /-- What can be written of the text of the session is saved. -/
  | save {e : Engine} {s : Session} {text : JsonString} {disk : Disk} : e.isCurrent s →
      s.phase = .idle → s.text = some text → e.disk.writeText s.source text.written = .ok disk →
      Move (e, s) ({ e with disk }, s)
  /-- The compiler starts. -/
  | start {e : Engine} {s : Session} (b : Behaviour) : s.phase = .spawning → s.process = none →
      Move (e, s) (e.started s b, runs s b)
  /-- The compiler exits by itself. -/
  | exit {e : Engine} {s : Session} {p : CompilerProcess} (status : Int) : s.process = some p →
      p.isRunning → p.isStopped = false → Move (e, s) (e.exitProcess s p status)

/-- Moves are acts. -/
theorem Move.works {x y : Engine × Session} (h : Move x y) : Works x y := by
  cases h with
  | quiet hworks => exact hworks
  | save hc hphase htext hwrite => exact (Act.save hc hphase htext hwrite).works
  | start b hphase hprocess => exact started_works hphase hprocess
  | exit status hp hrun => exact exitProcess_works hp hrun status

/-- No move is a report. -/
theorem Move.deliveries {x y : Engine × Session} (h : Move x y) :
    y.1.deliveries = x.1.deliveries := by
  cases h with
  | quiet _ _ hdeliveries => exact hdeliveries
  | save => rfl
  | @start e s b =>
    obtain ⟨disk, hd, -⟩ := e.emit_eq s b b.early
    rw [started, hd]
    rfl
  | @exit e s p status =>
    obtain ⟨disk, hd, -⟩ := e.emit_eq { s with process := some { p with status := some status } }
      p.behaviour p.behaviour.listing
    rw [exitProcess, hd]
    rfl

/-- A move keeps track of whose listing is read, if it is not the source itself. -/
theorem Move.sourced {x y : Engine × Session} (h : Move x y) (hne : x.2.listing ≠ x.2.source)
    (hx : Sourced old x.1 x.2) : Sourced old y.1 y.2 := by
  cases h with
  | quiet hworks hdisk _ hprocess => exact hx.congr hworks.same hdisk hprocess
  | save hc hphase htext hwrite =>
    have hplain := hx.plain_listing
    refine ⟨hx.plain, hx.listing, hx.ground.writeText hx.plain ?_ hwrite, fun bytes hread => ?_⟩
    · exact fun hnames => hne (hx.plain.ext hplain hnames).symm
    · exact hx.read bytes (Disk.readBytes_of_writeText hplain hx.plain (Ne.symm hne) hwrite hread)
  | start b hphase hprocess => exact hx.start b hprocess
  | exit status hp hrun hstops => exact hx.exit hp hrun hstops status

theorem works_of_moves {x y : Engine × Session} (h : Relation.ReflTransGen Move x y) :
    Works x y ∧ y.1.deliveries = x.1.deliveries := by
  induction h with
  | refl => exact ⟨.refl, rfl⟩
  | tail _ hmove ih => exact ⟨ih.1.trans hmove.works, hmove.deliveries.trans ih.2⟩

/-- Moves keep track of whose listing is read, if it is not the source itself. -/
theorem Sourced.moves {x y : Engine × Session} (hx : Sourced old x.1 x.2)
    (hne : x.2.listing ≠ x.2.source) (h : Relation.ReflTransGen Move x y) :
    Sourced old y.1 y.2 := by
  induction h with
  | refl => exact hx
  | tail hmoves hmove ih =>
    have hsame := (works_of_moves hmoves).1.same
    refine hmove.sourced ?_ ih
    rwa [hsame.listing, hsame.source]

/-- How a turn ends after all moves: without another look at the disk, or by collecting the
    listing. -/
inductive Ending (e : Engine) (s : Session) : Engine × Progress → Prop
  /-- The session has no process, or its process may still run. At most, it reports that there are
      no diagnostics. -/
  | rests {e' : Engine} {s' : Session} {progress : Progress} : Works (e, s) (e', s') →
      e'.disk = e.disk → s'.process = s.process → s.process = none ∨ s'.phase = .running →
      e'.deliveries = e.deliveries ∨ e'.deliveries = e.deliveries ++ [(s.id, [])] →
      Ending e s (e', progress)
  /-- The compiler has exited. -/
  | collects {p : CompilerProcess} {status : Int} : s.phase = .running → s.process = some p →
      p.status = some status → Ending e s (e.collect s p status)

/-- A turn is some moves, and an ending. -/
def Course (e : Engine) (s : Session) (r : Engine × Progress) : Prop :=
  ∃ x, Relation.ReflTransGen Move (e, s) x ∧ Ending x.1 x.2 r

/-- The course of a turn is made of acts. -/
theorem Course.works (h : Course e s r) (hplain : s.listing.Plain) :
    ∃ s', Works (e, s) (r.1, s') := by
  obtain ⟨⟨e₁, s₁⟩, hmoves, hending⟩ := h
  have hworks := (works_of_moves hmoves).1
  cases hending with
  | rests hworks' => exact ⟨_, hworks.trans hworks'⟩
  | collects hphase hp hstatus =>
    have hrests : s₁.Rests := fun q hq => by
      obtain rfl := Option.some.inj (hp.symm.trans hq)
      simp [CompilerProcess.isRunning, hstatus]
    obtain ⟨s', hworks', -⟩ := collect_reaches (e := e₁) (b := {}) hphase hrests
      (hworks.same.listing.symm ▸ hplain) _ _
    exact ⟨s', hworks.trans hworks'⟩

theorem Move.course (h : Move (e, s) (e', s')) (h' : Course e' s' r) : Course e s r := by
  obtain ⟨x, hmoves, hending⟩ := h'
  exact ⟨x, .head h hmoves, hending⟩

theorem Ending.course (h : Ending e s r) : Course e s r := ⟨(e, s), .refl, h⟩

theorem deliver_nil_deliveries (e : Engine) (s : Session) :
    (e.deliver s []).deliveries = e.deliveries ∨
      (e.deliver s []).deliveries = e.deliveries ++ [(s.id, [])] := by
  cases h : s.delivered with
  | false => exact .inr (deliver_deliveries h [])
  | true => exact .inl (by rw [deliver, if_pos h]; rfl)

/-- Reporting that there are no diagnostics is the end of a turn. -/
theorem reportEmpty_ending (hs : .reportedEmpty ∈ s.phase.successors) (hc : e.isCurrent s)
    (hprocess : s.process = none) : Ending e s (endTurn (e.reportEmpty s)) := by
  have hdeliveries := deliver_nil_deliveries (e.moved s .reportedEmpty) (s.to .reportedEmpty)
  have hdisk := (deliver_still (e.moved s .reportedEmpty) (s.to .reportedEmpty) []).disk
  rw [reportEmpty, report_eq hs]
  cases (s.to .reportedEmpty).deliveryResult <;>
    exact .rests (Act.report [] hc hs (.inr rfl)).works hdisk (Session.deliver_process _ _)
      (.inl hprocess) hdeliveries

/-- Being overtaken is the end of a turn. -/
theorem supersede_ending (hs : .superseded ∈ s.phase.successors) (hc : e.isCurrent s = false)
    (hprocess : s.process = none) : Ending e s (endTurn (e.supersede s)) := by
  rw [supersede_eq hs]
  exact .rests (supersede_act hs hc).works rfl rfl (.inl hprocess) (.inl rfl)

/-- Starting the compiler is some moves, and an ending. -/
theorem launch_course (task : Task) (hs : s.phase = .spawning) (hp : s.process = none) :
    Course e s (e.launch task s) := by
  cases hf : task.behaviour.failedStart with
  | some failure =>
    rw [launch]
    simp only [hf]
    cases failure with
    | rejected reason => exact (Ending.rests .refl rfl rfl (.inl hp) (.inl rfl)).course
    | refused startFault =>
      let fault := e.spawnFault startFault
      let s₁ : Session := { s with fault := some (.spawn fault) }
      let e₁ : Engine := (e.note [.checkFailed s.source.name fault]).putSession s₁
      have hmove : Move (e, s) (e₁, s₁) :=
        .quiet ((Act.note _).works.trans (Act.fail (.spawn fault)).works) rfl rfl rfl
      refine hmove.course (Ending.course (?_ : Ending e₁ s₁ (endTurn (e₁.giveUp s₁))))
      rw [giveUp]
      split
      · exact reportEmpty_ending (by simp only [s₁, hs]; decide) ‹_› hp
      · exact supersede_ending (by simp only [s₁, hs]; decide) (Bool.eq_false_iff.2 ‹_›) hp
  | none =>
    rw [launch_eq hs hf]
    generalize task.behaviour = b
    refine (Move.start b hs hp).course ?_
    have hprocess : (runs s b).process = some (s.started b) := rfl
    cases hstatus : (s.started b).status with
    | some status => exact (Ending.collects rfl hprocess hstatus).course
    | none =>
      dsimp only
      split
      · have hrunning : (runs s b).phase = .running := rfl
        exact (Ending.rests .refl rfl rfl (.inr hrunning) (.inl rfl)).course
      · have hrun : (s.started b).isRunning := by simp [CompilerProcess.isRunning, hstatus]
        have hstops : (s.started b).isStopped = false := by
          -- A process that was stopped at once does not run.
          rw [Session.started] at hstatus ⊢
          split at hstatus <;>
            simp_all [CompilerProcess.isStopped, CompilerProcess.stop]
        exact (Move.exit b.status hprocess hrun hstops).course
          (Ending.collects (e := ((e.started s b).exitProcess (runs s b) (s.started b) b.status).1)
            (s := ((e.started s b).exitProcess (runs s b) (s.started b) b.status).2)
            (p := { s.started b with status := some b.status }) rfl rfl rfl).course

/-- Asking for the compiler is some moves, and an ending. -/
theorem spawn_course (task : Task) (hs : s.phase = .idle) (hp : s.process = none)
    (hc : e.isCurrent s) : Course e s (e.spawn task s) := by
  have hnext : .spawning ∈ s.phase.successors := by rw [hs]; decide
  have hmove : Works (e, s) (e.moved s .spawning, s.to .spawning) :=
    (Act.move hnext (by decide) (by decide) (by simp)).works
  have hprocess : (s.to .spawning).process = none := hp
  rw [spawn, move_eq hnext]
  dsimp only
  split
  · exact (Ending.rests hmove rfl rfl (.inl hp) (.inl rfl)).course
  · rename_i command hcommand
    let noted := (e.moved s .spawning).note [.spawning command s.source.parent]
    have hc' : noted.isCurrent (s.to .spawning) := hc
    have hask := hmove.trans ((Act.note [.spawning command s.source.parent]).works.trans
      (Act.ask command hc' rfl).works)
    split
    · exact (Ending.rests hask rfl rfl (.inl hp) (.inl rfl)).course
    · exact (Move.quiet hask rfl rfl rfl).course (launch_course task rfl hp)

/-- What a task does when it has its source is some moves, and an ending. -/
theorem proceed_course (task : Task) (hs : s.phase = .idle) (hp : s.process = none) :
    Course e s (e.proceed task s) := by
  by_cases hc : e.isCurrent s
  · rw [proceed, hc]
    simp only [Bool.not_true, Bool.false_eq_true, if_false]
    split
    · exact spawn_course task hs hp hc
    · rename_i text htext
      split
      · rename_i disk hwrite
        refine (Move.save hc hs htext hwrite).course ?_
        split
        · exact spawn_course (e := { e with disk }) task hs hp hc
        · exact (Ending.rests .refl rfl rfl (.inl hp) (.inl rfl)).course
      · rename_i fault hwrite
        let s₁ : Session := { s with fault := some (.disk fault) }
        let e₁ : Engine := (e.note [.sourceNotSaved s.source fault]).putSession s₁
        have hmove : Move (e, s) (e₁, s₁) :=
          .quiet ((Act.note _).works.trans (Act.fail (.disk fault)).works) rfl rfl rfl
        have hnext : Phase.reportedEmpty ∈ s₁.phase.successors := by simp only [s₁, hs]; decide
        have hc₁ : e₁.isCurrent s₁ := hc
        exact hmove.course (reportEmpty_ending hnext hc₁ hp).course
  · have hc : e.isCurrent s = false := Bool.eq_false_iff.2 hc
    have hnext : .superseded ∈ s.phase.successors := by rw [hs]; decide
    rw [proceed, hc]
    exact (supersede_ending hnext hc hp).course

/-- Every turn of a task that has its source is some moves, and an ending. -/
theorem Turn.course {task : Task} (h : Turn e task s r) : Course e s r := by
  cases h with
  | proceed hphase hprocess => exact proceed_course task hphase hprocess
  | launch hphase hprocess => exact launch_course task hphase hprocess
  | collect hphase hprocess hstatus => exact (Ending.collects hphase hprocess hstatus).course

/-! ## What is reported -/

/-- The diagnostics are those that the bytes of the listing tell. -/
theorem readDiagnostics_told {diagnostics : List Diagnostic}
    (h : e.readDiagnostics s = (e', .ok diagnostics)) :
    ∃ bytes, e.disk.readBytes s.listing = .ok bytes ∧ s.Told bytes diagnostics := by
  rw [readDiagnostics, Disk.readText] at h
  cases hread : e.disk.readBytes s.listing with
  | error fault => simp [hread, Except.map] at h
  | ok bytes =>
    rw [hread] at h
    simp only [Except.map] at h
    split at h
    · simp at h
    rename_i text htext
    split at h
    · simp at h
    · rename_i records hrecords
      exact ⟨bytes, rfl, records, text, hrecords, (Except.ok.inj (Prod.mk.inj h).2).symm⟩

theorem readDiagnostics_deliveries (e : Engine) (s : Session) :
    (e.readDiagnostics s).1.deliveries = e.deliveries := by
  rw [readDiagnostics]
  split
  · rfl
  split
  · rfl
  dsimp only
  split <;> rfl

/-- There is one report at most, and it tells nothing or what the listing does that is found at the
    session's path. -/
def Reports (e : Engine) (s : Session) (e' : Engine) : Prop :=
  e'.deliveries = e.deliveries ∨ ∃ diagnostics,
    e'.deliveries = e.deliveries ++ [(s.id, diagnostics)] ∧
    (diagnostics = [] ∨ e.disk.pathExists s.listing = .ok true ∧
      ∃ bytes, e.disk.readBytes s.listing = .ok bytes ∧ s.Told bytes diagnostics)

/-- A report of no diagnostics needs no listing. -/
theorem reports_nil
    (h : e'.deliveries = e.deliveries ∨ e'.deliveries = e.deliveries ++ [(s.id, [])]) :
    Reports e s e' :=
  h.imp_right fun h => ⟨[], h, .inl rfl⟩

/-- What is reported from a listing that is there is what its bytes tell. -/
theorem reportListing_reports (hs : s.phase = .parsing)
    (hexists : e.disk.pathExists s.listing = .ok true) : Reports e s (e.reportListing s).1 := by
  have hread := e.readDiagnostics_deliveries s
  rw [reportListing]
  split
  · rename_i e₁ diagnostics h
    rw [h] at hread
    rw [report_eq (by rw [hs]; decide)]
    cases hd : (s.to .reported).delivered with
    | true =>
      refine .inl (Eq.trans ?_ hread)
      dsimp only
      rw [deliver, if_pos hd]
      rfl
    | false =>
      refine .inr ⟨diagnostics, ?_, .inr ⟨hexists, readDiagnostics_told h⟩⟩
      refine (deliver_deliveries (e := e₁.moved s .reported) hd diagnostics).trans ?_
      exact congrArg (· ++ [(s.id, diagnostics)]) hread
  · rename_i e₁ fault h
    rw [h] at hread
    dsimp only
    rw [reportEmpty, report_eq (s := { s with fault := some fault }) (by simp only [hs]; decide)]
    have hreport := deliver_nil_deliveries (((e₁.note [.listingUnusable s.listing fault]).putSession
      { s with fault := some fault }).moved { s with fault := some fault } .reportedEmpty)
      (Session.to { s with fault := some fault } .reportedEmpty)
    exact reports_nil (hread ▸ hreport)

theorem removeListing_deliveries (e : Engine) (s : Session) :
    (e.removeListing s).1.deliveries = e.deliveries := by
  rw [removeListing]
  split <;> rfl

/-- After the exit of its compiler, a session reports what its listing tells, or nothing. -/
theorem afterExit_reports (hs : s.phase = .running) (status : Int) :
    Reports e s (e.afterExit s status).1 := by
  have hover : .superseded ∈ s.phase.successors := by rw [hs]; decide
  have hempty : .reportedEmpty ∈ s.phase.successors := by rw [hs]; decide
  have hparse : .parsing ∈ s.phase.successors := by rw [hs]; decide
  rw [afterExit]
  split
  · rw [supersede_eq hover]
    dsimp only
    rw [endTurn_fst]
    exact .inl (removeListing_deliveries _ s)
  · split
    · exact .inl rfl
    · rw [reportEmpty, report_eq hempty, endTurn_fst]
      exact reports_nil (deliver_nil_deliveries _ (s.to .reportedEmpty))
    · rename_i hexists
      rw [move_eq hparse]
      dsimp only
      rw [endTurn_fst, Reports, removeListing_deliveries]
      exact reportListing_reports (e := e.moved s .parsing) (s := s.to .parsing) rfl hexists

/-- A session whose compiler has exited reports the listing that is there. -/
theorem collect_reports (hs : s.phase = .running) (p : CompilerProcess) (status : Int) :
    Reports e s (e.collect s p status).1 :=
  afterExit_reports (e := e.note _) hs status

/-! ## Steps -/

/-- No other session has started a compiler. -/
def First (e : Engine) (s : Session) : Prop :=
  ∀ id r, e.sessions.get? id = some r → r.process.isSome → id = s.id

/-- The bytes of a listing that the session's own compiler has not left. -/
inductive Leftover (d₀ : Disk) (e : Engine) (s : Session) (bytes : List UInt8) : Prop
  /-- The listing was there from the start, and no other session has started a compiler. -/
  | stale : d₀.readBytes s.listing = .ok bytes → e.First s → Leftover d₀ e s bytes
  /-- The listing was there from the start, and the system keeps it. -/
  | kept : e.disk.denials.Keeps s.listing → d₀.readBytes s.listing = .ok bytes →
      Leftover d₀ e s bytes
  /-- The compiler of another session has left the listing, and the system keeps it. -/
  | inherited {id : Int} {r : Session} : e.disk.denials.Keeps s.listing → id ≠ s.id →
      e.sessions.get? id = some r → r.Wrote bytes → Leftover d₀ e s bytes

/-- Whose listing can be read at a path. -/
inductive Origin (d₀ : Disk) (listing : Path) (e : Engine) (bytes : List UInt8) : Prop
  /-- The compiler of a session that still runs has left it. -/
  | running {id : Int} {s : Session} : e.sessions.get? id = some s → s.phase = .running →
      s.Wrote bytes → Origin d₀ listing e bytes
  /-- It was there from the start, and no compiler has left anything or is done. -/
  | stale : d₀.readBytes listing = .ok bytes → (∀ id s, e.sessions.get? id = some s →
      s.process.isSome → s.phase = .running ∧ s.WroteNothing) → Origin d₀ listing e bytes
  /-- The system keeps it: it was there from the start, or some compiler has left it, but none that
      runs. -/
  | kept : e.disk.denials.Keeps listing → (∀ id s, e.sessions.get? id = some s →
      s.phase = .running → s.WroteNothing) → (d₀.readBytes listing = .ok bytes ∨
        ∃ id s, e.sessions.get? id = some s ∧ s.Wrote bytes) → Origin d₀ listing e bytes

/-- It is known whose listing can be read at a path. -/
structure Traced (d₀ : Disk) (listing : Path) (e : Engine) : Prop where
  ground : e.disk.Grounded listing.names
  read : ∀ {bytes}, e.disk.readBytes listing = .ok bytes → Origin d₀ listing e bytes

/-- It can be told whose listing is read: its path is not that of the source, and nothing hides
    it. -/
structure Traceable (denials : Denials) (source listing : Path) : Prop where
  apart : listing ≠ source
  seen : ∀ fault, ¬denials.Hides listing fault

/-- A session whose task has ended does not run any more, unless its listing is hidden. -/
theorem not_running_of_left {around : Surroundings} {b : Behaviour} {progress : Progress}
    (h : Left around b progress s) (hover : progress.left = 0)
    (hseen : ∀ fault, ¬around.denials.Hides s.listing fault) : s.phase ≠ .running := by
  intro hrun
  cases h with
  | asked | running => simp [Progress.left, Stage.left] at hover
  | finished hfinal => simp [hrun, Phase.isFinal] at hfinal
  | unwritable _ _ hphase | uncallable _ hphase | rejected _ hphase | null _ hphase =>
    simp [hrun] at hphase
  | unseen hhides => exact hseen _ hhides
  | untold _ hphase => simp [hrun] at hphase

/-- No session runs but this one. -/
def OnlyRuns (e : Engine) (s : Session) : Prop :=
  ∀ id r, e.sessions.get? id = some r → r.phase = .running → id = s.id

/-- A session that has its source to itself is the only one that runs. -/
theorem Alone.onlyRuns (h : e.Alone s) (hproper : ∀ id r, e.sessions.get? id = some r →
      r.Proper e.settings) (hs : e.sessions.get? s.id = some s)
    (hsole : ∀ id r, e.sessions.get? id = some r → r.source = s.source)
    (hseen : ∀ fault, ¬e.disk.denials.Hides s.listing fault) : e.OnlyRuns s := by
  intro id r hr hrun
  by_contra hne
  have hlisting := (hproper _ _ hs).listing_eq (hproper _ _ hr) (hsole _ _ hr)
  rcases h hr (hsole _ _ hr) hne with hidle | ⟨b, outcome, hleft⟩
  · simp [hrun] at hidle
  · exact not_running_of_left hleft rfl (hlisting.symm ▸ hseen) hrun

/-- What is read is known to be left by the session's own compiler, or by whom else. -/
theorem Traced.sourced {d₀ : Disk} (h : Traced d₀ s.listing e) (hproper : s.Proper e.settings)
    (hs : e.sessions.get? s.id = some s) (honly : e.OnlyRuns s)
    (hlive : s.process = none ∨ s.phase = .running) : Sourced (Leftover d₀ e s) e s := by
  refine ⟨hproper.plain, ⟨_, Settings.listingSuffix_ne_nil _,
    Settings.withSuffix_of_listingPath hproper.listing⟩, h.ground, fun bytes hread => ?_⟩
  -- The listing was left by a session that runs, and this is the only one; or it is old; or the
  -- system kept it.
  cases h.read hread with
  | running hr hrun hwrote =>
    obtain rfl := honly _ _ hr hrun
    obtain rfl := Option.some.inj (hs.symm.trans hr)
    exact .inl hwrote
  | stale hold hnothing =>
    refine .inr ⟨?_, .stale hold fun id r hr hp => honly id r hr (hnothing id r hr hp).1⟩
    cases hp : s.process with
    | none => exact Session.wroteNothing_of_none hp
    | some p => exact (hnothing _ s hs (by simp [hp])).2
  | kept hkeeps hnothing hleft =>
    have hself : s.WroteNothing :=
      hlive.elim Session.wroteNothing_of_none (hnothing _ s hs)
    rcases hleft with hold | ⟨id, r, hr, hwrote⟩
    · exact .inr ⟨hself, .kept hkeeps hold⟩
    · by_cases hid : id = s.id
      · obtain rfl : s = r := Option.some.inj (hs.symm.trans (hid ▸ hr))
        exact .inl hwrote
      · exact .inr ⟨hself, .inherited hkeeps hid hr hwrote⟩

/-- Before its compiler has exited, a session leaves it known whose listing is read. -/
theorem Sourced.traced {d₀ : Disk} {e₁ : Engine} (h : Sourced (Leftover d₀ e₁ s) e' s')
    (hsessions : ∀ id, e'.sessions.get? id = if id = s.id then some s' else e₁.sessions.get? id)
    (hlisting : s'.listing = s.listing) (hdenials : e'.disk.denials = e₁.disk.denials)
    (honly : e₁.OnlyRuns s) (hrun : s'.process = none ∨ s'.phase = .running) :
    Traced d₀ s.listing e' := by
  -- No other session runs, so none but this one can have left anything since.
  have hothers : s'.WroteNothing → ∀ id r, e'.sessions.get? id = some r → r.phase = .running →
      r.WroteNothing := fun hnothing id r hr hphase => by
    rw [hsessions] at hr
    split at hr
    · exact Option.some.inj hr ▸ hnothing
    · exact absurd (honly id r hr hphase) ‹_›
  refine ⟨hlisting ▸ h.ground, fun {bytes} hread => ?_⟩
  rcases h.read bytes (hlisting.symm ▸ hread) with hwrote | ⟨hnothing, hleft⟩
  · refine .running (by rw [hsessions, if_pos rfl]) (hrun.resolve_left fun hnone => ?_) hwrote
    simpa [hnone] using hwrote.process_isSome
  · cases hleft with
    | stale hold hfirst =>
      refine .stale hold fun id r hr hp => ?_
      rw [hsessions] at hr
      split at hr
      · obtain rfl := Option.some.inj hr
        exact ⟨hrun.resolve_left (Option.isSome_iff_ne_none.1 hp), hnothing⟩
      · exact absurd (hfirst id r hr hp) ‹_›
    | kept hkeeps hold => exact .kept (hdenials ▸ hkeeps) (hothers hnothing) (.inl hold)
    | inherited hkeeps hne hr hwrote =>
      exact .kept (hdenials ▸ hkeeps) (hothers hnothing)
        (.inr ⟨_, _, by rw [hsessions, if_neg hne, hr], hwrote⟩)

/-- After its compiler has exited, a session leaves no listing, or one that the system keeps. -/
theorem Sourced.traced_of_kept {d₀ : Disk} {e₁ : Engine} {s₁ : Session}
    (h : Sourced (Leftover d₀ e₁ s) e s₁) (hcleared : Cleared e s₁ e')
    (hsessions : ∀ id, e'.sessions.get? id = if id = s.id then some s' else e₁.sessions.get? id)
    (hlisting : s₁.listing = s.listing) (hleaves : s₁.Leaves s')
    (hdenials : e'.disk.denials = e.disk.denials) (honly : e₁.OnlyRuns s)
    (hover : s'.phase ≠ .running) : Traced d₀ s.listing e' := by
  refine ⟨?_, fun {bytes} hread => ?_⟩
  · rcases hcleared.disk with hdisk | hremove
    · rw [hdisk, ← hlisting]
      exact h.ground
    · rw [← hlisting]
      exact Disk.Grounded.removeFile h.plain_listing hremove
  · rw [← hlisting] at hread
    have hfile := Disk.hasFile_of_readBytes hread
    -- There still is a file, so it was not removed, and the system keeps it.
    have hdisk : e'.disk = e.disk := hcleared.disk.resolve_right fun hremove =>
      Disk.no_file_of_removeFile hremove hfile
    have hkeeps : e'.disk.denials.Keeps s.listing := hlisting ▸ hdenials ▸ hcleared.kept hfile
    have hothers : ∀ id r, e'.sessions.get? id = some r → r.phase = .running → r.WroteNothing := by
      intro id r hr hphase
      rw [hsessions] at hr
      split at hr
      · exact absurd (Option.some.inj hr ▸ hphase) hover
      · exact absurd (honly id r hr hphase) ‹_›
    refine .kept hkeeps hothers ?_
    rcases h.read bytes (hdisk ▸ hread) with hwrote | ⟨-, hleft⟩
    · exact .inr ⟨s.id, s', by rw [hsessions, if_pos rfl], hleaves.wrote hwrote⟩
    · cases hleft with
      | stale hold | kept _ hold => exact .inl hold
      | inherited _ hne hr hwrote => exact .inr ⟨_, _, by rw [hsessions, if_neg hne, hr], hwrote⟩

/-- It stays known whose listing can be read when a session comes in or is told to stop. -/
theorem Traced.opening {d₀ : Disk} {listing : Path} (h : Traced d₀ listing e) (hr : Registry e)
    (hopen : Opening e e') : Traced d₀ listing e' := by
  have hdisk : e'.disk = e.disk := (hopen.opened hr).disk
  -- What a session has left stays left, and a session that is new has left nothing.
  have hstays : ∀ {id s bytes}, e.sessions.get? id = some s → s.Wrote bytes →
      ∃ s', e'.sessions.get? id = some s' ∧ s'.phase = s.phase ∧ s'.Wrote bytes := by
    intro id s bytes hs hwrote
    rcases hopen.sessions hr id with heq | ⟨r, hr', heq⟩ | ⟨hnone, -⟩
    · exact ⟨s, heq ▸ hs, rfl, hwrote⟩
    · obtain rfl := Option.some.inj (hs.symm.trans hr')
      exact ⟨s.cancel, heq, rfl, s.cancel_leaves.wrote hwrote⟩
    · simp [hs] at hnone
  have hback : ∀ {id s}, e'.sessions.get? id = some s → s.process.isSome →
      ∃ r, e.sessions.get? id = some r ∧ r.process.isSome ∧ s.phase = r.phase ∧
        (r.WroteNothing → s.WroteNothing) := by
    intro id s hs hp
    rcases hopen.sessions hr id with heq | ⟨r, hr', heq⟩ | ⟨-, r, heq, hnew⟩
    · exact ⟨s, heq ▸ hs, hp, rfl, fun hnothing => hnothing⟩
    · obtain rfl := Option.some.inj (heq.symm.trans hs)
      exact ⟨r, hr', by simpa [Session.cancel] using hp, rfl, r.cancel_leaves.wroteNothing⟩
    · obtain rfl := Option.some.inj (heq.symm.trans hs)
      simp [hnew.process] at hp
  refine ⟨hdisk ▸ h.ground, fun {bytes} hread => ?_⟩
  rw [hdisk] at hread
  cases h.read hread with
  | running hs hrun hwrote =>
    obtain ⟨s', hs', hphase, hwrote'⟩ := hstays hs hwrote
    exact .running hs' (hphase.trans hrun) hwrote'
  | stale hold hnothing =>
    refine .stale hold fun id s hs hp => ?_
    obtain ⟨r, hr', hp', hphase, hstill⟩ := hback hs hp
    obtain ⟨hrun, hnone⟩ := hnothing id r hr' hp'
    exact ⟨hphase.trans hrun, hstill hnone⟩
  | kept hkeeps hnothing hleft =>
    refine .kept (hdisk ▸ hkeeps) (fun id s hs hrun => ?_) (hleft.imp_right ?_)
    · cases hp : s.process with
      | none => exact Session.wroteNothing_of_none hp
      | some p =>
        obtain ⟨r, hr', -, hphase, hstill⟩ := hback hs (by simp [hp])
        exact hstill (hnothing id r hr' (hphase.symm.trans hrun))
    · rintro ⟨id, s, hs, hwrote⟩
      obtain ⟨s', hs', -, hwrote'⟩ := hstays hs hwrote
      exact ⟨id, s', hs', hwrote'⟩

theorem Traced.openings {d₀ : Disk} {listing : Path} (h : Traced d₀ listing e) (hr : Registry e)
    (hopen : Relation.ReflTransGen Opening e e') : Traced d₀ listing e' := by
  induction hopen with
  | refl => exact h
  | tail hopens hopen ih => exact ih.opening (opened_of_openings hr hopens).2 hopen

/-- Whose listing can be read depends on the disk and the sessions alone. -/
theorem Traced.congr {d₀ : Disk} {listing : Path} (h : Traced d₀ listing e)
    (hdisk : e'.disk = e.disk) (hsessions : e'.sessions = e.sessions) : Traced d₀ listing e' := by
  refine ⟨hdisk ▸ h.ground, fun hread => ?_⟩
  cases h.read (hdisk ▸ hread) with
  | running hs hrun hwrote => exact .running (hsessions ▸ hs) hrun hwrote
  | stale hold hnothing => exact .stale hold (hsessions ▸ hnothing)
  | kept hkeeps hnothing hleft =>
    exact .kept (hdisk ▸ hkeeps) (hsessions ▸ hnothing) (hsessions ▸ hleft)

/-- What a session reported was left by its compiler; or its listing is its source; or its compiler
    has left nothing, and it was left over. -/
def Accounted (d₀ : Disk) (e : Engine) (s : Session) (bytes : List UInt8) : Prop :=
  s.listing = s.source ∨ s.Wrote bytes ∨ (s.WroteNothing ∧ Leftover d₀ e s bytes)

/-- The session reports at most once, and the diagnostics are those of a listing that is accounted
    for. -/
def Reported (d₀ : Disk) (e e' : Engine) (s : Session) : Prop :=
  e'.deliveries = e.deliveries ∨ ∃ diagnostics,
    e'.deliveries = e.deliveries ++ [(s.id, diagnostics)] ∧
    (diagnostics = [] ∨ ∃ bytes, s.Told bytes diagnostics ∧ Accounted d₀ e' s bytes)

/-- A turn does not change whose listing is left over. -/
theorem Works.leftover {d₀ : Disk} {x y : Engine × Session} (h : Works x y)
    (hx : x.1.sessions.get? x.2.id = some x.2) (hleft : Leftover d₀ x.1 x.2 bytes) :
    Leftover d₀ y.1 y.2 bytes := by
  have hkeeps : x.1.disk.denials.Keeps x.2.listing → y.1.disk.denials.Keeps y.2.listing := by
    rw [h.same.listing, h.kept.frame.denials]
    exact id
  cases hleft with
  | stale hold hfirst =>
    refine .stale (h.same.listing ▸ hold) fun id r hr hp => ?_
    rw [h.get?_eq hx] at hr
    split at hr
    · exact ‹id = x.2.id›.trans h.same.id.symm
    · exact (hfirst id r hr hp).trans h.same.id.symm
  | kept hkept hold => exact .kept (hkeeps hkept) (h.same.listing ▸ hold)
  | inherited hkept hne hr hwrote =>
    exact .inherited (hkeeps hkept) (h.same.id ▸ hne) (by rw [h.get?_eq hx, if_neg hne, hr]) hwrote

/-- Whose listing was left over does not depend on the order of the tasks. -/
theorem Leftover.congr {d₀ : Disk} (h : Leftover d₀ e s bytes) (hdisk : e'.disk = e.disk)
    (hsessions : e'.sessions = e.sessions) : Leftover d₀ e' s bytes := by
  cases h with
  | stale hold hfirst => exact .stale hold (by rwa [First, hsessions])
  | kept hkeeps hold => exact .kept (hdisk ▸ hkeeps) hold
  | inherited hkeeps hne hr hwrote => exact .inherited (hdisk ▸ hkeeps) hne (hsessions ▸ hr) hwrote

/-- When the exit of the compiler is collected, it stays known whose listing can be read: it was
    removed, or the system keeps it. -/
theorem Sourced.traced_of_collect {d₀ : Disk} {e₁ : Engine} {s₁ : Session} {p : CompilerProcess}
    {status : Int} (h : Sourced (Leftover d₀ e s) e₁ s₁) (hs : e.sessions.get? s.id = some s)
    (hworks : Works (e, s) (e₁, s₁)) (hphase : s₁.phase = .running) (hleaves : s₁.Leaves s')
    (hworks' : Works (e₁, s₁) ((e₁.collect s₁ p status).1, s'))
    (hleft : Left e₁.surroundings {} (e₁.collect s₁ p status).2 s') (honly : e.OnlyRuns s)
    (hseen : ∀ fault, ¬e.disk.denials.Hides s.listing fault) :
    Traced d₀ s.listing (e₁.collect s₁ p status).1 := by
  have hplain := h.plain_listing
  have hseen₁ : ∀ fault, ¬e₁.disk.denials.Hides s₁.listing fault := by
    rw [hworks.kept.frame.denials, hworks.same.listing]
    exact hseen
  have hcleared : Cleared e₁ s₁ (e₁.collect s₁ p status).1 :=
    (note_still e₁ _).cleared (afterExit_cleared (e := e₁.note _) hphase hplain
      (fun fault hunseen => hseen₁ fault (Disk.hides_of_pathExists hplain hunseen.2)) status)
  refine h.traced_of_kept hcleared ((hworks.trans hworks').get?_eq hs) hworks.same.listing
    hleaves hworks'.kept.frame.denials honly ?_
  exact not_running_of_left hleft (afterExit_left _ _ _) (hworks'.same.listing.symm ▸ hseen₁)

/-- What is reported when the exit of the compiler is collected is accounted for. -/
theorem collect_reported {d₀ : Disk} {e₁ : Engine} {s₁ : Session} {p : CompilerProcess}
    {status : Int} (hs : e.sessions.get? s.id = some s) (hworks : Works (e, s) (e₁, s₁))
    (hdeliveries : e₁.deliveries = e.deliveries) (hphase : s₁.phase = .running)
    (hplain : s₁.listing.Plain) (hleaves : s₁.Leaves s')
    (hworks' : Works (e₁, s₁) ((e₁.collect s₁ p status).1, s'))
    (hsourced : Traceable e.disk.denials s.source s.listing → Sourced (Leftover d₀ e s) e₁ s₁) :
    Reported d₀ e (e₁.collect s₁ p status).1 s' := by
  have hall := hworks.trans hworks'
  rcases collect_reports (e := e₁) hphase p status with hnone | ⟨diagnostics, htold, hread⟩
  · exact .inl (hnone.trans hdeliveries)
  refine .inr ⟨diagnostics, ?_, hread.imp_right ?_⟩
  · rw [htold, hdeliveries, hworks'.same.id]
  rintro ⟨hexists, bytes, hread, records, text, hrecords, hplaced⟩
  refine ⟨bytes, ⟨records, text, hrecords, hworks'.same.source ▸ hplaced⟩, ?_⟩
  by_cases hself : s'.listing = s'.source
  · exact .inl hself
  · -- The listing was seen, so it can be told whose it is.
    have htraceable : Traceable e.disk.denials s.source s.listing := by
      refine ⟨by rwa [← hall.same.listing, ← hall.same.source], ?_⟩
      rw [← hworks.kept.frame.denials, ← hworks.same.listing]
      exact Disk.not_hides_of_pathExists hplain hexists
    rcases (hsourced htraceable).read bytes hread with hwrote | ⟨hnothing, hleft⟩
    · exact .inr (.inl (hleaves.wrote hwrote))
    · exact .inr (.inr ⟨hleaves.wroteNothing hnothing, hall.leftover hs hleft⟩)

/-- In a turn, what is reported is accounted for, and it stays known whose listing can be read. -/
theorem Course.accounted {d₀ : Disk} (h : Course e s r) (hs : e.sessions.get? s.id = some s)
    (hplain : s.listing.Plain) (hsourced : Traceable e.disk.denials s.source s.listing →
      Sourced (Leftover d₀ e s) e s ∧ e.OnlyRuns s) :
    ∃ s', Works (e, s) (r.1, s') ∧
      (Traceable e.disk.denials s.source s.listing → Traced d₀ s.listing r.1) ∧
      Reported d₀ e r.1 s' := by
  obtain ⟨⟨e₁, s₁⟩, hmoves, hending⟩ := h
  obtain ⟨hworks, hdeliveries⟩ := works_of_moves hmoves
  have hsourced₁ := fun htraceable : Traceable e.disk.denials s.source s.listing =>
    (hsourced htraceable).1.moves htraceable.apart hmoves
  cases hending with
  | @rests e' s' progress hworks' hdisk hprocess hrun htold =>
    have hall := hworks.trans hworks'
    refine ⟨s', hall, fun htraceable => ?_, ?_⟩
    · refine ((hsourced₁ htraceable).congr hworks'.same hdisk hprocess).traced (hall.get?_eq hs)
        hall.same.listing hall.kept.frame.denials (hsourced htraceable).2 ?_
      rwa [hprocess]
    · rw [hdeliveries, ← hworks'.same.id] at htold
      exact htold.imp_right fun htold => ⟨[], htold, .inl rfl⟩
  | @collects p status hphase hp hstatus =>
    have hplain₁ : s₁.listing.Plain := hworks.same.listing.symm ▸ hplain
    have hrests : s₁.Rests := fun q hq => by
      obtain rfl := Option.some.inj (hp.symm.trans hq)
      simp [CompilerProcess.isRunning, hstatus]
    obtain ⟨s', hworks', hleft⟩ :=
      collect_reaches (e := e₁) (b := {}) hphase hrests hplain₁ p status
    have hleaves : s₁.Leaves s' := by
      refine ⟨hworks'.same.source, hworks'.same.listing, ?_⟩
      rw [hp, hworks'.abides.exited hp (hrests p hp)]
    exact ⟨s', hworks.trans hworks', fun htraceable =>
      (hsourced₁ htraceable).traced_of_collect hs hworks hphase hleaves hworks' hleft
        (hsourced htraceable).2 htraceable.seen,
      collect_reported hs hworks hdeliveries hphase hplain₁ hleaves hworks' hsourced₁⟩

/-- A process that was stopped does not run. -/
theorem Reachable.not_isStopped (h : Reachable e) {id : Int} (hs : e.sessions.get? id = some s)
    (hp : s.process = some p) (hrun : p.isRunning) : p.isStopped = false := by
  refine h.session (P := fun s => ∀ p, s.process = some p → p.isRunning → p.isStopped = false)
    ?_ ?_ ?_ hs p hp hrun
  · exact fun s hnew p hp => by simp [hnew.process] at hp
  · intro s hs q hq hrun
    obtain ⟨p, hp, rfl⟩ := Option.map_eq_some_iff.1 hq
    cases hstatus : p.status with
    | some status => simp [CompilerProcess.stop, hstatus, CompilerProcess.isRunning] at hrun
    | none => simp_all [CompilerProcess.stop, CompilerProcess.isRunning, CompilerProcess.isStopped]
  · intro x y hact hx q hq hrun
    cases hact with
    | @start e s b =>
      obtain rfl := Option.some.inj hq
      simp only [Session.started] at hrun ⊢
      split at hrun <;> simp_all [CompilerProcess.stop, CompilerProcess.isRunning,
        CompilerProcess.isStopped]
    | exit =>
      obtain rfl := Option.some.inj hq
      simp [CompilerProcess.isRunning] at hrun
    | report => exact hx q (by rwa [Session.deliver_process] at hq) hrun
    | _ => exact hx q hq hrun

/-- After the opening of a step, a session that has its source to itself goes through a turn. -/
theorem Course.step {d₀ : Disk} {source listing : Path} {e₁ : Engine} (he : Reachable e)
    (hopen : Relation.ReflTransGen Opening e e₁) (hgoes : Goes e₁ s)
    (hlive : s.process = none ∨ s.phase = .running) (hcourse : Course e₁ s r)
    (hre : Rearranged r.1 e') (hsole : ∀ id s, e'.sessions.get? id = some s → s.source = source)
    (hlisting : e.settings.listingPath source = .ok listing)
    (htraced : Traceable e.disk.denials source listing → Traced d₀ listing e) :
    (Traceable e.disk.denials source listing → Traced d₀ listing e') ∧
      (e'.deliveries = e.deliveries ∨
        ∃ s, e'.sessions.get? s.id = some s ∧ Reported d₀ e e' s) := by
  have hs := hgoes.stored
  have hr := he.inOrder.registry
  obtain ⟨hopened, hr₁⟩ := opened_of_openings hr hopen
  have hproper : ∀ id r, e₁.sessions.get? id = some r → r.Proper e₁.settings := fun id r hr' =>
    hopened.settings ▸ hopened.proper (fun _ _ => he.proper) hr'
  have hplain := hr₁.plain hs
  -- The sessions keep their source in the turn, so they all had the one source before.
  have hsole₁ : ∀ id r, e₁.sessions.get? id = some r → r.source = source := by
    obtain ⟨s', hworks⟩ := hcourse.works hplain
    intro id r' hr'
    have hget := hworks.get?_eq hs id
    rw [← hre.sessions] at hget
    split at hget
    · obtain rfl : s = r' := Option.some.inj (hs.symm.trans (‹id = s.id› ▸ hr'))
      exact hworks.same.source.symm.trans (hsole id s' hget)
    · exact hsole id r' (hget.trans hr')
  obtain rfl : s.source = source := hsole₁ _ _ hs
  obtain rfl : s.listing = listing := by
    have hlisting' := (hproper _ _ hs).listing
    rw [hopened.settings] at hlisting'
    exact Except.ok.inj (hlisting'.symm.trans hlisting)
  rw [← hopened.disk] at htraced ⊢
  have hsourced : Traceable e₁.disk.denials s.source s.listing →
      Sourced (Leftover d₀ e₁ s) e₁ s ∧ e₁.OnlyRuns s := fun htraceable =>
    have honly := Alone.onlyRuns hgoes.alone hproper hs hsole₁ htraceable.seen
    ⟨((htraced htraceable).openings hr hopen).sourced (hproper _ _ hs) hs honly hlive, honly⟩
  obtain ⟨s', hworks, htraced', hreported⟩ := hcourse.accounted hs hplain hsourced
  refine ⟨fun htraceable => (htraced' htraceable).congr hre.disk hre.sessions, .inr ⟨s', ?_, ?_⟩⟩
  · rw [hre.sessions]
    exact hworks.get?_self hs
  · rw [Reported, hre.deliveries, ← (he.ledger.opening hr hopen).2.2]
    refine hreported.imp_right ?_
    rintro ⟨diagnostics, htold, hbytes⟩
    refine ⟨diagnostics, htold, hbytes.imp_right ?_⟩
    rintro ⟨bytes, htells, haccounted⟩
    refine ⟨bytes, htells, ?_⟩
    exact haccounted.imp_right (·.imp_right (·.imp_right (·.congr hre.disk hre.sessions)))

/-- In a step, what is reported is accounted for, and it stays known whose listing can be read. -/
theorem Step.accounted {d₀ : Disk} {source listing : Path} (he : Reachable e) (hstep : Step e e')
    (hsole : ∀ id s, e'.sessions.get? id = some s → s.source = source)
    (hlisting : e.settings.listingPath source = .ok listing)
    (htraced : Traceable e.disk.denials source listing → Traced d₀ listing e) :
    (Traceable e.disk.denials source listing → Traced d₀ listing e') ∧
      (e'.deliveries = e.deliveries ∨
        ∃ s, e'.sessions.get? s.id = some s ∧ Reported d₀ e e' s) := by
  -- A step brings a session in, ends a process, or takes a turn; only a turn can report.
  cases hstep.shape he.inOrder with
  | opening hopen =>
    have hr := he.inOrder.registry
    exact ⟨fun htraceable => (htraced htraceable).openings hr hopen,
      .inl (he.ledger.opening hr hopen).2.2⟩
  | @exit _ s p status hgoes hphase hp hrun hre =>
    have hmove := Move.exit (e := e) status hp hrun (he.not_isStopped hgoes.stored hp hrun)
    have hrunning : (e.exitProcess s p status).2.phase = .running := hphase
    have hcourse : Course e s ((e.exitProcess s p status).1, .waits .waiting) :=
      hmove.course (Ending.rests .refl rfl rfl (.inr hrunning) (.inl rfl)).course
    exact hcourse.step he .refl hgoes (.inr hphase) hre hsole hlisting htraced
  | @turn e₁ _ task s r hopen hgoes hturn hre =>
    exact hturn.course.step he hopen hgoes hturn.live hre hsole hlisting htraced

/-! ## From the start on -/

/-- If all sessions are made for one source, it is known at any time whose listing can be read. -/
theorem Steps.traced {disk : Disk} {searchPath : List Text} {settings : Settings} {e₀ : Engine}
    {source listing : Path} (hcreate : create disk searchPath settings = .ok e₀)
    (hground : disk.Grounded listing.names)
    (hlisting : e₀.settings.listingPath source = .ok listing)
    (htraceable : Traceable disk.denials source listing) (hsteps : Steps e₀ e)
    (hsole : ∀ id s, e.sessions.get? id = some s → s.source = source) :
    Traced disk listing e := by
  have he₀ := Reachable.create hcreate
  induction hsteps with
  | refl =>
    obtain ⟨compiler, log, rfl⟩ := create_eq hcreate
    exact ⟨hground, fun hread => .stale hread fun _ _ hs => by simp at hs⟩
  | @tail e e' hsteps hstep ih =>
    have he := he₀.steps hsteps
    have htraced := ih fun id s hs => by
      obtain ⟨s', hs', hl⟩ := (hstep.footprint he.inOrder).later hs
      exact hl.source.symm.trans (hsole id s' hs')
    rw [← Steps.settings he₀ hsteps] at hlisting
    rw [← Steps.denials_of_create hcreate hsteps] at htraceable
    exact (hstep.accounted he hsole hlisting fun _ => htraced).1 htraceable

/-- The bytes of a listing with one message. -/
def oneMessage : List UInt8 :=
  Utf8.encode "****        $140\n****  LINE 1\n140  Unknown symbol\n".toList

end Engine

end LiveCheck
