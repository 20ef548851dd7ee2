import LiveCheck.Proofs.Check.Order
import LiveCheck.Proofs.Disk.Place

/-!
# The same turn in two engines

A session is under different numbers in two engines, but is the same otherwise, and the engines
agree in all that a turn of its task looks at: the settings, the places of its source and of its
listing, and whether it is the newest one of its source (`Twin`). Then its task takes the same turn
in both (`Twin.turn`): it comes to the same end, and the engines still agree.

What the engines have on record of other sources makes no difference, so only the spawns and the
reports of one source are compared (`ours`).
-/

namespace LiveCheck

/-- The session under another number. -/
def Session.renumber (number : Int → Int) (s : Session) : Session := { s with id := number s.id }

/-- The task, for its session under another number. -/
def Task.renumber (number : Int → Int) (task : Task) : Task :=
  { task with session := number task.session }

/-- The attempt to start a compiler, for a session under another number. -/
def Spawn.renumber (number : Int → Int) (spawn : Spawn) : Spawn :=
  { spawn with session := number spawn.session }

/-- The report of a session under another number. -/
def renumberReport (number : Int → Int) (report : Int × List Diagnostic) : Int × List Diagnostic :=
  (number report.1, report.2)

theorem Session.renumber_deliver (number : Int → Int) (s : Session)
    (diagnostics : List Diagnostic) :
    (s.renumber number).deliver diagnostics = (s.deliver diagnostics).renumber number := by
  cases h : s.delivered <;> simp [deliver, renumber, h]

theorem Session.same_to (s : Session) (next : Phase) : s.Same (s.to next) :=
  ⟨rfl, rfl, rfl, rfl, rfl, rfl⟩

namespace Engine

variable {number : Int → Int} {ours : Int → Bool} {e f : Engine} {s s' : Session}

/-- The engine in which the compiler of the session was asked for. -/
def asking (e : Engine) (s : Session) (command : List Json) : Engine :=
  let e := (e.moved s .spawning).note [.spawning command s.source.parent]
  { e with spawns := e.spawns ++ [⟨s.id, command, s.source.parent⟩] }

/-- A session asks for its compiler if its command can be told from the settings. If not, its check
    fails. -/
theorem spawn_eq {task : Task} (hs : s.phase = .idle) : e.spawn task s =
    match e.settings.command e.compiler s.source with
    | .error fault => (e.moved s .spawning, .ends (.failed (.setting fault)))
    | .ok command =>
      if task.behaviour.holdsStart then (e.asking s command, .waits .starting)
      else (e.asking s command).launch task (s.to .spawning) := by
  have hnext : .spawning ∈ s.phase.successors := by rw [hs]; decide
  rw [spawn, move_eq hnext]
  rfl

/-- The session is on record in both engines, and they agree in what its task looks at. -/
structure Twin (number : Int → Int) (ours : Int → Bool) (e f : Engine) (s : Session) : Prop where
  settings : e.settings = f.settings
  compiler : e.compiler = f.compiler
  newest : e.isCurrent (s.renumber number) = f.isCurrent s
  known : ours (number s.id)
  stored : e.sessions.get? (number s.id) = some (s.renumber number)
  stored' : f.sessions.get? s.id = some s
  plain : s.source.Plain
  plain_listing : s.listing.Plain
  toSource : Disk.Agree s.source.names f.disk e.disk
  toListing : Disk.Agree s.listing.names f.disk e.disk
  spawns : e.spawns.filter (fun spawn => ours spawn.session) = f.spawns.map (·.renumber number)
  deliveries : e.deliveries.filter (fun report => ours report.1) =
    f.deliveries.map (renumberReport number)

/-- Two things done with the session have the same result, and the session is on record in both
    engines after them. -/
def Concur {α : Type} (number : Int → Int) (ours : Int → Bool) (s : Session) (r r' : Engine × α) :
    Prop :=
  r.2 = r'.2 ∧ ∃ s', s.Same s' ∧ Twin number ours r.1 r'.1 s'

/-- What was done before, with the session in another form. -/
theorem Concur.after {α : Type} {r r' : Engine × α} (h : Concur number ours s' r r')
    (hsame : s.Same s') : Concur number ours s r r' := by
  obtain ⟨hresult, s'', hsame', htwin⟩ := h
  exact ⟨hresult, s'', hsame.trans hsame', htwin⟩

/-- The same result ends a turn in the same way. -/
theorem Concur.endTurn {r r' : Engine × Except TaskFault Unit} (h : Concur number ours s r r') :
    Concur number ours s (endTurn r) (endTurn r') := by
  obtain ⟨e, result⟩ := r
  obtain ⟨f, result'⟩ := r'
  obtain ⟨hresult, s', hsame, htwin⟩ := h
  obtain rfl : result = result' := hresult
  cases result <;> exact ⟨rfl, s', hsame, htwin⟩

namespace Twin

theorem concur {α : Type} (h : Twin number ours e f s') (hsame : s.Same s') (result : α) :
    Concur number ours s (e, result) (f, result) := ⟨rfl, s', hsame, h⟩

/-! ## Acts -/

/-- What is put in the logs makes no difference. -/
theorem note (h : Twin number ours e f s) (events events' : List Event) :
    Twin number ours (e.note events) (f.note events') s := { h with }

/-- Another form of the session takes its place. -/
theorem replace (h : Twin number ours e f s) (hid : s'.id = s.id) (hsource : s'.source = s.source)
    (hlisting : s'.listing = s.listing) :
    Twin number ours (e.putSession (s'.renumber number)) (f.putSession s') s' := by
  refine { h with
    newest := ?_, known := hid ▸ h.known, stored := ?_, stored' := ?_,
    plain := hsource ▸ h.plain, plain_listing := hlisting ▸ h.plain_listing,
    toSource := hsource ▸ h.toSource, toListing := hlisting ▸ h.toListing }
  · have hnewest := h.newest
    rw [isCurrent, isCurrent] at hnewest ⊢
    simp only [Session.renumber, hid, hsource] at hnewest ⊢
    exact hnewest
  · exact Table.get?_put_self _ _ _
  · exact Table.get?_put_self _ _ _

/-- Twins stay twins when the session is put on record in both engines. -/
theorem putSession (h : Twin number ours e f s) (hsame : s.Same s') :
    Twin number ours (e.putSession (s'.renumber number)) (f.putSession s') s' :=
  h.replace hsame.id hsame.source hsame.listing

/-- Twins make the same move. -/
theorem moved (h : Twin number ours e f s) (next : Phase) :
    Twin number ours (e.moved (s.renumber number) next) (f.moved s next) (s.to next) :=
  (h.note _ _).putSession (s.same_to next)

/-- Twins deliver the same report. -/
theorem deliver (h : Twin number ours e f s) (diagnostics : List Diagnostic) :
    Twin number ours (e.deliver (s.renumber number) diagnostics) (f.deliver s diagnostics)
      (s.deliver diagnostics) := by
  have hput := (h.note (s.renumber number).deliverEvents s.deliverEvents).putSession
    (s.deliver_same diagnostics)
  rw [Engine.deliver, Engine.deliver, Session.renumber_deliver]
  cases hd : s.delivered with
  | true =>
    have hd' : (s.renumber number).delivered = true := hd
    rw [if_pos hd', if_pos rfl]
    exact hput
  | false =>
    have hd' : ¬(s.renumber number).delivered = true := by simp [Session.renumber, hd]
    rw [if_neg hd', if_neg (by simp)]
    refine { hput with deliveries := ?_ }
    have hknown : ours (s.renumber number).id := h.known
    simp only [List.filter_append, List.map_append, List.filter_cons, hknown, if_true,
      List.filter_nil, List.map_cons, List.map_nil]
    exact congrArg (· ++ _) hput.deliveries

/-- The same happens to both disks. -/
theorem disks (h : Twin number ours e f s) {d d' : Disk}
    (hagree : ∀ place, Disk.Agree place f.disk e.disk → Disk.Agree place d' d) :
    Twin number ours { e with disk := d } { f with disk := d' } s :=
  { h with toSource := hagree _ h.toSource, toListing := hagree _ h.toListing }

/-! ## The ends of a check -/

/-- Twins end overtaken alike. -/
theorem supersede (h : Twin number ours e f s) (hs : .superseded ∈ s.phase.successors) :
    Concur number ours s (e.supersede (s.renumber number)) (f.supersede s) := by
  rw [supersede_eq hs, supersede_eq (s := s.renumber number) hs]
  exact (h.moved .superseded).concur (s.same_to .superseded) _

/-- Twins report alike. -/
theorem report (h : Twin number ours e f s) {next : Phase} (hs : next ∈ s.phase.successors)
    (diagnostics : List Diagnostic) :
    Concur number ours s (e.report (s.renumber number) next diagnostics)
      (f.report s next diagnostics) := by
  rw [report_eq hs, report_eq (s := s.renumber number) hs]
  exact ((h.moved next).deliver diagnostics).concur
    ((s.same_to next).trans ((s.to next).deliver_same diagnostics)) _

/-- Twins give up alike: the session is the newest one in both engines, or in neither. -/
theorem giveUp (h : Twin number ours e f s) (hempty : .reportedEmpty ∈ s.phase.successors)
    (hover : .superseded ∈ s.phase.successors) :
    Concur number ours s (e.giveUp (s.renumber number)) (f.giveUp s) := by
  rw [Engine.giveUp, Engine.giveUp, h.newest]
  split
  · exact h.report hempty []
  · exact h.supersede hover

/-- The listing is deleted in both engines, or in none. -/
theorem removeListing (h : Twin number ours e f s) :
    Concur number ours s (e.removeListing (s.renumber number)) (f.removeListing s) := by
  rw [Engine.removeListing, Engine.removeListing]
  have hlisting : (s.renumber number).listing = s.listing := rfl
  rw [hlisting]
  rcases h.toListing.removeFile h.plain_listing with
    ⟨fault, hf, he⟩ | ⟨d, d', hf, he, hagree⟩
  · rw [hf, he]
    split
    · simp_all
    · exact h.concur (.refl s) _
    · exact (h.note _ _).concur (.refl s) _
    · exact h.concur (.refl s) _
  · rw [hf, he]
    exact (h.disks hagree).concur (.refl s) _

/-! ## After the compiler has exited -/

/-- The source reads the same in both engines. -/
theorem readText_source (h : Twin number ours e f s) :
    e.disk.readText s.source = f.disk.readText s.source := by
  rw [Disk.readText, Disk.readText, h.toSource.readBytes h.plain]

/-- The listing reads the same in both engines. -/
theorem readText_listing (h : Twin number ours e f s) :
    e.disk.readText s.listing = f.disk.readText s.listing := by
  rw [Disk.readText, Disk.readText, h.toListing.readBytes h.plain_listing]

/-- The same is read in both engines. -/
theorem readDiagnostics (h : Twin number ours e f s) :
    (e.readDiagnostics (s.renumber number)).2 = (f.readDiagnostics s).2 ∧
      Twin number ours (e.readDiagnostics (s.renumber number)).1 (f.readDiagnostics s).1 s := by
  rw [Engine.readDiagnostics, Engine.readDiagnostics]
  have hfields : (s.renumber number).listing = s.listing ∧ (s.renumber number).text = s.text ∧
      (s.renumber number).source = s.source := ⟨rfl, rfl, rfl⟩
  obtain ⟨hlisting, htext, hsource⟩ := hfields
  rw [hlisting, htext, hsource, h.readText_listing, h.readText_source]
  split
  · exact ⟨rfl, h⟩
  split
  · exact ⟨rfl, h⟩
  dsimp only
  split
  · exact ⟨rfl, h.note _ _⟩
  · exact ⟨rfl, (h.note _ _).note _ _⟩

/-- Twins report the same records from the listing, or fail to read it with the same fault. -/
theorem reportListing (h : Twin number ours e f s) (hs : s.phase = .parsing) :
    Concur number ours s (e.reportListing (s.renumber number)) (f.reportListing s) := by
  obtain ⟨hresult, hread⟩ := h.readDiagnostics
  have hnext : .reported ∈ s.phase.successors := by rw [hs]; decide
  have hempty : .reportedEmpty ∈ s.phase.successors := by rw [hs]; decide
  rw [Engine.reportListing, Engine.reportListing]
  generalize e.readDiagnostics (s.renumber number) = x at *
  generalize f.readDiagnostics s = y at *
  obtain ⟨e₁, result⟩ := x
  obtain ⟨f₁, result'⟩ := y
  obtain rfl : result = result' := hresult
  cases result with
  | ok diagnostics => exact hread.report hnext diagnostics
  | error fault =>
    have hsame : s.Same { s with fault := some fault } := ⟨rfl, rfl, rfl, rfl, rfl, rfl⟩
    have hfail := (hread.note [.listingUnusable s.listing fault]
      [.listingUnusable s.listing fault]).putSession hsame
    exact (hfail.report hempty []).after hsame

/-- The listing is deleted after something else was done with the session. -/
theorem removeListing_of_same (h : Twin number ours e f s') (hsame : s.Same s') :
    Concur number ours s (e.removeListing (s.renumber number)) (f.removeListing s) := by
  have hlisting : (s'.renumber number).listing = (s.renumber number).listing := hsame.listing
  have hremove := h.removeListing
  rw [removeListing_congr hlisting, removeListing_congr hsame.listing] at hremove
  exact hremove.after hsame

/-- After the exit of the compiler, twins go the same way. -/
theorem afterExit (h : Twin number ours e f s) (hs : s.phase = .running) (status : Int) :
    Concur number ours s (e.afterExit (s.renumber number) status) (f.afterExit s status) := by
  have hover : .superseded ∈ s.phase.successors := by rw [hs]; decide
  have hempty : .reportedEmpty ∈ s.phase.successors := by rw [hs]; decide
  have hparse : .parsing ∈ s.phase.successors := by rw [hs]; decide
  have hlisting : (s.renumber number).listing = s.listing := rfl
  have hexists : e.disk.pathExists s.listing = f.disk.pathExists s.listing := by
    rw [Disk.pathExists, Disk.pathExists, Disk.asks, Disk.asks,
      h.toListing.lookup h.plain_listing]
  -- They are current in both engines or in none, and see the same at the path of the listing.
  rw [Engine.afterExit, Engine.afterExit, h.newest]
  split
  · rw [supersede_eq hover, supersede_eq (s := s.renumber number) hover]
    exact ((h.moved .superseded).removeListing_of_same (s.same_to .superseded)).endTurn
  · rw [hlisting, hexists]
    split
    · exact h.concur (.refl s) _
    · exact ((h.note _ _).report hempty []).endTurn
    · rw [move_eq hparse, move_eq (s := s.renumber number) hparse]
      obtain ⟨hreported, s', hsame, htwin⟩ := (h.moved .parsing).reportListing rfl
      obtain ⟨hremoved, s'', hsame', htwin'⟩ := htwin.removeListing_of_same hsame
      have hfields : (s.renumber number).to .parsing = (s.to .parsing).renumber number := rfl
      dsimp only
      rw [hfields, hreported, hremoved]
      exact (htwin'.concur ((s.same_to .parsing).trans hsame') _).endTurn

theorem collect (h : Twin number ours e f s) (hs : s.phase = .running) (p : CompilerProcess)
    (status : Int) :
    Concur number ours s (e.collect (s.renumber number) p status) (f.collect s p status) :=
  (h.note _ _).afterExit hs status

/-! ## Up to the compiler's exit -/

/-- A compiler leaves the same in both engines. -/
theorem emit (h : Twin number ours e f s) (b : Behaviour) (node : Option Node) :
    Twin number ours (e.emit (s.renumber number) b node) (f.emit s b node) s := by
  have hplace : e.outputPlace (s.renumber number) b = f.outputPlace s b := by
    rw [outputPlace, outputPlace, h.toSource.here]
    rfl
  unfold Engine.emit
  rw [hplace]
  split
  · rename_i place node hplace
    exact h.disks fun _ hagree => hagree.plant (outputPlace_ne_nil h.plain hplace) node
  · exact h

theorem exitProcess (h : Twin number ours e f s) (p : CompilerProcess) (status : Int) :
    Twin number ours (e.exitProcess (s.renumber number) p status).1 (f.exitProcess s p status).1
      (f.exitProcess s p status).2 :=
  (h.emit p.behaviour p.behaviour.listing).putSession
    (show s.Same (f.exitProcess s p status).2 from ⟨rfl, rfl, rfl, rfl, rfl, rfl⟩)

theorem started (h : Twin number ours e f s) (b : Behaviour) :
    Twin number ours (e.started (s.renumber number) b) (f.started s b) (runs s b) := by
  have hstart := (h.emit b b.early).putSession
    (show s.Same { s with process := s.started b } from ⟨rfl, rfl, rfl, rfl, rfl, rfl⟩)
  exact hstart.moved .running

/-- The compilers of twins start alike, or fail to with the same fault. -/
theorem launch (h : Twin number ours e f s) (hs : s.phase = .spawning) (task : Task) :
    Concur number ours s (e.launch (task.renumber number) (s.renumber number))
      (f.launch task s) := by
  cases hf : task.behaviour.failedStart with
  | some failure =>
    have hf' : (task.renumber number).behaviour.failedStart = some failure := hf
    rw [Engine.launch, Engine.launch]
    simp only [hf, hf']
    cases failure with
    | rejected reason => exact h.concur (.refl s) _
    | refused startFault =>
      -- Both engines have the same compiler, so the fault of a refused start is the same.
      let fault := f.spawnFault startFault
      let s₁ : Session := { s with fault := some (.spawn fault) }
      have hsame : s.Same s₁ := ⟨rfl, rfl, rfl, rfl, rfl, rfl⟩
      have hfail := (h.note [.checkFailed s.source.name fault]
        [.checkFailed s.source.name fault]).putSession hsame
      have hempty : .reportedEmpty ∈ s₁.phase.successors := by simp [s₁, hs, Phase.successors]
      have hover : .superseded ∈ s₁.phase.successors := by simp [s₁, hs, Phase.successors]
      have hfault : e.spawnFault startFault = fault := by
        rw [Engine.spawnFault, h.compiler]
        rfl
      dsimp only
      rw [hfault]
      exact ((hfail.giveUp hempty hover).after hsame).endTurn
  | none =>
    have hf' : (task.renumber number).behaviour.failedStart = none := hf
    rw [launch_eq hs hf, launch_eq (s := s.renumber number) hs hf']
    have hstart := h.started task.behaviour
    have hsame : s.Same (runs s task.behaviour) := ⟨rfl, rfl, rfl, rfl, rfl, rfl⟩
    have hbehaviour : (task.renumber number).behaviour = task.behaviour := rfl
    have hprocess : (s.renumber number).started task.behaviour = s.started task.behaviour := rfl
    rw [hbehaviour, hprocess]
    split
    · exact (hstart.collect rfl _ _).after hsame
    split
    · exact hstart.concur hsame _
    · have hexit := hstart.exitProcess (s.started task.behaviour) task.behaviour.status
      exact (hexit.collect rfl _ _).after (hsame.trans ⟨rfl, rfl, rfl, rfl, rfl, rfl⟩)

/-! ## Up to the start of the compiler -/

/-- The compiler is asked for in both engines. -/
theorem asking (h : Twin number ours e f s) (command : List Json) :
    Twin number ours (e.asking (s.renumber number) command) (f.asking s command)
      (s.to .spawning) := by
  have hmoved := (h.moved .spawning).note [.spawning command s.source.parent]
    [.spawning command s.source.parent]
  refine { hmoved with spawns := ?_ }
  have hknown : ours (s.renumber number).id := h.known
  simp only [Engine.asking, List.filter_append, List.map_append, List.filter_cons, hknown, if_true,
    List.filter_nil, List.map_cons, List.map_nil]
  exact congrArg (· ++ _) hmoved.spawns

/-- Twins ask for the same compiler, with the same command. -/
theorem spawn (h : Twin number ours e f s) (hs : s.phase = .idle) (task : Task) :
    Concur number ours s (e.spawn (task.renumber number) (s.renumber number)) (f.spawn task s) := by
  have hbehaviour : (task.renumber number).behaviour = task.behaviour := rfl
  have hsource : (s.renumber number).source = s.source := rfl
  rw [spawn_eq hs, spawn_eq (s := s.renumber number) hs, hbehaviour, hsource, h.settings,
    h.compiler]
  split
  · exact (h.moved .spawning).concur (s.same_to .spawning) _
  split
  · exact (h.asking _).concur (s.same_to .spawning) _
  · exact ((h.asking _).launch rfl task).after (s.same_to .spawning)

/-- Twins do the same with their source: they are overtaken, fail to save, or ask for the
    compiler. -/
theorem proceed (h : Twin number ours e f s) (hs : s.phase = .idle) (task : Task) :
    Concur number ours s (e.proceed (task.renumber number) (s.renumber number))
      (f.proceed task s) := by
  have hover : .superseded ∈ s.phase.successors := by rw [hs]; decide
  have hfields : (s.renumber number).text = s.text ∧ (s.renumber number).source = s.source :=
    ⟨rfl, rfl⟩
  rw [Engine.proceed, Engine.proceed, h.newest, hfields.1, hfields.2]
  split
  · exact (h.supersede hover).endTurn
  cases htext : s.text with
  | none => exact h.spawn hs task
  | some text =>
    rcases h.toSource.writeText h.plain text.written with
      ⟨fault, hf, he⟩ | ⟨d, d', hf, he, hagree⟩
    · let s₁ : Session := { s with text := some text, fault := some (.disk fault) }
      have hsame : s.Same s₁ := ⟨rfl, rfl, rfl, htext.symm, rfl, rfl⟩
      have hfail := (h.note [.sourceNotSaved s.source fault]
        [.sourceNotSaved s.source fault]).putSession hsame
      have hempty : .reportedEmpty ∈ s₁.phase.successors := by
        simp [s₁, hs, Phase.successors]
      simp only [hf, he]
      exact ((hfail.report hempty []).after hsame).endTurn
    · simp only [hf, he]
      cases text.encode with
      | ok written => exact (h.disks hagree).spawn hs task
      | error fault => exact (h.disks hagree).concur (.refl s) _

/-! ## Any turn -/

/-- What a task that can go on does, it does in both engines. -/
theorem turn (h : Twin number ours e f s) {around : Surroundings} {task : Task}
    (hfits : Fits around task s) (hgo : task.CanGoOn s) (t u : TaskId) :
    Concur number ours s (e.turn u (task.renumber number) (s.renumber number))
      (f.turn t task s) := by
  have hstage' : (task.renumber number).stage = task.stage := rfl
  rw [Engine.turn, Engine.turn, hstage']
  -- The stage of the task decides what its turn is, and both tasks are at the same stage.
  cases hfits with
  | queued hstage _ hphase =>
    rcases hstage with hstage | hstage
    · simp [Task.CanGoOn, hstage] at hgo
    · rw [hstage]
      exact h.proceed hphase task
  | starting hstage _ hphase =>
    rw [hstage]
    exact h.launch hphase task
  | @waiting p hstage _ hphase hprocess =>
    have hprocess' : (s.renumber number).process = some p := hprocess
    rw [hstage, hprocess, hprocess']
    dsimp only
    split
    · exact h.concur (.refl s) _
    · exact h.collect hphase p _
  | ended hstage => simp [Task.CanGoOn, hstage] at hgo

end Twin

end Engine

end LiveCheck
