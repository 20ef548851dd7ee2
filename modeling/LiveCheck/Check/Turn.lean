import LiveCheck.Check.Engine

/-!
# The turns of a task

A turn is what a task does without interruption, from the point where it could go on to the point
where it has to wait or ends. The turns of a check are:

* `enter`: it overtakes the check of its source that was started last and joins the queue;
* `proceed`: when it has the source, it stops if it is not the newest any more, saves the text of
  the source if there is one, and asks for the compiler;
* `launch`: the compiler has started, or the system refused to start it;
* `collect`: the compiler has exited, and the listing is read, reported and deleted.

The source is written, the compiler asked for and the listing read only while the task has its
source to itself, and every report follows a look at whether the session is still the newest.
-/

namespace LiveCheck

/-- How a turn leaves its task. -/
inductive Progress
  /-- The task waits. -/
  | waits (stage : Stage)
  /-- The task has ended. -/
  | ends (outcome : Outcome)
  deriving DecidableEq, Repr

/-- Lets a task wait at a stage. A start that it waits for is held at first. -/
def Task.wait (task : Task) (stage : Stage) : Task :=
  { task with stage, startHeld := if stage = .starting then some true else task.startHeld }

namespace Engine

/-- How a turn ends that ends its task, well or with a fault. -/
def endTurn : Engine × Except TaskFault Unit → Engine × Progress
  | (e, .ok ()) => (e, .ends .done)
  | (e, .error fault) => (e, .ends (.failed fault))

/-- Ends a session that was overtaken. -/
def supersede (e : Engine) (s : Session) : Engine × Except TaskFault Unit :=
  match e.move s .superseded with
  | .ok (e, _) => (e, .ok ())
  | .error fault => (e, .error fault)

/-- Ends a session that went wrong: overtaken if it is not the newest, else without diagnostics. -/
def giveUp (e : Engine) (s : Session) : Engine × Except TaskFault Unit :=
  if e.isCurrent s then e.reportEmpty s else e.supersede s

/-- Reads the listing of a session and places its records onto the source. The events tell what was
    met on the way. -/
def readDiagnostics (e : Engine) (s : Session) :
    Engine × Except CheckFault (List Diagnostic) :=
  match e.disk.readText s.listing with
  | .error fault => (e, .error (.disk fault))
  | .ok listing =>
    match s.text.elim (e.disk.readText s.source) (.ok ·.shown) with
    | .error fault => (e, .error (.disk fault))
    | .ok text =>
      let e := e.note (listingEvents listing)
      match readListing listing with
      | .error numeral => (e, .error (.overlong numeral))
      | .ok records =>
        let name := s.source.text
        let diagnostics := placeRecords records text name
        let events := placingEvents records text name ++
          [Event.diagnosed s.source.name diagnostics.length]
        (e.note events, .ok diagnostics)

/-- Reports what the listing of a session tells. The session is parsing. -/
def reportListing (e : Engine) (s : Session) : Engine × Except TaskFault Unit :=
  match e.readDiagnostics s with
  | (e, .ok diagnostics) => e.report s .reported diagnostics
  | (e, .error fault) =>
    let s := { s with fault := some fault }
    ((e.note [.listingUnusable s.listing fault]).putSession s).reportEmpty s

/-- What follows the exit of the compiler. -/
def afterExit (e : Engine) (s : Session) (status : Int) : Engine × Progress :=
  if !e.isCurrent s then
    match e.supersede s with
    | (e, .error fault) => (e, .ends (.failed fault))
    | (e, .ok ()) => endTurn (e.removeListing s)
  else
    match e.disk.pathExists s.listing with
    | .error fault => (e, .ends (.failed (.disk fault)))
    | .ok false => endTurn ((e.note [.noListing s.source.name status]).reportEmpty s)
    | .ok true =>
      match e.move s .parsing with
      | .error fault => (e, .ends (.failed fault))
      | .ok (e, s) =>
        let (e, reported) := e.reportListing s
        let (e, removed) := e.removeListing s
        -- A fault of the removal comes later, and takes the place of one of the report.
        endTurn (e, removed >>= fun _ => reported)

/-- The compiler has exited. -/
def collect (e : Engine) (s : Session) (p : CompilerProcess) (status : Int) : Engine × Progress :=
  let output := p.behaviour.errorOutput
  let e := e.note <|
    (if output.isEmpty then [] else [.compilerErrors (Text.strip output)]) ++ [.exited s.id status]
  e.afterExit s status

/-- The place where a compiler leaves the listing of a source. -/
def outputPlace (e : Engine) (s : Session) (b : Behaviour) : Option Place :=
  match s.source.withSuffix ('.' :: b.listingSuffix) with
  | .ok p => some (p.fullNames e.disk.here)
  | .error _ => none

/-- A compiler puts a node in the place of the listing. -/
def emit (e : Engine) (s : Session) (b : Behaviour) (node : Option Node) : Engine :=
  match e.outputPlace s b, node with
  | some place, some node => { e with disk := e.disk.plant place node }
  | _, _ => e

/-- The compiler process of a session exits by itself. -/
def exitProcess (e : Engine) (s : Session) (p : CompilerProcess) (status : Int) :
    Engine × Session :=
  let s := { s with process := some { p with status := some status } }
  ((e.emit s p.behaviour p.behaviour.listing).putSession s, s)

/-- The start of the compiler is over. -/
def launch (e : Engine) (task : Task) (s : Session) : Engine × Progress :=
  let b := task.behaviour
  match b.failedStart with
  -- Only what the system says of a start is taken in.
  | some (.rejected reason) => (e, .ends (.failed (.start reason)))
  | some (.refused startFault) =>
    let fault := e.spawnFault startFault
    let s := { s with fault := some (.spawn fault) }
    endTurn (((e.note [.checkFailed s.source.name fault]).putSession s).giveUp s)
  | none =>
    let e := e.emit s b b.early
    let s := { s with process := some { behaviour := b } }
    let s := if s.cancelled then s.cancel else s
    let e := e.putSession s
    match e.move s .running with
    | .error fault => (e, .ends (.failed fault))
    | .ok (e, s) =>
      match s.process with
      | none => (e, .waits .waiting)
      | some p =>
        match p.status with
        | some status => e.collect s p status
        | none =>
          if b.holdsExit then (e, .waits .waiting)
          else
            let (e, s) := e.exitProcess s p b.status
            e.collect s p b.status

/-- Asks for the compiler. -/
def spawn (e : Engine) (task : Task) (s : Session) : Engine × Progress :=
  match e.move s .spawning with
  | .error fault => (e, .ends (.failed fault))
  | .ok (e, s) =>
    match e.settings.command e.compiler s.source with
    | .error fault => (e, .ends (.failed (.setting fault)))
    | .ok command =>
      let directory := s.source.parent
      let e := e.note [.spawning command directory]
      let e : Engine := { e with spawns := e.spawns ++ [⟨s.id, command, directory⟩] }
      if task.behaviour.holdsStart then (e, .waits .starting) else e.launch task s

/-- The task has its source to itself. -/
def proceed (e : Engine) (task : Task) (s : Session) : Engine × Progress :=
  if !e.isCurrent s then endTurn (e.supersede s)
  else
    match s.text with
    | none => e.spawn task s
    | some text =>
      match e.disk.writeText s.source text.written with
      | .ok disk =>
        -- Opening the file has emptied it when it turns out that the text is none.
        match text.encode with
        | .ok _ => { e with disk }.spawn task s
        | .error fault => ({ e with disk }, .ends (.failed (.text fault)))
      | .error fault =>
        let s := { s with fault := some (.disk fault) }
        endTurn (((e.note [.sourceNotSaved s.source fault]).putSession s).reportEmpty s)

/-- Makes a session the active one of its source, and cancels the one that was. -/
def overtake (e : Engine) (s : Session) : Engine :=
  let prior := e.active.get? s.source
  let e := { e with active := e.active.put s.source s.id }
  match prior with
  | none => e
  | some older =>
    if older = s.id then e else (e.note [.overtaken s.id older]).cancelSession older

/-- The task begins: it joins the queue of its source, and goes on at once if it is alone. -/
def enter (e : Engine) (t : TaskId) (task : Task) (s : Session) : Engine × Progress :=
  let e := e.overtake s
  let queue := e.queueOf s.source
  let e := { e with queues := e.queues.put s.source (queue ++ [t]) }
  if queue.isEmpty then e.proceed task s else (e, .waits .queued)

/-- Takes a task out of the queue of its source. If it was at the head, the next one's turn
    comes. -/
def leaveQueue (e : Engine) (t : TaskId) (source : Path) : Engine :=
  let queue := e.queueOf source
  let rest := queue.erase t
  let e := { e with queues := e.queues.put source rest }
  if queue.head? = some t then
    match rest with
    | [] => e
    | next :: _ =>
      { e with tasks := e.tasks.modify next fun task => { task with stage := .admitted } }.enqueue
        next
  else e

/-- Takes a session out of the active ones, if it is the active one of its source. -/
def retire (e : Engine) (s : Session) : Engine :=
  if e.active.get? s.source = some s.id then { e with active := e.active.erase s.source } else e

/-- Records how a turn left its task. The source of a task that has ended goes to the next task. -/
def settle (e : Engine) (t : TaskId) (s : Session) : Progress → Engine
  | .waits stage => { e with tasks := e.tasks.modify t (·.wait stage) }
  | .ends outcome =>
    let e := { e with
      tasks := e.tasks.modify t fun task => { task with stage := .ended outcome }
      finished := e.finished ++ [t] }
    let e := e.leaveQueue t s.source
    let e := if outcome = .aborted then e.cancelSession s.id else e
    e.retire s

/-- What a task does when it can go on. -/
def turn (e : Engine) (t : TaskId) (task : Task) (s : Session) : Engine × Progress :=
  match task.stage with
  | .created => e.enter t task s
  | .admitted => e.proceed task s
  | .starting => e.launch task s
  | .waiting =>
    match s.process with
    | none => (e, .waits .waiting)
    | some p =>
      match p.status with
      | none => (e, .waits .waiting)
      | some status => e.collect s p status
  | stage => (e, .waits stage)

/-- Lets a task take its turn. -/
def resume (e : Engine) (t : TaskId) : Engine :=
  match e.tasks.get? t with
  | none => e
  | some task =>
    match e.sessions.get? task.session with
    | none => e
    | some s =>
      let (e, progress) := e.turn t task s
      e.settle t s progress

/-- Lets tasks take turns, the first one that can go on first. The fuel bounds the turns. -/
def drainFuel : (fuel : Nat) → Engine → Engine
  | 0, e => e
  | fuel + 1, e =>
    match e.ready with
    | [] => e
    | t :: rest => drainFuel fuel ({ e with ready := rest }.resume t)

/-- Lets tasks take turns until none can go on. A task takes at most one turn for each of the four
    points that it can wait at. -/
def drain (e : Engine) : Engine := drainFuel (4 * e.tasks.entries.length) e

end Engine

end LiveCheck
