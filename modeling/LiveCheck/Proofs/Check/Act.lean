import LiveCheck.Check.Control
import LiveCheck.Proofs.Disk.Change
import Mathlib.Logic.Relation

/-!
# What a task does in a turn

Once a task has its source to itself, a turn is a chain of *acts* (`Act`), each of which changes the
engine and the session of the task together: the source is saved, the compiler asked for, the
session moved to another phase, a report delivered, the listing deleted. An act says under which
condition it takes place; a report, in particular, only while the session is the newest of its
source.

What holds of every act holds of a whole turn (`Works`), so an invariant is checked act by act:

* no act touches the queues, the tasks or the newest sessions, nor what is settled for the engine
  (`Works.kept`);
* no act touches any other session, and the source of a session never changes
  (`Works.get?_self`, `Works.get?_of_ne`, `Works.same`).
-/

namespace LiveCheck

/-- No process of the session is running. -/
def Session.Rests (s : Session) : Prop := ∀ p, s.process = some p → p.isRunning = false

/-- The session in another phase. -/
def Session.to (s : Session) (next : Phase) : Session := { s with phase := next }

@[simp] theorem Session.to_listing (s : Session) (next : Phase) :
    (s.to next).listing = s.listing := rfl
@[simp] theorem Session.to_phase (s : Session) (next : Phase) : (s.to next).phase = next := rfl
@[simp] theorem Session.to_reports (s : Session) (next : Phase) :
    (s.to next).reports = s.reports := rfl

/-- Moving to a phase that may follow. -/
theorem Session.advance_eq {s : Session} {next : Phase} (h : next ∈ s.phase.successors) :
    s.advance next = .ok (s.to next) := if_pos h

/-- What a session is about. It stays what it was made with. -/
structure Session.Same (s s' : Session) : Prop where
  id : s'.id = s.id
  source : s'.source = s.source
  listing : s'.listing = s.listing
  text : s'.text = s.text
  receiver : s'.receiver = s.receiver
  cancelled : s'.cancelled = s.cancelled

theorem Session.Same.refl (s : Session) : s.Same s := ⟨rfl, rfl, rfl, rfl, rfl, rfl⟩

theorem Session.Same.trans {s s' s'' : Session} (h : s.Same s') (h' : s'.Same s'') : s.Same s'' :=
  ⟨h'.id.trans h.id, h'.source.trans h.source, h'.listing.trans h.listing, h'.text.trans h.text,
    h'.receiver.trans h.receiver, h'.cancelled.trans h.cancelled⟩

/-- A delivery changes nothing of what the session is about. -/
theorem Session.deliver_same (s : Session) (diagnostics : List Diagnostic) :
    s.Same (s.deliver diagnostics) := by
  rw [Session.deliver]
  split <;> exact ⟨rfl, rfl, rfl, rfl, rfl, rfl⟩

/-- Delivering is no move. -/
theorem Session.deliver_phase (s : Session) (diagnostics : List Diagnostic) :
    (s.deliver diagnostics).phase = s.phase := by
  rw [Session.deliver]
  split <;> rfl

theorem Session.deliver_process (s : Session) (diagnostics : List Diagnostic) :
    (s.deliver diagnostics).process = s.process := by
  rw [Session.deliver]
  split <;> rfl

/-- A fault gets out of a delivery if it is the first one, and the receiver failed and could not
    tell why. -/
theorem Session.deliveryFault?_eq_some {s : Session} {reason : Text} :
    s.deliveryFault? = some reason ↔
      s.delivered = false ∧ s.receiver.failure = some (.untold reason) := by
  rw [deliveryFault?]
  cases s.delivered with
  | true => simp
  | false =>
    cases s.receiver.failure with
    | none => simp
    | some failure => cases failure <;> simp [ReceiverFault.untold?]

/-- The process of a session that has just started its compiler: it is stopped at once if the
    session was cancelled before. -/
def Session.started (s : Session) (b : Behaviour) : CompilerProcess :=
  if s.cancelled then CompilerProcess.stop { behaviour := b } else { behaviour := b }

namespace Engine

/-- The engine after its session has moved to another phase. -/
def moved (e : Engine) (s : Session) (next : Phase) : Engine :=
  (e.note [s.advanceEvent next]).putSession (s.to next)

/-- A move that the table allows takes place, and is put on record. -/
theorem move_eq {e : Engine} {s : Session} {next : Phase} (h : next ∈ s.phase.successors) :
    e.move s next = .ok (e.moved s next, s.to next) := by
  simp only [move, Session.advance_eq h, moved]

/-- One thing that a task does in a turn, to the engine and to its session. -/
inductive Act : Engine × Session → Engine × Session → Prop
  /-- Something is noted in the log. -/
  | note {e s} (events : List Event) : Act (e, s) (e.note events, s)
  /-- What can be written of the text of the session is saved. -/
  | save {e s text disk} : e.isCurrent s → s.phase = .idle → s.text = some text →
      e.disk.writeText s.source text.written = .ok disk → Act (e, s) ({ e with disk }, s)
  /-- The compiler is asked for. -/
  | ask {e s} (command : List Json) : e.isCurrent s → s.phase = .spawning →
      Act (e, s) ({ e with spawns := e.spawns ++ [⟨s.id, command, s.source.parent⟩] }, s)
  /-- Something went wrong. -/
  | fail {e s} (fault : CheckFault) :
      Act (e, s) (e.putSession { s with fault := some fault }, { s with fault := some fault })
  /-- The compiler leaves a listing. -/
  | emit {e s} (b : Behaviour) (node : Option Node) : Act (e, s) (e.emit s b node, s)
  /-- The compiler has started. -/
  | start {e s} (b : Behaviour) : s.process = none → Act (e, s)
      (e.putSession { s with process := s.started b }, { s with process := s.started b })
  /-- The compiler exits by itself. -/
  | exit {e s p} (status : Int) : s.process = some p → p.isRunning →
      Act (e, s) (e.putSession { s with process := some { p with status := some status } },
        { s with process := some { p with status := some status } })
  /-- The session moves to a phase in which nothing is reported. -/
  | move {e s next} : next ∈ s.phase.successors → next ≠ .reported → next ≠ .reportedEmpty →
      (next = .superseded → e.isCurrent s = false) →
      Act (e, s) (e.moved s next, s.to next)
  /-- The session moves to a phase of reports, and reports. -/
  | report {e s next} (diagnostics : List Diagnostic) : e.isCurrent s →
      next ∈ s.phase.successors → next = .reported ∨ next = .reportedEmpty →
      Act (e, s) ((e.moved s next).deliver (s.to next) diagnostics, (s.to next).deliver diagnostics)
  /-- The listing is deleted. -/
  | clean {e s disk} : e.disk.removeFile s.listing = .ok disk → Act (e, s) ({ e with disk }, s)

/-- What a task does in a turn, act by act. -/
def Works : Engine × Session → Engine × Session → Prop := Relation.ReflTransGen Act

theorem Works.refl {x : Engine × Session} : Works x x := Relation.ReflTransGen.refl

/-- An act is all that a task may do in a turn. -/
theorem Act.works {x y : Engine × Session} (h : Act x y) : Works x y := .single h

theorem Works.trans {x y z : Engine × Session} (h : Works x y) (h' : Works y z) : Works x z :=
  Relation.ReflTransGen.trans h h'

/-- What every act preserves is preserved by a turn. -/
theorem Works.preserves {P : Engine × Session → Prop} (hP : ∀ x y, Act x y → P x → P y)
    {x y : Engine × Session} (h : Works x y) (hx : P x) : P y := by
  induction h with
  | refl => exact hx
  | tail _ ha ih => exact hP _ _ ha ih

/-! ## What no act touches -/

/-- What is settled for an engine: its settings, and what the system denies it. -/
structure Surroundings where
  settings : Settings
  denials : Denials

/-- What is settled for the engine. -/
def surroundings (e : Engine) : Surroundings := ⟨e.settings, e.disk.denials⟩

/-- What a task has no hand in while it has its source to itself. -/
structure Kept (e e' : Engine) : Prop where
  settings : e'.settings = e.settings
  frame : Disk.Frame e.disk e'.disk
  nextId : e'.nextId = e.nextId
  latest : e'.latest = e.latest
  active : e'.active = e.active
  queues : e'.queues = e.queues
  tasks : e'.tasks = e.tasks
  ready : e'.ready = e.ready

theorem Kept.refl (e : Engine) : Kept e e := ⟨rfl, .refl _, rfl, rfl, rfl, rfl, rfl, rfl⟩

theorem Kept.trans {e e' e'' : Engine} (h : Kept e e') (h' : Kept e' e'') : Kept e e'' :=
  ⟨h'.settings.trans h.settings, h.frame.trans h'.frame, h'.nextId.trans h.nextId,
    h'.latest.trans h.latest, h'.active.trans h.active, h'.queues.trans h.queues,
    h'.tasks.trans h.tasks, h'.ready.trans h.ready⟩

/-- A turn leaves alone what is settled for the engine. -/
theorem Kept.surroundings {e e' : Engine} (h : Kept e e') : e'.surroundings = e.surroundings := by
  rw [Engine.surroundings, Engine.surroundings, h.settings, h.frame.denials]

/-- A compiler changes nothing but what is on the disk. -/
theorem emit_eq (e : Engine) (s : Session) (b : Behaviour) (node : Option Node) :
    ∃ disk, e.emit s b node = { e with disk } ∧ Disk.Frame e.disk disk := by
  unfold emit
  split
  · exact ⟨_, rfl, Disk.frame_plant _ _⟩
  · exact ⟨e.disk, rfl, .refl _⟩

/-- A delivery changes the session, and what is on record. -/
theorem deliver_eq (e : Engine) (s : Session) (diagnostics : List Diagnostic) :
    ∃ deliveries log, e.deliver s diagnostics =
      { e with sessions := e.sessions.put (s.deliver diagnostics).id (s.deliver diagnostics)
               deliveries, log } := by
  rw [deliver]
  split
  · exact ⟨e.deliveries, _, rfl⟩
  · exact ⟨_, _, rfl⟩

/-- No act touches the queues, the tasks or the newest sessions, nor what is settled for the
    engine. -/
theorem Act.kept {x y : Engine × Session} (h : Act x y) : Kept x.1 y.1 := by
  cases h with
  | @emit e s b node =>
    obtain ⟨disk, hd, hframe⟩ := e.emit_eq s b node
    rw [hd]
    exact ⟨rfl, hframe, rfl, rfl, rfl, rfl, rfl, rfl⟩
  | save _ _ _ hwrite =>
    obtain ⟨-, place, executable, -, -, -, rfl⟩ := Disk.writeBytes_eq_ok hwrite
    exact ⟨rfl, ⟨rfl, rfl⟩, rfl, rfl, rfl, rfl, rfl, rfl⟩
  | clean hremove =>
    obtain ⟨-, place, -, -, -, rfl⟩ := Disk.removeFile_eq_ok.1 hremove
    exact ⟨rfl, ⟨rfl, rfl⟩, rfl, rfl, rfl, rfl, rfl, rfl⟩
  | @report e s next diagnostics =>
    obtain ⟨deliveries, log, hd⟩ := (e.moved s next).deliver_eq (s.to next) diagnostics
    rw [hd]
    exact ⟨rfl, .refl _, rfl, rfl, rfl, rfl, rfl, rfl⟩
  | _ => exact ⟨rfl, .refl _, rfl, rfl, rfl, rfl, rfl, rfl⟩

/-- A turn touches neither the queues, the tasks nor the newest sessions, nor what is settled for
    the engine. -/
theorem Works.kept {x y : Engine × Session} (h : Works x y) : Kept x.1 y.1 :=
  h.preserves (P := fun z => Kept x.1 z.1) (fun _ _ ha hk => hk.trans ha.kept) (.refl _)

/-! ## Sessions -/

/-- An act changes nothing of what its session is about. -/
theorem Act.same {x y : Engine × Session} (h : Act x y) : x.2.Same y.2 := by
  cases h with
  | @report e s next diagnostics =>
    have : s.Same (s.to next) := ⟨rfl, rfl, rfl, rfl, rfl, rfl⟩
    exact this.trans ((s.to next).deliver_same diagnostics)
  | _ => exact ⟨rfl, rfl, rfl, rfl, rfl, rfl⟩

/-- An act leaves the sessions alone, or puts its session in its place. -/
theorem Act.sessions {x y : Engine × Session} (h : Act x y) :
    (y.2 = x.2 ∧ y.1.sessions = x.1.sessions) ∨ ∃ table : Table Int Session,
      y.1.sessions = table.put y.2.id y.2 ∧
        ∀ id, id ≠ x.2.id → table.get? id = x.1.sessions.get? id := by
  cases h with
  | note | save | ask | clean => exact .inl ⟨rfl, rfl⟩
  | @emit e s b node =>
    obtain ⟨disk, hd, -⟩ := e.emit_eq s b node
    exact .inl ⟨rfl, by rw [hd]⟩
  | @report e s next diagnostics =>
    obtain ⟨deliveries, log, hd⟩ := (e.moved s next).deliver_eq (s.to next) diagnostics
    exact .inr ⟨(e.moved s next).sessions, by rw [hd], fun _ hid => Table.get?_put_of_ne hid _⟩
  | _ => exact .inr ⟨_, rfl, fun _ _ => rfl⟩

/-- A turn changes nothing of what its session is about. -/
theorem Works.same {x y : Engine × Session} (h : Works x y) : x.2.Same y.2 :=
  h.preserves (P := fun z => x.2.Same z.2) (fun _ _ ha hs => hs.trans ha.same) (.refl _)

/-- The session of a task is the one on record, throughout its turn. -/
theorem Act.get?_self {x y : Engine × Session} (h : Act x y)
    (hx : x.1.sessions.get? x.2.id = some x.2) : y.1.sessions.get? y.2.id = some y.2 := by
  rcases h.sessions with ⟨hs, ht⟩ | ⟨table, ht, -⟩
  · rw [ht, hs, hx]
  · rw [ht, Table.get?_put_self]

/-- The session of a turn stays on record as it comes out of the turn. -/
theorem Works.get?_self {x y : Engine × Session} (h : Works x y)
    (hx : x.1.sessions.get? x.2.id = some x.2) : y.1.sessions.get? y.2.id = some y.2 :=
  h.preserves (P := fun z => z.1.sessions.get? z.2.id = some z.2) (fun _ _ ha => ha.get?_self) hx

theorem Act.get?_of_ne {x y : Engine × Session} (h : Act x y) {id : Int} (hid : id ≠ x.2.id) :
    y.1.sessions.get? id = x.1.sessions.get? id := by
  rcases h.sessions with ⟨-, ht⟩ | ⟨table, ht, hne⟩
  · rw [ht]
  · rw [ht, Table.get?_put_of_ne (h.same.id ▸ hid), hne id hid]

/-- A turn touches no session but its own. -/
theorem Works.get?_of_ne {x y : Engine × Session} (h : Works x y) {id : Int} (hid : id ≠ x.2.id) :
    y.1.sessions.get? id = x.1.sessions.get? id := by
  induction h with
  | refl => rfl
  | @tail b c hb ha ih => rw [ha.get?_of_ne (Works.same hb |>.id ▸ hid), ih]

end Engine

end LiveCheck
