import LiveCheck.Proofs.Check.History
import Mathlib.Data.List.Induction

/-!
# What happens to a source

All that may happen to a source is that a check of it begins, that its compiler starts or exits,
that it is cancelled, and that its task which can go on takes a turn (`Happening`). Which session
and which task this is about need not be said: only the task at the head of the queue of the source
has a compiler, or can go on.

What happens is a step of the engine, if it has an effect (`happen_steps`), and every step but a
shutdown is something that happens to some source (`Step.happening`). So a run of the engine over
several sources is a list of things that happen to them (`play`).
-/

namespace LiveCheck

/-- Something that happens to a source. -/
inductive Happening
  /-- A check of it begins. -/
  | check (path : Text) (text : Option JsonString) (receiver : Receiver) (behaviour : Behaviour)
  /-- Its compiler starts, if the start was held. -/
  | start
  /-- Its compiler exits, if it is running. -/
  | exit (status : Int)
  /-- It is cancelled. -/
  | cancel
  /-- Its task takes a turn, if it can go on. -/
  | turn

/-- It happens to the source, and not to another one. -/
def Happening.IsAbout (d : Disk) (source : Path) : Happening → Prop
  | check path _ _ _ => d.resolved path = .ok source
  | _ => True

instance (d : Disk) (source : Path) (what : Happening) : Decidable (what.IsAbout d source) :=
  match what with
  | .check path _ _ _ => inferInstanceAs (Decidable (d.resolved path = .ok source))
  | .start | .exit _ | .cancel | .turn => inferInstanceAs (Decidable True)

namespace Engine

variable {e e' : Engine} {source : Path} {t : TaskId} {task : Task} {s : Session}

/-- Is the session on record as one of the source? -/
def concerns (e : Engine) (source : Path) (id : Int) : Bool :=
  (e.sessions.get? id).any (·.source = source)

/-- A number concerns a source if its session is made for it. -/
theorem concerns_iff {id : Int} :
    e.concerns source id ↔ ∃ s, e.sessions.get? id = some s ∧ s.source = source := by
  simp [concerns, Option.any_eq_true]

/-- The attempts to start the compiler for the source, in order. -/
def spawnsOf (e : Engine) (source : Path) : List Spawn :=
  e.spawns.filter fun spawn => e.concerns source spawn.session

/-- The reports about the source that reached a receiver, in order. -/
def reportsOf (e : Engine) (source : Path) : List (Int × List Diagnostic) :=
  e.deliveries.filter fun report => e.concerns source report.1

/-- The task that has the source to itself. -/
def holder (e : Engine) (source : Path) : Option Task := (e.queueOf source).head?.bind e.tasks.get?

/-- Lets something happen to a source. -/
def happen (e : Engine) (source : Path) : Happening → Engine
  | .check path text receiver behaviour =>
    match e.newSession path text receiver with
    | (e, .ok s) => (e.beginCheck s.id behaviour).1
    | (e, .error _) => e
  | .start => ((e.holder source).bind fun task => e.openStart task.session).getD e
  | .exit status => ((e.holder source).bind fun task => e.endProcess task.session status).getD e
  | .cancel => e.cancelActive source
  | .turn =>
    match (e.queueOf source).head? with
    | some t => if t ∈ e.ready then { e with ready := e.ready.erase t }.resume t else e
    | none => e

/-- What happens in a run, one thing after the other. -/
def play (e : Engine) (run : List (Path × Happening)) : Engine :=
  run.foldl (fun e x => e.happen x.1 x.2) e

@[simp] theorem play_nil (e : Engine) : e.play [] = e := rfl

theorem play_concat (e : Engine) (run : List (Path × Happening)) (x : Path × Happening) :
    e.play (run ++ [x]) = (e.play run).happen x.1 x.2 := List.foldl_concat _ _ _ _

/-- What happens is a step, or has no effect. -/
theorem happen_steps (e : Engine) (source : Path) (what : Happening) :
    Steps e (e.happen source what) := by
  -- What cannot happen, as there is nothing that it could happen to, is no step at all.
  cases what with
  | check path text receiver behaviour =>
    simp only [happen]
    split
    · exact .single (.check behaviour ‹_›)
    · exact .single (.refuse ‹_›)
  | start =>
    cases hopen : (e.holder source).bind fun task => e.openStart task.session with
    | none => simp only [happen, hopen]; exact .refl
    | some e' =>
      obtain ⟨task, -, hopen'⟩ := Option.bind_eq_some_iff.1 hopen
      simp only [happen, hopen]
      exact .single (.start hopen')
  | exit status =>
    cases hend : (e.holder source).bind fun task => e.endProcess task.session status with
    | none => simp only [happen, hend]; exact .refl
    | some e' =>
      obtain ⟨task, -, hend'⟩ := Option.bind_eq_some_iff.1 hend
      simp only [happen, hend]
      exact .single (.exit hend')
  | cancel => exact .single (.cancel source)
  | turn =>
    simp only [happen]
    split
    · split
      · obtain ⟨earlier, later, -, hready, herase⟩ := List.exists_erase_eq ‹_ ∈ e.ready›
        rw [herase]
        exact .single (.turn hready)
      · exact .refl
    · exact .refl

/-- A run is made of steps. -/
theorem play_steps (e : Engine) (run : List (Path × Happening)) : Steps e (e.play run) := by
  induction run using List.reverseRecOn with
  | nil => exact .refl
  | append_singleton run x ih =>
    rw [play_concat]
    exact ih.trans (happen_steps _ _ _)

/-! ## The task that has the source -/

/-- The task that has the source to itself carries out a check of it. -/
theorem Schedule.of_holder (h : Schedule none e) (hholder : e.holder source = some task) :
    ∃ t s, e.Carries t task s ∧ s.source = source := by
  obtain ⟨t, hhead, ht⟩ := Option.bind_eq_some_iff.1 hholder
  obtain ⟨a, s, ha, hsource⟩ := h.queue_owned (List.mem_of_head? hhead)
  obtain rfl := Option.some.inj (ha.1.symm.trans ht)
  exact ⟨t, s, ha, hsource⟩

/-- A task whose turn has come has its source to itself. -/
theorem Schedule.holder (h : Schedule none e) (ht : e.Carries t task s)
    (halike : task.stage.Alike .admitted) :
    (e.queueOf s.source).head? = some t ∧ e.holder s.source = some task := by
  have hhead : (e.queueOf s.source).head? = some t := (halike.2 _ _).1 (h.placed ht)
  refine ⟨hhead, ?_⟩
  rw [Engine.holder, hhead]
  exact ht.1

/-- A task is found by its session while its start was asked for. -/
theorem heldTask?_of_carries (h : Roster e) (ht : e.tasks.get? t = some task) :
    e.heldTask? task.session = if task.startHeld.isSome then some (t, task) else none := by
  have hsole : ∀ u b, (u, b) ∈ e.tasks.entries → b.session = task.session → u = t ∧ b = task := by
    intro u b hmem hsession
    have hu := (Table.mem_entries_iff h.keys_nodup).1 hmem
    obtain rfl := h.alone hu ht hsession
    exact ⟨rfl, Option.some.inj (hu.symm.trans ht)⟩
  split
  · rename_i hheld
    have hsome : (e.heldTask? task.session).isSome :=
      List.find?_isSome.2 ⟨(t, task), Table.mem_entries_of_get? ht, by simp [hheld]⟩
    obtain ⟨⟨u, b⟩, hfound⟩ := Option.isSome_iff_exists.1 hsome
    have hsession := List.find?_some hfound
    simp only [decide_eq_true_eq] at hsession
    obtain ⟨rfl, rfl⟩ := hsole u b (List.mem_of_find?_eq_some hfound) hsession.1
    exact hfound
  · rw [heldTask?, List.find?_eq_none]
    rintro ⟨u, b⟩ hmem hheld
    simp only [decide_eq_true_eq] at hheld
    obtain ⟨rfl, rfl⟩ := hsole u b hmem hheld.1
    exact ‹¬_› hheld.2

/-- Opening the start of the compiler of a session, told from its task. -/
theorem openStart_eq (h : Roster e) (ht : e.tasks.get? t = some task) :
    e.openStart task.session = if task.startHeld = some true then
      some { e with
        tasks := e.tasks.put t { task with startHeld := some false }
        ready := if task.stage = .starting then e.ready ++ [t] else e.ready }
    else none := by
  rw [Engine.openStart, heldTask?_of_carries h ht]
  by_cases hheld : task.startHeld = some true
  · simp only [hheld, Option.isSome_some, if_true]
    split <;> rfl
  · cases task.startHeld.isSome <;> simp [hheld]

/-! ## Steps -/

/-- Every step is something that happens to a source, unless it cancels all of them or has no
    effect. -/
theorem Step.happening (h : Reachable e) (hstep : Step e e') : e' = e ∨ e' = e.cancelAll ∨
    ∃ source what, what.IsAbout e.disk source ∧ e' = e.happen source what := by
  have hschedule := h.inOrder.schedule
  cases hstep with
  | @check _ s path text receiver behaviour hnew =>
    exact .inr (.inr ⟨s.source, .check path text receiver behaviour, (newSession_placed hnew).1,
      by simp only [happen, hnew]⟩)
  | @refuse _ refusal path text receiver hnew =>
    cases hpath : e.disk.resolved path with
    | error fault =>
      rw [newSession, hpath] at hnew
      exact .inl (Prod.mk.inj hnew).1.symm
    | ok source =>
      exact .inr (.inr ⟨source, .check path text receiver {}, hpath, by simp only [happen, hnew]⟩)
  | @start _ id hopen =>
    obtain ⟨t, task, ht, rfl, hheld, -⟩ := openStart_eq_some hschedule.keys_nodup hopen
    obtain ⟨s, hs⟩ := hschedule.owned ht
    have hstage := ((hschedule.fits (free_none t) ⟨ht, hs⟩).starting_of_held hheld).1
    have hholder := (hschedule.holder ⟨ht, hs⟩ (by rw [hstage]; exact ⟨rfl, fun _ _ => Iff.rfl⟩)).2
    exact .inr (.inr ⟨s.source, .start, trivial, by
      simp only [happen, hholder, Option.bind_some, hopen, Option.getD_some]⟩)
  | @exit _ id status hend =>
    obtain ⟨s, p, hs, hp, hrun, -⟩ := endProcess_eq_some hend
    obtain ⟨t, task, ht, rfl⟩ := hschedule.carried hs
    have hstage := (hschedule.fits (free_none t) ⟨ht, hs⟩).stage_of_running
      (Session.not_rests.2 ⟨p, hp, hrun⟩)
    have hholder := (hschedule.holder ⟨ht, hs⟩ (by rw [hstage]; exact ⟨rfl, fun _ _ => Iff.rfl⟩)).2
    exact .inr (.inr ⟨s.source, .exit status, trivial, by
      simp only [happen, hholder, Option.bind_some, hend, Option.getD_some]⟩)
  | cancel source => exact .inr (.inr ⟨source, .cancel, trivial, rfl⟩)
  | shutdown => exact .inr (.inl rfl)
  | @turn t earlier later hready =>
    obtain ⟨task, s, ht, hgo, -, -⟩ := hschedule.take hready
    have hhead := (hschedule.holder ht hgo.alike).1
    -- Its first place among those that can go on is the one that it is taken from.
    have hnot : t ∉ earlier := fun hmem => by
      have hnodup := hready ▸ hschedule.ready_nodup
      exact (List.nodup_append.1 hnodup).2.2 t hmem t List.mem_cons_self rfl
    have herase : e.ready.erase t = earlier ++ later := by
      rw [hready, List.erase_append_right _ hnot, List.erase_cons_head]
    exact .inr (.inr ⟨s.source, .turn, trivial, by
      simp only [happen, hhead, herase, if_pos (show t ∈ e.ready by simp [hready])]⟩)

end Engine

end LiveCheck
