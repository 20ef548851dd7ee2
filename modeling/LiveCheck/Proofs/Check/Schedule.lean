import LiveCheck.Proofs.Check.Registry
import LiveCheck.Proofs.Check.Roster
import LiveCheck.Proofs.Check.Turn

/-!
# Who may go on

Between turns, the stage of a task fits the phase of its session and its place in the queue of its
source, and the tasks that can go on are exactly those that are not held up by a queue, a compiler
that is to start or a compiler that is running (`Schedule`). In the middle of a turn this holds of
all tasks but one, which has its place in the queue already, or not yet. That task is *busy*, and
counts as being at a stage of its own.

* `Schedule.replace`: a session is replaced by another form of itself;
* `Schedule.works`: the busy task works on its session;
* `Schedule.settle_waits`, `Schedule.settle_ends`: the busy task ends its turn.
-/

namespace LiveCheck

/-- How the stage of a task and the phase of its session fit each other. -/
inductive Fits (around : Engine.Surroundings) (task : Task) (s : Session) : Prop
  /-- The check has not got its source yet. -/
  | queued : task.stage = .queued ∨ task.stage = .admitted → task.startHeld = none →
      s.phase = .idle → s.process = none → Fits around task s
  /-- The compiler is to start. -/
  | starting {held} : task.stage = .starting → task.startHeld = some held →
      s.phase = .spawning → s.process = none → Fits around task s
  /-- The compiler has started. -/
  | waiting {p} : task.stage = .waiting → task.startHeld ≠ some true →
      s.phase = .running → s.process = some p → Fits around task s
  /-- The task has ended. -/
  | ended {outcome} : task.stage = .ended outcome → task.startHeld ≠ some true →
      Left around task.behaviour (.ends outcome) s → Fits around task s

/-- Nothing holds up the task. -/
def Task.CanGoOn (task : Task) (s : Session) : Prop :=
  match task.stage with
  | .admitted => True
  | .starting => task.startHeld = some false
  | .waiting => s.Rests
  | _ => False

/-- Where a task at a stage stands in the queue of its source. -/
def Stage.Place (queue : List TaskId) (t : TaskId) : Stage → Prop
  | .created | .ended _ => t ∉ queue
  | .queued => t ∈ queue.tail
  | .admitted | .starting | .waiting => queue.head? = some t

/-- The task is not in the middle of a turn. -/
def Free (busy : Option (TaskId × Stage)) (t : TaskId) : Prop := ∀ stage, busy ≠ some (t, stage)

@[simp] theorem free_none (t : TaskId) : Free none t := fun _ => nofun

@[simp] theorem free_some (u t : TaskId) (stage : Stage) : Free (some (u, stage)) t ↔ u ≠ t := by
  simp [Free]

/-- The stage that a task counts as being at. -/
def Task.counted (busy : Option (TaskId × Stage)) (t : TaskId) (task : Task) : Stage :=
  match busy with
  | some (u, stage) => if u = t then stage else task.stage
  | none => task.stage

@[simp] theorem Task.counted_none (t : TaskId) (task : Task) :
    task.counted none t = task.stage := rfl

@[simp] theorem Task.counted_self (t : TaskId) (stage : Stage) (task : Task) :
    task.counted (some (t, stage)) t = stage := if_pos rfl

theorem Task.counted_of_ne {u t : TaskId} (h : u ≠ t) (stage : Stage) (task : Task) :
    task.counted (some (u, stage)) t = task.stage := if_neg h

/-- A task that is not in the middle of a turn counts as being at its stage. -/
theorem Task.counted_of_free {busy : Option (TaskId × Stage)} {t : TaskId} (h : Free busy t)
    (task : Task) : task.counted busy t = task.stage := by
  cases busy with
  | none => rfl
  | some b =>
    obtain ⟨u, stage⟩ := b
    exact counted_of_ne ((free_some u t stage).1 h) stage task

/-- A task that waits for its compiler can go on when no process is running. -/
theorem Task.canGoOn_waiting {task : Task} {s : Session} (h : task.stage = .waiting) :
    task.CanGoOn s ↔ s.Rests := by
  simp [Task.CanGoOn, h]

/-- Of its session, a task is held up by a running process only. -/
theorem Task.canGoOn_congr {task : Task} {s s' : Session} (h : s'.Rests ↔ s.Rests) :
    task.CanGoOn s' ↔ task.CanGoOn s := by
  unfold Task.CanGoOn
  split <;> first | exact Iff.rfl | exact h

theorem Session.not_rests {s : Session} : ¬s.Rests ↔ ∃ p, s.process = some p ∧ p.isRunning := by
  simp [Session.Rests]

namespace Engine

/-- Tasks, queues and sessions fit each other, but for a busy task. -/
structure Schedule (busy : Option (TaskId × Stage)) (e : Engine) : Prop extends Roster e where
  fits : ∀ {t task s}, Free busy t → e.Carries t task s → Fits e.surroundings task s
  ready_nodup : e.ready.Nodup
  mem_ready : ∀ {t}, t ∈ e.ready ↔
    Free busy t ∧ ∃ task s, e.Carries t task s ∧ task.CanGoOn s
  queue_nodup : ∀ source, (e.queueOf source).Nodup
  queue_owned : ∀ {source t}, t ∈ e.queueOf source →
    ∃ task s, e.Carries t task s ∧ s.source = source
  placed : ∀ {t task s}, e.Carries t task s →
    (task.counted busy t).Place (e.queueOf s.source) t
  active : ∀ {source id}, e.active.get? source = some id → ∃ t task s, e.Carries t task s ∧
    task.session = id ∧ s.source = source ∧ (task.counted busy t).isEnded = false

variable {busy : Option (TaskId × Stage)} {e e' : Engine}

/-- Every other check of the source waits for its turn, or has ended. -/
def Alone (e : Engine) (s : Session) : Prop :=
  ∀ {id r}, e.sessions.get? id = some r → r.source = s.source → id ≠ s.id →
    r.phase = .idle ∨ ∃ b outcome, Left e.surroundings b (.ends outcome) r

/-- A task at the head of its queue has its source to itself. -/
theorem Schedule.alone_of_head (h : Schedule busy e) (hr : Registry e) {t : TaskId} {task : Task}
    {s : Session} (ht : e.Carries t task s) (hhead : (e.queueOf s.source).head? = some t)
    (hfree : ∀ {u}, u ≠ t → Free busy u) : e.Alone s := by
  intro id r hstored hsource hne
  obtain ⟨u, b, hu, rfl⟩ := h.carried hstored
  have hut : u ≠ t := by
    rintro rfl
    obtain ⟨rfl, -⟩ := ht.unique ⟨hu, hstored⟩
    exact hne (hr.keyed ht.2).symm
  have hplaced : b.stage.Place (e.queueOf s.source) u :=
    hsource ▸ Task.counted_of_free (hfree hut) b ▸ h.placed ⟨hu, hstored⟩
  have hnot : (e.queueOf s.source).head? ≠ some u := fun hu =>
    hut (Option.some.inj (hu.symm.trans hhead))
  cases h.fits (hfree hut) ⟨hu, hstored⟩ with
  | queued _ _ hphase => exact .inl hphase
  | starting hstage | waiting hstage =>
    rw [hstage] at hplaced
    exact absurd hplaced hnot
  | ended _ _ hleft => exact .inr ⟨_, _, hleft⟩

/-! ## Replacing a session -/

/-- A session is replaced by another form of itself, and the tasks that can go on are as they
    should be. -/
theorem Schedule.replace (h : Schedule busy e) {s s' : Session}
    (hstored : e.sessions.get? s.id = some s) (hsource : s'.source = s.source)
    (hs : ∀ id, e'.sessions.get? id = if id = s.id then some s' else e.sessions.get? id)
    (haround : e'.surroundings = e.surroundings) (htasks : e'.tasks = e.tasks)
    (hqueues : e'.queues = e.queues) (hactive : e'.active = e.active)
    (hfits : ∀ {t task}, Free busy t → e.Carries t task s → Fits e.surroundings task s')
    (hnodup : e'.ready.Nodup)
    (hready : ∀ {t}, t ∈ e'.ready ↔ Free busy t ∧ ∃ task r, e'.Carries t task r ∧ task.CanGoOn r) :
    Schedule busy e' := by
  have hcarries : ∀ {t task r}, e'.Carries t task r ↔
      (task.session = s.id ∧ r = s' ∧ e.Carries t task s) ∨
        (task.session ≠ s.id ∧ e.Carries t task r) :=
    carries_replace hstored hs htasks
  have hqueue : e'.queueOf = e.queueOf := by
    funext source
    rw [queueOf, queueOf, hqueues]
  -- Each task still carries out a check of the same source.
  have hnew : ∀ {t task r}, e.Carries t task r →
      ∃ r', e'.Carries t task r' ∧ r'.source = r.source := by
    intro t task r hr
    by_cases hid : task.session = s.id
    · obtain rfl : s = r := Option.some.inj (hstored.symm.trans (hid ▸ hr.2))
      exact ⟨s', hcarries.2 (.inl ⟨hid, rfl, hr⟩), hsource⟩
    · exact ⟨r, hcarries.2 (.inr ⟨hid, hr⟩), rfl⟩
  constructor
  · exact h.toRoster.replace hstored hs htasks
  · intro t task r hfree hr
    rw [haround]
    rcases hcarries.1 hr with ⟨-, rfl, ho⟩ | ⟨-, ho⟩
    · exact hfits hfree ho
    · exact h.fits hfree ho
  · exact hnodup
  · exact hready
  · exact hqueue ▸ h.queue_nodup
  · intro source t ht
    obtain ⟨task, r, hr, hsrc⟩ := h.queue_owned (hqueue ▸ ht)
    obtain ⟨r', hr', hsrc'⟩ := hnew hr
    exact ⟨task, r', hr', hsrc'.trans hsrc⟩
  · intro t task r hr
    rw [hqueue]
    rcases hcarries.1 hr with ⟨-, rfl, ho⟩ | ⟨-, ho⟩
    · exact hsource ▸ h.placed ho
    · exact h.placed ho
  · intro source id hid
    obtain ⟨t, task, r, hr, hsession, hsrc, hended⟩ := h.active (hactive ▸ hid)
    obtain ⟨r', hr', hsrc'⟩ := hnew hr
    exact ⟨t, task, r', hr', hsession, hsrc'.trans hsrc, hended⟩

/-- A session is replaced by another form of itself, which holds up its task just as much. -/
theorem Schedule.replace_quiet (h : Schedule busy e) {s s' : Session}
    (hstored : e.sessions.get? s.id = some s) (hsource : s'.source = s.source)
    (hs : ∀ id, e'.sessions.get? id = if id = s.id then some s' else e.sessions.get? id)
    (haround : e'.surroundings = e.surroundings) (htasks : e'.tasks = e.tasks)
    (hqueues : e'.queues = e.queues) (hactive : e'.active = e.active)
    (hready : e'.ready = e.ready)
    (hfits : ∀ {t task}, Free busy t → e.Carries t task s →
      Fits e.surroundings task s' ∧ (task.CanGoOn s' ↔ task.CanGoOn s)) : Schedule busy e' := by
  refine h.replace hstored hsource hs haround htasks hqueues hactive
    (fun hfree ho => (hfits hfree ho).1) (hready ▸ h.ready_nodup) fun {t} => ?_
  rw [hready, h.mem_ready]
  refine and_congr_right fun hfree => ?_
  constructor
  · -- Whether a task can go on is the same before and after, and so is who carries what.
    rintro ⟨task, r, hr, hgo⟩
    by_cases hid : task.session = s.id
    · obtain rfl : s = r := Option.some.inj (hstored.symm.trans (hid ▸ hr.2))
      exact ⟨task, s', (carries_replace hstored hs htasks).2 (.inl ⟨hid, rfl, hr⟩),
        (hfits hfree hr).2.2 hgo⟩
    · exact ⟨task, r, (carries_replace hstored hs htasks).2 (.inr ⟨hid, hr⟩), hgo⟩
  · rintro ⟨task, r, hr, hgo⟩
    rcases (carries_replace hstored hs htasks).1 hr with ⟨-, rfl, ho⟩ | ⟨-, ho⟩
    · exact ⟨task, s, ho, (hfits hfree ho).2.1 hgo⟩
    · exact ⟨task, r, ho, hgo⟩

/-- A session is replaced by another form of itself, which does not hold up its task any more. -/
theorem Schedule.replace_wake (h : Schedule busy e) (hr : Registry e) {s s' : Session} {u : TaskId}
    {task : Task} (hu : e.Carries u task s) (hfree : Free busy u) (hsource : s'.source = s.source)
    (hs : ∀ id, e'.sessions.get? id = if id = s.id then some s' else e.sessions.get? id)
    (haround : e'.surroundings = e.surroundings) (htasks : e'.tasks = e.tasks)
    (hqueues : e'.queues = e.queues) (hactive : e'.active = e.active)
    (hbefore : ¬task.CanGoOn s) (hafter : task.CanGoOn s') (hfits : Fits e.surroundings task s')
    (hready : e'.ready = e.ready ++ [u]) : Schedule busy e' := by
  have hid : s.id = task.session := hr.keyed hu.2
  have hstored : e.sessions.get? s.id = some s := hid ▸ hu.2
  have hcarries : ∀ {t b r}, e'.Carries t b r ↔
      (b.session = s.id ∧ r = s' ∧ e.Carries t b s) ∨ (b.session ≠ s.id ∧ e.Carries t b r) :=
    carries_replace hstored hs htasks
  -- One task carries out a check, so no other task can go on because of the new form.
  have hunique : ∀ {t b}, e.Carries t b s → t = u ∧ b = task := fun ht => by
    obtain ⟨ht, hb, -⟩ := h.carries_unique ht hu ((hr.keyed ht.2).symm.trans hid)
    exact ⟨ht, hb⟩
  refine h.replace hstored hsource hs haround htasks hqueues hactive (fun _ ho => ?_) ?_
    fun {t} => ?_
  · exact (hunique ho).2 ▸ hfits
  · rw [hready]
    refine List.nodup_append.2 ⟨h.ready_nodup, List.nodup_singleton u, ?_⟩
    rintro a ha b hb rfl
    obtain rfl := List.mem_singleton.1 hb
    obtain ⟨-, b, r, hc, hgo⟩ := h.mem_ready.1 ha
    obtain ⟨rfl, rfl⟩ := hc.unique hu
    exact hbefore hgo
  · rw [hready, List.mem_append, List.mem_singleton, h.mem_ready]
    constructor
    · rintro (⟨hfree', b, r, hc, hgo⟩ | rfl)
      · refine ⟨hfree', b, r, hcarries.2 (.inr ⟨fun hb => ?_, hc⟩), hgo⟩
        obtain rfl : s = r := Option.some.inj (hstored.symm.trans (hb ▸ hc.2))
        exact hbefore ((hunique hc).2 ▸ hgo)
      · exact ⟨hfree, task, s', hcarries.2 (.inl ⟨hid.symm, rfl, hu⟩), hafter⟩
    · rintro ⟨hfree', b, r, hc, hgo⟩
      rcases hcarries.1 hc with ⟨-, rfl, ho⟩ | ⟨-, ho⟩
      · exact .inr (hunique ho).1
      · exact .inl ⟨hfree', b, r, ho, hgo⟩

/-- The busy task works on its session. -/
theorem Schedule.works {t : TaskId} {stage : Stage} {x y : Engine × Session}
    (h : Schedule (some (t, stage)) x.1) (hr : Registry x.1) {task : Task}
    (ht : x.1.Carries t task x.2) (hw : Works x y) :
    Schedule (some (t, stage)) y.1 ∧ y.1.Carries t task y.2 := by
  have hid : x.2.id = task.session := hr.keyed ht.2
  have hstored : x.1.sessions.get? x.2.id = some x.2 := hid ▸ ht.2
  refine ⟨?_, hw.kept.tasks ▸ ht.1, by rw [← hid, ← hw.same.id]; exact hw.get?_self hstored⟩
  refine h.replace_quiet hstored hw.same.source (hw.get?_eq hstored) hw.kept.surroundings
    hw.kept.tasks hw.kept.queues hw.kept.active hw.kept.ready fun hfree ho => ?_
  -- No other task carries out the same check.
  obtain ⟨rfl, -, -⟩ := h.carries_unique ho ht ((hr.keyed ho.2).symm.trans hid)
  simp at hfree

/-! ## Cancelling, starting and exiting -/

/-- The task that waits for the compiler of a session is found. -/
theorem Schedule.waitingTask?_eq (h : Schedule busy e) {u : TaskId} {task : Task}
    (hu : e.tasks.get? u = some task) (hstage : task.stage = .waiting) :
    e.waitingTask? task.session = some u := by
  have hsome : (e.tasks.entries.find? fun t =>
      t.2.session = task.session ∧ t.2.stage = .waiting).isSome := by
    refine List.find?_isSome.2 ⟨(u, task), Table.mem_entries_of_get? hu, ?_⟩
    simp [hstage]
  obtain ⟨⟨v, b⟩, hv⟩ := Option.isSome_iff_exists.1 hsome
  have hmem := (Table.mem_entries_iff h.keys_nodup).1 (List.mem_of_find?_eq_some hv)
  have hsession : b.session = task.session := by
    have := List.find?_some hv
    simp only [decide_eq_true_eq] at this
    exact this.1
  rw [waitingTask?, hv, Option.map_some, h.alone hmem hu hsession]

/-- Cancelling a session replaces it, and no other session. -/
theorem cancelSession_sessions {id : Int} {s : Session} (hs : e.sessions.get? id = some s)
    (r : Int) : (e.cancelSession id).sessions.get? r =
      if r = s.id then some s.cancel else e.sessions.get? r := by
  have hput : (e.putSession s.cancel).sessions.get? r =
      if r = s.id then some s.cancel else e.sessions.get? r := Table.get?_put _ _ _ _
  rw [cancelSession, hs]
  dsimp only
  split
  · rw [wake]
    split <;> exact hput
  · exact hput

end Engine

/-- Stopping concerns no process that has exited. -/
theorem Session.Rests.cancel_process {s : Session} (h : s.Rests) :
    s.cancel.process = s.process := by
  cases hp : s.process with
  | none => simp [Session.cancel, hp]
  | some p =>
    have := h p hp
    cases hstatus : p.status with
    | none => simp [CompilerProcess.isRunning, hstatus] at this
    | some status => simp [Session.cancel, hp, CompilerProcess.stop, hstatus]

/-- No process is running where a task has ended. -/
theorem Left.rests {around : Engine.Surroundings} {b : Behaviour} {outcome : Outcome} {s : Session}
    (h : Left around b (.ends outcome) s) : s.Rests := by
  cases h with
  | finished _ hr | unseen _ _ hr | null _ _ hr | untold _ _ hr => exact hr
  | unwritable _ _ _ hp | uncallable _ _ hp | rejected _ _ hp => simp [Session.Rests, hp]

/-- A session that is told to stop is left by its turn as before. -/
theorem Left.cancel {around : Engine.Surroundings} {b : Behaviour} {outcome : Outcome} {s : Session}
    (h : Left around b (.ends outcome) s) : Left around b (.ends outcome) s.cancel := by
  have hp := h.rests.cancel_process
  have hr : s.cancel.Rests := by
    rw [Session.Rests, hp]
    exact h.rests
  cases h with
  | finished hf => exact .finished hf hr
  | unwritable ht he hs hn => exact .unwritable (s := s.cancel) ht he hs (hp.trans hn)
  | uncallable hd hs hn => exact .uncallable hd hs (hp.trans hn)
  | rejected hb hs hn => exact .rejected hb hs (hp.trans hn)
  | unseen hl hs => exact .unseen (s := s.cancel) hl hs hr
  | null hl hs => exact .null (s := s.cancel) hl hs hr
  | untold hf hs => exact .untold (s := s.cancel) hf hs hr

/-- A session that is told to stop fits its task as before. -/
theorem Fits.cancel {around : Engine.Surroundings} {task : Task} {s : Session}
    (h : Fits around task s) : Fits around task s.cancel := by
  cases h with
  | queued ht hh hs hp => exact .queued ht hh hs (by simp [Session.cancel, hp])
  | starting ht hh hs hp => exact .starting ht hh hs (by simp [Session.cancel, hp])
  | waiting ht hh hs hp => exact .waiting ht hh hs (by simp [Session.cancel, hp]; rfl)
  | ended ht hh hl => exact .ended ht hh hl.cancel

/-- What a task that has ended left of its session. -/
theorem Fits.left_of_ended {around : Engine.Surroundings} {task : Task} {s : Session}
    (h : Fits around task s) (hended : task.stage.isEnded) :
    ∃ outcome, task.stage = .ended outcome ∧ Left around task.behaviour (.ends outcome) s := by
  cases h with
  | queued hstage => rcases hstage with hstage | hstage <;> simp [hstage, Stage.isEnded] at hended
  | starting hstage | waiting hstage => simp [hstage, Stage.isEnded] at hended
  | ended hstage _ hleft => exact ⟨_, hstage, hleft⟩

/-- The task of a session whose process is running waits for it. -/
theorem Fits.stage_of_running {around : Engine.Surroundings} {task : Task} {s : Session}
    (h : Fits around task s) (hs : ¬s.Rests) : task.stage = .waiting := by
  cases h with
  | queued _ _ _ hp => simp [Session.Rests, hp] at hs
  | starting _ _ _ hp => simp [Session.Rests, hp] at hs
  | waiting ht => exact ht
  | ended _ _ hl => exact absurd hl.rests hs

/-- A process runs in one phase only. -/
theorem Fits.phase_of_running {around : Engine.Surroundings} {task : Task} {s : Session}
    (h : Fits around task s) {p : CompilerProcess} (hp : s.process = some p) (hrun : p.isRunning) :
    s.phase = .running := by
  cases h with
  | queued _ _ _ hnone | starting _ _ _ hnone => simp [hp] at hnone
  | waiting _ _ hphase => exact hphase
  | ended _ _ hl => exact absurd hl.rests (Session.not_rests.2 ⟨p, hp, hrun⟩)

namespace Engine

variable {busy : Option (TaskId × Stage)} {e e' : Engine}

/-- The schedule is kept when a session is told to stop that is not in the middle of a turn. -/
theorem Schedule.cancelSession (h : Schedule busy e) (hr : Registry e) {id : Int}
    (hfree : ∀ {t task}, e.tasks.get? t = some task → task.session = id → Free busy t) :
    Schedule busy (e.cancelSession id) := by
  cases hs : e.sessions.get? id with
  | none => simpa [Engine.cancelSession, hs] using h
  | some s =>
    have hget := cancelSession_sessions hs
    obtain ⟨u, task, hu, rfl⟩ := h.carried hs
    have hcarries : e.Carries u task s := ⟨hu, hs⟩
    have hfree := hfree hu rfl
    have hfits := h.fits hfree hcarries
    rw [Engine.cancelSession, hs] at hget ⊢
    dsimp only at hget ⊢
    split
    · -- The process was running and has exited, so the task that waits for it can go on.
      rename_i hcond
      rw [if_pos hcond] at hget
      have hrun : ¬s.Rests := Session.not_rests.2 ((Option.any_eq_true _ _).1 hcond.1)
      have hstage := hfits.stage_of_running hrun
      have hwaiting : (e.putSession s.cancel).waitingTask? task.session = some u :=
        h.waitingTask?_eq hu hstage
      have hwake : (e.putSession s.cancel).wake task.session =
          (e.putSession s.cancel).enqueue u := by
        rw [wake, hwaiting]
      rw [hwake] at hget ⊢
      refine h.replace_wake hr hcarries hfree (show s.cancel.source = s.source from rfl) hget
        rfl rfl rfl rfl ?_ ?_ hfits.cancel rfl
      · rwa [Task.canGoOn_waiting hstage]
      · rw [Task.canGoOn_waiting hstage]
        intro p hp
        simpa using (Option.all_eq_true _ _).1 hcond.2 p hp
    · rename_i hcond
      rw [if_neg hcond] at hget
      have hstored : e.sessions.get? s.id = some s := hr.stored hs
      refine h.replace_quiet hstored (show s.cancel.source = s.source from rfl) hget
        rfl rfl rfl rfl rfl fun hfree' ho =>
          ⟨(h.fits hfree' ho).cancel, Task.canGoOn_congr ⟨fun hrests => ?_, fun hrests => ?_⟩⟩
      · by_contra hrun
        obtain ⟨p, hp, hrun⟩ := Session.not_rests.1 hrun
        refine hcond ⟨by simp [hp, hrun], (Option.all_eq_true _ _).2 fun q hq => ?_⟩
        simp [hrests q hq]
      · rw [Session.Rests, hrests.cancel_process]
        exact hrests

end Engine

end LiveCheck
