import LiveCheck.Proofs.Check.Containment

/-!
# The record of tasks that have ended

The tasks that have ended are on record in the order in which they did, each of them once (`Tally`).
A step adds tasks to this record and takes none from it, and it leaves a task that has ended as it
is (`Rolls`), since what takes a turn has not ended, and neither has what comes next in a queue.
-/

namespace LiveCheck.Engine

variable {e e' : Engine} {t : TaskId} {task : Task} {s : Session}

/-- The task has ended. -/
def HasEnded (e : Engine) (t : TaskId) : Prop :=
  ∃ task, e.tasks.get? t = some task ∧ task.stage.isEnded

/-- The tasks that have ended are on record, each of them once. -/
structure Tally (e : Engine) : Prop where
  nodup : e.finished.Nodup
  mem : ∀ {t}, t ∈ e.finished ↔ e.HasEnded t

/-- Tasks that have ended are added to the record, and stay as they were. -/
structure Rolls (e e' : Engine) : Prop where
  grown : ∃ ended, e'.finished = e.finished ++ ended
  kept : KeepsEnded e e'

theorem Rolls.of_eq (hfinished : e'.finished = e.finished) (htasks : e'.tasks = e.tasks) :
    Rolls e e' := ⟨⟨[], by rw [hfinished, List.append_nil]⟩, .of_eq htasks⟩

theorem Rolls.refl (e : Engine) : Rolls e e := .of_eq rfl rfl

theorem Rolls.trans {e'' : Engine} (h : Rolls e e') (h' : Rolls e' e'') : Rolls e e'' where
  grown := by
    obtain ⟨ended, h⟩ := h.grown
    obtain ⟨ended', h'⟩ := h'.grown
    exact ⟨ended ++ ended', by rw [h', h, List.append_assoc]⟩
  kept := h.kept.trans h'.kept

/-- The tally is kept if neither the record nor the tasks change. -/
theorem Tally.congr (h : Tally e) (hfinished : e'.finished = e.finished)
    (htasks : e'.tasks = e.tasks) : Tally e' :=
  ⟨hfinished ▸ h.nodup, fun {t} => by rw [hfinished, HasEnded, htasks]; exact h.mem⟩

/-- A task that has not ended is written down anew, and has not ended then either. -/
theorem Tally.rewrite (h : Tally e) (t : TaskId) (task' : Task) (ht : ∀ a, e.tasks.get? t = some a →
      a.stage.isEnded = false) (ht' : task'.stage.isEnded = false)
    (htasks : ∀ u, e'.tasks.get? u = if u = t then some task' else e.tasks.get? u)
    (hfinished : e'.finished = e.finished) : Tally e' ∧ Rolls e e' := by
  refine ⟨⟨hfinished ▸ h.nodup, fun {u} => ?_⟩, ⟨⟨[], by rw [hfinished, List.append_nil]⟩,
    fun u a hu hended => ?_⟩⟩
  · rw [hfinished, h.mem, HasEnded, HasEnded, htasks]
    split
    · refine iff_of_false ?_ (by simp [ht'])
      rintro ⟨a, ha, hended⟩
      simp [ht a (‹u = t› ▸ ha)] at hended
    · exact Iff.rfl
  · rw [htasks, if_neg, hu]
    rintro rfl
    simp [ht a hu] at hended

/-! ## Turns -/

/-- An act does not touch the record of tasks that have ended. -/
theorem Act.finished {x y : Engine × Session} (h : Act x y) : y.1.finished = x.1.finished := by
  cases h with
  | @emit e s b node =>
    obtain ⟨disk, hd, -⟩ := e.emit_eq s b node
    rw [hd]
  | @report e s next diagnostics =>
    obtain ⟨deliveries, log, hd⟩ := (e.moved s next).deliver_eq (s.to next) diagnostics
    rw [hd]
    rfl
  | _ => rfl

theorem Works.finished {x y : Engine × Session} (h : Works x y) : y.1.finished = x.1.finished :=
  h.preserves (P := fun z => z.1.finished = x.1.finished)
    (fun _ _ ha hf => ha.finished.trans hf) rfl

/-- The busy task goes on waiting. -/
theorem Tally.settle_waits (h : Tally e) (ht : e.tasks.get? t = some task)
    (hstage : task.stage.isEnded = false) (s : Session) {stage : Stage}
    (hwaits : stage.isEnded = false) :
    Tally (e.settle t s (.waits stage)) ∧ Rolls e (e.settle t s (.waits stage)) := by
  refine h.rewrite t (task.wait stage) (fun a ha => ?_) hwaits (fun u => ?_) rfl
  · obtain rfl := Option.some.inj (ht.symm.trans ha)
    exact hstage
  · rw [settle, Table.get?_modify, ht, Option.map_some]

/-- The busy task leaves its queue, and the turn of the next one comes. -/
theorem Tally.leaveQueue (h : Tally e) (hs : Schedule (some (t, .admitted)) e)
    (ht : e.Carries t task s) :
    Tally (e.leaveQueue t s.source) ∧ Rolls e (e.leaveQueue t s.source) := by
  obtain ⟨rest, hqueue⟩ := hs.queueOf_eq ht
  rw [Engine.leaveQueue]
  simp only [hqueue, List.erase_cons_head, List.head?_cons, if_true]
  cases rest with
  | nil => exact ⟨h.congr rfl rfl, .of_eq rfl rfl⟩
  | cons next rest =>
    have hmem : next ∈ e.queueOf s.source := hqueue ▸ List.mem_cons_of_mem t List.mem_cons_self
    obtain ⟨a, r, ha, -⟩ := hs.queue_owned hmem
    have hqueued := (hs.queued_behind hqueue List.mem_cons_self ha).2.2
    refine h.rewrite next { a with stage := .admitted } (fun b hb => ?_) rfl (fun u => ?_) rfl
    · obtain rfl := Option.some.inj (ha.1.symm.trans hb)
      rw [hqueued]
      rfl
    · simp only [enqueue, Table.get?_modify, ha.1, Option.map_some]

/-- The busy task ends. -/
theorem Tally.settle_ends (h : Tally e) (hs : Schedule (some (t, .admitted)) e)
    (ht : e.Carries t task s) (hstage : task.stage.isEnded = false) {outcome : Outcome}
    (haborted : outcome ≠ .aborted) :
    Tally (e.settle t s (.ends outcome)) ∧ Rolls e (e.settle t s (.ends outcome)) := by
  obtain ⟨hended, ht'⟩ := hs.ended ht outcome
  have hnot : ¬e.HasEnded t := by
    rintro ⟨a, ha, hended⟩
    obtain rfl := Option.some.inj (ht.1.symm.trans ha)
    simp [hstage] at hended
  have hget : ∀ u, (e.ended t outcome).tasks.get? u =
      if u = t then some { task with stage := .ended outcome } else e.tasks.get? u := fun u => by
    rw [Engine.ended, Table.get?_modify, ht.1, Option.map_some]
  have htally : Tally (e.ended t outcome) := by
    refine ⟨List.nodup_append.2 ⟨h.nodup, List.nodup_singleton t, ?_⟩, fun {u} => ?_⟩
    · rintro u hu v hv rfl
      exact hnot (h.mem.1 (List.mem_singleton.1 hv ▸ hu))
    · change u ∈ e.finished ++ [t] ↔ _
      rw [List.mem_append, List.mem_singleton, h.mem, HasEnded, HasEnded, hget]
      split
      · rename_i hut
        exact iff_of_true (.inr hut) ⟨_, rfl, rfl⟩
      · simp [*]
  have hrolls : Rolls e (e.ended t outcome) := by
    refine ⟨⟨[t], rfl⟩, fun u a hu hover => ?_⟩
    rw [hget, if_neg, hu]
    rintro rfl
    exact hnot ⟨a, hu, hover⟩
  obtain ⟨htally', hrolls'⟩ := htally.leaveQueue hended ht'
  rw [settle_ends_eq e t s haborted, retire_eq]
  exact ⟨htally'.congr rfl rfl, (hrolls.trans hrolls').trans (.of_eq rfl rfl)⟩

/-- A turn of a task that has its source to itself. -/
theorem Tally.reaches (h : Tally e) (ho : InOrder (some (t, .admitted)) e)
    (ht : e.Carries t task s) (hstage : task.stage.isEnded = false) {r : Engine × Progress}
    (hreach : Reaches e task.behaviour s r) :
    Tally (r.1.settle t s r.2) ∧ Rolls e (r.1.settle t s r.2) := by
  obtain ⟨s', hworks, hleft⟩ := hreach
  obtain ⟨hs, ht'⟩ := ho.schedule.works ho.registry ht hworks
  obtain ⟨e', progress⟩ := r
  have hfinished : e'.finished = e.finished := hworks.finished
  have htasks : e'.tasks = e.tasks := hworks.kept.tasks
  have htally : Tally e' := h.congr hfinished htasks
  dsimp only at hleft hs ht' ⊢
  rw [← settle_congr e' t hworks.same]
  cases progress with
  | waits stage =>
    have hwaits : stage.isEnded = false := by cases hleft <;> rfl
    obtain ⟨htally', hrolls⟩ := htally.settle_waits ht'.1 hstage s' hwaits
    exact ⟨htally', (Rolls.of_eq hfinished htasks).trans hrolls⟩
  | ends outcome =>
    have haborted : outcome ≠ .aborted := fun hend => hleft.ne_aborted (congrArg _ hend)
    obtain ⟨htally', hrolls⟩ := htally.settle_ends hs ht' hstage haborted
    exact ⟨htally', (Rolls.of_eq hfinished htasks).trans hrolls⟩

theorem overtake_finished (e : Engine) (s : Session) : (e.overtake s).finished = e.finished := by
  obtain ⟨sessions, active, ready, log, heq⟩ := e.overtake_eq s
  rw [heq]

/-- The first turn of a task. -/
theorem Tally.enter (h : Tally e) (ho : InOrder (some (t, .created)) e) (ht : e.Carries t task s)
    (hstage : task.stage = .created) (hphase : s.phase = .idle) (hprocess : s.process = none) :
    Tally ((e.enter t task s).1.settle t s (e.enter t task s).2) ∧
      Rolls e ((e.enter t task s).1.settle t s (e.enter t task s).2) := by
  obtain ⟨hover, ht'⟩ := ho.overtake ht
  have hjoin := hover.schedule.join ht'
  have hr := hover.registry
  have htally : Tally (e.overtake s) := h.congr (e.overtake_finished s) (e.overtake_tasks s)
  have hrolls : Rolls e (e.overtake s) := .of_eq (e.overtake_finished s) (e.overtake_tasks s)
  unfold Engine.enter
  dsimp only
  generalize e.overtake s = e₁ at *
  let e₂ : Engine := { e₁ with queues := e₁.queues.put s.source (e₁.queueOf s.source ++ [t]) }
  have htally₂ : Tally e₂ := htally.congr rfl rfl
  have hrolls₂ : Rolls e e₂ := hrolls.trans (.of_eq rfl rfl)
  split
  · rename_i hempty
    rw [if_pos hempty] at hjoin
    have horder : InOrder (some (t, .admitted)) e₂ := ⟨hr.congr rfl rfl rfl, hjoin⟩
    have ht₂ : e₂.Carries t task s := ht'
    obtain ⟨htally', hrolls'⟩ := htally₂.reaches horder ht₂ (by rw [hstage]; rfl)
      (proceed_reaches task hphase hprocess (hr.plain ht'.2))
    exact ⟨htally', hrolls₂.trans hrolls'⟩
  · obtain ⟨htally', hrolls'⟩ := htally₂.settle_waits ht'.1 (by rw [hstage]; rfl) s
      (rfl : Stage.queued.isEnded = false)
    exact ⟨htally', hrolls₂.trans hrolls'⟩

/-! ## Steps -/

/-- Nothing has ended in a new engine. -/
theorem Tally.create {disk : Disk} {searchPath : List Text} {settings : Settings}
    (h : Engine.create disk searchPath settings = .ok e) : Tally e := by
  obtain ⟨compiler, log, rfl⟩ := create_eq h
  exact ⟨List.nodup_nil, by simp [HasEnded]⟩

/-- When a check begins, what has ended stays on record, each task once. -/
theorem Tally.beginCheck (h : Tally e) (ho : InOrder none e) {path : Text}
    {text : Option JsonString} {receiver : Receiver}
    (hnew : e.newSession path text receiver = (e', .ok s)) (behaviour : Behaviour) :
    Tally (e'.beginCheck s.id behaviour).1 ∧ Rolls e (e'.beginCheck s.id behaviour).1 := by
  obtain ⟨horder, ht⟩ := ho.enrol hnew behaviour
  have hs := (newSession_ok hnew).1
  obtain ⟨-, -, rfl⟩ := newSession_ok hnew
  let task : Task := { session := s.id, behaviour }
  have hnone := ho.schedule.not_enrolled e.tasks.length_keys.symm
  let e₁ : Engine := Engine.putTask { e with
    nextId := e.nextId + 1
    sessions := e.sessions.put s.id s
    latest := e.latest.put s.source s.id } e.tasks.entries.length task
  have hput : ∀ u, e₁.tasks.get? u = if u = e.tasks.entries.length then some task
      else e.tasks.get? u := fun u => Table.get?_put _ _ _ _
  obtain ⟨htally, hrolls⟩ := h.rewrite e.tasks.entries.length task
    (fun a ha => absurd (hnone.symm.trans ha) (Option.some_ne_none a).symm) rfl hput rfl
  obtain ⟨htally', hrolls'⟩ := htally.enter horder ht rfl hs.phase hs.process
  rw [Engine.beginCheck, resume_eq ht]
  exact ⟨htally', hrolls.trans hrolls'⟩

/-- A task whose start is let through has not ended. -/
theorem Tally.openStart (h : Tally e) (ho : InOrder none e) {id : Int}
    (hopen : e.openStart id = some e') : Tally e' ∧ Rolls e e' := by
  obtain ⟨u, a, hu, -, hstart, rfl⟩ := openStart_eq_some ho.schedule.keys_nodup hopen
  obtain ⟨r, hr⟩ := ho.schedule.owned hu
  obtain ⟨hstage, -, -⟩ := (ho.schedule.fits (free_none u) ⟨hu, hr⟩).starting_of_held hstart
  refine h.rewrite u { a with startHeld := some false } (fun b hb => ?_) ?_
    (fun v => Table.get?_put _ _ _ _) rfl
  · obtain rfl := Option.some.inj (hu.symm.trans hb)
    rw [hstage]
    rfl
  · simp only [hstage]
    rfl

/-- A task that takes its turn has not ended before. -/
theorem Tally.turn (h : Tally e) (ho : InOrder none e) {t : TaskId} {earlier later : List TaskId}
    (hready : e.ready = earlier ++ t :: later) :
    Tally ({ e with ready := earlier ++ later }.resume t) ∧
      Rolls e ({ e with ready := earlier ++ later }.resume t) := by
  obtain ⟨task, s, ht, hgo, hfits, hbusy⟩ := ho.schedule.take hready
  let e₁ : Engine := { e with ready := earlier ++ later }
  have ht₁ : e₁.Carries t task s := ht
  have htally : Tally e₁ := h.congr rfl rfl
  have horder : InOrder (some (t, .admitted)) e₁ := ⟨ho.registry.congr rfl rfl rfl, hbusy⟩
  have hstage : task.stage.isEnded = false := by
    by_contra hended
    obtain ⟨outcome, hstage, -⟩ := hfits.left_of_ended (by simpa using hended)
    simp [Task.CanGoOn, hstage] at hgo
  obtain ⟨htally', hrolls⟩ := htally.reaches horder ht₁ hstage
    (turn_reaches (e := e₁) hfits hgo (ho.registry.plain ht.2) t)
  have htake : Rolls e e₁ := .of_eq rfl rfl
  rw [resume_eq ht₁]
  exact ⟨htally', htake.trans hrolls⟩

/-- Every step keeps the record of the tasks that have ended, and adds to it. -/
theorem Tally.step (h : Tally e) (ho : InOrder none e) (hstep : Step e e') :
    Tally e' ∧ Rolls e e' := by
  have hsame : e'.finished = e.finished → e'.tasks = e.tasks → Tally e' ∧ Rolls e e' :=
    fun hfinished htasks => ⟨h.congr hfinished htasks, .of_eq hfinished htasks⟩
  cases hstep with
  | check behaviour hnew => exact h.beginCheck ho hnew behaviour
  | refuse hnew => rcases newSession_error hnew with rfl | rfl <;> exact hsame rfl rfl
  | start hopen => exact h.openStart ho hopen
  | @exit _ id status hend =>
    obtain ⟨r, p, -, hp, hrun, rfl⟩ := endProcess_eq_some hend
    obtain ⟨ready, hwake⟩ := (e.exitProcess r p status).1.wake_eq id
    have hworks := exitProcess_works (e := e) hp hrun status
    rw [hwake] at hsame ⊢
    exact hsame hworks.finished hworks.kept.tasks
  | cancel source =>
    obtain ⟨sessions, ready, heq⟩ := e.cancelActive_eq source
    exact hsame (by rw [heq]) (by rw [heq])
  | shutdown =>
    obtain ⟨sessions, ready, heq⟩ := e.cancelAll_eq
    exact hsame (by rw [heq]) (by rw [heq])
  | turn hready => exact h.turn ho hready

/-- In every reachable state, the tasks that have ended are on record, each of them once. -/
theorem Reachable.tally (h : Reachable e) : Tally e := by
  induction h with
  | create hcreate => exact .create hcreate
  | step h hstep ih => exact (ih.step h.inOrder hstep).1

/-- A step leaves tasks that have ended as they are. -/
theorem Step.keepsEnded (hstep : Step e e') (h : Reachable e) : KeepsEnded e e' :=
  (h.tally.step h.inOrder hstep).2.kept

end LiveCheck.Engine
