import LiveCheck.Proofs.Check.Order

/-!
# Taking turns comes to an end

Every turn brings its task closer to its end (`Stage.left`), and a turn that comes to another task
is not a step back for it, so the turns that are left to all tasks together (`work`) become fewer
with every turn (`work_turn`). The fuel of `drain` is enough for all of them: after it, no task can
go on (`ready_drain`), and this is how every state of a run is (`Run.ready`).
-/

namespace LiveCheck

/-- How many turns are left to a task at most. -/
def Stage.left : Stage → Nat
  | created => 4
  | queued | admitted => 3
  | starting => 2
  | waiting => 1
  | ended _ => 0

theorem Stage.left_le (stage : Stage) : stage.left ≤ 4 := by
  cases stage <;> simp [left]

/-- How many turns a turn leaves to its task at most. -/
def Progress.left : Progress → Nat
  | waits stage => stage.left
  | ends _ => 0

/-- A turn of a task that has its source leaves it two more at most. -/
theorem Left.left_le {around : Engine.Surroundings} {b : Behaviour} {progress : Progress}
    {s : Session} (h : Left around b progress s) : progress.left ≤ 2 := by
  cases h <;> simp [Progress.left, Stage.left]

/-- A task that can go on has a turn left. -/
theorem Task.CanGoOn.left_pos {task : Task} {s : Session} (h : task.CanGoOn s) :
    0 < task.stage.left := by
  rw [Task.CanGoOn] at h
  split at h <;> simp_all [Stage.left]

namespace Engine

variable {busy : Option (TaskId × Stage)} {e e' : Engine}

/-- How many turns are left to all tasks at most. -/
def work (e : Engine) : Nat := (e.tasks.values.map fun task => task.stage.left).sum

/-- All tasks together have four turns each at most. -/
theorem work_le (e : Engine) : e.work ≤ 4 * e.tasks.entries.length := by
  rw [work, Table.values]
  generalize e.tasks.entries = entries
  induction entries with
  | nil => simp
  | cons entry rest ih =>
    have := entry.2.stage.left_le
    simp only [List.map_cons, List.sum_cons, List.length_cons]
    omega

/-- As long as a task can go on, there is work. -/
theorem work_pos {t : TaskId} {task : Task} {s : Session} (h : e.Carries t task s)
    (hgo : task.CanGoOn s) : 0 < e.work := by
  have hmem : task ∈ e.tasks.values :=
    List.mem_map.2 ⟨(t, task), Table.mem_entries_of_get? h.1, rfl⟩
  exact List.sum_pos_iff_exists_pos_nat.2 ⟨_, List.mem_map_of_mem hmem, hgo.left_pos⟩

/-! ## What a turn leaves -/

theorem endTurn_left (r : Engine × Except TaskFault Unit) : (endTurn r).2.left = 0 := by
  obtain ⟨e, result⟩ := r
  cases result <;> rfl

theorem afterExit_left (e : Engine) (s : Session) (status : Int) :
    (e.afterExit s status).2.left = 0 := by
  rw [afterExit]
  split
  · split
    · rfl
    · exact endTurn_left _
  split
  · rfl
  · exact endTurn_left _
  · split
    · rfl
    · exact endTurn_left _

/-- After the compiler has been started, one turn is left at most. -/
theorem launch_left (e : Engine) (task : Task) (s : Session) : (e.launch task s).2.left ≤ 1 := by
  rw [launch]
  dsimp only
  split
  · exact Nat.zero_le 1
  · rw [endTurn_left]
    exact Nat.zero_le 1
  split
  · exact Nat.zero_le 1
  split
  · exact Nat.le_refl 1
  split
  · rw [collect, afterExit_left]
    exact Nat.zero_le 1
  split
  · exact Nat.le_refl 1
  · rw [collect, afterExit_left]
    exact Nat.zero_le 1

/-- A turn brings its task closer to its end. -/
theorem turn_left_lt {task : Task} {s : Session} (hfits : Fits e.surroundings task s)
    (hgo : task.CanGoOn s) (hplain : s.listing.Plain) (t : TaskId) :
    (e.turn t task s).2.left < task.stage.left := by
  have hreach := turn_reaches hfits hgo hplain t
  rw [turn] at hreach ⊢
  -- Each stage has more turns left than those that a turn can lead to from it.
  cases hfits with
  | queued hstage =>
    rcases hstage with hstage | hstage
    · simp [Task.CanGoOn, hstage] at hgo
    · rw [hstage] at hreach ⊢
      obtain ⟨s', -, hleft⟩ := hreach
      exact Nat.lt_succ_of_le hleft.left_le
  | starting hstage =>
    rw [hstage]
    exact Nat.lt_succ_of_le (launch_left _ _ _)
  | @waiting p hstage _ hphase hprocess =>
    have hrests := (Task.canGoOn_waiting hstage).1 hgo
    rw [hstage, hprocess]
    dsimp only
    cases hstatus : p.status with
    | none => simpa [CompilerProcess.isRunning, hstatus] using hrests p hprocess
    | some status =>
      refine Nat.lt_of_le_of_lt (Nat.le_of_eq ?_) Nat.one_pos
      exact afterExit_left _ _ _
  | ended hstage => simp [Task.CanGoOn, hstage] at hgo

/-! ## The work of all tasks -/

/-- Writing down the stage of a task. -/
theorem work_modify (hkeys : e.tasks.keys.Nodup) {t : TaskId} {task : Task}
    (ht : e.tasks.get? t = some task) {f : Task → Task} (htasks : e'.tasks = e.tasks.modify t f) :
    e'.work + task.stage.left = e.work + (f task).stage.left := by
  rw [work, htasks]
  exact Table.sum_modify hkeys ht f _

/-- When the turn of a task comes, as many turns as before are left to it. -/
theorem work_leaveQueue {t : TaskId} (h : Schedule (some (t, .admitted)) e) {task : Task}
    {s : Session} (ht : e.Carries t task s) : (e.leaveQueue t s.source).work = e.work := by
  obtain ⟨rest, hqueue⟩ := h.queueOf_eq ht
  rw [leaveQueue]
  simp only [hqueue, List.erase_cons_head, List.head?_cons, if_true]
  cases rest with
  | nil => rfl
  | cons next rest =>
    -- The next task goes from one stage to another from which as many turns are left.
    have hmem : next ∈ e.queueOf s.source := hqueue ▸ List.mem_cons_of_mem t List.mem_cons_self
    obtain ⟨a, r, ha, -⟩ := h.queue_owned hmem
    have hqueued := (h.queued_behind hqueue List.mem_cons_self ha).2.2
    let e' : Engine := enqueue { e with
      queues := e.queues.put s.source (next :: rest)
      tasks := e.tasks.modify next fun task => { task with stage := .admitted } } next
    have htasks : e'.tasks = e.tasks.modify next fun task => { task with stage := .admitted } := rfl
    have hmodify := work_modify h.keys_nodup ha.1 htasks
    rw [hqueued] at hmodify
    exact Nat.add_right_cancel hmodify

/-- A task that is settled leaves its own turns behind. -/
theorem work_settle {t : TaskId} (h : Schedule (some (t, .admitted)) e) {task : Task} {s : Session}
    (ht : e.Carries t task s) {progress : Progress} (haborted : progress ≠ .ends .aborted) :
    (e.settle t s progress).work + task.stage.left = e.work + progress.left := by
  cases progress with
  | waits stage => exact work_modify h.keys_nodup ht.1 (f := (·.wait stage)) rfl
  | ends outcome =>
    obtain ⟨hended, ht'⟩ := h.ended ht outcome
    rw [settle_ends_eq e t s fun ho => haborted (ho ▸ rfl), retire_eq]
    have hleave := work_leaveQueue hended ht'
    have htasks : (e.ended t outcome).tasks =
        e.tasks.modify t fun task => { task with stage := .ended outcome } := rfl
    exact hleave ▸ work_modify h.keys_nodup ht.1 htasks

/-- With every turn, the work becomes less. -/
theorem work_turn (h : InOrder none e) {t : TaskId} {earlier later : List TaskId}
    (hready : e.ready = earlier ++ t :: later) :
    ({ e with ready := earlier ++ later }.resume t).work < e.work := by
  obtain ⟨task, s, ht, hgo, hfits, hbusy⟩ := h.schedule.take hready
  let e₁ : Engine := { e with ready := earlier ++ later }
  have hr : Registry e₁ := h.registry.congr rfl rfl rfl
  have ht' : e₁.Carries t task s := ht
  have hplain := hr.plain ht'.2
  have hlt := turn_left_lt (e := e₁) hfits hgo hplain t
  obtain ⟨s', hworks, hleft⟩ := turn_reaches (e := e₁) hfits hgo hplain t
  obtain ⟨hbusy', ht''⟩ := hbusy.works hr ht' hworks
  -- The work of the others does not change, so all comes down to the one task.
  have hsettle := work_settle hbusy' ht'' hleft.ne_aborted
  rw [settle_congr _ _ hworks.same] at hsettle
  have hwork : (e₁.turn t task s).1.work = e.work := by
    rw [work, hworks.kept.tasks]
    rfl
  change (e₁.resume t).work < e.work
  rw [resume_eq ht']
  dsimp only at hsettle
  omega

/-! ## Draining -/

/-- With fuel for all the turns that are left, no task can go on in the end. -/
theorem ready_drainFuel (h : InOrder none e) {fuel : Nat} (hfuel : e.work ≤ fuel) :
    (drainFuel fuel e).ready = [] := by
  induction fuel generalizing e with
  | zero =>
    -- No work is left, and a task that can go on would have some.
    refine List.eq_nil_iff_forall_not_mem.2 fun t ht => ?_
    obtain ⟨-, task, s, hcarries, hgo⟩ := h.schedule.mem_ready.1 ht
    have := work_pos hcarries hgo
    omega
  | succ fuel ih =>
    rw [drainFuel]
    split
    · assumption
    · rename_i t rest hready
      have hready : e.ready = [] ++ t :: rest := hready
      have hlt := work_turn h hready
      exact ih (h.turn hready) (Nat.le_of_lt_succ (Nat.lt_of_lt_of_le hlt hfuel))

/-- After draining, no task can go on. -/
theorem ready_drain (h : InOrder none e) : e.drain.ready = [] :=
  ready_drainFuel h e.work_le

/-- Between the things that happen in a run, no task can go on. -/
theorem Run.ready (h : Run e) : e.ready = [] := by
  -- Every call ends with all tasks taking their turns, unless it did nothing.
  induction h with
  | create hcreate =>
    obtain ⟨compiler, log, rfl⟩ := create_eq hcreate
    rfl
  | @check e path text receiver behaviour hrun ih =>
    have h := hrun.reachable.inOrder
    rw [Engine.check]
    split
    · rename_i hnew
      rcases newSession_error hnew with rfl | rfl
      · exact ih
      · exact ih
    · rename_i hnew
      exact ready_drain (h.beginCheck hnew behaviour)
  | @allowStart e id hrun ih =>
    unfold Engine.allowStart followUp
    split
    · exact ready_drain (hrun.reachable.inOrder.openStart ‹_›)
    · exact ih
  | @allowExit e id status hrun ih =>
    unfold Engine.allowExit followUp
    split
    · exact ready_drain (hrun.reachable.inOrder.endProcess ‹_›)
    · exact ih
  | @cancel e e' path hrun hcancel ih =>
    obtain ⟨source, rfl⟩ := cancel_eq hcancel
    exact ready_drain (hrun.reachable.inOrder.cancelActive source)
  | shutdown hrun ih => exact ready_drain hrun.reachable.inOrder.cancelAll

end Engine

end LiveCheck
