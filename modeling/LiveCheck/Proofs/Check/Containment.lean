import LiveCheck.Proofs.Check.Completion
import LiveCheck.Proofs.Check.History

/-!
# What can come out of a check

A call of `check` is refused, and then nothing has happened (`check_refused`), or a task carries out
the check of its session from then on (`Steps.carries`). Once the turn of the task has come and its
compiler has exited, the source is free for the next task, and the check has returned
(`Run.check_contained`). The faults of the compiler, the disk and the receiver do not get out of it.
There are three exceptions (`Contained`): the listing of an overtaken session cannot be deleted
under a path that holds a null character, the command of a session cannot be handed to the system,
and the receiver of a report cannot tell why it failed.
-/

namespace LiveCheck

/-- Has the turn of the task come? -/
def Stage.hadTurn : Stage → Bool
  | .created | .queued => false
  | .admitted | .starting | .waiting | .ended _ => true

/-- The task has the session that it had, and its compiler behaves as before. -/
structure Task.Same (task task' : Task) : Prop where
  session : task'.session = task.session
  behaviour : task'.behaviour = task.behaviour

/-- How a check is left whose text can be written, and whose listing can be looked at: it has
    returned, or it failed in one of three ways. -/
inductive Contained (b : Behaviour) (s : Session) : Outcome → Prop
  /-- It has returned. -/
  | returned : s.phase.isFinal → Contained b s .done
  /-- It was overtaken, and the path of its listing holds a null character. -/
  | null : '\x00' ∈ s.listing.text → s.phase = .superseded →
      Contained b s (.failed (.disk .nullCharacter))
  /-- It has reported, but its receiver failed and could not tell why. -/
  | untold {reason} : s.receiver.failure = some (.untold reason) →
      s.phase = .reported ∨ s.phase = .reportedEmpty → Contained b s (.failed (.receiver reason))
  /-- Its command could not be handed to the system. -/
  | rejected {reason} : b.failedStart = some (.rejected reason) → s.phase = .spawning →
      Contained b s (.failed (.start reason))

namespace Engine

variable {e e' : Engine} {t : TaskId}

/-! ## Tasks stay with their sessions -/

/-- Every task stays on record, with its session and its compiler. -/
def KeepsTasks (e e' : Engine) : Prop := ∀ t task, e.tasks.get? t = some task →
  ∃ task', e'.tasks.get? t = some task' ∧ task.Same task'

theorem KeepsTasks.of_eq (h : e'.tasks = e.tasks) : KeepsTasks e e' :=
  fun _ _ ht => ⟨_, h ▸ ht, rfl, rfl⟩

theorem KeepsTasks.trans {e'' : Engine} (h : KeepsTasks e e') (h' : KeepsTasks e' e'') :
    KeepsTasks e e'' := fun t _ ht => by
  obtain ⟨a, ha, hsame⟩ := h t _ ht
  obtain ⟨b, hb, hsame'⟩ := h' t a ha
  exact ⟨b, hb, hsame'.session.trans hsame.session, hsame'.behaviour.trans hsame.behaviour⟩

/-- A change that leaves a task its session and its compiler keeps all tasks. -/
theorem KeepsTasks.modify (u : TaskId) (f : Task → Task) (h : e'.tasks = e.tasks.modify u f)
    (hf : ∀ a : Task, a.Same (f a)) : KeepsTasks e e' := by
  intro t task ht
  rw [h]
  by_cases htu : t = u
  · subst htu
    exact ⟨f task, by rw [Table.get?_modify_self, ht, Option.map_some], hf task⟩
  · exact ⟨task, (Table.get?_modify_of_ne htu f).trans ht, rfl, rfl⟩

theorem leaveQueue_keepsTasks (e : Engine) (t : TaskId) (source : Path) :
    KeepsTasks e (e.leaveQueue t source) := by
  rw [leaveQueue]
  dsimp only
  split
  · split
    · exact .of_eq rfl
    · exact .modify _ (fun task => { task with stage := .admitted }) rfl fun _ => ⟨rfl, rfl⟩
  · exact .of_eq rfl

/-- A turn that ends in order keeps all tasks. -/
theorem settle_keepsTasks (e : Engine) (t : TaskId) (s : Session) {progress : Progress}
    (h : progress ≠ .ends .aborted) : KeepsTasks e (e.settle t s progress) := by
  cases progress with
  | waits stage => exact .modify t (·.wait stage) rfl fun _ => ⟨rfl, rfl⟩
  | ends outcome =>
    rw [settle_ends_eq e t s fun ho => h (ho ▸ rfl), retire_eq]
    have hended : KeepsTasks e (e.ended t outcome) :=
      .modify t (fun task => { task with stage := .ended outcome }) rfl fun _ => ⟨rfl, rfl⟩
    exact (hended.trans (leaveQueue_keepsTasks _ t s.source)).trans (.of_eq rfl)

/-- A turn concerns no session but that of its task. -/
theorem Reaches.keepsTasks {b : Behaviour} {s : Session} {r : Engine × Progress}
    (h : Reaches e b s r) (t : TaskId) : KeepsTasks e (r.1.settle t s r.2) := by
  obtain ⟨s', hworks, hleft⟩ := h
  exact KeepsTasks.trans (.of_eq hworks.kept.tasks) (settle_keepsTasks _ t s hleft.ne_aborted)

theorem overtake_tasks (e : Engine) (s : Session) : (e.overtake s).tasks = e.tasks := by
  obtain ⟨sessions, active, ready, log, heq⟩ := e.overtake_eq s
  rw [heq]

/-- The first turn of a task keeps all tasks. -/
theorem enter_keepsTasks {task : Task} {s : Session} (hphase : s.phase = .idle)
    (hprocess : s.process = none) (hplain : s.listing.Plain) :
    KeepsTasks e ((e.enter t task s).1.settle t s (e.enter t task s).2) := by
  have hover : KeepsTasks e (e.overtake s) := .of_eq (e.overtake_tasks s)
  unfold Engine.enter
  dsimp only
  generalize e.overtake s = e₁ at *
  let e₂ : Engine := { e₁ with queues := e₁.queues.put s.source (e₁.queueOf s.source ++ [t]) }
  have hjoin : KeepsTasks e e₂ := hover.trans (.of_eq rfl)
  split
  · exact hjoin.trans ((proceed_reaches (e := e₂) task hphase hprocess hplain).keepsTasks t)
  · exact hjoin.trans (settle_keepsTasks e₂ t s nofun)

/-- Beginning a check adds a task, and keeps those that there are. -/
theorem InOrder.beginCheck_keepsTasks (h : InOrder none e) {path : Text} {text : Option JsonString}
    {receiver : Receiver} {s : Session} (hnew : e.newSession path text receiver = (e', .ok s))
    (behaviour : Behaviour) : KeepsTasks e (e'.beginCheck s.id behaviour).1 := by
  obtain ⟨-, ht⟩ := h.enrol hnew behaviour
  obtain ⟨hs, -, heq⟩ := newSession_ok hnew
  have hput : KeepsTasks e (e'.putTask e.tasks.entries.length { session := s.id, behaviour }) := by
    intro u a hu
    refine ⟨a, ?_, rfl, rfl⟩
    rw [heq]
    refine (Table.get?_put_of_ne ?_ _).trans hu
    rintro rfl
    have hnone := h.schedule.not_enrolled e.tasks.length_keys.symm
    exact Option.some_ne_none _ (hu.symm.trans hnone)
  have hbegin : (e'.beginCheck s.id behaviour).1 =
      (e'.putTask e.tasks.entries.length { session := s.id, behaviour }).resume
        e.tasks.entries.length := by
    rw [Engine.beginCheck, heq]
  rw [hbegin, resume_eq ht]
  exact hput.trans (enter_keepsTasks hs.phase hs.process hs.plain)

/-- Every step keeps all tasks, with their sessions and their compilers. -/
theorem Step.keepsTasks (h : InOrder none e) (hstep : Step e e') : KeepsTasks e e' := by
  cases hstep with
  | check behaviour hnew => exact h.beginCheck_keepsTasks hnew behaviour
  | refuse hnew => rcases newSession_error hnew with rfl | rfl <;> exact .of_eq rfl
  | start hopen =>
    obtain ⟨u, a, hu, -, -, rfl⟩ := openStart_eq_some h.schedule.keys_nodup hopen
    intro t task ht
    simp only [Table.get?_put]
    split
    · obtain rfl := Option.some.inj (hu.symm.trans (‹t = u› ▸ ht))
      exact ⟨_, rfl, rfl, rfl⟩
    · exact ⟨task, ht, rfl, rfl⟩
  | @exit _ id status hend =>
    obtain ⟨s, p, -, hp, hrun, rfl⟩ := endProcess_eq_some hend
    obtain ⟨ready, hwake⟩ := (e.exitProcess s p status).1.wake_eq id
    rw [hwake]
    exact .of_eq (exitProcess_works hp hrun status).kept.tasks
  | cancel source =>
    obtain ⟨sessions, ready, heq⟩ := e.cancelActive_eq source
    exact .of_eq (by rw [heq])
  | shutdown =>
    obtain ⟨sessions, ready, heq⟩ := e.cancelAll_eq
    exact .of_eq (by rw [heq])
  | @turn t earlier later hready =>
    obtain ⟨task, s, ht, hgo, hfits, -⟩ := h.schedule.take hready
    let e₁ : Engine := { e with ready := earlier ++ later }
    have ht₁ : e₁.Carries t task s := ht
    have htake : KeepsTasks e e₁ := .of_eq rfl
    -- A turn writes its task down anew, with the same session.
    rw [resume_eq ht₁]
    exact htake.trans ((turn_reaches (e := e₁) hfits hgo (h.registry.plain ht.2) t).keepsTasks t)

/-- After its turn, a task carries out the check of what has become of its session. -/
theorem Reaches.carries {b : Behaviour} {task : Task} {s : Session} {r : Engine × Progress}
    (h : Reaches e b s r) (ht : e.Carries t task s) (hid : s.id = task.session) :
    ∃ task' s', (r.1.settle t s r.2).Carries t task' s' ∧ task.Same task' ∧ s.Same s' := by
  obtain ⟨task', ht', hsame⟩ := h.keepsTasks t t task ht.1
  obtain ⟨s', hworks, hleft⟩ := h
  have hself : r.1.sessions.get? s'.id = some s' := hworks.get?_self (hid ▸ ht.2)
  have hsettle : Rearranged r.1 (r.1.settle t s r.2) :=
    settle_rearranged r.1 t s hleft.ne_aborted
  refine ⟨task', s', ⟨ht', ?_⟩, hsame, hworks.same⟩
  rw [hsettle.sessions, hsame.session, ← hid, ← hworks.same.id, hself]

/-- After its first turn a task carries the same session as before. -/
theorem InOrder.enter_carries (h : InOrder (some (t, .created)) e) {task : Task} {s : Session}
    (ht : e.Carries t task s) (hphase : s.phase = .idle) (hprocess : s.process = none) :
    ∃ task' s', ((e.enter t task s).1.settle t s (e.enter t task s).2).Carries t task' s' ∧
      task.Same task' ∧ s.Same s' := by
  obtain ⟨hover, ht'⟩ := h.overtake ht
  have hid : s.id = task.session := hover.registry.keyed ht'.2
  have hplain := hover.registry.plain ht'.2
  unfold Engine.enter
  dsimp only
  generalize e.overtake s = e₁ at *
  let e₂ : Engine := { e₁ with queues := e₁.queues.put s.source (e₁.queueOf s.source ++ [t]) }
  have ht₂ : e₂.Carries t task s := ht'
  split
  · exact (proceed_reaches (e := e₂) task hphase hprocess hplain).carries ht₂ hid
  · have hkept : KeepsTasks e₂ (e₂.settle t s (.waits .queued)) := settle_keepsTasks e₂ t s nofun
    obtain ⟨task', ht₃, hsame⟩ := hkept t task ht₂.1
    exact ⟨task', s, ⟨ht₃, hsame.session ▸ ht₂.2⟩, hsame, .refl s⟩

/-- The task of a check that has begun carries out the check of its session. -/
theorem InOrder.beginCheck_carries (h : InOrder none e) {path : Text} {text : Option JsonString}
    {receiver : Receiver} {s : Session} (hnew : e.newSession path text receiver = (e', .ok s))
    (behaviour : Behaviour) : ∃ task r, (e'.beginCheck s.id behaviour).1.Carries
      (e'.beginCheck s.id behaviour).2 task r ∧ task.behaviour = behaviour ∧ s.Same r := by
  obtain ⟨horder, ht⟩ := h.enrol hnew behaviour
  obtain ⟨hs, -, heq⟩ := newSession_ok hnew
  have hbegin : e'.beginCheck s.id behaviour =
      ((e'.putTask e.tasks.entries.length { session := s.id, behaviour }).resume
        e.tasks.entries.length, e.tasks.entries.length) := by
    rw [Engine.beginCheck, heq]
  rw [hbegin, resume_eq ht]
  obtain ⟨task, r, ht', hsame, hsame'⟩ := horder.enter_carries ht hs.phase hs.process
  exact ⟨task, r, ht', hsame.behaviour, hsame'⟩

/-- A task carries out the check of its session for good. -/
theorem Steps.carries (h : Reachable e) (hsteps : Steps e e') {task : Task} {s : Session}
    (ht : e.Carries t task s) :
    ∃ task' s', e'.Carries t task' s' ∧ task.Same task' ∧ s.Later s' := by
  have hkept : KeepsTasks e e' := by
    clear ht
    induction hsteps with
    | refl => exact .of_eq rfl
    | tail hsteps hstep ih => exact KeepsTasks.trans ih (hstep.keepsTasks (h.steps hsteps).inOrder)
  obtain ⟨task', ht', hsame⟩ := hkept t task ht.1
  obtain ⟨s', hs', hl⟩ := Steps.later h hsteps ht.2
  exact ⟨task', s', ⟨ht', hsame.session.symm ▸ hs'⟩, hsame, hl⟩

/-! ## Checks -/

/-- A check that is refused uses up a number at most. -/
theorem check_refused {path : Text} {text : Option JsonString} {receiver : Receiver}
    {behaviour : Behaviour} {refusal : Refusal}
    (h : (e.check path text receiver behaviour).2 = .error refusal) :
    ∃ n, e.check path text receiver behaviour = ({ e with nextId := n }, .error refusal) := by
  rw [Engine.check] at h ⊢
  split
  · rename_i hnew
    rw [hnew] at h
    obtain rfl := Except.error.inj h
    rcases newSession_error hnew with rfl | rfl
    · exact ⟨_, rfl⟩
    · exact ⟨_, rfl⟩
  · rename_i hnew
    rw [hnew] at h
    cases h

/-- The task of a check carries out the check of the session that was made for it. -/
theorem Reachable.check_carries (h : Reachable e) {path : Text} {text : Option JsonString}
    {receiver : Receiver} {behaviour : Behaviour} {s : Session}
    (hcheck : (e.check path text receiver behaviour).2 = .ok (s, t)) :
    ∃ task r, (e.check path text receiver behaviour).1.Carries t task r ∧
      task.behaviour = behaviour ∧ r.id = s.id ∧ r.source = s.source ∧ r.listing = s.listing ∧
      r.text = text ∧ r.receiver = receiver := by
  rw [Engine.check] at hcheck ⊢
  split at hcheck
  · simp at hcheck
  · rename_i e₁ s' hnew
    obtain ⟨rfl, rfl⟩ := Prod.mk.inj (Except.ok.inj hcheck)
    obtain ⟨-, -, htext, hreceiver⟩ := newSession_placed hnew
    obtain ⟨task, r, ht, hb, hsame⟩ := h.inOrder.beginCheck_carries hnew behaviour
    have hbegin : Reachable (e₁.beginCheck s'.id behaviour).1 := h.step (.check behaviour hnew)
    obtain ⟨task', r', ht', hsame', hl⟩ := Steps.carries hbegin (Steps.drain .refl) ht
    exact ⟨task', r', ht', hsame'.behaviour.trans hb, hl.id.trans hsame.id,
      hl.source.trans hsame.source, hl.listing.trans hsame.listing,
      hl.text.trans (hsame.text.trans htext), hl.receiver.trans (hsame.receiver.trans hreceiver)⟩

/-- The task has left the queue of its source, which is there for the next task. -/
structure Freed (e : Engine) (t : TaskId) (s : Session) : Prop where
  left : t ∉ e.queueOf s.source
  next : ∀ u, (e.queueOf s.source).head? = some u →
    ∃ task r, e.Carries u task r ∧ task.stage.hadTurn ∧ task.stage.isEnded = false

/-- The turn of the head of a queue has come. -/
theorem Schedule.hadTurn_of_head (h : Schedule none e) {source : Path} {u : TaskId}
    (hhead : (e.queueOf source).head? = some u) :
    ∃ task r, e.Carries u task r ∧ task.stage.hadTurn ∧ task.stage.isEnded = false := by
  have hmem := List.mem_of_head? hhead
  obtain ⟨task, r, hu, rfl⟩ := h.queue_owned hmem
  have hplaced : task.stage.Place (e.queueOf r.source) u := h.placed hu
  refine ⟨task, r, hu, ?_⟩
  cases hstage : task.stage with
  | created | ended =>
    rw [hstage] at hplaced
    exact absurd hmem hplaced
  | queued =>
    rw [hstage] at hplaced
    obtain ⟨rest, hqueue⟩ := List.head?_eq_some_iff.1 hhead
    have hnodup := h.queue_nodup r.source
    rw [hqueue] at hnodup hplaced
    exact absurd hplaced (List.nodup_cons.1 hnodup).1
  | admitted | starting | waiting => exact ⟨rfl, rfl⟩

/-- A task that had its turn and is not held up by its compiler has ended. -/
theorem InOrder.ended_of_hadTurn (h : InOrder none e) (hready : e.ready = []) {task : Task}
    {s : Session} (ht : e.Carries t task s) (hturn : task.stage.hadTurn)
    (hheld : task.startHeld ≠ some true) (hrests : s.Rests) : task.stage.isEnded := by
  have hgo := h.schedule.not_canGoOn hready ht
  cases h.schedule.fits (free_none t) ht with
  | queued hstage =>
    rcases hstage with hstage | hstage
    · simp [hstage, Stage.hadTurn] at hturn
    · exact absurd (by simp [Task.CanGoOn, hstage]) hgo
  | @starting held hstage hstart =>
    cases held <;> simp_all [Task.CanGoOn]
  | waiting hstage => exact absurd ((Task.canGoOn_waiting hstage).2 hrests) hgo
  | ended hstage => rw [hstage]; rfl

/-- However a task ends, it leaves its source to the next one. -/
theorem InOrder.freed (h : InOrder none e) {task : Task} {s : Session} (ht : e.Carries t task s)
    (hended : task.stage.isEnded) : e.Freed t s := by
  have hplaced : task.stage.Place (e.queueOf s.source) t := h.schedule.placed ht
  obtain ⟨outcome, hstage, -⟩ := (h.schedule.fits (free_none t) ht).left_of_ended hended
  rw [hstage] at hplaced
  exact ⟨hplaced, fun _ hhead => h.schedule.hadTurn_of_head hhead⟩

/-- How a task ends whose text can be written, and whose listing can be looked at. -/
theorem InOrder.contained (h : InOrder none e)
    (hwords : ∃ words, e.settings.directives = .ok words) {task : Task} {s : Session}
    (ht : e.Carries t task s) (hended : task.stage.isEnded)
    (htext : ∀ text, s.text = some text → ∃ written, text.encode = .ok written)
    (hseen : ∀ fault, ¬e.disk.denials.Hides s.listing fault) :
    ∃ outcome, task.stage = .ended outcome ∧ Contained task.behaviour s outcome := by
  obtain ⟨outcome, hstage, hleft⟩ := (h.schedule.fits (free_none t) ht).left_of_ended hended
  refine ⟨outcome, hstage, ?_⟩
  -- Of the ways to leave a task, those that the hypotheses exclude drop out.
  cases hleft with
  | finished hfinal => exact .returned hfinal
  | unwritable hsome hencode =>
    obtain ⟨written, hwritten⟩ := htext _ hsome
    rw [hwritten] at hencode
    cases hencode
  | uncallable hdirectives =>
    obtain ⟨words, hwords⟩ := hwords
    simp [surroundings, hwords] at hdirectives
  | rejected hfailed hphase => exact .rejected hfailed hphase
  | unseen hhides => exact absurd hhides (hseen _)
  | null hnull hphase => exact .null hnull hphase
  | untold hfailure hphase => exact .untold hfailure hphase

end Engine

end LiveCheck
