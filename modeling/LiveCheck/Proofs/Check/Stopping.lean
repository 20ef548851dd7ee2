import LiveCheck.Proofs.Check.History

/-!
# Who is told to stop

A session that was told to stop stays told, and its compiler process is told as well, even if it
starts later on (`Session.Heeded`). A process that has exited is left alone (`Session.Abides`).

The engine remembers one active session for each source. Every session whose check goes on is either
that session, or was told to stop (`Attended`): a newer check takes the place of the active session
and cancels it in the same step.
-/

namespace LiveCheck

variable {s s' s'' : Session} {settings : Settings} {task : Task}

/-- If the session was told to stop, so was its process, unless it has exited. -/
def Session.Heeded (s : Session) : Prop :=
  s.cancelled → ∀ p, s.process = some p → p.isRunning → 1 ≤ p.stops

/-- The session stays told to stop, and its process is left alone once it has exited. -/
structure Session.Abides (s s' : Session) : Prop where
  cancelled : s.cancelled → s'.cancelled
  exited : ∀ {p}, s.process = some p → p.isRunning = false → s'.process = some p

namespace Session

theorem Abides.refl (s : Session) : s.Abides s := ⟨fun hc => hc, fun hp _ => hp⟩

theorem Abides.trans (h : s.Abides s') (h' : s'.Abides s'') : s.Abides s'' :=
  ⟨fun hc => h'.cancelled (h.cancelled hc), fun hp hr => h'.exited (h.exited hp hr) hr⟩

/-- A session that is told to stop abides. -/
theorem cancel_abides (s : Session) : s.Abides s.cancel := by
  refine ⟨fun _ => rfl, fun {p} hp hr => ?_⟩
  obtain ⟨status, hstatus⟩ : ∃ status, p.status = some status := by
    simpa [CompilerProcess.isRunning, Option.isSome_iff_exists] using hr
  simp [cancel, hp, CompilerProcess.stop, hstatus]

/-- A process that is told to stop has been told at least once. -/
theorem cancel_heeded (s : Session) : s.cancel.Heeded := by
  rintro - q hq hr
  obtain ⟨p, -, rfl⟩ := Option.map_eq_some_iff.1 hq
  cases hstatus : p.status <;> simp_all [CompilerProcess.stop, CompilerProcess.isRunning]

theorem heeded_of_none (h : s.process = none) : s.Heeded := by simp [Heeded, h]

end Session

namespace Engine

variable {e e' : Engine} {t : TaskId} {source : Path}

/-! ## Being told to stop -/

/-- In an act the session abides. -/
theorem Act.abides {x y : Engine × Session} (h : Act x y) : x.2.Abides y.2 := by
  refine ⟨fun hc => h.same.cancelled.trans hc, fun {p} hp hr => ?_⟩
  cases h with
  | start b hnone => simp [hnone] at hp
  | exit status hold hrun =>
    obtain rfl := Option.some.inj (hold.symm.trans hp)
    simp [hrun] at hr
  | report => rwa [Session.deliver_process]
  | _ => exact hp

/-- A process that starts for a session that was told to stop is told at once. -/
theorem Act.heeded {x y : Engine × Session} (h : Act x y) (hx : x.2.Heeded) : y.2.Heeded := by
  cases h with
  | @start e s b _ =>
    intro hc p hp hr
    obtain rfl : s.started b = p := Option.some.inj hp
    have hc : s.cancelled = true := hc
    simp only [Session.started, hc, if_true] at hr ⊢
    cases hstop : b.onStop <;> simp_all [CompilerProcess.stop, CompilerProcess.isRunning]
  | exit status =>
    intro _ p hp hr
    obtain rfl := Option.some.inj hp
    simp [CompilerProcess.isRunning] at hr
  | report =>
    rw [Session.Heeded, Session.deliver_process, (Session.deliver_same _ _).cancelled]
    exact hx
  | _ => exact hx

theorem Works.abides {x y : Engine × Session} (h : Works x y) : x.2.Abides y.2 :=
  h.preserves (P := fun z => x.2.Abides z.2) (fun _ _ ha hx => hx.trans ha.abides) (.refl _)

/-- In every reachable state, the process of a session that was told to stop was told, too. -/
theorem Reachable.heeded (h : Reachable e) {id : Int} {s : Session}
    (hs : e.sessions.get? id = some s) : s.Heeded :=
  h.session (P := Session.Heeded) (fun _ hs => Session.heeded_of_none hs.process)
    (fun s _ => s.cancel_heeded) (fun _ _ => Act.heeded) hs

/-- Sessions stay on record as they abide. -/
def Abide (e e' : Engine) : Prop :=
  ∀ id s, e.sessions.get? id = some s → ∃ s', e'.sessions.get? id = some s' ∧ s.Abides s'

theorem Abide.trans {e'' : Engine} (h : Abide e e') (h' : Abide e' e'') : Abide e e'' := by
  intro id s hs
  obtain ⟨s', hs', ha⟩ := h id s hs
  obtain ⟨s'', hs'', ha'⟩ := h' id s' hs'
  exact ⟨s'', hs'', ha.trans ha'⟩

theorem Abide.of_sessions (h : e'.sessions = e.sessions) : Abide e e' :=
  fun _ s hs => ⟨s, h ▸ hs, .refl s⟩

/-- In an opening all sessions abide. -/
theorem Opening.abide (hr : Registry e) (h : Opening e e') : Abide e e' := by
  intro id s hs
  rcases h.sessions hr id with heq | ⟨r, hr', heq⟩ | ⟨hnone, -⟩
  · exact ⟨s, heq ▸ hs, .refl s⟩
  · obtain rfl := Option.some.inj (hs.symm.trans hr')
    exact ⟨_, heq, s.cancel_abides⟩
  · simp [hnone] at hs

theorem abide_of_openings (hr : Registry e) (h : Relation.ReflTransGen Opening e e') :
    Abide e e' := by
  suffices hall : Abide e e' ∧ Registry e' from hall.1
  induction h with
  | refl => exact ⟨.of_sessions rfl, hr⟩
  | tail _ ho ih => exact ⟨ih.1.trans (ho.abide ih.2), ho.registry ih.2⟩

/-- In a turn all sessions abide. -/
theorem Works.abide {x y : Engine × Session} (h : Works x y)
    (hx : x.1.sessions.get? x.2.id = some x.2) : Abide x.1 y.1 := by
  intro id s hs
  rw [h.get?_eq hx]
  split
  · obtain rfl := Option.some.inj (hx.symm.trans (‹id = _› ▸ hs))
    exact ⟨_, rfl, h.abides⟩
  · exact ⟨s, hs, .refl s⟩

/-- In a step all sessions abide. -/
theorem Step.abide (ho : InOrder none e) (h : Step e e') : Abide e e' := by
  obtain ⟨e₁, hopen, rfl | ⟨s₁, e₂, s₂, hs₁, -, hworks, hre⟩⟩ := (h.shape ho).works
  · exact abide_of_openings ho.registry hopen
  · exact (abide_of_openings ho.registry hopen).trans
      ((hworks.abide hs₁).trans (.of_sessions hre.sessions))

/-- Sessions stay told to stop, and their processes are left alone once they have exited. -/
theorem Steps.abide (h : Reachable e) (hsteps : Steps e e') : Abide e e' := by
  induction hsteps with
  | refl => exact .of_sessions rfl
  | tail hsteps hstep ih => exact ih.trans (hstep.abide (h.steps hsteps).inOrder)

/-! ## Who is not told -/

/-- A check that goes on is that of the active session of its source, or was told to stop; and the
    active session of a source is the newest one. -/
structure Attended (e : Engine) : Prop where
  told : ∀ {t task s}, e.Carries t task s → task.stage.isEnded = false →
    s.cancelled ∨ e.active.get? s.source = some s.id
  newest : ∀ {source id}, e.active.get? source = some id → e.latest.get? source = some id

/-- Checks are attended to if no more of them go on than before. -/
theorem Attended.congr (h : Attended e) (hsessions : e'.sessions = e.sessions)
    (hactive : e'.active = e.active) (hlatest : e'.latest = e.latest)
    (htasks : ∀ {t a}, e'.tasks.get? t = some a → a.stage.isEnded = false →
      ∃ b, e.tasks.get? t = some b ∧ b.session = a.session ∧ b.stage.isEnded = false) :
    Attended e' := by
  refine ⟨fun {t task s} ht hended => ?_, fun hid => hlatest ▸ h.newest (hactive ▸ hid)⟩
  obtain ⟨b, hb, hsession, hended⟩ := htasks ht.1 hended
  rw [hactive]
  exact h.told ⟨hb, hsession ▸ hsessions ▸ ht.2⟩ hended

/-- A session is replaced by another form of itself. -/
theorem Attended.replace (h : Attended e) {s s' : Session} (hstored : e.sessions.get? s.id = some s)
    (hid : s'.id = s.id) (hsource : s'.source = s.source) (hcancelled : s.cancelled → s'.cancelled)
    (hs : ∀ id, e'.sessions.get? id = if id = s.id then some s' else e.sessions.get? id)
    (htasks : e'.tasks = e.tasks) (hactive : e'.active = e.active)
    (hlatest : e'.latest = e.latest) : Attended e' := by
  refine ⟨fun {t task r} ht hended => ?_, fun hid => hlatest ▸ h.newest (hactive ▸ hid)⟩
  rw [hactive]
  rcases (carries_replace hstored hs htasks).1 ht with ⟨-, rfl, ht⟩ | ⟨-, ht⟩
  · rw [hid, hsource]
    exact (h.told ht hended).imp_left hcancelled
  · exact h.told ht hended

/-- Whoever is cancelled, the checks that tasks carry out are told as before. -/
theorem carries_of_cancelSession (hr : Registry e) {id : Int} {task : Task} {s : Session}
    (ht : (e.cancelSession id).Carries t task s) : ∃ r, e.Carries t task r ∧ s.id = r.id ∧
      s.source = r.source ∧ (r.cancelled → s.cancelled) ∧ (r.id = id → s.cancelled) := by
  obtain ⟨sessions, ready, heq⟩ := e.cancelSession_eq id
  have htask : e.tasks.get? t = some task := by
    have := ht.1
    rwa [heq] at this
  rcases hs : e.sessions.get? id with _ | r
  · have hnone : e.cancelSession id = e := by simp [Engine.cancelSession, hs]
    rw [hnone] at ht
    refine ⟨s, ht, rfl, rfl, fun hc => hc, fun hid => ?_⟩
    rw [← hid, hr.keyed ht.2, ht.2] at hs
    simp at hs
  · obtain rfl := hr.keyed hs
    have hget := ht.2
    rw [cancelSession_sessions hs] at hget
    split at hget
    · obtain rfl := Option.some.inj hget
      exact ⟨r, ⟨htask, ‹task.session = r.id› ▸ hs⟩, rfl, rfl, fun _ => rfl, fun _ => rfl⟩
    · exact ⟨s, ⟨htask, hget⟩, rfl, rfl, fun hc => hc,
        fun hid => absurd ((hr.keyed hget).symm.trans hid) ‹_›⟩

/-- When a session is told to stop, it is attended to, whatever became of it before. -/
theorem attended_cancelSession (hr : Registry e) {id : Int}
    (htold : ∀ {t task s}, e.Carries t task s → task.stage.isEnded = false →
      s.cancelled ∨ e.active.get? s.source = some s.id ∨ s.id = id)
    (hnewest : ∀ {source id}, e.active.get? source = some id →
      e.latest.get? source = some id) : Attended (e.cancelSession id) := by
  obtain ⟨sessions, ready, heq⟩ := e.cancelSession_eq id
  refine ⟨fun {t task s} ht hended => ?_, fun hactive => ?_⟩
  · obtain ⟨r, ht₀, hid, hsource, hkeep, hset⟩ := carries_of_cancelSession hr ht
    rcases htold ht₀ hended with hc | hactive | hr
    · exact .inl (hkeep hc)
    · rw [heq, hsource, hid]
      exact .inr hactive
    · exact .inl (hset hr)
  · rw [heq] at hactive ⊢
    exact hnewest hactive

/-- Telling a session to stop leaves the checks attended to. -/
theorem Attended.cancelSession (h : Attended e) (hr : Registry e) (id : Int) :
    Attended (e.cancelSession id) :=
  attended_cancelSession hr (fun ht hended => (h.told ht hended).imp_right .inl) h.newest

theorem Attended.works {x y : Engine × Session} (h : Attended x.1)
    (hx : x.1.sessions.get? x.2.id = some x.2) (hw : Works x y) : Attended y.1 :=
  h.replace hx hw.same.id hw.same.source hw.abides.cancelled (hw.get?_eq hx) hw.kept.tasks
    hw.kept.active hw.kept.latest

/-! ## The end of a turn -/

/-- A task that leaves its queue ends no other task, and begins none anew. -/
theorem Schedule.unended_of_leaveQueue (h : Schedule (some (t, .admitted)) e) {task : Task}
    {s : Session} (ht : e.Carries t task s) {u : TaskId} {a : Task}
    (hu : (e.leaveQueue t s.source).tasks.get? u = some a) (hended : a.stage.isEnded = false) :
    ∃ b, e.tasks.get? u = some b ∧ b.session = a.session ∧ b.stage.isEnded = false := by
  obtain ⟨rest, hqueue⟩ := h.queueOf_eq ht
  rw [leaveQueue] at hu
  simp only [hqueue, List.erase_cons_head, List.head?_cons, if_true] at hu
  rcases rest with _ | ⟨next, rest⟩
  · exact ⟨a, hu, rfl, hended⟩
  · simp only [enqueue, Table.get?_modify] at hu
    split at hu
    · obtain ⟨b, hb, rfl⟩ := Option.map_eq_some_iff.1 hu
      obtain ⟨r, hr⟩ := h.owned hb
      -- The next task waits for its turn, so it has not ended.
      have hqueued := (h.queued_behind hqueue List.mem_cons_self ⟨hb, hr⟩).2.2
      exact ⟨b, ‹u = next› ▸ hb, rfl, by rw [hqueued]; rfl⟩
    · exact ⟨a, hu, rfl, hended⟩

/-- A session whose task has ended need not be active. -/
theorem Attended.retire (h : Attended e) (hr : Registry e) (hroster : Roster e) {task : Task}
    {s : Session} (ht : e.Carries t task s) (hended : task.stage.isEnded) :
    Attended (e.retire s) := by
  refine ⟨fun {u a r} hu hgoes => ?_, fun hid => ?_⟩
  · rw [retire_eq] at hu
    refine (h.told hu hgoes).imp_right fun hactive => ?_
    rw [Engine.retire]
    split
    · rename_i hretired
      rw [Table.get?_erase, if_neg, hactive]
      rintro hsource
      rw [hsource, hretired, Option.some.injEq] at hactive
      obtain ⟨-, rfl, -⟩ := hroster.carries_unique ht hu
        ((hr.keyed ht.2).symm.trans (hactive.trans (hr.keyed hu.2)))
      simp [hended] at hgoes
    · exact hactive
  · have hlatest : (e.retire s).latest = e.latest := by rw [retire_eq]
    exact hlatest ▸ h.newest (retire_active hid).1

/-- A turn that leaves its task waiting leaves the checks attended to. -/
theorem Attended.settle_waits (h : Attended e) {task : Task} {s : Session}
    (ht : e.tasks.get? t = some task) (hgoes : task.stage.isEnded = false) (stage : Stage) :
    Attended (e.settle t s (.waits stage)) := by
  refine h.congr rfl rfl rfl fun {u a} hu hended => ?_
  rw [settle, Table.get?_modify] at hu
  split at hu
  · rw [ht, Option.map_some, Option.some.injEq] at hu
    exact ⟨task, ‹u = t› ▸ ht, hu ▸ rfl, hgoes⟩
  · exact ⟨a, hu, rfl, hended⟩

/-- When a check ends, its session is no longer active, and the others are attended to as before. -/
theorem Attended.settle_ends (h : Attended e) (ho : InOrder (some (t, .admitted)) e) {task : Task}
    {s : Session} (ht : e.Carries t task s) {outcome : Outcome} (haborted : outcome ≠ .aborted) :
    Attended (e.settle t s (.ends outcome)) := by
  rw [settle_ends_eq e t s haborted]
  obtain ⟨hschedule, ht₁⟩ := ho.schedule.ended ht outcome
  have hmarked : Attended (e.ended t outcome) := by
    refine h.congr rfl rfl rfl fun {u a} hu hended => ?_
    rw [Engine.ended, Table.get?_modify] at hu
    split at hu
    · rw [ht.1, Option.map_some, Option.some.injEq] at hu
      simp [← hu, Stage.isEnded] at hended
    · exact ⟨a, hu, rfl, hended⟩
  obtain ⟨queues, tasks, ready, hleave⟩ := (e.ended t outcome).leaveQueue_eq t s.source
  have hleft : Attended ((e.ended t outcome).leaveQueue t s.source) := by
    refine hmarked.congr ?_ ?_ ?_ fun hu hended => hschedule.unended_of_leaveQueue ht₁ hu hended <;>
      rw [hleave]
  refine hleft.retire ?_ (hschedule.leave ht₁).toRoster (hschedule.leave_carries ht₁) rfl
  exact ho.registry.congr (by rw [hleave]; rfl) (by rw [hleave]; rfl) (by rw [hleave]; rfl)

/-- What a turn makes of its task. -/
theorem Attended.turn (h : Attended e) (ho : InOrder (some (t, .admitted)) e) {task : Task}
    {s : Session} (ht : e.Carries t task s) (hgoes : task.stage.isEnded = false)
    {r : Engine × Progress} (hreach : Reaches e task.behaviour s r) :
    Attended (r.1.settle t s r.2) := by
  obtain ⟨s', hworks, hleft⟩ := hreach
  obtain ⟨e', progress⟩ := r
  have hstored : e.sessions.get? s.id = some s := ho.registry.stored ht.2
  obtain ⟨hschedule, ht'⟩ := ho.schedule.works ho.registry ht hworks
  rw [← settle_congr e' t hworks.same progress]
  have h' : Attended e' := h.works hstored hworks
  rcases progress with stage | outcome
  · exact h'.settle_waits ht'.1 hgoes stage
  · exact h'.settle_ends ⟨ho.registry.works hstored hworks, hschedule⟩ ht'
      (by rintro rfl; cases hleft)

/-! ## Overtaking -/

section

variable {task : Task} (h : Attended e) (hsession : task.session = s.id)
  (htasks : e'.tasks = e.tasks.put t task) (hsessions : e'.sessions = e.sessions.put s.id s)
  (hactive : e'.active = e.active.put s.source s.id)
  (hlatest : e'.latest = e.latest.put s.source s.id)

include h

include hsession htasks hsessions hactive in
/-- With a new session enrolled, who goes on was told before, or is active, or was active till
    now. -/
theorem Attended.told_enrol {u : TaskId} {a : Task} {r : Session} (hu : e'.Carries u a r)
    (hended : a.stage.isEnded = false) : r.cancelled ∨ e'.active.get? r.source = some r.id ∨
      e.active.get? s.source = some r.id := by
  obtain ⟨hu, hr⟩ := hu
  rw [hsessions, Table.get?_put] at hr
  rw [hactive]
  split at hr
  · obtain rfl := Option.some.inj hr
    exact .inr (.inl (Table.get?_put_self _ _ _))
  rw [htasks, Table.get?_put] at hu
  split at hu
  · obtain rfl := Option.some.inj hu
    exact absurd hsession ‹_›
  · refine (h.told ⟨hu, hr⟩ hended).imp_right fun hactive => ?_
    by_cases hsource : r.source = s.source
    · exact .inr (hsource ▸ hactive)
    · exact .inl ((Table.get?_put_of_ne hsource _).trans hactive)

include hactive hlatest in
/-- The new session is the active one of its source, and the newest. -/
theorem Attended.newest_enrol {source : Path} {id : Int} (hid : e'.active.get? source = some id) :
    e'.latest.get? source = some id := by
  rw [hactive, Table.get?_put] at hid
  rw [hlatest, Table.get?_put]
  split at hid
  · rwa [if_pos ‹_›]
  · rw [if_neg ‹_›]
    exact h.newest hid

end

/-- A new session takes the place of the active one of its source, which is told to stop. -/
theorem Attended.overtake (h : Attended e) (hr : Registry e) {path : Text}
    {text : Option JsonString} {receiver : Receiver} {s : Session}
    (hnew : e.newSession path text receiver = (e', .ok s)) {task : Task}
    (hsession : task.session = s.id) (hr' : Registry e') :
    Attended (Engine.overtake { e' with tasks := e.tasks.put t task } s) := by
  obtain ⟨-, hid, rfl⟩ := newSession_ok hnew
  let e₁ : Engine := { e with
    nextId := e.nextId + 1
    sessions := e.sessions.put s.id s
    latest := e.latest.put s.source s.id
    active := e.active.put s.source s.id
    tasks := e.tasks.put t task }
  have htold : ∀ {u a r}, e₁.Carries u a r → a.stage.isEnded = false → r.cancelled ∨
      e₁.active.get? r.source = some r.id ∨ e.active.get? s.source = some r.id :=
    fun hu hended => h.told_enrol hsession rfl rfl rfl hu hended
  have hnewest : ∀ {source id}, e₁.active.get? source = some id →
      e₁.latest.get? source = some id := fun hid => h.newest_enrol rfl rfl hid
  rw [Engine.overtake]
  dsimp only
  split
  · rename_i hprior
    exact ⟨fun ht hended => (htold ht hended).imp_right fun hactive =>
      hactive.resolve_right (by simp [hprior]), hnewest⟩
  rename_i older hprior
  split
  · -- No session has the number of the new one.
    obtain ⟨r, hr, -⟩ := hr.handed (h.newest hprior)
    have := ‹Registry e›.below hr
    omega
  · have hr₁ : Registry (e₁.note [.overtaken s.id older]) := hr'.congr rfl rfl rfl
    refine attended_cancelSession hr₁ (fun hu hended => ?_) hnewest
    refine (htold hu hended).imp_right (Or.imp_right fun hactive => ?_)
    exact (Option.some.inj (hprior.symm.trans hactive)).symm

/-! ## Steps -/

/-- When a check begins, the one that it overtakes is told to stop. -/
theorem Attended.beginCheck (h : Attended e) (ho : InOrder none e) {path : Text}
    {text : Option JsonString} {receiver : Receiver} {s : Session}
    (hnew : e.newSession path text receiver = (e', .ok s)) (behaviour : Behaviour) :
    Attended (e'.beginCheck s.id behaviour).1 := by
  have hs := (newSession_ok hnew).1
  obtain ⟨t, task, tasks, horder, ht, hstage, -, -, rfl, heq⟩ := ho.begin hnew behaviour
  have hover := h.overtake (t := t) ho.registry hnew (horder.registry.keyed ht.2).symm
    (ho.registry.newSession hnew)
  obtain ⟨horder, ht'⟩ := horder.overtake ht
  have hjoin := horder.schedule.join ht'
  rw [heq, resume_eq ht, Engine.turn, hstage]
  unfold Engine.enter
  dsimp only
  generalize Engine.overtake _ s = e₁ at *
  have hgoes : task.stage.isEnded = false := by rw [hstage]; rfl
  have hjoined : Attended { e₁ with
      queues := e₁.queues.put s.source (e₁.queueOf s.source ++ [t]) } :=
    hover.congr rfl rfl rfl fun hu hended => ⟨_, hu, rfl, hended⟩
  split
  · rw [if_pos ‹_›] at hjoin
    exact hjoined.turn ⟨horder.registry.congr rfl rfl rfl, hjoin⟩ ht' hgoes
      (proceed_reaches task hs.phase hs.process (horder.registry.plain ht'.2))
  · exact hjoined.settle_waits ht'.1 hgoes _

/-- Cancelling all checks leaves them attended to. -/
theorem Attended.cancelAll (h : Attended e) (hr : Registry e) : Attended e.cancelAll := by
  rw [Engine.cancelAll]
  generalize e.active.values = ids
  induction ids generalizing e with
  | nil => exact h
  | cons id ids ih => exact ih (h.cancelSession hr id) (hr.cancelSession id)

/-- The start of a compiler leaves the checks attended to. -/
theorem Attended.openStart (h : Attended e) (ho : InOrder none e) {id : Int}
    (hopen : e.openStart id = some e') : Attended e' := by
  obtain ⟨t, task, ht, -, -, rfl⟩ := openStart_eq_some ho.schedule.keys_nodup hopen
  refine h.congr rfl rfl rfl fun {u a} hu hended => ?_
  dsimp only at hu
  rw [Table.get?_put] at hu
  split at hu
  · obtain rfl := Option.some.inj hu
    exact ⟨task, ‹u = t› ▸ ht, rfl, hended⟩
  · exact ⟨a, hu, rfl, hended⟩

/-- The exit of a compiler leaves the checks attended to. -/
theorem Attended.endProcess (h : Attended e) (ho : InOrder none e) {id status : Int}
    (hend : e.endProcess id status = some e') : Attended e' := by
  obtain ⟨s, p, hs, hp, hrun, rfl⟩ := endProcess_eq_some hend
  have hexit : Attended (e.exitProcess s p status).1 :=
    Attended.works (x := (e, s)) h (ho.registry.stored hs) (exitProcess_works hp hrun status)
  obtain ⟨ready, hwake⟩ := (e.exitProcess s p status).1.wake_eq id
  rw [hwake]
  exact hexit.congr rfl rfl rfl fun hu hended => ⟨_, hu, rfl, hended⟩

/-- Every step leaves the checks attended to. -/
theorem Attended.step (h : Attended e) (ho : InOrder none e) (hstep : Step e e') : Attended e' := by
  cases hstep with
  | check behaviour hnew => exact h.beginCheck ho hnew behaviour
  | refuse hnew =>
    rcases newSession_error hnew with rfl | rfl
    · exact h
    · exact h.congr rfl rfl rfl fun hu hended => ⟨_, hu, rfl, hended⟩
  | start hopen => exact h.openStart ho hopen
  | exit hend => exact h.endProcess ho hend
  | cancel source =>
    rw [cancelActive]
    split
    · exact h
    · exact h.cancelSession ho.registry _
  | shutdown => exact h.cancelAll ho.registry
  | turn hready =>
    obtain ⟨task, s, ht, hgo, hfits, hbusy⟩ := ho.schedule.take hready
    rename_i t earlier later
    let e₁ : Engine := { e with ready := earlier ++ later }
    have ht₁ : e₁.Carries t task s := ht
    have h₁ : Attended e₁ := h.congr rfl rfl rfl fun hu hended => ⟨_, hu, rfl, hended⟩
    rw [resume_eq ht₁]
    exact h₁.turn ⟨ho.registry.congr rfl rfl rfl, hbusy⟩ ht₁ hgo.alike.1
      (turn_reaches (e := e₁) hfits hgo (ho.registry.plain ht.2) t)

/-- In every reachable state, checks that go on are those of active sessions, or were told to
    stop. -/
theorem Reachable.attended (h : Reachable e) : Attended e := by
  induction h with
  | create hcreate =>
    obtain ⟨compiler, log, rfl⟩ := create_eq hcreate
    constructor <;> intros <;> simp_all [Carries]
  | step h hstep ih => exact ih.step h.inOrder hstep

/-! ## Being told for good -/

/-- A check that goes on and is not that of the newest session of its source was told to stop. -/
theorem Attended.told_of_overtaken (h : Attended e) (hr : Registry e) {task : Task} {s : Session}
    (ht : e.Carries t task s) (hgoes : task.stage.isEnded = false) {n : Int} {r : Session}
    (hn : e.sessions.get? n = some r) (hsource : r.source = s.source) (hlt : s.id < n) :
    s.cancelled := by
  refine (h.told ht hgoes).resolve_right fun hactive => ?_
  obtain ⟨m, hm, hle⟩ := hr.newest hn
  rw [hsource, h.newest hactive, Option.some.injEq] at hm
  omega

/-- Cancelling a source tells all its checks that go on. -/
theorem Attended.told_of_cancelActive (h : Attended e) (hr : Registry e) {task : Task} {s : Session}
    (ht : e.Carries t task s) (hgoes : task.stage.isEnded = false) :
    ∃ s', (e.cancelActive s.source).sessions.get? s.id = some s' ∧ s'.cancelled := by
  have hstored : e.sessions.get? s.id = some s := hr.stored ht.2
  rw [cancelActive]
  rcases h.told ht hgoes with hc | hactive
  · split
    · exact ⟨s, hstored, hc⟩
    · obtain ⟨s', hs', ha⟩ := (Opening.cancelled _).abide hr _ _ hstored
      exact ⟨s', hs', ha.cancelled hc⟩
  · simp only [hactive]
    exact ⟨_, (cancelSession_sessions hstored _).trans (if_pos rfl), rfl⟩

/-- Cancelling sessions one after the other tells them all. -/
theorem told_of_cancelSessions (hr : Registry e) {ids : List Int} {id : Int} {s : Session}
    (hs : e.sessions.get? id = some s) (hlisted : s.cancelled ∨ id ∈ ids) :
    ∃ s', (ids.foldl Engine.cancelSession e).sessions.get? id = some s' ∧ s'.cancelled := by
  induction ids generalizing e s with
  | nil => exact ⟨s, hs, by simpa using hlisted⟩
  | cons id' ids ih =>
    obtain ⟨s', hs', ha⟩ := (Opening.cancelled id').abide hr _ _ hs
    refine ih (hr.cancelSession id') hs' ?_
    rcases hlisted with hc | hmem
    · exact .inl (ha.cancelled hc)
    rcases List.mem_cons.1 hmem with rfl | hmem
    · rw [cancelSession_sessions hs, hr.keyed hs, if_pos rfl] at hs'
      exact .inl (Option.some.inj hs' ▸ rfl)
    · exact .inr hmem

/-- A session that was told to stop once has its process told, whenever it starts. -/
theorem stops_of_told (h : Reachable e) (hsteps : Steps e e') {id : Int} {s s' : Session}
    (hs : e.sessions.get? id = some s) (hc : s.cancelled) (hs' : e'.sessions.get? id = some s')
    {p : CompilerProcess} (hp : s'.process = some p) (hrun : p.isRunning) : 1 ≤ p.stops := by
  obtain ⟨r, hr, ha⟩ := Steps.abide h hsteps id s hs
  obtain rfl := Option.some.inj (hs'.symm.trans hr)
  exact (h.steps hsteps).heeded hs' (ha.cancelled hc) p hp hrun

end Engine

end LiveCheck
