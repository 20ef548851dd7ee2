import LiveCheck.Proofs.Check.Completion
import LiveCheck.Proofs.Check.Tally

/-!
# The checks of a source take turns

Of the sessions of one source, one at most is busy, apart from those whose checks failed in the
middle (`Schedule.busy_alone`). A session *gets its source* in one step of the engine (`Takes`), and
it is the newest one of its source then; in all other steps no text is written and no compiler asked
for (`Continues`). Mostly it sets out then. If its text is none, the source is emptied instead, and
its check ends at once (`Took`).

So the sessions of a source get it in the order of their numbers (`Takes.lt`), and one that is
overtaken before it gets its source never does (`Steps.passed`). No listing is left when a compiler
has exited (`Step.kept`), and none is there when the next session gets the source
(`Takes.kept`), unless the system keeps the file or hides it.
-/

namespace LiveCheck

variable {around : Engine.Surroundings} {b : Behaviour} {task : Task} {s s' : Session}
  {outcome : Outcome}

/-- The session uses its source. -/
def Session.Busy (s : Session) : Prop :=
  s.phase = .spawning ∨ s.phase = .running ∨ s.phase = .parsing

/-- The check of the session failed in the middle. -/
inductive Stranded (around : Engine.Surroundings) (b : Behaviour) (s : Session) : Outcome → Prop
  /-- The settings do not tell how to call the compiler. -/
  | uncallable {fault : SettingFault} : around.settings.directives = .error fault →
      s.phase = .spawning → s.process = none → Stranded around b s (.failed (.setting fault))
  /-- The command could not be handed to the system. -/
  | rejected {reason : Text} : b.failedStart = some (.rejected reason) → s.phase = .spawning →
      s.process = none → Stranded around b s (.failed (.start reason))
  /-- The listing cannot be looked at. -/
  | unseen {fault : DiskFault} : around.denials.Hides s.listing fault → s.phase = .running →
      s.Rests → Stranded around b s (.failed (.disk fault))

/-- A session that is left in the middle of its check, by a task that has ended, is stranded
    there. -/
theorem Left.stranded (h : Left around b (.ends outcome) s) (hs : s.Busy) :
    Stranded around b s outcome := by
  cases h with
  | finished hfinal => rcases hs with hs | hs | hs <;> simp [hs, Phase.isFinal] at hfinal
  | uncallable hdirectives hphase hprocess => exact .uncallable hdirectives hphase hprocess
  | rejected hstart hphase hprocess => exact .rejected hstart hphase hprocess
  | unseen hhides hphase hrests => exact .unseen hhides hphase hrests
  | unwritable _ _ hphase | null _ hphase => rcases hs with hs | hs | hs <;> simp [hs] at hphase
  | untold _ hphase => rcases hs with hs | hs | hs <;> simp [hs] at hphase

/-- A running or parsing session that is stranded has ended, as its listing cannot be looked at. -/
theorem Stranded.unseen_of_running (h : Stranded around b s outcome)
    (hs : s.phase = .running ∨ s.phase = .parsing) :
    s.Rests ∧ ∃ fault, around.denials.Hides s.listing fault ∧ outcome = .failed (.disk fault) := by
  cases h with
  | uncallable _ hphase | rejected _ hphase => rcases hs with hs | hs <;> simp [hphase] at hs
  | unseen hhides _ hrests => exact ⟨hrests, _, hhides, rfl⟩

/-- The task of a busy session has its source to itself, unless it failed. -/
theorem Fits.busy (h : Fits around task s) (hs : s.Busy) :
    (task.stage = .starting ∨ task.stage = .waiting) ∨
      ∃ outcome, task.stage = .ended outcome ∧ Stranded around task.behaviour s outcome := by
  cases h with
  | queued _ _ hphase => rcases hs with hs | hs | hs <;> simp [hs] at hphase
  | starting hstage => exact .inl (.inl hstage)
  | waiting hstage => exact .inl (.inr hstage)
  | ended hstage _ hleft => exact .inr ⟨_, hstage, hleft.stranded hs⟩

/-- A session that has a process and is not over is running. -/
theorem Fits.running (h : Fits around task s) (hp : s.process.isSome) (hs : ¬s.phase.isFinal) :
    s.phase = .running := by
  cases h with
  | queued _ _ _ hnone | starting _ _ _ hnone => simp [hnone] at hp
  | waiting _ _ hphase => exact hphase
  | ended _ _ hleft =>
    cases hleft with
    | finished hfinal => exact absurd hfinal hs
    | unwritable _ _ _ hnone | uncallable _ _ hnone | rejected _ _ hnone => simp [hnone] at hp
    | unseen _ hphase => exact hphase
    | null _ hphase => exact absurd (by rw [hphase]; rfl) hs
    | untold _ hphase =>
      rcases hphase with hphase | hphase <;> exact absurd (by rw [hphase]; rfl) hs

namespace Engine

variable {e e' e₁ f f' : Engine} {id : Int} {r : Session}

/-- Of two busy sessions of one source, one is stranded. -/
theorem Schedule.busy_alone (h : Schedule none e) {t u : TaskId} {a b : Task} {r s : Session}
    (ht : e.Carries t a r) (hu : e.Carries u b s) (hsource : r.source = s.source) (hr : r.Busy)
    (hs : s.Busy) (hne : t ≠ u) : ∃ outcome,
      (a.stage = .ended outcome ∧ Stranded e.surroundings a.behaviour r outcome) ∨
      (b.stage = .ended outcome ∧ Stranded e.surroundings b.behaviour s outcome) := by
  have hhead : ∀ {t task s}, e.Carries t task s →
      task.stage = .starting ∨ task.stage = .waiting → (e.queueOf s.source).head? = some t := by
    intro t task s ht hstage
    have hplaced : task.stage.Place (e.queueOf s.source) t := h.placed ht
    rcases hstage with hstage | hstage <;> rwa [hstage] at hplaced
  rcases (h.fits (free_none t) ht).busy hr with hstage | ⟨outcome, hstranded⟩
  · rcases (h.fits (free_none u) hu).busy hs with hstage' | ⟨outcome, hstranded⟩
    · have hsame := (hhead ht hstage).symm.trans (hsource ▸ hhead hu hstage')
      exact absurd (Option.some.inj hsame) hne
    · exact ⟨outcome, .inr hstranded⟩
  · exact ⟨outcome, .inl hstranded⟩

/-! ## Having got the source -/

/-- The session got its source: it set out, or its text was none and its check has ended. -/
def Took (e : Engine) (s : Session) : Prop :=
  s.SetOut ∨ s.phase = .idle ∧ ∃ fault, e.EndedWith s.id (.failed (.text fault))

/-- Where the task of one session only may have ended, those of all others had ended before. -/
theorem EndsOnly.endedWith (h : EndsOnly e e' id) {n : Int} (hne : n ≠ id)
    (hended : e'.EndedWith n outcome) : e.EndedWith n outcome := by
  obtain ⟨t, task, ht, rfl, hstage⟩ := hended
  exact ⟨t, task, h t task ht (by rw [hstage]; rfl) hne, rfl, hstage⟩

/-- Where no task has ended, all that have ended had ended before. -/
theorem EndsNone.endedWith (h : EndsNone e e') (hended : e'.EndedWith id outcome) :
    e.EndedWith id outcome := by
  obtain ⟨t, task, ht, hid, hstage⟩ := hended
  exact ⟨t, task, h.before ht (by rw [hstage]; rfl), hid, hstage⟩

/-- A task that has ended stays ended, with its outcome. -/
theorem KeepsEnded.endedWith (h : KeepsEnded e e') (hended : e.EndedWith id outcome) :
    e'.EndedWith id outcome := by
  obtain ⟨t, task, ht, hid, hstage⟩ := hended
  exact ⟨t, task, h t task ht (by rw [hstage]; rfl), hid, hstage⟩

theorem EndsOnly.after (h : EndsOnly e₁ e' id) (h₁ : EndsNone e e₁) : EndsOnly e e' id :=
  fun t task ht hended hid => h₁.before (h t task ht hended hid) hended

/-- Where its check has not ended in between, a session that got its source had got it before. -/
theorem Took.before (h : e'.Took s') (ha : s.Alike s')
    (hended : ∀ {outcome}, e'.EndedWith s'.id outcome → e.EndedWith s'.id outcome) : e.Took s := by
  rcases h with hset | ⟨hidle, fault, hend⟩
  · exact .inl (ha.setOut.1 hset)
  · exact .inr ⟨ha.phase.symm.trans hidle, fault, ha.id ▸ hended hend⟩

/-- A session that is overtaken before its turn does not get its source. -/
theorem not_took_overtaken {settings : Settings} (h : s.Proper settings) (hidle : s.phase = .idle) :
    ¬e.Took (s.to .superseded) := by
  rintro (hset | ⟨hphase, -⟩)
  · exact h.not_setOut_overtaken hidle hset
  · cases hphase

/-- A session that waits has not got its source as long as no check has ended. -/
theorem not_took_of_going (hidle : s.phase = .idle)
    (hgoing : ∀ a ∈ e.tasks.entries, a.2.stage.isEnded = false) : ¬e.Took s := by
  rintro (hset | ⟨-, fault, t, task, ht, -, hstage⟩)
  · exact hset.1 hidle
  · have hended := hgoing _ (Table.mem_entries_of_get? ht)
    simp [hstage, Stage.isEnded] at hended

/-- A session that got its source was on record before the opening, and had got it then. -/
theorem Opened.took (h : Opened e e₁) (he : Reachable e) (hs : e₁.sessions.get? id = some s)
    (hid : s.id = id) (hended : ∀ {outcome}, e'.EndedWith s.id outcome → e.EndedWith s.id outcome)
    (htook : e'.Took s) : ∃ r, e.sessions.get? id = some r ∧ e.Took r := by
  rcases h.came hs with ⟨r, hr, ha⟩ | ⟨hnew, hfresh⟩
  · exact ⟨r, hr, htook.before ha hended⟩
  · rcases htook with hset | ⟨-, fault, hend⟩
    · exact absurd hset hfresh.not_setOut
    · -- No task can have ended the check of a session that has just been made.
      obtain ⟨t, task, ht, hsession, -⟩ := hended hend
      obtain ⟨r, hr⟩ := he.inOrder.schedule.owned ht
      have := he.inOrder.registry.below hr
      omega

/-- A session that got its source stays one that did. -/
theorem Took.step (h : e.Took s) (he : Reachable e) (hstep : Step e e')
    (hs : e.sessions.get? s.id = some s) :
    ∃ s', e'.sessions.get? s.id = some s' ∧ s.Later s' ∧ e'.Took s' := by
  have hf := hstep.footprint he.inOrder
  rcases h with hset | ⟨hidle, fault, hend⟩
  · obtain ⟨s', hs', hl⟩ := hf.later hs
    exact ⟨s', hs', hl, .inl (hl.setOut hset)⟩
  · obtain ⟨t, task, ht, hid, hstage⟩ := hend
    have hended : task.stage.isEnded := by rw [hstage]; rfl
    obtain ⟨s', hs', ha⟩ := hf.alike_of_ended ⟨ht, hid.symm ▸ hs⟩ hended
    exact ⟨s', hid ▸ hs', ha.later, .inr ⟨ha.phase.trans hidle, fault, t, task,
      hstep.keepsEnded he t task ht hended, hid.trans ha.id.symm, hstage⟩⟩

/-- A session that got its source is one that did, from then on. -/
theorem Took.steps (h : e.Took s) (he : Reachable e) (hsteps : Steps e f)
    (hs : e.sessions.get? s.id = some s) :
    ∃ s', f.sessions.get? s.id = some s' ∧ s.Later s' ∧ f.Took s' := by
  induction hsteps with
  | refl => exact ⟨s, hs, (Session.Alike.refl s).later, h⟩
  | tail hsteps hstep ih =>
    obtain ⟨s₁, hs₁, hl₁, htook₁⟩ := ih
    obtain ⟨s', hs', hl, htook⟩ := htook₁.step (he.steps hsteps) hstep (hl₁.id.symm ▸ hs₁)
    exact ⟨s', hl₁.id ▸ hs', hl₁.trans hl, htook⟩

/-! ## Getting the source -/

/-- In the step, the session gets its source: its text is written, if it has one, and its compiler
    asked for. -/
structure Takes (e e' : Engine) (s : Session) : Prop where
  stored : e'.sessions.get? s.id = some s
  newest : e'.IsNewest s
  idle : ∀ {r}, e.sessions.get? s.id = some r → r.phase = .idle
  going : ∀ {outcome}, ¬e.EndedWith s.id outcome
  took : e'.Took s
  endsOnly : EndsOnly e e' s.id
  alone : e'.Alone s
  others : ∀ {id r'}, e'.sessions.get? id = some r' → id ≠ s.id →
    (∃ r, e.sessions.get? id = some r ∧ r.Alike r') ∨ r'.Fresh e.settings
  saved : (∃ d, s.Saves e.disk d ∧ Relation.ReflTransGen (Litter s) d e'.disk ∧
      (e'.spawns = e.spawns ∨
        ∃ command, e'.spawns = e.spawns ++ [⟨s.id, command, s.source.parent⟩])) ∨
    ((∀ d, ¬s.Saves e.disk d) ∧ e'.disk = e.disk ∧ e'.spawns = e.spawns ∧ s.Unsaved) ∨
    (s.Spoils e.disk e'.disk ∧ e'.spawns = e.spawns ∧ s.phase = .idle)

/-- In the step, no session gets its source: no text is written and no compiler asked for. -/
structure Continues (e e' : Engine) : Prop where
  spawns : e'.spawns = e.spawns
  disk : e'.disk = e.disk ∨ ∃ r s, e.sessions.get? s.id = some r ∧ r.SetOut ∧
    e'.sessions.get? s.id = some s ∧ Relation.ReflTransGen (Litter s) e.disk e'.disk
  took : ∀ {id s}, e'.sessions.get? id = some s → e'.Took s →
    ∃ r, e.sessions.get? id = some r ∧ e.Took r

theorem Onward.spoils (h : Onward e e₁ e' s s') (d d' : Disk) : s'.Spoils d d' ↔ s.Spoils d d' := by
  rw [Session.Spoils, Session.Spoils, h.later.text, h.later.source]

theorem Onward.endsOnly' (h : Onward e e₁ e' s s') : EndsOnly e e' s'.id :=
  h.later.id ▸ h.endsOnly.after h.endsNone

/-- The check of the session goes on in the step, so it had not ended before. -/
theorem Onward.not_endedWith (h : Onward e e₁ e' s s') : ¬e.EndedWith s'.id outcome := by
  rintro ⟨t, task, ht, hid, hstage⟩
  have hgoing := h.going_before ht (hid.trans h.later.id)
  simp [hstage, Stage.isEnded] at hgoing

/-- A session that does not go on, and got its source, had got it before the step. -/
theorem Onward.took (h : Onward e e₁ e' s s') (he : Reachable e) (he' : Reachable e')
    (hr : e'.sessions.get? id = some r) (hne : id ≠ s'.id) (htook : e'.Took r) :
    ∃ r₀, e.sessions.get? id = some r₀ ∧ e.Took r₀ := by
  have hid : r.id = id := he'.inOrder.registry.keyed hr
  rw [h.sessions, if_neg (h.later.id ▸ hne)] at hr
  exact h.opened.took he hr hid (fun hend => h.endsOnly'.endedWith (hid.symm ▸ hne) hend) htook

/-- In every step a session gets its source, or none does. -/
theorem Step.continues_or_takes (hstep : Step e e') (he : Reachable e) :
    Continues e e' ∨ ∃ s, Takes e e' s := by
  have he' := he.step hstep
  cases hstep.footprint he.inOrder with
  | opened hopen hends =>
    refine .inl ⟨hopen.spawns, .inl hopen.disk, fun hs htook => ?_⟩
    exact hopen.took he hs (he'.inOrder.registry.keyed hs) hends.endedWith htook
  | @deed e₁ s s' d' asked hon hdeed hdisk hspawns =>
    have hproper := hon.opened.proper (fun _ _ => he.proper) hon.stored
    have hidle : s.phase = .idle → ∀ {r}, e.sessions.get? s'.id = some r → r.phase = .idle :=
      fun hidle _ hr => (hon.before hr).phase ▸ hidle
    cases hdeed with
    | overtaken _ hphase hs' =>
      refine .inl ⟨hspawns.trans (List.append_nil _), .inl hdisk, fun {id r} hr htook => ?_⟩
      refine hon.took he he' hr (fun hid => ?_) htook
      -- It was overtaken, so it has not got its source.
      obtain rfl := Option.some.inj (hon.stored'.symm.trans (hid ▸ hr))
      subst hs'
      exact absurd htook (not_took_overtaken hproper hphase)
    | unsaved hc hphase hsave hs' =>
      exact .inr ⟨s', hon.stored', hon.newest hc, hidle hphase, hon.not_endedWith, .inl hs'.setOut,
        hon.endsOnly', hon.alone', hon.others, .inr (.inl ⟨fun d => (hon.saves _ d).not.2 (hsave d),
          hdisk, hspawns.trans (List.append_nil _), hs'⟩)⟩
    | spoiled hc hphase hspoil hs' =>
      have hphase' : s'.phase = .idle := hs' ▸ hphase
      obtain ⟨fault, hend⟩ := hon.ended hphase'
      exact .inr ⟨s', hon.stored', hon.newest hc, hidle hphase, hon.not_endedWith,
        .inr ⟨hphase', fault, hon.later.id ▸ hend⟩, hon.endsOnly', hon.alone', hon.others,
        .inr (.inr ⟨hdisk ▸ (hon.spoils _ _).2 hspoil, hspawns.trans (List.append_nil _), hphase'⟩)⟩
    | @setsOut d₁ _ _ hc hphase hsave hlitter hasked hset =>
      refine .inr ⟨s', hon.stored', hon.newest hc, hidle hphase, hon.not_endedWith, .inl hset,
        hon.endsOnly', hon.alone', hon.others,
        .inl ⟨d₁, (hon.saves _ d₁).2 hsave, hdisk ▸ hlitter, ?_⟩⟩
      rcases hasked with rfl | ⟨command, rfl⟩
      · exact .inl (hspawns.trans (List.append_nil _))
      · exact .inr ⟨command, by rw [hspawns, hon.later.id, hon.later.source]⟩
    | goesOn hunder hlitter =>
      have hset := hunder.setOut
      obtain ⟨r, hr, ha⟩ := hon.opened.of_setOut hon.stored hset
      have hr' : e.sessions.get? s'.id = some r := hon.later.id ▸ hr
      refine .inl ⟨hspawns.trans (List.append_nil _), .inr ⟨r, s', hr', ha.setOut.1 hset,
        hon.stored', hdisk ▸ hlitter⟩, fun {id _} hs htook => ?_⟩
      by_cases hid : id = s'.id
      · exact ⟨r, hid ▸ hr', .inl (ha.setOut.1 hset)⟩
      · exact hon.took he he' hs hid htook

/-! ## The order of the sessions -/

/-- A session that gets its source in a step had not got it before. -/
theorem Takes.not_took (h : Takes e e' s) (hr : e.sessions.get? s.id = some r) (hid : r.id = s.id) :
    ¬e.Took r := by
  rintro (hset | ⟨-, fault, hend⟩)
  · exact hset.1 (h.idle hr)
  · exact h.going (hid ▸ hend)

/-- No two sessions get their sources in one step. -/
theorem Takes.unique (h : Takes e e' s) (h' : Takes e e' r) : r = s := by
  by_cases hid : r.id = s.id
  · exact Option.some.inj (h'.stored.symm.trans (hid ▸ h.stored))
  · have hidle : r.phase = .idle := by
      rcases h.others h'.stored hid with ⟨r₀, hr₀, ha⟩ | hfresh
      · exact ha.phase.trans (h'.idle hr₀)
      · exact hfresh.phase
    rcases h'.took with hset | ⟨-, fault, hend⟩
    · exact absurd hidle hset.1
    · exact absurd (h.endsOnly.endedWith hid hend) h'.going

/-- A session gets its source after all that have got it have smaller numbers. -/
theorem Takes.lt (h : Takes f f' s) (hf : Reachable f) (hstep : Step f f')
    (hr : f.sessions.get? r.id = some r) (htook : f.Took r) (hsource : r.source = s.source) :
    r.id < s.id := by
  obtain ⟨r', hr', hl⟩ := (hstep.footprint hf.inOrder).later hr
  have hle := h.newest r.id r' hr' (hl.source.trans hsource)
  have hne : r.id ≠ s.id := fun hid => h.not_took (hid ▸ hr) hid htook
  omega

/-- There is a newer session of the source. -/
def Overtaken (e : Engine) (s : Session) : Prop :=
  ∃ n r, e.sessions.get? n = some r ∧ r.source = s.source ∧ s.id < n

/-- A session that is overtaken before it gets its source does not get it. -/
theorem Footprint.passed (h : Footprint e e')
    (hproper : ∀ id s, e.sessions.get? id = some s → s.Proper e.settings)
    (hs : e.sessions.get? s.id = some s) (htook : ¬e.Took s) (hover : e.Overtaken s) :
    ∃ s', e'.sessions.get? s.id = some s' ∧ s.Later s' ∧ ¬e'.Took s' ∧ e'.Overtaken s' := by
  obtain ⟨s', hs', hl⟩ := h.later hs
  have hover' : e'.Overtaken s' := by
    obtain ⟨n, r, hr, hsource, hlt⟩ := hover
    obtain ⟨r', hr', hl'⟩ := h.later hr
    exact ⟨n, r', hr', by rw [hl'.source, hl.source, hsource], hl.id ▸ hlt⟩
  refine ⟨s', hs', hl, ?_, hover'⟩
  -- It could get its source only by going on in this step, and for that it would have to be
  -- current.
  cases h with
  | opened hopen hends =>
    obtain ⟨s₁, hs₁, ha⟩ := hopen.kept hs
    obtain rfl := Option.some.inj (hs₁.symm.trans hs')
    exact fun htook' => htook (htook'.before ha hends.endedWith)
  | @deed e₁ t t' _ _ hon hdeed =>
    by_cases hid : s.id = t'.id
    · have ha := hon.before (hid ▸ hs)
      obtain rfl := Option.some.inj (hon.stored'.symm.trans (hid ▸ hs'))
      -- The newer session outnumbers it also after the opening.
      have hnot : ¬e₁.isCurrent t := by
        intro hc
        obtain ⟨n, r, hr, hsource, hlt⟩ := hover
        obtain ⟨r₁, hr₁, ha'⟩ := hon.opened.kept hr
        have := hon.registry.isNewest hc n r₁ hr₁ (by rw [ha'.source, hsource, ha.source])
        rw [ha.id] at this
        omega
      cases hdeed with
      | overtaken _ hphase ht' =>
        subst ht'
        exact not_took_overtaken (hon.opened.proper hproper hon.stored) hphase
      | unsaved hc | spoiled hc | setsOut hc => exact absurd hc hnot
      | goesOn hunder => exact absurd (.inl (ha.setOut.1 hunder.setOut)) htook
    · obtain ⟨s₁, hs₁, ha⟩ := hon.opened.kept hs
      rw [hon.sessions, if_neg (hon.later.id ▸ hid)] at hs'
      obtain rfl := Option.some.inj (hs₁.symm.trans hs')
      exact fun htook' => htook (htook'.before ha fun hend =>
        hon.endsOnly'.endedWith (ha.id.symm ▸ hid) hend)

/-- A session that was overtaken before it got its source never gets it. -/
theorem Steps.passed (h : Reachable e) (hsteps : Steps e f) (hs : e.sessions.get? s.id = some s)
    (htook : ¬e.Took s) (hover : e.Overtaken s) :
    ∃ s', f.sessions.get? s.id = some s' ∧ s.Later s' ∧ ¬f.Took s' ∧ f.Overtaken s' := by
  induction hsteps with
  | refl => exact ⟨s, hs, (Session.Alike.refl s).later, htook, hover⟩
  | tail hsteps hstep ih =>
    obtain ⟨s₁, hs₁, hl₁, htook₁, hover₁⟩ := ih
    have hb := h.steps hsteps
    obtain ⟨s', hs', hl, htook', hover'⟩ := (hstep.footprint hb.inOrder).passed
      (fun _ _ => hb.proper) (hl₁.id.symm ▸ hs₁) htook₁ hover₁
    exact ⟨s', hl₁.id ▸ hs', hl₁.trans hl, htook', hover'⟩

/-! ## What is left on the disk -/

/-- A session whose compiler has exited in this step has left no listing, unless the system keeps
    it. -/
theorem Footprint.kept (h : Footprint e e')
    (hproper : ∀ id s, e.sessions.get? id = some s → s.Proper e.settings)
    (hs : e'.sessions.get? s.id = some s) (hp : s.process.isSome) (hfinal : s.phase.isFinal)
    (hbefore : ∀ r, e.sessions.get? s.id = some r → ¬r.phase.isFinal)
    (hfile : e'.disk.HasFile s.listing) : e.disk.denials.Keeps s.listing := by
  have hcame : ¬((∃ r, e.sessions.get? s.id = some r ∧ r.Alike s) ∨ s.Fresh e.settings) := by
    rintro (⟨r, hr, ha⟩ | hfresh)
    · exact hbefore r hr (ha.phase ▸ hfinal)
    · simp [hfresh.process] at hp
  cases h with
  | opened hopen => exact absurd ((hopen.came hs).imp_right And.right) hcame
  | @deed e₁ t t' _ _ hon hdeed hdisk =>
    by_cases hid : s.id = t'.id
    · obtain rfl := Option.some.inj (hon.stored'.symm.trans (hid ▸ hs))
      have hproper' := hon.opened.proper hproper hon.stored
      exact hdeed.kept hproper' hp hfinal (hdisk ▸ hfile)
    · exact absurd (hon.others hs hid) hcame

/-- A listing is on the disk only while a session is running, unless the system keeps it. -/
def Swept (e : Engine) : Prop :=
  ∀ id r, e.sessions.get? id = some r → r.process.isSome → r.listing ≠ r.source →
    e.disk.HasFile r.listing → e.disk.denials.Keeps r.listing ∨
      ∃ id s, e.sessions.get? id = some s ∧ s.phase = .running

/-- A step keeps the listing swept, if all sessions are made for one source. -/
theorem Footprint.swept (h : Footprint e e') (he : Reachable e) (he' : Reachable e') {source : Path}
    (hsole : ∀ id s, e'.sessions.get? id = some s → s.source = source) (hswept : e.Swept) :
    e'.Swept := by
  have hdenials := h.denials
  intro id r hr hp hne hfile
  have hrp := he'.proper hr
  -- The sessions have one listing, as they have one source.
  have hlisting : ∀ {id s}, e'.sessions.get? id = some s → s.listing = r.listing := fun hs =>
    hrp.listing_eq (he'.proper hs) ((hsole _ _ hs).trans (hsole _ _ hr).symm)
  -- What is swept before the step, said of the session as it is after it.
  have hbefore : ∀ {r₀}, e.sessions.get? id = some r₀ → r₀.Alike r → e.disk.HasFile r.listing →
      e'.disk.denials.Keeps r.listing ∨ ∃ v u, e.sessions.get? v = some u ∧ u.phase = .running :=
    fun hr₀ ha hfile => by
      rw [hdenials, ha.listing]
      exact hswept _ _ hr₀ (ha.process_isSome.1 hp) (by rwa [← ha.listing, ← ha.source])
        (ha.listing ▸ hfile)
  cases h with
  | opened hopen =>
    rcases hopen.came hr with ⟨r₀, hr₀, ha⟩ | ⟨-, hfresh⟩
    · refine (hbefore hr₀ ha (hopen.disk ▸ hfile)).imp_right fun ⟨v, u, hu, hrun⟩ => ?_
      obtain ⟨u', hu', ha'⟩ := hopen.kept hu
      exact ⟨v, u', hu', ha'.phase.trans hrun⟩
    · simp [hfresh.process] at hp
  | @deed e₁ s s' d' _ hon hdeed hdisk =>
    have hs := hon.opened.proper (fun _ _ => he.proper) hon.stored
    by_cases hs' : s'.process.isSome
    · by_cases hfinal : s'.phase.isFinal
      · refine .inl (hdenials ▸ hlisting hon.stored' ▸ hdeed.kept hs hs' hfinal ?_)
        rwa [← hdisk, hlisting hon.stored']
      · obtain ⟨t, task, ht, hid⟩ := he'.inOrder.schedule.carried hon.stored'
        have hfits := he'.inOrder.schedule.fits (free_none t) ⟨ht, hid ▸ hon.stored'⟩
        exact .inr ⟨_, s', hon.stored', hfits.running hs' hfinal⟩
    · have hnone : s'.process = none := by simpa using hs'
      have hid : id ≠ s'.id := by
        rintro rfl
        obtain rfl := Option.some.inj (hon.stored'.symm.trans hr)
        exact hs' hp
      rcases hon.others hr hid with ⟨r₀, hr₀, ha⟩ | hfresh
      · have hsource : s.source = r.source :=
          hon.later.source.symm.trans ((hsole _ _ hon.stored').trans (hsole _ _ hr).symm)
        have hhad : e.disk.HasFile r.listing := hdeed.hasFile hnone hrp.plain_listing hs.plain
          (hsource ▸ hne.symm) (hdisk ▸ hfile)
        refine (hbefore hr₀ ha hhad).imp_right fun ⟨v, u, hu, hrun⟩ => ?_
        obtain ⟨u', hu', hrun'⟩ := hon.running hdeed hnone hu hrun
        exact ⟨v, u', hu', hrun'⟩
      · simp [hfresh.process] at hp

/-- A listing is on the disk only while a session of the one source runs, unless the system keeps
    it. -/
theorem Reachable.swept (h : Reachable e) {source : Path}
    (hsole : ∀ id s, e.sessions.get? id = some s → s.source = source) : e.Swept := by
  induction h with
  | create hcreate =>
    obtain ⟨compiler, log, rfl⟩ := create_eq hcreate
    intro id r hr
    simp at hr
  | @step e e' h hstep ih =>
    have hf := hstep.footprint h.inOrder
    refine hf.swept h (h.step hstep) hsole (ih fun id s hs => ?_)
    obtain ⟨s', hs', hl⟩ := hf.later hs
    exact hl.source.symm.trans (hsole id s' hs')

/-- A session does not start on the listing of one that came before it, unless the system keeps
    the file, or hid it from a session that stays running for that. -/
theorem Takes.kept (h : Takes e e' s) (he : Reachable e) (hstep : Step e e')
    (hsole : ∀ id r, e.sessions.get? id = some r → r.source = s.source)
    (hr : e.sessions.get? id = some r) (hp : r.process.isSome) (hne : r.listing ≠ r.source)
    (hfile : e.disk.HasFile r.listing) :
    e.disk.denials.Keeps r.listing ∨ ∃ fault, e.disk.denials.Hides r.listing fault := by
  refine (he.swept hsole _ _ hr hp hne hfile).imp_right fun ⟨v, u, hu, hrun⟩ => ?_
  have hf := hstep.footprint he.inOrder
  have hv : v ≠ s.id := by
    rintro rfl
    simp [h.idle hu] at hrun
  obtain ⟨u', hu', hl⟩ := hf.later hu
  have hset : u.SetOut := Session.setOut_of_phase (by simp [hrun]) (by simp [hrun])
  have hbusy : u'.phase = .running :=
    (alike_of_came hu hset hl (h.others hu' hv)).phase.trans hrun
  have hlisting : u'.listing = r.listing := hl.listing.trans
    ((he.proper hr).listing_eq (he.proper hu) ((hsole _ _ hu).trans (hsole _ _ hr).symm))
  -- The session has its source to itself, so the one that is running is stranded.
  rcases h.alone hu' (hl.source.trans (hsole _ _ hu)) hv with hidle | ⟨_, outcome, hleft⟩
  · simp [hidle] at hbusy
  · obtain ⟨-, fault, hhides, -⟩ :=
      (hleft.stranded (.inr (.inl hbusy))).unseen_of_running (.inl hbusy)
    rw [hf.surroundings, hlisting] at hhides
    exact ⟨fault, hhides⟩

/-! ## Taking turns -/

/-- A session that is overtaken before it gets its source asks for no compiler, and ends
    overtaken. -/
theorem Steps.never_takes (h : Reachable e) (hsteps : Steps e f)
    (hs : e.sessions.get? s.id = some s) (htook : ¬e.Took s) (hover : e.Overtaken s) :
    (∀ asked ∈ f.spawns, asked.session ≠ s.id) ∧
    (∀ f' r, Step f f' → Takes f f' r → r.id ≠ s.id) ∧
    ∃ s', f.sessions.get? s.id = some s' ∧ ¬f.Took s' ∧
      (f.ready = [] → Quiet f → s'.phase = .superseded) := by
  have hf := h.steps hsteps
  obtain ⟨s', hs', hl, htook', hover'⟩ := Steps.passed h hsteps hs htook hover
  -- All three rest on its having been passed for good.
  refine ⟨fun asked hasked hid => ?_, fun f' r hstep hr hid => ?_, s', hs', htook',
    fun hready hquiet => ?_⟩
  · obtain ⟨s₁, hs₁, hset₁⟩ := hf.asked_setOut hasked
    obtain rfl := Option.some.inj (hs'.symm.trans (hid ▸ hs₁))
    exact htook' (.inl hset₁)
  · obtain ⟨s₁, hs₁, -, htook₁, -⟩ :=
      Steps.passed hf (.single hstep) (hl.id.symm ▸ hs') htook' hover'
    obtain rfl := Option.some.inj (hr.stored.symm.trans (hid.trans hl.id.symm ▸ hs₁))
    exact htook₁ hr.took
  · obtain ⟨t, task, ht, hid⟩ := hf.inOrder.schedule.carried hs'
    have hcarries : f.Carries t task s' := ⟨ht, hid ▸ hs'⟩
    obtain ⟨outcome, hstage, hleft⟩ :=
      (hf.inOrder.schedule.fits (free_none t) hcarries).left_of_ended
        (ended_of_quiet hf.inOrder hready hquiet hcarries)
    rcases Session.not_setOut.1 fun hset => htook' (.inl hset) with hidle | ⟨hphase, -⟩
    · -- Its check has ended where it was made, so its text was none and it got its source.
      obtain ⟨_, fault, -, -, hend⟩ := hleft.of_idle hidle
      exact absurd (.inr ⟨hidle, fault, t, task, ht, hid.trans hl.id.symm,
        hstage.trans (congrArg Stage.ended (Progress.ends.inj hend))⟩) htook'
    · exact hphase

/-- Where the task of a session with a process has ended in this step, it has left no listing,
    unless the system keeps the file, or hides it. -/
theorem Step.kept (hstep : Step e e') (h : Reachable e) {t : TaskId} {task : Task}
    (ht : e'.Carries t task s) (hended : task.stage.isEnded) (hp : s.process.isSome)
    (hbefore : ∀ r, e.sessions.get? s.id = some r → ¬r.phase.isFinal)
    (hfile : e'.disk.HasFile s.listing) :
    e.disk.denials.Keeps s.listing ∨
      s.phase = .running ∧ ∃ fault, e.disk.denials.Hides s.listing fault := by
  have he' := h.step hstep
  have hf := hstep.footprint h.inOrder
  have hs : e'.sessions.get? s.id = some s := he'.inOrder.registry.stored ht.2
  have hkept := fun hfinal => hf.kept (fun _ _ => h.proper) hs hp hfinal hbefore hfile
  obtain ⟨outcome, -, hleft⟩ := (he'.inOrder.schedule.fits (free_none t) ht).left_of_ended hended
  rw [hf.surroundings] at hleft
  cases hleft with
  | finished hfinal => exact .inl (hkept hfinal)
  | unwritable _ _ _ hnone | uncallable _ _ hnone | rejected _ _ hnone => simp [hnone] at hp
  | unseen hhides hphase => exact .inr ⟨hphase, _, hhides⟩
  | null _ hphase => exact .inl (hkept (by rw [hphase]; rfl))
  | untold _ hphase =>
    exact .inl (hkept (by rcases hphase with hphase | hphase <;> rw [hphase] <;> rfl))

end Engine

end LiveCheck
