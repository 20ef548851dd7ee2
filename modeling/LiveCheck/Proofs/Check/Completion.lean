import LiveCheck.Proofs.Check.Drain
import LiveCheck.Proofs.Check.Ledger

/-!
# Every check comes to an end

In a run, a task that has not ended waits for its compiler, or for a task that does: nothing else
holds up the head of a queue. So once no start of a compiler is held and no compiler is running, all
tasks have ended (`ended_of_quiet`) and no session is active (`active_of_quiet`).

How a task ended tells what became of its session (`Concluded`). There are three ways for a check to
end without a report or a newer check: the text of the source is none, the command cannot be handed
to the system, or the listing cannot be looked at.
-/

namespace LiveCheck

/-- How a check that has ended left its session. -/
inductive Concluded (around : Engine.Surroundings) (b : Behaviour) (s : Session) : Outcome → Prop
  /-- It reported. -/
  | reported : s.phase = .reported ∨ s.phase = .reportedEmpty → s.reports.length = 1 →
      Concluded around b s .done
  /-- It was overtaken. -/
  | overtaken : s.phase = .superseded → s.reports = [] → Concluded around b s .done
  /-- It was still the newest one, but its text was none. -/
  | unwritable {text fault} : s.text = some text → text.encode = .error fault → s.phase = .idle →
      s.reports = [] → Concluded around b s (.failed (.text fault))
  /-- It was still the newest one, but its command could not be handed to the system. -/
  | rejected {reason} : b.failedStart = some (.rejected reason) → s.phase = .spawning →
      s.reports = [] → Concluded around b s (.failed (.start reason))
  /-- It was still the newest one, but its listing could not be looked at. -/
  | unseen {fault} : around.denials.Hides s.listing fault → s.phase = .running → s.reports = [] →
      Concluded around b s (.failed (.disk fault))
  /-- It was overtaken, and the path of its listing holds a null character. -/
  | null : '\x00' ∈ s.listing.text → s.phase = .superseded → s.reports = [] →
      Concluded around b s (.failed (.disk .nullCharacter))
  /-- It reported, but its receiver failed and could not tell why. -/
  | untold {reason} : s.receiver.failure = some (.untold reason) →
      s.phase = .reported ∨ s.phase = .reportedEmpty → s.reports.length = 1 →
      Concluded around b s (.failed (.receiver reason))

namespace Engine

variable {e : Engine}

/-! ## When nothing is under way -/

/-- No start of a compiler is held, and no compiler is running. -/
structure Quiet (e : Engine) : Prop where
  unheld : ∀ {t task}, e.tasks.get? t = some task → task.startHeld ≠ some true
  rests : ∀ {id s}, e.sessions.get? id = some s → s.Rests

/-- Is nothing under way? -/
def quiet (e : Engine) : Bool :=
  e.tasks.values.all (fun task => task.startHeld ≠ some true) &&
    e.sessions.values.all fun s => s.process.all (!·.isRunning)

/-- An engine that checks quiet is quiet. -/
theorem quiet_of_check (h : e.quiet = true) : Quiet e := by
  rw [quiet, Bool.and_eq_true, List.all_eq_true, List.all_eq_true] at h
  refine ⟨fun ht => by simpa using h.1 _ (Table.mem_values_of_get? ht), fun hs p hp => ?_⟩
  simpa [hp] using h.2 _ (Table.mem_values_of_get? hs)

/-- When no task is about to go on, something holds up each of them. -/
theorem Schedule.not_canGoOn (h : Schedule none e) (hready : e.ready = []) {t : TaskId}
    {task : Task} {s : Session} (ht : e.Carries t task s) : ¬task.CanGoOn s := fun hgo => by
  have := h.mem_ready.2 ⟨free_none t, task, s, ht, hgo⟩
  simp [hready] at this

/-- The head of a queue waits for its compiler or can go on. -/
theorem Schedule.not_head (h : Schedule none e) (hready : e.ready = []) (hquiet : Quiet e)
    {t : TaskId} {task : Task} {s : Session} (ht : e.Carries t task s) :
    (e.queueOf s.source).head? ≠ some t := by
  intro hhead
  have hgo := h.not_canGoOn hready ht
  have hplaced : task.stage.Place (e.queueOf s.source) t := h.placed ht
  have hmem := List.mem_of_head? hhead
  cases h.fits (free_none t) ht with
  | queued hstage =>
    rcases hstage with hstage | hstage
    · -- What waits for its turn stands behind the head.
      rw [hstage] at hplaced
      obtain ⟨rest, hqueue⟩ := List.head?_eq_some_iff.1 hhead
      have hnodup := h.queue_nodup s.source
      rw [hqueue] at hnodup hplaced
      exact (List.nodup_cons.1 hnodup).1 hplaced
    · exact hgo (by simp [Task.CanGoOn, hstage])
  -- No start is held, so the compiler could start.
  | @starting held hstage hheld =>
    have := hquiet.unheld ht.1
    cases held <;> simp_all [Task.CanGoOn]
  | waiting hstage => exact hgo ((Task.canGoOn_waiting hstage).2 (hquiet.rests ht.2))
  | ended hstage =>
    rw [hstage] at hplaced
    exact hplaced hmem

/-- Once nothing is under way, all tasks have ended. -/
theorem ended_of_quiet (h : InOrder none e) (hready : e.ready = []) (hquiet : Quiet e) {t : TaskId}
    {task : Task} {s : Session} (ht : e.Carries t task s) : task.stage.isEnded := by
  have h := h.schedule
  have hplaced : task.stage.Place (e.queueOf s.source) t := h.placed ht
  have hnot := h.not_head hready hquiet ht
  -- A task that has not ended is at the head of its queue, or waits for the one that is; a quiet
  -- engine has no head.
  cases h.fits (free_none t) ht with
  | queued hstage =>
    rcases hstage with hstage | hstage
    · -- A task that waits for its turn waits for the head of its queue.
      rw [hstage] at hplaced
      cases hqueue : e.queueOf s.source with
      | nil =>
        rw [hqueue] at hplaced
        exact absurd hplaced List.not_mem_nil
      | cons head rest =>
        have hmem : head ∈ e.queueOf s.source := hqueue ▸ List.mem_cons_self
        obtain ⟨a, r, ha, hsource⟩ := h.queue_owned hmem
        refine absurd ?_ (h.not_head hready hquiet ha)
        rw [hsource, hqueue]
        rfl
    · rw [hstage] at hplaced
      exact absurd hplaced hnot
  | starting hstage | waiting hstage =>
    rw [hstage] at hplaced
    exact absurd hplaced hnot
  | ended hstage => rw [hstage]; rfl

/-- Once nothing is under way, no session is active. -/
theorem active_of_quiet (h : InOrder none e) (hready : e.ready = []) (hquiet : Quiet e) :
    e.active.entries = [] := by
  refine Table.entries_eq_nil fun source => ?_
  by_contra hsome
  obtain ⟨id, hid⟩ := Option.ne_none_iff_exists'.1 hsome
  obtain ⟨t, task, s, ht, -, -, hended⟩ := h.schedule.active hid
  simp [ended_of_quiet h hready hquiet ht] at hended

/-! ## What became of a session -/

/-- The ways in which a check ends, if the settings tell how to call the compiler. -/
theorem concluded (h : InOrder none e) (hl : Ledger e)
    (hwords : ∃ words, e.settings.directives = .ok words) {t : TaskId} {task : Task} {s : Session}
    (ht : e.Carries t task s) {outcome : Outcome} (hstage : task.stage = .ended outcome) :
    Concluded e.surroundings task.behaviour s outcome := by
  have hhonest := hl.honest ht.2
  have hnone : s.phase ≠ .reported → s.phase ≠ .reportedEmpty → s.reports = [] := fun h₁ h₂ =>
    hhonest.reports_eq_nil (by simpa [h₁, h₂] using hhonest.told.not)
  have hone : s.phase = .reported ∨ s.phase = .reportedEmpty → s.reports.length = 1 := by
    intro hphase
    rw [hhonest.once, hhonest.told.2 hphase, if_pos rfl]
  -- How its last turn left the task decides the phase of the session, and the phase the reports.
  obtain ⟨other, hother, hleft⟩ :=
    (h.schedule.fits (free_none t) ht).left_of_ended (by rw [hstage]; rfl)
  obtain rfl : outcome = other := Stage.ended.inj (hstage.symm.trans hother)
  cases hleft with
  | finished hfinal =>
    by_cases hphase : s.phase = .superseded
    · exact .overtaken hphase (hnone (by simp [hphase]) (by simp [hphase]))
    · have hreported : s.phase = .reported ∨ s.phase = .reportedEmpty := by
        simpa [Phase.isFinal, hphase] using hfinal
      exact .reported hreported (hone hreported)
  | unwritable htext hencode hphase =>
    exact .unwritable htext hencode hphase (hnone (by simp [hphase]) (by simp [hphase]))
  | uncallable hdirectives =>
    obtain ⟨words, hwords⟩ := hwords
    simp [surroundings, hwords] at hdirectives
  | rejected hfailed hphase =>
    exact .rejected hfailed hphase (hnone (by simp [hphase]) (by simp [hphase]))
  | unseen hhides hphase =>
    exact .unseen hhides hphase (hnone (by simp [hphase]) (by simp [hphase]))
  | null hnull hphase =>
    exact .null hnull hphase (hnone (by simp [hphase]) (by simp [hphase]))
  | untold hfailure hphase => exact .untold hfailure hphase (hone hphase)

/-- A list of strings tells how to call the compiler. -/
theorem directives_of_strings {settings : Settings} {words : List JsonString}
    (h : settings.getOrDefault "directives" = .list (words.map .string)) :
    settings.directives = .ok (words.map .string) := by
  rw [Settings.directives, h]
  rfl

end Engine

end LiveCheck
