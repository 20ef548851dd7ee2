import LiveCheck.Check.Control
import LiveCheck.Proofs.Table

/-!
# Tasks and their sessions

A task carries out the check of one session (`Carries`). Tasks are numbered in the order in which
they came, each has a session on record, and each session has one task (`Roster`).

What is on record of sessions and tasks may change as long as tasks keep their sessions
(`Roster.replace`, `Roster.rewrite`), and a task may come in with a session of its own
(`Roster.enrol`). For each of these, there is a lemma that tells what the tasks carry out then.
-/

namespace LiveCheck.Engine

variable {e e' : Engine}

/-- The task carries out the check of the session. -/
def Carries (e : Engine) (t : TaskId) (task : Task) (s : Session) : Prop :=
  e.tasks.get? t = some task ∧ e.sessions.get? task.session = some s

/-- A task carries out the check of one session. -/
theorem Carries.unique {t : TaskId} {a b : Task} {r s : Session} (ha : e.Carries t a r)
    (hb : e.Carries t b s) : a = b ∧ r = s := by
  obtain rfl := Option.some.inj (ha.1.symm.trans hb.1)
  exact ⟨rfl, Option.some.inj (ha.2.symm.trans hb.2)⟩

/-- Tasks and sessions belong together. -/
structure Roster (e : Engine) : Prop where
  numbered : e.tasks.keys = List.range e.tasks.keys.length
  owned : ∀ {t task}, e.tasks.get? t = some task → ∃ s, e.sessions.get? task.session = some s
  carried : ∀ {id s}, e.sessions.get? id = some s →
    ∃ t task, e.tasks.get? t = some task ∧ task.session = id
  alone : ∀ {t u a b}, e.tasks.get? t = some a → e.tasks.get? u = some b →
    a.session = b.session → t = u

/-- No task is on record twice. -/
theorem Roster.keys_nodup (h : Roster e) : e.tasks.keys.Nodup := h.numbered ▸ List.nodup_range

/-- A task is found by its session. -/
theorem Roster.carries_unique (h : Roster e) {t u : TaskId} {a b : Task} {r s : Session}
    (ha : e.Carries t a r) (hb : e.Carries u b s) (hid : a.session = b.session) :
    t = u ∧ a = b ∧ r = s := by
  obtain rfl := h.alone ha.1 hb.1 hid
  exact ⟨rfl, ha.unique hb⟩

/-! ## Replacing a session -/

/-- With another form of a session on record, its task carries that form. -/
theorem carries_replace {s s' : Session} (hstored : e.sessions.get? s.id = some s)
    (hs : ∀ id, e'.sessions.get? id = if id = s.id then some s' else e.sessions.get? id)
    (htasks : e'.tasks = e.tasks) {t : TaskId} {task : Task} {r : Session} :
    e'.Carries t task r ↔ (task.session = s.id ∧ r = s' ∧ e.Carries t task s) ∨
      (task.session ≠ s.id ∧ e.Carries t task r) := by
  unfold Carries
  rw [htasks, hs]
  by_cases hid : task.session = s.id
  · simp only [hid, hstored, if_true, ne_eq, not_true_eq_false, false_and, or_false, and_true,
      Option.some.injEq, true_and]
    exact ⟨fun h => ⟨h.2.symm, h.1⟩, fun h => ⟨h.2, h.1.symm⟩⟩
  · simp [hid]

/-- Tasks and sessions still belong together with another form of a session on record. -/
theorem Roster.replace (h : Roster e) {s s' : Session} (hstored : e.sessions.get? s.id = some s)
    (hs : ∀ id, e'.sessions.get? id = if id = s.id then some s' else e.sessions.get? id)
    (htasks : e'.tasks = e.tasks) : Roster e' := by
  constructor
  · exact htasks ▸ h.numbered
  · intro t task ht
    obtain ⟨r, hr⟩ := h.owned (htasks ▸ ht)
    rw [hs]
    split
    · exact ⟨s', rfl⟩
    · exact ⟨r, hr⟩
  · intro id r hr
    rw [hs] at hr
    rw [htasks]
    split at hr
    · exact h.carried (‹id = _› ▸ hstored)
    · exact h.carried hr
  · exact htasks ▸ h.alone

/-! ## Rewriting tasks -/

section Rewrite

variable {f : TaskId → Task → Task}
  (hf : ∀ {t a}, e.tasks.get? t = some a → (f t a).session = a.session)
  (htasks : ∀ t, e'.tasks.get? t = (e.tasks.get? t).map (f t))
  (hsessions : e'.sessions = e.sessions)

include hf htasks hsessions

/-- With the tasks rewritten, each carries the session that it did. -/
theorem carries_rewrite {t : TaskId} {b : Task} {r : Session} :
    e'.Carries t b r ↔ ∃ a, e.Carries t a r ∧ b = f t a := by
  rw [Carries, htasks, hsessions, Option.map_eq_some_iff]
  constructor
  · rintro ⟨⟨a, ha, rfl⟩, hr⟩
    exact ⟨a, ⟨ha, hf ha ▸ hr⟩, rfl⟩
  · rintro ⟨a, ⟨ha, hr⟩, rfl⟩
    exact ⟨⟨a, ha, rfl⟩, (hf ha).symm ▸ hr⟩

/-- Tasks and sessions still belong together when tasks are rewritten for their own sessions. -/
theorem Roster.rewrite (h : Roster e) (hkeys : e'.tasks.keys = e.tasks.keys) : Roster e' := by
  constructor
  · rw [hkeys]
    exact h.numbered
  · intro t b hb
    rw [htasks, Option.map_eq_some_iff] at hb
    obtain ⟨a, ha, rfl⟩ := hb
    rw [hsessions, hf ha]
    exact h.owned ha
  · intro id s hs
    obtain ⟨t, a, ha, hid⟩ := h.carried (hsessions ▸ hs)
    exact ⟨t, f t a, by rw [htasks, ha, Option.map_some], (hf ha).trans hid⟩
  · intro t u b c hb hc hbc
    rw [htasks, Option.map_eq_some_iff] at hb hc
    obtain ⟨b, hb, rfl⟩ := hb
    obtain ⟨c, hc, rfl⟩ := hc
    exact h.alone hb hc ((hf hb).symm.trans (hbc.trans (hf hc)))

end Rewrite

/-! ## A new task -/

section Enrol

variable {t : TaskId} {task : Task} {s : Session} (h : Roster e) (hsession : task.session = s.id)
  (ht : t = e.tasks.keys.length) (hfresh : e.sessions.get? s.id = none)
  (htasks : ∀ u, e'.tasks.get? u = if u = t then some task else e.tasks.get? u)
  (hsessions : ∀ id, e'.sessions.get? id = if id = s.id then some s else e.sessions.get? id)

include h hsession hfresh htasks hsessions

omit hsession htasks hsessions in
theorem Roster.session_ne {u : TaskId} {a : Task} (ha : e.tasks.get? u = some a) :
    a.session ≠ s.id := by
  intro hid
  obtain ⟨r, hr⟩ := h.owned ha
  simp [hid, hfresh] at hr

/-- With a new task for a new session, that task carries it, and the others carry what they did. -/
theorem Roster.carries_enrol {u : TaskId} {a : Task} {r : Session} : e'.Carries u a r ↔
    (u = t ∧ a = task ∧ r = s) ∨ (u ≠ t ∧ e.Carries u a r) := by
  rw [Carries]
  rw [htasks]
  by_cases hut : u = t
  · simp only [hut, if_true, Option.some.injEq, true_and, ne_eq, not_true_eq_false, false_and,
      or_false]
    constructor
    · rintro ⟨rfl, hr⟩
      rw [hsessions, if_pos hsession] at hr
      exact ⟨rfl, (Option.some.inj hr).symm⟩
    · rintro ⟨rfl, rfl⟩
      exact ⟨rfl, by rw [hsessions, if_pos hsession]⟩
  · simp only [hut, if_false, false_and, false_or, ne_eq, not_false_eq_true, true_and]
    refine and_congr_right fun hu => ?_
    rw [hsessions, if_neg (h.session_ne hfresh hu)]

include ht

omit hsession hfresh htasks hsessions in

/-- The number of a new task is not taken. -/
theorem Roster.not_enrolled : e.tasks.get? t = none := by
  by_contra hsome
  obtain ⟨a, ha⟩ := Option.ne_none_iff_exists'.1 hsome
  have hmem := (e.tasks.mem_keys_iff t).2 ⟨a, ha⟩
  rw [h.numbered, ht, List.mem_range] at hmem
  omega

/-- A task that was on record is not the new one, and carries what it did. -/
theorem Roster.carries_of_enrol {u : TaskId} {a : Task} {r : Session} (hu : e.Carries u a r) :
    u ≠ t ∧ e'.Carries u a r := by
  have hut : u ≠ t := by
    rintro rfl
    exact Option.some_ne_none _ (hu.1.symm.trans (h.not_enrolled ht))
  exact ⟨hut, (h.carries_enrol hsession hfresh htasks hsessions).2 (.inr ⟨hut, hu⟩)⟩

/-- What holds of a task besides the new one held of it before. -/
theorem Roster.exists_carried_enrol {u : TaskId} (P : Task → Session → Prop) :
    (t ≠ u ∧ ∃ a r, e'.Carries u a r ∧ P a r) ↔ ∃ a r, e.Carries u a r ∧ P a r := by
  constructor
  · rintro ⟨htu, a, r, hu, hgo⟩
    rcases (h.carries_enrol hsession hfresh htasks hsessions).1 hu with ⟨rfl, -, -⟩ | ⟨-, hu⟩
    · exact absurd rfl htu
    · exact ⟨a, r, hu, hgo⟩
  · rintro ⟨a, r, hu, hgo⟩
    obtain ⟨hut, hu⟩ := h.carries_of_enrol hsession ht hfresh htasks hsessions hu
    exact ⟨hut.symm, a, r, hu, hgo⟩

/-- Tasks and sessions still belong together with a new task for a new session. -/
theorem Roster.enrol (hkeys : e'.tasks.keys = e.tasks.keys ++ [t]) : Roster e' := by
  have hold : ∀ {u a}, e.tasks.get? u = some a → e'.tasks.get? u = some a := by
    intro u a ha
    rw [htasks, if_neg, ha]
    rintro rfl
    exact Option.some_ne_none _ (ha.symm.trans (h.not_enrolled ht))
  constructor
  · rw [hkeys, h.numbered, ht]
    simp [List.range_succ]
  · intro u a hu
    rw [htasks] at hu
    rw [hsessions]
    split at hu
    · obtain rfl := Option.some.inj hu
      exact ⟨s, if_pos hsession⟩
    · obtain ⟨r, hr⟩ := h.owned hu
      exact ⟨r, by rw [if_neg (h.session_ne hfresh hu), hr]⟩
  · intro id r hr
    rw [hsessions] at hr
    split at hr
    · exact ⟨t, task, by rw [htasks, if_pos rfl], hsession.trans ‹id = _›.symm⟩
    · obtain ⟨u, a, ha, hid⟩ := h.carried hr
      exact ⟨u, a, hold ha, hid⟩
  · intro u v a b ha hb hab
    rw [htasks] at ha hb
    split at ha <;> split at hb
    · exact ‹u = t›.trans ‹v = t›.symm
    · obtain rfl := Option.some.inj ha
      exact absurd (hab.symm.trans hsession) (h.session_ne hfresh hb)
    · obtain rfl := Option.some.inj hb
      exact absurd (hab.trans hsession) (h.session_ne hfresh ha)
    · exact h.alone ha hb hab

end Enrol

end LiveCheck.Engine
