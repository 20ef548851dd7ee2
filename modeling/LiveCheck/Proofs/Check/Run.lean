import LiveCheck.Check.Control

/-!
# Runs of the engine

A *step* of the engine (`Step`) is one thing that happens without interruption: a check begins, and
its task takes its first turn; a task that can go on takes a turn; a compiler starts or exits; a
source or all sources are cancelled. Steps follow each other in any order, and which of several
tasks that can go on does so is left open. A state is *reachable* if steps lead to it from a new
engine (`Reachable`).

In a *run* (`Run`) all tasks that can go on do so before the next thing happens, the first one
first. Every state of a run is reachable (`Run.reachable`).
-/

namespace LiveCheck.Engine

/-- A step of the engine. -/
inductive Step (e : Engine) : Engine → Prop
  /-- The check of a source begins. -/
  | check {e' : Engine} {s : Session} {path text receiver} (behaviour : Behaviour) :
      e.newSession path text receiver = (e', .ok s) → Step e (e'.beginCheck s.id behaviour).1
  /-- The check of a source is refused. -/
  | refuse {e' : Engine} {refusal : Refusal} {path text receiver} :
      e.newSession path text receiver = (e', .error refusal) → Step e e'
  /-- The start of a compiler that was held takes place, or fails. -/
  | start {e' : Engine} {id : Int} : e.openStart id = some e' → Step e e'
  /-- A compiler exits. -/
  | exit {e' : Engine} {id status : Int} : e.endProcess id status = some e' → Step e e'
  /-- The check of a source is cancelled. -/
  | cancel (source : Path) : Step e (e.cancelActive source)
  /-- All checks are cancelled. -/
  | shutdown : Step e e.cancelAll
  /-- A task that can go on takes a turn. -/
  | turn {t : TaskId} {earlier later : List TaskId} : e.ready = earlier ++ t :: later →
      Step e ({ e with ready := earlier ++ later }.resume t)

/-- The states that steps lead to from a new engine. -/
inductive Reachable : Engine → Prop
  | create {disk : Disk} {searchPath : List Text} {settings : Settings} {e : Engine} :
      Engine.create disk searchPath settings = .ok e → Reachable e
  | step {e e' : Engine} : Reachable e → Step e e' → Reachable e'

/-- The states of runs in which all tasks that can go on do so before the next thing happens. -/
inductive Run : Engine → Prop
  | create {disk : Disk} {searchPath : List Text} {settings : Settings} {e : Engine} :
      Engine.create disk searchPath settings = .ok e → Run e
  | check {e : Engine} (path : Text) (text : Option JsonString) (receiver : Receiver)
      (behaviour : Behaviour) : Run e → Run (e.check path text receiver behaviour).1
  | allowStart {e : Engine} (id : Int) : Run e → Run (e.allowStart id).1
  | allowExit {e : Engine} (id status : Int) : Run e → Run (e.allowExit id status).1
  | cancel {e e' : Engine} {path : Text} : Run e → e.cancel path = .ok e' → Run e'
  | shutdown {e : Engine} : Run e → Run e.shutdown

/-- What holds of a new engine and is preserved by every step holds in every reachable state. -/
theorem Reachable.preserves {P : Engine → Prop}
    (hcreate : ∀ disk searchPath settings e, Engine.create disk searchPath settings = .ok e → P e)
    (hstep : ∀ e e', P e → Step e e' → P e') {e : Engine} (h : Reachable e) : P e := by
  induction h with
  | create hc => exact hcreate _ _ _ _ hc
  | step _ hs ih => exact hstep _ _ ih hs

/-! ## Runs are made of steps -/

/-- What is preserved by every step is preserved when tasks take turns. -/
theorem drainFuel_preserves {P : Engine → Prop} (hstep : ∀ e e', P e → Step e e' → P e')
    (fuel : Nat) {e : Engine} (he : P e) : P (drainFuel fuel e) := by
  induction fuel generalizing e with
  | zero => exact he
  | succ fuel ih =>
    rw [drainFuel]
    split
    · exact he
    · rename_i t rest hready
      have hready : e.ready = [] ++ t :: rest := hready
      exact ih (hstep _ _ he (.turn hready))

/-- What every step preserves is preserved while all tasks that can go on do so. -/
theorem drain_preserves {P : Engine → Prop} (hstep : ∀ e e', P e → Step e e' → P e') {e : Engine}
    (he : P e) : P e.drain :=
  drainFuel_preserves hstep _ he

theorem Reachable.drain {e : Engine} (h : Reachable e) : Reachable e.drain :=
  drain_preserves (fun _ _ => Reachable.step) h

/-- The state after a check was asked for is reachable. -/
theorem Reachable.check {e : Engine} (h : Reachable e) (path : Text) (text : Option JsonString)
    (receiver : Receiver) (behaviour : Behaviour) :
    Reachable (e.check path text receiver behaviour).1 := by
  rw [Engine.check]
  split
  · exact h.step (.refuse ‹_›)
  · exact (h.step (.check behaviour ‹_›)).drain

theorem Reachable.followUp {e : Engine} (h : Reachable e) {o : Option Engine}
    (ho : ∀ e', o = some e' → Step e e') : Reachable (e.followUp o).1 := by
  cases o with
  | none => exact h
  | some e' => exact (h.step (ho e' rfl)).drain

/-- Cancelling by a path is cancelling a source. -/
theorem cancel_eq {e e' : Engine} {path : Text} (h : e.cancel path = .ok e') :
    ∃ source, e' = (e.cancelActive source).drain := by
  rw [Engine.cancel] at h
  cases hr : e.disk.resolved path with
  | error fault => simp [hr, Except.map] at h
  | ok source => exact ⟨source, by simpa [hr, Except.map] using h.symm⟩

/-- The states of runs are reachable. -/
theorem Run.reachable {e : Engine} (h : Run e) : Reachable e := by
  induction h with
  | create hc => exact .create hc
  | check path text receiver behaviour _ ih => exact ih.check path text receiver behaviour
  | allowStart id _ ih => exact ih.followUp fun _ => .start
  | allowExit id status _ ih => exact ih.followUp fun _ => .exit
  | cancel _ hc ih =>
    obtain ⟨source, rfl⟩ := cancel_eq hc
    exact (ih.step (.cancel source)).drain
  | shutdown _ ih => exact (ih.step .shutdown).drain

end LiveCheck.Engine
