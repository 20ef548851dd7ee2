import LiveCheck.Watch
import Mathlib.Algebra.Order.Group.Int
import Mathlib.Algebra.Order.Group.Unbundled.Basic

/-!
# Saves that trigger

Of the events that a watch takes, only the saves of its file matter (`Notice.Saves`): any other
event leaves the watch as it is, also one whose path cannot be resolved (`Watch.take_of_not_saves`).
A save calls the receiver if the last call is longer ago than the window (`Watch.take_of_saves`),
and nothing but a call moves the time of the last one.

So the calls lie apart by more than the window (`Watch.calls_pairwise`), and each save has a call
that is not longer ago than the window (`Watch.covered`). The main theorem puts this together for a
watch that was never triggered (`Watch.calls_of_saves`).
-/

namespace LiveCheck

/-- An event as a watch takes it. -/
structure Notice (T : Type) where
  /-- What happened. -/
  event : FileEvent
  /-- The disk at that moment. -/
  disk : Disk
  /-- What the clock shows. -/
  time : T

/-- The event is a save of a file: it did not happen to a directory, and the path whose contents are
    new leads to the file. -/
def Notice.Saves {T : Type} (n : Notice T) (target : Path) : Prop :=
  n.event.onDirectory = false ∧ n.disk.resolved n.event.renewed = .ok target

instance {T : Type} (n : Notice T) (target : Path) : Decidable (n.Saves target) :=
  inferInstanceAs (Decidable (_ ∧ _))

namespace Watch

variable {T : Type}

section Take

variable [Sub T] [LT T] [DecidableRel (fun a b : T => a < b)] {w : Watch T} {n : Notice T}

/-- Takes an event, and tells whether it triggers. Where its path cannot be resolved, nothing
    changes. -/
def take (w : Watch T) (n : Notice T) : Watch T × Bool :=
  match w.observe n.disk n.event n.time with
  | .ok outcome => outcome
  | .error _ => (w, false)

/-- The watch after some events. -/
def after (w : Watch T) (ns : List (Notice T)) : Watch T := ns.foldl (fun w n => (w.take n).1) w

/-- The calls of the receiver that events bring about, each with the event and with the path that
    the receiver is given. -/
def calls (w : Watch T) : List (Notice T) → List (Notice T × Path)
  | [] => []
  | n :: rest => (if (w.take n).2 then [(n, w.target)] else []) ++ (w.take n).1.calls rest

omit [Sub T] [LT T] [DecidableRel fun a b : T => a < b] in
theorem matchesEvent_eq_true : w.matchesEvent n.disk n.event = .ok true ↔ n.Saves w.target := by
  rw [matchesEvent, Notice.Saves]
  split
  · simp [*]
  · cases n.disk.resolved n.event.renewed <;> simp [*, Except.map]

/-- A save that comes late enough triggers; any other event leaves the watch as it is. -/
theorem take_cases (w : Watch T) (n : Notice T) :
    (n.Saves w.target ∧ w.window < n.time - w.last ∧
        w.take n = ({ w with last := n.time }, true)) ∨
      (¬(n.Saves w.target ∧ w.window < n.time - w.last) ∧ w.take n = (w, false)) := by
  rw [← matchesEvent_eq_true, take, observe]
  cases w.matchesEvent n.disk n.event with
  | error fault => exact .inr ⟨fun ⟨h, _⟩ => (nomatch h), rfl⟩
  | ok saves =>
    by_cases h : saves = true ∧ w.window < n.time - w.last
    · exact .inl ⟨congrArg _ h.1, h.2, by simp [bind, Except.bind, pure, Except.pure, h]⟩
    · exact .inr ⟨fun hn => h ⟨Except.ok.inj hn.1, hn.2⟩,
        by simp [bind, Except.bind, pure, Except.pure, h]⟩

theorem take_of_not_saves (h : ¬n.Saves w.target) : w.take n = (w, false) := by
  rcases w.take_cases n with ⟨hsaves, -, -⟩ | ⟨-, htake⟩
  · exact absurd hsaves h
  · exact htake

theorem take_of_saves (h : n.Saves w.target) (hlate : w.window < n.time - w.last) :
    w.take n = ({ w with last := n.time }, true) := by
  rcases w.take_cases n with ⟨-, -, htake⟩ | ⟨hnot, -⟩
  · exact htake
  · exact absurd ⟨h, hlate⟩ hnot

theorem take_target (w : Watch T) (n : Notice T) : (w.take n).1.target = w.target := by
  rcases w.take_cases n with ⟨-, -, htake⟩ | ⟨-, htake⟩ <;> rw [htake]

/-! ## Events that do not matter -/

theorem calls_append (w : Watch T) (ns ms : List (Notice T)) :
    w.calls (ns ++ ms) = w.calls ns ++ (w.after ns).calls ms := by
  induction ns generalizing w with
  | nil => rfl
  | cons n rest ih => rw [List.cons_append, calls, ih, calls, List.append_assoc]; rfl

/-- Events that are no saves may be left out. -/
theorem filter_saves (w : Watch T) (ns : List (Notice T)) :
    w.after (ns.filter (·.Saves w.target)) = w.after ns ∧
      w.calls (ns.filter (·.Saves w.target)) = w.calls ns := by
  induction ns generalizing w with
  | nil => exact ⟨rfl, rfl⟩
  | cons n rest ih =>
    have hrest := ih (w.take n).1
    rw [take_target] at hrest
    by_cases h : n.Saves w.target
    · rw [List.filter_cons_of_pos (by simpa using h)]
      exact ⟨hrest.1, by rw [calls, hrest.2, calls]⟩
    · rw [List.filter_cons_of_neg (by simpa using h), calls]
      rw [take_of_not_saves h] at hrest ⊢
      refine ⟨?_, hrest.2⟩
      rw [hrest.1, after, after, List.foldl_cons, take_of_not_saves h]

/-- Only saves call the receiver, in their order, and it gets the path of the watched file. -/
theorem calls_sublist (w : Watch T) (ns : List (Notice T)) :
    (w.calls ns).Sublist ((ns.filter (·.Saves w.target)).map (·, w.target)) := by
  induction ns generalizing w with
  | nil => exact List.Sublist.refl _
  | cons n rest ih =>
    have hrest := ih (w.take n).1
    rw [take_target] at hrest
    rw [calls]
    rcases w.take_cases n with ⟨hsaves, -, htake⟩ | ⟨-, htake⟩
    · rw [List.filter_cons_of_pos (by simpa using hsaves), List.map_cons, htake]
      rw [htake] at hrest
      exact hrest.cons_cons _
    · rw [htake] at hrest ⊢
      exact hrest.trans ((List.Sublist.filter _ (List.sublist_cons_self n rest)).map _)

end Take

/-! ## Calls and times -/

variable [AddCommGroup T] [LinearOrder T] [IsOrderedAddMonoid T] {w : Watch T} {n : Notice T}
  {ns : List (Notice T)}

/-- A call comes later after the last one than the window is long. -/
theorem window_lt_of_mem_calls (hwindow : 0 ≤ w.window) {c : Notice T × Path}
    (hc : c ∈ w.calls ns) : w.window < c.1.time - w.last := by
  induction ns generalizing w with
  | nil => cases hc
  | cons n rest ih =>
    rw [calls] at hc
    rcases w.take_cases n with ⟨-, hlate, htake⟩ | ⟨-, htake⟩
    · rw [htake] at hc
      rcases List.mem_append.1 hc with hc | hc
      · exact List.mem_singleton.1 hc ▸ hlate
      · have hmore : w.window < c.1.time - n.time := ih (w := { w with last := n.time }) hwindow hc
        calc w.window < c.1.time - n.time := hmore
          _ ≤ c.1.time - n.time + (n.time - w.last) :=
            le_add_of_nonneg_right (hwindow.trans hlate.le)
          _ = c.1.time - w.last := sub_add_sub_cancel _ _ _
    · rw [htake] at hc
      exact ih hwindow hc

/-- The calls lie apart by more than the window. -/
theorem calls_pairwise (hwindow : 0 ≤ w.window) (ns : List (Notice T)) :
    (w.calls ns).Pairwise fun b c => w.window < c.1.time - b.1.time := by
  induction ns generalizing w with
  | nil => exact List.Pairwise.nil
  | cons n rest ih =>
    rw [calls]
    rcases w.take_cases n with ⟨-, hlate, htake⟩ | ⟨-, htake⟩
    · rw [htake]
      exact List.pairwise_cons.2
        ⟨fun c hc => window_lt_of_mem_calls (w := { w with last := n.time }) hwindow hc,
          ih (w := { w with last := n.time }) hwindow⟩
    · rw [htake]
      exact ih hwindow

/-- A save has a call that is not longer ago than the window, unless the last call before all events
    is one. -/
theorem covered (hwindow : 0 ≤ w.window) (hn : n.Saves w.target) {before : List (Notice T)}
    (hclock : ∀ m ∈ before, m.Saves w.target → m.time ≤ n.time) :
    n.time - w.last ≤ w.window ∨ ∃ c ∈ w.calls (before ++ [n]),
      n.time - w.window ≤ c.1.time ∧ c.1.time ≤ n.time := by
  induction before generalizing w with
  | nil =>
    by_cases hlate : w.window < n.time - w.last
    · refine .inr ⟨(n, w.target), ?_, sub_le_self _ hwindow, le_refl _⟩
      rw [List.nil_append, calls, take_of_saves hn hlate]
      exact List.mem_cons_self
    · exact .inl (not_lt.1 hlate)
  | cons m rest ih =>
    have hrest : ∀ k ∈ rest, k.Saves w.target → k.time ≤ n.time :=
      fun k hk => hclock k (List.mem_cons_of_mem _ hk)
    rw [List.cons_append, calls]
    rcases w.take_cases m with ⟨hm, -, htake⟩ | ⟨-, htake⟩
    · rw [htake]
      -- The call at this event is near enough, or a later one is.
      rcases ih (w := { w with last := m.time }) hwindow hn hrest with hnear | ⟨c, hc, hnear⟩
      · exact .inr ⟨(m, w.target), List.mem_cons_self, sub_le_comm.1 hnear,
          hclock m List.mem_cons_self hm⟩
      · exact .inr ⟨c, List.mem_cons_of_mem _ hc, hnear⟩
    · rw [htake]
      exact ih hwindow hn hrest

/-- **Saves trigger exactly when they should.** Take a watch that was not triggered yet, and any
    events, with a clock that does not go back between the saves among them and that is beyond the
    window at the first one. Only saves call the receiver, each once at most and in their order, and
    it gets the path of the watched file. The first save calls it. Calls lie apart by more than the
    window. Every save has a call by then that is not longer ago than the window. All other events
    may be left out: they change neither the calls nor the watch. -/
theorem calls_of_saves (hlast : w.last = 0) (hwindow : 0 ≤ w.window)
    (hclock : (ns.filter (·.Saves w.target)).Pairwise (·.time ≤ ·.time))
    (hfirst : ∀ n, (ns.filter (·.Saves w.target)).head? = some n → w.window < n.time) :
    (w.calls ns).Sublist ((ns.filter (·.Saves w.target)).map (·, w.target)) ∧
    (∀ n, (ns.filter (·.Saves w.target)).head? = some n →
      (w.calls ns).head? = some (n, w.target)) ∧
    (w.calls ns).Pairwise (fun b c => w.window < c.1.time - b.1.time) ∧
    (∀ before n later, ns = before ++ n :: later → n.Saves w.target →
      ∃ c ∈ w.calls (before ++ [n]), c ∈ w.calls ns ∧
        n.time - w.window ≤ c.1.time ∧ c.1.time ≤ n.time) ∧
    w.after (ns.filter (·.Saves w.target)) = w.after ns ∧
      w.calls (ns.filter (·.Saves w.target)) = w.calls ns := by
  refine ⟨w.calls_sublist ns, fun n hn => ?_, calls_pairwise hwindow ns,
    fun before n later hns hsaves => ?_, w.filter_saves ns⟩
  · rw [← (w.filter_saves ns).2]
    obtain ⟨saves, hlist⟩ := List.head?_eq_some_iff.1 hn
    have hmem : n ∈ ns.filter (·.Saves w.target) := hlist ▸ List.mem_cons_self
    have hsaves : n.Saves w.target := by simpa using (List.mem_filter.1 hmem).2
    rw [hlist, calls, take_of_saves hsaves (by rw [hlast, sub_zero]; exact hfirst n hn)]
    rfl
  · subst hns
    rw [List.filter_append, List.filter_cons_of_pos (by simpa using hsaves)] at hclock hfirst
    have hbefore : ∀ m ∈ before, m.Saves w.target → m.time ≤ n.time := fun m hm hmsaves =>
      (List.pairwise_append.1 hclock).2.2 m (List.mem_filter.2 ⟨hm, by simpa using hmsaves⟩) n
        List.mem_cons_self
    have hcalls : w.calls (before ++ n :: later) =
        w.calls (before ++ [n]) ++ (w.after (before ++ [n])).calls later := by
      rw [← calls_append, List.append_assoc, List.singleton_append]
    rcases covered hwindow hsaves hbefore with hnear | ⟨c, hc, hnear⟩
    · -- The first save comes too late for the start to count as a call, and this one no earlier.
      exfalso
      rw [hlast, sub_zero] at hnear
      cases hlist : before.filter (·.Saves w.target) with
      | nil =>
        rw [hlist] at hfirst
        exact absurd hnear (not_le.2 (hfirst n rfl))
      | cons m saves =>
        rw [hlist] at hfirst
        have hm : m ∈ before.filter (·.Saves w.target) := hlist ▸ List.mem_cons_self
        obtain ⟨hm, hmsaves⟩ := List.mem_filter.1 hm
        have hle := hbefore m hm (by simpa using hmsaves)
        exact absurd (hle.trans hnear) (not_le.2 (hfirst m rfl))
    · exact ⟨c, hc, hcalls ▸ List.mem_append_left _ hc, hnear⟩

/-- The window is half a second. A directory and another file are passed over, as is a path that
    cannot be resolved; a save just half a second after a call does not trigger, one by way of
    another directory does. -/
theorem calls_of_saves_of_editor :
    let w : Watch Int := ⟨⟨['/'], ["w".toList, "m.gms".toList]⟩, 500, 0⟩
    let d : Disk := { here := ["w".toList] }
    let ns : List (Notice Int) := [
      ⟨.modified "m.gms".toList true, d, 900⟩, ⟨.modified "m.lst".toList false, d, 950⟩,
      ⟨.modified "m.gms".toList false, d, 1000⟩, ⟨.modified ['\x00'] false, d, 1200⟩,
      ⟨.moved "tmp".toList "/w/m.gms".toList false, d, 1500⟩,
      ⟨.modified "../w/./m.gms".toList false, d, 1501⟩]
    (ns.filter (·.Saves w.target)).map (·.time) = [1000, 1500, 1501] ∧
      (w.calls ns).map (fun c => (c.1.time, c.2.text)) =
        [(1000, "/w/m.gms".toList), (1501, "/w/m.gms".toList)] ∧
      (w.calls ns).Pairwise fun b c => w.window < c.1.time - b.1.time := by
  intro w d ns
  have hsaves : (ns.filter (·.Saves w.target)).map (·.time) = [1000, 1500, 1501] := by
    decide +kernel
  have hclock : (ns.filter (·.Saves w.target)).Pairwise (·.time ≤ ·.time) := by
    rw [← List.pairwise_map (f := Notice.time) (R := (· ≤ ·)), hsaves]
    decide
  have hfirst : ∀ n, (ns.filter (·.Saves w.target)).head? = some n → w.window < n.time := by
    intro n hn
    have htime : ((ns.filter (·.Saves w.target)).map (·.time)).head? = some n.time := by
      rw [List.head?_map, hn]
      rfl
    rw [hsaves] at htime
    exact Option.some.inj htime ▸ by decide
  obtain ⟨-, -, hapart, -⟩ := calls_of_saves (w := w) rfl (by decide) hclock hfirst
  exact ⟨hsaves, by decide +kernel, hapart⟩

end Watch

end LiveCheck
