import LiveCheck.Proofs.Check.Apart
import LiveCheck.Proofs.Check.Mirror

/-!
# Independence of sources

Checks of different sources do not interfere. Take a run of an engine over several sources, and
leave out whatever happens to others than one of them. What is seen of this one in the run is what
is seen in the shorter run, but for the numbers of its sessions, and these come in the same order
(`AsAlone`, `play_alone`).

One thing after the other, the engine of the shorter run mirrors that of the whole run. Something
that happens to the source happens in both engines, and they still mirror each other
(`Mirror.happen`); something that happens to another one does not concern the source
(`Reachable.apart`, `Mirror.apart`). The sessions of other sources are to be clear of the source,
with the disk as it was at the beginning; as directories stay where they are (`Steps.directories`),
they are so at any time.
-/

namespace LiveCheck

/-- Which source something is about depends on the working directory alone. -/
theorem Happening.isAbout_congr {d d' : Disk} {source : Path} (h : d'.here = d.here)
    {what : Happening} : what.IsAbout d' source ↔ what.IsAbout d source := by
  cases what with
  | check => rw [IsAbout, IsAbout, Disk.resolved, Disk.resolved, h]
  | _ => exact Iff.rfl

namespace Engine

variable {number : Int → Int} {ticket : TaskId → TaskId} {source listing : Path}
  {e e' e₀ f : Engine} {disk : Disk} {searchPath : List Text} {settings : Settings}

/-! ## The shorter run mirrors the whole run -/

/-- What does not concern the source makes no difference to an engine that mirrors it. -/
theorem Mirror.apart (h : Mirror number ticket source listing e f) (hf : Roster f)
    (ha : Apart source listing e e') : Mirror number ticket source listing e' f where
  plain := h.plain
  plain_listing := h.plain_listing
  settings := ha.settings.trans h.settings
  compiler := ha.compiler.trans h.compiler
  toSource := h.toSource.trans ha.toSource
  toListing := h.toListing.trans ha.toListing
  sole := h.sole
  sessions := fun {_ s} hs => by
    have hsource : (s.renumber number).source = source := (h.sole hs).1
    exact (ha.sessions hsource).2 (h.sessions hs)
  covers := fun hs hsource => h.covers ((ha.sessions hsource).1 hs) hsource
  rising := h.rising
  tasks := fun ht => by
    obtain ⟨s, hs⟩ := hf.owned ht
    exact ha.tasks (h.carries ⟨ht, hs⟩) (h.sole hs).1
  latest := ha.latest.trans h.latest
  active := ha.active.trans h.active
  queue := ha.queue.trans h.queue
  spawns := ha.spawns.trans h.spawns
  reports := ha.reports.trans h.reports

/-- In the beginning, an engine mirrors itself. -/
theorem Mirror.create (hcreate : create disk searchPath settings = .ok e₀) (hplain : source.Plain)
    (hplain' : listing.Plain) : Mirror id id source listing e₀ e₀ := by
  obtain ⟨compiler, log, rfl⟩ := create_eq hcreate
  refine ⟨hplain, hplain', rfl, rfl, .refl _ _, .refl _ _,
    ?_, ?_, ?_, ?_, ?_, ?_, ?_, ?_, ?_, ?_⟩ <;>
    simp [spawnsOf, reportsOf, queueOf]

/-- The engine of the shorter run mirrors that of the whole run. -/
theorem mirror_of_play (hcreate : create disk searchPath settings = .ok e₀) (hplain : source.Plain)
    (hlisting : settings.listingPath source = .ok listing) {run : List (Path × Happening)}
    (habout : ∀ x ∈ run, x.2.IsAbout disk x.1)
    (hclear : ∀ {id s}, (e₀.play run).sessions.get? id = some s → s.source ≠ source →
      Clear source listing disk s) : ∃ number ticket, Mirror number ticket source listing
        (e₀.play run) (e₀.play (run.filter (·.1 = source))) := by
  have h₀ := Reachable.create hcreate
  have hdisk : e₀.disk = disk := by
    obtain ⟨compiler, log, rfl⟩ := create_eq hcreate
    rfl
  -- By induction on the run, from its end.
  induction run using List.reverseRecOn with
  | nil =>
    have hplain' := Path.plain_withSuffix hplain settings.listingSuffix_ne_nil
      (Settings.withSuffix_of_listingPath hlisting)
    exact ⟨id, id, .create hcreate hplain hplain'⟩
  | append_singleton run x ih =>
    have hsteps := e₀.play_steps run
    have hsteps' := e₀.play_steps (run.filter (·.1 = source))
    have he := h₀.steps hsteps
    have hf := h₀.steps hsteps'
    have hkept := hdisk ▸ Steps.directories h₀ hsteps
    have hkept' := hdisk ▸ Steps.directories h₀ hsteps'
    have hx := habout x (by simp)
    rw [play_concat] at hclear
    obtain ⟨number, ticket, h⟩ := ih (fun y hy => habout y (by simp [hy])) fun hs hother => by
      obtain ⟨s', hs', hl⟩ := Steps.later he (happen_steps _ x.1 x.2) hs
      exact (hclear hs' (hl.source ▸ hother)).before hl
    rw [play_concat, List.filter_append]
    -- What happens to the source happens in both engines; all else is left out of the shorter run.
    by_cases hsource : x.1 = source
    · have hsingle : [x].filter (·.1 = source) = [x] := by simp [hsource]
      rw [hsingle, play_concat, hsource]
      refine h.happen he hf ?_ ?_
      · rw [Steps.settings_of_create hcreate hsteps', hlisting]
      · exact (Happening.isAbout_congr hkept'.here).2 (hsource ▸ hx)
    · have hnone : [x].filter (·.1 = source) = [] := by simp [hsource]
      rw [hnone, List.append_nil]
      refine ⟨number, ticket, h.apart hf.inOrder.schedule.toRoster ?_⟩
      exact he.apart hsource ((Happening.isAbout_congr hkept.here).2 hx)
        fun hs hs' => (hclear hs (hs' ▸ hsource)).mono hkept

/-! ## What is seen of a source -/

/-- What is seen of the source in the first engine is what is seen in the second one, in which there
    is nothing else; but sessions have other numbers there, which come in the same order. -/
structure AsAlone (number : Int → Int) (source listing : Path) (e f : Engine) : Prop where
  /-- All sessions of the second engine are those of the source in the first one. -/
  sessions : ∀ {id s}, f.sessions.get? id = some s →
    s.source = source ∧ e.sessions.get? (number id) = some (s.renumber number)
  /-- There are no other sessions of the source in the first engine. -/
  covers : ∀ {n s}, e.sessions.get? n = some s → s.source = source →
    ∃ id r, f.sessions.get? id = some r ∧ number id = n
  /-- They were made in the same order. -/
  rising : ∀ {id id' s s'}, f.sessions.get? id = some s → f.sessions.get? id' = some s' →
    id < id' → number id < number id'
  /-- Compilers were asked for in the same way. -/
  spawns : e.spawnsOf source = f.spawns.map (·.renumber number)
  /-- The same was reported. -/
  reports : e.reportsOf source = f.deliveries.map (renumberReport number)
  /-- The source is the same. -/
  source_bytes : e.disk.contents source = f.disk.contents source
  /-- The listing is the same. -/
  listing_bytes : e.disk.contents listing = f.disk.contents listing

/-- What is seen of the source in an engine is what is seen in its mirror. -/
theorem Mirror.asAlone (h : Mirror number ticket source listing e f) :
    AsAlone number source listing e f where
  sessions := fun hs => ⟨(h.sole hs).1, h.sessions hs⟩
  covers := h.covers
  rising := h.rising
  spawns := h.spawns
  reports := h.reports
  source_bytes := h.toSource.contents h.plain
  listing_bytes := h.toListing.contents h.plain_listing

/-- Checks of different sources do not interfere. In a run over two sources, of which the paths of
    the second one are not at those of the first one or on the way to them, all that is seen of the
    first one is as if nothing had happened to the second one. The compilers of the second one are
    to leave nothing at the paths of the first one or on the way to them either, as those that leave
    its listing do (`CompilerProcess.misses_of_listing`). -/
theorem play_alone (hcreate : create disk searchPath settings = .ok e₀)
    {first second firstListing secondListing : Path} (hplain : first.Plain)
    (hlisting : settings.listingPath first = .ok firstListing)
    (hlisting' : settings.listingPath second = .ok secondListing)
    (hinside : ∀ p ∈ [first, firstListing], ∀ q ∈ [second, secondListing], ¬q.names <+: p.names)
    {run : List (Path × Happening)} (habout : ∀ x ∈ run, x.2.IsAbout disk x.1)
    (hsources : ∀ {id s}, (e₀.play run).sessions.get? id = some s →
      s.source = first ∨ s.source = second)
    (hcompilers : ∀ {id s p}, (e₀.play run).sessions.get? id = some s → s.source = second →
      s.process = some p → p.Misses s disk first ∧ p.Misses s disk firstListing) :
    ∃ number, AsAlone number first firstListing (e₀.play run)
      (e₀.play (run.filter (·.1 = first))) := by
  have h₀ := Reachable.create hcreate
  have hsettings := Steps.settings_of_create hcreate (e₀.play_steps run)
  obtain ⟨number, ticket, h⟩ := mirror_of_play hcreate hplain hlisting habout fun hs hother => by
    -- Any other session is made for the second source, so its listing is the second one.
    have hsource := (hsources hs).resolve_left hother
    have hproper := (h₀.steps (e₀.play_steps run)).proper hs
    have hlisting := hproper.listing
    rw [hsettings, hsource, hlisting', Except.ok.injEq] at hlisting
    refine ⟨hother, ?_, ?_, fun p hp => hcompilers hs hsource hp⟩ <;> rw [hsource, ← hlisting] <;>
      exact ⟨hinside _ (by simp) _ (by simp), hinside _ (by simp) _ (by simp)⟩
  exact ⟨number, h.asAlone⟩

/-- Two models are checked at a time, and the compiler of the one that came last exits first. -/
theorem play_alone_of_check : ∃ (e₀ : Engine) (run : List (Path × Happening)) (number : Int → Int),
    AsAlone number (.ofText "/b.gms".toList) (.ofText "/b.lst".toList) (e₀.play run)
      (e₀.play (run.filter (·.1 = .ofText "/b.gms".toList))) ∧
    (e₀.play run).reportsOf (.ofText "/b.gms".toList) = [(2, [])] ∧
    (e₀.play run).reportsOf (.ofText "/a.gms".toList) = [(1, [])] := by
  let disk : Disk :=
    { nodes := ⟨[(["a.gms".toList], .file [97] false), (["b.gms".toList], .file [98] false)]⟩ }
  let behaviour : Behaviour := { holdsExit := true, listing := some (.file [] false) }
  have hrun : ∃ e₀ run, create disk [] ⟨.ofText "/".toList, ∅⟩ = .ok e₀ ∧
      ([(.ofText "/a.gms".toList, .check "/a.gms".toList none {} behaviour),
        (.ofText "/b.gms".toList, .check "/b.gms".toList none {} behaviour),
        (.ofText "/b.gms".toList, .exit 0), (.ofText "/a.gms".toList, .exit 0),
        (.ofText "/a.gms".toList, .turn), (.ofText "/b.gms".toList, .turn)] :
          List (Path × Happening)) = run ∧
      (∀ x ∈ run, x.2.IsAbout disk x.1) ∧
      ((e₀.play run).sessions.values.all fun s =>
        s.source = .ofText "/b.gms".toList ∨ (s.source = .ofText "/a.gms".toList ∧
          s.listing = .ofText "/a.lst".toList ∧ s.process.all fun p =>
            s.source.withSuffix ('.' :: p.behaviour.listingSuffix) = .ok s.listing)) ∧
      (e₀.play run).reportsOf (.ofText "/b.gms".toList) = [(2, [])] ∧
      (e₀.play run).reportsOf (.ofText "/a.gms".toList) = [(1, [])] :=
    ⟨_, _, rfl, rfl, by decide +kernel, by decide +kernel, by decide +kernel, by decide +kernel⟩
  obtain ⟨e₀, run, hcreate, -, habout, hsessions, hreports, hreports'⟩ := hrun
  have hall := fun {id s} (hs : (e₀.play run).sessions.get? id = some s) =>
    of_decide_eq_true (List.all_eq_true.1 hsessions s (Table.mem_values_of_get? hs))
  have hlisting : Settings.listingPath ⟨.ofText "/".toList, ∅⟩ (.ofText "/b.gms".toList) =
      .ok (.ofText "/b.lst".toList) := rfl
  have hlisting' : Settings.listingPath ⟨.ofText "/".toList, ∅⟩ (.ofText "/a.gms".toList) =
      .ok (.ofText "/a.lst".toList) := rfl
  obtain ⟨number, halone⟩ := play_alone hcreate (by decide) hlisting hlisting' (by decide) habout
    (fun hs => (hall hs).imp_right And.left) fun {_ s p} hs hsource hp => by
      obtain hfirst | ⟨-, hlisting, houtput⟩ := hall hs
      · exact absurd (hsource.symm.trans hfirst) (by decide)
      · have houtput := of_decide_eq_true ((Option.all_eq_true _ _).1 houtput p hp)
        have hdirectory : disk.opened.isDirectory s.source.parent := by rw [hsource]; decide
        exact ⟨CompilerProcess.misses_of_listing hdirectory houtput (by rw [hlisting]; decide),
          CompilerProcess.misses_of_listing hdirectory houtput (by rw [hlisting]; decide)⟩
  exact ⟨e₀, run, number, halone, hreports, hreports'⟩

end Engine

end LiveCheck
