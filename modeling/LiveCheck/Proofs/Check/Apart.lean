import LiveCheck.Proofs.Check.Happening
import LiveCheck.Proofs.Disk.Directory
import LiveCheck.Proofs.Disk.Place

/-!
# What happens to another source

Nothing that happens to one source concerns another one (`Reachable.apart`): sessions, tasks, queue
and reports of the other source are as they were, and so is what the disk has at the places of the
other source and of its listing (`Apart`). For the disk, it takes that the paths of the one source
are not on the way to those of the other one, and that its compilers leave nothing there either
(`CompilerProcess.Misses`).
-/

namespace LiveCheck

namespace Disk

variable {d d' : Disk} {place : Place} {p : Path}

/-- What a walk goes through are directories. -/
theorem directory_of_walkFrom {start : Place} {names : List Text} (hnames : ['.', '.'] ∉ names)
    (hwalk : d.walkFrom start names = .ok place) {way : List Text} (hway : way <+: names)
    (hne : way ≠ names) : d.node? (start ++ way) = some .directory := by
  induction names generalizing start way with
  | nil => exact absurd (List.prefix_nil.1 hway) hne
  | cons name rest ih =>
    rw [List.mem_cons, not_or] at hnames
    obtain ⟨hnode, -, ⟨hup, -⟩ | ⟨-, -, hrest⟩⟩ := walkFrom_cons_eq_ok.1 hwalk
    · exact absurd hup.symm hnames.1
    · cases way with
      | nil => simpa using hnode
      | cons first way =>
        obtain ⟨rfl, hway'⟩ := List.cons_prefix_cons.1 hway
        rw [List.append_cons]
        exact ih hnames.2 hrest hway' fun heq => hne (heq ▸ rfl)

/-- All places on the way to a directory are directories. -/
theorem directory_of_isDirectory (hp : p.Plain) (h : d.isDirectory p) (hplace : place <+: p.names) :
    d.node? place = some .directory := by
  obtain ⟨-, q, hwalk, -, hnode⟩ := lookup_eq_ok.1 (isDirectory_iff.1 h)
  obtain ⟨rfl, -⟩ := walk_of_plain hp hwalk
  by_cases hself : place = p.names
  · exact hself ▸ hnode
  · rw [walk, hp.fullNames] at hwalk
    exact directory_of_walkFrom hp.2 hwalk hplace hself

end Disk

/-- What the compiler leaves, if anything, comes to a directory that is there, and is not on the way
    to the path. -/
def CompilerProcess.Misses (p : CompilerProcess) (s : Session) (d : Disk) (path : Path) : Prop :=
  (p.behaviour.early = none ∧ p.behaviour.listing = none) ∨ (d.opened.isDirectory s.source.parent ∧
    ∀ output, s.source.withSuffix ('.' :: p.behaviour.listingSuffix) = .ok output →
      ¬output.names <+: path.names)

variable {d d' : Disk} {s s' : Session} {path : Path}

/-- A compiler that leaves its output as the listing of its session misses all paths that the
    listing is not on the way to. -/
theorem CompilerProcess.misses_of_listing {p : CompilerProcess}
    (hdirectory : d.opened.isDirectory s.source.parent)
    (houtput : s.source.withSuffix ('.' :: p.behaviour.listingSuffix) = .ok s.listing)
    (hlisting : ¬s.listing.names <+: path.names) : p.Misses s d path := by
  refine .inr ⟨hdirectory, fun output houtput' => ?_⟩
  obtain rfl := Except.ok.inj (houtput.symm.trans houtput')
  exact hlisting

/-- What a session does after it was saved spares what is at a path and on the way to it. -/
theorem agree_of_litter {settings : Settings} (hs : s.Proper settings)
    (hlisting : ¬s.listing.names <+: path.names)
    (hcompiler : ∀ p, s.process = some p → p.Misses s d path)
    (hlitter : Relation.ReflTransGen (Litter s) d d') : Disk.Agree path.names d d' := by
  induction hlitter with
  | refl => exact .refl _ _
  | @tail d₁ d₂ hbefore hlitter ih =>
    refine ih.trans ?_
    rcases hlitter with @⟨p, output, node, hp, hnode, houtput⟩ | hd
    · have hplain := Path.plain_withSuffix hs.plain (by simp) houtput
      obtain ⟨-, -, hnames⟩ := Path.withSuffix_eq houtput
      rw [hplain.fullNames]
      rcases hcompiler p hp with ⟨hearly, hexit⟩ | ⟨hdirectory, hmiss⟩
      · simp [hearly, hexit] at hnode
      -- The directory of the source is still there when the compiler leaves its output in it.
      have hkept := Engine.directories_of_litter hs hbefore
      have hthere := Disk.isDirectory_of_directoriesIn hkept.opened.directories
        hkept.opened.toFrame hdirectory
      have hparent : s.source.parent.Plain :=
        ⟨hs.plain.1, fun hmem => hs.plain.2 (List.dropLast_subset _ hmem)⟩
      refine Disk.agree_plant (by rw [hnames]; simp) (hmiss output houtput)
        (fun r hr hne => ?_) node
      refine Disk.directory_of_isDirectory (d := d₁.opened) hparent hthere ?_
      rw [hnames, List.prefix_concat_iff] at hr
      exact hr.resolve_left (by rwa [hnames] at hne)
    · exact Disk.agree_removeFile hs.plain_listing hlisting hd

/-- A compiler misses a path for good, as directories stay where they are. -/
theorem CompilerProcess.Misses.mono {p : CompilerProcess} (h : p.Misses s d path)
    (hkept : Disk.Spares [] d d') : p.Misses s d' path :=
  h.imp_right fun ⟨hdirectory, hmiss⟩ =>
    ⟨Disk.isDirectory_of_directoriesIn hkept.opened.directories hkept.opened.toFrame hdirectory,
      hmiss⟩

/-- What a session does in a turn spares what is at a path and on the way to it. -/
theorem Engine.Deed.agree {newest : Prop} {asked : List Spawn} {settings : Settings}
    (h : Engine.Deed newest d s s' d' asked) (hs : s.Proper settings) (hsame : s.Same s')
    (hsource : ¬s.source.names <+: path.names) (hlisting : ¬s.listing.names <+: path.names)
    (hcompiler : ∀ p, s'.process = some p → p.Misses s' d path) : Disk.Agree path.names d d' := by
  have hs' : s'.Proper settings := ⟨hsame.source ▸ hs.plain,
    by rw [hsame.source, hsame.listing, hs.listing], fun hidle => (h.eq_of_idle hidle).2.1 ▸
      hs.waiting ((h.eq_of_idle hidle).2.1 ▸ hidle)⟩
  have hlisting' : ¬s'.listing.names <+: path.names := hsame.listing ▸ hlisting
  cases h with
  | overtaken | unsaved => exact .refl _ _
  | spoiled _ _ hspoil =>
    obtain ⟨_, _, -, -, hwrite⟩ := hspoil
    exact Disk.agree_writeText hs.plain hsource hwrite
  | @setsOut d₁ _ _ _ _ hsave hlitter =>
    -- Saving writes the source, which is not on the way.
    have hsaved : Disk.Agree path.names d d₁ := by
      rw [Session.Saves] at hsave
      split at hsave
      · exact hsave ▸ .refl _ _
      · obtain ⟨written, -, hwrite⟩ := hsave
        exact Disk.agree_writeText hs.plain hsource hwrite
    exact hsaved.trans (agree_of_litter hs' hlisting' (fun p hp => (hcompiler p hp).mono
      (hsave.directories hs.plain))
      hlitter)
  | goesOn _ hlitter => exact agree_of_litter hs' hlisting' hcompiler hlitter

namespace Engine

variable {e e' e'' : Engine} {source listing : Path} {t : TaskId} {task : Task} {id : Int}

/-! ## What a session adds -/

/-- What is put on record of spawns and reports, on top of what was, is that of the session. -/
structure Adds (id : Int) (e e' : Engine) : Prop where
  compiler : e'.compiler = e.compiler
  spawns : ∃ asked, e'.spawns = e.spawns ++ asked ∧ ∀ spawn ∈ asked, spawn.session = id
  deliveries : ∃ told, e'.deliveries = e.deliveries ++ told ∧ ∀ report ∈ told, report.1 = id

theorem Adds.of_eq (hcompiler : e'.compiler = e.compiler) (hspawns : e'.spawns = e.spawns)
    (hdeliveries : e'.deliveries = e.deliveries) : Adds id e e' :=
  ⟨hcompiler, ⟨[], by simpa using hspawns, nofun⟩, ⟨[], by simpa using hdeliveries, nofun⟩⟩

theorem Adds.trans (h : Adds id e e') (h' : Adds id e' e'') : Adds id e e'' := by
  obtain ⟨asked, hspawns, hasked⟩ := h.spawns
  obtain ⟨asked', hspawns', hasked'⟩ := h'.spawns
  obtain ⟨told, hdeliveries, htold⟩ := h.deliveries
  obtain ⟨told', hdeliveries', htold'⟩ := h'.deliveries
  refine ⟨h'.compiler.trans h.compiler, ⟨asked ++ asked', ?_, ?_⟩, ⟨told ++ told', ?_, ?_⟩⟩
  · rw [hspawns', hspawns, List.append_assoc]
  · exact fun spawn hspawn => (List.mem_append.1 hspawn).elim (hasked spawn) (hasked' spawn)
  · rw [hdeliveries', hdeliveries, List.append_assoc]
  · exact fun report hreport => (List.mem_append.1 hreport).elim (htold report) (htold' report)

/-- What an act puts on record of spawns and reports is that of its session. -/
theorem Act.adds {x y : Engine × Session} (h : Act x y) : Adds x.2.id x.1 y.1 := by
  cases h with
  | @ask e s command =>
    exact ⟨rfl, ⟨_, rfl, fun _ hspawn => List.mem_singleton.1 hspawn ▸ rfl⟩,
      ⟨[], (List.append_nil _).symm, nofun⟩⟩
  | emit b node =>
    obtain ⟨disk, hd, -⟩ := emit_eq _ _ b node
    rw [hd]
    exact .of_eq rfl rfl rfl
  | @report e s next diagnostics =>
    dsimp only [deliver]
    split
    · exact .of_eq rfl rfl rfl
    · exact ⟨rfl, ⟨[], (List.append_nil _).symm, nofun⟩,
        ⟨_, rfl, fun _ hreport => List.mem_singleton.1 hreport ▸ rfl⟩⟩
  | _ => exact .of_eq rfl rfl rfl

/-- What a turn puts on record of spawns and reports is that of its session. -/
theorem Works.adds {x y : Engine × Session} (h : Works x y) : Adds x.2.id x.1 y.1 := by
  induction h with
  | refl => exact .of_eq rfl rfl rfl
  | tail hworks hact ih => exact ih.trans (Works.same hworks |>.id ▸ hact.adds)

/-! ## Another source -/

/-- What concerns the source is as it was. -/
structure Apart (source listing : Path) (e e' : Engine) : Prop where
  settings : e'.settings = e.settings
  compiler : e'.compiler = e.compiler
  toSource : Disk.Agree source.names e.disk e'.disk
  toListing : Disk.Agree listing.names e.disk e'.disk
  sessions : ∀ {id s}, s.source = source →
    (e'.sessions.get? id = some s ↔ e.sessions.get? id = some s)
  tasks : ∀ {t task s}, e.Carries t task s → s.source = source → e'.tasks.get? t = some task
  latest : e'.latest.get? source = e.latest.get? source
  active : e'.active.get? source = e.active.get? source
  queue : e'.queueOf source = e.queueOf source
  spawns : e'.spawnsOf source = e.spawnsOf source
  reports : e'.reportsOf source = e.reportsOf source

namespace Apart

theorem refl (source listing : Path) (e : Engine) : Apart source listing e e :=
  ⟨rfl, rfl, .refl _ _, .refl _ _, fun _ => Iff.rfl, fun ht _ => ht.1, rfl, rfl, rfl, rfl, rfl⟩

/-- A task of the source carries the session that it did. -/
theorem carries (h : Apart source listing e e') (ht : e.Carries t task s)
    (hsource : s.source = source) : e'.Carries t task s :=
  ⟨h.tasks ht hsource, (h.sessions hsource).2 ht.2⟩

theorem trans (h : Apart source listing e e') (h' : Apart source listing e' e'') :
    Apart source listing e e'' where
  settings := h'.settings.trans h.settings
  compiler := h'.compiler.trans h.compiler
  toSource := h.toSource.trans h'.toSource
  toListing := h.toListing.trans h'.toListing
  sessions := fun hsource => (h'.sessions hsource).trans (h.sessions hsource)
  tasks := fun ht hsource => h'.tasks (h.carries ht hsource) hsource
  latest := h'.latest.trans h.latest
  active := h'.active.trans h.active
  queue := h'.queue.trans h.queue
  spawns := h'.spawns.trans h.spawns
  reports := h'.reports.trans h.reports

end Apart

/-- The sessions of the source are the same if a session of another one is put in another form. -/
theorem sessions_replace (hs : e.sessions.get? s.id = some s) (hother : s.source ≠ source)
    (hsource : s'.source = s.source)
    (hget : ∀ id, e'.sessions.get? id = if id = s.id then some s' else e.sessions.get? id)
    {q : Session} (hq : q.source = source) :
    e'.sessions.get? id = some q ↔ e.sessions.get? id = some q := by
  rw [hget]
  split
  · rename_i hid
    rw [hid, hs, Option.some.injEq, Option.some.injEq]
    refine iff_of_false ?_ ?_ <;> rintro rfl
    · exact hother (hsource.symm.trans hq)
    · exact hother hq
  · exact Iff.rfl

/-- Which numbers concern a source depends on the sessions of that source alone. -/
theorem concerns_congr (h : ∀ {id s}, s.source = source →
    (e'.sessions.get? id = some s ↔ e.sessions.get? id = some s)) :
    e'.concerns source = e.concerns source := by
  funext id
  rw [Bool.eq_iff_iff, concerns_iff, concerns_iff]
  exact exists_congr fun s => and_congr_left fun hsource => h hsource

/-- A session of another source goes on, and adds to the record. -/
theorem apart_of_replace (hs : e.sessions.get? s.id = some s) (hother : s.source ≠ source)
    (hsource : s'.source = s.source)
    (hget : ∀ id, e'.sessions.get? id = if id = s.id then some s' else e.sessions.get? id)
    (hkept : Kept e e') (hadds : Adds s.id e e')
    (hto : Disk.Agree source.names e.disk e'.disk)
    (hto' : Disk.Agree listing.names e.disk e'.disk) : Apart source listing e e' := by
  have hsessions : ∀ {id q}, q.source = source →
      (e'.sessions.get? id = some q ↔ e.sessions.get? id = some q) :=
    fun hq => sessions_replace hs hother hsource hget hq
  have hconcerns := concerns_congr hsessions
  -- What is added is not counted, as it is that of a session of another source.
  have hnot : e.concerns source s.id = false := by
    rw [concerns, hs, Option.any_some]
    exact decide_eq_false hother
  refine ⟨hkept.settings, hadds.compiler, hto, hto', hsessions, fun ht _ => hkept.tasks ▸ ht.1,
    by rw [hkept.latest], by rw [hkept.active], by rw [queueOf, queueOf, hkept.queues], ?_, ?_⟩
  · obtain ⟨asked, hspawns, hasked⟩ := hadds.spawns
    rw [spawnsOf, spawnsOf, hconcerns, hspawns, List.filter_append]
    refine List.append_right_eq_self.2 (List.filter_eq_nil_iff.2 fun spawn hspawn => ?_)
    simp [hasked spawn hspawn, hnot]
  · obtain ⟨told, hdeliveries, htold⟩ := hadds.deliveries
    rw [reportsOf, reportsOf, hconcerns, hdeliveries, List.filter_append]
    refine List.append_right_eq_self.2 (List.filter_eq_nil_iff.2 fun report hreport => ?_)
    simp [htold report hreport, hnot]

/-- Telling a session of another source to stop does not concern this one. -/
theorem apart_cancelSession (hr : Registry e) (hs : e.sessions.get? id = some s)
    (hother : s.source ≠ source) : Apart source listing e (e.cancelSession id) := by
  obtain rfl := hr.keyed hs
  obtain ⟨ready, heq⟩ := cancelSession_put hs
  have hput : Apart source listing e (e.putSession s.cancel) :=
    apart_of_replace hs hother (show s.cancel.source = s.source from rfl)
      (fun _ => Table.get?_put _ _ _ _) ⟨rfl, .refl _, rfl, rfl, rfl, rfl, rfl, rfl⟩
      (.of_eq rfl rfl rfl) (.refl _ _) (.refl _ _)
  rw [heq]
  exact { hput with }

/-! ## A turn -/

/-- The paths of the session are not on the way to the source or its listing, and neither is what
    its compiler leaves. -/
structure Clear (source listing : Path) (d : Disk) (s : Session) : Prop where
  other : s.source ≠ source
  toSource : ¬s.source.names <+: source.names ∧ ¬s.listing.names <+: source.names
  toListing : ¬s.source.names <+: listing.names ∧ ¬s.listing.names <+: listing.names
  compiler : ∀ p, s.process = some p → p.Misses s d source ∧ p.Misses s d listing

/-- A session is clear of a source for good, as directories stay where they are. -/
theorem Clear.mono (h : Clear source listing d s) (hkept : Disk.Spares [] d d') :
    Clear source listing d' s :=
  ⟨h.other, h.toSource, h.toListing, fun p hp =>
    ⟨(h.compiler p hp).1.mono hkept, (h.compiler p hp).2.mono hkept⟩⟩

/-- A session is clear of a source if it is so later on. -/
theorem Clear.before (h : Clear source listing d s') (hl : s.Later s') :
    Clear source listing d s := by
  obtain ⟨hother, hto, hto', hcompiler⟩ := h
  rw [hl.source, hl.listing] at hto hto'
  refine ⟨hl.source ▸ hother, hto, hto', fun p hp => ?_⟩
  obtain ⟨q, hq, hb⟩ := hl.process hp
  have hmisses := hcompiler q hq
  rwa [CompilerProcess.Misses, CompilerProcess.Misses, hb, hl.source] at hmisses

/-- What a session does in a turn does not concern a source that it is clear of in the end. -/
theorem apart_of_deed {settings : Settings} (hs : e.sessions.get? s.id = some s)
    (hproper : s.Proper settings) (hworks : Works (e, s) (e', s')) {newest : Prop}
    {asked : List Spawn} (hdeed : Deed newest e.disk s s' e'.disk asked)
    (hclear : Clear source listing e.disk s') : Apart source listing e e' := by
  have hsame : s.Same s' := hworks.same
  obtain ⟨hother, hto, hto', hcompiler⟩ := hclear
  rw [hsame.source, hsame.listing] at hto hto'
  exact apart_of_replace hs (hsame.source ▸ hother) hsame.source (hworks.get?_eq hs) hworks.kept
    hworks.adds (hdeed.agree hproper hsame hto.1 hto.2 fun p hp => (hcompiler p hp).1)
    (hdeed.agree hproper hsame hto'.1 hto'.2 fun p hp => (hcompiler p hp).2)

/-- A task of another source is put on record in another form. -/
theorem apart_putTask (ht : e.Carries t task s) (hother : s.source ≠ source) {a : Task}
    {tasks : Table TaskId Task}
    (hget : ∀ u, tasks.get? u = if u = t then some a else e.tasks.get? u) :
    Apart source listing e { e with tasks } := by
  refine { Apart.refl source listing e with tasks := fun {u b q} hu hq => ?_ }
  dsimp only
  rw [hget, if_neg, hu.1]
  rintro rfl
  exact hother ((ht.unique hu).2 ▸ hq)

/-- A change to the task of another source does not concern this one. -/
theorem apart_modifyTask (ht : e.Carries t task s) (hother : s.source ≠ source)
    (change : Task → Task) :
    Apart source listing e { e with tasks := e.tasks.modify t change } := by
  refine apart_putTask (a := change task) ht hother fun u => ?_
  rw [Table.get?_modify, ht.1, Option.map_some]

/-- A change to the queue of another source does not concern this one. -/
theorem apart_putQueue (hother : s.source ≠ source) (queue : List TaskId) :
    Apart source listing e { e with queues := e.queues.put s.source queue } :=
  { Apart.refl source listing e with
    queue := by rw [queueOf_put, if_neg (Ne.symm hother)] }

/-- Taking a task out of the queue of another source does not concern this one. -/
theorem apart_leaveQueue (h : Schedule (some (t, .admitted)) e) (ht : e.Carries t task s)
    (hother : s.source ≠ source) : Apart source listing e (e.leaveQueue t s.source) := by
  obtain ⟨rest, hqueue⟩ := h.queueOf_eq ht
  have hput : Apart source listing e { e with queues := e.queues.put s.source rest } :=
    apart_putQueue hother rest
  rw [Engine.leaveQueue]
  simp only [hqueue, List.erase_cons_head, List.head?_cons, if_true]
  cases rest with
  | nil => exact hput
  | cons next rest =>
    obtain ⟨a, r, ha, hsource⟩ := h.queue_owned (t := next) (by rw [hqueue]; simp)
    have ha' : Carries { e with queues := e.queues.put s.source (next :: rest) } next a r := ha
    have hmodify := hput.trans (apart_modifyTask ha' (hsource ▸ hother)
      fun task => { task with stage := .admitted })
    exact { hmodify with }

/-- Forgetting the active session of another source does not concern this one. -/
theorem apart_retire (hother : s.source ≠ source) : Apart source listing e (e.retire s) := by
  rw [Engine.retire]
  split
  · exact { Apart.refl source listing e with
      active := (Table.get?_erase _ _ _).trans (if_neg (Ne.symm hother)) }
  · exact .refl _ _ _

/-- The task of another source is settled. -/
theorem apart_settle (h : Schedule (some (t, .admitted)) e) (ht : e.Carries t task s)
    (hother : s.source ≠ source) {progress : Progress} (haborted : progress ≠ .ends .aborted) :
    Apart source listing e (e.settle t s progress) := by
  cases progress with
  | waits stage => exact apart_modifyTask ht hother _
  | ends outcome =>
    have hmodify : Apart source listing e
        { e with tasks := e.tasks.modify t fun task => { task with stage := .ended outcome } } :=
      apart_modifyTask ht hother _
    have hended : Apart source listing e (e.ended t outcome) := { hmodify with }
    obtain ⟨hbusy, ht'⟩ := h.ended ht outcome
    rw [settle_ends_eq _ _ _ fun ho => haborted (ho ▸ rfl)]
    exact (hended.trans (apart_leaveQueue hbusy ht' hother)).trans (apart_retire hother)

/-- A task of another source takes a turn and is settled. -/
theorem apart_turn (h : InOrder (some (t, .admitted)) e) (ht : e.Carries t task s)
    {settings : Settings} (hproper : s.Proper settings) {r : Engine × Progress}
    (hturn : Turn e task s r)
    (hclear : ∀ {q}, (r.1.settle t s r.2).sessions.get? s.id = some q → q.source = s.source →
      Clear source listing e.disk q) :
    Apart source listing e (r.1.settle t s r.2) := by
  have hs : e.sessions.get? s.id = some s := h.registry.stored ht.2
  have hplain := h.registry.plain hs
  obtain ⟨s', asked, hworks, hleft, -, hdeed⟩ := hturn.deed hplain
  have haborted := hleft.ne_aborted
  have hstored : (r.1.settle t s r.2).sessions.get? s.id = some s' := by
    rw [(settle_rearranged _ _ _ haborted).sessions, ← hworks.same.id]
    exact hworks.get?_self hs
  have hclear' := hclear hstored hworks.same.source
  obtain ⟨hbusy, ht'⟩ := h.schedule.works h.registry ht hworks
  -- What the session does in the turn comes first, then how the turn leaves its task.
  rw [← settle_congr _ _ hworks.same]
  exact (apart_of_deed hs hproper hworks hdeed hclear').trans
    (apart_settle hbusy ht' hclear'.other haborted)

/-! ## A check begins -/

theorem overtake_disk (e : Engine) (s : Session) : (e.overtake s).disk = e.disk := by
  obtain ⟨sessions, active, ready, log, heq⟩ := e.overtake_eq s
  rw [heq]

/-- Overtaking a session of another source does not concern this one. -/
theorem apart_overtake {stage : Stage} (h : InOrder (some (t, stage)) e)
    (hother : s.source ≠ source) : Apart source listing e (e.overtake s) := by
  have hput : Apart source listing e { e with active := e.active.put s.source s.id } :=
    { Apart.refl source listing e with
      active := Table.get?_put_of_ne (Ne.symm hother) _ }
  unfold Engine.overtake
  dsimp only
  split
  · exact hput
  split
  · exact hput
  · rename_i older hprior _
    obtain ⟨u, a, r, hu, rfl, hsource, -⟩ := h.schedule.active hprior
    have hnoted : Apart source listing e
        (Engine.note { e with active := e.active.put s.source s.id } [.overtaken s.id a.session]) :=
      { hput with }
    exact hnoted.trans (apart_cancelSession (h.registry.congr rfl rfl rfl) hu.2 (hsource ▸ hother))

/-- The first turn of a task of another source. -/
theorem apart_enter (h : InOrder (some (t, .created)) e) (ht : e.Carries t task s)
    {settings : Settings} (hproper : s.Proper settings) (hphase : s.phase = .idle)
    (hprocess : s.process = none) (hother : s.source ≠ source)
    (hclear : ∀ {q},
      ((e.enter t task s).1.settle t s (e.enter t task s).2).sessions.get? s.id = some q →
        q.source = s.source → Clear source listing e.disk q) :
    Apart source listing e ((e.enter t task s).1.settle t s (e.enter t task s).2) := by
  have hover : Apart source listing e (e.overtake s) := apart_overtake h hother
  obtain ⟨h₁, ht₁⟩ := h.overtake ht
  have hjoin := h₁.schedule.join ht₁
  have hdisk := e.overtake_disk s
  unfold Engine.enter at hclear ⊢
  dsimp only at hclear ⊢
  generalize e.overtake s = e₁ at *
  have hqueued := hover.trans (apart_putQueue hother (e₁.queueOf s.source ++ [t]))
  -- The task is first in the queue and goes on at once, or it waits.
  split at hclear
  · rw [if_pos ‹_›] at hjoin ⊢
    have h₂ : InOrder (some (t, .admitted))
        { e₁ with queues := e₁.queues.put s.source (e₁.queueOf s.source ++ [t]) } :=
      ⟨h₁.registry.congr rfl rfl rfl, hjoin⟩
    exact hqueued.trans (apart_turn h₂ ht₁ hproper (.proceed hphase hprocess)
      fun hq => hdisk ▸ hclear hq)
  · have ht₂ : Carries
        { e₁ with queues := e₁.queues.put s.source (e₁.queueOf s.source ++ [t]) } t task s := ht₁
    rw [if_neg ‹_›]
    exact hqueued.trans (apart_modifyTask ht₂ hother _)

/-- A session of another source is made, with a task for it. -/
theorem apart_enrol (h : InOrder none e) {path : Text} {text : Option JsonString}
    {receiver : Receiver} (hnew : e.newSession path text receiver = (e', .ok s))
    (hother : s.source ≠ source) (behaviour : Behaviour) : Apart source listing e
      (e'.putTask e.tasks.entries.length { session := s.id, behaviour }) := by
  obtain ⟨-, hid, rfl⟩ := newSession_ok hnew
  have hsessions : ∀ {id q}, q.source = source →
      ((e.sessions.put s.id s).get? id = some q ↔ e.sessions.get? id = some q) := by
    intro id q hq
    rw [Table.get?_put]
    split
    · refine iff_of_false ?_ fun hstored => ?_
      · rintro ⟨⟩
        exact hother hq
      · have := h.registry.below hstored
        omega
    · exact Iff.rfl
  have hconcerns :
      concerns { e with sessions := e.sessions.put s.id s } source = e.concerns source :=
    concerns_congr hsessions
  refine { Apart.refl source listing e with
    sessions := hsessions
    tasks := fun {u a q} hu _ => ?_
    latest := Table.get?_put_of_ne (Ne.symm hother) _
    spawns := List.filter_congr fun spawn _ => congrFun hconcerns spawn.session
    reports := List.filter_congr fun report _ => congrFun hconcerns report.1 }
  refine (Table.get?_put_of_ne ?_ _).trans hu.1
  rintro rfl
  simpa [hu.1] using h.schedule.not_enrolled (e.tasks.length_keys).symm

/-! ## Whatever happens -/

/-- The compiler of another source exits. -/
theorem Reachable.apart_endProcess (h : Reachable e) (ht : e.Carries t task s) {status : Int}
    (hclear : ∀ {id q}, ((e.endProcess task.session status).getD e).sessions.get? id = some q →
      q.source = s.source → Clear source listing e.disk q) :
    Apart source listing e ((e.endProcess task.session status).getD e) := by
  have hs := ht.2
  have hid := h.inOrder.registry.keyed hs
  rw [← hid] at hs hclear ⊢
  rw [Engine.endProcess, hs] at hclear ⊢
  dsimp only at hclear ⊢
  split
  · exact .refl _ _ _
  rename_i p hp
  split
  · rename_i hrun
    rw [hp] at hclear
    dsimp only at hclear
    rw [if_pos hrun, Option.getD_some] at hclear
    obtain ⟨ready, hwake⟩ := (e.exitProcess s p status).1.wake_eq s.id
    rw [hwake] at hclear
    rw [Option.getD_some, hwake]
    -- The exit is something that the session does, and the task is woken by it.
    have hworks := exitProcess_works (e := e) hp hrun status
    have hphase := (h.inOrder.schedule.fits (free_none t) ht).phase_of_running hp hrun
    have hstored := hworks.get?_self hs
    have hdeed := apart_of_deed hs (h.proper hs) hworks (exitProcess_deed hphase hp status True)
      (hclear hstored hworks.same.source)
    exact { hdeed with }
  · exact .refl _ _ _

/-- A task of another source that can go on takes its turn. -/
theorem Reachable.apart_resume (h : Reachable e) (ht : e.Carries t task s) (hready : t ∈ e.ready)
    (hclear : ∀ {id q},
      (Engine.resume { e with ready := e.ready.erase t } t).sessions.get? id = some q →
        q.source = s.source → Clear source listing e.disk q) :
    Apart source listing e (Engine.resume { e with ready := e.ready.erase t } t) := by
  obtain ⟨earlier, later, -, hsplit, herase⟩ := List.exists_erase_eq hready
  obtain ⟨task', s', ht', hgo, hfits, hbusy⟩ := h.inOrder.schedule.take hsplit
  obtain ⟨rfl, rfl⟩ := ht.unique ht'
  rw [herase] at hclear ⊢
  let e₁ : Engine := { e with ready := earlier ++ later }
  have h₁ : InOrder (some (t, .admitted)) e₁ := ⟨h.inOrder.registry.congr rfl rfl rfl, hbusy⟩
  have hfirst : Apart source listing e e₁ := { Apart.refl source listing e with }
  have ht₁ : e₁.Carries t task s := ht
  rw [resume_eq ht₁] at hclear ⊢
  exact hfirst.trans (apart_turn h₁ ht₁ (h.proper ht.2) (turn_of_canGoOn (e := e₁) hfits hgo t)
    hclear)

/-- A check of another source begins. -/
theorem Reachable.apart_check (h : Reachable e) {other : Path} (hother : other ≠ source)
    {path : Text} {text : Option JsonString} {receiver : Receiver} {behaviour : Behaviour}
    (hpath : e.disk.resolved path = .ok other)
    (hclear : ∀ {id q}, (e.happen other (.check path text receiver behaviour)).sessions.get? id =
      some q → q.source = other → Clear source listing e.disk q) :
    Apart source listing e (e.happen other (.check path text receiver behaviour)) := by
  simp only [happen] at hclear ⊢
  split at hclear
  · rename_i e' s hnew
    obtain rfl : s.source = other := Except.ok.inj ((newSession_placed hnew).1.symm.trans hpath)
    have hfresh := newSession_fresh hnew
    have hmade : Apart source listing e _ := apart_enrol h.inOrder hnew hother behaviour
    obtain ⟨horder, ht⟩ := h.inOrder.enrol hnew behaviour
    obtain ⟨-, -, rfl⟩ := newSession_ok hnew
    dsimp only [beginCheck] at hclear ⊢
    rw [resume_eq ht, Engine.turn] at hclear ⊢
    exact hmade.trans (apart_enter horder ht hfresh.proper hfresh.phase hfresh.process hother
      hclear)
  · rcases newSession_error ‹_› with rfl | rfl
    · exact .refl _ _ _
    · exact { Apart.refl source listing e with }

/-- A compiler of another source may start. -/
theorem Reachable.apart_start (h : Reachable e) {other : Path} (hother : other ≠ source) :
    Apart source listing e (e.happen other .start) := by
  have hschedule := h.inOrder.schedule
  simp only [happen]
  cases hholder : e.holder other with
  | none => exact .refl _ _ _
  | some task =>
    obtain ⟨t, s, ht, rfl⟩ := hschedule.of_holder hholder
    rw [Option.bind_some, openStart_eq hschedule.toRoster ht.1]
    split
    · have hput : Apart source listing e
          { e with tasks := e.tasks.put t { task with startHeld := some false } } :=
        apart_putTask ht hother fun u => Table.get?_put _ _ u _
      exact { hput with }
    · exact .refl _ _ _

/-- Whatever happens to another source does not concern this one, as long as the sessions of the
    other one are clear of it. -/
theorem Reachable.apart (h : Reachable e) {other : Path} (hother : other ≠ source)
    {what : Happening} (habout : what.IsAbout e.disk other)
    (hclear : ∀ {id q}, (e.happen other what).sessions.get? id = some q → q.source = other →
      Clear source listing e.disk q) : Apart source listing e (e.happen other what) := by
  have hschedule := h.inOrder.schedule
  -- Each thing that may happen touches the task at the head of the queue of the other source, or a
  -- session that comes in for it.
  cases what with
  | check path text receiver behaviour => exact h.apart_check hother habout hclear
  | start => exact h.apart_start hother
  | exit status =>
    simp only [happen] at hclear ⊢
    cases hholder : e.holder other with
    | none => exact .refl _ _ _
    | some task =>
      obtain ⟨t, s, ht, rfl⟩ := hschedule.of_holder hholder
      rw [hholder, Option.bind_some] at hclear
      exact h.apart_endProcess ht hclear
  | cancel =>
    simp only [happen]
    rw [cancelActive]
    split
    · exact .refl _ _ _
    · obtain ⟨t, task, s, ht, rfl, rfl, -⟩ := hschedule.active ‹_›
      exact apart_cancelSession h.inOrder.registry ht.2 hother
  | turn =>
    simp only [happen] at hclear ⊢
    split at hclear
    · rename_i t hhead
      by_cases hready : t ∈ e.ready
      · obtain ⟨task, s, ht, rfl⟩ := hschedule.queue_owned (List.mem_of_head? hhead)
        rw [if_pos hready] at hclear ⊢
        exact h.apart_resume ht hready hclear
      · rw [if_neg hready]
        exact .refl _ _ _
    · exact .refl _ _ _

end Engine

end LiveCheck
