import LiveCheck.Proofs.Check.Happening
import LiveCheck.Proofs.Check.Ledger
import LiveCheck.Proofs.Check.Lockstep

/-!
# One source of an engine in an engine of its own

An engine that checks one source only may mirror what another engine does about that source
(`Mirror`): the sessions are the same but for their numbers, which come in the same order; the tasks
are the same but for theirs, and take turns in the same order; and both disks have the same at the
places of the source and of its listing.

Whatever is done about the source in both engines, the one still mirrors the other: a check begins
(`Mirror.beginCheck`), a task takes a turn (`Mirror.resume`), a compiler starts or exits
(`Mirror.openStart`, `Mirror.endProcess`), the source is cancelled (`Mirror.cancelActive`).
-/

namespace LiveCheck.Engine

variable {number : Int → Int} {ticket : TaskId → TaskId} {source listing : Path}
  {e e' f f' : Engine} {t : TaskId} {task : Task} {s s' : Session} {id : Int}

/-- Engines with the same settings refuse the same, and else make the same session. -/
theorem newSession_congr (hsettings : e.settings = f.settings) (hhere : e.disk.here = f.disk.here)
    (path : Text) (text : Option JsonString) (receiver : Receiver) :
    (∃ refusal e' f', e.newSession path text receiver = (e', .error refusal) ∧
      f.newSession path text receiver = (f', .error refusal)) ∨
    ∃ e' f' s, e.newSession path text receiver = (e', .ok { s with id := e.nextId }) ∧
      f.newSession path text receiver = (f', .ok s) := by
  have hresolved : e.disk.resolved path = f.disk.resolved path := by
    rw [Disk.resolved, Disk.resolved, hhere]
  have hadmission : e.admission = f.admission := by
    funext source
    unfold admission suffixes
    rw [hsettings]
  simp only [newSession, hresolved, hadmission, hsettings]
  split
  · exact .inl ⟨_, _, _, rfl, rfl⟩
  split
  · exact .inl ⟨_, _, _, rfl, rfl⟩
  split
  · exact .inl ⟨_, _, _, rfl, rfl⟩
  · exact .inr ⟨_, _, _, rfl, rfl⟩

/-- The second engine mirrors what the first one does about the source. -/
structure Mirror (number : Int → Int) (ticket : TaskId → TaskId) (source listing : Path)
    (e f : Engine) : Prop where
  plain : source.Plain
  plain_listing : listing.Plain
  settings : e.settings = f.settings
  compiler : e.compiler = f.compiler
  toSource : Disk.Agree source.names f.disk e.disk
  toListing : Disk.Agree listing.names f.disk e.disk
  sole : ∀ {id s}, f.sessions.get? id = some s → s.source = source ∧ s.listing = listing
  sessions : ∀ {id s}, f.sessions.get? id = some s →
    e.sessions.get? (number id) = some (s.renumber number)
  covers : ∀ {n s}, e.sessions.get? n = some s → s.source = source →
    ∃ id r, f.sessions.get? id = some r ∧ number id = n
  rising : ∀ {id id' s s'}, f.sessions.get? id = some s → f.sessions.get? id' = some s' →
    id < id' → number id < number id'
  tasks : ∀ {t task}, f.tasks.get? t = some task →
    e.tasks.get? (ticket t) = some (task.renumber number)
  latest : e.latest.get? source = (f.latest.get? source).map number
  active : e.active.get? source = (f.active.get? source).map number
  queue : e.queueOf source = (f.queueOf source).map ticket
  spawns : e.spawnsOf source = f.spawns.map (·.renumber number)
  reports : e.reportsOf source = f.deliveries.map (renumberReport number)

namespace Mirror

/-! ## Numbers and tickets -/

/-- Different sessions have different numbers in the mirror. -/
theorem injective (h : Mirror number ticket source listing e f) {id' : Int}
    (hs : f.sessions.get? id = some s) (hs' : f.sessions.get? id' = some s')
    (heq : number id = number id') : id = id' := by
  rcases Int.lt_trichotomy id id' with hlt | heq | hlt
  · have := h.rising hs hs' hlt
    omega
  · exact heq
  · have := h.rising hs' hs hlt
    omega

/-- A number of a session is found where it is looked for, and only there. -/
theorem map_eq_some (h : Mirror number ticket source listing e f) {found : Option Int}
    (hfound : ∀ {n}, found = some n → ∃ r, f.sessions.get? n = some r)
    (hs : f.sessions.get? id = some s) : found.map number = some (number id) ↔ found = some id := by
  refine ⟨fun hmap => ?_, fun hid => by rw [hid, Option.map_some]⟩
  obtain ⟨n, hn, heq⟩ := Option.map_eq_some_iff.1 hmap
  obtain ⟨r, hr⟩ := hfound hn
  rw [hn, h.injective hr hs heq]

/-- Different tasks are different ones in the mirror. -/
theorem ticket_injective (h : Mirror number ticket source listing e f) (hf : Roster f) {u : TaskId}
    {a : Task} (ht : f.tasks.get? t = some task) (hu : f.tasks.get? u = some a)
    (heq : ticket t = ticket u) : t = u := by
  have hsame := (h.tasks ht).symm.trans (heq ▸ h.tasks hu)
  obtain ⟨s, hs⟩ := hf.owned ht
  obtain ⟨r, hr⟩ := hf.owned hu
  exact hf.alone ht hu (h.injective hs hr (congrArg Task.session (Option.some.inj hsame)))

/-- A task of the mirrored engine carries the same session in the mirror, under its number there. -/
theorem carries (h : Mirror number ticket source listing e f) (ht : f.Carries t task s) :
    e.Carries (ticket t) (task.renumber number) (s.renumber number) :=
  ⟨h.tasks ht.1, h.sessions ht.2⟩

/-! ## Work on a session -/

/-- The session looks the same in both engines. -/
theorem twin (h : Mirror number ticket source listing e f) (hf : Registry f)
    (hs : f.sessions.get? s.id = some s) : Twin number (e.concerns source) e f s := by
  obtain ⟨rfl, rfl⟩ := h.sole hs
  refine ⟨h.settings, h.compiler, ?_, ?_, h.sessions hs, hs, h.plain, h.plain_listing, h.toSource,
    h.toListing, h.spawns, h.reports⟩
  · have hhanded : ∀ {n}, f.latest.get? s.source = some n → ∃ r, f.sessions.get? n = some r :=
      fun hn => (hf.handed hn).imp fun _ => And.left
    rw [isCurrent, isCurrent]
    exact decide_eq_decide.2 (h.latest ▸ h.map_eq_some hhanded hs)
  · exact concerns_iff.2 ⟨_, h.sessions hs, rfl⟩

section

variable (h : Mirror number ticket source listing e f) (hs : f.sessions.get? s.id = some s)
  (hstored : e'.sessions.get? (number s.id) = some (s'.renumber number))
  (hstored' : f'.sessions.get? s.id = some s') (hsource : s'.source = s.source)
  (hne : ∀ n, n ≠ number s.id → e'.sessions.get? n = e.sessions.get? n)
  (hne' : ∀ n, n ≠ s.id → f'.sessions.get? n = f.sessions.get? n)

include hs hstored' hsource hne' in
/-- With one session replaced, each was on record before, with its source and its listing. -/
theorem exists_before_replace (hlisting : s'.listing = s.listing) {r' : Session}
    (hr : f'.sessions.get? id = some r') :
    ∃ r, f.sessions.get? id = some r ∧ r'.source = r.source ∧ r'.listing = r.listing := by
  by_cases hself : id = s.id
  · obtain rfl := Option.some.inj (hstored'.symm.trans (hself ▸ hr))
    exact ⟨s, hself ▸ hs, hsource, hlisting⟩
  · exact ⟨r', hne' id hself ▸ hr, rfl, rfl⟩

include h

include hs hstored hsource hne in
/-- The sessions that concern a source are the same ones. -/
theorem replace_concerns : e'.concerns source = e.concerns source := by
  funext n
  by_cases hself : n = number s.id
  · rw [concerns, concerns, hself, hstored, h.sessions hs]
    simp only [Option.any_some, Session.renumber, hsource]
  · rw [concerns, concerns, hne n hself]

include hs hstored hstored' hne hne' in
/-- The sessions of the second engine are still in the first one. -/
theorem replace_sessions {r : Session} (hr : f'.sessions.get? id = some r) :
    e'.sessions.get? (number id) = some (r.renumber number) := by
  by_cases hself : id = s.id
  · obtain rfl := Option.some.inj (hstored'.symm.trans (hself ▸ hr))
    rw [hself, hstored]
  · rw [hne' id hself] at hr
    rw [hne _ fun heq => hself (h.injective hr hs heq), h.sessions hr]

include hstored' hne hne' in
/-- The sessions of the source are still in the second engine. -/
theorem replace_covers {n : Int} {r : Session} (hr : e'.sessions.get? n = some r)
    (hsource : r.source = source) : ∃ id q, f'.sessions.get? id = some q ∧ number id = n := by
  by_cases hself : n = number s.id
  · exact ⟨s.id, s', hstored', hself.symm⟩
  · obtain ⟨id, q, hq, rfl⟩ := h.covers (hne n hself ▸ hr) hsource
    exact ⟨id, q, (hne' id fun hid => hself (hid ▸ rfl)).trans hq, rfl⟩

end

/-- The session goes on in both engines, and no other session does. -/
theorem replace (h : Mirror number ticket source listing e f)
    (hs : f.sessions.get? s.id = some s) (hid : s'.id = s.id) (hsource : s'.source = s.source)
    (hlisting : s'.listing = s.listing) (htwin : Twin number (e.concerns source) e' f' s')
    (hne : ∀ n, n ≠ number s.id → e'.sessions.get? n = e.sessions.get? n)
    (hne' : ∀ n, n ≠ s.id → f'.sessions.get? n = f.sessions.get? n)
    (hkept : Kept e e') (hkept' : Kept f f') : Mirror number ticket source listing e' f' := by
  obtain ⟨hours, hours'⟩ := h.sole hs
  have hstored : e'.sessions.get? (number s.id) = some (s'.renumber number) := hid ▸ htwin.stored
  have hstored' : f'.sessions.get? s.id = some s' := hid ▸ htwin.stored'
  have hconcerns := h.replace_concerns hs hstored hsource hne
  have hqueue : e'.queueOf source = e.queueOf source ∧ f'.queueOf source = f.queueOf source := by
    simp only [queueOf, hkept.queues, hkept'.queues, and_self]
  refine ⟨h.plain, h.plain_listing, htwin.settings, htwin.compiler, ?_, ?_, fun hr => ?_,
    h.replace_sessions hs hstored hstored' hne hne', h.replace_covers hstored' hne hne',
    fun hr hr' => ?_, ?_, ?_, ?_, ?_, ?_, ?_⟩
  · exact hours ▸ hsource ▸ htwin.toSource
  · exact hours' ▸ hlisting ▸ htwin.toListing
  · obtain ⟨r, hr, hrsource, hrlisting⟩ :=
      exists_before_replace hs hstored' hsource hne' hlisting hr
    rw [hrsource, hrlisting]
    exact h.sole hr
  · obtain ⟨_, hr, -⟩ := exists_before_replace hs hstored' hsource hne' hlisting hr
    obtain ⟨_, hr', -⟩ := exists_before_replace hs hstored' hsource hne' hlisting hr'
    exact h.rising hr hr'
  · rw [hkept.tasks, hkept'.tasks]
    exact h.tasks
  · rw [hkept.latest, hkept'.latest, h.latest]
  · rw [hkept.active, hkept'.active, h.active]
  · rw [hqueue.1, hqueue.2, h.queue]
  · rw [spawnsOf, hconcerns]
    exact htwin.spawns
  · rw [reportsOf, hconcerns]
    exact htwin.deliveries

/-- A task works on the session in both engines. -/
theorem works (h : Mirror number ticket source listing e f) (hs : f.sessions.get? s.id = some s)
    {r r' : Engine × Progress} {q q' : Session}
    (hconcur : Concur number (e.concerns source) s r r')
    (hworks : Works (e, s.renumber number) (r.1, q)) (hworks' : Works (f, s) (r'.1, q')) :
    Mirror number ticket source listing r.1 r'.1 := by
  obtain ⟨-, s', hsame, htwin⟩ := hconcur
  exact h.replace hs hsame.id hsame.source hsame.listing htwin
    (fun _ hne => hworks.get?_of_ne hne) (fun _ hne => hworks'.get?_of_ne hne)
    hworks.kept hworks'.kept

/-! ## Cancelling -/

/-- A session that is told to stop in both engines is so in the mirror. -/
theorem cancelSession (h : Mirror number ticket source listing e f) (hf : Registry f)
    (hs : f.sessions.get? id = some s) : Mirror number ticket source listing
      (e.cancelSession (number id)) (f.cancelSession id) := by
  obtain rfl := hf.keyed hs
  obtain ⟨ready, he⟩ := cancelSession_put (h.sessions hs)
  obtain ⟨ready', hf'⟩ := cancelSession_put hs
  have hid : s.cancel.id = s.id := rfl
  have htwin := (h.twin hf hs).replace hid rfl rfl
  have hput := h.replace hs hid rfl rfl htwin (fun _ hne => Table.get?_put_of_ne hne _)
    (fun _ hne => Table.get?_put_of_ne hne _) ⟨rfl, .refl _, rfl, rfl, rfl, rfl, rfl, rfl⟩
    ⟨rfl, .refl _, rfl, rfl, rfl, rfl, rfl, rfl⟩
  rw [he, hf']
  exact { hput with }

/-- Cancelling the source in both engines keeps the mirror. -/
theorem cancelActive (h : Mirror number ticket source listing e f) (hf : InOrder none f) :
    Mirror number ticket source listing (e.cancelActive source) (f.cancelActive source) := by
  rw [Engine.cancelActive, Engine.cancelActive, h.active]
  cases hactive : f.active.get? source with
  | none => exact h
  | some id =>
    obtain ⟨t, task, s, ht, rfl, -⟩ := hf.schedule.active hactive
    exact h.cancelSession hf.registry ht.2

/-! ## Tasks and queues -/

/-- What is on record of a task changes in both engines. -/
theorem putTask (h : Mirror number ticket source listing e f) (hf : Roster f)
    (ht : f.tasks.get? t = some task) {a : Task} {tasks tasks' : Table TaskId Task}
    (he : ∀ u, tasks.get? u = if u = ticket t then some (a.renumber number) else e.tasks.get? u)
    (hf' : ∀ u, tasks'.get? u = if u = t then some a else f.tasks.get? u) :
    Mirror number ticket source listing { e with tasks } { f with tasks := tasks' } := by
  refine { h with tasks := fun {u b} hu => ?_ }
  dsimp only at hu ⊢
  rw [hf'] at hu
  rw [he]
  split at hu
  · rw [if_pos (congrArg ticket ‹u = t›), Option.some.inj hu]
  · rw [if_neg fun heq => ‹¬u = t› (h.ticket_injective hf hu ht heq), h.tasks hu]

/-- The same change to a task in both engines keeps the mirror. -/
theorem modifyTask (h : Mirror number ticket source listing e f) (hf : Roster f)
    (ht : f.tasks.get? t = some task) (change : Task → Task)
    (hchange : change (task.renumber number) = (change task).renumber number) :
    Mirror number ticket source listing { e with tasks := e.tasks.modify (ticket t) change }
      { f with tasks := f.tasks.modify t change } := by
  refine h.putTask (a := change task) hf ht (fun u => ?_) fun u => ?_
  · rw [Table.get?_modify, h.tasks ht, Option.map_some, hchange]
  · rw [Table.get?_modify, ht, Option.map_some]

/-- The same change to the queue in both engines keeps the mirror. -/
theorem putQueue (h : Mirror number ticket source listing e f) (queue : List TaskId) :
    Mirror number ticket source listing
      { e with queues := e.queues.put source (queue.map ticket) }
      { f with queues := f.queues.put source queue } := by
  refine { h with queue := ?_ }
  rw [queueOf_put, queueOf_put, if_pos rfl, if_pos rfl]

/-- When the task at the head leaves in both engines, the same next one has its turn. -/
theorem leaveQueue (h : Mirror number ticket source listing e f)
    (hf : Schedule (some (t, .admitted)) f) (ht : f.Carries t task s) :
    Mirror number ticket source listing (e.leaveQueue (ticket t) source)
      (f.leaveQueue t source) := by
  obtain ⟨rest, hqueue⟩ := hf.queueOf_eq ht
  rw [(h.sole ht.2).1] at hqueue
  have hqueue' : e.queueOf source = ticket t :: rest.map ticket := by
    rw [h.queue, hqueue, List.map_cons]
  have hput := h.putQueue rest
  rw [Engine.leaveQueue, Engine.leaveQueue]
  simp only [hqueue, hqueue', List.erase_cons_head, List.head?_cons, if_true]
  cases rest with
  | nil => exact hput
  | cons next rest =>
    obtain ⟨a, r, ha, -⟩ := hf.queue_owned (show next ∈ f.queueOf source by simp [hqueue])
    have hroster : Roster { f with queues := f.queues.put source (next :: rest) } :=
      { hf.toRoster with }
    exact { hput.modifyTask hroster ha.1 (fun task => { task with stage := .admitted }) rfl with }

/-- A session that is on record retires in both engines. -/
theorem retire (h : Mirror number ticket source listing e f)
    (hactive : ∀ {n}, f.active.get? source = some n → ∃ r, f.sessions.get? n = some r)
    (hs : f.sessions.get? s.id = some s) :
    Mirror number ticket source listing (e.retire (s.renumber number)) (f.retire s) := by
  have hsource := (h.sole hs).1
  have hiff : e.active.get? source = some (number s.id) ↔ f.active.get? source = some s.id := by
    rw [h.active]
    exact h.map_eq_some hactive hs
  have hfields : (s.renumber number).source = source ∧ (s.renumber number).id = number s.id :=
    ⟨hsource, rfl⟩
  rw [Engine.retire, Engine.retire, hfields.1, hfields.2, hsource]
  split
  · rw [if_pos (hiff.1 ‹_›)]
    refine { h with active := ?_ }
    rw [Table.get?_erase, Table.get?_erase, if_pos rfl, if_pos rfl, Option.map_none]
  · rw [if_neg fun hid => ‹¬_› (hiff.2 hid)]
    exact h

/-! ## The end of a turn -/

/-- A turn that leaves its task waiting is settled alike in both engines. -/
theorem settle_waits (h : Mirror number ticket source listing e f) (hf : Roster f)
    (ht : f.Carries t task s) (stage : Stage) : Mirror number ticket source listing
      (e.settle (ticket t) (s.renumber number) (.waits stage)) (f.settle t s (.waits stage)) :=
  h.modifyTask hf ht.1 (·.wait stage) rfl

/-- A turn that ends its task is settled alike in both engines. -/
theorem settle_ends (h : Mirror number ticket source listing e f)
    (hf : InOrder (some (t, .admitted)) f) (ht : f.Carries t task s) {outcome : Outcome}
    (haborted : outcome ≠ .aborted) : Mirror number ticket source listing
      (e.settle (ticket t) (s.renumber number) (.ends outcome)) (f.settle t s (.ends outcome)) := by
  have hended : Mirror number ticket source listing (e.ended (ticket t) outcome)
      (f.ended t outcome) := { h.modifyTask hf.schedule.toRoster ht.1
        (fun task => { task with stage := .ended outcome }) rfl with }
  obtain ⟨hbusy, ht'⟩ := hf.schedule.ended ht outcome
  have hleft := hended.leaveQueue hbusy ht'
  have hs := (hbusy.leave_carries ht').2
  have hsource := (h.sole ht.2).1
  have hbusy' := hbusy.leave ht'
  have hsource' : (s.renumber number).source = source := hsource
  rw [hsource] at hs hbusy'
  rw [settle_ends_eq _ _ _ haborted, settle_ends_eq _ _ _ haborted, hsource, hsource']
  refine hleft.retire (fun hn => ?_) (hf.registry.keyed ht.2 ▸ hs)
  obtain ⟨_, _, r, hr, rfl, -⟩ := hbusy'.active hn
  exact ⟨r, hr.2⟩

/-- A task that had its source to itself takes the same turn in both engines, and is settled. -/
theorem turn (h : Mirror number ticket source listing e f) (he : Registry e)
    (hf : InOrder (some (t, .admitted)) f) (ht : f.Carries t task s) {r r' : Engine × Progress}
    (hturn : Turn e (task.renumber number) (s.renumber number) r) (hturn' : Turn f task s r')
    (hconcur : Concur number (e.concerns source) s r r') :
    Mirror number ticket source listing (r.1.settle (ticket t) (s.renumber number) r.2)
      (r'.1.settle t s r'.2) := by
  have hs : f.sessions.get? s.id = some s := hf.registry.stored ht.2
  obtain ⟨_, hworks, -⟩ := hturn.reaches (he.plain (h.sessions hs))
  obtain ⟨q, hworks', hleft⟩ := hturn'.reaches (hf.registry.plain hs)
  have hafter := h.works hs hconcur hworks hworks'
  obtain ⟨hbusy, hcarries⟩ := hf.schedule.works hf.registry ht hworks'
  -- Settling depends on what a session is about only, and that has not changed.
  have hsame : s.Same q := hworks'.same
  have hsame' : (s.renumber number).Same (q.renumber number) :=
    ⟨congrArg number hsame.id, hsame.source, hsame.listing, hsame.text, hsame.receiver,
      hsame.cancelled⟩
  rw [← settle_congr _ _ hsame, ← settle_congr _ _ hsame', hconcur.1]
  cases hprogress : r'.2 with
  | waits stage => exact hafter.settle_waits hbusy.toRoster hcarries stage
  | ends outcome =>
    exact hafter.settle_ends ⟨hf.registry.works hs hworks', hbusy⟩ hcarries fun hend =>
      hleft.ne_aborted (hprogress.trans (congrArg Progress.ends hend))

/-- A task can go on in both engines, or in none. -/
theorem mem_ready (h : Mirror number ticket source listing e f) (he : InOrder none e)
    (hf : InOrder none f) (ht : f.Carries t task s) : ticket t ∈ e.ready ↔ t ∈ f.ready := by
  have hcarries := h.carries ht
  rw [he.schedule.mem_ready, hf.schedule.mem_ready]
  simp only [free_none, true_and]
  constructor
  · rintro ⟨a, r, ha, hgo⟩
    obtain ⟨rfl, rfl⟩ := hcarries.unique ha
    exact ⟨task, s, ht, hgo⟩
  · rintro ⟨a, r, ha, hgo⟩
    obtain ⟨rfl, rfl⟩ := ht.unique ha
    exact ⟨_, _, hcarries, hgo⟩

/-- A task that can go on takes its turn in both engines. -/
theorem resume (h : Mirror number ticket source listing e f) (he : InOrder none e)
    (hf : InOrder none f) (hready : t ∈ f.ready) (hready' : ticket t ∈ e.ready) :
    Mirror number ticket source listing
      (Engine.resume { e with ready := e.ready.erase (ticket t) } (ticket t))
      (Engine.resume { f with ready := f.ready.erase t } t) := by
  obtain ⟨earlier, later, -, hsplit, herase⟩ := List.exists_erase_eq hready
  obtain ⟨earlier', later', -, hsplit', herase'⟩ := List.exists_erase_eq hready'
  obtain ⟨task, s, ht, hgo, hfits, hbusy⟩ := hf.schedule.take hsplit
  obtain ⟨task', s', ht', hgo', hfits', hbusy'⟩ := he.schedule.take hsplit'
  obtain ⟨rfl, rfl⟩ := (h.carries ht).unique ht'
  rw [herase, herase']
  let e₁ : Engine := { e with ready := earlier' ++ later' }
  let f₁ : Engine := { f with ready := earlier ++ later }
  have h₁ : Mirror number ticket source listing e₁ f₁ := { h with }
  have hf₁ : InOrder (some (t, .admitted)) f₁ := ⟨hf.registry.congr rfl rfl rfl, hbusy⟩
  have hs : f.sessions.get? s.id = some s := hf.registry.stored ht.2
  have ht₁ : f₁.Carries t task s := ht
  have ht₁' : e₁.Carries (ticket t) (task.renumber number) (s.renumber number) := ht'
  -- The task and its mirror image carry twins, and twins take the same turn.
  rw [resume_eq ht₁, resume_eq ht₁']
  exact h₁.turn (he.registry.congr rfl rfl rfl) hf₁ ht₁ (turn_of_canGoOn (e := e₁) hfits' hgo' _)
    (turn_of_canGoOn (e := f₁) hfits hgo t)
    ((h₁.twin hf₁.registry hs).turn hfits hgo t (ticket t))

/-! ## The compiler starts or exits -/

/-- The compiler of a session starts in both engines, or in none. -/
theorem openStart (h : Mirror number ticket source listing e f) (he : Roster e) (hf : Roster f)
    (ht : f.tasks.get? t = some task) : Mirror number ticket source listing
      ((e.openStart (number task.session)).getD e) ((f.openStart task.session).getD f) := by
  have hsession : (task.renumber number).session = number task.session := rfl
  have hheld : (task.renumber number).startHeld = task.startHeld := rfl
  rw [openStart_eq hf ht, ← hsession, openStart_eq he (h.tasks ht), hheld]
  split
  · have hput := h.putTask (a := { task with startHeld := some false }) hf ht
      (fun u => Table.get?_put _ _ u _) (fun u => Table.get?_put _ _ u _)
    exact { hput with }
  · exact h

/-- The compiler of a session exits in both engines, or in none. -/
theorem endProcess (h : Mirror number ticket source listing e f) (hf : Registry f)
    (hs : f.sessions.get? s.id = some s) (status : Int) : Mirror number ticket source listing
      ((e.endProcess (number s.id) status).getD e) ((f.endProcess s.id status).getD f) := by
  have hprocess : (s.renumber number).process = s.process := rfl
  rw [Engine.endProcess, Engine.endProcess, hs, h.sessions hs]
  dsimp only
  rw [hprocess]
  cases hp : s.process with
  | none => exact h
  | some p =>
    dsimp only
    split
    · -- The processes of twins are in the same state, so they exit together.
      have hexit := (h.twin hf hs).exitProcess p status
      have hworks := exitProcess_works (e := f) hp ‹_› status
      have hworks' := exitProcess_works (e := e) (s := s.renumber number) hp ‹_› status
      obtain ⟨ready, hwake⟩ := (f.exitProcess s p status).1.wake_eq s.id
      obtain ⟨ready', hwake'⟩ :=
        (e.exitProcess (s.renumber number) p status).1.wake_eq (number s.id)
      have hsame : s.Same (f.exitProcess s p status).2 := hworks.same
      have hafter := h.replace hs hsame.id hsame.source hsame.listing hexit
        (fun _ hne => hworks'.get?_of_ne hne) (fun _ hne => hworks.get?_of_ne hne)
        hworks'.kept hworks.kept
      simp only [Option.getD_some, hwake, hwake']
      exact { hafter with }
    · exact h

/-! ## A check begins -/

/-- The same session is overtaken in both engines. -/
theorem overtake (h : Mirror number ticket source listing e f) {stage : Stage}
    (hf : InOrder (some (t, stage)) f) (ht : f.Carries t task s) :
    Mirror number ticket source listing (e.overtake (s.renumber number)) (f.overtake s) := by
  have hs : f.sessions.get? s.id = some s := hf.registry.stored ht.2
  have hfields : (s.renumber number).source = source ∧ (s.renumber number).id = number s.id :=
    ⟨(h.sole hs).1, rfl⟩
  have hput : Mirror number ticket source listing
      { e with active := e.active.put source (number s.id) }
      { f with active := f.active.put source s.id } := by
    refine { h with active := ?_ }
    rw [Table.get?_put_self, Table.get?_put_self, Option.map_some]
  rw [Engine.overtake, Engine.overtake, hfields.1, hfields.2, (h.sole hs).1, h.active]
  -- The session that was active is told to stop in both engines, unless it is this one.
  cases hprior : f.active.get? source with
  | none => exact hput
  | some older =>
    obtain ⟨u, a, r, hu, rfl, -⟩ := hf.schedule.active hprior
    rw [Option.map_some]
    dsimp only
    split
    · rw [if_pos (h.injective hu.2 hs ‹_›)]
      exact hput
    · rw [if_neg fun heq => ‹¬_› (congrArg number heq)]
      have hnoted : Mirror number ticket source listing
          (Engine.note { e with active := e.active.put source (number s.id) }
            [.overtaken (number s.id) (number a.session)])
          (Engine.note { f with active := f.active.put source s.id }
            [.overtaken s.id a.session]) := { hput with }
      exact hnoted.cancelSession (hf.registry.congr rfl rfl rfl) hu.2

/-- The first turn of a task is the same in both engines. -/
theorem enter (h : Mirror number ticket source listing e f)
    (he : InOrder (some (ticket t, .created)) e) (hf : InOrder (some (t, .created)) f)
    (ht : f.Carries t task s) (hphase : s.phase = .idle) (hprocess : s.process = none) :
    Mirror number ticket source listing
      ((e.enter (ticket t) (task.renumber number) (s.renumber number)).1.settle (ticket t)
        (s.renumber number) (e.enter (ticket t) (task.renumber number) (s.renumber number)).2)
      ((f.enter t task s).1.settle t s (f.enter t task s).2) := by
  have hover := h.overtake hf ht
  obtain ⟨hf₁, ht₁⟩ := hf.overtake ht
  obtain ⟨he₁, -⟩ := he.overtake (h.carries ht)
  have hjoin := hf₁.schedule.join ht₁
  have hsource : s.source = source := (h.sole ht.2).1
  have hsource' : (s.renumber number).source = source := hsource
  rw [hsource] at hjoin
  unfold Engine.enter
  dsimp only
  rw [hsource, hsource']
  generalize e.overtake (s.renumber number) = e₁ at *
  generalize f.overtake s = f₁ at *
  have hqueued := hover.putQueue (f₁.queueOf source ++ [t])
  rw [List.map_append, ← hover.queue, List.map_cons, List.map_nil] at hqueued
  -- The queues are equally long, so both tasks get the source, or both wait.
  have hempty : (e₁.queueOf source).isEmpty = (f₁.queueOf source).isEmpty := by
    rw [hover.queue, List.isEmpty_map]
  rw [hempty]
  split
  · rw [if_pos ‹_›] at hjoin
    have hf₂ : InOrder (some (t, .admitted))
        { f₁ with queues := f₁.queues.put source (f₁.queueOf source ++ [t]) } :=
      ⟨hf₁.registry.congr rfl rfl rfl, hjoin⟩
    have hs := ht₁.2
    rw [← hf₁.registry.keyed hs] at hs
    exact hqueued.turn (he₁.registry.congr rfl rfl rfl) hf₂ ht₁ (.proceed hphase hprocess)
      (.proceed hphase hprocess) ((hqueued.twin hf₂.registry hs).proceed hphase task)
  · exact hqueued.settle_waits hjoin.toRoster ht₁ .queued

/-- Only the numbers and tickets of sessions and tasks that are on record matter. -/
theorem renumber (h : Mirror number ticket source listing e f) (hf : Reachable f)
    {number' : Int → Int} {ticket' : TaskId → TaskId}
    (hnumber : ∀ {id s}, f.sessions.get? id = some s → number' id = number id)
    (hticket : ∀ {t task}, f.tasks.get? t = some task → ticket' t = ticket t) :
    Mirror number' ticket' source listing e f := by
  have hrenumber : ∀ {id s}, f.sessions.get? id = some s → s.renumber number' = s.renumber number :=
    fun hs => by
      rw [Session.renumber, Session.renumber, hf.inOrder.registry.keyed hs, hnumber hs]
  -- The numbers and tasks that occur in the engine are those of its sessions and tasks.
  have hmap : ∀ {found : Option Int}, (∀ n, found = some n → ∃ s, f.sessions.get? n = some s) →
      found.map number = found.map number' := fun hfound =>
    Option.map_congr fun n hn => by
      obtain ⟨s, hs⟩ := hfound n hn
      exact (hnumber hs).symm
  refine { h with
    sessions := fun hs => ?_, covers := fun hs hsource => ?_, rising := fun hs hs' hlt => ?_,
    tasks := fun ht => ?_, latest := ?_, active := ?_, queue := ?_, spawns := ?_, reports := ?_ }
  · rw [hnumber hs, hrenumber hs]
    exact h.sessions hs
  · obtain ⟨id, r, hr, rfl⟩ := h.covers hs hsource
    exact ⟨id, r, hr, hnumber hr⟩
  · rw [hnumber hs, hnumber hs']
    exact h.rising hs hs' hlt
  · obtain ⟨s, hs⟩ := hf.inOrder.schedule.owned ht
    rw [hticket ht, h.tasks ht, Task.renumber, Task.renumber, hnumber hs]
  · rw [h.latest]
    exact hmap fun n hn => (hf.inOrder.registry.handed hn).imp fun _ => And.left
  · rw [h.active]
    exact hmap fun n hn => by
      obtain ⟨t, task, s, ht, rfl, -⟩ := hf.inOrder.schedule.active hn
      exact ⟨s, ht.2⟩
  · refine h.queue.trans (List.map_congr_left fun t ht => ?_)
    obtain ⟨task, s, hs, -⟩ := hf.inOrder.schedule.queue_owned ht
    exact (hticket hs.1).symm
  · refine h.spawns.trans (List.map_congr_left fun spawn hspawn => ?_)
    obtain ⟨s, hs, -⟩ := hf.asked_setOut hspawn
    rw [Spawn.renumber, Spawn.renumber, hnumber hs]
  · refine h.reports.trans (List.map_congr_left fun report hreport => ?_)
    obtain ⟨s, hs⟩ := hf.ledger.known hreport
    rw [renumberReport, renumberReport, hnumber hs]

/-- With a new session on record in both engines, those of the second one are in the first one. -/
theorem enrol_sessions (h : Mirror number ticket source listing e f) (he : Reachable e)
    (hnumber : number s.id = e.nextId) {r : Session}
    (hr : (f.sessions.put s.id s).get? id = some r) :
    (e.sessions.put (number s.id) (s.renumber number)).get? (number id) =
      some (r.renumber number) := by
  rw [Table.get?_put] at hr
  split at hr
  · obtain rfl := Option.some.inj hr
    rw [‹id = s.id›, Table.get?_put_self]
  · have hbelow := he.inOrder.registry.below (h.sessions hr)
    rw [Table.get?_put_of_ne (by omega), h.sessions hr]

/-- The new session has the largest number in both engines. -/
theorem enrol_rising (h : Mirror number ticket source listing e f) (he : Reachable e)
    (hf : Reachable f) (hid : s.id = f.nextId) (hnumber : number s.id = e.nextId) {id' : Int}
    {r q : Session} (hr : (f.sessions.put s.id s).get? id = some r)
    (hq : (f.sessions.put s.id s).get? id' = some q) (hlt : id < id') :
    number id < number id' := by
  rw [Table.get?_put] at hr hq
  split at hr <;> split at hq
  · omega
  · have := hf.inOrder.registry.below hq
    omega
  · rw [‹id' = s.id›, hnumber]
    exact he.inOrder.registry.below (h.sessions hr)
  · exact h.rising hr hq hlt

/-- The sessions of the source in the first engine are those of the second one, and so is the new
    one. -/
theorem enrol_covers (h : Mirror number ticket source listing e f) (hf : Reachable f)
    (hid : s.id = f.nextId) {n : Int} {r : Session}
    (hr : (e.sessions.put (number s.id) (s.renumber number)).get? n = some r)
    (hsource : r.source = source) :
    ∃ id q, (f.sessions.put s.id s).get? id = some q ∧ number id = n := by
  rw [Table.get?_put] at hr
  split at hr
  · exact ⟨s.id, s, Table.get?_put_self _ _ _, ‹n = number s.id›.symm⟩
  · obtain ⟨id, q, hq, rfl⟩ := h.covers hr hsource
    have hbelow := hf.inOrder.registry.below hq
    exact ⟨id, q, (Table.get?_put_of_ne (by omega) _).trans hq, rfl⟩

/-- The new task comes last in both engines. -/
theorem enrol_tasks (h : Mirror number ticket source listing e f) (he : Reachable e)
    {behaviour : Behaviour} {u : TaskId} {a : Task}
    (hticket : ticket f.tasks.entries.length = e.tasks.entries.length)
    (ha : (f.tasks.put f.tasks.entries.length { session := s.id, behaviour }).get? u = some a) :
    (e.tasks.put e.tasks.entries.length { session := number s.id, behaviour }).get? (ticket u) =
      some (a.renumber number) := by
  rw [Table.get?_put] at ha
  split at ha
  · rw [‹u = _›, hticket, Table.get?_put_self, ← Option.some.inj ha, Task.renumber]
  · have hne : ticket u ≠ e.tasks.entries.length := fun heq => by
      have hnone := he.inOrder.schedule.not_enrolled (e.tasks.length_keys).symm
      simp [← heq, h.tasks ha] at hnone
    rw [Table.get?_put_of_ne hne, h.tasks ha]

/-- A new session comes in, with a task of its own. -/
theorem enrol (h : Mirror number ticket source listing e f) (he : Reachable e) (hf : Reachable f)
    (hid : s.id = f.nextId) (hsource : s.source = source) (hlisting : s.listing = listing)
    (behaviour : Behaviour) (hnumber : number s.id = e.nextId)
    (hticket : ticket f.tasks.entries.length = e.tasks.entries.length) :
    Mirror number ticket source listing
      { e with
        nextId := e.nextId + 1
        sessions := e.sessions.put (number s.id) (s.renumber number)
        latest := e.latest.put source (number s.id)
        tasks := e.tasks.put e.tasks.entries.length { session := number s.id, behaviour } }
      { f with
        nextId := f.nextId + 1
        sessions := f.sessions.put s.id s
        latest := f.latest.put source s.id
        tasks := f.tasks.put f.tasks.entries.length { session := s.id, behaviour } } := by
  have hconcerns : ∀ {n r}, e.sessions.get? n = some r →
      concerns { e with sessions := e.sessions.put (number s.id) (s.renumber number) } source n =
        e.concerns source n := fun {n} _ hr => by
    have hbelow := he.inOrder.registry.below hr
    rw [concerns, concerns, Table.get?_put_of_ne (show n ≠ number s.id by omega)]
  refine { h with
    sole := fun hr => ?_, sessions := h.enrol_sessions he hnumber
    covers := h.enrol_covers hf hid, rising := h.enrol_rising he hf hid hnumber
    tasks := h.enrol_tasks he hticket, latest := ?_, spawns := ?_, reports := ?_ }
  · rw [Table.get?_put] at hr
    split at hr
    · obtain rfl := Option.some.inj hr
      exact ⟨hsource, hlisting⟩
    · exact h.sole hr
  · rw [Table.get?_put_self, Table.get?_put_self, Option.map_some]
  -- What was asked for and reported is that of other sessions, which are there as before.
  · refine (List.filter_congr fun spawn hspawn => ?_).trans h.spawns
    obtain ⟨r, hr, -⟩ := he.asked_setOut hspawn
    exact hconcerns hr
  · refine (List.filter_congr fun report hreport => ?_).trans h.reports
    obtain ⟨r, hr⟩ := he.ledger.known hreport
    exact hconcerns hr

/-- A task that has just been made takes its first turn in both engines. -/
theorem resume_created (h : Mirror number ticket source listing e f)
    (he : InOrder (some (ticket t, .created)) e) (hf : InOrder (some (t, .created)) f)
    (ht : f.Carries t task s) (hstage : task.stage = .created) (hphase : s.phase = .idle)
    (hprocess : s.process = none) :
    Mirror number ticket source listing (e.resume (ticket t)) (f.resume t) := by
  have hstage' : (task.renumber number).stage = .created := hstage
  rw [resume_eq ht, resume_eq (h.carries ht), Engine.turn, Engine.turn, hstage, hstage']
  exact h.enter he hf ht hphase hprocess

/-- A check of the source begins in both engines, or is refused by both. -/
theorem check (h : Mirror number ticket source listing e f) (he : Reachable e) (hf : Reachable f)
    {path : Text} (hpath : f.disk.resolved path = .ok source)
    (hlisting : f.settings.listingPath source = .ok listing) (text : Option JsonString)
    (receiver : Receiver) (behaviour : Behaviour) : ∃ number' ticket',
      Mirror number' ticket' source listing (e.happen source (.check path text receiver behaviour))
        (f.happen source (.check path text receiver behaviour)) := by
  simp only [happen]
  rcases newSession_congr h.settings h.toSource.here path text receiver with
    ⟨refusal, e', f', hnew, hnew'⟩ | ⟨e', f', s, hnew, hnew'⟩
  · rw [hnew, hnew']
    refine ⟨number, ticket, ?_⟩
    rcases newSession_error hnew with rfl | rfl <;> rcases newSession_error hnew' with rfl | rfl <;>
      exact { h with }
  · have hfresh := newSession_fresh hnew'
    have hsource : s.source = source :=
      Except.ok.inj ((newSession_placed hnew').1.symm.trans hpath)
    have hlisting' : s.listing = listing :=
      Except.ok.inj (hfresh.listing.symm.trans (hsource ▸ hlisting))
    have hid := (newSession_ok hnew').2.1
    obtain ⟨number', hnumber⟩ : ∃ number' : Int → Int,
        ∀ id, number' id = if id = s.id then e.nextId else number id := ⟨_, fun _ => rfl⟩
    obtain ⟨ticket', hticket⟩ : ∃ ticket' : TaskId → TaskId, ∀ t, ticket' t =
        if t = f.tasks.entries.length then e.tasks.entries.length else ticket t :=
      ⟨_, fun _ => rfl⟩
    have hself : number' s.id = e.nextId := (hnumber _).trans (if_pos rfl)
    have hself' : ticket' f.tasks.entries.length = e.tasks.entries.length :=
      (hticket _).trans (if_pos rfl)
    -- Sessions and tasks that were on record before keep their numbers.
    have hkept : Mirror number' ticket' source listing e f := by
      refine h.renumber hf (fun hr => (hnumber _).trans (if_neg ?_))
        fun {t a} ha => (hticket _).trans (if_neg ?_)
      · have := hf.inOrder.registry.below hr
        omega
      · rintro rfl
        simpa [ha] using hf.inOrder.schedule.not_enrolled (f.tasks.length_keys).symm
    have henrol := hkept.enrol he hf hid hsource hlisting' behaviour hself hself'
    have hmade : ({ s with id := e.nextId } : Session) = s.renumber number' := by
      rw [Session.renumber, hself]
    rw [hmade] at hnew
    obtain ⟨horder, -⟩ := he.inOrder.enrol hnew behaviour
    obtain ⟨horder', ht⟩ := hf.inOrder.enrol hnew' behaviour
    obtain ⟨-, -, rfl⟩ := newSession_ok hnew
    obtain ⟨-, -, rfl⟩ := newSession_ok hnew'
    subst hsource
    have hbegin := henrol.resume_created (by rw [hself']; exact horder) horder' ht rfl hfresh.phase
      hfresh.process
    rw [hself'] at hbegin
    rw [hnew, hnew']
    exact ⟨number', ticket', hbegin⟩

/-! ## Whatever happens -/

/-- A task that has the source to itself has it in both engines. -/
theorem holder (h : Mirror number ticket source listing e f) (hf : Schedule none f) :
    (f.holder source = none ∧ e.holder source = none) ∨ ∃ t task s, f.Carries t task s ∧
      f.holder source = some task ∧ e.holder source = some (task.renumber number) := by
  rw [Engine.holder, Engine.holder, h.queue, List.head?_map]
  cases hhead : (f.queueOf source).head? with
  | none => exact .inl ⟨rfl, rfl⟩
  | some t =>
    obtain ⟨task, s, ht, -⟩ := hf.queue_owned (List.mem_of_head? hhead)
    exact .inr ⟨t, task, s, ht, ht.1, h.tasks ht.1⟩

/-- Whatever happens to the source, it happens in both engines. -/
theorem happen (h : Mirror number ticket source listing e f) (he : Reachable e) (hf : Reachable f)
    (hlisting : f.settings.listingPath source = .ok listing) {what : Happening}
    (habout : what.IsAbout f.disk source) : ∃ number' ticket',
      Mirror number' ticket' source listing (e.happen source what) (f.happen source what) := by
  -- Whatever happens is about the head of the queue, which is mirrored, or about a new session.
  cases what with
  | check path text receiver behaviour =>
    exact h.check he hf habout hlisting text receiver behaviour
  | start =>
    refine ⟨number, ticket, ?_⟩
    simp only [Engine.happen]
    rcases h.holder hf.inOrder.schedule with ⟨hnone, hnone'⟩ | ⟨t, task, s, ht, hsome, hsome'⟩
    · rw [hnone, hnone']
      exact h
    · rw [hsome, hsome']
      exact h.openStart he.inOrder.schedule.toRoster hf.inOrder.schedule.toRoster ht.1
  | exit status =>
    refine ⟨number, ticket, ?_⟩
    simp only [Engine.happen]
    rcases h.holder hf.inOrder.schedule with ⟨hnone, hnone'⟩ | ⟨t, task, s, ht, hsome, hsome'⟩
    · rw [hnone, hnone']
      exact h
    · rw [hsome, hsome']
      have hid := hf.inOrder.registry.keyed ht.2
      have hend := h.endProcess hf.inOrder.registry (hid.symm ▸ ht.2) status
      rwa [hid] at hend
  | cancel => exact ⟨number, ticket, h.cancelActive hf.inOrder⟩
  | turn =>
    refine ⟨number, ticket, ?_⟩
    simp only [Engine.happen]
    rw [h.queue, List.head?_map]
    cases hhead : (f.queueOf source).head? with
    | none => exact h
    | some t =>
      obtain ⟨task, s, ht, -⟩ := hf.inOrder.schedule.queue_owned (List.mem_of_head? hhead)
      have hiff := h.mem_ready he.inOrder hf.inOrder ht
      rw [Option.map_some]
      dsimp only
      split
      · rw [if_pos (hiff.1 ‹_›)]
        exact h.resume he.inOrder hf.inOrder (hiff.1 ‹_›) ‹_›
      · rw [if_neg fun hmem => ‹¬_› (hiff.2 hmem)]
        exact h

end Mirror

end LiveCheck.Engine
