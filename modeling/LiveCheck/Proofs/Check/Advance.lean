import LiveCheck.Proofs.Check.Drain
import LiveCheck.Proofs.Check.Tally

/-!
# What happens between two moments of rest

Something happens to the engine, and tasks take turns until none can go on (`Advance`). Sessions can
only be made at the beginning of this, so whatever is reported on the way is reported by the session
that is still the newest one of its source in the end (`Advance.told`), and so is every check that
ends on the way with a report (`Advance.current_of_reported`).

The disk may change from outside between two such moments, but not what the system denies.
-/

namespace LiveCheck.Engine

variable {e₀ e e' : Engine} {t : TaskId} {task : Task} {s : Session} {source : Path}

/-- The engine has gone on from one state to another, and what was reported on the way was reported
    by sessions that are the newest ones of their sources. -/
structure Advance (e₀ e : Engine) : Prop where
  order : InOrder none e
  ledger : Ledger e
  tally : Tally e
  rolls : Rolls e₀ e
  tasks : KeepsTasks e₀ e
  later : ∀ {id s}, e₀.sessions.get? id = some s →
    ∃ s', e.sessions.get? id = some s' ∧ s.Later s'
  final : ∀ {id s}, e₀.sessions.get? id = some s → s.phase.isFinal →
    ∃ s', e.sessions.get? id = some s' ∧ s.Alike s'
  told : ∃ told, e.deliveries = e₀.deliveries ++ told ∧
    ∀ d ∈ told, ∃ r, e.sessions.get? d.1 = some r ∧ e.isCurrent r
  settings : e.settings = e₀.settings
  proper : ∀ id s, e.sessions.get? id = some s → s.Proper e.settings

/-- Everything on record is in order, and no task can go on. -/
structure AtRest (e : Engine) : Prop where
  order : InOrder none e
  ledger : Ledger e
  tally : Tally e
  ready : e.ready = []
  proper : ∀ id s, e.sessions.get? id = some s → s.Proper e.settings

/-- An engine that was just made is at rest. -/
theorem AtRest.create {disk : Disk} {searchPath : List Text} {settings : Settings}
    (h : Engine.create disk searchPath settings = .ok e) : AtRest e where
  order := .create h
  ledger := .create h
  tally := .create h
  ready := by
    obtain ⟨compiler, log, rfl⟩ := create_eq h
    rfl
  proper _ _ := (Reachable.create h).proper

/-- The disk may change from outside, and something may be noted in the log. -/
theorem AtRest.amid (h : AtRest e) {disk : Disk} (hdenials : disk.denials = e.disk.denials)
    (log : List Event) : AtRest { e with disk, log } where
  order := by
    have haround : surroundings { e with disk, log } = e.surroundings :=
      congrArg (Surroundings.mk e.settings) hdenials
    exact ⟨h.order.registry.congr rfl rfl rfl, { h.order.schedule with
      fits := fun hfree ht => haround ▸ h.order.schedule.fits hfree ht }⟩
  ledger := h.ledger.congr rfl rfl
  tally := h.tally.congr rfl rfl
  ready := h.ready
  proper := h.proper

theorem AtRest.advance (h : AtRest e) : Advance e e where
  order := h.order
  ledger := h.ledger
  tally := h.tally
  rolls := .refl e
  tasks := .of_eq rfl
  later hs := ⟨_, hs, (Session.Alike.refl _).later⟩
  final hs _ := ⟨_, hs, .refl _⟩
  told := ⟨[], by rw [List.append_nil], by simp⟩
  settings := rfl
  proper := h.proper

theorem Advance.refl (h : Advance e₀ e) : Advance e e where
  order := h.order
  ledger := h.ledger
  tally := h.tally
  rolls := .refl e
  tasks := .of_eq rfl
  later hs := ⟨_, hs, (Session.Alike.refl _).later⟩
  final hs _ := ⟨_, hs, .refl _⟩
  told := ⟨[], by rw [List.append_nil], by simp⟩
  settings := rfl
  proper := h.proper

/-- A session with the largest number of its source is the one that the register knows. -/
theorem Registry.isCurrent_of_isNewest (h : Registry e) (hs : e.sessions.get? s.id = some s)
    (hnewest : e.IsNewest s) : e.isCurrent s := by
  obtain ⟨n, hn, hle⟩ := h.newest hs
  obtain ⟨r, hr, hsource⟩ := h.handed hn
  have hge := hnewest n r hr hsource
  obtain rfl : n = s.id := by omega
  exact decide_eq_true hn

/-- A step goes on, if it makes no session after something was reported. -/
theorem Advance.step (h : Advance e₀ e) (hstep : Step e e')
    (hlatest : e'.latest = e.latest ∨ e.deliveries = e₀.deliveries) : Advance e₀ e' := by
  have hfoot := hstep.footprint h.order
  have horder := h.order.step hstep
  obtain ⟨hledger, hreport⟩ := h.ledger.step h.order hstep
  obtain ⟨htally, hrolls⟩ := h.tally.step h.order hstep
  refine ⟨horder, hledger, htally, h.rolls.trans hrolls, h.tasks.trans (hstep.keepsTasks h.order),
    fun hs => ?_, fun hs hfinal => ?_, ?_, hfoot.settings.trans h.settings,
    fun _ _ => hfoot.proper h.proper⟩
  · obtain ⟨s₁, hs₁, hl⟩ := h.later hs
    obtain ⟨s', hs', hl'⟩ := hfoot.later hs₁
    exact ⟨s', hs', hl.trans hl'⟩
  · obtain ⟨s₁, hs₁, ha⟩ := h.final hs hfinal
    obtain ⟨s', hs', ha'⟩ := hfoot.alike_of_final hs₁ (by rw [ha.phase]; exact hfinal)
    exact ⟨s', hs', ha.trans ha'⟩
  · obtain ⟨told, htold, hcurrent⟩ := h.told
    -- What was reported before comes from sessions that are still the newest ones.
    have hbefore : ∀ d ∈ told, ∃ r, e'.sessions.get? d.1 = some r ∧ e'.isCurrent r := by
      intro d hd
      rcases hlatest with hlatest | hnone
      · obtain ⟨r, hr, hc⟩ := hcurrent d hd
        obtain ⟨r', hr', hl⟩ := hfoot.later hr
        exact ⟨r', hr', (isCurrent_congr hlatest ⟨hl.source, hl.id⟩).trans hc⟩
      · obtain rfl : told = [] := by simpa [hnone] using htold
        exact absurd hd List.not_mem_nil
    rcases hreport with hsame | ⟨r, diagnostics, hr, hnewest, hmore⟩
    · exact ⟨told, hsame.trans htold, hbefore⟩
    · refine ⟨told ++ [(r.id, diagnostics)], by rw [hmore, htold, List.append_assoc], ?_⟩
      intro d hd
      rcases List.mem_append.1 hd with hd | hd
      · exact hbefore d hd
      · obtain rfl := List.mem_singleton.1 hd
        exact ⟨r, hr, horder.registry.isCurrent_of_isNewest hr hnewest⟩

/-- A task that is done has left its session in a final phase. -/
theorem InOrder.final_of_done (h : InOrder none e) (ht : e.Carries t task s)
    (hstage : task.stage = .ended .done) : s.phase.isFinal := by
  cases h.schedule.fits (free_none t) ht with
  | queued hs => simp [hstage] at hs
  | starting hs | waiting hs => simp [hstage] at hs
  | ended hs _ hleft =>
    obtain rfl := Stage.ended.inj (hstage.symm.trans hs)
    cases hleft with
    | finished hfinal => exact hfinal

/-- A check that ends on the way with a report is one of the newest session of its source. -/
theorem Advance.current_of_reported (h : Advance e₀ e) (ho : InOrder none e₀) (hl : Ledger e₀)
    (ht : e.Carries t task s) (hnot : ¬e₀.HasEnded t)
    (hphase : s.phase = .reported ∨ s.phase = .reportedEmpty) : e.isCurrent s := by
  have hid : s.id = task.session := h.order.registry.keyed ht.2
  have hstored : e.sessions.get? s.id = some s := hid ▸ ht.2
  have hhonest := h.ledger.honest hstored
  -- It has reported once, and that report is on record.
  obtain ⟨diagnostics, hreports⟩ : ∃ diagnostics, s.reports = [diagnostics] :=
    List.length_eq_one_iff.1 (by rw [hhonest.once, hhonest.told.2 hphase, if_pos rfl])
  have hmem : (s.id, diagnostics) ∈ e.deliveries := by
    have hfilter : (s.id, diagnostics) ∈ e.deliveries.filter (·.1 = s.id) := by
      rw [h.ledger.tied hstored, hreports]
      exact List.mem_singleton_self _
    exact (List.mem_filter.1 hfilter).1
  obtain ⟨told, htold, hcurrent⟩ := h.told
  rw [htold, List.mem_append] at hmem
  rcases hmem with hmem | hmem
  · -- A session that had reported before belongs to a task that had ended.
    obtain ⟨s₀, hs₀⟩ := hl.known hmem
    obtain ⟨u, a, hu, hsession⟩ := ho.schedule.carried hs₀
    obtain ⟨a', hu', hsame⟩ := h.tasks u a hu
    obtain rfl : u = t :=
      h.order.schedule.alone hu' ht.1 (hsame.session.trans (hsession.trans hid))
    have hreported : s₀.reports ≠ [] := by
      intro hnone
      have htied := hl.tied hs₀
      rw [hnone, List.map_nil, List.filter_eq_nil_iff] at htied
      exact htied _ hmem (by simp)
    have hdelivered : s₀.delivered = true := by
      by_contra hd
      exact hreported ((hl.honest hs₀).reports_eq_nil (by simpa using hd))
    refine absurd ⟨a, hu, ?_⟩ hnot
    have hphase₀ := (hl.honest hs₀).told.1 hdelivered
    cases ho.schedule.fits (free_none u) ⟨hu, hsession ▸ hs₀⟩ with
    | queued _ _ hs | starting _ _ hs | waiting _ _ hs => simp [hs] at hphase₀
    | ended hstage => rw [hstage]; rfl
  · obtain ⟨r, hr, hc⟩ := hcurrent _ hmem
    obtain rfl := Option.some.inj (hstored.symm.trans hr)
    exact hc

/-! ## Taking turns -/

/-- The register hands out no number. -/
structure Unhanded (e e' : Engine) : Prop where
  latest : e'.latest = e.latest
  nextId : e'.nextId = e.nextId

theorem Unhanded.trans {e'' : Engine} (h : Unhanded e e') (h' : Unhanded e' e'') : Unhanded e e'' :=
  ⟨h'.latest.trans h.latest, h'.nextId.trans h.nextId⟩

/-- No number is handed out in a turn. -/
theorem Reaches.unhanded {b : Behaviour} {r : Engine × Progress} (h : Reaches e b s r)
    (t : TaskId) : Unhanded e (r.1.settle t s r.2) := by
  obtain ⟨s', hworks, hleft⟩ := h
  have hre : Rearranged r.1 (r.1.settle t s r.2) := settle_rearranged r.1 t s hleft.ne_aborted
  exact ⟨hre.latest.trans hworks.kept.latest, hre.nextId.trans hworks.kept.nextId⟩

/-- A turn of the next task that can go on hands out no number. -/
theorem InOrder.turn_unhanded (h : InOrder none e) {rest : List TaskId}
    (hready : e.ready = t :: rest) : Unhanded e ({ e with ready := rest }.resume t) := by
  have hready' : e.ready = [] ++ t :: rest := hready
  obtain ⟨task, s, ht, hgo, hfits, -⟩ := h.schedule.take hready'
  let e₁ : Engine := { e with ready := rest }
  have ht₁ : e₁.Carries t task s := ht
  have hreach := turn_reaches (e := e₁) hfits hgo (h.registry.plain ht.2) t
  have htake : Unhanded e e₁ := ⟨rfl, rfl⟩
  rw [resume_eq ht₁]
  exact htake.trans (hreach.unhanded t)

/-- When tasks take turns, the engine goes on. -/
theorem Advance.drain (h : Advance e₀ e) : Advance e₀ e.drain ∧ Unhanded e e.drain := by
  rw [Engine.drain]
  generalize 4 * e.tasks.entries.length = fuel
  induction fuel generalizing e with
  | zero => exact ⟨h, rfl, rfl⟩
  | succ fuel ih =>
    rw [drainFuel]
    split
    · exact ⟨h, rfl, rfl⟩
    · rename_i t rest hready
      have hready' : e.ready = [] ++ t :: rest := hready
      have hturn : Step e ({ e with ready := rest }.resume t) := .turn hready'
      have hun := h.order.turn_unhanded hready
      obtain ⟨hadvance, hunhanded⟩ := ih (h.step hturn (.inl hun.latest))
      exact ⟨hadvance, hun.trans hunhanded⟩

/-- An engine that went on in order is at rest once all its tasks have taken their turns. -/
theorem Advance.atRest_drain (h : Advance e₀ e) : AtRest e.drain where
  order := h.drain.1.order
  ledger := h.drain.1.ledger
  tally := h.drain.1.tally
  ready := ready_drain h.order
  proper := h.drain.1.proper

/-- After something that may have had an effect. -/
theorem AtRest.followUp (h : AtRest e) {o : Option Engine}
    (ho : ∀ e', o = some e' → Step e e' ∧ Unhanded e e') :
    AtRest (e.followUp o).1 ∧ Advance e (e.followUp o).1 ∧ Unhanded e (e.followUp o).1 := by
  cases o with
  | none => exact ⟨h, h.advance, rfl, rfl⟩
  | some e' =>
    obtain ⟨hstep, hun⟩ := ho e' rfl
    have hadvance := h.advance.step hstep (.inl hun.latest)
    obtain ⟨hdrain, hunhanded⟩ := hadvance.drain
    exact ⟨hadvance.atRest_drain, hdrain, hun.trans hunhanded⟩

/-- An engine at rest that is told that a compiler has started comes to rest again. -/
theorem AtRest.allowStart (h : AtRest e) (id : Int) :
    AtRest (e.allowStart id).1 ∧ Advance e (e.allowStart id).1 ∧
      Unhanded e (e.allowStart id).1 := by
  refine h.followUp fun e' hopen => ⟨.start hopen, ?_⟩
  obtain ⟨u, a, -, -, -, rfl⟩ := openStart_eq_some h.order.schedule.keys_nodup hopen
  exact ⟨rfl, rfl⟩

/-- An engine at rest that is told that a compiler has exited comes to rest again. -/
theorem AtRest.allowExit (h : AtRest e) (id status : Int) :
    AtRest (e.allowExit id status).1 ∧ Advance e (e.allowExit id status).1 ∧
      Unhanded e (e.allowExit id status).1 := by
  refine h.followUp fun e' hend => ⟨.exit hend, ?_⟩
  obtain ⟨r, p, -, hp, hrun, rfl⟩ := endProcess_eq_some hend
  obtain ⟨ready, hwake⟩ := (e.exitProcess r p status).1.wake_eq id
  have hkept := (exitProcess_works (e := e) hp hrun status).kept
  rw [hwake]
  exact ⟨hkept.latest, hkept.nextId⟩

/-! ## A check -/

theorem overtake_unhanded (e : Engine) (s : Session) : Unhanded e (e.overtake s) := by
  obtain ⟨sessions, active, ready, log, heq⟩ := e.overtake_eq s
  rw [heq]
  exact ⟨rfl, rfl⟩

theorem enter_unhanded (hphase : s.phase = .idle) (hprocess : s.process = none)
    (hplain : s.listing.Plain) :
    Unhanded e ((e.enter t task s).1.settle t s (e.enter t task s).2) := by
  have hover := e.overtake_unhanded s
  unfold Engine.enter
  dsimp only
  generalize e.overtake s = e₁ at *
  let e₂ : Engine := { e₁ with queues := e₁.queues.put s.source (e₁.queueOf s.source ++ [t]) }
  have hjoin : Unhanded e e₂ := ⟨hover.latest, hover.nextId⟩
  split
  · exact hjoin.trans ((proceed_reaches (e := e₂) task hphase hprocess hplain).unhanded t)
  · exact hjoin.trans ⟨rfl, rfl⟩

/-- The first turn of a check hands out no number. -/
theorem InOrder.beginCheck_unhanded (h : InOrder none e) {path : Text} {text : Option JsonString}
    {receiver : Receiver} (hnew : e.newSession path text receiver = (e', .ok s)) (b : Behaviour) :
    Unhanded e' (e'.beginCheck s.id b).1 := by
  obtain ⟨t, task, tasks, -, ht, hstage, -, -, -, heq⟩ := h.begin hnew b
  have hs := (newSession_ok hnew).1
  have htasks : Unhanded e' { e' with tasks } := ⟨rfl, rfl⟩
  rw [heq, resume_eq ht, Engine.turn, hstage]
  exact htasks.trans (enter_unhanded hs.phase hs.process hs.plain)

/-- A task stays with its session. -/
theorem Advance.carries (h : Advance e₀ e) (ht : e₀.Carries t task s) :
    ∃ task' s', e.Carries t task' s' ∧ s.Later s' := by
  obtain ⟨task', ht', hsame⟩ := h.tasks t task ht.1
  obtain ⟨s', hs', hl⟩ := h.later ht.2
  exact ⟨task', s', ⟨ht', hsame.session.symm ▸ hs'⟩, hl⟩

/-- A check makes one session, which is the newest one of its source then. -/
theorem AtRest.check (h : AtRest e) {path : Text} {text : Option JsonString} {receiver : Receiver}
    {b : Behaviour} (hcheck : e.check path text receiver b = (e', .ok (s, t))) :
    AtRest e' ∧ Advance e e' ∧ e'.latest = e.latest.put s.source s.id ∧ s.id = e.nextId ∧
      e'.nextId = e.nextId + 1 ∧ ¬e.HasEnded t ∧ ∃ task r, e'.Carries t task r ∧ s.Later r := by
  rw [Engine.check] at hcheck
  split at hcheck
  · simp at hcheck
  rename_i e₁ s' hnew
  simp only [runSession, Prod.mk.injEq, Except.ok.injEq] at hcheck
  obtain ⟨rfl, rfl, rfl⟩ := hcheck
  obtain ⟨hs, hid, heq⟩ := newSession_ok hnew
  -- The number is handed out when the session is made, and none is after that.
  have hbegin := h.order.beginCheck_unhanded hnew b
  have hadvance := h.advance.step (.check b hnew) (.inr rfl)
  obtain ⟨hdrain, hunhanded⟩ := hadvance.drain
  have hun := hbegin.trans hunhanded
  refine ⟨hadvance.atRest_drain, hdrain, ?_, hid, ?_, ?_, ?_⟩
  · rw [hun.latest, heq]
  · rw [hun.nextId, heq]
  · -- The task has the first number that was not given to a task yet.
    have ht : (e₁.beginCheck s'.id b).2 = e.tasks.keys.length := by
      rw [heq, Table.length_keys]
      rfl
    rintro ⟨a, ha, -⟩
    exact Option.some_ne_none a (ha.symm.trans (h.order.schedule.not_enrolled ht))
  · obtain ⟨task, r, hr, -, hsame⟩ := h.order.beginCheck_carries hnew b
    obtain ⟨hturns, -⟩ := hadvance.refl.drain
    obtain ⟨task', r', hr', hl⟩ := hturns.carries hr
    have hnot := (newSession_fresh hnew).not_setOut
    have hfirst : s'.Later r := ⟨hsame.id, hsame.source, hsame.listing, hsame.text,
      hsame.receiver, fun hp => by simp [hs.process] at hp, fun hset => absurd hset hnot,
      fun hset => absurd hset hnot⟩
    exact ⟨task', r', hr', hfirst.trans hl⟩

/-! ## The sessions on record -/

/-- The newest session of a source was on record before, if no number was handed out. -/
theorem Advance.back (h : Advance e₀ e) (hun : Unhanded e₀ e) (ho : InOrder none e₀)
    (ht : e.Carries t task s) (hc : e.isCurrent s) :
    ∃ task₀ s₀, e₀.Carries t task₀ s₀ ∧ s₀.Later s ∧ e₀.isCurrent s₀ := by
  have hid : s.id = task.session := h.order.registry.keyed ht.2
  have hlatest : e₀.latest.get? s.source = some s.id := by
    rw [← hun.latest]
    exact of_decide_eq_true hc
  obtain ⟨s₀, hs₀, hsource⟩ := ho.registry.handed hlatest
  obtain ⟨u, a, hu, hsession⟩ := ho.schedule.carried hs₀
  obtain ⟨a', hu', hsame⟩ := h.tasks u a hu
  obtain rfl : u = t :=
    h.order.schedule.alone hu' ht.1 (hsame.session.trans (hsession.trans hid))
  have hid₀ : s₀.id = s.id := ho.registry.keyed hs₀
  obtain ⟨s', hs', hl⟩ := h.later hs₀
  obtain rfl := Option.some.inj ((hid ▸ ht.2).symm.trans hs')
  refine ⟨a, s₀, ⟨hu, hsession ▸ hs₀⟩, hl, decide_eq_true ?_⟩
  rw [hsource, hid₀]
  exact hlatest

/-- The sessions are all made for one source. -/
def Concerns (e : Engine) (source : Path) : Prop :=
  ∀ id s, e.sessions.get? id = some s → s.source = source

/-- Where all sessions are made for one source, a current session is the newest one of that
    source. -/
theorem Concerns.latest (hall : e.Concerns source) (h : Registry e) {id : Int}
    (hs : e.sessions.get? id = some s) (hc : e.isCurrent s) : e.latest.get? source = some id := by
  rw [← hall _ _ hs, ← h.keyed hs]
  exact of_decide_eq_true hc

/-- A source that has a session has a newest one. -/
theorem Registry.concerns_iff (h : Registry e) :
    e.Concerns source ↔ ∀ p n, e.latest.get? p = some n → p = source := by
  refine ⟨fun hall p n hn => ?_, fun hall id s hs => ?_⟩
  · obtain ⟨s, hs, hsource⟩ := h.handed hn
    exact hsource.symm.trans (hall n s hs)
  · obtain ⟨n, hn, -⟩ := h.newest hs
    exact hall _ n hn

/-- While no number is handed out, the sessions stay those of the one source. -/
theorem Concerns.of_unhanded (hall : e.Concerns source) (h : Registry e)
    (h' : Registry e') (hun : Unhanded e e') : e'.Concerns source := by
  rw [h'.concerns_iff, hun.latest]
  exact h.concerns_iff.1 hall

/-- A new session of the source is one more that is made for it. -/
theorem Concerns.of_put (hall : e.Concerns s.source) (h : Registry e) (h' : Registry e')
    (hput : e'.latest = e.latest.put s.source s.id) : e'.Concerns s.source := by
  rw [h'.concerns_iff, hput]
  intro p n hn
  rw [Table.get?_put] at hn
  split at hn
  · assumption
  · exact h.concerns_iff.1 hall p n hn

/-- The newest session of a source was not overtaken. -/
theorem Ledger.not_superseded (h : Ledger e) {id : Int} (hs : e.sessions.get? id = some s)
    (hid : s.id = id) (hnewest : e.IsNewest s) : s.phase ≠ .superseded := by
  intro hphase
  obtain ⟨n, r, hr, hsource, hlt⟩ := h.overtaken hs hphase
  have hle := hnewest n r hr hsource
  omega

/-- If all sessions are made for one source, the last report is that of the newest one. -/
theorem Ledger.getLast?_deliveries (h : Ledger e) (hall : e.Concerns source)
    (hs : e.sessions.get? s.id = some s) (hnewest : e.IsNewest s) {diagnostics : List Diagnostic}
    (hreports : s.reports = [diagnostics]) :
    e.deliveries.getLast? = some (s.id, diagnostics) := by
  have htied := h.tied hs
  rw [hreports, List.map_singleton] at htied
  have hmem : (s.id, diagnostics) ∈ e.deliveries :=
    List.mem_of_mem_filter (htied ▸ List.mem_singleton_self _)
  obtain ⟨front, last, hlast⟩ := (List.eq_nil_or_concat e.deliveries).resolve_left
    (List.ne_nil_of_mem hmem)
  rw [List.concat_eq_append] at hlast
  have hrising : (e.deliveries.map (·.1)).Pairwise (· < ·) := by
    have hrising := h.rising source
    rwa [reporters, List.filter_eq_self.2] at hrising
    intro id hid
    obtain ⟨d, hd, rfl⟩ := List.mem_map.1 hid
    obtain ⟨r, hr⟩ := h.known hd
    simp [hr, hall _ _ hr]
  have hlastmem : last ∈ e.deliveries := by simp [hlast]
  -- No session has a larger number than the newest one, and the last number is the largest.
  have hid : last.1 = s.id := by
    obtain ⟨r, hr⟩ := h.known hlastmem
    have hle := hnewest _ r hr ((hall _ _ hr).trans (hall _ _ hs).symm)
    rw [hlast, List.map_append, List.pairwise_append] at hrising
    rw [hlast, List.mem_append, List.mem_singleton] at hmem
    rcases hmem with hmem | rfl
    · have := hrising.2.2 _ (List.mem_map_of_mem hmem) last.1 (by simp)
      omega
    · rfl
  have hlasttied : last ∈ e.deliveries.filter (·.1 = s.id) :=
    List.mem_filter.2 ⟨hlastmem, by simpa using hid⟩
  rw [htied, List.mem_singleton] at hlasttied
  rw [hlast, hlasttied, List.getLast?_concat]

end LiveCheck.Engine
