import LiveCheck.Proofs.Check.Shape

/-!
# Reports

The reports that reached their receivers are on record twice: with their sessions, and in the order
in which they came about. The two fit each other, a session reports once at most and only from the
phases of reports, and the sessions of a source report in the order of their numbers (`Ledger`).

A report is the only act that touches all this, and it takes place only while its session is the
newest one of its source (`Ledger.act`); a session that is not the newest one any more never becomes
it again.
-/

namespace LiveCheck

/-- The session has on record what it reported. -/
structure Session.Honest (s : Session) : Prop where
  once : s.reports.length = if s.delivered then 1 else 0
  told : s.delivered = true ↔ s.phase = .reported ∨ s.phase = .reportedEmpty

theorem Session.Honest.congr {s s' : Session} (h : s.Honest) (hreports : s'.reports = s.reports)
    (hdelivered : s'.delivered = s.delivered)
    (hphase : s'.phase = .reported ∨ s'.phase = .reportedEmpty ↔
      s.phase = .reported ∨ s.phase = .reportedEmpty) : s'.Honest :=
  ⟨by rw [hreports, hdelivered, h.once], by rw [hdelivered, hphase, h.told]⟩

/-- A session that can go on to another phase has not reported. -/
theorem Session.Honest.not_delivered {s : Session} (h : s.Honest) {next : Phase}
    (hnext : next ∈ s.phase.successors) : s.delivered = false := by
  by_contra hd
  rcases h.told.1 (by simpa using hd) with hs | hs <;> simp [hs, Phase.successors] at hnext

/-- A session that has not delivered has no reports. -/
theorem Session.Honest.reports_eq_nil {s : Session} (h : s.Honest) (hd : s.delivered = false) :
    s.reports = [] := by
  simpa [hd] using h.once

/-- The first delivery reaches the receiver. -/
theorem Session.deliver_of_not_delivered {s : Session} (h : s.delivered = false)
    (diagnostics : List Diagnostic) : (s.deliver diagnostics).delivered = true ∧
      (s.deliver diagnostics).reports = s.reports ++ [diagnostics] := by
  simp [Session.deliver, h]

namespace Engine

variable {e e' : Engine}

/-- The first delivery of a session is put on record. -/
theorem deliver_deliveries {s : Session} (h : s.delivered = false) (diagnostics : List Diagnostic) :
    (e.deliver s diagnostics).deliveries = e.deliveries ++ [(s.id, diagnostics)] := by
  simp only [deliver, h, Bool.false_eq_true, if_false]
  rfl

/-- The sessions of a source that reported, in the order of their reports. -/
def reporters (e : Engine) (source : Path) : List Int :=
  (e.deliveries.map (·.1)).filter fun id => (e.sessions.get? id).any (·.source = source)

/-- The sessions that reported on a source are those of it whose deliveries are on record. -/
theorem mem_reporters {source : Path} {id : Int} : id ∈ e.reporters source ↔
    ∃ d ∈ e.deliveries, d.1 = id ∧ ∃ s, e.sessions.get? id = some s ∧ s.source = source := by
  simp only [reporters, List.mem_filter, List.mem_map, Option.any_eq_true, decide_eq_true_eq]
  constructor
  · rintro ⟨⟨d, hd, rfl⟩, hs⟩
    exact ⟨d, hd, rfl, hs⟩
  · rintro ⟨d, hd, rfl, hs⟩
    exact ⟨⟨d, hd, rfl⟩, hs⟩

/-- The reports are on record as they came about. -/
structure Ledger (e : Engine) : Prop where
  honest : ∀ {id s}, e.sessions.get? id = some s → s.Honest
  overtaken : ∀ {id s}, e.sessions.get? id = some s → s.phase = .superseded →
    ∃ n r, e.sessions.get? n = some r ∧ r.source = s.source ∧ id < n
  tied : ∀ {id s}, e.sessions.get? id = some s →
    e.deliveries.filter (·.1 = id) = s.reports.map (id, ·)
  known : ∀ {d}, d ∈ e.deliveries → ∃ s, e.sessions.get? d.1 = some s
  rising : ∀ source, (e.reporters source).Pairwise (· < ·)

theorem Ledger.congr (h : Ledger e) (hs : e'.sessions = e.sessions)
    (hd : e'.deliveries = e.deliveries) : Ledger e' := by
  have hreporters : e'.reporters = e.reporters := by
    funext source
    rw [reporters, reporters, hs, hd]
  constructor
  · exact hs ▸ h.honest
  · exact hs ▸ h.overtaken
  · exact hs ▸ hd ▸ h.tied
  · exact hs ▸ hd ▸ h.known
  · exact hreporters ▸ h.rising

/-- The newest session, while it has not reported, comes after those that have. -/
theorem Ledger.lt_of_newest (h : Ledger e) {s : Session} (hstored : e.sessions.get? s.id = some s)
    (hnone : s.reports = []) (hnewest : e.IsNewest s) {id : Int} (hid : id ∈ e.reporters s.source) :
    id < s.id := by
  obtain ⟨d, hd, rfl, r, hr, hsource⟩ := mem_reporters.1 hid
  have hne : d.1 ≠ s.id := by
    intro hid
    have hmem : d ∈ e.deliveries.filter (·.1 = s.id) := List.mem_filter.2 ⟨hd, by simpa using hid⟩
    rw [h.tied hstored, hnone] at hmem
    exact absurd hmem List.not_mem_nil
  have := hnewest d.1 r hr hsource
  omega

/-- The reports of one session are all of it, and none of another one. -/
theorem filter_told (id n : Int) (told : List (List Diagnostic)) :
    (told.map (n, ·)).filter (·.1 = id) = if id = n then told.map (id, ·) else [] := by
  split
  · rename_i hid
    rw [hid, List.filter_eq_self]
    simp
  · rename_i hid
    rw [List.filter_eq_nil_iff]
    simpa using fun _ _ h => hid h.symm

/-! ## Reporting more -/

section Replace

variable {s s' : Session} {told : List (List Diagnostic)}
  (hstored : e.sessions.get? s.id = some s) (hsource : s'.source = s.source)
  (hs : ∀ id, e'.sessions.get? id = if id = s.id then some s' else e.sessions.get? id)

include hstored hsource hs

/-- Every session is still on record, with its source. -/
theorem kept_of_replace {n : Int} {r : Session} (hr : e.sessions.get? n = some r) :
    ∃ r', e'.sessions.get? n = some r' ∧ r'.source = r.source := by
  rw [hs]
  split
  · rename_i hn
    obtain rfl := Option.some.inj (hstored.symm.trans (hn ▸ hr))
    exact ⟨s', rfl, hsource⟩
  · exact ⟨r, hr, rfl⟩

/-- Those that reported are those that did before, and the session once for each report. -/
theorem reporters_of_replace (hdeliveries : e'.deliveries = e.deliveries ++ told.map (s.id, ·))
    (source : Path) : e'.reporters source = e.reporters source ++
      (told.map fun _ => s.id).filter fun id => (e.sessions.get? id).any (·.source = source) := by
  have hany : ∀ id, (e'.sessions.get? id).any (·.source = source) =
      (e.sessions.get? id).any (·.source = source) := by
    intro id
    rw [hs]
    split
    · rename_i hid
      rw [hid, hstored, Option.any_some, Option.any_some, hsource]
    · rfl
  simp only [reporters, hdeliveries, hany, List.map_append, List.filter_append, List.map_map]
  rfl

/-- One report of the newest session keeps the order of those that reported. -/
theorem Ledger.rising_of_replace (h : Ledger e)
    (hdeliveries : e'.deliveries = e.deliveries ++ told.map (s.id, ·))
    (hnewest : told = [] ∨ (s.reports = [] ∧ told.length = 1 ∧ e.IsNewest s)) (source : Path) :
    (e'.reporters source).Pairwise (· < ·) := by
  rw [reporters_of_replace hstored hsource hs hdeliveries]
  rcases hnewest with rfl | ⟨hnone, hone, hnewest⟩
  · simpa using h.rising source
  obtain ⟨diagnostics, rfl⟩ := List.length_eq_one_iff.1 hone
  refine List.pairwise_append.2 ⟨h.rising source, ?_, fun a ha b hb => ?_⟩
  · exact (List.pairwise_singleton _ _).filter _
  obtain ⟨hb, hbsource⟩ := List.mem_filter.1 hb
  obtain rfl : b = s.id := List.mem_singleton.1 hb
  obtain rfl : s.source = source := by simpa [hstored] using hbsource
  exact h.lt_of_newest hstored hnone hnewest ha

/-- A session is replaced by another form of itself, which has reported more. -/
theorem Ledger.replace (h : Ledger e) (hhonest : s'.Honest)
    (hover : s'.phase = .superseded →
      ∃ n r, e.sessions.get? n = some r ∧ r.source = s.source ∧ s.id < n)
    (hreports : s'.reports = s.reports ++ told)
    (hdeliveries : e'.deliveries = e.deliveries ++ told.map (s.id, ·))
    (hnewest : told = [] ∨ (s.reports = [] ∧ told.length = 1 ∧ e.IsNewest s)) : Ledger e' := by
  constructor
  · intro id r hr
    rw [hs] at hr
    split at hr
    · exact Option.some.inj hr ▸ hhonest
    · exact h.honest hr
  · intro id r hr hphase
    -- A newer session of the source stays on record.
    obtain ⟨n, q, hq, hqsource, hlt⟩ :
        ∃ n q, e.sessions.get? n = some q ∧ q.source = r.source ∧ id < n := by
      rw [hs] at hr
      split at hr
      · rename_i hid
        obtain rfl := Option.some.inj hr
        rw [hid, hsource]
        exact hover hphase
      · exact h.overtaken hr hphase
    obtain ⟨q', hq', hsource'⟩ := kept_of_replace hstored hsource hs hq
    exact ⟨n, q', hq', hsource'.trans hqsource, hlt⟩
  · intro id r hr
    rw [hs] at hr
    rw [hdeliveries, List.filter_append, filter_told]
    split at hr
    · rename_i hid
      obtain rfl := Option.some.inj hr
      rw [hid, if_pos rfl, h.tied hstored, hreports, List.map_append]
    · rw [if_neg ‹_›, List.append_nil, h.tied hr]
  · intro d hd
    rw [hdeliveries, List.mem_append] at hd
    rcases hd with hd | hd
    · obtain ⟨r, hr⟩ := h.known hd
      obtain ⟨r', hr', -⟩ := kept_of_replace hstored hsource hs hr
      exact ⟨r', hr'⟩
    · obtain ⟨_, -, rfl⟩ := List.mem_map.1 hd
      exact ⟨s', by rw [hs, if_pos rfl]⟩
  · exact h.rising_of_replace hstored hsource hs hdeliveries hnewest

end Replace

/-! ## What happens to the ledger -/

theorem Ledger.create {disk : Disk} {searchPath : List Text} {settings : Settings}
    (h : Engine.create disk searchPath settings = .ok e) : Ledger e := by
  obtain ⟨compiler, log, rfl⟩ := create_eq h
  constructor <;> intros <;> simp_all [reporters]

/-- A new session has reported nothing yet. -/
theorem Ledger.newSession (h : Ledger e) (hr : Registry e) {path : Text} {text : Option JsonString}
    {receiver : Receiver} {s : Session} (hnew : e.newSession path text receiver = (e', .ok s)) :
    Ledger e' := by
  obtain ⟨hs, hid, rfl⟩ := newSession_ok hnew
  have hfresh : ∀ {id r}, e.sessions.get? id = some r → id ≠ s.id := fun hr' => by
    have := hr.below hr'
    omega
  -- A new session has a number that is not on record, so no report bears it.
  have hunknown : ∀ d ∈ e.deliveries, d.1 ≠ s.id := fun d hd => by
    obtain ⟨r, hr'⟩ := h.known hd
    exact hfresh hr'
  constructor
  · intro id r hr'
    simp only [Table.get?_put] at hr'
    split at hr'
    · obtain rfl := Option.some.inj hr'
      exact ⟨by simp [hs.reports, hs.delivered], by simp [hs.delivered, hs.phase]⟩
    · exact h.honest hr'
  · intro id r hr' hphase
    simp only [Table.get?_put] at hr'
    split at hr'
    · obtain rfl := Option.some.inj hr'
      simp [hs.phase] at hphase
    · obtain ⟨n, q, hq, hqsource, hlt⟩ := h.overtaken hr' hphase
      exact ⟨n, q, (Table.get?_put_of_ne (hfresh hq) _).trans hq, hqsource, hlt⟩
  · intro id r hr'
    simp only [Table.get?_put] at hr'
    split at hr'
    · obtain rfl := Option.some.inj hr'
      rw [hs.reports, List.map_nil, List.filter_eq_nil_iff]
      intro d hd
      simpa [‹id = _›] using hunknown d hd
    · exact h.tied hr'
  · intro d hd
    obtain ⟨r, hr'⟩ := h.known hd
    exact ⟨r, (Table.get?_put_of_ne (hfresh hr') _).trans hr'⟩
  · intro source
    have hreporters : reporters { e with
        nextId := e.nextId + 1
        sessions := e.sessions.put s.id s
        latest := e.latest.put s.source s.id } source = e.reporters source := by
      refine List.filter_congr fun id hid => ?_
      obtain ⟨d, hd, rfl⟩ := List.mem_map.1 hid
      rw [Table.get?_put_of_ne (hunknown d hd)]
    exact hreporters ▸ h.rising source

theorem Ledger.cancelSession (h : Ledger e) (hr : Registry e) (id : Int) :
    Ledger (e.cancelSession id) := by
  cases hs : e.sessions.get? id with
  | none => simpa [Engine.cancelSession, hs] using h
  | some s =>
    have hget := cancelSession_sessions hs
    obtain ⟨sessions, ready, heq⟩ := e.cancelSession_eq id
    have hstored : e.sessions.get? s.id = some s := hr.stored hs
    have hhonest : s.cancel.Honest := (h.honest hs).congr rfl rfl Iff.rfl
    have hsource : s.cancel.source = s.source := rfl
    have hreports : s.cancel.reports = s.reports ++ [] := (List.append_nil _).symm
    refine h.replace hstored hsource hget hhonest (fun hphase => h.overtaken hstored hphase)
      hreports ?_ (.inl rfl)
    rw [heq, List.map_nil, List.append_nil]

/-- The newest session reports, which had reported nothing. -/
theorem Ledger.report (h : Ledger e) (hr : Registry e) (hs : e.sessions.get? s.id = some s)
    {next : Phase} (diagnostics : List Diagnostic) (hcurrent : e.isCurrent s)
    (hnext : next ∈ s.phase.successors) (hreport : next = .reported ∨ next = .reportedEmpty) :
    Ledger ((e.moved s next).deliver (s.to next) diagnostics) := by
  have hget := (Act.report diagnostics hcurrent hnext hreport).works.get?_eq hs
  have hhonest := h.honest hs
  have hd : s.delivered = false := hhonest.not_delivered hnext
  have hreports : s.reports = [] := hhonest.reports_eq_nil hd
  obtain ⟨hdelivered, htold⟩ := Session.deliver_of_not_delivered (s := s.to next) hd diagnostics
  have hphase : ((s.to next).deliver diagnostics).phase = next := Session.deliver_phase _ _
  refine h.replace hs ?_ hget ⟨?_, ?_⟩ ?_ htold ?_ (.inr ⟨hreports, rfl, hr.isNewest hcurrent⟩)
  · exact ((s.to next).deliver_same diagnostics).source
  · rw [htold, hdelivered, Session.to_reports, hreports]
    rfl
  · rw [hdelivered, hphase]
    exact iff_of_true rfl hreport
  · intro hsuperseded
    rw [hphase] at hsuperseded
    simp [hsuperseded] at hreport
  · exact deliver_deliveries (e := e.moved s next) (s := s.to next) hd diagnostics

/-- Every act keeps the ledger: what is delivered comes from the newest session, which had delivered
    nothing. -/
theorem Ledger.act {x y : Engine × Session} (h : Ledger x.1) (hr : Registry x.1)
    (hx : x.1.sessions.get? x.2.id = some x.2) (ha : Act x y) : Ledger y.1 := by
  have hhonest := h.honest hx
  -- What changes neither phase nor reports, and what changes the phase only, is no report.
  have hquiet : ∀ {e' s'}, Act x (e', s') → s'.reports = x.2.reports → s'.Honest →
      (s'.phase = .superseded →
        ∃ n r, x.1.sessions.get? n = some r ∧ r.source = x.2.source ∧ x.2.id < n) →
      e'.deliveries = x.1.deliveries → Ledger e' := by
    intro e' s' ha hreports hhonest hover hdeliveries
    exact h.replace hx ha.same.source (ha.works.get?_eq hx) hhonest hover
      (hreports.trans (List.append_nil _).symm) (hdeliveries.trans (List.append_nil _).symm)
      (.inl rfl)
  have hover := fun hphase => h.overtaken hx hphase
  cases ha with
  | note | save | ask | clean => exact h.congr rfl rfl
  | emit b node =>
    obtain ⟨disk, hd, -⟩ := emit_eq _ _ b node
    rw [hd]
    exact h.congr rfl rfl
  | fail fault => exact hquiet (.fail fault) rfl (hhonest.congr rfl rfl Iff.rfl) hover rfl
  | start b hp => exact hquiet (.start b hp) rfl (hhonest.congr rfl rfl Iff.rfl) hover rfl
  | exit status hp hrun =>
    exact hquiet (.exit status hp hrun) rfl (hhonest.congr rfl rfl Iff.rfl) hover rfl
  | @move e s next hnext hreported hempty hsuperseded =>
    refine hquiet (.move hnext hreported hempty hsuperseded) rfl (hhonest.congr rfl rfl ?_) ?_ rfl
    · have hd : s.delivered = false := hhonest.not_delivered hnext
      have hnot := hhonest.told.not.1 (by simp [hd])
      simp only [Session.to_phase]
      exact ⟨fun h => absurd h (not_or.2 ⟨hreported, hempty⟩), fun h => absurd h hnot⟩
    · intro hphase
      obtain ⟨n, r, -, hlt, hr', hsource⟩ := hr.lt_newest hx (hsuperseded hphase)
      exact ⟨n, r, hr', hsource, hlt⟩
  | @report e s next diagnostics hcurrent hnext hreport =>
    exact h.report hr hx diagnostics hcurrent hnext hreport

/-- No act but a report reaches a receiver, and a session reports as the newest one, once. -/
theorem Act.deliveries {x y : Engine × Session} (ha : Act x y) (hhonest : x.2.Honest) :
    (y.1.deliveries = x.1.deliveries ∧ y.2.delivered = x.2.delivered) ∨
      (x.2.delivered = false ∧ y.2.delivered = true ∧ x.1.isCurrent x.2 ∧
        ∃ diagnostics, y.1.deliveries = x.1.deliveries ++ [(x.2.id, diagnostics)]) := by
  cases ha with
  | emit b node =>
    obtain ⟨disk, hd, -⟩ := emit_eq _ _ b node
    rw [hd]
    exact .inl ⟨rfl, rfl⟩
  | @report e s next diagnostics hcurrent hnext hreport =>
    have hd : s.delivered = false := hhonest.not_delivered hnext
    exact .inr ⟨hd, (Session.deliver_of_not_delivered (s := s.to next) hd diagnostics).1, hcurrent,
      diagnostics, deliver_deliveries (e := e.moved s next) (s := s.to next) hd diagnostics⟩
  | _ => exact .inl ⟨rfl, rfl⟩

/-- What a turn does to the ledger: it stays in order, and one report at most is added. -/
theorem Ledger.works {x y : Engine × Session} (h : Ledger x.1) (hr : Registry x.1)
    (hx : x.1.sessions.get? x.2.id = some x.2) (hw : Works x y) : Ledger y.1 ∧
      (y.1.deliveries = x.1.deliveries ∨ (x.1.isCurrent x.2 ∧
        ∃ diagnostics, y.1.deliveries = x.1.deliveries ++ [(x.2.id, diagnostics)])) := by
  -- It is to be kept track of whether the session has delivered, so that it does not deliver again.
  have hall : Ledger y.1 ∧ (y.1.deliveries = x.1.deliveries ∨ (y.2.delivered = true ∧
      x.1.isCurrent x.2 ∧
        ∃ diagnostics, y.1.deliveries = x.1.deliveries ++ [(x.2.id, diagnostics)])) := by
    induction hw with
    | refl => exact ⟨h, .inl rfl⟩
    | @tail y z hw ha ih =>
      have hw : Works x y := hw
      have hy := hw.get?_self hx
      obtain ⟨hl, hy'⟩ := ih
      have hcurrent : y.1.isCurrent y.2 = x.1.isCurrent x.2 :=
        isCurrent_congr hw.kept.latest ⟨hw.same.source, hw.same.id⟩
      refine ⟨hl.act (hr.works hx hw) hy ha, ?_⟩
      rcases ha.deliveries (hl.honest hy) with ⟨hz, hdz⟩ | ⟨hnot, hdz, hc, diagnostics, hz⟩
      · rwa [hz, hdz]
      · rcases hy' with hy' | ⟨hdy, -⟩
        · rw [hz, hy', hw.same.id]
          exact .inr ⟨hdz, hcurrent ▸ hc, diagnostics, rfl⟩
        · simp [hnot] at hdy
  exact ⟨hall.1, hall.2.imp id And.right⟩

/-! ## Steps -/

/-- A step opens without a report, and the register and the ledger stay in order. -/
theorem Ledger.opening {e₁ : Engine} (h : Ledger e) (hr : Registry e)
    (hopen : Relation.ReflTransGen Opening e e₁) :
    Ledger e₁ ∧ Registry e₁ ∧ e₁.deliveries = e.deliveries := by
  induction hopen with
  | refl => exact ⟨h, hr, rfl⟩
  | @tail e₁ e₂ _ ho ih =>
    obtain ⟨h, hr, hd⟩ := ih
    cases ho with
    | made hnew =>
      obtain ⟨-, -, heq⟩ := newSession_ok hnew
      exact ⟨h.newSession hr hnew, hr.newSession hnew, by rw [heq]; exact hd⟩
    | refused hnew =>
      refine ⟨?_, hr.refuse hnew, ?_⟩ <;> obtain rfl | rfl := newSession_error hnew
      · exact h
      · exact h.congr rfl rfl
      · exact hd
      · exact hd
    | cancelled id =>
      obtain ⟨sessions, ready, heq⟩ := e₁.cancelSession_eq id
      exact ⟨h.cancelSession hr id, hr.cancelSession id, by rw [heq]; exact hd⟩
    | rearranged hre _ =>
      exact ⟨h.congr hre.sessions hre.deliveries, hr.congr hre.sessions hre.nextId hre.latest,
        hre.deliveries.trans hd⟩

/-- In a step, one report at most is added, that of the newest session of its source. -/
theorem Ledger.step (h : Ledger e) (ho : InOrder none e) (hstep : Step e e') : Ledger e' ∧
    (e'.deliveries = e.deliveries ∨ ∃ s diagnostics, e'.sessions.get? s.id = some s ∧
      e'.IsNewest s ∧ e'.deliveries = e.deliveries ++ [(s.id, diagnostics)]) := by
  obtain ⟨e₁, hopen, rfl | ⟨s₁, e₂, s₂, hs₁, hr₁, hworks, hre⟩⟩ :=
    (hstep.shape ho).works
  · obtain ⟨h, -, hd⟩ := h.opening ho.registry hopen
    exact ⟨h, .inl hd⟩
  · obtain ⟨h₁, -, hd₁⟩ := h.opening ho.registry hopen
    obtain ⟨h₂, hd₂⟩ := h₁.works hr₁ hs₁ hworks
    refine ⟨h₂.congr hre.sessions hre.deliveries, ?_⟩
    rw [hre.deliveries, ← hd₁]
    refine hd₂.imp id ?_
    rintro ⟨hcurrent, diagnostics, hd₂⟩
    have hr₂ : Registry e₂ := hr₁.works hs₁ hworks
    have hcurrent₂ : e₂.isCurrent s₂ :=
      (isCurrent_congr hworks.kept.latest ⟨hworks.same.source, hworks.same.id⟩).trans hcurrent
    refine ⟨s₂, diagnostics, ?_, ?_, ?_⟩
    · rw [hre.sessions]
      exact hworks.get?_self hs₁
    · rw [IsNewest, hre.sessions]
      exact hr₂.isNewest hcurrent₂
    · rw [hd₂, hworks.same.id]

/-- In every reachable state, the reports are on record as they came about. -/
theorem Reachable.ledger (h : Reachable e) : Ledger e := by
  induction h with
  | create hcreate => exact .create hcreate
  | step h hstep ih => exact (ih.step h.inOrder hstep).1

/-- In every reachable state, no session has reported more than once, and none that was overtaken
    has reported at all. Each report comes from the session that is then the newest one of its
    source, so the sessions of a source report in the order of their numbers. -/
theorem Reachable.reports_of_newest (h : Reachable e) :
    (∀ id s, e.sessions.get? id = some s → s.reports.length ≤ 1 ∧
      (s.phase = .superseded → s.reports = []) ∧
      e.deliveries.filter (·.1 = id) = s.reports.map (id, ·)) ∧
    (∀ d ∈ e.deliveries, ∃ s, e.sessions.get? d.1 = some s) ∧
    (∀ source, (e.reporters source).Pairwise (· < ·)) ∧
    ∀ e', Step e e' → e'.deliveries = e.deliveries ∨ ∃ s diagnostics,
      e'.sessions.get? s.id = some s ∧ e'.IsNewest s ∧
        e'.deliveries = e.deliveries ++ [(s.id, diagnostics)] := by
  have hl := h.ledger
  refine ⟨fun id s hs => ⟨?_, fun hphase => ?_, hl.tied hs⟩, fun d => hl.known, hl.rising,
    fun e' hstep => (hl.step h.inOrder hstep).2⟩
  · rw [(hl.honest hs).once]
    split <;> decide
  · refine (hl.honest hs).reports_eq_nil ?_
    have := (hl.honest hs).told.not
    simpa [hphase] using this

/-- A source that is checked twice, with a compiler that leaves no listing, reports twice. -/
theorem reports_of_newest_twice : ∃ e : Engine, Reachable e ∧
    e.reporters (.ofText "/m.gms".toList) = [1, 2] ∧
    (∀ s, e.sessions.get? 1 = some s → s.reports.length ≤ 1) ∧
    (e.reporters (.ofText "/m.gms".toList)).Pairwise (· < ·) := by
  have hrun : ∃ e, create {} [] ⟨.ofText "/".toList, ∅⟩ = .ok e ∧
      ((e.check "/m.gms".toList none {} {}).1.check "/m.gms".toList none {} {}).1.reporters
        (.ofText "/m.gms".toList) = [1, 2] :=
    ⟨_, rfl, by decide +kernel⟩
  obtain ⟨e, hcreate, hreporters⟩ := hrun
  have h := ((Run.create hcreate).check "/m.gms".toList none {} {}).check "/m.gms".toList none {} {}
  have hall := Reachable.reports_of_newest h.reachable
  exact ⟨_, h.reachable, hreporters, fun s hs => (hall.1 1 s hs).1, hall.2.2.1 _⟩

end Engine

end LiveCheck
