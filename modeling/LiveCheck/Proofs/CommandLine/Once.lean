import LiveCheck.CommandLine.Run
import LiveCheck.Proofs.Check.Prompt

/-!
# Checking once

What a single check prints is made of the diagnostics that its session reported, and of nothing
else. So a result without errors (`Outcome.Green`) says that the check returned and reported none
(`checkOnce_green_iff`). This is so when the compiler has started and every listing that it left was
read, but also when the session holds a fault: the compiler did not start, or its listing is of no
use (`run_green_iff`).
-/

namespace LiveCheck.CommandLine

/-- The line that stands for a source without errors is printed, and the exit status is `0`. -/
def Outcome.Green (o : Outcome) (source : Path) : Prop :=
  o.status = some 0 ∧ .line (noErrorsLine source.text) ∈ o.printed

instance (o : Outcome) (source : Path) : Decidable (o.Green source) :=
  inferInstanceAs (Decidable (_ ∧ _))

/-- The settings that a request is carried out with. -/
def Request.settings (request : Request) (settings : Settings) : Settings :=
  match request.compiler with
  | some (.text (c :: rest)) => settings.assign "compiler".toList (.text (c :: rest))
  | _ => settings

/-- A check of the source by a new engine has returned, and this is what became of its session. -/
def Returned (env : Environment) (d : Disk) (settings : Settings) (source : Path) (r : Session) :
    Prop :=
  ∃ e e' s t task, Engine.create d env.searchPath settings = .ok e ∧
    e.check source.text none {} env.behaviour = (e', .ok (s, t)) ∧
    e'.tasks.get? t = some task ∧ task.stage = .ended .done ∧ e'.sessions.get? s.id = some r

/-- The check that a request asks for has returned, and this is what became of its session. -/
def Request.Returned (request : Request) (env : Environment) (source : Path) (r : Session) : Prop :=
  ∃ values,
    (Settings.load env.machine env.disk (Settings.defaultDirectory env.home)).settings =
      .ok values ∧
    isSupported ((request.settings ⟨Settings.defaultDirectory env.home, values⟩).get? "extensions")
      source = .ok true ∧
    CommandLine.Returned env
      (Settings.load env.machine env.disk (Settings.defaultDirectory env.home)).disk
      (request.settings ⟨Settings.defaultDirectory env.home, values⟩) source r

/-- The compiler has started, and the listing that it left was read, if it left one. -/
def WentWell (b : Behaviour) (d : Disk) (s : Session) : Prop :=
  b.failedStart = none ∧ ((b.exitDisk s.source d).pathExists s.listing = .ok false ∨
    ∃ told, Tells s.source s.listing none (b.exitDisk s.source d) told)

variable {env : Environment} {settings : Settings} {source : Path} {o : Outcome} {r : Session}
  {request : Request} {d : Disk} {b : Behaviour} {verdict : Verdict}

/-! ## The session -/

/-- A session without a text that has reported holds no fault if and only if its check went well. -/
theorem fault_iff_of_cameTo {receiver : Receiver}
    (hyields : Yields r.source r.listing none receiver b d verdict) (h : r.CameTo verdict)
    (hdone : verdict.outcome = .done) : r.fault = none ↔ WentWell b d r := by
  have hfault : r.fault = none ↔ verdict.faulty = false := by rw [← h.fault]; simp
  rw [hfault]
  -- There is no text to save; so it is the start that may fail, and the listing.
  cases hyields with
  | unsaved hsaved => cases hsaved
  | spoiled hsome => cases hsome
  | saved _ hsaved hcomes =>
    obtain rfl := Except.ok.inj hsaved
    cases hcomes with
    | refused hrefused =>
      refine iff_of_false (by simp [Verdict.empty]) fun hwell => ?_
      simp [hwell.1] at hrefused
    | rejected => cases hdone
    | exited hstart hfinds =>
      cases hfinds with
      | nothing hnot => simp [Verdict.empty, WentWell, hstart, hnot]
      | unusable hexists hunusable =>
        refine iff_of_false (by simp [Verdict.empty]) fun hwell => ?_
        rcases hwell.2 with hnot | ⟨told, htells⟩
        · simp [hexists] at hnot
        · exact unusable_iff.1 hunusable told htells
      | told _ htells => exact iff_of_true rfl ⟨hstart, .inr ⟨_, htells⟩⟩

/-- What a check reports once: no diagnostics, if its session holds a fault. -/
theorem report_of_yields {receiver : Receiver} {listing : Path}
    (hyields : Yields source listing none receiver b d verdict) (hdone : verdict.outcome = .done) :
    ∃ diagnostics, verdict.reports = [diagnostics] ∧
      (verdict.faulty = true → diagnostics = []) := by
  rcases hyields.reports_or_fails with hreports | ⟨fault, phase, rfl, -⟩
  · rcases hreports.reports with ⟨diagnostics, -, htold, htells⟩ | ⟨-, htold, -⟩
    · exact ⟨diagnostics, htold, fun hfaulty =>
        absurd (hreports.faulty.1 hfaulty) htells.not_goesWrong⟩
    · exact ⟨[], htold, fun _ => rfl⟩
  · cases hdone

/-- A check by a new engine has failed or returned when the call is over. -/
theorem settled_of_check {e e' : Engine} {s : Session} {t : TaskId} (hprompt : env.behaviour.Prompt)
    (hcreate : Engine.create d env.searchPath settings = .ok e)
    (hcheck : e.check source.text none {} env.behaviour = (e', .ok (s, t))) :
    ∃ task r, e'.tasks.get? t = some task ∧ e'.sessions.get? s.id = some r ∧
      d.resolved source.text = .ok r.source ∧ settings.listingPath r.source = .ok r.listing ∧
      ((∃ fault, task.stage = .ended (.failed fault)) ∨ task.stage = .ended .done ∧
        ∃ verdict, Yields r.source r.listing none {} env.behaviour d verdict ∧
          verdict.outcome = .done ∧ r.CameTo verdict) := by
  have hrun : Engine.Run e := .create hcreate
  have hafter : Engine.Run e' := by
    have := hrun.check source.text none {} env.behaviour
    rwa [hcheck] at this
  obtain ⟨hsource, hlisting, htext, hreceiver⟩ := Engine.check_placed hcheck
  obtain ⟨compiler, log, rfl⟩ := Engine.create_eq hcreate
  obtain ⟨task, r, hsettled⟩ := hrun.check_settled hprompt hcheck rfl
  have hid : r.id = task.session := hafter.reachable.inOrder.registry.keyed hsettled.carries.2
  have hsession := hsettled.carries.2
  rw [← hid, hsettled.same.id] at hsession
  have houtcome := hsettled.outcome
  rw [htext, hreceiver, ← hsettled.same.source, ← hsettled.same.listing] at houtcome
  rw [← hsettled.same.source, ← hsettled.same.listing] at hlisting
  rw [← hsettled.same.source] at hsource
  refine ⟨task, r, hsettled.carries.1, hsession, hsource, hlisting, ?_⟩
  -- The check raised, or it came to what its source and its compiler yield.
  rcases houtcome with hfailed | ⟨verdict, hyields, hstage, hcame⟩
  · exact .inl hfailed
  · rcases hyields.reports_or_fails with hreports | ⟨fault, phase, rfl, -⟩
    · have hdone : verdict.outcome = .done := hreports.outcome
      exact .inr ⟨hdone ▸ hstage, verdict, hyields, hdone, hcame⟩
    · exact .inl ⟨fault, hstage⟩

/-- There is one session at most that a check has returned with. -/
theorem returned_iff {e e' : Engine} {s r' : Session} {t : TaskId} {task : Task}
    (hcreate : Engine.create d env.searchPath settings = .ok e)
    (hcheck : e.check source.text none {} env.behaviour = (e', .ok (s, t)))
    (ht : e'.tasks.get? t = some task) (hr : e'.sessions.get? s.id = some r) :
    Returned env d settings source r' ↔ task.stage = .ended .done ∧ r' = r := by
  constructor
  · rintro ⟨e₁, e₂, s', t', task', hcreate', hcheck', ht', hstage, hr'⟩
    obtain rfl := Except.ok.inj (hcreate.symm.trans hcreate')
    obtain ⟨rfl, hstarted⟩ := Prod.mk.inj (hcheck.symm.trans hcheck')
    obtain ⟨rfl, rfl⟩ := Prod.mk.inj (Except.ok.inj hstarted)
    obtain rfl := Option.some.inj (ht.symm.trans ht')
    exact ⟨hstage, Option.some.inj (hr'.symm.trans hr)⟩
  · rintro ⟨hstage, rfl⟩
    exact ⟨e, e', s, t, task, hcreate, hcheck, ht, hstage, hr⟩

/-- A check that returned has come to its verdict. -/
theorem Returned.yields (hprompt : env.behaviour.Prompt) (h : Returned env d settings source r) :
    d.resolved source.text = .ok r.source ∧ settings.listingPath r.source = .ok r.listing ∧
      ∃ verdict, Yields r.source r.listing none {} env.behaviour d verdict ∧
        verdict.outcome = .done ∧ r.CameTo verdict := by
  have hreturned := h
  obtain ⟨e, e', s, t, -, hcreate, hcheck, -⟩ := h
  obtain ⟨task, r', ht, hr, hsource, hlisting, hover⟩ := settled_of_check hprompt hcreate hcheck
  obtain ⟨hstage, rfl⟩ := (returned_iff hcreate hcheck ht hr).1 hreturned
  rcases hover with ⟨fault, hfailed⟩ | ⟨-, hyields⟩
  · rw [hstage] at hfailed
    cases hfailed
  · exact ⟨hsource, hlisting, hyields⟩

/-! ## The outcome -/

theorem not_green_of_status {status : Int} {lines : List String} (h : status ≠ 0) :
    ¬(o.finish status lines).Green source := fun hgreen => h (Option.some.inj hgreen.1)

/-- The result is without errors if and only if there are no diagnostics. -/
theorem green_of_printReport {diagnostics : List Diagnostic} {disk : Disk} {spawns : List Spawn}
    {log : List Event} {report : Printed} (h : printReport source.text diagnostics = .ok report) :
    Outcome.Green { o with
      disk, spawns, log
      status := some (if diagnostics.isEmpty then 0 else 1)
      printed := o.printed ++ [report] } source ↔ diagnostics = [] := by
  cases diagnostics with
  | nil =>
    obtain rfl := Except.ok.inj h
    exact iff_of_true ⟨rfl, by simp⟩ rfl
  | cons first rest => exact iff_of_false (fun hgreen => by simpa using hgreen.1) nofun

/-- A single check ends without errors if and only if it returns, and reports no diagnostics. -/
theorem checkOnce_green_iff (hprompt : env.behaviour.Prompt) :
    (checkOnce env settings source o).Green source ↔
      ∃ r, Returned env o.disk settings source r ∧ r.reports = [[]] := by
  rw [checkOnce]
  cases hcreate : Engine.create o.disk env.searchPath settings with
  | error fault =>
    refine iff_of_false (not_green_of_status (by decide)) ?_
    rintro ⟨r, ⟨e, e', s, t, task, hcreate', -⟩, -⟩
    simp [hcreate] at hcreate'
  | ok e =>
    obtain ⟨⟨e', checked⟩, hcheck⟩ :
        ∃ made, e.check source.text none {} env.behaviour = made := ⟨_, rfl⟩
    simp only [hcheck]
    cases checked with
    | error refusal =>
      refine iff_of_false ?_ ?_
      · cases refusal <;> exact not_green_of_status (by decide)
      · rintro ⟨r, ⟨e₁, e₂, s, t, task, hcreate', hcheck', -⟩, -⟩
        obtain rfl := Except.ok.inj (hcreate.symm.trans hcreate')
        rw [hcheck] at hcheck'
        cases hcheck'
    | ok started =>
      obtain ⟨s, t⟩ := started
      obtain ⟨task, r, ht, hr, -, -, hover⟩ := settled_of_check hprompt hcreate hcheck
      simp only [returned_iff hcreate hcheck ht hr, and_assoc, exists_and_left, exists_eq_left]
      simp only [ht, hr, Option.map_some, Option.getD_some]
      -- The check has ended: with a fault, which is fatal, or with a report, which is printed.
      rcases hover with ⟨fault, hstage⟩ | ⟨hstage, verdict, hyields, hdone, hcame⟩
      · simp only [hstage]
        exact iff_of_false (not_green_of_status (by decide)) (by simp)
      · obtain ⟨diagnostics, htold, -⟩ := report_of_yields hyields hdone
        simp only [hstage, hcame.reports, htold, List.flatten_cons, List.flatten_nil,
          List.append_nil, true_and, List.cons.injEq, and_true]
        cases hprint : printReport source.text diagnostics with
        | error number =>
          refine iff_of_false (not_green_of_status (by decide)) fun hnone => ?_
          rw [hnone] at hprint
          cases hprint
        | ok report => exact green_of_printReport hprint

theorem not_green_of_escaping {escape : Escape} (h : o.status = none) :
    ¬(o.escaping escape).Green source := fun hgreen => nomatch h.symm.trans hgreen.1

/-- A request for a single check of a source ends without errors if and only if checking is enabled
    for the source, and the check returns, and reports no diagnostics. -/
theorem runWith_green_iff (hprompt : env.behaviour.Prompt) (honce : request.once = true)
    (ho : o.status = none) : (runWith env request settings source o).Green source ↔
      isSupported ((request.settings settings).get? "extensions") source = .ok true ∧
        ∃ r, Returned env o.disk (request.settings settings) source r ∧ r.reports = [[]] := by
  -- The compiler of the request is one of the settings that the run goes by.
  have hsettings : runWith env request settings source o =
      runWith env { request with compiler := none } (request.settings settings) source o := rfl
  rw [hsettings, runWith]
  dsimp only
  cases isSupported ((request.settings settings).get? "extensions") source with
  | error fault => exact iff_of_false (not_green_of_escaping ho) (by simp)
  | ok supported =>
    cases supported with
    | false =>
      refine iff_of_false ?_ (by simp)
      dsimp only
      split
      · exact not_green_of_escaping ho
      · exact not_green_of_status (by decide)
    | true =>
      simp only [honce, if_true, true_and]
      exact checkOnce_green_iff hprompt

/-- A request for a single check of a file that is there is carried out without errors if and only
    if its check returns, and reports no diagnostics. -/
theorem carryOut_green_iff (hprompt : env.behaviour.Prompt) (honce : request.once = true)
    {file : Text} (hfile : request.file = some file) (hnamed : file ≠ []) {node : Node}
    (hfound : env.disk.lookup (sourcePath env.disk.here file) = .ok node) :
    (carryOut env request).Green (sourcePath env.disk.here file) ↔
      ∃ r, request.Returned env (sourcePath env.disk.here file) r ∧ r.reports = [[]] := by
  obtain ⟨c, rest, rfl⟩ := List.exists_cons_of_ne_nil hnamed
  simp only [carryOut, hfile, hfound, Request.Returned]
  generalize Settings.load env.machine env.disk (Settings.defaultDirectory env.home) = loaded
  cases hvalues : loaded.settings with
  | error fault => exact iff_of_false (not_green_of_escaping rfl) (by simp)
  | ok values =>
    rw [runWith_green_iff hprompt honce rfl]
    simp [and_assoc]

/-- The check that a request asks for has come to its verdict when it has returned. -/
theorem Request.Returned.yields (hprompt : env.behaviour.Prompt)
    (h : request.Returned env source r) :
    ∃ verdict, Yields r.source r.listing none {} env.behaviour
      (Settings.load env.machine env.disk (Settings.defaultDirectory env.home)).disk verdict ∧
        verdict.outcome = .done ∧ r.CameTo verdict := by
  obtain ⟨values, -, -, hreturned⟩ := h
  exact (hreturned.yields hprompt).2.2

/-- A directory with one source, and a compiler with a certain behaviour. -/
def oneSource (behaviour : Behaviour) : Environment :=
  { disk := { nodes := ⟨[(["m.gms".toList], .file (Utf8.encode "x\n".toList) false)]⟩ }, home := []
    behaviour }

/-- The request to check that source once. -/
def checkIt : Request := { file := some "m.gms".toList, once := true }

theorem oneSource_found (behaviour : Behaviour) :
    (oneSource behaviour).disk.lookup (sourcePath (oneSource behaviour).disk.here "m.gms".toList) =
      .ok (.file (Utf8.encode "x\n".toList) false) := by
  change Disk.lookup { nodes := ⟨[(["m.gms".toList], .file (Utf8.encode "x\n".toList) false)]⟩ }
    (sourcePath [] "m.gms".toList) = _
  decide +kernel

/-- The compiler is not installed. -/
def uninstalled : Behaviour := { failedStart := some (.refused .notFound) }

end LiveCheck.CommandLine
