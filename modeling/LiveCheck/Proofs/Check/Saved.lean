import LiveCheck.Proofs.Check.History
import LiveCheck.Proofs.Check.Ledger
import LiveCheck.Proofs.Check.Tally

/-!
# What a source holds

Of the sessions that set out with a text for a source, the newest one has its text in the file, as
long as nothing else writes the source (`Undisturbed`, `Reachable.holds`). A text is lost if its
session is overtaken before it gets the source, by a session that has no text
(`Reachable.text_saved`).
-/

namespace LiveCheck

/-- The compiler that the process runs leaves nothing in the place of the source. -/
def CompilerProcess.Spares (p : CompilerProcess) (s : Session) (source : Path) : Prop :=
  (p.behaviour.early = none ∧ p.behaviour.listing = none) ∨
    s.source.withSuffix ('.' :: p.behaviour.listingSuffix) ≠ .ok source

/-- A compiler that spares a path leaves nothing in its place. -/
theorem CompilerProcess.Spares.names_ne {p : CompilerProcess} {s : Session} {source path : Path}
    {here : Place} {node : Node} (h : p.Spares s source) (hs : s.source.Plain)
    (hsource : source.Plain)
    (hnode : p.behaviour.early = some node ∨ p.behaviour.listing = some node)
    (hpath : s.source.withSuffix ('.' :: p.behaviour.listingSuffix) = .ok path) :
    path.fullNames here ≠ source.names := by
  have hplain := Path.plain_withSuffix hs (by simp) hpath
  rw [hplain.fullNames]
  intro hnames
  rcases h with ⟨hearly, hlisting⟩ | hne
  · rcases hnode with hnode | hnode <;> simp_all
  · exact hne (hplain.ext hsource hnames ▸ hpath)

namespace Engine

variable {e e' : Engine} {source : Path} {m s : Session} {text : Text}

/-- Only the texts of its sessions are written to the source, and none of them in vain: no check
    fails because it cannot write its text. -/
structure Undisturbed (e : Engine) (source : Path) : Prop where
  listing : ∀ {id s}, e.sessions.get? id = some s → s.listing ≠ source
  compiler : ∀ {id s p}, e.sessions.get? id = some s → s.process = some p → p.Spares s source
  saved : ∀ {id s}, e.sessions.get? id = some s → s.source = source → ¬s.Unsaved
  written : ∀ {t task s fault}, e.Carries t task s → s.source = source →
    task.stage ≠ .ended (.failed (.text fault))

/-- The session set out with a text for the source, and none of those that did is newer. -/
structure LastSaved (e : Engine) (source : Path) (m : Session) : Prop where
  stored : e.sessions.get? m.id = some m
  ofSource : m.source = source
  setOut : m.SetOut
  newest : ∀ {id r}, e.sessions.get? id = some r → r.source = source → r.text.isSome → r.SetOut →
    id ≤ m.id

/-- What disturbs a source later on has been there before. -/
theorem Footprint.undisturbed_before (h : Footprint e e') (hkept : KeepsEnded e e')
    (hu : e'.Undisturbed source) : e.Undisturbed source where
  listing := fun hs => by
    obtain ⟨s', hs', hl⟩ := h.later hs
    exact hl.listing ▸ hu.listing hs'
  compiler := fun hs hp => by
    obtain ⟨s', hs', hl⟩ := h.later hs
    obtain ⟨q, hq, hb⟩ := hl.process hp
    have := hu.compiler hs' hq
    rwa [CompilerProcess.Spares, hb, hl.source] at this
  saved := fun hs hsource hunsaved => by
    obtain ⟨s', hs', hl⟩ := h.later hs
    exact hu.saved hs' (hl.source.trans hsource) ((hl.unsaved hunsaved.setOut).2 hunsaved)
  written := fun {t task s fault} ht hsource hstage => by
    obtain ⟨s', hs', hl⟩ := h.later ht.2
    have ht' := hkept t task ht.1 (by rw [hstage]; rfl)
    exact hu.written ⟨ht', hs'⟩ (hl.source.trans hsource) hstage

/-- What a session does after it was saved spares a source that is not its listing, if its compiler
    does. -/
theorem spares_of_litter {settings : Settings} (hsource : source.Plain) (hs : s.Proper settings)
    (hlisting : s.listing ≠ source) (hcompiler : ∀ p, s.process = some p → p.Spares s source)
    {d d' : Disk} (hlitter : Relation.ReflTransGen (Litter s) d d') :
    Disk.Spares source.names d d' := by
  induction hlitter with
  | refl => exact .refl _ _
  | tail _ hlitter ih =>
    refine ih.trans ?_
    cases hlitter with
    | leave hp hnode hpath =>
      exact Disk.spares_plant ((hcompiler _ hp).names_ne hs.plain hsource hnode hpath) _
    | remove hd =>
      exact Disk.spares_removeFile hs.plain_listing
        (fun hnames => hlisting (hs.plain_listing.ext hsource hnames)) hd

/-- The file of the source holds the text of the session that saved it last. -/
def Holds (e : Engine) (source : Path) : Prop :=
  ∀ m text, e.LastSaved source m → m.text = some (.text text) →
    e.disk.contents source = .ok (Utf8.encode text)

/-- The session that saved the source last did so before the step, if it had set out by then. -/
theorem LastSaved.before (hm : e'.LastSaved source m) (h : Footprint e e') {m₀ : Session}
    (hm₀ : e.sessions.get? m.id = some m₀) (hset : m₀.SetOut) :
    e.LastSaved source m₀ ∧ m₀.text = m.text := by
  obtain ⟨m', hm', hl⟩ := h.later hm₀
  obtain rfl := Option.some.inj (hm.stored.symm.trans hm')
  refine ⟨⟨hl.id ▸ hm₀, hl.source.symm.trans hm.ofSource, hset, fun hr hsource htext hset => ?_⟩,
    hl.text.symm⟩
  obtain ⟨r', hr', hl'⟩ := h.later hr
  exact hl.id ▸ hm.newest hr' (hl'.source.trans hsource) (hl'.text ▸ htext) (hl'.setOut hset)

/-- The session that saves the source last has left its text there when it goes on. -/
theorem Onward.contents_own {e₁ : Engine} {d' : Disk} {asked : List Spawn}
    (hon : Onward e e₁ e' s m) (hdeed : Deed (e₁.isCurrent s) e.disk s m d' asked)
    (hproper : ∀ id s, e.sessions.get? id = some s → s.Proper e.settings) (hplain : source.Plain)
    (hm : e'.LastSaved source m) (htext : m.text = some (.text text)) (hsaved : ¬m.Unsaved)
    (hlitter : ∀ {d₁}, Relation.ReflTransGen (Litter m) d₁ d' → Disk.Spares source.names d₁ d')
    (hbefore : ∀ {m₀}, e.sessions.get? m.id = some m₀ → m₀.SetOut →
      e.disk.contents source = .ok (Utf8.encode text)) :
    d'.contents source = .ok (Utf8.encode text) := by
  cases hdeed with
  | overtaken _ hphase hs' =>
    have hnot := (hon.opened.proper hproper hon.stored).not_setOut_overtaken hphase
    exact absurd (hs' ▸ hm.setOut) hnot
  | unsaved _ _ _ hs' => exact absurd hs' hsaved
  | spoiled _ hidle _ hs' => exact absurd (hs' ▸ hidle) hm.setOut.1
  | @setsOut d₁ _ _ _ _ hsave hl =>
    have hsave := (hon.saves _ d₁).2 hsave
    rw [Session.Saves, htext, hm.ofSource] at hsave
    obtain ⟨_, hencode, hwrite⟩ := hsave
    obtain rfl := Except.ok.inj hencode
    exact (hlitter hl).contents hplain (Disk.contents_writeText hwrite)
  | goesOn hunder hl =>
    obtain ⟨m₀, hm₀, ha⟩ := hon.opened.of_setOut hon.stored hunder.setOut
    exact (hlitter hl).contents hplain (hbefore (hon.later.id ▸ hm₀) (ha.setOut.1 hunder.setOut))

/-- Another session that goes on spares what was saved last: if it is one of the source, it is
    older than the session that saves the source last, or it has no text. -/
theorem Onward.contents_other {e₁ : Engine} {s' : Session} {d' : Disk} {asked : List Spawn}
    (hon : Onward e e₁ e' s s') (hdeed : Deed (e₁.isCurrent s) e.disk s s' d' asked)
    (hproper : ∀ id s, e.sessions.get? id = some s → s.Proper e.settings) (hplain : source.Plain)
    (hu : e'.Undisturbed source) (hm : e'.LastSaved source m) (hid : m.id ≠ s'.id)
    (hlitter : ∀ {d₁}, Relation.ReflTransGen (Litter s') d₁ d' → Disk.Spares source.names d₁ d')
    {bytes : List UInt8} (hread : e.disk.contents source = .ok bytes) :
    d'.contents source = .ok bytes := by
  have hs := hon.opened.proper hproper hon.stored
  cases hdeed with
  | overtaken | unsaved => exact hread
  | spoiled _ hidle hspoil hs' =>
    obtain ⟨_, _, -, -, hwrite⟩ := hspoil
    refine (Disk.spares_writeText hs.plain (fun hnames => ?_) hwrite).contents hplain hread
    -- No check of the source fails because of its text.
    obtain ⟨fault, t, task, ht, hid, hstage⟩ := hon.ended (hs' ▸ hidle)
    have hs' : e'.sessions.get? task.session = some s' := hid ▸ hon.later.id ▸ hon.stored'
    exact hu.written ⟨ht, hs'⟩ (hon.later.source.trans (hs.plain.ext hplain hnames)) hstage
  | goesOn _ hl => exact (hlitter hl).contents hplain hread
  | @setsOut d₁ _ _ hc _ hsave hl _ hset =>
    have hsave := (hon.saves _ d₁).2 hsave
    have hplain' : s'.source.Plain := hon.later.source ▸ hs.plain
    refine (hlitter hl).contents hplain
      ((hsave.spares hplain' fun hsome hnames => ?_).contents hplain hread)
    -- The newest session does not save the source after the one that saves it last.
    have hsource := hplain'.ext hplain hnames
    have hle := hm.newest hon.stored' hsource hsome hset
    have hge := hon.newest hc m.id m hm.stored (hm.ofSource.trans hsource.symm)
    omega

/-- A step keeps the text that was saved last in the file of an undisturbed source. -/
theorem Footprint.holds (h : Footprint e e')
    (hproper : ∀ id s, e.sessions.get? id = some s → s.Proper e.settings)
    (hu : e'.Undisturbed source) (hholds : e.Holds source) : e'.Holds source := by
  intro m text hm htext
  have hproper' : ∀ {id s}, e'.sessions.get? id = some s → s.Proper e'.settings :=
    fun hs => h.proper hproper hs
  have hplain : source.Plain := hm.ofSource ▸ (hproper' hm.stored).plain
  -- What the file held before the step, it held because of the same session.
  have hbefore : ∀ {m₀}, e.sessions.get? m.id = some m₀ → m₀.SetOut →
      e.disk.contents source = .ok (Utf8.encode text) := by
    intro m₀ hm₀ hset
    obtain ⟨hlast, ht⟩ := hm.before h hm₀ hset
    exact hholds m₀ text hlast (ht.trans htext)
  cases h with
  | opened hopen =>
    obtain ⟨m₀, hm₀, ha⟩ := hopen.of_setOut hm.stored hm.setOut
    exact hopen.disk ▸ hbefore hm₀ (ha.setOut.1 hm.setOut)
  | @deed e₁ s s' d' asked hon hdeed hdisk =>
    have hlitter : ∀ {d₁}, Relation.ReflTransGen (Litter s') d₁ d' →
        Disk.Spares source.names d₁ d' := fun hl =>
      spares_of_litter hplain (hproper' hon.stored') (hu.listing hon.stored')
        (fun _ => hu.compiler hon.stored') hl
    rw [hdisk]
    by_cases hid : m.id = s'.id
    · obtain rfl := Option.some.inj (hon.stored'.symm.trans (hid ▸ hm.stored))
      exact hon.contents_own hdeed hproper hplain hm htext (hu.saved hm.stored hm.ofSource)
        hlitter hbefore
    · rcases hon.others hm.stored hid with ⟨m₀, hm₀, ha⟩ | hfresh
      · exact hon.contents_other hdeed hproper hplain hu hm hid hlitter
          (hbefore hm₀ (ha.setOut.1 hm.setOut))
      · exact absurd hm.setOut hfresh.not_setOut

/-- The file of an undisturbed source holds the text that was saved last. -/
theorem Reachable.holds (h : Reachable e) (hu : e.Undisturbed source) : e.Holds source := by
  induction h with
  | create hcreate =>
    obtain ⟨compiler, log, rfl⟩ := create_eq hcreate
    intro m text hm
    simpa using hm.stored
  | step h hstep ih =>
    -- The source was undisturbed before the step, too.
    have hf := hstep.footprint h.inOrder
    exact hf.holds (fun _ _ => h.proper) hu (ih (hf.undisturbed_before (hstep.keepsEnded h) hu))

/-- Once all checks have ended, the file of an undisturbed source holds the text that was saved
    last. That is the text of the newest session that came with one, unless the session was
    overtaken before it got the source, by a session without a text. -/
theorem Reachable.text_saved (h : Reachable e) (hu : e.Undisturbed source)
    (hended : ∀ t task, e.tasks.get? t = some task → task.stage.isEnded) :
    e.Holds source ∧
    ∀ m text, e.sessions.get? m.id = some m → m.source = source → m.text = some (.text text) →
      (∀ id r, e.sessions.get? id = some r → r.source = source → r.text.isSome → id ≤ m.id) →
      e.disk.contents source = .ok (Utf8.encode text) ∨
        (m.phase = .superseded ∧ m.process = none ∧ m.fault = none ∧
          ∃ n r, e.sessions.get? n = some r ∧ r.source = source ∧ m.id < n ∧ r.text = none) := by
  refine ⟨h.holds hu, fun m text hm hsource htext hnewest => ?_⟩
  by_cases hset : m.SetOut
  · left
    exact h.holds hu m text ⟨hm, hsource, hset, fun hr hrs ht _ => hnewest _ _ hr hrs ht⟩ htext
  · right
    obtain ⟨t, task, ht, hid⟩ := h.inOrder.schedule.carried hm
    have hcarries : e.Carries t task m := ⟨ht, hid ▸ hm⟩
    obtain ⟨outcome, hstage, hleft⟩ :=
      (h.inOrder.schedule.fits (free_none t) hcarries).left_of_ended (hended t task ht)
    -- A check whose session has not set out was spoilt by its text, which is excluded, or
    -- overtaken.
    rcases Session.not_setOut.1 hset with hidle | ⟨hphase, hprocess, hfault⟩
    · obtain ⟨_, fault, -, -, hend⟩ := hleft.of_idle hidle
      obtain rfl := Progress.ends.inj hend
      exact absurd hstage (hu.written hcarries hsource)
    · obtain ⟨n, r, hr, hrs, hlt⟩ := h.ledger.overtaken hm hphase
      refine ⟨hphase, hprocess, hfault, n, r, hr, hrs.trans hsource, hlt, ?_⟩
      -- A newer session has no text, as there is none that came with one.
      by_contra hne
      have := hnewest n r hr (hrs.trans hsource) (Option.isSome_iff_ne_none.2 hne)
      omega

/-- Is the source undisturbed, have all compilers left nothing, and have all checks returned? -/
def undisturbed (e : Engine) (source : Path) : Bool :=
  (e.sessions.values.all fun s => s.listing ≠ source ∧ s.fault = none ∧
    s.process.all fun p => p.behaviour.early = none ∧ p.behaviour.listing = none) &&
  e.tasks.values.all fun task => task.stage = .ended .done

theorem ended_of_undisturbed (h : e.undisturbed source = true) {t : TaskId} {task : Task}
    (ht : e.tasks.get? t = some task) : task.stage = .ended .done := by
  rw [undisturbed, Bool.and_eq_true] at h
  exact of_decide_eq_true (List.all_eq_true.1 h.2 _ (Table.mem_values_of_get? ht))

/-- A source that checks undisturbed is undisturbed. -/
theorem undisturbed_of_check (h : e.undisturbed source = true) : e.Undisturbed source := by
  have hall : ∀ {id s}, e.sessions.get? id = some s → s.listing ≠ source ∧ s.fault = none ∧
      s.process.all fun p => p.behaviour.early = none ∧ p.behaviour.listing = none := by
    intro id s hs
    rw [undisturbed, Bool.and_eq_true] at h
    exact of_decide_eq_true (List.all_eq_true.1 h.1 _ (Table.mem_values_of_get? hs))
  refine ⟨fun hs => (hall hs).1, fun hs hp => .inl ?_, fun hs _ hunsaved => ?_,
    fun ht _ hstage => ?_⟩
  · simpa [hp] using (hall hs).2.2
  · obtain ⟨fault, hfault⟩ := hunsaved.2.2
    exact Option.some_ne_none _ (hfault.symm.trans (hall hs).2.1)
  · rw [ended_of_undisturbed h ht.1] at hstage
    cases hstage

/-- The text of a session that was overtaken while its compiler ran is in the file. -/
theorem text_saved_of_overtaken : ∃ e : Engine, Reachable e ∧
    e.disk.contents (.ofText "/m.gms".toList) = .ok (Utf8.encode "1".toList) := by
  have hrun : ∃ e₀ e₂, Engine.create {} [] ⟨.ofText "/".toList, ∅⟩ = .ok e₀ ∧
      ((e₀.check "/m.gms".toList (some (.text "1".toList)) {} { holdsExit := true }).1.check
        "/m.gms".toList none {} {}).1 = e₂ ∧
      e₂.undisturbed (.ofText "/m.gms".toList) ∧
      (e₂.sessions.get? 1).any fun m => m.id = 1 ∧ m.source = .ofText "/m.gms".toList ∧
        m.text = some (.text "1".toList) ∧ m.process.isSome ∧
        e₂.sessions.entries.all fun s => s.2.text.isSome → s.1 ≤ m.id :=
    ⟨_, _, rfl, rfl, by decide +kernel, by decide +kernel⟩
  obtain ⟨e₀, e₂, hcreate, rfl, hundisturbed, hcheck⟩ := hrun
  have h := ((Run.create hcreate).check "/m.gms".toList (some (.text "1".toList)) {}
    { holdsExit := true }).check "/m.gms".toList none {} {}
  obtain ⟨m, hm, hcheck⟩ := (Option.any_eq_true _ _).1 hcheck
  simp only [decide_eq_true_eq] at hcheck
  obtain ⟨hid, hsource, htext, hprocess, hnewest⟩ := hcheck
  refine ⟨_, h.reachable, ?_⟩
  rcases (Reachable.text_saved h.reachable (undisturbed_of_check hundisturbed)
      fun t task ht => by rw [ended_of_undisturbed hundisturbed ht]; rfl).2 m "1".toList
      (hid ▸ hm) hsource htext
      (fun id r hr _ ht => of_decide_eq_true
        (List.all_eq_true.1 hnewest (id, r) (Table.mem_entries_of_get? hr)) ht) with
    hread | ⟨-, hnone, -⟩
  · exact hread
  · simp [hnone] at hprocess

/-- The text of a session is lost if it is overtaken, before it gets the source, by a session
    without a text. -/
theorem text_not_saved_of_overtaken : ∃ e : Engine, Run e ∧
    e.Undisturbed (.ofText "/m.gms".toList) ∧
    (∀ t task, e.tasks.get? t = some task → task.stage.isEnded) ∧
    ∃ m text, e.sessions.get? m.id = some m ∧ m.source = .ofText "/m.gms".toList ∧
      m.text = some (.text text) ∧
      (∀ id r, e.sessions.get? id = some r → r.source = .ofText "/m.gms".toList →
        r.text.isSome → id ≤ m.id) ∧
      e.disk.contents (.ofText "/m.gms".toList) ≠ .ok (Utf8.encode text) := by
  have hrun : ∃ e₀ e₄, Engine.create {} [] ⟨.ofText "/".toList, ∅⟩ = .ok e₀ ∧
      ((((e₀.check "/m.gms".toList (some (.text "1".toList)) {}
        { holdsExit := true, onStop := .ignores }).1.check
        "/m.gms".toList (some (.text "2".toList)) {} {}).1.check
        "/m.gms".toList none {} {}).1.allowExit 1 0).1 = e₄ ∧
      e₄.undisturbed (.ofText "/m.gms".toList) ∧
      (e₄.disk.contents (.ofText "/m.gms".toList)).toOption ≠ some (Utf8.encode "2".toList) ∧
      (e₄.sessions.get? 2).any fun m => m.id = 2 ∧ m.source = .ofText "/m.gms".toList ∧
        m.text = some (.text "2".toList) ∧
        e₄.sessions.entries.all fun s => s.2.text.isSome → s.1 ≤ m.id :=
    ⟨_, _, rfl, rfl, by decide +kernel, by decide +kernel, by decide +kernel⟩
  obtain ⟨e₀, e₄, hcreate, rfl, hundisturbed, hlost, hcheck⟩ := hrun
  obtain ⟨m, hm, hcheck⟩ := (Option.any_eq_true _ _).1 hcheck
  simp only [decide_eq_true_eq] at hcheck
  obtain ⟨hid, hsource, htext, hnewest⟩ := hcheck
  refine ⟨_, (((Run.create hcreate).check "/m.gms".toList (some (.text "1".toList)) {}
    { holdsExit := true, onStop := .ignores }).check "/m.gms".toList (some (.text "2".toList)) {}
    {}).check "/m.gms".toList none {} {} |>.allowExit 1 0, undisturbed_of_check hundisturbed,
    fun t task ht => by rw [ended_of_undisturbed hundisturbed ht]; rfl,
    m, "2".toList, hid ▸ hm, hsource, htext, fun id r hr _ ht => ?_, fun hread => ?_⟩
  · exact of_decide_eq_true
      (List.all_eq_true.1 hnewest (id, r) (Table.mem_entries_of_get? hr)) ht
  · exact hlost (congrArg Except.toOption hread)

end Engine

end LiveCheck
