import LiveCheck.Proofs.Check.Shape

/-!
# What a step leaves on record

Whatever a step opens with, sessions come in and are told to stop, and nothing else (`Opened`). At
most one session goes on then, and what it does to the disk and which compiler it asks for depends
on how far it has come (`Deed`). Every step is of this kind (`Step.footprint`).

So sessions stay on record in later forms of themselves (`Steps.later`): a session that set out
stays one that did, and one whose check has ended stays as it is (`Footprint.alike_of_ended`). In
every reachable state, the paths of a session are those that it was made with (`Reachable.proper`),
and compilers were asked for by sessions that set out (`Reachable.asked_setOut`).
-/

namespace LiveCheck

/-! ## Forms of a session -/

/-- A session that has just been made for its source. -/
structure Session.Fresh (settings : Settings) (s : Session) : Prop where
  phase : s.phase = .idle
  process : s.process = none
  fault : s.fault = none
  plain : s.source.Plain
  listing : settings.listingPath s.source = .ok s.listing

/-- The session is as it was, but may have been told to stop. -/
structure Session.Alike (s s' : Session) : Prop where
  id : s'.id = s.id
  source : s'.source = s.source
  listing : s'.listing = s.listing
  text : s'.text = s.text
  receiver : s'.receiver = s.receiver
  phase : s'.phase = s.phase
  fault : s'.fault = s.fault
  process : s'.process.map (·.behaviour) = s.process.map (·.behaviour)

/-- What stays of a session for good. -/
structure Session.Later (s s' : Session) : Prop where
  id : s'.id = s.id
  source : s'.source = s.source
  listing : s'.listing = s.listing
  text : s'.text = s.text
  receiver : s'.receiver = s.receiver
  process : ∀ {p}, s.process = some p → ∃ q, s'.process = some q ∧ q.behaviour = p.behaviour
  setOut : s.SetOut → s'.SetOut
  unsaved : s.SetOut → (s'.Unsaved ↔ s.Unsaved)

/-- The paths of the session are those that it was made with, and it has nothing before its turn. -/
structure Session.Proper (settings : Settings) (s : Session) : Prop where
  plain : s.source.Plain
  listing : settings.listingPath s.source = .ok s.listing
  waiting : s.phase = .idle → s.process = none ∧ s.fault = none

/-- The compiler of the session is to start, or has started. -/
def Session.UnderWay (s : Session) : Prop :=
  s.phase = .spawning ∨ (s.phase = .running ∧ s.process.isSome)

theorem CompilerProcess.stop_behaviour (p : CompilerProcess) : p.stop.behaviour = p.behaviour := by
  rw [stop]
  split <;> rfl

namespace Session

variable {settings : Settings} {s s' s'' : Session}

theorem Alike.refl (s : Session) : s.Alike s := ⟨rfl, rfl, rfl, rfl, rfl, rfl, rfl, rfl⟩

theorem Alike.trans (h : s.Alike s') (h' : s'.Alike s'') : s.Alike s'' :=
  ⟨h'.id.trans h.id, h'.source.trans h.source, h'.listing.trans h.listing, h'.text.trans h.text,
    h'.receiver.trans h.receiver, h'.phase.trans h.phase, h'.fault.trans h.fault,
    h'.process.trans h.process⟩

/-- Telling a session to stop leaves it as it was otherwise. -/
theorem cancel_alike (s : Session) : s.Alike s.cancel := by
  refine ⟨rfl, rfl, rfl, rfl, rfl, rfl, rfl, ?_⟩
  rw [cancel, Option.map_map]
  exact congrArg (Option.map · s.process) (funext CompilerProcess.stop_behaviour)

theorem Alike.process_none (h : s.Alike s') : s'.process = none ↔ s.process = none := by
  have hp := h.process
  cases hs : s.process <;> cases hs' : s'.process <;> simp_all

theorem Alike.process_isSome (h : s.Alike s') : s'.process.isSome ↔ s.process.isSome := by
  rw [Option.isSome_iff_ne_none, Option.isSome_iff_ne_none, ne_eq, ne_eq, h.process_none]

/-- Being told to stop has no bearing on whether a session has set out. -/
theorem Alike.setOut (h : s.Alike s') : s'.SetOut ↔ s.SetOut := by
  rw [SetOut, SetOut, h.phase, h.fault, h.process_isSome]

theorem Alike.unsaved (h : s.Alike s') : s'.Unsaved ↔ s.Unsaved := by
  rw [Unsaved, Unsaved, h.phase, h.fault, h.process_none]

/-- A session that was told to stop is a later form of itself. -/
theorem Alike.later (h : s.Alike s') : s.Later s' where
  id := h.id
  source := h.source
  listing := h.listing
  text := h.text
  receiver := h.receiver
  process := fun {p} hp => by
    have hmap := h.process
    rw [hp, Option.map_some, Option.map_eq_some_iff] at hmap
    exact hmap
  setOut := h.setOut.2
  unsaved := fun _ => h.unsaved

theorem Later.trans (h : s.Later s') (h' : s'.Later s'') : s.Later s'' where
  id := h'.id.trans h.id
  source := h'.source.trans h.source
  listing := h'.listing.trans h.listing
  text := h'.text.trans h.text
  receiver := h'.receiver.trans h.receiver
  process := fun hp => by
    obtain ⟨q, hq, hb⟩ := h.process hp
    obtain ⟨q', hq', hb'⟩ := h'.process hq
    exact ⟨q', hq', hb'.trans hb⟩
  setOut := fun hs => h'.setOut (h.setOut hs)
  unsaved := fun hs => (h'.unsaved (h.setOut hs)).trans (h.unsaved hs)

theorem Fresh.alike (h : s.Fresh settings) (h' : s.Alike s') : s'.Fresh settings :=
  ⟨h'.phase.trans h.phase, h'.process_none.2 h.process, h'.fault.trans h.fault, h'.source ▸ h.plain,
    by rw [h'.source, h'.listing, h.listing]⟩

/-- A session has the paths that it was made with. -/
theorem Fresh.proper (h : s.Fresh settings) : s.Proper settings :=
  ⟨h.plain, h.listing, fun _ => ⟨h.process, h.fault⟩⟩

theorem Proper.alike (h : s.Proper settings) (h' : s.Alike s') : s'.Proper settings :=
  ⟨h'.source ▸ h.plain, by rw [h'.source, h'.listing, h.listing], fun hs => by
    rw [h'.process_none, h'.fault]
    exact h.waiting (h'.phase ▸ hs)⟩

/-- Sessions of one source have one listing. -/
theorem Proper.listing_eq (h : s.Proper settings) (h' : s'.Proper settings)
    (hsource : s'.source = s.source) : s'.listing = s.listing :=
  Except.ok.inj (h'.listing.symm.trans (hsource ▸ h.listing))

/-- The listing of a session lies below the root as well. -/
theorem Proper.plain_listing (h : s.Proper settings) : s.listing.Plain :=
  Path.plain_withSuffix h.plain settings.listingSuffix_ne_nil
    (Settings.withSuffix_of_listingPath h.listing)

/-- A session that did not set out waits for its turn, or was overtaken before. -/
theorem not_setOut : ¬s.SetOut ↔
    s.phase = .idle ∨ (s.phase = .superseded ∧ s.process = none ∧ s.fault = none) := by
  rw [SetOut]
  cases s.phase <;> cases s.process <;> cases s.fault <;> simp

/-- A session that is overtaken before its turn has not set out. -/
theorem Proper.not_setOut_overtaken (h : s.Proper settings) (hs : s.phase = .idle) :
    ¬(s.to .superseded).SetOut := by
  obtain ⟨hprocess, hfault⟩ := h.waiting hs
  exact not_setOut.2 (.inr ⟨rfl, hprocess, hfault⟩)

/-- A session whose compiler is to start, or has started, has set out. -/
theorem UnderWay.setOut (h : s.UnderWay) : s.SetOut := by
  rcases h with h | ⟨h, -⟩ <;> exact setOut_of_phase (by simp [h]) (by simp [h])

/-- A session that was just made has not set out. -/
theorem Fresh.not_setOut (h : s.Fresh settings) : ¬s.SetOut := Session.not_setOut.2 (.inl h.phase)

end Session

namespace Engine

variable {e e' : Engine}

/-! ## Openings -/

/-- Sessions come in, and are told to stop. Nothing happens to the disk. -/
structure Opened (e e' : Engine) : Prop extends Still e e' where
  settings : e'.settings = e.settings
  nextId : e.nextId ≤ e'.nextId
  kept : ∀ {id s}, e.sessions.get? id = some s →
    ∃ s', e'.sessions.get? id = some s' ∧ s.Alike s'
  came : ∀ {id s'}, e'.sessions.get? id = some s' →
    (∃ s, e.sessions.get? id = some s ∧ s.Alike s') ∨ (e.nextId ≤ id ∧ s'.Fresh e.settings)

theorem Opened.of_sessions (hstill : Still e e') (hsettings : e'.settings = e.settings)
    (hnextId : e.nextId ≤ e'.nextId) (hsessions : e'.sessions = e.sessions) : Opened e e' :=
  ⟨hstill, hsettings, hnextId, fun hs => ⟨_, hsessions ▸ hs, .refl _⟩,
    fun hs => .inl ⟨_, hsessions ▸ hs, .refl _⟩⟩

theorem Opened.surroundings (h : Opened e e') : e'.surroundings = e.surroundings := by
  rw [Engine.surroundings, Engine.surroundings, h.settings, h.disk]

theorem Opened.trans {e'' : Engine} (h : Opened e e') (h' : Opened e' e'') : Opened e e'' where
  toStill := h.toStill.trans h'.toStill
  settings := h'.settings.trans h.settings
  nextId := Int.le_trans h.nextId h'.nextId
  kept := fun hs => by
    obtain ⟨s', hs', ha⟩ := h.kept hs
    obtain ⟨s'', hs'', ha'⟩ := h'.kept hs'
    exact ⟨s'', hs'', ha.trans ha'⟩
  came := fun hs'' => by
    rcases h'.came hs'' with ⟨s', hs', ha'⟩ | ⟨hid, hfresh⟩
    · rcases h.came hs' with ⟨s, hs, ha⟩ | ⟨hid, hfresh⟩
      · exact .inl ⟨s, hs, ha.trans ha'⟩
      · exact .inr ⟨hid, hfresh.alike ha'⟩
    · exact .inr ⟨Int.le_trans h.nextId hid, h.settings ▸ hfresh⟩

/-- A new session is made for a resolved source, with the listing that the settings give it. -/
theorem newSession_fresh {path : Text} {text : Option JsonString} {receiver : Receiver}
    {s : Session} (h : e.newSession path text receiver = (e', .ok s)) : s.Fresh e.settings := by
  rw [newSession] at h
  split at h
  · simp at h
  split at h
  · simp at h
  dsimp only at h
  split at h
  · simp at h
  · obtain rfl := Except.ok.inj (Prod.mk.inj h).2
    exact ⟨rfl, rfl, rfl, Disk.plain_of_resolved ‹_›, ‹_›⟩

/-- A session that is made comes to the others. -/
theorem opened_newSession (hr : Registry e) {path : Text} {text : Option JsonString}
    {receiver : Receiver} {s : Session} (hnew : e.newSession path text receiver = (e', .ok s)) :
    Opened e e' := by
  have hfresh := newSession_fresh hnew
  obtain ⟨-, hid, rfl⟩ := newSession_ok hnew
  refine ⟨⟨rfl, rfl⟩, rfl, by simp only; omega, fun {id s} hs => ⟨s, ?_, .refl s⟩, ?_⟩
  · -- The number is new, so no other session is in its place.
    have := hr.below hs
    exact (Table.get?_put_of_ne (by omega) _).trans hs
  · intro id s' hs'
    rw [Table.get?_put] at hs'
    split at hs'
    · obtain rfl := Option.some.inj hs'
      exact .inr ⟨by omega, hfresh⟩
    · exact .inl ⟨s', hs', .refl s'⟩

/-- A session that is told to stop is still itself. -/
theorem opened_cancelSession (hr : Registry e) (id : Int) : Opened e (e.cancelSession id) := by
  obtain ⟨sessions, ready, heq⟩ := e.cancelSession_eq id
  cases hs : e.sessions.get? id with
  | none =>
    have hnone : e.cancelSession id = e := by simp [cancelSession, hs]
    rw [hnone]
    exact .of_sessions ⟨rfl, rfl⟩ rfl (Int.le_refl _) rfl
  | some s =>
    have hget := cancelSession_sessions hs
    obtain rfl := hr.keyed hs
    refine ⟨⟨by rw [heq], by rw [heq]⟩, by rw [heq], Int.le_of_eq (by rw [heq]),
      fun {id r} hr' => ?_, fun {id r} hr' => .inl ?_⟩
    · rw [hget]
      split
      · rename_i hid
        obtain rfl := Option.some.inj (hs.symm.trans (hid ▸ hr'))
        exact ⟨_, rfl, s.cancel_alike⟩
      · exact ⟨r, hr', .refl r⟩
    · rw [hget] at hr'
      split at hr'
      · rename_i hid
        exact ⟨s, hid ▸ hs, Option.some.inj hr' ▸ s.cancel_alike⟩
      · exact ⟨r, hr', .refl r⟩

/-- An opening lets sessions in and tells others to stop, and leaves the disk as it was. -/
theorem Opening.opened (hr : Registry e) (h : Opening e e') : Opened e e' := by
  cases h with
  | made hnew => exact opened_newSession hr hnew
  | refused hnew =>
    obtain rfl | rfl := newSession_error hnew
    · exact .of_sessions ⟨rfl, rfl⟩ rfl (Int.le_refl _) rfl
    · exact .of_sessions ⟨rfl, rfl⟩ rfl (by simp only; omega) rfl
  | cancelled id => exact opened_cancelSession hr id
  | rearranged hre _ =>
    exact .of_sessions ⟨hre.disk, hre.spawns⟩ hre.settings (Int.le_of_eq hre.nextId.symm)
      hre.sessions

theorem Opening.registry (hr : Registry e) (h : Opening e e') : Registry e' := by
  cases h with
  | made hnew => exact hr.newSession hnew
  | refused hnew => exact hr.refuse hnew
  | cancelled id => exact hr.cancelSession id
  | rearranged hre _ => exact hr.congr hre.sessions hre.nextId hre.latest

theorem opened_of_openings (hr : Registry e) (h : Relation.ReflTransGen Opening e e') :
    Opened e e' ∧ Registry e' := by
  induction h with
  | refl => exact ⟨.of_sessions ⟨rfl, rfl⟩ rfl (Int.le_refl _) rfl, hr⟩
  | tail _ ho ih => exact ⟨ih.1.trans (ho.opened ih.2), ho.registry ih.2⟩

/-- A step opens with sessions that come in, or are told to stop. -/
theorem Opening.sessions (hr : Registry e) (h : Opening e e') (id : Int) :
    e'.sessions.get? id = e.sessions.get? id ∨
      (∃ s, e.sessions.get? id = some s ∧ e'.sessions.get? id = some s.cancel) ∨
      (e.sessions.get? id = none ∧ ∃ s, e'.sessions.get? id = some s ∧ s.New) := by
  rcases h with hnew | hnew | id' | ⟨hre, -⟩
  · obtain ⟨hs, hid, rfl⟩ := newSession_ok hnew
    simp only [Table.get?_put]
    split
    · refine .inr (.inr ⟨Option.eq_none_iff_forall_ne_some.2 fun r hr' => ?_, _, rfl, hs⟩)
      have := hr.below hr'
      omega
    · exact .inl rfl
  · rcases newSession_error hnew with rfl | rfl <;> exact .inl rfl
  · rcases hs : e.sessions.get? id' with _ | s
    · simp [cancelSession, hs]
    · rw [cancelSession_sessions hs]
      split
      · obtain rfl := hr.keyed hs
        exact .inr (.inl ⟨s, ‹id = _› ▸ hs, rfl⟩)
      · exact .inl rfl
  · exact .inl (by rw [hre.sessions])

/-- What holds of new sessions and is kept by being told to stop and by every act holds of all
    sessions. -/
theorem Reachable.session {P : Session → Prop} (hnew : ∀ s, s.New → P s)
    (hcancel : ∀ s, P s → P s.cancel) (hact : ∀ x y, Act x y → P x.2 → P y.2) (h : Reachable e)
    {id : Int} {s : Session} (hs : e.sessions.get? id = some s) : P s := by
  have hopening : ∀ {e e'}, Registry e → Opening e e' →
      (∀ id s, e.sessions.get? id = some s → P s) →
      ∀ id s, e'.sessions.get? id = some s → P s := by
    intro e e' hr ho hall id s hs
    rcases ho.sessions hr id with heq | ⟨r, hr', heq⟩ | ⟨-, r, heq, hr'⟩
    · exact hall id s (heq ▸ hs)
    · exact Option.some.inj (heq.symm.trans hs) ▸ hcancel r (hall id r hr')
    · exact Option.some.inj (heq.symm.trans hs) ▸ hnew r hr'
  induction h generalizing id s with
  | create hcreate =>
    obtain ⟨compiler, log, rfl⟩ := create_eq hcreate
    simp at hs
  | @step e e' h hstep ih =>
    -- Openings make sessions or tell them to stop, and the rest of a step is made of acts.
    have hopened : ∀ {e₁}, Relation.ReflTransGen Opening e e₁ →
        Registry e₁ ∧ ∀ id s, e₁.sessions.get? id = some s → P s := by
      intro e₁ hopen
      induction hopen with
      | refl => exact ⟨h.inOrder.registry, fun _ _ => ih⟩
      | tail _ ho ih' => exact ⟨ho.registry ih'.1, hopening ih'.1 ho ih'.2⟩
    obtain ⟨e₁, hopen, rfl | ⟨s₁, e₂, s₂, hs₁, -, hworks, hre⟩⟩ := (hstep.shape h.inOrder).works
    · exact (hopened hopen).2 id s hs
    · rw [hre.sessions, hworks.get?_eq hs₁] at hs
      split at hs
      · exact Option.some.inj hs ▸
          hworks.preserves (P := fun z => P z.2) hact ((hopened hopen).2 _ _ hs₁)
      · exact (hopened hopen).2 id s hs

/-! ## Deeds -/

/-- What a session that goes on in a step does, from the disk `d` on: it comes out as another form
    of itself, and leaves a disk. -/
inductive Deed (newest : Prop) (d : Disk) (s s' : Session) : Disk → List Spawn → Prop
  /-- It was overtaken before its turn came. -/
  | overtaken : ¬newest → s.phase = .idle → s' = s.to .superseded → Deed newest d s s' d []
  /-- Its turn has come, but it cannot be saved. -/
  | unsaved : newest → s.phase = .idle → (∀ d', ¬s.Saves d d') → s'.Unsaved →
      Deed newest d s s' d []
  /-- Its turn has come, but its text is none. -/
  | spoiled {d' : Disk} : newest → s.phase = .idle → s.Spoils d d' → s' = s →
      Deed newest d s s' d' []
  /-- It sets out. -/
  | setsOut {d₁ d' : Disk} {asked : List Spawn} : newest → s.phase = .idle → s.Saves d d₁ →
      Relation.ReflTransGen (Litter s') d₁ d' →
      asked = [] ∨ (∃ command, asked = [⟨s.id, command, s.source.parent⟩]) →
      s'.SetOut → ¬s'.Unsaved →
      (s'.process.isSome → s'.phase.isFinal → d'.HasFile s'.listing →
        d.denials.Keeps s'.listing) → Deed newest d s s' d' asked
  /-- It goes on after it set out. -/
  | goesOn {d' : Disk} : s.UnderWay →
      Relation.ReflTransGen (Litter s') d d' → s'.SetOut → ¬s'.Unsaved →
      (s'.process.isSome → s'.phase.isFinal → d'.HasFile s'.listing →
        d.denials.Keeps s'.listing) → Deed newest d s s' d' []

/-- A session that has not left the phase that it was made in has a text that is none. -/
theorem Deed.eq_of_idle {newest : Prop} {d d' : Disk} {s s' : Session} {asked : List Spawn}
    (h : Deed newest d s s' d' asked) (hidle : s'.phase = .idle) :
    newest ∧ s' = s ∧ s.Spoils d d' ∧ asked = [] := by
  cases h with
  | overtaken _ _ hs' => simp [hs'] at hidle
  | unsaved _ _ _ hs' => simp [hs'.1] at hidle
  | spoiled hc _ hspoil hs' => exact ⟨hc, hs', hspoil, rfl⟩
  | setsOut _ _ _ _ _ hs' => exact absurd hidle hs'.1
  | goesOn _ _ hs' => exact absurd hidle hs'.1

/-- A session that does something had not set out, or stays one that did. -/
theorem Deed.later {newest : Prop} {d d' : Disk} {s s' : Session} {asked : List Spawn}
    (h : Deed newest d s s' d' asked) (hsame : s.Same s')
    (hprocess : ∀ {p}, s.process = some p → ∃ q, s'.process = some q ∧ q.behaviour = p.behaviour) :
    s.Later s' := by
  refine ⟨hsame.id, hsame.source, hsame.listing, hsame.text, hsame.receiver, hprocess,
    fun hs => ?_, fun hs => ?_⟩
  · cases h with
    | overtaken _ hidle | unsaved _ hidle | spoiled _ hidle | setsOut _ hidle =>
      exact absurd hidle hs.1
    | goesOn _ _ hs' => exact hs'
  · cases h with
    | overtaken _ hidle | unsaved _ hidle | spoiled _ hidle | setsOut _ hidle =>
      exact absurd hidle hs.1
    | goesOn hphase _ _ hsaved =>
      refine iff_of_false hsaved fun hunsaved => ?_
      rcases hphase with hphase | ⟨hphase, -⟩ <;> simp [hunsaved.1] at hphase

/-- A session that ends after its compiler has exited leaves no listing, unless the system keeps
    it. -/
theorem Deed.kept {newest : Prop} {d d' : Disk} {s s' : Session} {asked : List Spawn}
    {settings : Settings} (h : Deed newest d s s' d' asked) (hs : s.Proper settings)
    (hp : s'.process.isSome) (hfinal : s'.phase.isFinal) (hfile : d'.HasFile s'.listing) :
    d.denials.Keeps s'.listing := by
  cases h with
  | overtaken _ hidle hs' =>
    rw [hs'] at hp
    exact absurd (hs.waiting hidle).1 (Option.isSome_iff_ne_none.1 hp)
  | unsaved _ _ _ hs' => simp [hs'.2.1] at hp
  | spoiled _ hidle _ hs' =>
    rw [hs'] at hp
    exact absurd (hs.waiting hidle).1 (Option.isSome_iff_ne_none.1 hp)
  | setsOut _ _ _ _ _ _ _ hkept | goesOn _ _ _ _ hkept => exact hkept hp hfinal hfile

/-- Without a process, a session brings no file about but its source. -/
theorem Deed.hasFile {newest : Prop} {d d' : Disk} {s s' : Session} {asked : List Spawn}
    (h : Deed newest d s s' d' asked) (hnone : s'.process = none) {p : Path} (hp : p.Plain)
    (hs : s.source.Plain) (hne : s.source ≠ p) (hfile : d'.HasFile p) : d.HasFile p := by
  cases h with
  | overtaken | unsaved => exact hfile
  | spoiled _ _ hspoil =>
    obtain ⟨_, _, -, -, hwrite⟩ := hspoil
    exact Disk.hasFile_of_writeText hp hs hne hwrite hfile
  | setsOut _ _ hsave hlitter =>
    exact hsave.hasFile hp hs hne (hasFile_of_litter hnone hlitter hfile)
  | goesOn _ hlitter => exact hasFile_of_litter hnone hlitter hfile

/-- What a session does after it was saved keeps all directories. -/
theorem directories_of_litter {settings : Settings} {s : Session} {d d' : Disk}
    (hs : s.Proper settings) (h : Relation.ReflTransGen (Litter s) d d') : Disk.Spares [] d d' := by
  induction h with
  | refl => exact .refl _ _
  | tail _ hlitter ih =>
    refine ih.trans ?_
    rcases hlitter with @⟨_, path, _, -, -, hpath⟩ | hd
    · have hplain := Path.plain_withSuffix hs.plain (by simp) hpath
      obtain ⟨-, -, rfl⟩ := Path.withSuffix_eq hpath
      refine Disk.spares_plant ?_ _
      rw [hplain.fullNames]
      simp
    · obtain ⟨-, -, hlisting⟩ := Path.withSuffix_eq (Settings.withSuffix_of_listingPath hs.listing)
      exact Disk.spares_removeFile hs.plain_listing (by rw [hlisting]; simp) hd

/-- What a session does in a step moves no directory. -/
theorem Deed.directories {newest : Prop} {d d' : Disk} {s s' : Session} {asked : List Spawn}
    {settings : Settings} (h : Deed newest d s s' d' asked) (hs : s'.Proper settings)
    (hsource : s'.source = s.source) : Disk.Spares [] d d' := by
  cases h with
  | overtaken | unsaved => exact .refl _ _
  | spoiled _ _ hspoil =>
    obtain ⟨_, _, -, -, hwrite⟩ := hspoil
    exact directories_of_writeText (hsource ▸ hs.plain) hwrite
  | setsOut _ _ hsave hlitter =>
    exact (hsave.directories (hsource ▸ hs.plain)).trans (directories_of_litter hs hlitter)
  | goesOn _ hlitter => exact directories_of_litter hs hlitter

/-- After the opening, the session goes on as another form of itself, and no other session does. Its
    check has ended if that form is where it was made, and no other check ends. -/
structure Onward (e e₁ e' : Engine) (s s' : Session) : Prop extends Goes e₁ s where
  opened : Opened e e₁
  endsNone : EndsNone e e₁
  later : s.Later s'
  sessions : ∀ id, e'.sessions.get? id = if id = s.id then some s' else e₁.sessions.get? id
  surroundings : e'.surroundings = e.surroundings
  ended : s'.phase = .idle → ∃ fault, e'.EndedWith s.id (.failed (.text fault))
  endsOnly : EndsOnly e₁ e' s.id

/-- What a step does: after its opening, one session may go on. -/
inductive Footprint (e e' : Engine) : Prop
  /-- No session goes on. -/
  | opened : Opened e e' → EndsNone e e' → Footprint e e'
  /-- One session goes on. -/
  | deed {e₁ : Engine} {s s' : Session} {d' : Disk} {asked : List Spawn} : Onward e e₁ e' s s' →
      Deed (e₁.isCurrent s) e.disk s s' d' asked → e'.disk = d' → e'.spawns = e.spawns ++ asked →
      Footprint e e'

/-- Some session goes on as its turn makes it. -/
theorem Footprint.of_works {e₁ e₂ : Engine} {s s' : Session} {asked : List Spawn}
    (hopen : Opened e e₁) (hends : EndsNone e e₁) (hgoes : Goes e₁ s)
    (hworks : Works (e₁, s) (e₂, s')) (hre : Rearranged e₂ e')
    (hspawns : e₂.spawns = e₁.spawns ++ asked)
    (hdeed : Deed (e₁.isCurrent s) e₁.disk s s' e₂.disk asked)
    (hended : s'.phase = .idle → ∃ fault, e'.EndedWith s.id (.failed (.text fault)))
    (honly : EndsOnly e₁ e' s.id) : Footprint e e' := by
  refine .deed ⟨hgoes, hopen, hends, hdeed.later hworks.same hworks.process, fun id => ?_, ?_,
    hended, honly⟩ (hopen.disk ▸ hdeed) hre.disk ?_
  · rw [hre.sessions]
    exact hworks.get?_eq hgoes.stored id
  · rw [Engine.surroundings, hre.settings, hre.disk]
    exact hworks.kept.surroundings.trans hopen.surroundings
  · rw [hre.spawns, hspawns, hopen.spawns]

/-- What a session does in a turn of its task. -/
theorem Turn.deed {task : Task} {s : Session} {r : Engine × Progress} (h : Turn e task s r)
    (hplain : s.listing.Plain) : ∃ s' asked, Works (e, s) (r.1, s') ∧
      Left e.surroundings task.behaviour r.2 s' ∧ r.1.spawns = e.spawns ++ asked ∧
      Deed (e.isCurrent s) e.disk s s' r.1.disk asked := by
  cases h with
  | proceed hphase hprocess =>
    -- Whether its text can be saved, spoils the source, or cannot be written at all, decides how a
    -- session that is current goes on.
    by_cases hc : e.isCurrent s
    · by_cases hsave : ∃ d, s.Saves e.disk d
      · obtain ⟨d, hd⟩ := hsave
        obtain ⟨asked, s', hworks, hf, hdenials, hasked⟩ :=
          proceed_saved task hphase hprocess hplain hc hd
        have haround : surroundings { e with disk := d } = e.surroundings :=
          congrArg (Surroundings.mk e.settings) hdenials
        exact ⟨s', asked, hworks, haround ▸ hf.left, hf.spawns,
          .setsOut hc hphase hd hf.disk hasked hf.setOut hf.saved (hdenials ▸ hf.kept)⟩
      · by_cases hspoil : ∃ d, s.Spoils e.disk d
        · obtain ⟨d, hd⟩ := hspoil
          obtain ⟨hworks, hleft, hdisk, hspawns⟩ := proceed_spoiled task hphase hprocess hc hd
          exact ⟨s, [], hworks, hleft, hspawns.trans (List.append_nil _).symm,
            .spoiled hc hphase (hdisk ▸ hd) rfl⟩
        · obtain ⟨s', hworks, hleft, hstill, hs'⟩ :=
            proceed_unsaved task hphase hprocess hc fun d =>
              ⟨not_exists.1 hsave d, not_exists.1 hspoil d⟩
          refine ⟨s', [], hworks, hleft, hstill.spawns.trans (List.append_nil _).symm, ?_⟩
          rw [hstill.disk]
          exact .unsaved hc hphase (not_exists.1 hsave) hs'
    · have hnext : .superseded ∈ s.phase.successors := by rw [hphase]; decide
      rw [proceed_overtaken hphase (Bool.eq_false_iff.2 hc)]
      have hrests : (s.to .superseded).Rests := by simp [Session.Rests, Session.to, hprocess]
      exact ⟨_, [], (supersede_act hnext (Bool.eq_false_iff.2 hc)).works, .finished rfl hrests,
        (List.append_nil _).symm, .overtaken hc hphase rfl⟩
  | launch hphase hprocess =>
    obtain ⟨s', hf⟩ := launch_follows (e := e) task hphase hprocess hplain
    exact ⟨s', [], hf.works, hf.left, hf.spawns,
      .goesOn (.inl hphase) hf.disk hf.setOut hf.saved hf.kept⟩
  | @collect p status hphase hprocess hstatus =>
    have hrests : s.Rests := fun q hq => by
      obtain rfl := Option.some.inj (hprocess.symm.trans hq)
      simp [CompilerProcess.isRunning, hstatus]
    obtain ⟨s', hf⟩ := collect_follows (e := e) (b := task.behaviour) hphase hrests hprocess hplain
      p status
    exact ⟨s', [], hf.works, hf.left, hf.spawns,
      .goesOn (.inr ⟨hphase, by simp [hprocess]⟩) hf.disk hf.setOut hf.saved hf.kept⟩

/-- What a session does when its compiler exits by itself. -/
theorem exitProcess_deed {s : Session} {p : CompilerProcess} (hphase : s.phase = .running)
    (hp : s.process = some p) (status : Int) (newest : Prop) :
    Deed newest e.disk s (e.exitProcess s p status).2 (e.exitProcess s p status).1.disk [] := by
  have hphase' : (e.exitProcess s p status).2.phase = .running := hphase
  refine .goesOn (.inr ⟨hphase, by simp [hp]⟩) (exitProcess_litter status)
    (Session.setOut_of_phase (by simp [hphase']) (by simp [hphase']))
    (fun hunsaved => by simp [hunsaved.1] at hphase') fun _ hfinal => ?_
  simp [hphase', Phase.isFinal] at hfinal

/-- A step of some shape has a footprint. -/
theorem Shape.footprint (hr : Registry e) (h : Shape e e') : Footprint e e' := by
  cases h with
  | opening hopen => exact .opened (opened_of_openings hr hopen).1 (endsNone_of_openings hopen)
  | @exit _ s p status hgoes hphase hp hrun hre honly =>
    have hnone : Opened e e := .of_sessions ⟨rfl, rfl⟩ rfl (Int.le_refl _) rfl
    have hphase' : (e.exitProcess s p status).2.phase = .running := hphase
    exact .of_works hnone (.of_eq rfl) hgoes (exitProcess_works hp hrun status) hre
      ((exitProcess_spawns e s p status).trans (List.append_nil _).symm)
      (exitProcess_deed hphase hp status _) (fun hidle => by simp [hidle] at hphase') honly
  | turn hopen hgoes hturn hre hended honly =>
    obtain ⟨s', asked, hworks, hleft, hspawns, hdeed⟩ :=
      hturn.deed (hgoes.registry.plain hgoes.stored)
    refine .of_works (opened_of_openings hr hopen).1 (endsNone_of_openings hopen) hgoes hworks hre
      hspawns hdeed (fun hidle => ?_) honly
    obtain ⟨_, fault, -, -, hend⟩ := hleft.of_idle hidle
    exact ⟨fault, hended _ hend⟩

/-- Every step is an opening, after which one session at most goes on. -/
theorem Step.footprint (h : InOrder none e) (hstep : Step e e') : Footprint e e' :=
  (hstep.shape h).footprint h.registry

/-- A session that set out was on record before the opening. -/
theorem Opened.of_setOut (h : Opened e e') {id : Int} {s : Session}
    (hs : e'.sessions.get? id = some s) (hset : s.SetOut) :
    ∃ r, e.sessions.get? id = some r ∧ r.Alike s := by
  rcases h.came hs with hcame | ⟨-, hfresh⟩
  · exact hcame
  · exact absurd hset hfresh.not_setOut

/-- A session that set out and does not go on is as it was. -/
theorem alike_of_came {settings : Settings} {id : Int} {s s' : Session}
    (hs : e.sessions.get? id = some s) (hset : s.SetOut) (hl : s.Later s')
    (hcame : (∃ r, e.sessions.get? id = some r ∧ r.Alike s') ∨ s'.Fresh settings) : s.Alike s' := by
  rcases hcame with ⟨r, hr, ha⟩ | hfresh
  · obtain rfl := Option.some.inj (hs.symm.trans hr)
    exact ha
  · exact absurd (hl.setOut hset) hfresh.not_setOut

namespace Onward

variable {e₁ : Engine} {s s' : Session}

/-- The session that goes on is on record as it comes out of the step. -/
theorem stored' (h : Onward e e₁ e' s s') : e'.sessions.get? s'.id = some s' := by
  rw [h.sessions, if_pos h.later.id]

/-- The other sessions come in, or are told to stop. -/
theorem others (h : Onward e e₁ e' s s') {id : Int} {r' : Session}
    (hr : e'.sessions.get? id = some r') (hne : id ≠ s'.id) :
    (∃ r, e.sessions.get? id = some r ∧ r.Alike r') ∨ r'.Fresh e.settings := by
  rw [h.sessions, if_neg (h.later.id ▸ hne)] at hr
  exact (h.opened.came hr).imp_right And.right

/-- The session as it was before the step, if it was on record. -/
theorem before (h : Onward e e₁ e' s s') {r : Session} (hr : e.sessions.get? s'.id = some r) :
    r.Alike s := by
  obtain ⟨r₁, hr₁, ha⟩ := h.opened.kept hr
  obtain rfl := Option.some.inj (h.stored.symm.trans (h.later.id ▸ hr₁))
  exact ha

/-- A session that goes on as the newest one of its source is so after the step. -/
theorem newest (h : Onward e e₁ e' s s') (hc : e₁.isCurrent s) : e'.IsNewest s' := by
  intro id r hr hsource
  rw [h.sessions] at hr
  split at hr
  · exact Int.le_of_eq (‹id = s.id›.trans h.later.id.symm)
  · exact h.later.id ▸ h.registry.isNewest hc id r hr (hsource.trans h.later.source)

theorem alone' (h : Onward e e₁ e' s s') : e'.Alone s' := by
  intro id r hr hsource hne
  rw [h.sessions, if_neg (h.later.id ▸ hne)] at hr
  rw [h.surroundings, ← h.opened.surroundings]
  exact h.alone hr (hsource.trans h.later.source) (h.later.id ▸ hne)

theorem saves (h : Onward e e₁ e' s s') (d d' : Disk) : s'.Saves d d' ↔ s.Saves d d' := by
  rw [Session.Saves, Session.Saves, h.later.text, h.later.source]

/-- The check of the session had not ended before the step. -/
theorem going_before (h : Onward e e₁ e' s s') {t : TaskId} {task : Task}
    (ht : e.tasks.get? t = some task) (hid : task.session = s.id) : task.stage.isEnded = false := by
  by_contra hended
  have hended : task.stage.isEnded := by simpa using hended
  simp [h.going (h.endsNone.kept t task ht hended) hid] at hended

end Onward

/-! ## Steps -/

/-- Steps lead from one state to another. -/
def Steps : Engine → Engine → Prop := Relation.ReflTransGen Step

theorem Reachable.steps {f : Engine} (h : Reachable e) (hsteps : Steps e f) : Reachable f := by
  induction hsteps with
  | refl => exact h
  | tail _ hstep ih => exact ih.step hstep

theorem Steps.drain {f : Engine} (h : Steps e f) : Steps e f.drain :=
  drain_preserves (fun _ _ => .tail) h

/-- A check is begun, and taken as far as it goes, in steps. -/
theorem Steps.check {f : Engine} (h : Steps e f) (path : Text) (text : Option JsonString)
    (receiver : Receiver) (behaviour : Behaviour) :
    Steps e (f.check path text receiver behaviour).1 := by
  rw [Engine.check]
  split
  · exact h.tail (.refuse ‹_›)
  · exact Steps.drain (h.tail (.check behaviour ‹_›))

/-- A step in which one session goes on keeps every session in a later form of itself. -/
theorem Onward.kept {e₁ : Engine} {r r' s : Session} (h : Onward e e₁ e' r r') {id : Int}
    (hs : e.sessions.get? id = some s) : ∃ s', e'.sessions.get? id = some s' ∧ s.Later s' := by
  obtain ⟨s₁, hs₁, ha⟩ := h.opened.kept hs
  rw [h.sessions]
  split
  · rename_i hid
    obtain rfl := Option.some.inj (h.stored.symm.trans (hid ▸ hs₁))
    exact ⟨r', rfl, ha.later.trans h.later⟩
  · exact ⟨s₁, hs₁, ha.later⟩

/-- If the session has no process in the end, sessions that were running before still are. -/
theorem Onward.running {e₁ : Engine} {newest : Prop} {d d' : Disk} {asked : List Spawn}
    {s s' u : Session} (h : Onward e e₁ e' s s') (hdeed : Deed newest d s s' d' asked)
    (hnone : s'.process = none) {id : Int} (hu : e.sessions.get? id = some u)
    (hrun : u.phase = .running) :
    ∃ u', e'.sessions.get? id = some u' ∧ u'.phase = .running := by
  have hne : id ≠ s'.id := by
    rintro rfl
    have hrun : s.phase = .running := (h.before hu).phase.trans hrun
    cases hdeed with
    | overtaken _ hidle | unsaved _ hidle | spoiled _ hidle | setsOut _ hidle =>
      simp [hrun] at hidle
    | goesOn hunder =>
      rcases hunder with hspawn | ⟨-, hsome⟩
      · simp [hrun] at hspawn
      · obtain ⟨p, hp⟩ := Option.isSome_iff_exists.1 hsome
        obtain ⟨q, hq, -⟩ := h.later.process hp
        simp [hnone] at hq
  obtain ⟨u', hu', hl⟩ := h.kept hu
  have hset : u.SetOut := Session.setOut_of_phase (by simp [hrun]) (by simp [hrun])
  exact ⟨u', hu', (alike_of_came hu hset hl (h.others hu' hne)).phase.trans hrun⟩

/-- A step keeps every session, in a later form of itself. -/
theorem Footprint.later (h : Footprint e e') {id : Int} {s : Session}
    (hs : e.sessions.get? id = some s) : ∃ s', e'.sessions.get? id = some s' ∧ s.Later s' := by
  cases h with
  | opened hopen =>
    obtain ⟨s', hs', ha⟩ := hopen.kept hs
    exact ⟨s', hs', ha.later⟩
  | deed hon => exact hon.kept hs

/-- A session that is over is as it was, whatever happens. -/
theorem Footprint.alike_of_final (h : Footprint e e') {id : Int} {s : Session}
    (hs : e.sessions.get? id = some s) (hfinal : s.phase.isFinal) :
    ∃ s', e'.sessions.get? id = some s' ∧ s.Alike s' := by
  rcases h with ⟨hopen, -⟩ | @⟨e₁, r, r', d', asked, hon, hdeed, -, -⟩
  · exact hopen.kept hs
  obtain ⟨s₁, hs₁, ha⟩ := hon.opened.kept hs
  refine ⟨s₁, ?_, ha⟩
  rw [hon.sessions, if_neg, hs₁]
  -- One that goes on waits for its turn or for its compiler.
  rintro rfl
  obtain rfl := Option.some.inj (hon.stored.symm.trans hs₁)
  have hphase : r.phase = .idle ∨ r.UnderWay := by
    cases hdeed with
    | overtaken _ hidle | unsaved _ hidle | spoiled _ hidle | setsOut _ hidle => exact .inl hidle
    | goesOn hunder => exact .inr hunder
  rw [← ha.phase] at hfinal
  rcases hphase with hphase | hphase | ⟨hphase, -⟩ <;> simp [hphase, Phase.isFinal] at hfinal

/-- A session whose check has ended is as it was, whatever happens. -/
theorem Footprint.alike_of_ended (h : Footprint e e') {t : TaskId} {task : Task} {s : Session}
    (ht : e.Carries t task s) (hended : task.stage.isEnded) :
    ∃ s', e'.sessions.get? task.session = some s' ∧ s.Alike s' := by
  rcases h with ⟨hopen, -⟩ | @⟨e₁, r, r', d', asked, hon, hdeed, -, -⟩
  · exact hopen.kept ht.2
  · obtain ⟨s₁, hs₁, ha⟩ := hon.opened.kept ht.2
    refine ⟨s₁, ?_, ha⟩
    rw [hon.sessions, if_neg, hs₁]
    intro hid
    simp [hon.going_before ht.1 hid] at hended

/-- Sessions stay on record, and what was true of them for good stays true. -/
theorem Steps.later {f : Engine} (h : Reachable e) (hsteps : Steps e f) {id : Int} {s : Session}
    (hs : e.sessions.get? id = some s) : ∃ s', f.sessions.get? id = some s' ∧ s.Later s' := by
  induction hsteps with
  | refl => exact ⟨s, hs, (Session.Alike.refl s).later⟩
  | tail hsteps hstep ih =>
    obtain ⟨s₁, hs₁, hl₁⟩ := ih
    obtain ⟨s', hs', hl⟩ := (hstep.footprint (h.steps hsteps).inOrder).later hs₁
    exact ⟨s', hs', hl₁.trans hl⟩

/-! ## What holds of every session -/

/-- What is settled for the engine stays so in a step. -/
theorem Footprint.surroundings (h : Footprint e e') : e'.surroundings = e.surroundings := by
  cases h with
  | opened hopen => exact hopen.surroundings
  | deed hon => exact hon.surroundings

theorem Footprint.settings (h : Footprint e e') : e'.settings = e.settings :=
  congrArg Surroundings.settings h.surroundings

theorem Footprint.denials (h : Footprint e e') : e'.disk.denials = e.disk.denials :=
  congrArg Surroundings.denials h.surroundings

/-- The settings stay as they are, and so does what is denied. -/
theorem Steps.surroundings {f : Engine} (h : Reachable e) (hsteps : Steps e f) :
    f.surroundings = e.surroundings := by
  induction hsteps with
  | refl => rfl
  | tail hsteps hstep ih => exact (hstep.footprint (h.steps hsteps).inOrder).surroundings.trans ih

/-- The settings stay as they are. -/
theorem Steps.settings {f : Engine} (h : Reachable e) (hsteps : Steps e f) :
    f.settings = e.settings :=
  congrArg Surroundings.settings (Steps.surroundings h hsteps)

/-- What the system denies stays as it is. -/
theorem Steps.denials {f : Engine} (h : Reachable e) (hsteps : Steps e f) :
    f.disk.denials = e.disk.denials :=
  congrArg Surroundings.denials (Steps.surroundings h hsteps)

/-- The settings are those that the engine was made with. -/
theorem Steps.settings_of_create {disk : Disk} {searchPath : List Text} {settings : Settings}
    {e₀ : Engine} (hcreate : create disk searchPath settings = .ok e₀) (hsteps : Steps e₀ e) :
    e.settings = settings := by
  rw [Steps.settings (.create hcreate) hsteps]
  obtain ⟨compiler, log, rfl⟩ := create_eq hcreate
  rfl

/-- What is denied is what was denied on the disk that the engine was made with. -/
theorem Steps.denials_of_create {disk : Disk} {searchPath : List Text} {settings : Settings}
    {e₀ : Engine} (hcreate : create disk searchPath settings = .ok e₀) (hsteps : Steps e₀ e) :
    e.disk.denials = disk.denials := by
  rw [Steps.denials (.create hcreate) hsteps]
  obtain ⟨compiler, log, rfl⟩ := create_eq hcreate
  rfl

theorem Opened.proper (h : Opened e e')
    (hproper : ∀ id s, e.sessions.get? id = some s → s.Proper e.settings) {id : Int} {s : Session}
    (hs : e'.sessions.get? id = some s) : s.Proper e.settings := by
  rcases h.came hs with ⟨r, hr, ha⟩ | ⟨-, hfresh⟩
  · exact (hproper id r hr).alike ha
  · exact hfresh.proper

/-- The paths of a session stay those that it was made with. -/
theorem Footprint.proper (h : Footprint e e')
    (hproper : ∀ id s, e.sessions.get? id = some s → s.Proper e.settings) {id : Int} {s : Session}
    (hs : e'.sessions.get? id = some s) : s.Proper e'.settings := by
  rw [h.settings]
  cases h with
  | opened hopen => exact hopen.proper hproper hs
  | @deed e₁ r r' _ _ hon hdeed =>
    rw [hon.sessions] at hs
    split at hs
    · obtain rfl := Option.some.inj hs
      have hp := hon.opened.proper hproper hon.stored
      refine ⟨hon.later.source ▸ hp.plain, by rw [hon.later.source, hon.later.listing, hp.listing],
        fun hidle => ?_⟩
      obtain ⟨-, rfl, -⟩ := hdeed.eq_of_idle hidle
      exact hp.waiting hidle
    · exact hon.opened.proper hproper hs

/-- In a reachable state, the paths of a session are those that it was made with. -/
theorem Reachable.proper (h : Reachable e) {id : Int} {s : Session}
    (hs : e.sessions.get? id = some s) : s.Proper e.settings := by
  induction h generalizing id s with
  | create hcreate =>
    obtain ⟨compiler, log, rfl⟩ := create_eq hcreate
    simp at hs
  | step h hstep ih => exact (hstep.footprint h.inOrder).proper (fun _ _ => ih) hs

/-- A step moves no directory. -/
theorem Footprint.directories (h : Footprint e e') (he' : Reachable e') :
    Disk.Spares [] e.disk e'.disk := by
  cases h with
  | opened hopen => exact hopen.disk ▸ .refl _ _
  | deed hon hdeed hdisk =>
    exact hdisk ▸ hdeed.directories (he'.proper hon.stored') hon.later.source

/-- Directories stay where they are. -/
theorem Steps.directories {f : Engine} (h : Reachable e) (hsteps : Steps e f) :
    Disk.Spares [] e.disk f.disk := by
  induction hsteps with
  | refl => exact .refl _ _
  | tail hsteps hstep ih =>
    have he := h.steps hsteps
    exact ih.trans ((hstep.footprint he.inOrder).directories (he.step hstep))

/-- Compilers are asked for by sessions that set out. -/
theorem Reachable.asked_setOut (h : Reachable e) {asked : Spawn} (ha : asked ∈ e.spawns) :
    ∃ s, e.sessions.get? asked.session = some s ∧ s.SetOut := by
  induction h with
  | create hcreate =>
    obtain ⟨compiler, log, rfl⟩ := create_eq hcreate
    simp at ha
  | @step e e' h hstep ih =>
    have hf := hstep.footprint h.inOrder
    -- One that was asked for before was asked for by a session that is still on record.
    have hold : asked ∈ e.spawns → ∃ s, e'.sessions.get? asked.session = some s ∧ s.SetOut := by
      intro ha
      obtain ⟨s, hs, hset⟩ := ih ha
      obtain ⟨s', hs', hl⟩ := hf.later hs
      exact ⟨s', hs', hl.setOut hset⟩
    cases hf with
    | opened hopen => exact hold (hopen.spawns ▸ ha)
    | @deed e₁ r r' _ new hon hdeed _ hspawns =>
      rw [hspawns, List.mem_append] at ha
      rcases ha with ha | ha
      · exact hold ha
      · cases hdeed with
        | overtaken | unsaved | spoiled | goesOn => exact absurd ha List.not_mem_nil
        | setsOut _ _ _ _ hasked hset =>
          rcases hasked with rfl | ⟨command, rfl⟩
          · exact absurd ha List.not_mem_nil
          · obtain rfl := List.mem_singleton.1 ha
            exact ⟨r', (hon.sessions r.id).trans (if_pos rfl), hset⟩

end Engine

end LiveCheck
