import LiveCheck.Proofs.Check.Exclusion

/-!
# Who owns a listing

Two sessions that have one listing have one source, or sources that differ in their suffixes only
(`twins_of_listing`). The sessions of one source take turns, so of two running sessions with one
listing the sources are such twins (`Reachable.listing_owned`), unless one of the sessions has
failed.

In a step one session at most goes on. It is the only one to touch the disk, and no compiler of
another session of its source is running meanwhile (`Footprint.goesAlone`).
-/

namespace LiveCheck.Engine

variable {e e' : Engine} {r s : Session}

/-- Two sources with one listing are one, or differ in their suffixes only. -/
theorem twins_of_listing {settings : Settings} (hr : r.Proper settings) (hs : s.Proper settings)
    (hlisting : r.listing = s.listing) (hne : r.source ≠ s.source) : r.source.Twins s.source :=
  Path.twins_of_withSuffix (Settings.withSuffix_of_listingPath hr.listing)
    (hlisting ▸ Settings.withSuffix_of_listingPath hs.listing) hne

/-- In the step, the session goes on and no other: what happens to the disk is its doing. -/
structure GoesAlone (e e' : Engine) (s : Session) : Prop where
  stored : e'.sessions.get? s.id = some s
  others : ∀ {id r'}, e'.sessions.get? id = some r' → id ≠ s.id →
    (∃ r, e.sessions.get? id = some r ∧ r.Alike r') ∨ r'.Fresh e.settings
  disk : e'.disk = e.disk ∨ s.Spoils e.disk e'.disk ∨
    ∃ d, (d = e.disk ∨ s.Saves e.disk d) ∧ Relation.ReflTransGen (Litter s) d e'.disk

/-- While a session goes on, no compiler of another session of its source is running. -/
theorem Footprint.goesAlone (h : Footprint e e')
    (hproper : ∀ id s, e'.sessions.get? id = some s → s.Proper e'.settings) :
    Opened e e' ∨ ∃ s, GoesAlone e e' s ∧ ∀ id r, e'.sessions.get? id = some r → id ≠ s.id →
      ¬r.Rests → r.source ≠ s.source := by
  cases h with
  | opened hopen => exact .inl hopen
  | @deed e₁ t s d' asked hon hdeed hdisk =>
    refine .inr ⟨s, ⟨hon.stored', hon.others, ?_⟩, fun id r hr hne hrun hsource => hrun ?_⟩
    · cases hdeed with
      | overtaken | unsaved => exact .inl hdisk
      | spoiled _ _ hspoil => exact .inr (.inl (hdisk ▸ (hon.spoils _ _).2 hspoil))
      | @setsOut d₁ _ _ _ _ hsave hlitter =>
        exact .inr (.inr ⟨d₁, .inr ((hon.saves _ d₁).2 hsave), hdisk ▸ hlitter⟩)
      | goesOn _ hlitter => exact .inr (.inr ⟨e.disk, .inl rfl, hdisk ▸ hlitter⟩)
    · rcases hon.alone' hr hsource hne with hidle | ⟨_, outcome, hleft⟩
      · simp [Session.Rests, ((hproper id r hr).waiting hidle).1]
      · exact hleft.rests

/-- Two sessions that are both running or parsing have one listing only if their sources differ in
    their suffixes and in nothing else, or if the check of one has failed, as the listing cannot be
    looked at. In each step, one session at most goes on and touches the disk, and if the compiler
    of another session with the same listing is running, then their sources are such twins. -/
theorem Reachable.listing_owned (h : Reachable e) :
    (∀ t u a b r s, e.Carries t a r → e.Carries u b s → t ≠ u → r.listing = s.listing →
      r.phase = .running ∨ r.phase = .parsing → s.phase = .running ∨ s.phase = .parsing →
      r.source.Twins s.source ∨ ∃ fault, e.disk.denials.Hides r.listing fault ∧
        (a.stage = .ended (.failed (.disk fault)) ∧ r.Rests ∨
          b.stage = .ended (.failed (.disk fault)) ∧ s.Rests)) ∧
    (∀ e', Step e e' → Opened e e' ∨ ∃ s, GoesAlone e e' s ∧
      ∀ id r, e'.sessions.get? id = some r → id ≠ s.id → ¬r.Rests → r.listing = s.listing →
        r.source.Twins s.source) := by
  refine ⟨fun t u a b r s ht hu hne hlisting hr hs => ?_, fun e' hstep => ?_⟩
  · -- Of one source only one session is busy, unless its check failed at the look; different
    -- sources that share a listing are twins.
    by_cases hsource : r.source = s.source
    · right
      obtain ⟨outcome, ⟨hstage, hstranded⟩ | ⟨hstage, hstranded⟩⟩ :=
        h.inOrder.schedule.busy_alone ht hu hsource (.inr hr) (.inr hs) hne
      · obtain ⟨hrests, fault, hhides, rfl⟩ := hstranded.unseen_of_running hr
        exact ⟨fault, hhides, .inl ⟨hstage, hrests⟩⟩
      · obtain ⟨hrests, fault, hhides, rfl⟩ := hstranded.unseen_of_running hs
        exact ⟨fault, hlisting ▸ hhides, .inr ⟨hstage, hrests⟩⟩
    · exact .inl (twins_of_listing (h.proper ht.2) (h.proper hu.2) hlisting hsource)
  · have he' := h.step hstep
    refine ((hstep.footprint h.inOrder).goesAlone fun _ _ => he'.proper).imp_right ?_
    rintro ⟨s, halone, hrun⟩
    refine ⟨s, halone, fun id r hr hid hrests hlisting => ?_⟩
    exact twins_of_listing (he'.proper hr) (he'.proper halone.stored) hlisting
      (hrun id r hr hid hrests)

/-- A source of each spelling of the suffix is checked, and both compilers are running. -/
theorem listing_owned_of_twins : ∃ e : Engine, Reachable e ∧ ∃ a b r s,
    e.Carries 0 a r ∧ e.Carries 1 b s ∧ r.listing = s.listing ∧ r.source.Twins s.source := by
  have hrun : ∃ e₀ e₂, Engine.create {} [] ⟨.ofText "/".toList, ∅⟩ = .ok e₀ ∧
      ((e₀.check "/a.gms".toList none {} { holdsExit := true }).1.check "/a.GMS".toList none {}
        { holdsExit := true }).1 = e₂ ∧
      (e₂.tasks.get? 0).any fun a => (e₂.tasks.get? 1).any fun b =>
        (e₂.sessions.get? a.session).any fun r => (e₂.sessions.get? b.session).any fun s =>
          r.listing = s.listing ∧ r.phase = .running ∧ s.phase = .running ∧
            ¬r.listing.Overlong :=
    ⟨_, _, rfl, rfl, by decide +kernel⟩
  obtain ⟨e₀, e₂, hcreate, rfl, hcheck⟩ := hrun
  obtain ⟨a, ha, hcheck⟩ := (Option.any_eq_true _ _).1 hcheck
  obtain ⟨b, hb, hcheck⟩ := (Option.any_eq_true _ _).1 hcheck
  obtain ⟨r, hr, hcheck⟩ := (Option.any_eq_true _ _).1 hcheck
  obtain ⟨s, hs, hcheck⟩ := (Option.any_eq_true _ _).1 hcheck
  simp only [decide_eq_true_eq] at hcheck
  obtain ⟨hlisting, hrphase, hsphase, hshort⟩ := hcheck
  have h := ((Run.create hcreate).check "/a.gms".toList none {} { holdsExit := true }).check
    "/a.GMS".toList none {} { holdsExit := true }
  refine ⟨_, h.reachable, a, b, r, s, ⟨ha, hr⟩, ⟨hb, hs⟩, hlisting, ?_⟩
  rcases (Reachable.listing_owned h.reachable).1 0 1 a b r s ⟨ha, hr⟩ ⟨hb, hs⟩ (by decide) hlisting
    (.inl hrphase) (.inl hsphase) with htwins | ⟨fault, hhides, -⟩
  · exact htwins
  · rw [Steps.denials_of_create hcreate (Steps.check (Steps.check .refl _ _ _ _) _ _ _ _)] at hhides
    exact absurd hhides (Denials.none_not_hides hshort fault)

/-- Two compilers are running, and the listing of both sessions is the same. -/
theorem listing_not_owned_of_twins : ∃ e : Engine, Run e ∧ ∃ r s,
    e.sessions.get? 1 = some r ∧ e.sessions.get? 2 = some s ∧ r.phase = .running ∧
      s.phase = .running ∧ ¬r.Rests ∧ ¬s.Rests ∧ r.listing = s.listing := by
  have hrun : ∃ e₀ e₂, Engine.create {} [] ⟨.ofText "/".toList, ∅⟩ = .ok e₀ ∧
      ((e₀.check "/a.gms".toList none {} { holdsExit := true }).1.check "/a.GMS".toList none {}
        { holdsExit := true }).1 = e₂ ∧
      (e₂.sessions.get? 1).any fun r => (e₂.sessions.get? 2).any fun s =>
        r.phase = .running ∧ s.phase = .running ∧ r.process.any (·.isRunning) ∧
          s.process.any (·.isRunning) ∧ r.listing = s.listing :=
    ⟨_, _, rfl, rfl, by decide +kernel⟩
  obtain ⟨e₀, e₂, hcreate, rfl, hcheck⟩ := hrun
  obtain ⟨r, hr, hcheck⟩ := (Option.any_eq_true _ _).1 hcheck
  obtain ⟨s, hs, hcheck⟩ := (Option.any_eq_true _ _).1 hcheck
  simp only [decide_eq_true_eq] at hcheck
  obtain ⟨hrphase, hsphase, hrrun, hsrun, hlisting⟩ := hcheck
  exact ⟨_, ((Run.create hcreate).check _ none {} { holdsExit := true }).check _ none {}
    { holdsExit := true }, r, s, hr, hs, hrphase, hsphase,
    Session.not_rests.2 ((Option.any_eq_true _ _).1 hrrun),
    Session.not_rests.2 ((Option.any_eq_true _ _).1 hsrun), hlisting⟩

end LiveCheck.Engine
