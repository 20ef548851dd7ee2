import LiveCheck.Proofs.Check.Run
import LiveCheck.Proofs.Check.Act

/-!
# The register of sessions

Sessions are on record under their numbers, and the newest session of a source is the one with the
largest number that was handed out for it (`Registry`). The register changes when a check begins;
whatever is done to a session later on leaves it as it is, since neither the number nor the source
of a session ever changes (`Registry.replace`).
-/

namespace LiveCheck

/-- A session that has just been made. -/
structure Session.New (s : Session) : Prop where
  phase : s.phase = .idle
  process : s.process = none
  delivered : s.delivered = false
  reports : s.reports = []
  cancelled : s.cancelled = false
  plain : s.listing.Plain

namespace Engine

/-- The session holds the largest number that was handed out for its source. -/
def IsNewest (e : Engine) (s : Session) : Prop :=
  ∀ id s', e.sessions.get? id = some s' → s'.source = s.source → id ≤ s.id

/-- The register of sessions is in order. -/
structure Registry (e : Engine) : Prop where
  keyed : ∀ {id s}, e.sessions.get? id = some s → s.id = id
  below : ∀ {id s}, e.sessions.get? id = some s → id < e.nextId
  plain : ∀ {id s}, e.sessions.get? id = some s → s.listing.Plain
  newest : ∀ {id s}, e.sessions.get? id = some s → ∃ n, e.latest.get? s.source = some n ∧ id ≤ n
  handed : ∀ {source n}, e.latest.get? source = some n →
    ∃ s, e.sessions.get? n = some s ∧ s.source = source

theorem Registry.stored {e : Engine} (h : Registry e) {id : Int} {s : Session}
    (hs : e.sessions.get? id = some s) : e.sessions.get? s.id = some s := (h.keyed hs).symm ▸ hs

/-- The register knows the newest session of a source. -/
theorem Registry.isNewest {e : Engine} (h : Registry e) {s : Session} (hc : e.isCurrent s) :
    e.IsNewest s := by
  intro id s' hs' hsource
  obtain ⟨n, hn, hle⟩ := h.newest hs'
  have hc : e.latest.get? s.source = some s.id := by simpa [isCurrent] using hc
  rw [hsource, hc] at hn
  exact Option.some.inj hn ▸ hle

/-- A session that is not the newest one of its source has a smaller number than that. -/
theorem Registry.lt_newest {e : Engine} (h : Registry e) {id : Int} {s : Session}
    (hs : e.sessions.get? id = some s) (hc : e.isCurrent s = false) :
    ∃ n s', e.latest.get? s.source = some n ∧ id < n ∧ e.sessions.get? n = some s' ∧
      s'.source = s.source := by
  obtain ⟨n, hn, hle⟩ := h.newest hs
  obtain ⟨s', hs', hsource⟩ := h.handed hn
  have hne : n ≠ id := by
    rintro rfl
    simp [isCurrent, hn, h.keyed hs] at hc
  exact ⟨n, s', hn, by omega, hs', hsource⟩

theorem Registry.congr {e e' : Engine} (h : Registry e) (hs : e'.sessions = e.sessions)
    (hn : e'.nextId = e.nextId) (hl : e'.latest = e.latest) : Registry e' := by
  constructor
  · exact hs ▸ h.keyed
  · exact hs ▸ hn ▸ h.below
  · exact hs ▸ h.plain
  · exact hs ▸ hl ▸ h.newest
  · exact hs ▸ hl ▸ h.handed

/-- The register stays in order when a session takes the place of the one with its number. -/
theorem Registry.replace {e e' : Engine} (h : Registry e) {s s' : Session}
    (hstored : e.sessions.get? s.id = some s) (hsource : s'.source = s.source)
    (hlisting : s'.listing = s.listing) (hid : s'.id = s.id)
    (hs : ∀ id, e'.sessions.get? id = if id = s.id then some s' else e.sessions.get? id)
    (hn : e'.nextId = e.nextId) (hl : e'.latest = e.latest) : Registry e' := by
  -- Every session on record is one that was on record, up to what has no place in the register.
  have hold : ∀ {id r}, e'.sessions.get? id = some r → ∃ r', e.sessions.get? id = some r' ∧
      r.id = r'.id ∧ r.source = r'.source ∧ r.listing = r'.listing := by
    intro id r hr
    rw [hs] at hr
    split at hr
    · obtain rfl := Option.some.inj hr
      rename_i hid'
      exact ⟨s, hid' ▸ hstored, hid, hsource, hlisting⟩
    · exact ⟨r, hr, rfl, rfl, rfl⟩
  constructor
  · intro id r hr
    obtain ⟨r', hr', hid', -, -⟩ := hold hr
    exact hid'.trans (h.keyed hr')
  · intro id r hr
    obtain ⟨r', hr', -⟩ := hold hr
    exact hn ▸ h.below hr'
  · intro id r hr
    obtain ⟨r', hr', -, -, hl'⟩ := hold hr
    exact hl' ▸ h.plain hr'
  · intro id r hr
    obtain ⟨r', hr', -, hsource', -⟩ := hold hr
    rw [hl, hsource']
    exact h.newest hr'
  · intro source n hlatest
    obtain ⟨r, hr, hsource'⟩ := h.handed (hl ▸ hlatest)
    rw [hs]
    split
    · rename_i hid'
      subst hid'
      obtain rfl := Option.some.inj (hstored.symm.trans hr)
      exact ⟨s', rfl, hsource.trans hsource'⟩
    · exact ⟨r, hr, hsource'⟩

/-! ## Making a session -/

/-- What making a session does: it is on record, and the newest one of its source. -/
theorem newSession_ok {e e' : Engine} {path : Text} {text : Option JsonString}
    {receiver : Receiver} {s : Session} (h : e.newSession path text receiver = (e', .ok s)) :
    s.New ∧ s.id = e.nextId ∧ e' = { e with
      nextId := e.nextId + 1
      sessions := e.sessions.put s.id s
      latest := e.latest.put s.source s.id } := by
  -- A session is made if the source is found and enabled, and its listing has a name.
  rw [newSession] at h
  split at h
  · simp at h
  · rename_i source hsource
    split at h
    · simp at h
    · dsimp only at h
      split at h
      · simp at h
      · rename_i listing hlisting
        obtain ⟨rfl, hs⟩ := Prod.mk.inj h
        obtain rfl := Except.ok.inj hs
        refine ⟨⟨rfl, rfl, rfl, rfl, rfl, ?_⟩, rfl, rfl⟩
        exact Path.plain_withSuffix (Disk.plain_of_resolved hsource) e.settings.listingSuffix_ne_nil
          (Settings.withSuffix_of_listingPath hlisting)

/-- What a new session is about: the source that its path resolves to, and the text and the receiver
    that it was given. -/
theorem newSession_placed {e e' : Engine} {path : Text} {text : Option JsonString}
    {receiver : Receiver} {s : Session} (h : e.newSession path text receiver = (e', .ok s)) :
    e.disk.resolved path = .ok s.source ∧ e.settings.listingPath s.source = .ok s.listing ∧
      s.text = text ∧ s.receiver = receiver := by
  rw [newSession] at h
  split at h
  · simp at h
  rename_i hsource
  split at h
  · simp at h
  dsimp only at h
  split at h
  · simp at h
  · rename_i hlisting
    obtain rfl := Except.ok.inj (Prod.mk.inj h).2
    exact ⟨hsource, hlisting, rfl, rfl⟩

/-- A refusal uses up a number at most. -/
theorem newSession_error {e e' : Engine} {path : Text} {text : Option JsonString}
    {receiver : Receiver} {refusal : Refusal}
    (h : e.newSession path text receiver = (e', .error refusal)) :
    e' = e ∨ e' = { e with nextId := e.nextId + 1 } := by
  rw [newSession] at h
  split at h
  · exact .inl (Prod.mk.inj h).1.symm
  split at h
  · exact .inl (Prod.mk.inj h).1.symm
  dsimp only at h
  split at h
  · exact .inr (Prod.mk.inj h).1.symm
  · simp at h

/-- The register is kept when a session is made. -/
theorem Registry.newSession {e e' : Engine} (h : Registry e) {path : Text}
    {text : Option JsonString} {receiver : Receiver} {s : Session}
    (hnew : e.newSession path text receiver = (e', .ok s)) : Registry e' := by
  obtain ⟨hs, hid, rfl⟩ := newSession_ok hnew
  -- The numbers on record are all below the one that is handed out.
  have hfresh : ∀ {id r}, e.sessions.get? id = some r → id ≠ s.id := fun hr => by
    have := h.below hr
    omega
  constructor
  · intro id r hr
    simp only [Table.get?_put] at hr
    split at hr
    · obtain rfl := Option.some.inj hr
      exact ‹id = _›.symm
    · exact h.keyed hr
  · intro id r hr
    simp only [Table.get?_put] at hr
    split at hr
    · simp only
      omega
    · have := h.below hr
      simp only
      omega
  · intro id r hr
    simp only [Table.get?_put] at hr
    split at hr
    · exact Option.some.inj hr ▸ hs.plain
    · exact h.plain hr
  · intro id r hr
    simp only [Table.get?_put] at hr ⊢
    split at hr
    · obtain rfl := Option.some.inj hr
      exact ⟨s.id, if_pos rfl, by omega⟩
    · -- A newer session of the same source has taken the place of the newest one.
      split
      · have := h.below hr
        exact ⟨s.id, rfl, by omega⟩
      · exact h.newest hr
  · intro source n hn
    simp only [Table.get?_put] at hn ⊢
    split at hn
    · obtain rfl := Option.some.inj hn
      exact ⟨s, if_pos rfl, ‹source = _›.symm⟩
    · obtain ⟨r, hr, hsource⟩ := h.handed hn
      exact ⟨r, by rw [if_neg (hfresh hr), hr], hsource⟩

/-- The register is kept when no session is made, though the number may be used up. -/
theorem Registry.refuse {e e' : Engine} (h : Registry e) {path : Text}
    {text : Option JsonString} {receiver : Receiver} {refusal : Refusal}
    (hnew : e.newSession path text receiver = (e', .error refusal)) : Registry e' := by
  rcases newSession_error hnew with rfl | rfl
  · exact h
  · refine ⟨h.keyed, fun hr => ?_, h.plain, h.newest, h.handed⟩
    have := h.below hr
    simp only
    omega

/-- A new engine has nothing on record, and nothing to do. -/
theorem create_eq {disk : Disk} {searchPath : List Text} {settings : Settings} {e : Engine}
    (h : create disk searchPath settings = .ok e) :
    ∃ compiler log, e = { disk, settings, compiler, log } := by
  rw [create] at h
  cases hc : Compiler.choose disk searchPath (settings.getOrDefault "compiler") with
  | error fault => rw [hc] at h; simp [bind, Except.bind] at h
  | ok compiler =>
    rw [hc] at h
    simp only [bind, Except.bind, pure, Except.pure, Except.ok.injEq] at h
    split at h
    · exact ⟨compiler, [], h.symm⟩
    · exact ⟨compiler, _, h.symm⟩

/-- The register of a new engine is empty. -/
theorem Registry.create {disk : Disk} {searchPath : List Text} {settings : Settings} {e : Engine}
    (h : Engine.create disk searchPath settings = .ok e) : Registry e := by
  obtain ⟨compiler, log, rfl⟩ := create_eq h
  constructor <;> intros <;> simp_all

/-! ## What else is done to a session -/

/-- The sessions on record after a turn: that of the task has changed, and no other. -/
theorem Works.get?_eq {x y : Engine × Session} (h : Works x y)
    (hx : x.1.sessions.get? x.2.id = some x.2) (id : Int) :
    y.1.sessions.get? id = if id = x.2.id then some y.2 else x.1.sessions.get? id := by
  split
  · rename_i hid
    rw [hid, ← h.same.id, h.get?_self hx]
  · exact h.get?_of_ne ‹_›

/-- The register is kept by whatever a task does in its turn. -/
theorem Registry.works {x y : Engine × Session} (h : Registry x.1)
    (hx : x.1.sessions.get? x.2.id = some x.2) (hw : Works x y) : Registry y.1 :=
  h.replace hx hw.same.source hw.same.listing hw.same.id (hw.get?_eq hx) hw.kept.nextId
    hw.kept.latest

end Engine

end LiveCheck
