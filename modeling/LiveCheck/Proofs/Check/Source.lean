import LiveCheck.Proofs.Check.Exclusion
import LiveCheck.Proofs.Check.Saved

/-!
# Sources that are only compiled

A source that its sessions bring no text for, and that their compilers leave alone, is only read
(`OnlyRead`). Such a source keeps its bytes whatever happens (`Footprint.source_spared`), unless the
settings give listings the suffix that the source has. Then the source is taken for the listing that
a compiler left, and is deleted when a compiler has exited (`Footprint.source_gone`).
-/

namespace LiveCheck.Engine

variable {e e' f : Engine} {source : Path} {s : Session} {d d' : Disk} {bytes : List UInt8}

/-- All checks are checks of the source without a text, and their compilers leave it alone. -/
structure OnlyRead (e : Engine) (source : Path) : Prop where
  sole : ∀ {id s}, e.sessions.get? id = some s → s.source = source
  text : ∀ {id s}, e.sessions.get? id = some s → s.text = none
  compiler : ∀ {id s p}, e.sessions.get? id = some s → s.process = some p → p.Spares s source

/-- A source that is only read was only read before. -/
theorem Footprint.onlyRead_before (h : Footprint e e') (hread : e'.OnlyRead source) :
    e.OnlyRead source where
  sole := fun hs => by
    obtain ⟨s', hs', hl⟩ := h.later hs
    exact hl.source.symm.trans (hread.sole hs')
  text := fun hs => by
    obtain ⟨s', hs', hl⟩ := h.later hs
    exact hl.text.symm.trans (hread.text hs')
  compiler := fun hs hp => by
    obtain ⟨s', hs', hl⟩ := h.later hs
    obtain ⟨q, hq, hb⟩ := hl.process hp
    have := hread.compiler hs' hq
    rwa [CompilerProcess.Spares, hb, hl.source] at this

/-- All that happens to the disk in a step is litter of one session, or nothing at all. -/
theorem Footprint.litter (h : Footprint e e') (hread : e'.OnlyRead source) :
    e'.disk = e.disk ∨ ∃ s, e'.sessions.get? s.id = some s ∧
      Relation.ReflTransGen (Litter s) e.disk e'.disk := by
  rcases h with hopen | @⟨e₁, t, s, d, asked, hon, hdeed, hdisk, -⟩
  · exact .inl hopen.disk
  have htext : t.text = none := hon.later.text.symm.trans (hread.text hon.stored')
  cases hdeed with
  | overtaken | unsaved => exact .inl hdisk
  | spoiled _ _ hspoil =>
    obtain ⟨text, _, hsome, -⟩ := hspoil
    exact absurd (htext.symm.trans hsome) (Option.some_ne_none text).symm
  | setsOut _ _ hsave hlitter =>
    rw [Session.Saves, htext] at hsave
    exact .inr ⟨s, hon.stored', hdisk ▸ hsave ▸ hlitter⟩
  | goesOn _ hlitter => exact .inr ⟨s, hon.stored', hdisk ▸ hlitter⟩

/-! ## Another suffix -/

/-- The session's listing is its source if its settings give listings the suffix of the source. -/
theorem Reachable.listing_eq_source_iff (h : Reachable e) {id : Int}
    (hs : e.sessions.get? id = some s) :
    s.listing = s.source ↔ e.settings.listingSuffix = s.source.suffix :=
  Path.withSuffix_eq_self_iff (Settings.withSuffix_of_listingPath (h.proper hs).listing)

/-- A source that is only read is spared in a step, if listings have another suffix. -/
theorem Footprint.source_spared (h : Footprint e e') (he' : Reachable e')
    (hread : e'.OnlyRead source) (hsuffix : e'.settings.listingSuffix ≠ source.suffix)
    (hbytes : e.disk.contents source = .ok bytes) : e'.disk.contents source = .ok bytes := by
  rcases h.litter hread with hd | ⟨s, hs, hlitter⟩
  · rwa [hd]
  · have hsource := hread.sole hs
    have hproper := he'.proper hs
    have hplain : source.Plain := hsource ▸ hproper.plain
    refine (spares_of_litter hplain hproper ?_ (fun _ => hread.compiler hs) hlitter).contents hplain
      hbytes
    rw [← hsource, ne_eq, he'.listing_eq_source_iff hs, hsource]
    exact hsuffix

/-! ## The suffix of the source -/

/-- What a session does after it was saved brings about no file at a path that its compiler spares,
    if the directories on the way are there. -/
theorem hasFile_of_spared {settings : Settings} (hsource : source.Plain) (hs : s.Proper settings)
    (hcompiler : ∀ p, s.process = some p → p.Spares s source) (hok : Disk.Acceptable source)
    {place : Place} (hwalk : d.opened.walk source = .ok place)
    (hlitter : Relation.ReflTransGen (Litter s) d d') (hfile : d'.HasFile source) :
    d.HasFile source := by
  obtain ⟨rfl, -⟩ := Disk.walk_of_plain hsource hwalk
  induction hlitter with
  | refl => exact hfile
  | @tail d₁ d₂ hbefore hlitter ih =>
    refine ih ?_
    rcases hlitter with @⟨p, path, node, hp, hnode, hpath⟩ | hd
    · have hwalk₁ := (directories_of_litter hs hbefore).opened_walk hwalk
      have hwalk₂ := (directories_of_litter hs (.tail hbefore (.leave hp hnode hpath))).opened_walk
        hwalk
      obtain ⟨bytes, executable, hnode₂⟩ := (Disk.hasFile_iff_of_walk hok hwalk₂).1 hfile
      refine (Disk.hasFile_iff_of_walk hok hwalk₁).2 ⟨bytes, executable, ?_⟩
      exact Disk.file_of_plant ((hcompiler p hp).names_ne hs.plain hsource hnode hpath) hnode₂
    · exact Disk.hasFile_of_removeFile hd hfile

/-- The way to the source is there, but the source is not, once a compiler has exited, unless the
    system keeps it. -/
structure Gone (e : Engine) (source : Path) : Prop where
  way : ∃ place, e.disk.opened.walk source = .ok place
  gone : ∀ {id s}, e.sessions.get? id = some s → s.process.isSome → s.phase.isFinal →
    e.disk.HasFile source → e.disk.denials.Keeps source

/-- A source that is its own listing, and is gone, stays gone. -/
theorem Footprint.source_gone (h : Footprint e e') (he : Reachable e) (he' : Reachable e')
    (hread : e'.OnlyRead source) (hsuffix : e'.settings.listingSuffix = source.suffix)
    (hok : Disk.Acceptable source) (hgone : e.Gone source) : e'.Gone source := by
  have hlitter := h.litter hread
  obtain ⟨place, hwalk⟩ := hgone.way
  have hback : e'.disk.HasFile source → e.disk.HasFile source := by
    intro hfile
    rcases hlitter with hd | ⟨s, hs, hlitter⟩
    · rwa [← hd]
    · have hproper := he'.proper hs
      exact hasFile_of_spared (hread.sole hs ▸ hproper.plain) hproper (fun _ => hread.compiler hs)
        hok hwalk hlitter hfile
  refine ⟨?_, fun {id s} hs hp hfinal hfile => ?_⟩
  · rcases hlitter with hd | ⟨s, hs, hlitter⟩
    · exact ⟨place, hd ▸ hwalk⟩
    · exact ⟨place, (directories_of_litter (he'.proper hs) hlitter).opened_walk hwalk⟩
  have hid := he'.inOrder.registry.keyed hs
  subst hid
  have hlisting : s.listing = source := by
    rw [← hread.sole hs, he'.listing_eq_source_iff hs, hread.sole hs]
    exact hsuffix
  rw [h.denials]
  -- Either the session had come to its end before, or it leaves no listing in this step.
  by_cases hbefore : ∃ r, e.sessions.get? s.id = some r ∧ r.phase.isFinal
  · obtain ⟨r, hr, hrfinal⟩ := hbefore
    obtain ⟨s', hs', ha⟩ := h.alike_of_final hr hrfinal
    obtain rfl := Option.some.inj (hs.symm.trans hs')
    exact hgone.gone hr (ha.process_isSome.1 hp) hrfinal (hback hfile)
  · exact hlisting ▸ h.kept (fun _ _ => he.proper) hs hp hfinal
      (fun r hr hr' => hbefore ⟨r, hr, hr'⟩) (hlisting ▸ hfile)

/-! ## From the start on -/

/-- A source that is only read keeps its bytes, unless the settings give listings the suffix of the
    source. Then there is no source any more once a compiler has exited and its check is over, or
    the system did not let the source be removed. -/
theorem Steps.source_kept {disk : Disk} {searchPath : List Text} {settings : Settings} {e₀ : Engine}
    (hcreate : create disk searchPath settings = .ok e₀) (hsteps : Steps e₀ e)
    (hread : e.OnlyRead source) (hbytes : disk.contents source = .ok bytes) :
    (settings.listingSuffix ≠ source.suffix → e.disk.contents source = .ok bytes) ∧
    (settings.listingSuffix = source.suffix → ∀ id s, e.sessions.get? id = some s →
      s.process.isSome → s.phase.isFinal → e.disk.HasFile source →
        disk.denials.Keeps source) := by
  suffices h : (settings.listingSuffix ≠ source.suffix → e.disk.contents source = .ok bytes) ∧
      (settings.listingSuffix = source.suffix → e.Gone source) from
    ⟨h.1, fun hsuffix _ _ => Steps.denials_of_create hcreate hsteps ▸ (h.2 hsuffix).gone⟩
  obtain ⟨hok, place, hwalk, -⟩ := Disk.readBytes_eq_ok.1 hbytes
  induction hsteps with
  | refl =>
    obtain ⟨compiler, log, rfl⟩ := create_eq hcreate
    exact ⟨fun _ => hbytes, fun _ => ⟨⟨place, hwalk⟩, fun hs => by simp at hs⟩⟩
  | tail hsteps hstep ih =>
    have he := (Reachable.create hcreate).steps hsteps
    have he' := he.step hstep
    have hfoot := hstep.footprint he.inOrder
    have hsettings := Steps.settings_of_create hcreate (hsteps.tail hstep)
    obtain ⟨hkept, hgone⟩ := ih (hfoot.onlyRead_before hread)
    refine ⟨fun hsuffix => ?_, fun hsuffix => ?_⟩
    · exact hfoot.source_spared he' hread (hsettings ▸ hsuffix) (hkept hsuffix)
    · exact hfoot.source_gone he he' hread (hsettings ▸ hsuffix) hok (hgone hsuffix)

/-- Are all sessions checks of the source without a text, with compilers that leave it alone? -/
def onlyRead (e : Engine) (source : Path) : Bool :=
  e.sessions.values.all fun s => s.source = source ∧ s.text = none ∧
    s.process.all fun p => (p.behaviour.early = none ∧ p.behaviour.listing = none) ∨
      (s.source.withSuffix ('.' :: p.behaviour.listingSuffix)).toOption ≠ some source

/-- A source that checks to be only read is only read. -/
theorem onlyRead_of_check (h : e.onlyRead source = true) : e.OnlyRead source := by
  have hall : ∀ {id s}, e.sessions.get? id = some s → s.source = source ∧ s.text = none ∧
      s.process.all fun p => (p.behaviour.early = none ∧ p.behaviour.listing = none) ∨
        (s.source.withSuffix ('.' :: p.behaviour.listingSuffix)).toOption ≠ some source :=
    fun hs => of_decide_eq_true (List.all_eq_true.1 h _ (Table.mem_values_of_get? hs))
  refine ⟨fun hs => (hall hs).1, fun hs => (hall hs).2.1, fun {id s p} hs hp => ?_⟩
  have hspares := (hall hs).2.2
  rw [hp, Option.all_some, decide_eq_true_eq] at hspares
  exact hspares.imp_right fun hne heq => hne (congrArg Except.toOption heq)

/-- A model is still there after a check whose compiler left a listing. -/
theorem source_kept_of_check : ∃ e : Engine, Reachable e ∧
    e.disk.contents (.ofText "/m.gms".toList) = .ok [97] ∧ e.deliveries = [(1, [])] := by
  have hrun : ∃ e₀ e, create { nodes := ⟨[(["m.gms".toList], .file [97] false)]⟩ } []
        ⟨.ofText "/".toList, ∅⟩ = .ok e₀ ∧
      (e₀.check "/m.gms".toList none {} { listing := some (.file [97] false) }).1 = e ∧
      e.onlyRead (.ofText "/m.gms".toList) ∧ e.deliveries = [(1, [])] :=
    ⟨_, _, rfl, rfl, by decide +kernel, by decide +kernel⟩
  obtain ⟨e₀, e, hcreate, rfl, hread, hdeliveries⟩ := hrun
  refine ⟨_, (Run.create hcreate |>.check _ none {} _).reachable, ?_, hdeliveries⟩
  exact (Steps.source_kept hcreate (Steps.check .refl _ none {} _) (onlyRead_of_check hread)
    (by rfl)).1 (by decide)

/-- A model is deleted by its check if the settings give listings its own suffix. -/
theorem source_not_kept_of_suffix : ∃ e₀ e : Engine, ∃ disk searchPath settings,
    create disk searchPath settings = .ok e₀ ∧ Steps e₀ e ∧
    e.OnlyRead (.ofText "/m.gms".toList) ∧
    (∀ t task, e.tasks.get? t = some task → task.stage.isEnded) ∧
    disk.contents (.ofText "/m.gms".toList) = .ok [97] ∧
    e.disk.contents (.ofText "/m.gms".toList) ≠ .ok [97] := by
  have hrun : ∃ e₀ e, create { nodes := ⟨[(["m.gms".toList], .file [97] false)]⟩ } []
        ⟨.ofText "/".toList, ⟨[(.text "listing_ext".toList, .text "gms".toList)]⟩⟩ = .ok e₀ ∧
      (e₀.check "/m.gms".toList none {} {}).1 = e ∧
      e.onlyRead (.ofText "/m.gms".toList) ∧ (e.tasks.values.all fun task => task.stage.isEnded) ∧
      (e.disk.contents (.ofText "/m.gms".toList)).toOption ≠ some [97] :=
    ⟨_, _, rfl, rfl, by decide +kernel, by decide +kernel, by decide +kernel⟩
  obtain ⟨e₀, e, hcreate, rfl, hread, hended, hgone⟩ := hrun
  refine ⟨e₀, _, _, _, _, hcreate, Steps.check .refl _ none {} {}, onlyRead_of_check hread,
    fun t task ht => List.all_eq_true.1 hended task (Table.mem_values_of_get? ht), rfl,
    fun hbytes => hgone (congrArg Except.toOption hbytes)⟩

end LiveCheck.Engine
