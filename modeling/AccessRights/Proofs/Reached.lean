/-
AccessRights/Proofs/Reached.lean

The states of a node that has its store to itself.

The node begins with an empty store.  Then faults are planned, requests
answered, live rosters worked on past the rules for grants, and the node is
closed and opened again over its store, in any order.  `Site.Rules` says what of
this may happen, so that one induction serves for nodes that are used with
different restrictions.

Such a node is in step with its store: the index of groups never lacks a group
or a membership that counts.  As long as nobody works on a live roster
directly, its cache is faithful as well.

Main results: `Reached.sound`, `Reached.inStep`, `Reached.faithful` and `Reached.keeps`
(what every event keeps holds of every reached site).
-/
import AccessRights.Proofs.History

namespace AccessRights

namespace Site

open Call

variable {rules : Rules} {site after : Site}

/-! ### Reached sites -/

/-- What may happen at a node that has its store to itself. -/
structure Rules where
  /-- The requests that may be made at a site. -/
  asks : Site → Request → Prop
  /-- The faults that may be planned. -/
  plans : Fault → Prop
  /-- The steps that may be taken on a live roster directly. -/
  steps : RosterStep → Prop

namespace Rules

/-- Anything may happen. -/
def all : Rules := ⟨fun _ _ => True, fun _ => True, fun _ => True⟩

/-- Anything may happen, but rosters are changed by requests only. -/
def requests : Rules := ⟨fun _ _ => True, fun _ => True, fun _ => False⟩

/-- Only requests are made, of a store that does not fail. -/
def calm : Rules := ⟨fun _ _ => True, fun _ => False, fun _ => False⟩

/-- The other rules allow what these allow. -/
structure Le (rules other : Rules) : Prop where
  asks {site request} : rules.asks site request → other.asks site request
  plans {fault} : rules.plans fault → other.plans fault
  steps {step} : rules.steps step → other.steps step

theorem le_all (rules : Rules) : rules.Le all :=
  ⟨fun _ => trivial, fun _ => trivial, fun _ => trivial⟩

end Rules

/-- A state that a node gets into together with a store that nobody else writes to. -/
inductive Reached (rules : Rules) : Site → Prop
  /-- The node is new, and the store is empty. -/
  | blank (config : Config) : Reached rules ⟨.blank config, {}⟩
  /-- The node is closed and opened again: its memory is lost, and it reads all groups and
  memberships of the store. -/
  | reopened {site after : Site} (before : Reached rules site) (config : Config)
      (done : load.perform ⟨.blank config, site.backend⟩ = (.ok (), after)) : Reached rules after
  /-- Faults of the store are planned. -/
  | scheduled {site : Site} (before : Reached rules site) (method : StoreMethod) {fault : Fault}
      (planned : rules.plans fault) (times : Nat) :
      Reached rules { site with backend := { site.backend with
        faults := site.backend.faults.schedule method fault times } }
  /-- A request is answered, or refused. -/
  | answered {site : Site} (before : Reached rules site) (room : site.backend.store.HasRoom 2)
      (now : Timestamp) (request : Request) (asked : rules.asks site request) :
      Reached rules ((answer now request).perform site).2
  /-- Somebody works on a live roster. -/
  | stepped {site : Site} (before : Reached rules site) (policyId : UInt64) (step : RosterStep)
      (taken : rules.steps step) : Reached rules ((rosterStep policyId step).perform site).2

/-- What is reached under some rules is reached under more liberal ones. -/
theorem Reached.mono {other : Rules} (h : site.Reached rules) (hle : rules.Le other) :
    site.Reached other := by
  induction h with
  | blank config => exact .blank config
  | reopened _ config done ih => exact .reopened ih config done
  | scheduled _ method planned times ih => exact .scheduled ih method (hle.plans planned) times
  | answered _ room now request asked ih => exact .answered ih room now request (hle.asks asked)
  | stepped _ policyId step taken ih => exact .stepped ih policyId step (hle.steps taken)

/-! ### Reached sites keep the rules of sites -/

/-- A node that has just read all groups and memberships is in step with the store. -/
theorem inStep_reloaded (hsound : site.Sound) : site.reloaded.InStep where
  group {id group} hgroup := by
    rw [← hgroup]
    exact (Node.group?_build_store hsound.store id).symm
  relation _ hrelation := GroupIndex.mem_membersOf_build.2 (Std.ExtTreeSet.mem_toList.2 hrelation)

/-- A node that is opened is sound, in step and faithful. -/
theorem alone_of_load {config : Config} {backend : Backend} (hstore : backend.store.Sound)
    (hdone : load.perform ⟨.blank config, backend⟩ = (.ok (), after)) :
    after.Sound ∧ after.InStep ∧ after.node.Faithful := by
  have hblank : Site.Sound ⟨.blank config, backend⟩ := ⟨hstore, Cluster.blank_sound config _⟩
  obtain ⟨last, hlearns, rfl⟩ := reloaded_of_load hdone
  have hloaded : Site.Passes False 0 ⟨.blank config, backend⟩ last.reloaded :=
    hlearns.passes.trans (.single .loaded)
  have hroom := Store.hasRoom_zero backend.store
  refine ⟨(hloaded.sound hblank hroom).1, inStep_reloaded (hlearns.sound hblank), ?_⟩
  exact hloaded.faithful hblank hroom id (alone_blank config).faithful

theorem Learns.inStep (h : site.Learns after) (hsound : site.Sound) (hstep : site.InStep) :
    after.InStep := by
  have hpasses : Site.Passes False 0 site after := h.passes
  exact hpasses.inStep hsound (Store.hasRoom_zero _) hstep

theorem inStep_rosterStep (hsound : site.Sound) (hstep : site.InStep) (policyId : UInt64)
    (step : RosterStep) : ((rosterStep policyId step).perform site).2.InStep := by
  unfold rosterStep
  rw [perform_bind]
  obtain ⟨error, last, hlearns, hrun⟩ | ⟨roster, last, hlearns, -, hrun⟩ :=
    (reads_rosterOf hsound.keyed policyId).cases <;> rw [hrun]
  · exact hlearns.inStep hsound hstep
  · obtain ⟨hgroup, hrelation⟩ := hlearns.inStep hsound hstep
    exact ⟨hgroup, hrelation⟩

/-- A reached site keeps its rules, and is in step with its store. -/
theorem Reached.sound_inStep (h : site.Reached rules) : site.Sound ∧ site.InStep := by
  induction h with
  | blank config => exact ⟨(alone_blank config).sound, (alone_blank config).inStep⟩
  | reopened _ config done ih =>
    obtain ⟨hsound, hstep, -⟩ := alone_of_load ih.1.store done
    exact ⟨hsound, hstep⟩
  | scheduled _ method planned times ih =>
    exact ⟨⟨ih.1.store, ih.1.node⟩, ⟨ih.2.group, ih.2.relation⟩⟩
  | answered _ room now request _ ih =>
    obtain ⟨n, hn, -, hpasses⟩ := answer_passes ih.1 room now request
    exact ⟨(hpasses.sound ih.1 (room.mono hn)).1, hpasses.inStep ih.1 (room.mono hn) ih.2⟩
  | stepped _ policyId step _ ih =>
    exact ⟨(rosterStep_sound ih.1 policyId step).1, inStep_rosterStep ih.1 ih.2 policyId step⟩

theorem Reached.sound (h : site.Reached rules) : site.Sound :=
  h.sound_inStep.1

theorem Reached.inStep (h : site.Reached rules) : site.InStep :=
  h.sound_inStep.2

/-- Where rosters are changed by requests only, the cache serves what the node recalls. -/
theorem Reached.faithful (h : site.Reached rules) (hsteps : ∀ step, ¬ rules.steps step) :
    site.node.Faithful := by
  induction h with
  | blank config => exact (alone_blank config).faithful
  | reopened before config done ih => exact (alone_of_load before.sound.store done).2.2
  | scheduled _ method planned times ih => exact ih
  | answered before room now request _ ih =>
    obtain ⟨n, hn, -, hpasses⟩ := answer_passes before.sound room now request
    -- a node that is in step takes in nothing that was not counted
    have hkeeps := before.inStep.not_lagsBehind before.sound.keyed request
    exact hpasses.faithful before.sound (room.mono hn) hkeeps ih
  | stepped _ policyId step taken ih => exact absurd taken (hsteps step)

/-- A history of requests that the rules allow leads from one reached site to another, as long
as the store has numbers for what is created. -/
theorem Reached.live (h : site.Reached rules) {history : History}
    (hasked : ∀ site, ∀ entry ∈ history, rules.asks site entry.2)
    (hroom : site.backend.store.HasRoom (2 * history.length)) :
    (site.live history).2.Reached rules := by
  induction history generalizing site with
  | nil => exact h
  | cons entry history ih =>
    have hroom : site.backend.store.HasRoom (2 + 2 * history.length) :=
      hroom.mono (by rw [List.length_cons]; omega)
    have hfirst := hroom.mono (Nat.le_add_right _ _)
    obtain ⟨n, hn, -, hpasses⟩ := answer_passes h.sound hfirst entry.1 entry.2
    exact ih (.answered h hfirst entry.1 entry.2 (hasked site entry List.mem_cons_self))
      (fun site other hother => hasked site other (List.mem_cons_of_mem _ hother))
      (hpasses.hasRoom (hroom.mono (Nat.add_le_add_right hn _)))

/-! ### What every event keeps -/

variable {holds : Site → Prop}

/-- What every event at a sound site keeps is kept by any sequence of them. -/
theorem Passes.keeps {licence : Licence} {n : Nat} (h : Passes licence n site after)
    (hsound : site.Sound) (hroom : site.backend.store.HasRoom n)
    (hevent : ∀ {n : Nat} {site after : Site}, site.Event licence n after → site.Sound →
      site.backend.store.HasRoom n → holds site → holds after)
    (hsite : holds site) : holds after := by
  induction h with
  | refl => exact hsite
  | step first _ ih =>
    have hfirst := hroom.mono (Nat.le_add_right _ _)
    exact ih (first.sound hsound hfirst).1 (first.hasRoom hroom)
      (hevent first hsound hfirst hsite)

theorem rosterStep_keeps (hsound : site.Sound) (policyId : UInt64) (step : RosterStep)
    (hevent : ∀ {n : Nat} {site after : Site}, site.Event False n after → site.Sound →
      site.backend.store.HasRoom n → holds site → holds after)
    (hstep : ∀ {site : Site} {roster : Roster}, site.Sound →
      site.node.rosters[policyId]? = some roster → holds site →
        holds { site with node := { site.node with
          rosters := site.node.rosters.insert policyId (roster.perform step).2 } })
    (hsite : holds site) : holds ((rosterStep policyId step).perform site).2 := by
  have hlearned {last : Site} (hlearns : site.Learns last) : holds last := by
    have hpasses : Site.Passes False 0 site last := hlearns.passes
    exact hpasses.keeps hsound (Store.hasRoom_zero _) hevent hsite
  unfold rosterStep
  rw [perform_bind]
  obtain ⟨error, last, hlearns, hrun⟩ | ⟨roster, last, hlearns, ⟨-, hlive⟩, hrun⟩ :=
    (reads_rosterOf hsound.keyed policyId).cases <;> rw [hrun]
  · exact hlearned hlearns
  · have hlast := hstep (hlearns.sound hsound) hlive (hlearned hlearns)
    obtain ⟨rfl, -, -⟩ := (hlearns.sound hsound).node.roster hlive
    rw [← roster.policyId_perform step] at hlast
    exact hlast

/-- What holds of a new node, and is kept by events, roster steps, planning faults and losing the
memory of the node, holds of every reached site. -/
theorem Reached.keeps (h : site.Reached rules)
    (hblank : ∀ config, holds ⟨.blank config, {}⟩)
    (hreopened : ∀ {site : Site} (config : Config), holds site → holds ⟨.blank config, site.backend⟩)
    (hplanned : ∀ {site : Site} (faults : FaultPlan), holds site →
      holds { site with backend := { site.backend with faults } })
    (hevent : ∀ {licence : Licence} {n : Nat} {site after : Site}, site.Event licence n after →
      site.Sound → site.backend.store.HasRoom n → holds site → holds after)
    (hstep : ∀ {site : Site} {id : UInt64} {roster : Roster} {step : RosterStep}, rules.steps step →
      site.Sound → site.node.rosters[id]? = some roster → holds site →
        holds { site with node := { site.node with
          rosters := site.node.rosters.insert id (roster.perform step).2 } }) : holds site := by
  -- along what has happened to the site: all of it is events, but for planned faults and work
  -- on live rosters
  induction h with
  | blank config => exact hblank config
  | @reopened site after before config done ih =>
    have hsound : Site.Sound ⟨.blank config, site.backend⟩ :=
      ⟨before.sound.store, Cluster.blank_sound config _⟩
    obtain ⟨n, hn, -, hpasses⟩ : load.Passes False 0 0 ⟨.blank config, site.backend⟩ :=
      load_passes _
    rw [done] at hpasses
    exact hpasses.keeps hsound ((Store.hasRoom_zero _).mono hn) hevent (hreopened config ih)
  | scheduled _ _ _ _ ih => exact hplanned _ ih
  | answered before room now request _ ih =>
    obtain ⟨n, hn, -, hpasses⟩ := answer_passes before.sound room now request
    exact hpasses.keeps before.sound (room.mono hn) hevent ih
  | stepped before policyId step taken ih =>
    exact rosterStep_keeps before.sound policyId step hevent (hstep taken) ih

end Site

end AccessRights
