/-
AccessRights/Proofs/Uncached.lean

Calls that do not notice whether there is a cache.

Only resolutions of rights look into the cache, and they only put there what
they give.  So every call does the same at a node without a cache, except that
nothing is cached (`Call.Blind`).  The other parts of a call are blind because they
never look, and resolutions because a cache to be trusted serves what the node
recalls, and recalled rights are resolved to themselves.  Since calls are put
together of these, they are blind where the cache can be trusted whenever rights are
resolved (`Composed.blind`).

Main results: `blind_effectiveAccess` and `blind_answer`.
-/
import AccessRights.Proofs.Composed
import AccessRights.Proofs.Counting
import AccessRights.Proofs.Grants
import AccessRights.Proofs.Resolution

namespace AccessRights

/-- The site without the cache of its node. -/
def Site.uncached (site : Site) : Site :=
  { site with node := { site.node with cache := none } }

namespace Call

variable {α β : Type} {part : (α : Type) → Call α → Site → Prop} {site : Site}

/-! ### Rules -/

/-- At this site the call does without the cache what it does with it. -/
def Blind (call : Call α) (site : Site) : Prop :=
  call.perform site.uncached = ((call.perform site).1, (call.perform site).2.uncached)

/-- Both calls of a sequence do without the cache what they do with it, so both runs take the same
course. -/
theorem Blind.bind {call : Call α} {next : α → Call β} (h : call.Blind site)
    (hnext : ∀ value after, call.perform site = (.ok value, after) → (next value).Blind after) :
    (call >>= next).Blind site := by
  unfold Blind at h ⊢
  rw [perform_bind, perform_bind, h]
  rcases hrun : call.perform site with ⟨error | value, after⟩
  · rfl
  · exact hnext value after hrun

/-- To look at how a call went makes no difference that the call does not make. -/
theorem Blind.outcome {call : Call α} (h : call.Blind site) : call.outcome.Blind site := by
  unfold Blind at h ⊢
  rw [perform_outcome, perform_outcome, h]

/-- Looking at the node makes no difference as long as it is not its cache. -/
theorem blind_look {next : Node → Call β} (h : (next site.node).Blind site)
    (hcache : next { site.node with cache := none } = next site.node) :
    (Site.currentNode >>= next).Blind site := by
  unfold Blind at h ⊢
  rw [perform_bind, perform_bind, Site.perform_currentNode, Site.perform_currentNode]
  dsimp only
  rw [← h, ← hcache]
  rfl

/-- Calls whose parts are blind are blind. -/
theorem Composed.blind {call : Call α} (h : Composed part call site)
    (hpart : ∀ {α : Type} {call : Call α} {site : Site}, part α call site → call.Blind site) :
    call.Blind site := by
  -- along the way the call is put together; a look at the node never falls on its cache
  induction h with
  | part whole => exact hpart whole
  | value | refusal => rfl
  | lifted result site =>
    unfold Blind
    rw [perform_liftExcept, perform_liftExcept]
  | bind _ _ ih ihnext => exact ih.bind ihnext
  | outcome _ ih => exact ih.outcome
  | look _ cache ih => exact blind_look ih cache

end Call

namespace Site

open Call

variable {fit : Site → Prop} {site : Site}

/-! ### Parts -/

/-- The parts of a call are blind, provided that resolutions are where they happen. -/
theorem Part.blind {α : Type} {call : Call α} (h : Part fit α call site)
    (hresolve : ∀ site, fit site → ∀ policyId actor, (effectiveAccess policyId actor).Blind site) :
    call.Blind site := by
  -- the store never sees the node, let alone its cache
  have hask {α : Type} (wrap : StoreError → AccessError) (request : StoreCall α) (site : Site) :
      (Call.ask wrap request).Blind site := by
    unfold Call.Blind
    rw [perform_ask, perform_ask]
    rfl
  -- an edit that treats the cache apart can be made with it or without
  have hedit {edit : Node → Node}
      (hcache : ∀ node, edit { node with cache := none } = { edit node with cache := none })
      (site : Site) : (editNode edit).Blind site := by
    unfold Call.Blind
    rw [perform_editNode, perform_editNode]
    exact congrArg (fun node => (Except.ok (), (⟨node, site.backend⟩ : Site))) (hcache site.node)
  cases h with
  | ask wrap => exact hask wrap _ site
  | attempt => rfl
  | note _ _ _ cache => exact hedit cache site
  | regroup | takeIn => rfl
  | remove wrap policyId => exact (hask wrap _ site).bind fun _ _ _ => rfl
  | resolve here policyId actor => exact hresolve site here policyId actor

/-- Without the cache there is nothing to resolve rights with but parts that never look. -/
theorem blind_resolve (policyId : UInt64) (actor : Actor) (site : Site) :
    (resolve policyId actor).Blind site :=
  (@composed_resolve (fun _ => False) policyId actor site).blind fun h => h.blind fun _ => False.elim

/-! ### Cached answers -/

/-- Looking into the cache changes nothing else. -/
theorem uncached_cached? (question : RightsQuestion) (site : Site) :
    ((cached? question).perform site).2.uncached = site.uncached := by
  unfold cached?
  rw [perform_bind, perform_currentNode]
  dsimp only
  cases site.node.cache <;> rfl

/-- Without a cache rights are resolved, and nothing is kept. -/
theorem perform_effectiveAccess_uncached (policyId : UInt64) (actor : Actor) (site : Site) :
    (effectiveAccess policyId actor).perform site.uncached =
      (resolve policyId actor.normalize).perform site.uncached := by
  have hnone : (cached? ⟨policyId, actor.normalize⟩).perform site.uncached =
      (.ok none, site.uncached) := rfl
  unfold effectiveAccess
  rw [perform_bind, hnone]
  dsimp only
  rw [perform_bind, perform_currentNode]
  dsimp only
  rw [perform_bind, blind_resolve policyId actor.normalize _]
  rcases (resolve policyId actor.normalize).perform site with ⟨error | rights, after⟩ <;> rfl

/-- A cache to be trusted makes no difference to what is answered: it serves what the node recalls,
and recalled rights are resolved to themselves. -/
theorem blind_effectiveAccess (hkeyed : site.Keyed) (htrusted : site.node.Trusted)
    (policyId : UInt64) (actor : Actor) : (effectiveAccess policyId actor).Blind site := by
  unfold Call.Blind
  rw [perform_effectiveAccess_uncached]
  have hsame := uncached_cached? ⟨policyId, actor.normalize⟩ site
  have hserved := (reads_cached? site ⟨policyId, actor.normalize⟩).post
  have hlooked := perform_cached? ⟨policyId, actor.normalize⟩ site
  unfold effectiveAccess
  rw [perform_bind]
  rcases hrun : (cached? ⟨policyId, actor.normalize⟩).perform site with ⟨error | found, after⟩ <;>
    rw [hrun] at hsame hserved hlooked
  · cases hlooked
  rw [← hsame]
  cases found with
  | some rights =>
    -- served from the cache: without it the same rights are resolved from memory
    have hrights := (hserved (some rights) rfl rights rfl).2 htrusted
    have hkeyed' : after.uncached.Keyed := by
      rw [hsame]
      exact ⟨hkeyed.policy, hkeyed.group, hkeyed.roster, hkeyed.member⟩
    exact @perform_resolve after.uncached hkeyed' _ _ _ hrights
  | none =>
    -- not served: both resolve, and the one with a cache keeps what comes out
    dsimp only
    rw [perform_bind, perform_currentNode]
    dsimp only
    rw [perform_bind, blind_resolve policyId actor.normalize _]
    rcases (resolve policyId actor.normalize).perform after with ⟨error | rights, last⟩ <;> rfl

/-! ### Opening rosters -/

/-- The cache can still be trusted when a roster has been opened. -/
theorem openRoster_trusted (hsound : site.Sound) (htrusted : site.node.Trusted)
    {policyId : UInt64} {after : Site} (hrun : (openRoster policyId).perform site = (.ok (), after)) :
    after.Sound ∧ after.node.Trusted := by
  obtain ⟨error, last, -, hrun'⟩ | ⟨live, opened, hlearns, -, -, hlive, hrun'⟩ :=
    openRoster_cases hsound.keyed policyId
  · cases hrun.symm.trans hrun'
  · cases hrun.symm.trans hrun'
    -- first the roster is learned, then backed up, which is an event that counts nothing
    have hpasses : Site.Passes False 0 site _ :=
      hlearns.passes.trans (.single (.rosterBackedUp hlive))
    have hroom := site.backend.store.hasRoom_zero
    exact ⟨(hpasses.sound hsound hroom).1,
      hpasses.faithful hsound hroom id htrusted.faithful, hlearns.still.changes ▸ htrusted.exact⟩

/-- The cache can still be trusted when somebody has been checked or a roster has been opened. -/
theorem staysFit_trusted : StaysFit fun site => site.Sound ∧ site.node.Trusted where
  -- whoever checks a grantee only learns, and learning keeps a cache to be trusted
  granted := by
    rintro site after grantee ⟨hsound, htrusted⟩ hrun
    have hlearns := (reads_checkGrantee hsound.keyed grantee).learns
    rw [hrun] at hlearns
    exact ⟨hlearns.sound hsound, hlearns.trusted hsound.keyed htrusted⟩
  revoked := by
    rintro site after grantee ⟨hsound, htrusted⟩ hrun
    have hlearns := (@reads_checkRevoked site grantee).learns
    rw [hrun] at hlearns
    exact ⟨hlearns.sound hsound, hlearns.trusted hsound.keyed htrusted⟩
  opened := by
    rintro site after policyId ⟨hsound, htrusted⟩ hrun
    exact openRoster_trusted hsound htrusted hrun

/-! ### Requests -/

/-- A node with a cache to be trusted answers as it would without the cache, and is left in the same
state but for the cache. -/
theorem blind_answer (hsound : site.Sound) (htrusted : site.node.Trusted) (now : Timestamp)
    (request : Request) : (answer now request).Blind site :=
  (composed_answer staysFit_trusted ⟨hsound, htrusted⟩ now request).blind fun h =>
    h.blind fun _ hfit policyId actor => blind_effectiveAccess hfit.1.keyed hfit.2 policyId actor

end Site

end AccessRights
