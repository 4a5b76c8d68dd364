/-
AccessRights/Proofs/Integrity.lean

Whether the parent of every stored policy is stored.

The rule that is meant: a policy is stored with a parent that is stored, so a
resolution that passes on to parents always finds them.  Creating, changing and
moving a policy keep the rule, since each of them looks the parent up.
Deleting a policy does not ask whether others hang below it.  If some do, they
are left with a parent that is gone, and the rights on those that inherit or
extend it cannot be resolved any more (`not_intact_orphaned`).

So the rule holds as long as no deletion strands a policy, and each deletion
that does strand one breaks it.

Main results: `Event.intact`, `answer_intact_iff` and `Reached.whole`.
-/
import AccessRights.Proofs.Cycles

namespace AccessRights

namespace PolicyTables

variable {tables tables' : PolicyTables}

/-! ### Tables in which no parent is missing -/

/-- Every stored policy has no parent or a stored one. -/
structure Intact (tables : PolicyTables) : Prop where
  parent {id parentId : UInt64} : tables.links id = some parentId → parentId ≠ 0 →
    ∃ parent, tables.byId? parentId = some parent

theorem intact_empty : Intact {} :=
  ⟨fun hlink => by simp [links, byId?] at hlink⟩

/-- Whatever is put in the tables takes nothing away. -/
theorem Intact.put (h : tables.Intact) {policy : Policy} (record : RosterRecord) (lastId : UInt64)
    (hparent : policy.parentId = 0 ∨ ∃ parent, tables.byId? policy.parentId = some parent) :
    Intact { tables.put policy record with lastId } := by
  have hkept {id : UInt64} (hstored : ∃ found, tables.byId? id = some found) :
      ∃ found, byId? { tables.put policy record with lastId } id = some found := by
    show ∃ found, (tables.put policy record).policies[id]? = some found
    rw [policies_put]
    split
    · exact ⟨policy, rfl⟩
    · exact hstored
  refine ⟨fun {id parentId} hlink hnonzero => hkept ?_⟩
  have hlink : (tables.put policy record).links id = some parentId := hlink
  rw [links_put] at hlink
  split at hlink
  · cases hlink
    exact hparent.resolve_left hnonzero
  · exact h.parent hlink hnonzero

/-- A deletion leaves every parent stored exactly when nothing hangs below what is deleted. -/
theorem Intact.delete_iff (h : tables.Intact) (hsound : tables.Sound) (hrooted : tables.Rooted)
    {id : UInt64} (hdelete : PolicyTables.delete id tables = .ok ((), tables')) :
    tables'.Intact ↔ ∀ childId, tables.links childId ≠ some id := by
  have hlinks := links_delete hdelete
  obtain ⟨⟨policy, hpolicy⟩, rfl⟩ := delete_eq_ok hdelete
  constructor
  · -- a child that is left would hang below nothing
    intro hintact childId hlink
    have hchild : id ≠ childId := by
      rintro rfl
      exact hrooted.ends.not_cyclic id (.single hlink)
    obtain ⟨parent, hparent⟩ :=
      hintact.parent ((hlinks childId).trans ((if_neg hchild).trans hlink)) (hsound.policy hpolicy).2.1
    have hgone := (lookup_erase tables.policies id id).trans (if_pos rfl)
    cases hgone.symm.trans hparent
  · intro hchildless
    refine ⟨fun {childId parentId} hlink hnonzero => ?_⟩
    rw [hlinks] at hlink
    split at hlink
    · cases hlink
    · obtain ⟨parent, hparent⟩ := h.parent hlink hnonzero
      refine ⟨parent, (lookup_erase ..).trans ((if_neg ?_).trans hparent)⟩
      rintro rfl
      exact hchildless childId hlink

end PolicyTables

/-- The request creates, changes, moves or deletes a policy. -/
def Request.ChangesTree : Request → Prop
  | .createPolicy .. | .updatePolicy .. | .movePolicy .. | .deletePolicy .. => True
  | _ => False

/-- The request deletes a policy, and others hang below it. -/
def Request.Strands (site : Site) : Request → Prop
  | .deletePolicy policyId => ((Site.deletePolicy policyId).perform site).1 = .ok () ∧
      ∃ childId, site.backend.store.policies.links childId = some policyId
  | _ => False

namespace Site

open Call

variable {licence : Licence} {n : Nat} {site after : Site}

/-! ### Calls that delete no policy -/

/-- No event but a deletion takes a parent away, and none stores a policy whose parent is not
stored. -/
theorem Event.intact (h : site.Event licence n after) (hindexed : site.Indexed)
    (hremoves : ∀ id, ¬ licence.removes id) (hintact : site.backend.store.policies.Intact) :
    after.backend.store.policies.Intact := by
  cases h with
  | learn learn => exact learn.still.store ▸ hintact
  | rosterBackedUp | rosterChanged | groupSlippedIn | groupStored | relationDropped | groupDeleted
  | related | unrelated | loaded | linked | regrouped => exact hintact
  | @policyStored policy record stored policies new created bare placed =>
    obtain ⟨stored, storedRecord⟩ := stored
    obtain ⟨-, rfl, rfl, rfl⟩ := PolicyTables.create_eq_ok created
    refine hintact.put record _ (placed.imp_right ?_)
    rintro ⟨parent, hparent⟩
    exact ⟨parent, hindexed.of_recalled hparent⟩
  | @policyUpdated policy current update policies before roster indexed _ _ updated _ _ _ _ _
    placed =>
    obtain ⟨-, -, rfl⟩ := PolicyTables.update_eq_ok updated
    refine hintact.put update.record _ ?_
    obtain hkept | ⟨line, hline, -⟩ := placed
    · -- the parent it had is stored already
      have hlink := PolicyTables.links_of_stored (hindexed.policy indexed)
      rw [hkept]
      exact or_iff_not_imp_left.2 (hintact.parent hlink)
    · refine hline.linked.imp_right ?_
      rintro ⟨next, hlink⟩
      obtain ⟨parent, hparent, -⟩ := Option.map_eq_some_iff.1 (hindexed.links_of_recalled hlink)
      exact ⟨parent, hparent⟩
  | policyDeleted _ allowed => exact absurd allowed (hremoves _)

theorem Passes.intact (h : Passes licence n site after) (hsound : site.Sound)
    (hroom : site.backend.store.HasRoom n) (hrooted : site.Rooted)
    (hremoves : ∀ id, ¬ licence.removes id) (hintact : site.backend.store.policies.Intact) :
    after.backend.store.policies.Intact := by
  refine And.right (@Passes.keeps site after
    (fun site => site.Rooted ∧ site.backend.store.policies.Intact) _ _ h hsound hroom ?_
    ⟨hrooted, hintact⟩)
  rintro n site after hevent hsound hroom ⟨hrooted, hintact⟩
  exact ⟨hevent.rooted hsound hroom hrooted,
    hevent.intact hrooted.toIndexed hremoves hintact⟩

/-- A request leaves every parent stored exactly when it strands no policy. -/
theorem answer_intact_iff (hsound : site.Sound) (hroom : site.backend.store.HasRoom 2)
    (hrooted : site.Rooted) (hintact : site.backend.store.policies.Intact) (now : Timestamp)
    (request : Request) :
    ((answer now request).perform site).2.backend.store.policies.Intact ↔
      ¬ request.Strands site := by
  obtain ⟨n, hn, -, hpasses⟩ := answer_passes hsound hroom now request
  have hspared (hother : ∀ id, request ≠ .deletePolicy id) :=
    hpasses.intact hsound (hroom.mono hn) hrooted hother hintact
  cases request with
  | deletePolicy policyId =>
    have hreply : ((answer now (.deletePolicy policyId)).perform site).2 =
        ((deletePolicy policyId).perform site).2 := snd_perform_bind fun _ _ => rfl
    rw [hreply, Request.Strands]
    obtain ⟨error, last, hlearns, hrun⟩ | ⟨last, policies, hlearns, hdelete, hrun⟩ :=
      deletePolicy_cases hsound.keyed policyId <;> rw [hrun]
    · refine iff_of_true (hlearns.still.store ▸ hintact) ?_
      rintro ⟨⟨⟩, -⟩
    · rw [hlearns.still.store] at hdelete
      refine (hintact.delete_iff hsound.store.policies hrooted.tables hdelete).trans ?_
      simp
  | _ => exact iff_of_true (hspared fun id heq => by cases heq) not_false

/-! ### Resolving rights -/

/-- Where no parent is missing, the walk of a resolution finds every policy it comes to. -/
theorem avoids_contributorsFrom_of_intact (hsound : site.Sound) (hrooted : site.Rooted)
    (hcalm : site.backend.faults = []) (hintact : site.backend.store.policies.Intact)
    {trail : Trail} {policyId : UInt64}
    (hstored : policyId ≠ 0 → ∃ policy, site.backend.store.policies.byId? policyId = some policy) :
    (contributorsFrom trail policyId).Avoids AccessError.IsMissing site := by
  fun_induction contributorsFrom trail policyId generalizing site with
  | case1 trail policyId fresh ih =>
    by_cases hroot : policyId = 0
    · -- that a parent is required is a reason of its own
      subst hroot
      exact avoids_throw_bind not_false _
    obtain ⟨found, hfound⟩ := hstored hroot
    obtain ⟨error, after, hnone, -⟩ | ⟨policy, after, hpolicy, hlearns, -, hrun⟩ :=
      policyById_cases hsound hrooted hcalm policyId
    · cases hnone.symm.trans hfound
    have hstore := hlearns.still.store
    have hnext := @ih policy after (hlearns.sound hsound) (hlearns.rooted hsound.keyed hrooted)
      (hlearns.still.calm hcalm) (hstore ▸ hintact)
      (hstore ▸ hintact.parent (PolicyTables.links_of_stored hpolicy))
    refine Avoids.bind (fun error herror => ?_) fun value last hlast => ?_
    · rw [hrun] at herror
      cases herror
    · cases hrun.symm.trans hlast
      split
      · exact hnext
      · split
        · exact hnext.bind fun _ _ _ => avoids_pure _
        · exact avoids_pure _
  | case2 => exact avoids_throw not_false

/-! ### Reached sites -/

/-- Anything may happen, but no deletion strands a policy. -/
def Rules.careful : Rules :=
  ⟨fun site request => ¬ request.Strands site, fun _ => True, fun _ => True⟩

/-- No parent is missing, so no resolution for a stored policy fails to find one if the store does
not fail; and after whatever is asked next, none is missing unless the request strands a policy. -/
structure Whole (site : Site) : Prop where
  intact : site.backend.store.policies.Intact
  resolve {policyId : UInt64} {policy : Policy}
    (stored : site.backend.store.policies.byId? policyId = some policy) (actor : Actor)
    (designation : String) :
    (effectiveAccess policyId actor).gives site ≠ .error (.policyNotFound designation)
  next (now : Timestamp) (request : Request) (room : site.backend.store.HasRoom 2) :
    ((answer now request).perform site).2.backend.store.policies.Intact ↔ ¬ request.Strands site

/-- As long as no deletion strands a policy, no parent is ever missing. -/
theorem Reached.intact (h : site.Reached .careful) : site.backend.store.policies.Intact := by
  induction h with
  | blank config => exact PolicyTables.intact_empty
  | @reopened site after before config done ih =>
    obtain ⟨last, hlearns, rfl⟩ := reloaded_of_load done
    exact hlearns.still.store ▸ ih
  | scheduled _ _ _ _ ih => exact ih
  | answered before room now request asked ih =>
    exact (answer_intact_iff before.sound room before.rooted ih now request).2 asked
  | stepped before policyId step _ ih =>
    rw [(rosterStep_sound before.sound policyId step).2]
    exact ih

theorem Reached.whole (h : site.Reached .careful) : site.Whole := by
  have hsound := h.sound.unfailing
  have hrooted := h.rooted.unfailing
  refine ⟨h.intact, fun hstored actor designation herror => ?_, fun now request room =>
    answer_intact_iff h.sound room h.rooted h.intact now request⟩
  refine avoids_effectiveAccess (fun after hlearns => ?_) AccessError.isBroken_of_isMissing actor _
    herror trivial
  have hstore := hlearns.still.store
  exact avoids_contributorsFrom_of_intact (hlearns.sound hsound)
    (hlearns.rooted hsound.keyed hrooted) (hlearns.still.calm rfl) (hstore ▸ h.intact)
    fun _ => ⟨_, hstore ▸ hstored⟩

/-- Three policies, each of which extends the one before. -/
def shelved : Site :=
  (live ⟨.blank {}, {}⟩ [
    (default, .createPolicy (some "folder") 1 0 none .empty),
    (default, .createPolicy (some "page") 2 1 none .extend),
    (default, .createPolicy (some "note") 3 2 none .extend)]).2

/-- The last one was deleted. -/
def trimmed : Site :=
  ((answer default (.deletePolicy 3)).perform shelved).2

theorem reached_shelved : shelved.Reached .careful :=
  (Reached.blank {}).live (fun site => by
    repeat refine List.forall_mem_cons.2 ⟨not_false, ?_⟩
    exact List.forall_mem_nil _) ⟨by decide +kernel, by decide +kernel⟩

theorem reached_trimmed : trimmed.Reached .careful := by
  refine reached_shelved.answered ⟨by decide +kernel, by decide +kernel⟩ default
    (.deletePolicy 3) ?_
  -- nothing hangs below the note
  rintro ⟨-, childId, hlink⟩
  obtain ⟨child, hchild, hparent⟩ := Option.map_eq_some_iff.1 hlink
  have hnone : ∀ policy ∈ shelved.backend.store.policies.policies.rows, policy.parentId ≠ 3 := by
    decide +kernel
  exact hnone child (Table.mem_rows.2 ⟨childId, hchild⟩) hparent

/-- The owner of the folder has rights on the page as well, and deleting the folder would strand the
page. -/
theorem whole_trimmed : trimmed.Whole ∧
    (effectiveAccess 2 (.user 1)).gives trimmed = .ok .full ∧
      Request.Strands trimmed (.deletePolicy 1) :=
  ⟨reached_trimmed.whole, by decide +kernel, by decide +kernel, 2, by decide +kernel⟩

/-! ### A deletion that strands a policy -/

/-- Policies are created, changed, moved and deleted, over a store that does not fail. -/
def Rules.ofPolicies : Rules :=
  ⟨fun _ request => request.ChangesTree, fun _ => False, fun _ => False⟩

/-- The folder was deleted, and the page that extends it was not. -/
def orphaned : Site :=
  (live ⟨.blank {}, {}⟩ [
    (default, .createPolicy (some "folder") 1 0 none .empty),
    (default, .createPolicy (some "page") 2 1 none .extend),
    (default, .deletePolicy 1)]).2

/-- Not even the owner of the page has rights on it any more. -/
theorem not_intact_orphaned : orphaned.Reached .ofPolicies ∧
    ¬ orphaned.backend.store.policies.Intact ∧
      (effectiveAccess 2 (.user 2)).gives orphaned = .error (.policyNotFound "1") := by
  refine ⟨?_, fun hintact => ?_, by decide +kernel⟩
  · refine (Reached.blank {}).live (fun site => ?_) ⟨by decide +kernel, by decide +kernel⟩
    repeat refine List.forall_mem_cons.2 ⟨trivial, ?_⟩
    exact List.forall_mem_nil _
  · have hlink : orphaned.backend.store.policies.links 2 = some 1 := by decide +kernel
    have hgone : orphaned.backend.store.policies.byId? 1 = none := by decide +kernel
    obtain ⟨parent, hparent⟩ := hintact.parent hlink (by decide)
    cases hgone.symm.trans hparent

end Site

end AccessRights
