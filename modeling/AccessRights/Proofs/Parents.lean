/-
AccessRights/Proofs/Parents.lean

Parent links, whatever they link.

Policies and groups hang below others by the number of a parent, so each of
them has at most one link, and following the links from it gives a chain.  A
chain may end at the number zero, which stands for "no parent", or at a number
that nothing has, or it may never end and run in a circle.  `Links.Ends` rules
circles out, and a `Links.Line` is a chain that ends at zero.

No circle comes about when a link is dropped, or when one is made to lead to
where no chain comes back from.  That is all that ever happens to links.

Main results: `Ends.relink`, `Ends.not_cyclic` and `Ends.exists_line`.
-/
import AccessRights.Proofs.View
import AccessRights.Trail
import Mathlib.Logic.Relation
import Mathlib.Order.WellFounded

namespace AccessRights

/-- Where the parent link of each number leads, if it has one. -/
abbrev Links := UInt64 → Option UInt64

namespace Links

variable {links later : Links} {id next other : UInt64} {line : List UInt64}

/-! ### Chains -/

/-- The second number is on the chain that begins with the first one. -/
def Chain (links : Links) : UInt64 → UInt64 → Prop :=
  Relation.ReflTransGen fun id next => links id = some next

/-- The links lead from one number to another, by one step or more. -/
def Leads (links : Links) : UInt64 → UInt64 → Prop :=
  Relation.TransGen fun id next => links id = some next

/-- The links lead from a number back to it. -/
def Cyclic (links : Links) (id : UInt64) : Prop :=
  links.Leads id id

/-- Every chain ends. -/
def Ends (links : Links) : Prop :=
  WellFounded fun next id => links id = some next

theorem chain_iff_of_link (h : links id = some next) :
    links.Chain id other ↔ id = other ∨ links.Chain next other := by
  constructor
  · intro hchain
    obtain rfl | ⟨after, hafter, hrest⟩ := hchain.cases_head
    · exact .inl rfl
    · cases h.symm.trans hafter
      exact .inr hrest
  · rintro (rfl | hrest)
    · exact .refl
    · exact .head h hrest

/-- A number without a link is the end of its chain. -/
theorem chain_iff_of_none (h : links id = none) : links.Chain id other ↔ id = other := by
  constructor
  · intro hchain
    obtain rfl | ⟨after, hafter, -⟩ := hchain.cases_head
    · rfl
    · cases h.symm.trans hafter
  · rintro rfl
    exact .refl

/-- Where no link leads, no chain comes. -/
theorem not_chain_of_unlinked (h : ∀ other, links other ≠ some id) (hne : next ≠ id) :
    ¬ links.Chain next id := by
  intro hchain
  obtain heq | ⟨last, -, hlast⟩ := hchain.cases_tail
  · exact hne heq.symm
  · exact h last hlast

/-! ### Links without circles -/

theorem Ends.not_cyclic (h : links.Ends) (id : UInt64) : ¬ links.Cyclic id := by
  intro hcyclic
  have hends : WellFounded (Relation.TransGen fun next id => links id = some next) := h.transGen
  exact hends.irrefl.irrefl id (Relation.transGen_swap.2 hcyclic)

/-- Links end as long as the one link that is changed, or dropped, closes no circle. -/
theorem Ends.relink (h : links.Ends) (id : UInt64)
    (hsame : ∀ other, id ≠ other → later other = links other)
    (hclear : ∀ next, later id = some next → ¬ links.Chain next id) : later.Ends := by
  -- a chain that does not come past the number is what it was
  have hpast (other : UInt64) (hother : ¬ links.Chain other id) :
      Acc (fun next id => later id = some next) other := by
    induction other using h.induction with
    | _ other ih =>
      refine ⟨_, fun next hnext => ?_⟩
      have hne : id ≠ other := fun heq => hother (heq ▸ .refl)
      rw [hsame other hne] at hnext
      exact ih next hnext fun hchain => hother (.head hnext hchain)
  refine ⟨fun other => ?_⟩
  induction other using h.induction with
  | _ other ih =>
    refine ⟨_, fun next hnext => ?_⟩
    by_cases heq : id = other
    · subst heq
      exact hpast next (hclear next hnext)
    · rw [hsame other heq] at hnext
      exact ih next hnext

/-! ### Lines -/

/-- The numbers on a chain that ends at zero, which is left out. -/
inductive Line (links : Links) : UInt64 → List UInt64 → Prop
  | root : Line links 0 []
  | step {id next : UInt64} {line : List UInt64} (nonzero : id ≠ 0) (link : links id = some next)
      (above : Line links next line) : Line links id (id :: line)

theorem Line.mono (hle : ∀ {id next : UInt64}, links id = some next → later id = some next)
    (h : links.Line id line) : later.Line id line := by
  induction h with
  | root => exact .root
  | step nonzero link _ ih => exact .step nonzero (hle link) ih

/-- A line begins at zero or with a link. -/
theorem Line.linked (h : links.Line id line) : id = 0 ∨ ∃ next, links id = some next := by
  cases h with
  | root => exact .inl rfl
  | step _ link _ => exact .inr ⟨_, link⟩

/-- Unless it is zero, the number at which a line begins is on it. -/
theorem Line.head_mem (h : links.Line id line) (hid : id ≠ 0) : id ∈ line := by
  cases h with
  | root => exact absurd rfl hid
  | step => exact List.mem_cons_self

theorem Line.mem_iff (h : links.Line id line) (hzero : links 0 = none) :
    other ∈ line ↔ other ≠ 0 ∧ links.Chain id other := by
  induction h with
  | root =>
    rw [chain_iff_of_none hzero]
    constructor
    · intro hmem
      cases hmem
    · rintro ⟨hne, rfl⟩
      exact absurd rfl hne
  | @step id next line nonzero link above ih =>
    rw [List.mem_cons, ih, chain_iff_of_link link]
    constructor
    · rintro (rfl | ⟨hne, hchain⟩)
      · exact ⟨nonzero, .inl rfl⟩
      · exact ⟨hne, .inr hchain⟩
    · rintro ⟨hne, rfl | hchain⟩
      · exact .inl rfl
      · exact .inr ⟨hne, hchain⟩

/-- Where no chain runs in a circle, a line has no repetition. -/
theorem Line.nodup (h : links.Line id line) (hends : links.Ends) (hzero : links 0 = none) :
    line.Nodup := by
  induction h with
  | root => exact .nil
  | @step id next line nonzero link above ih =>
    refine List.nodup_cons.2 ⟨fun hmem => hends.not_cyclic id ?_, ih⟩
    exact .head' link ((above.mem_iff hzero).1 hmem).2

/-- Where every link leads to zero or to a number with a link, all chains end at zero. -/
theorem Ends.exists_line (h : links.Ends)
    (hlinked : ∀ {id next : UInt64}, links id = some next → next ≠ 0 →
      ∃ after, links next = some after)
    (hnonzero : id ≠ 0) (hlink : links id = some next) : ∃ line, links.Line id line := by
  induction id using h.induction generalizing next with
  | _ id ih =>
    by_cases hroot : next = 0
    · subst hroot
      exact ⟨_, .step hnonzero hlink .root⟩
    · obtain ⟨after, hafter⟩ := hlinked hlink hroot
      obtain ⟨line, hline⟩ := ih next hlink hroot hafter
      exact ⟨_, .step hnonzero hlink hline⟩

end Links

/-! ### Trails of walks along links -/

namespace Links

variable {links : Links} {id next : UInt64} {trail : Trail}

/-- The links lead from every number on the trail to where the walk is now. -/
def Follows (links : Links) (trail : Trail) (id : UInt64) : Prop :=
  ∀ passed ∈ trail, links.Leads passed id

theorem follows_empty (links : Links) (id : UInt64) : links.Follows .empty id :=
  fun passed hmem => absurd hmem (Trail.not_mem_empty passed)

/-- Where there are no circles, a walk comes past no number twice. -/
theorem Follows.fresh (h : links.Follows trail id) (hends : links.Ends) : id ∉ trail :=
  fun hmem => hends.not_cyclic id (h id hmem)

theorem Follows.add (h : links.Follows trail id) (hlink : links id = some next)
    (fresh : id ∉ trail) : links.Follows (trail.add id fresh) next := by
  intro passed hmem
  obtain rfl | hmem := Trail.mem_add.1 hmem
  · exact .single hlink
  · exact (h passed hmem).tail hlink

end Links

/-! ### The links of policies -/

namespace View

/-- The parent links of the policies that a view shows. -/
def policyLinks (view : View) : Links := fun id =>
  (view.policy? id).map Policy.parentId

variable {view other : View}

theorem policyLinks_mono (hle : view.Le other) {id next : UInt64}
    (h : view.policyLinks id = some next) : other.policyLinks id = some next := by
  obtain ⟨policy, hpolicy, hnext⟩ := Option.map_eq_some_iff.1 h
  exact Option.map_eq_some_iff.2 ⟨policy, hle.policy hpolicy, hnext⟩

end View

end AccessRights
