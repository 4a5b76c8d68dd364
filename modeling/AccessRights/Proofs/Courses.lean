/-
AccessRights/Proofs/Courses.lean

How far parent links lead, whatever they are.

Links need not make a forest: they may run in a circle, a number may be its own
parent, and a parent may be missing.  Whoever follows them and stops at the first
repetition takes a course: it passes numbers that have links, none of them twice,
and stops at a number that has no link or was passed before.  There is a course
from every number, because there are only finitely many of them, and what it
stops at says how the chain ends.

Main results: `exists_course`, `Course.chain_iff` (a course is the whole chain) and
`Course.circles_iff` (it stops at a repetition exactly if the chain runs into a circle).
-/
import AccessRights.Proofs.Parents

namespace AccessRights

namespace Links

variable {links : Links} {id next last other : UInt64} {line : List UInt64} {trail : Trail}

/-! ### Paths -/

/-- The links lead from a number past those of the line to the last one. -/
inductive Path (links : Links) : UInt64 → List UInt64 → UInt64 → Prop
  | here {id : UInt64} : Path links id [] id
  | step {id next last : UInt64} {line : List UInt64} (link : links id = some next)
      (rest : Path links next line last) : Path links id (id :: line) last

theorem Path.chain (h : links.Path id line last) : links.Chain id last := by
  induction h with
  | here => exact .refl
  | step link _ ih => exact .head link ih

/-- Whatever is passed is on the chain and leads on. -/
theorem Path.of_mem (h : links.Path id line last) (hmem : other ∈ line) :
    links.Chain id other ∧ ∃ next, links other = some next ∧ (next ∈ line ∨ next = last) := by
  induction h with
  | here => cases hmem
  | @step id next last line link rest ih =>
    obtain rfl | hmem := List.mem_cons.1 hmem
    · refine ⟨.refl, next, link, ?_⟩
      cases rest with
      | here => exact .inr rfl
      | step => exact .inl (List.mem_cons_of_mem _ List.mem_cons_self)
    · obtain ⟨hchain, after, hafter, hnear⟩ := ih hmem
      exact ⟨.head link hchain, after, hafter, hnear.imp_left (List.mem_cons_of_mem _)⟩

/-- Whatever is passed leads to the last number. -/
theorem Path.leads (h : links.Path id line last) (hmem : other ∈ line) : links.Leads other last := by
  induction h with
  | here => cases hmem
  | step link rest ih =>
    obtain rfl | hmem := List.mem_cons.1 hmem
    · exact .head' link rest.chain
    · exact ih hmem

/-- Past numbers that are not zero to zero, a path is a line. -/
theorem Path.line_of_zero (h : links.Path id line last) (hlast : last = 0) (hzero : links 0 = none) :
    links.Line id line := by
  induction h with
  | here =>
    subst hlast
    exact .root
  | @step id next last line link rest ih =>
    refine .step ?_ link (ih hlast)
    rintro rfl
    cases hzero.symm.trans link

/-! ### Circles -/

/-- A chain from a circle does not leave it, as every number has one link at most. -/
theorem Cyclic.of_chain (h : links.Cyclic id) (hchain : links.Chain id other) :
    links.Cyclic other := by
  induction hchain with
  | refl => exact h
  | tail _ hlink ih =>
    obtain ⟨next, hnext, hback⟩ := Relation.TransGen.head'_iff.1 ih
    cases hlink.symm.trans hnext
    exact .tail' hback hlink

theorem Cyclic.linked (h : links.Cyclic id) : ∃ next, links id = some next := by
  obtain ⟨next, hnext, -⟩ := Relation.TransGen.head'_iff.1 h
  exact ⟨next, hnext⟩

/-- The chain from a number runs into a circle. -/
def Circles (links : Links) (id : UInt64) : Prop :=
  ∃ other, links.Chain id other ∧ links.Cyclic other

/-! ### Courses -/

/-- The path from a number to the first repetition or the first number without a link. -/
structure Course (links : Links) (id : UInt64) (line : List UInt64) (last : UInt64) : Prop where
  path : links.Path id line last
  nodup : line.Nodup
  stops : last ∈ line ∨ links last = none

/-- What is ahead of a walk that has passed the trail. -/
structure Ahead (links : Links) (trail : Trail) (id : UInt64) (line : List UInt64) (last : UInt64) :
    Prop where
  path : links.Path id line last
  nodup : line.Nodup
  clear : ∀ passed ∈ line, passed ∉ trail
  stops : (last ∈ trail ∨ last ∈ line) ∨ links last = none

theorem ahead_empty_iff : links.Ahead .empty id line last ↔ links.Course id line last := by
  constructor
  · rintro ⟨hpath, hnodup, -, hstops⟩
    exact ⟨hpath, hnodup, hstops.imp_left fun hmem => hmem.resolve_left (Trail.not_mem_empty last)⟩
  · rintro ⟨hpath, hnodup, hstops⟩
    exact ⟨hpath, hnodup, fun passed _ => Trail.not_mem_empty passed, hstops.imp_left .inr⟩

/-- One step further, the number that was left is on the trail instead of the line. -/
theorem mem_add_or_mem {fresh : id ∉ trail} :
    other ∈ trail.add id fresh ∨ other ∈ line ↔ other ∈ trail ∨ other ∈ id :: line := by
  rw [Trail.mem_add, List.mem_cons, or_left_comm, or_assoc]

theorem ahead_nil_iff :
    links.Ahead trail id [] last ↔ id = last ∧ (id ∈ trail ∨ links id = none) := by
  constructor
  · rintro ⟨hpath, -, -, hstops⟩
    cases hpath
    exact ⟨rfl, hstops.imp_left fun hmem => hmem.resolve_right List.not_mem_nil⟩
  · rintro ⟨rfl, hstops⟩
    exact ⟨.here, .nil, List.forall_mem_nil _, hstops.imp_left .inl⟩

theorem ahead_cons_iff {first : UInt64} : links.Ahead trail id (first :: line) last ↔
    first = id ∧ ∃ fresh : id ∉ trail, ∃ next, links id = some next ∧
      links.Ahead (trail.add id fresh) next line last := by
  constructor
  · rintro ⟨hpath, hnodup, hclear, hstops⟩
    cases hpath with
    | step link rest =>
      obtain ⟨hid, hnodup⟩ := List.nodup_cons.1 hnodup
      obtain ⟨fresh, hclear⟩ := List.forall_mem_cons.1 hclear
      refine ⟨rfl, fresh, _, link, rest, hnodup, fun passed hmem => ?_,
        hstops.imp_left mem_add_or_mem.2⟩
      rw [Trail.mem_add, not_or]
      exact ⟨fun heq => hid (heq ▸ hmem), hclear passed hmem⟩
  · rintro ⟨rfl, fresh, next, link, hpath, hnodup, hclear, hstops⟩
    refine ⟨.step link hpath, List.nodup_cons.2 ⟨fun hmem => ?_, hnodup⟩,
      List.forall_mem_cons.2 ⟨fresh, fun passed hmem hpassed => ?_⟩, hstops.imp_left mem_add_or_mem.1⟩
    · exact hclear _ hmem (Trail.mem_add.2 (.inl rfl))
    · exact hclear passed hmem (Trail.mem_add.2 (.inr hpassed))

/-- Wherever a walk is, there is something ahead.  Every step takes a number from those that were
not passed. -/
theorem exists_ahead (links : Links) (trail : Trail) (id : UInt64) :
    ∃ line last, links.Ahead trail id line last := by
  by_cases fresh : id ∉ trail
  · cases hlink : links id with
    | none => exact ⟨[], id, ahead_nil_iff.2 ⟨rfl, .inr hlink⟩⟩
    | some next =>
      obtain ⟨line, last, hahead⟩ := exists_ahead links (trail.add id fresh) next
      exact ⟨id :: line, last, ahead_cons_iff.2 ⟨rfl, fresh, next, hlink, hahead⟩⟩
  · exact ⟨[], id, ahead_nil_iff.2 ⟨rfl, .inl (Decidable.not_not.1 fresh)⟩⟩
termination_by trail.room
decreasing_by exact trail.room_add_lt fresh

theorem exists_course (links : Links) (id : UInt64) : ∃ line last, links.Course id line last := by
  obtain ⟨line, last, hahead⟩ := exists_ahead links .empty id
  exact ⟨line, last, ahead_empty_iff.1 hahead⟩

/-- The chain from a number is what its course passes, and the number that it stops at. -/
theorem Course.chain_iff (h : links.Course id line last) :
    links.Chain id other ↔ other ∈ line ∨ other = last := by
  constructor
  · intro hchain
    induction hchain with
    | refl =>
      cases h.path with
      | here => exact .inr rfl
      | step => exact .inl List.mem_cons_self
    | @tail next other _ hlink ih =>
      -- what is passed leads to what is passed, or to the last number, which leads nowhere else
      have hmem : next ∈ line := by
        obtain hmem | rfl := ih
        · exact hmem
        · exact h.stops.resolve_right fun hnone => by cases hnone.symm.trans hlink
      obtain ⟨-, after, hafter, hnear⟩ := h.path.of_mem hmem
      cases hafter.symm.trans hlink
      exact hnear
  · rintro (hmem | rfl)
    · exact (h.path.of_mem hmem).1
    · exact h.path.chain

/-- A course stops at a repetition exactly if the chain runs into a circle. -/
theorem Course.circles_iff (h : links.Course id line last) : links.Circles id ↔ last ∈ line := by
  constructor
  · rintro ⟨other, hchain, hcyclic⟩
    have hlast : links.Chain other last := by
      obtain hmem | rfl := h.chain_iff.1 hchain
      · exact (h.path.leads hmem).to_reflTransGen
      · exact .refl
    obtain ⟨next, hnext⟩ := (hcyclic.of_chain hlast).linked
    exact h.stops.resolve_right fun hnone => by cases hnone.symm.trans hnext
  · exact fun hmem => ⟨last, h.path.chain, h.path.leads hmem⟩

/-- A chain comes to a number without a link exactly if its course stops there. -/
theorem Course.chain_iff_of_none (h : links.Course id line last) (hnone : links other = none) :
    links.Chain id other ↔ other = last := by
  rw [h.chain_iff]
  refine or_iff_right fun hmem => ?_
  obtain ⟨-, next, hnext, -⟩ := h.path.of_mem hmem
  cases hnone.symm.trans hnext

end Links

end AccessRights
