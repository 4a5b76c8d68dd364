/-
AccessRights/Proofs/Caching.lean

The cache of resolved rights on its own, under any steps.

A cache is asked, filled and cleared, and the counter that it is bound to is
raised, in any order.  An answer was put at the generation at which it is given
out, so it is the latest one that was accepted, and the counter has stood since.
Entries of an earlier generation linger until they are asked for or swept; one of
the current generation goes only when it is replaced, when the cache is cleared,
or when an answer is put while current entries alone fill the cache.

The counter is a word of 64 bits.  It has to come round before it shows the
generation of an older entry again, which takes 2^64 changes; the counts of the
questions are words as well and add up as words do.

Main results: `Past.entry_of_perform` and `kept_perform` (what a step does to an entry),
`size_perform` and `tallied_perform` (to the size and the counts), `dependable_run` (a run).
-/
import AccessRights.RightsCache
import Mathlib.Data.List.Basic
import Mathlib.Data.List.Induction

namespace AccessRights

/-! ### Single calls -/

namespace RightsCache

variable {cache : RightsCache} {now stamp : Generation} {question other : RightsQuestion}
  {rights : Rights} {entry : CachedRights}

theorem size_get_le (cache : RightsCache) (now : Generation) (question : RightsQuestion) :
    (cache.get now question).2.entries.size ≤ cache.entries.size := by
  unfold get
  split
  · split
    · exact Nat.le_refl _
    · exact Std.ExtTreeMap.size_erase_le
  · exact Nat.le_refl _

/-- The counts show that so many questions were asked, up to multiples of 2^64. -/
def Tallied (cache : RightsCache) (asked : Nat) : Prop :=
  ∃ hits misses stale : Nat, hits + misses + stale = asked ∧ cache.hits = .ofNat hits ∧
    cache.misses = .ofNat misses ∧ cache.stale = .ofNat stale

/-- Every question is counted once. -/
theorem Tallied.get {asked : Nat} (h : cache.Tallied asked) :
    (cache.get now question).2.Tallied (asked + 1) := by
  obtain ⟨hits, misses, stale, rfl, hhits, hmisses, hstale⟩ := h
  have hraise (count : Nat) : UInt64.ofNat count + 1 = .ofNat (count + 1) :=
    (UInt64.ofNat_add count 1).symm
  unfold RightsCache.get
  split
  · split
    · exact ⟨hits + 1, misses, stale, by omega, hhits ▸ hraise hits, hmisses, hstale⟩
    · exact ⟨hits, misses, stale + 1, by omega, hhits, hmisses, hstale ▸ hraise stale⟩
  · exact ⟨hits, misses + 1, stale, by omega, hhits, hmisses ▸ hraise misses, hstale⟩

/-- Storing an answer counts no question. -/
theorem Tallied.put {asked : Nat} (h : cache.Tallied asked) :
    (cache.put now question rights stamp).Tallied asked := by
  unfold RightsCache.put
  split
  · exact h
  · dsimp only
    split <;> exact h

/-- The counts add up to the number of questions, as words do. -/
theorem Tallied.add {asked : Nat} (h : cache.Tallied asked) :
    cache.hits + cache.misses + cache.stale = .ofNat asked := by
  obtain ⟨hits, misses, stale, rfl, hhits, hmisses, hstale⟩ := h
  rw [hhits, hmisses, hstale, UInt64.ofNat_add, UInt64.ofNat_add]

/-- Below 2^64 questions the counts are exact. -/
theorem Tallied.exact {asked : Nat} (h : cache.Tallied asked) (hbound : asked < UInt64.size) :
    cache.hits.toNat + cache.misses.toNat + cache.stale.toNat = asked := by
  obtain ⟨hits, misses, stale, rfl, hhits, hmisses, hstale⟩ := h
  rw [hhits, hmisses, hstale, UInt64.toNat_ofNat_of_lt' (by omega),
    UInt64.toNat_ofNat_of_lt' (by omega), UInt64.toNat_ofNat_of_lt' (by omega)]

/-- A question drops no entry of the current generation. -/
theorem entry_get (h : cache.entries[other]? = some entry) (hentry : entry.generation = now) :
    (cache.get now question).2.entries[other]? = some entry := by
  unfold get
  split
  · rename_i found hfound
    split
    · exact h
    · rename_i hnow
      rw [lookup_erase, if_neg, h]
      rintro rfl
      exact hnow (Option.some.inj (hfound.symm.trans h) ▸ hentry)
  · exact h

/-- After making room there is room. -/
theorem size_evict_lt (hcapacity : 0 < cache.capacity) :
    (cache.evict now).entries.size < cache.capacity := by
  unfold evict
  dsimp only
  split
  · assumption
  · simpa using hcapacity

/-- Making room spares the entries of the current generation, unless they fill the cache. -/
theorem entry_evict (h : cache.entries[other]? = some entry) (hentry : entry.generation = now)
    (hroom : (cache.entries.filter fun _ entry => entry.generation == now).size < cache.capacity) :
    (cache.evict now).entries[other]? = some entry := by
  unfold evict
  dsimp only
  rw [if_pos hroom, Std.ExtTreeMap.getElem?_filter]
  exact Option.pfilter_eq_some_iff.2 ⟨h, by simpa using hentry⟩

/-- A cache that is full makes room before it takes another entry. -/
theorem size_put_le (hcapacity : 0 < cache.capacity) (hsize : cache.entries.size ≤ cache.capacity) :
    (cache.put now question rights stamp).entries.size ≤ cache.capacity := by
  unfold put
  split
  · exact hsize
  · dsimp only
    refine Nat.le_trans Std.ExtTreeMap.size_insert_le ?_
    split
    · assumption
    · exact size_evict_lt hcapacity

/-- An answer that is stored is what is found. -/
theorem entry_put_self : (cache.put now question rights now).entries[question]? =
    some ⟨rights, now⟩ := by
  unfold put
  rw [if_neg (not_not_intro rfl), lookup_insert, if_pos rfl]

/-- Storing an answer drops no other entry of the current generation, unless these fill the
cache. -/
theorem entry_put (h : cache.entries[other]? = some entry) (hentry : entry.generation = now)
    (hother : stamp = now → question ≠ other)
    (hroom : stamp = now →
      (cache.entries.filter fun _ entry => entry.generation == now).size < cache.capacity) :
    (cache.put now question rights stamp).entries[other]? = some entry := by
  unfold put
  split
  · exact h
  · rename_i hstamp
    have hstamp : stamp = now := Decidable.not_not.1 hstamp
    dsimp only
    rw [lookup_insert, if_neg (hother hstamp)]
    split
    · exact h
    · exact entry_evict h hentry (hroom hstamp)

end RightsCache

/-! ### Runs -/

/-- The step is a question. -/
def CacheStep.asks : CacheStep → Bool
  | .get _ => true
  | _ => false

/-- The step raises the counter. -/
def CacheStep.raises : CacheStep → Bool
  | .bump => true
  | _ => false

namespace CountedCache

/-- A new cache, bound to a counter that has been raised so often. -/
def ofCapacity (changes capacity : Nat) : CountedCache :=
  ⟨changes, .ofCapacity capacity⟩

/-- Performs steps in turn. -/
def run (start : CountedCache) (steps : List CacheStep) : CountedCache :=
  steps.foldl (fun counted step => (counted.perform step).2) start

theorem run_concat (start : CountedCache) (steps : List CacheStep) (step : CacheStep) :
    start.run (steps ++ [step]) = ((start.run steps).perform step).2 :=
  List.foldl_concat ..

/-! ### What is said about a step -/

/-- An answer with this stamp is stored. -/
def Accepts (counted : CountedCache) (stamp : Option Generation) : Prop :=
  stamp.getD counted.generation = counted.generation

/-- The entries of the current generation. -/
def current (counted : CountedCache) : Std.ExtTreeMap RightsQuestion CachedRights :=
  counted.cache.entries.filter fun _ entry => entry.generation == counted.generation

/-- The step puts an answer to the question that is stored. -/
def Replaces (counted : CountedCache) (question : RightsQuestion) (step : CacheStep) : Prop :=
  ∃ rights stamp, step = .put question rights stamp ∧ counted.Accepts stamp

/-- The step puts an answer that is stored, and finds `bound` entries or more that are
of the current generation. -/
def Crowds (counted : CountedCache) (bound : Nat) (step : CacheStep) : Prop :=
  ∃ question rights stamp, step = .put question rights stamp ∧ counted.Accepts stamp ∧
    bound ≤ counted.current.size

/-- The latest answer to the question that was stored in the course of the steps is
`rights`, and since then the counter has not been raised nor the cache been cleared. -/
def Stands (start : CountedCache) (question : RightsQuestion) (rights : Rights)
    (steps : List CacheStep) : Prop :=
  ∃ before stamp after, steps = before ++ .put question rights stamp :: after ∧
    (start.run before).Accepts stamp ∧
    ∀ between step rest, after = between ++ step :: rest →
      step ≠ .bump ∧ step ≠ .clear ∧
        ¬ (start.run (before ++ .put question rights stamp :: between)).Replaces question step

variable {counted start : CountedCache} {question : RightsQuestion} {rights : Rights}
  {steps : List CacheStep} {step : CacheStep}

/-! ### Answers that stand -/

/-- An accepted answer stands at first. -/
theorem stands_put {stamp : Option Generation} (h : (start.run steps).Accepts stamp) :
    start.Stands question rights (steps ++ [.put question rights stamp]) := by
  refine ⟨steps, stamp, [], rfl, h, fun between step rest hempty => ?_⟩
  cases between <;> cases hempty

/-- It stands through every step but a change, a clearance, and one that replaces it. -/
theorem Stands.concat (h : start.Stands question rights steps) (hbump : step ≠ .bump)
    (hclear : step ≠ .clear) (hother : ¬ (start.run steps).Replaces question step) :
    start.Stands question rights (steps ++ [step]) := by
  obtain ⟨before, stamp, after, rfl, haccepts, hsince⟩ := h
  refine ⟨before, stamp, after ++ [step], by simp, haccepts, fun between later rest hsplit => ?_⟩
  -- The step in question is the last one, or was among those before it.
  rcases List.eq_nil_or_concat rest with rfl | ⟨rest, last, rfl⟩
  · obtain ⟨rfl, hlast⟩ := List.append_inj' hsplit rfl
    cases hlast
    exact ⟨hbump, hclear, hother⟩
  · refine hsince between later rest ?_
    rw [List.concat_eq_append, ← List.cons_append, ← List.append_assoc] at hsplit
    exact (List.append_inj' hsplit rfl).1

/-! ### What a step does to an entry -/

/-- Every entry is of a generation that the counter has shown, since it had been raised `first`
times. -/
def Past (counted : CountedCache) (first : Nat) : Prop :=
  ∀ (question : RightsQuestion) (entry : CachedRights),
    counted.cache.entries[question]? = some entry →
      ∃ changes : Nat, first ≤ changes ∧ changes ≤ counted.changes ∧
        entry.generation = .after changes

/-- A step counts one change or none. -/
theorem changes_perform (counted : CountedCache) (step : CacheStep) :
    (counted.perform step).2.changes = counted.changes + [step].countP CacheStep.raises := by
  cases step <;> rfl

/-- A step puts no entry with a stamp from before the run, nor one from the future. -/
theorem Past.perform {first : Nat} (h : counted.Past first) (hfirst : first ≤ counted.changes)
    (step : CacheStep) : (counted.perform step).2.Past first := by
  intro question entry hentry
  cases step with
  | get asked => exact h question entry (RightsCache.entry_of_entries_get hentry)
  | put stored rights stamp =>
    rcases RightsCache.entry_of_entries_put hentry with ⟨-, rfl, hstamp⟩ | hentry
    · exact ⟨counted.changes, hfirst, Nat.le_refl _, hstamp⟩
    · exact h question entry hentry
  | bump =>
    obtain ⟨changes, hleast, hmost, hgeneration⟩ := h question entry hentry
    exact ⟨changes, hleast, Nat.le_succ_of_le hmost, hgeneration⟩
  | clear => simp [CountedCache.perform, RightsCache.clear] at hentry

/-- An entry that is of the current generation after a step was put by it, or was of the
current generation before it and neither replaced nor dropped, unless the counter has come
round. -/
theorem Past.entry_of_perform {first : Nat} (h : counted.Past first)
    (hbound : (counted.perform step).2.changes < first + UInt64.size)
    (hentry : (counted.perform step).2.cache.entries[question]? =
      some ⟨rights, (counted.perform step).2.generation⟩) :
    (∃ stamp, step = .put question rights stamp ∧ counted.Accepts stamp) ∨
      counted.cache.entries[question]? = some ⟨rights, counted.generation⟩ ∧
        step ≠ .bump ∧ step ≠ .clear ∧ ¬ counted.Replaces question step := by
  cases step with
  | get asked =>
    refine .inr ⟨RightsCache.entry_of_entries_get hentry, by simp, by simp, ?_⟩
    rintro ⟨_, _, hput, -⟩
    cases hput
  | put stored given stamp =>
    by_cases hreplaces : counted.Accepts stamp ∧ stored = question
    · obtain ⟨haccepts, rfl⟩ := hreplaces
      dsimp only [CountedCache.perform] at hentry
      rw [haccepts, RightsCache.entry_put_self] at hentry
      cases hentry
      exact .inl ⟨stamp, rfl, haccepts⟩
    · rcases RightsCache.entry_of_entries_put hentry with ⟨rfl, -, hstamp⟩ | hentry
      · exact absurd ⟨hstamp, rfl⟩ hreplaces
      · refine .inr ⟨hentry, by simp, by simp, ?_⟩
        rintro ⟨_, _, hput, haccepts⟩
        cases hput
        exact hreplaces ⟨haccepts, rfl⟩
  | bump =>
    -- the counter shows something else than it did when the entry was stored
    obtain ⟨changes, hleast, hmost, hgeneration⟩ := h question _ hentry
    have hlast : counted.changes + 1 < first + UInt64.size := hbound
    have hsame : changes = counted.changes + 1 :=
      Generation.after_inj hgeneration.symm (by omega) (by omega)
    omega
  | clear => simp [CountedCache.perform, RightsCache.clear] at hentry

/-- An entry of the current generation stays as it is, unless it is replaced, the cache is
cleared, or an answer is stored while the entries of the current generation fill the cache. -/
theorem kept_perform {entry : CachedRights} (h : counted.cache.entries[question]? = some entry)
    (hentry : entry.generation = counted.generation) (step : CacheStep) :
    (counted.perform step).2.cache.entries[question]? = some entry ∨
      counted.Replaces question step ∨ step = .clear ∨
        counted.Crowds counted.cache.capacity step := by
  by_cases hreplaces : counted.Replaces question step
  · exact .inr (.inl hreplaces)
  by_cases hcrowds : counted.Crowds counted.cache.capacity step
  · exact .inr (.inr (.inr hcrowds))
  cases step with
  | get asked => exact .inl (RightsCache.entry_get h hentry)
  | put stored given stamp =>
    refine .inl (RightsCache.entry_put h hentry ?_ fun hstamp => ?_)
    · rintro hstamp rfl
      exact hreplaces ⟨given, stamp, rfl, hstamp⟩
    · refine Nat.lt_of_not_le fun hfull => ?_
      exact hcrowds ⟨stored, given, stamp, rfl, hstamp, hfull⟩
  | bump => exact .inl h
  | clear => exact .inr (.inr (.inl rfl))

/-! ### What a step does to the size and the counts -/

/-- No step changes the capacity. -/
theorem capacity_perform (counted : CountedCache) (step : CacheStep) :
    (counted.perform step).2.cache.capacity = counted.cache.capacity := by
  cases step with
  | get asked =>
    dsimp only [perform, RightsCache.get]
    split
    · split <;> rfl
    · rfl
  | put stored given stamp =>
    dsimp only [perform, RightsCache.put]
    split
    · rfl
    · dsimp only
      split <;> rfl
  | bump => rfl
  | clear => rfl

/-- No step leaves more entries than the capacity. -/
theorem size_perform (hcapacity : 0 < counted.cache.capacity)
    (hsize : counted.cache.entries.size ≤ counted.cache.capacity) (step : CacheStep) :
    (counted.perform step).2.cache.entries.size ≤ counted.cache.capacity := by
  cases step with
  | get asked => exact Nat.le_trans (RightsCache.size_get_le _ _ _) hsize
  | put stored given stamp => exact RightsCache.size_put_le hcapacity hsize
  | bump => exact hsize
  | clear => simp [perform, RightsCache.clear]

/-- Every question is counted once, as a hit, as stale or as a miss. -/
theorem tallied_perform {asked : Nat} (h : counted.cache.Tallied asked) (step : CacheStep) :
    (counted.perform step).2.cache.Tallied (asked + [step].countP CacheStep.asks) := by
  cases step with
  | get question => exact h.get
  | put question rights stamp => exact h.put
  | bump => exact h
  | clear => exact h

/-! ### Runs of a new cache -/

/-- A run counts as many changes as it has steps that raise the count. -/
theorem changes_run (start : CountedCache) (steps : List CacheStep) :
    (start.run steps).changes = start.changes + steps.countP CacheStep.raises := by
  induction steps using List.reverseRecOn with
  | nil => rfl
  | append_singleton steps step ih =>
    rw [run_concat, changes_perform, ih, List.countP_append, Nat.add_assoc]

theorem past_run (h : start.Past start.changes) (steps : List CacheStep) :
    (start.run steps).Past start.changes := by
  induction steps using List.reverseRecOn with
  | nil => exact h
  | append_singleton steps step ih =>
    rw [run_concat]
    exact ih.perform (changes_run start steps ▸ Nat.le_add_right _ _) step

theorem capacity_run (start : CountedCache) (steps : List CacheStep) :
    (start.run steps).cache.capacity = start.cache.capacity := by
  induction steps using List.reverseRecOn with
  | nil => rfl
  | append_singleton steps step ih => rw [run_concat, capacity_perform, ih]

/-- The entries of the current generation are answers that stand. -/
theorem stands_of_entry (hempty : start.cache.entries = ∅) {steps : List CacheStep}
    (hraised : steps.countP CacheStep.raises < UInt64.size)
    (hentry : (start.run steps).cache.entries[question]? =
      some ⟨rights, (start.run steps).generation⟩) : start.Stands question rights steps := by
  induction steps using List.reverseRecOn with
  | nil =>
    change start.cache.entries[question]? = _ at hentry
    simp [hempty] at hentry
  | append_singleton steps step ih =>
    have hpast : start.Past start.changes := fun _ _ h => by simp [hempty] at h
    have hbound : ((start.run steps).perform step).2.changes < start.changes + UInt64.size := by
      rw [← run_concat, changes_run]
      exact Nat.add_lt_add_left hraised _
    have hless : steps.countP CacheStep.raises < UInt64.size :=
      Nat.lt_of_le_of_lt (List.countP_append ▸ Nat.le_add_right _ _) hraised
    rw [run_concat] at hentry
    rcases (past_run hpast steps).entry_of_perform hbound hentry with
      ⟨stamp, rfl, haccepts⟩ | ⟨hentry, hbump, hclear, hother⟩
    · exact stands_put haccepts
    · exact (ih hless hentry).concat hbump hclear hother

/-- A cache never holds more entries than its capacity. -/
theorem size_run (hcapacity : 0 < start.cache.capacity) (hempty : start.cache.entries = ∅)
    (steps : List CacheStep) : (start.run steps).cache.entries.size ≤ start.cache.capacity := by
  induction steps using List.reverseRecOn with
  | nil =>
    change start.cache.entries.size ≤ _
    simp [hempty]
  | append_singleton steps step ih =>
    rw [← capacity_run start steps] at hcapacity ih ⊢
    rw [run_concat]
    exact size_perform hcapacity ih step

/-- All questions of a run are accounted for. -/
theorem tallied_run (h : start.cache.Tallied 0) (steps : List CacheStep) :
    (start.run steps).cache.Tallied (steps.countP CacheStep.asks) := by
  induction steps using List.reverseRecOn with
  | nil => exact h
  | append_singleton steps step ih =>
    rw [run_concat, List.countP_append]
    exact tallied_perform ih step

/-- What a cache for `capacity` entries owes its users after the steps: answers that
stand, entries that are not dropped without need, a bounded size, and counts that add up. -/
structure Dependable (start : CountedCache) (capacity : Nat) (steps : List CacheStep) : Prop where
  /-- An answer is the latest that was stored, and nothing changed since. -/
  answers : ∀ question rights,
    ((start.run steps).perform (.get question)).1 = .rights (some rights) →
    start.Stands question rights steps
  /-- An entry of the current generation outlasts every other step. -/
  keeps : ∀ question entry step, (start.run steps).cache.entries[question]? = some entry →
    entry.generation = (start.run steps).generation →
    ((start.run steps).perform step).2.cache.entries[question]? = some entry ∨
      (start.run steps).Replaces question step ∨ step = .clear ∨
        (start.run steps).Crowds (max 1 capacity) step
  bounded : (start.run steps).cache.stats.entries ≤ max 1 capacity
  /-- The counts add up to the number of questions as words do. -/
  counts : (start.run steps).cache.stats.hits + (start.run steps).cache.stats.misses +
    (start.run steps).cache.stats.stale = .ofNat (steps.countP CacheStep.asks)
  /-- Unless there were too many for a word, the counts are exact. -/
  exact : steps.countP CacheStep.asks < UInt64.size →
    (start.run steps).cache.stats.hits.toNat + (start.run steps).cache.stats.misses.toNat +
      (start.run steps).cache.stats.stale.toNat = steps.countP CacheStep.asks

/-- **A cache is dependable**, whatever its capacity and whatever is asked of it and its
counter, as long as the counter does not come round. -/
theorem dependable_run (changes capacity : Nat) {steps : List CacheStep}
    (hraised : steps.countP CacheStep.raises < UInt64.size) :
    (ofCapacity changes capacity).Dependable capacity steps := by
  have hcapacity : (ofCapacity changes capacity).cache.capacity = max 1 capacity := Nat.max_comm _ _
  have hempty : (ofCapacity changes capacity).cache.entries = ∅ := rfl
  have htallied : ((ofCapacity changes capacity).run steps).cache.Tallied _ :=
    tallied_run ⟨0, 0, 0, rfl, rfl, rfl, rfl⟩ steps
  refine ⟨fun question rights hanswer => ?_, fun question entry step h hentry => ?_, ?_,
    htallied.add, htallied.exact⟩
  · refine stands_of_entry hempty hraised (RightsCache.entry_of_get ?_)
    exact CacheAnswer.rights.inj hanswer
  · rw [← hcapacity, ← capacity_run (ofCapacity changes capacity) steps]
    exact kept_perform h hentry step
  · rw [← hcapacity]
    exact size_run (by rw [hcapacity]; omega) hempty steps

/-- The second answer takes the place of the first, and the counter outdates it. -/
def replacing : List CacheStep :=
  [.put ⟨1, .user 7⟩ .view none, .put ⟨1, .user 8⟩ .change none, .get ⟨1, .user 7⟩,
    .get ⟨1, .user 8⟩, .bump, .get ⟨1, .user 8⟩]

theorem dependable_replacing :
    ((ofCapacity 0 1).run replacing).cache.stats = ⟨1, 1, 1, 0, 1⟩ ∧
      (ofCapacity 0 1).Dependable 1 replacing :=
  ⟨by decide +kernel, dependable_run 0 1 (by decide)⟩

end CountedCache

end AccessRights
