/-
AccessRights/RightsCache.lean

The cache of resolved rights.

Whatever resolved rights depend on, every change to it raises one counter,
the generation.  An entry carries the generation at which it was computed
and is served only while that is the current one.

The counter is a word of 64 bits, and so are the counts of a cache: after
2^64 changes an old entry would be current again.

Main definitions: `Generation.after`, `RightsCache.get`, `RightsCache.put`.
-/
import AccessRights.Actor
import AccessRights.Config
import AccessRights.Rights
import AccessRights.Table

namespace AccessRights

/-! ### The counter -/

/-- What a counter of changes shows. -/
abbrev Generation := UInt64

namespace Generation

/-- What a counter shows after so many changes: it starts at zero, each change raises it by
one, and past the last word it starts again. -/
def after (changes : Nat) : Generation :=
  .ofNat changes

theorem toNat_after_le (changes : Nat) : (after changes).toNat ≤ changes := by
  rw [after, UInt64.toNat_ofNat']
  exact Nat.mod_le _ _

/-- Until it has come round, the counter shows the number of changes. -/
theorem toNat_after {changes : Nat} (h : changes < UInt64.size) :
    (after changes).toNat = changes :=
  UInt64.toNat_ofNat_of_lt' h

/-- Only after 2^64 changes does the counter show the same again. -/
theorem after_inj {changes later : Nat} (h : after changes = after later) (hle : changes ≤ later)
    (hlt : later < changes + UInt64.size) : changes = later := by
  have h : changes % UInt64.size = later % UInt64.size := congrArg UInt64.toNat h
  unfold UInt64.size at h hlt
  omega

end Generation

/-! ### Questions -/

/-- A question for the rights of an actor on a policy. -/
structure RightsQuestion where
  policyId : UInt64
  actor : Actor
deriving DecidableEq, Inhabited

namespace RightsQuestion

instance : Ord RightsQuestion :=
  ⟨compareByKeys (fun question => question.policyId) fun question => question.actor⟩

instance : Std.TransOrd RightsQuestion :=
  inferInstanceAs (Std.TransCmp
    (compareByKeys (fun question : RightsQuestion => question.policyId) fun question => question.actor))

instance : Std.LawfulEqOrd RightsQuestion :=
  lawfulEqCmp_byKeys fun a b hpolicyid hactor => by
    cases a
    cases b
    simp_all

end RightsQuestion

/-! ### The cache -/

/-- A computed answer and the generation it was computed at. -/
structure CachedRights where
  rights : Rights
  generation : Generation
deriving DecidableEq, Inhabited

/-- Computed answers, at most `capacity` of them, with counts of the questions that were
answered, that had no entry, and whose entry was outdated. -/
structure RightsCache where
  capacity : Nat
  entries : Std.ExtTreeMap RightsQuestion CachedRights
  hits : UInt64
  misses : UInt64
  stale : UInt64

/-- The counts of a cache together with its size and its bound. -/
structure CacheStats where
  hits : UInt64
  misses : UInt64
  stale : UInt64
  entries : Nat
  maxEntries : Nat
deriving DecidableEq, Inhabited

/-- The part of the questions that were answered, zero when none was asked. -/
def CacheStats.hitRate (stats : CacheStats) : Float :=
  let asked := stats.hits + stats.misses + stats.stale
  if asked = 0 then 0.0 else stats.hits.toFloat / asked.toFloat

namespace RightsCache

/-- An empty cache for at least one entry. -/
def ofCapacity (capacity : Nat) : RightsCache :=
  { capacity := max capacity 1, entries := ∅, hits := 0, misses := 0, stale := 0 }

/-- The cache that the settings ask for, if any. -/
def ofConfig? (config : CacheConfig) : Option RightsCache :=
  if config.enabled then some (ofCapacity config.capacity.toNat) else none

/-- The answer to a question, provided it is of the current generation.  An outdated entry
is dropped. -/
def get (now : Generation) (question : RightsQuestion) (cache : RightsCache) :
    Option Rights × RightsCache :=
  match cache.entries[question]? with
  | some entry =>
    if entry.generation = now then
      (some entry.rights, { cache with hits := cache.hits + 1 })
    else
      (none, { cache with
        entries := cache.entries.erase question, stale := cache.stale + 1 })
  | none => (none, { cache with misses := cache.misses + 1 })

/-- Makes room: outdated entries go first; if that is not enough, all go. -/
def evict (now : Generation) (cache : RightsCache) : RightsCache :=
  let current := cache.entries.filter fun _ entry => entry.generation == now
  { cache with entries := if current.size < cache.capacity then current else ∅ }

/-- Stores an answer computed at the generation `stamp`.  An outdated answer is not stored,
and a full cache makes room first. -/
def put (now : Generation) (question : RightsQuestion) (rights : Rights) (stamp : Generation)
    (cache : RightsCache) : RightsCache :=
  if stamp ≠ now then cache
  else
    let cache := if cache.entries.size < cache.capacity then cache else cache.evict now
    { cache with entries := cache.entries.insert question ⟨rights, stamp⟩ }

/-! ### Where entries come from -/

/-- An answer is that of an entry of the current generation. -/
theorem entry_of_get {now : Generation} {question : RightsQuestion} {rights : Rights}
    {cache : RightsCache} (h : (cache.get now question).1 = some rights) :
    cache.entries[question]? = some ⟨rights, now⟩ := by
  unfold get at h
  split at h
  · rename_i entry hentry
    split at h
    · rename_i hnow
      cases h
      rw [hentry, ← hnow]
    · cases h
  · cases h

/-- Nothing is dropped when there is an answer. -/
theorem entries_get_of_some {now : Generation} {question : RightsQuestion} {rights : Rights}
    {cache : RightsCache} (h : (cache.get now question).1 = some rights) :
    (cache.get now question).2.entries = cache.entries := by
  unfold get at h ⊢
  split at h
  · split at h
    · rename_i hnow
      rw [if_pos hnow]
    · cases h
  · cases h

/-- Looking an answer up adds no entry. -/
theorem entry_of_entries_get {now : Generation} {question other : RightsQuestion}
    {entry : CachedRights} {cache : RightsCache}
    (h : (cache.get now question).2.entries[other]? = some entry) :
    cache.entries[other]? = some entry := by
  unfold get at h
  split at h
  · split at h
    · exact h
    · rw [lookup_erase] at h
      split at h
      · cases h
      · exact h
  · exact h

/-- Making room adds no entry. -/
theorem entry_of_entries_evict {now : Generation} {other : RightsQuestion}
    {entry : CachedRights} {cache : RightsCache}
    (h : (cache.evict now).entries[other]? = some entry) :
    cache.entries[other]? = some entry := by
  unfold evict at h
  dsimp only at h
  split at h
  · rw [Std.ExtTreeMap.getElem?_filter] at h
    exact (Option.pfilter_eq_some_iff.1 h).1
  · simp at h

/-- Storing an answer adds at most one entry, and that is current. -/
theorem entry_of_entries_put {now stamp : Generation} {question other : RightsQuestion}
    {rights : Rights} {entry : CachedRights} {cache : RightsCache}
    (h : (cache.put now question rights stamp).entries[other]? = some entry) :
    (other = question ∧ entry = ⟨rights, stamp⟩ ∧ stamp = now) ∨
      cache.entries[other]? = some entry := by
  unfold put at h
  split at h
  · exact .inr h
  · rename_i hstamp
    have hstamp : stamp = now := Decidable.not_not.1 hstamp
    dsimp only at h
    rw [lookup_insert] at h
    split at h
    · rename_i heq
      cases h
      exact .inl ⟨heq.symm, rfl, hstamp⟩
    · split at h
      · exact .inr h
      · exact .inr (entry_of_entries_evict h)

/-! ### Clearing and counting -/

/-- Drops every entry. -/
def clear (cache : RightsCache) : RightsCache :=
  { cache with entries := ∅ }

/-- The counts of the cache. -/
def stats (cache : RightsCache) : CacheStats :=
  ⟨cache.hits, cache.misses, cache.stale, cache.entries.size, cache.capacity⟩

end RightsCache

/-! ### Steps -/

/-- What can be asked of a cache and its counter, one at a time. -/
inductive CacheStep where
  | get (question : RightsQuestion)
  /-- Without a stamp of its own an answer is stamped with the current generation. -/
  | put (question : RightsQuestion) (rights : Rights) (stamp : Option Generation)
  | bump
  | clear
deriving DecidableEq, Inhabited

/-- What a cache answers to a step. -/
inductive CacheAnswer where
  | done
  | rights (found : Option Rights)
  | generation (now : Generation)
deriving DecidableEq, Inhabited

/-- A cache together with the counter it is bound to. -/
structure CountedCache where
  /-- How often the counter has been raised. -/
  changes : Nat
  cache : RightsCache

/-- What the counter shows. -/
def CountedCache.generation (counted : CountedCache) : Generation :=
  .after counted.changes

/-- Performs a step. -/
def CountedCache.perform (counted : CountedCache) : CacheStep → CacheAnswer × CountedCache
  | .get question =>
    let (found, cache) := counted.cache.get counted.generation question
    (.rights found, { counted with cache })
  | .put question rights stamp =>
    let stamp := stamp.getD counted.generation
    let cache := counted.cache.put counted.generation question rights stamp
    (.done, { counted with cache })
  | .bump =>
    let raised := { counted with changes := counted.changes + 1 }
    (.generation raised.generation, raised)
  | .clear => (.done, { counted with cache := counted.cache.clear })

end AccessRights
