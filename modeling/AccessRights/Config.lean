/-
AccessRights/Config.lean

The settings of a node: whether resolved rights are cached, and how many.
-/

namespace AccessRights

/-- The settings of the cache of resolved rights. -/
structure CacheConfig where
  enabled : Bool := true
  /-- The number of entries; zero counts as one. -/
  capacity : UInt64 := 10000
deriving DecidableEq, Inhabited

/-- The settings of a node. -/
structure Config where
  cache : CacheConfig := {}
deriving DecidableEq, Inhabited

/-- The same settings without the cache. -/
def Config.withoutCache (config : Config) : Config :=
  { config with cache := { config.cache with enabled := false } }

end AccessRights
