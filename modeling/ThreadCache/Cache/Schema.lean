/-!
# Schema versions

Which steps bring the layout of a cache up to date.
-/

namespace ThreadCache.Cache.Schema

/-- The versions of the layout, the oldest first. -/
def versions : List Int32 := [1]

def current : Int32 := 1

def needsMigration (version : Int32) : Bool := version < current

/-- The versions that a cache of a version has yet to go through. -/
def pending (version : Int32) : List Int32 := versions.filter fun v => version < v

end ThreadCache.Cache.Schema
