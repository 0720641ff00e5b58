/-!
# Configuration

The numbers a store is set up with. They bound what stays open, and they stand in where a
request does not say how much it wants.

## Main definitions

* `Config`: The settings, with their defaults.
-/

namespace DocSearch

/-- The settings of a store. -/
structure Config where
  /-- How many scrolls stay open before the oldest one is closed. Zero counts as one. -/
  scrollCapacity : Nat := 20
  /-- The size of a page where the request gives none. -/
  defaultPageSize : Nat := 10
  /-- The number of buckets where the aggregation gives none. -/
  defaultBucketSize : Nat := 10
  /-- The length of generated identifiers. -/
  identifierLength : Nat := 20
  deriving DecidableEq

end DocSearch
