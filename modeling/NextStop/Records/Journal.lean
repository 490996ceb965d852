import NextStop.Records.WriteQueue

/-!
# Journals

Where records go: either all are kept in memory, or they wait in a bounded queue.
-/

namespace NextStop

/-- The records so far. -/
inductive Journal (α : Type) where
  /-- All records, in order. -/
  | kept (records : Array (Record α))
  | queued (queue : WriteQueue α)

namespace Journal

variable {α : Type}

def append (j : Journal α) (r : Record α) : Journal α :=
  match j with
  | kept records => kept (records.push r)
  | queued queue => queued (queue.append r)

/-- Adds records in order. -/
def appendAll (j : Journal α) (rs : List (Record α)) : Journal α := rs.foldl append j

/-- The records in the journal that were not taken out, if all are kept. -/
def records : Journal α → List (Record α)
  | kept records => records.toList
  | queued _ => []

/-- The number of records that wait to be written. -/
def waiting : Journal α → Nat
  | kept _ => 0
  | queued queue => queue.size

/-- How full the queue is; a journal in memory never fills. -/
def level [Scalar α] : Journal α → α
  | kept _ => 0
  | queued queue => queue.level

end Journal

end NextStop
