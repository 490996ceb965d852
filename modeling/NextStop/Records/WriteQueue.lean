import NextStop.Fifo
import NextStop.Records.Record
import NextStop.Scalar

/-!
# The queue of records to be written

A bounded queue that never blocks. Records leave it in the order in which they came. When it is
full, a new record takes the place of the oldest record of the lowest rank in the queue, if that
rank is lower than its own; otherwise the new record is refused. Either way one record is lost,
and counted.

There is one lane for each rank. Serial numbers tell the order across lanes.
-/

namespace NextStop

/-- Records that wait to be written. -/
structure WriteQueue (α : Type) where
  capacity : Nat
  lanes : Vector (Fifo (Nat × Record α)) 6
  /-- The number of records in all lanes. -/
  size : Nat
  nextSerial : Nat
  /-- The number of records lost. -/
  dropped : Nat

namespace WriteQueue

variable {α : Type}

/-- A queue without records; it has room for at least one. -/
def empty (capacity : Nat) : WriteQueue α :=
  ⟨max capacity 1, Vector.replicate _ Fifo.empty, 0, 0, 0⟩

/-- The lowest rank of a waiting record. -/
def lowestRank? (q : WriteQueue α) : Option Rank :=
  (List.finRange 6).find? fun i => !q.lanes[i].isEmpty

/-- Takes the oldest record out of a lane. -/
def popLane? (q : WriteQueue α) (i : Rank) : Option (Record α × WriteQueue α) :=
  (q.lanes[i].pop?).map fun (entry, rest) =>
    (entry.2, { q with lanes := q.lanes.set i rest, size := q.size - 1 })

/-- The serial numbers of the oldest records of the lanes, with the lanes. -/
def heads (q : WriteQueue α) : List (Nat × Rank) :=
  (List.finRange 6).filterMap fun i => (q.lanes[i].head?).map fun entry => (entry.1, i)

/-- The pair with the least serial number. -/
def least? : List (Nat × Rank) → Option (Nat × Rank)
  | [] => none
  | x :: xs =>
    match least? xs with
    | none => some x
    | some y => if x.1 ≤ y.1 then some x else some y

/-- The lane whose oldest record is the oldest of all. -/
def oldestLane? (q : WriteQueue α) : Option Rank := (least? q.heads).map (·.2)

/-- Takes out the oldest record. -/
def pop? (q : WriteQueue α) : Option (Record α × WriteQueue α) :=
  q.oldestLane?.bind q.popLane?

/-- Puts a record at the end of its lane. -/
def push (q : WriteQueue α) (r : Record α) : WriteQueue α :=
  { q with
    lanes := q.lanes.set r.rank (q.lanes[r.rank].push (q.nextSerial, r))
    size := q.size + 1
    nextSerial := q.nextSerial + 1 }

/-- Counts a lost record. -/
def countLoss (q : WriteQueue α) : WriteQueue α := { q with dropped := q.dropped + 1 }

/-- The queue without the oldest record of a rank. -/
def evict (q : WriteQueue α) (i : Rank) : WriteQueue α :=
  ((q.popLane? i).map (·.2)).getD q

/-- Adds a record, at the cost of one of lower rank if the queue is full. -/
def append (q : WriteQueue α) (r : Record α) : WriteQueue α :=
  if q.size < q.capacity then q.push r
  else
    match q.lowestRank? with
    | none => q.countLoss
    | some lowest => if lowest < r.rank then ((q.evict lowest).push r).countLoss else q.countLoss

/-- Takes out up to `max` records, oldest first. -/
def drain (q : WriteQueue α) : Nat → List (Record α) × WriteQueue α
  | 0 => ([], q)
  | n + 1 =>
    match q.pop? with
    | none => ([], q)
    | some (r, q) =>
      let (rs, q) := q.drain n
      (r :: rs, q)

/-- How full the queue is, one being full. -/
def level [Scalar α] (q : WriteQueue α) : α := Scalar.ofNat q.size / Scalar.ofNat q.capacity

end WriteQueue

end NextStop
