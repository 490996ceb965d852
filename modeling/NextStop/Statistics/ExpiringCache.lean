import NextStop.Fifo
import NextStop.Time
import Std.Data.TreeMap

/-!
# Caches that are bounded and expire

A cache keeps at most `capacity` entries, and an entry counts only for `lifetime` milliseconds
after it was written. Entries leave in the order of their writes, the oldest write first.

Every write gets a generation, and `order` queues the pairs of key and generation. Writing a key
again leaves its earlier pair in the queue, where it is stale: its generation is no longer that
of the entry. Stale pairs are dropped when they reach the front, and all at once when the queue
has grown to more than twice the entries and 64, so that a key that is written over and over
does not fill the queue.
-/

namespace NextStop

namespace ExpiringCache

/-- What a cache keeps for a key. -/
structure Entry (β : Type) where
  value : β
  written : Int
  generation : Nat

/-- How long ago an entry was written, as far as 64 bits tell. -/
def Entry.age {β : Type} (e : Entry β) (now : Int) : Int := Time.wrap (now - e.written)

end ExpiringCache

/-- A bounded table whose entries expire. -/
structure ExpiringCache (κ β : Type) [Ord κ] where
  capacity : Nat
  /-- How long after its write an entry is live, in milliseconds. -/
  lifetime : Int
  entries : Std.TreeMap κ (ExpiringCache.Entry β)
  /-- The writes in their order, stale ones included. -/
  order : Fifo (κ × Nat)
  nextGeneration : Nat

namespace ExpiringCache

variable {κ β : Type} [Ord κ]

/-- A cache without entries; it has room for at least one. -/
def empty (capacity : Nat) (lifetime : Int) : ExpiringCache κ β :=
  ⟨max capacity 1, lifetime, ∅, Fifo.empty, 0⟩

/-- Whether an entry has not expired. -/
def isLive (c : ExpiringCache κ β) (now : Int) (e : Entry β) : Bool :=
  e.age now ≤ c.lifetime

/-- The entry of a key, unless it has expired. -/
def entry? (c : ExpiringCache κ β) (now : Int) (k : κ) : Option (Entry β) :=
  (c.entries[k]?).filter (c.isLive now)

/-- The value of a key, unless it has expired. -/
def get? (c : ExpiringCache κ β) (now : Int) (k : κ) : Option β :=
  (c.entry? now k).map Entry.value

/-- The keys whose entries have not expired, in ascending order. -/
def keys (c : ExpiringCache κ β) (now : Int) : List κ :=
  (c.entries.toList.filter fun p => c.isLive now p.2).map (·.1)

/-- The number of entries, expired ones included. -/
def size (c : ExpiringCache κ β) : Nat := c.entries.size

/-- Whether a queued write is still the last one of its key. -/
def isCurrent (c : ExpiringCache κ β) (w : κ × Nat) : Bool :=
  match c.entries[w.1]? with
  | some e => e.generation == w.2
  | none => false

/-- Whether the entry of the oldest write has to go: it has expired, or there are too many. -/
def mustGo (c : ExpiringCache κ β) (now : Int) (k : κ) : Bool :=
  (c.entry? now k).isNone || c.capacity < c.entries.size

/-- Takes writes from the front of the queue: stale ones, and then those whose entries have to
go, with their entries. -/
def evict (c : ExpiringCache κ β) (now : Int) : ExpiringCache κ β :=
  match h : c.order.pop? with
  | none => c
  | some (w, rest) =>
    have : rest.size < c.order.size := by have := Fifo.size_of_pop? h; omega
    if !c.isCurrent w then evict { c with order := rest } now
    else if c.mustGo now w.1 then
      evict { c with order := rest, entries := c.entries.erase w.1 } now
    else c
termination_by c.order.size

/-- Drops all stale writes once the queue is long against the entries. -/
def compact (c : ExpiringCache κ β) : ExpiringCache κ β :=
  if 2 * c.entries.size + 64 < c.order.size then
    { c with order := c.order.filter c.isCurrent }
  else c

/-- Writes a value, in place of an earlier one of the key. -/
def put (c : ExpiringCache κ β) (now : Int) (k : κ) (v : β) : ExpiringCache κ β :=
  compact <| evict { c with
    entries := c.entries.insert k ⟨v, now, c.nextGeneration⟩
    order := c.order.push (k, c.nextGeneration)
    nextGeneration := c.nextGeneration + 1 } now

/-- Takes the entry of a key out and writes what a function makes of its value, if it was
live. -/
def update (c : ExpiringCache κ β) (now : Int) (k : κ) (f : Option β → β) :
    ExpiringCache κ β :=
  put { c with entries := c.entries.erase k } now k (f (c.get? now k))

end ExpiringCache

end NextStop
