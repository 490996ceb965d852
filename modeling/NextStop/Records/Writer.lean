import NextStop.Records.WriteQueue

/-!
# The writer of the queue

The writer takes records out of the queue in batches and hands each batch to a sink. It works in
rounds: it looks at the stop flag, takes batches until one is empty, and then waits, either for
new records or for the flag to change. A round that began with the flag set is its last. If the
one who could set the flag is gone, the writer makes one more round and stops.

`Writer.step` is what the writer does on its own, `Writer.wake` what wakes it from waiting. What
producers append in between is seen by the next batch.
-/

namespace NextStop

namespace Writer

/-- The most records that a batch holds. -/
def batchSize : Nat := 500

/-- Where the writer is in its round. -/
inductive Phase where
  /-- About to look at the stop flag. -/
  | looking
  /-- Taking batches; whether the round is the last one. -/
  | taking (last : Bool)
  | waiting
  | stopped
  deriving DecidableEq

/-- What ends the waiting. -/
inductive Wake where
  /-- A record was appended, or the flag changed. -/
  | called
  /-- The one who could set the flag is gone. -/
  | abandoned
  deriving DecidableEq

end Writer

/-- A writer and the batches that it has handed to the sink. -/
structure Writer (α : Type) where
  phase : Writer.Phase
  batches : List (List (Record α))

namespace Writer

variable {α : Type}

/-- A writer that has just started. -/
def start : Writer α := ⟨.looking, []⟩

/-- The records handed to the sink, in order. -/
def written (w : Writer α) : List (Record α) := w.batches.flatten

/-- One step of the writer on its own, the flag being as given. A waiting or stopped writer does
nothing. -/
def step (flag : Bool) (q : WriteQueue α) (w : Writer α) : WriteQueue α × Writer α :=
  match w.phase with
  | .looking => (q, { w with phase := .taking flag })
  | .taking last =>
    match q.drain batchSize with
    | ([], q) => (q, { w with phase := if last then .stopped else .waiting })
    | (batch, q) => (q, { w with batches := w.batches ++ [batch] })
  | .waiting | .stopped => (q, w)

/-- Ends the waiting: with a new round, or with a last one. -/
def wake (cause : Wake) (w : Writer α) : Writer α :=
  match w.phase, cause with
  | .waiting, .called => { w with phase := .looking }
  | .waiting, .abandoned => { w with phase := .taking true }
  | _, _ => w

/-- The writer's steps until it waits or has stopped, at most `fuel` of them. -/
def settle (flag : Bool) : Nat → WriteQueue α → Writer α → WriteQueue α × Writer α
  | 0, q, w => (q, w)
  | fuel + 1, q, w =>
    match w.phase with
    | .waiting | .stopped => (q, w)
    | .looking | .taking _ =>
      let (q, w) := w.step flag q
      settle flag fuel q w

/-- One round: every batch takes at least one record, so the steps are no more than the records
and two. -/
def round (flag : Bool) (q : WriteQueue α) (w : Writer α) : WriteQueue α × Writer α :=
  w.settle flag (q.size + 2) q

end Writer

end NextStop
