/-!
# First-in first-out queues

A queue is kept as its front and, in reverse, its back, so that adding at the end and taking
from the front take constant time over a run of operations. `Fifo.toList` is what a queue
holds, oldest first; every operation is described by what it does to that list.
-/

namespace NextStop

/-- A queue of elements of type `α`. -/
structure Fifo (α : Type) where
  /-- The oldest elements, oldest first. -/
  front : List α
  /-- The newest elements, newest first. -/
  back : List α
  /-- The number of elements. -/
  size : Nat
  size_eq : size = front.length + back.length := by simp

namespace Fifo

variable {α : Type}

/-- The elements, oldest first. -/
def toList (q : Fifo α) : List α := q.front ++ q.back.reverse

/-- The queue without elements. -/
def empty : Fifo α := ⟨[], [], 0, rfl⟩

/-- The queue of the elements of a list, the head being the oldest. -/
def ofList (xs : List α) : Fifo α := ⟨xs, [], xs.length, by simp⟩

/-- Adds an element at the end. -/
def push (q : Fifo α) (a : α) : Fifo α :=
  ⟨q.front, a :: q.back, q.size + 1, by simp [q.size_eq, Nat.add_assoc]⟩

/-- Takes the oldest element. -/
def pop? (q : Fifo α) : Option (α × Fifo α) :=
  match hf : q.front with
  | a :: front =>
    some (a, ⟨front, q.back, q.size - 1, by have := q.size_eq; simp [hf] at this; omega⟩)
  | [] =>
    match hb : q.back.reverse with
    | [] => none
    | a :: front =>
      some (a, ⟨front, [], front.length, by simp⟩)

/-- The oldest element. -/
def head? (q : Fifo α) : Option α := q.pop?.map (·.1)

/-- The elements that satisfy a test, in the same order. -/
def filter (p : α → Bool) (q : Fifo α) : Fifo α := ofList (q.toList.filter p)

/-- Whether there is no element. -/
def isEmpty (q : Fifo α) : Bool := q.size == 0

instance : Inhabited (Fifo α) := ⟨empty⟩

/-! ## What the operations do to the elements -/

@[simp] theorem toList_empty : (empty : Fifo α).toList = [] := rfl

@[simp] theorem toList_ofList (xs : List α) : (ofList xs).toList = xs := by
  simp [ofList, toList]

@[simp] theorem toList_push (q : Fifo α) (a : α) : (q.push a).toList = q.toList ++ [a] := by
  simp [push, toList]

@[simp] theorem toList_filter (p : α → Bool) (q : Fifo α) :
    (q.filter p).toList = q.toList.filter p := by
  simp [filter]

@[simp] theorem length_toList (q : Fifo α) : q.toList.length = q.size := by
  simp [toList, q.size_eq]

theorem pop?_eq_none_iff (q : Fifo α) : q.pop? = none ↔ q.toList = [] := by
  unfold pop? toList
  split
  · simp_all
  · split <;> simp_all

theorem toList_of_pop? {q rest : Fifo α} {a : α} (h : q.pop? = some (a, rest)) :
    q.toList = a :: rest.toList := by
  unfold pop? at h
  split at h
  · rename_i a' front hf
    obtain ⟨rfl, rfl⟩ := by simpa using h
    simp [toList, hf]
  · rename_i hf
    split at h
    · simp at h
    · rename_i a' front hb
      obtain ⟨rfl, rfl⟩ := by simpa using h
      simp [toList, hf, hb]

theorem size_of_pop? {q rest : Fifo α} {a : α} (h : q.pop? = some (a, rest)) :
    q.size = rest.size + 1 := by
  rw [← length_toList, toList_of_pop? h, ← length_toList rest]; rfl

end Fifo

end NextStop
