import Mathlib.Data.List.Basic
import Mathlib.Order.Fin.Basic
import NextStop.Records.WriteQueue

/-!
# The backlog of a queue of records

A queue keeps its records in lanes, one for each rank, and tells their order by serial numbers. Its
backlog is the same as one list, oldest first: `WriteQueue.Holds` says that every lane is the part
of the backlog of its rank. Seen this way a queue is simple. A new record goes to the end, taking
records out takes them from the front, and the record that is given up under pressure is the first
one of the lowest rank.
-/

namespace NextStop

namespace WriteQueue

variable {α : Type}

/-- The lane of a rank. -/
def lane (q : WriteQueue α) (i : Rank) : Fifo (Nat × Record α) := q.lanes.get i

theorem lowestRank?_eq (q : WriteQueue α) :
    q.lowestRank? = (List.finRange 6).find? fun i => !(q.lane i).isEmpty := rfl

theorem heads_eq (q : WriteQueue α) : q.heads =
    (List.finRange 6).filterMap fun i => (q.lane i).head?.map fun entry => (entry.1, i) := rfl

theorem popLane?_eq (q : WriteQueue α) (i : Rank) : q.popLane? i =
    (q.lane i).pop?.map fun (entry, rest) =>
      (entry.2, { q with lanes := q.lanes.set i rest i.isLt, size := q.size - 1 }) := rfl

/-- The waiting records, lane by lane. -/
def records (q : WriteQueue α) : List (Record α) :=
  (List.finRange 6).flatMap fun i => (q.lane i).toList.map Prod.snd

/-- Records with their serial numbers. -/
abbrev Backlog (α : Type) := List (Nat × Record α)

/-- The part of a backlog of one rank. -/
def Backlog.ofRank (b : Backlog α) (i : Rank) : Backlog α := b.filter fun x => x.2.rank == i

namespace Backlog

theorem ofRank_append (b c : Backlog α) (i : Rank) :
    Backlog.ofRank (b ++ c) i = b.ofRank i ++ c.ofRank i :=
  List.filter_append ..

theorem ofRank_cons_self (x : Nat × Record α) (b : Backlog α) :
    Backlog.ofRank (x :: b) x.2.rank = x :: b.ofRank x.2.rank :=
  List.filter_cons_of_pos (by simp)

theorem ofRank_cons_of_ne {x : Nat × Record α} (b : Backlog α) {i : Rank} (h : x.2.rank ≠ i) :
    Backlog.ofRank (x :: b) i = b.ofRank i :=
  List.filter_cons_of_neg (by simpa using h)

theorem ofRank_eq_nil_iff {b : Backlog α} {i : Rank} :
    b.ofRank i = [] ↔ ∀ x ∈ b, x.2.rank ≠ i := by
  simp [ofRank, List.filter_eq_nil_iff]

/-- The parts of a backlog of some ranks hold, together, what it has of these ranks. -/
theorem flatMap_ofRank_perm (b : Backlog α) {ranks : List Rank} (h : ranks.Nodup) :
    (ranks.flatMap b.ofRank).Perm (b.filter fun x => decide (x.2.rank ∈ ranks)) := by
  induction ranks with
  | nil => simp
  | cons i rest ih =>
    obtain ⟨hi, hrest⟩ := List.nodup_cons.mp h
    have hfirst : b.ofRank i = (b.filter fun x => decide (x.2.rank ∈ i :: rest)).filter
        fun x => x.2.rank == i := by
      rw [List.filter_filter, ofRank]
      refine List.filter_congr ?_
      intro x _
      by_cases hx : x.2.rank = i <;> simp [hx]
    have hothers : (b.filter fun x => decide (x.2.rank ∈ rest)) =
        (b.filter fun x => decide (x.2.rank ∈ i :: rest)).filter fun x => !(x.2.rank == i) := by
      rw [List.filter_filter]
      refine List.filter_congr ?_
      intro x _
      by_cases hx : x.2.rank = i
      · simp [hx, hi]
      · simp [hx]
    rw [List.flatMap_cons]
    refine ((ih hrest).append_left _).trans ?_
    rw [hfirst, hothers]
    exact List.filter_append_perm _ _

end Backlog

/-- The lanes of a queue, put together in the order of their serial numbers. -/
structure Holds (q : WriteQueue α) (b : Backlog α) : Prop where
  sorted : b.Pairwise fun x y => x.1 < y.1
  below : ∀ x ∈ b, x.1 < q.nextSerial
  lane_eq : ∀ i : Rank, (q.lane i).toList = b.ofRank i
  size_eq : q.size = b.length

theorem Holds.empty (capacity : Nat) : (empty capacity : WriteQueue α).Holds [] where
  sorted := List.Pairwise.nil
  below x hx := by contradiction
  lane_eq i := by
    have hlane : (WriteQueue.empty capacity : WriteQueue α).lane i = Fifo.empty :=
      Vector.getElem_replicate _
    rw [hlane, Fifo.toList_empty]
    rfl
  size_eq := rfl

/-- Counting a loss changes nothing else. -/
theorem Holds.countLoss {q : WriteQueue α} {b : Backlog α} (h : q.Holds b) :
    q.countLoss.Holds b :=
  ⟨h.sorted, h.below, h.lane_eq, h.size_eq⟩

theorem get_lanes_set (lanes : Vector (Fifo (Nat × Record α)) 6) (i j : Rank)
    (lane : Fifo (Nat × Record α)) :
    (lanes.set i lane i.isLt).get j = if i = j then lane else lanes.get j := by
  have hset : (lanes.set i lane)[j] = if i = j then lane else lanes[j] := by
    simp only [Fin.getElem_fin, Vector.getElem_set, Fin.ext_iff]
  exact hset

/-- A new record is the last of the backlog. -/
theorem Holds.push {q : WriteQueue α} {b : Backlog α} (h : q.Holds b) (r : Record α) :
    (q.push r).Holds (b ++ [(q.nextSerial, r)]) where
  sorted := by
    rw [List.pairwise_append]
    refine ⟨h.sorted, List.pairwise_singleton _ _, ?_⟩
    intro x hx last hlast
    rw [List.mem_singleton.mp hlast]
    exact h.below x hx
  below x hx := by
    rw [List.mem_append, List.mem_singleton] at hx
    rcases hx with hold | rfl
    · exact Nat.lt_succ_of_lt (h.below x hold)
    · exact Nat.lt_succ_self _
  lane_eq i := by
    show ((q.lanes.set r.rank ((q.lane r.rank).push (q.nextSerial, r))).get i).toList = _
    rw [get_lanes_set, Backlog.ofRank_append]
    by_cases hi : r.rank = i
    · subst hi
      rw [if_pos rfl, Fifo.toList_push, h.lane_eq, Backlog.ofRank_cons_self (q.nextSerial, r)]
      rfl
    · rw [if_neg hi, Backlog.ofRank_cons_of_ne [] (x := (q.nextSerial, r)) hi]
      exact (h.lane_eq i).trans (List.append_nil _).symm
  size_eq := by
    show q.size + 1 = _
    rw [h.size_eq, List.length_append]
    rfl

/-- The records in the lanes are those of the backlog. -/
theorem Holds.records_perm {q : WriteQueue α} {b : Backlog α} (h : q.Holds b) :
    q.records.Perm (b.map Prod.snd) := by
  have hlanes : q.records = ((List.finRange 6).flatMap b.ofRank).map Prod.snd := by
    rw [records, List.map_flatMap]
    refine List.flatMap_congr ?_
    intro i _
    rw [h.lane_eq]
  have hall : (b.filter fun x => decide (x.2.rank ∈ List.finRange 6)) = b := by
    rw [List.filter_eq_self]
    intro x _
    exact decide_eq_true (List.mem_finRange _)
  have hperm := b.flatMap_ofRank_perm (List.nodup_finRange 6)
  rw [hall] at hperm
  rw [hlanes]
  exact hperm.map Prod.snd

/-! ## Taking a record out of a lane -/

/-- The first record of its rank is taken out of its lane, and nothing else changes. -/
theorem Holds.popLane {q : WriteQueue α} {b c : Backlog α} {x : Nat × Record α}
    (h : q.Holds (b ++ x :: c)) (hfirst : ∀ y ∈ b, y.2.rank ≠ x.2.rank) :
    ∃ lanes size, q.popLane? x.2.rank = some (x.2, { q with lanes := lanes, size := size }) ∧
      Holds { q with lanes := lanes, size := size } (b ++ c) := by
  have hnone : b.ofRank x.2.rank = [] := Backlog.ofRank_eq_nil_iff.mpr hfirst
  have hlane : (q.lane x.2.rank).toList = x :: c.ofRank x.2.rank := by
    rw [h.lane_eq, Backlog.ofRank_append, hnone, Backlog.ofRank_cons_self]
    rfl
  obtain ⟨⟨y, rest⟩, hpop⟩ : ∃ p, (q.lane x.2.rank).pop? = some p := by
    rw [← Option.ne_none_iff_exists']
    intro hempty
    rw [Fifo.pop?_eq_none_iff, hlane] at hempty
    contradiction
  have htaken := Fifo.toList_of_pop? hpop
  rw [hlane] at htaken
  obtain ⟨rfl, hrest⟩ := List.cons.inj htaken
  have hsub : (b ++ c).Sublist (b ++ x :: c) := (List.sublist_cons_self x c).append_left b
  refine ⟨q.lanes.set x.2.rank rest, q.size - 1, ?_, ?_⟩
  · rw [popLane?_eq, hpop]
    rfl
  constructor
  · exact h.sorted.sublist hsub
  · intro y hy
    exact h.below y (hsub.subset hy)
  · intro i
    show ((q.lanes.set x.2.rank rest).get i).toList = _
    rw [get_lanes_set, Backlog.ofRank_append]
    by_cases hi : x.2.rank = i
    · subst hi
      rw [if_pos rfl, hnone, ← hrest]
      rfl
    · have hold := h.lane_eq i
      rw [Backlog.ofRank_append, Backlog.ofRank_cons_of_ne c hi] at hold
      rw [if_neg hi]
      exact hold
  · show q.size - 1 = _
    rw [h.size_eq, List.length_append, List.length_append, List.length_cons]
    omega

/-! ## Which lane to take from -/

/-- A lane is empty when the backlog has no record of its rank. -/
theorem Holds.isEmpty_iff {q : WriteQueue α} {b : Backlog α} (h : q.Holds b) (i : Rank) :
    (q.lane i).isEmpty = true ↔ ∀ x ∈ b, x.2.rank ≠ i := by
  rw [Fifo.isEmpty, ← Fifo.length_toList, h.lane_eq, beq_iff_eq, List.length_eq_zero_iff,
    Backlog.ofRank_eq_nil_iff]

/-- A backlog with records of a rank, taken apart at the first of them. -/
theorem Backlog.exists_first {b : Backlog α} {i : Rank} (h : ∃ x ∈ b, x.2.rank = i) :
    ∃ (before : Backlog α) (x : Nat × Record α) (after : Backlog α),
      b = before ++ x :: after ∧ x.2.rank = i ∧ ∀ y ∈ before, y.2.rank ≠ i := by
  induction b with
  | nil =>
    obtain ⟨x, hx, -⟩ := h
    contradiction
  | cons y rest ih =>
    by_cases hy : y.2.rank = i
    · exact ⟨[], y, rest, rfl, hy, by simp⟩
    · obtain ⟨x, hx, hxi⟩ := h
      have hrest : ∃ z ∈ rest, z.2.rank = i := by
        rcases List.mem_cons.mp hx with rfl | hx
        · contradiction
        · exact ⟨x, hx, hxi⟩
      obtain ⟨before, z, after, rfl, hz, hbefore⟩ := ih hrest
      refine ⟨y :: before, z, after, rfl, hz, ?_⟩
      intro w hw
      rcases List.mem_cons.mp hw with rfl | hw
      · exact hy
      · exact hbefore w hw

/-- The lowest rank is that of some record, the first of which is the one to give up, and no
record has a lower one. -/
theorem Holds.lowestRank {q : WriteQueue α} {b : Backlog α} (h : q.Holds b) (hb : b ≠ []) :
    ∃ (before : Backlog α) (x : Nat × Record α) (after : Backlog α),
      b = before ++ x :: after ∧ q.lowestRank? = some x.2.rank ∧
        (∀ y ∈ before, y.2.rank ≠ x.2.rank) ∧ ∀ y ∈ b, x.2.rank ≤ y.2.rank := by
  have hmem : ∀ {i : Rank}, (!(q.lane i).isEmpty) = true ↔ ∃ x ∈ b, x.2.rank = i := by
    intro i
    rw [Bool.not_eq_true', ← Bool.not_eq_true, h.isEmpty_iff i]
    simp
  obtain ⟨x, hx⟩ := List.exists_mem_of_ne_nil b hb
  obtain ⟨i, hi⟩ : ∃ i, q.lowestRank? = some i := by
    rw [← Option.isSome_iff_exists, lowestRank?_eq, List.find?_isSome]
    exact ⟨x.2.rank, List.mem_finRange _, hmem.mpr ⟨x, hx, rfl⟩⟩
  have hfind := hi
  rw [lowestRank?_eq, List.find?_eq_some_iff_append] at hfind
  obtain ⟨hused, lower, higher, hsplit, hlower⟩ := hfind
  obtain ⟨before, z, after, rfl, rfl, hbefore⟩ := Backlog.exists_first (hmem.mp hused)
  refine ⟨before, z, after, rfl, hi, hbefore, ?_⟩
  intro y hy
  -- a rank below that of `z` comes earlier in the search, where every lane is empty
  by_contra hlt
  have hsorted := List.pairwise_lt_finRange 6
  rw [hsplit, List.pairwise_append] at hsorted
  have hearly : y.2.rank ∈ lower := by
    have hall := List.mem_finRange y.2.rank
    rw [hsplit, List.mem_append, List.mem_cons] at hall
    rcases hall with hlow | heq | hhigh
    · exact hlow
    · exact absurd (le_of_eq heq.symm) hlt
    · exact absurd (le_of_lt ((List.pairwise_cons.mp hsorted.2.1).1 _ hhigh)) hlt
  have hnone := hlower y.2.rank hearly
  rw [hmem.mpr ⟨y, hy, rfl⟩] at hnone
  contradiction

theorem least?_eq_none_iff {xs : List (Nat × Rank)} : least? xs = none ↔ xs = [] := by
  cases xs with
  | nil => simp [least?]
  | cons x xs =>
    rw [least?]
    split
    · simp
    · split <;> simp

/-- The pair with the least number is one of the pairs, and none has a smaller number. -/
theorem least?_spec {xs : List (Nat × Rank)} {x : Nat × Rank} (h : least? xs = some x) :
    x ∈ xs ∧ ∀ y ∈ xs, x.1 ≤ y.1 := by
  induction xs generalizing x with
  | nil => contradiction
  | cons z xs ih =>
    rw [least?] at h
    split at h
    · rename_i hnone
      rw [least?_eq_none_iff] at hnone
      obtain rfl := Option.some.inj h
      subst hnone
      simp
    · rename_i y hy
      obtain ⟨hmem, hle⟩ := ih hy
      split at h
      · rename_i hzy
        obtain rfl := Option.some.inj h
        refine ⟨List.mem_cons_self, ?_⟩
        intro w hw
        rcases List.mem_cons.mp hw with rfl | hw
        · exact Nat.le_refl _
        · exact Nat.le_trans hzy (hle w hw)
      · rename_i hzy
        obtain rfl := Option.some.inj h
        refine ⟨List.mem_cons_of_mem _ hmem, ?_⟩
        intro w hw
        rcases List.mem_cons.mp hw with rfl | hw
        · omega
        · exact hle w hw

/-- The heads of the lanes are records of the backlog. -/
theorem Holds.mem_heads {q : WriteQueue α} {b : Backlog α} (h : q.Holds b) {n : Nat} {i : Rank}
    (hi : (n, i) ∈ q.heads) : ∃ x ∈ b, x.1 = n ∧ x.2.rank = i := by
  rw [heads_eq, List.mem_filterMap] at hi
  obtain ⟨j, -, hj⟩ := hi
  obtain ⟨x, hx, heq⟩ := Option.map_eq_some_iff.mp hj
  obtain ⟨rfl, rfl⟩ := Prod.mk.inj heq
  obtain ⟨⟨y, rest⟩, hpop, rfl⟩ := Option.map_eq_some_iff.mp hx
  have hmem : y ∈ b.ofRank j := by
    rw [← h.lane_eq, Fifo.toList_of_pop? hpop]
    exact List.mem_cons_self
  obtain ⟨hb, hrank⟩ := List.mem_filter.mp hmem
  exact ⟨y, hb, rfl, by simpa using hrank⟩

/-- The lane of the first record has it as its head, and the least of all serial numbers. -/
theorem Holds.oldestLane {q : WriteQueue α} {b : Backlog α} {x : Nat × Record α}
    (h : q.Holds (x :: b)) : q.oldestLane? = some x.2.rank := by
  have hhead : (x.1, x.2.rank) ∈ q.heads := by
    obtain ⟨lanes, size, hpop, -⟩ := h.popLane (b := []) (c := b) (by simp)
    rw [popLane?_eq, Option.map_eq_some_iff] at hpop
    obtain ⟨⟨y, rest⟩, hpop, -⟩ := hpop
    have hlane := Fifo.toList_of_pop? hpop
    rw [h.lane_eq, Backlog.ofRank_cons_self] at hlane
    obtain ⟨rfl, -⟩ := List.cons.inj hlane
    rw [heads_eq, List.mem_filterMap]
    refine ⟨x.2.rank, List.mem_finRange _, ?_⟩
    rw [Fifo.head?, hpop]
    rfl
  rw [oldestLane?, Option.map_eq_some_iff]
  cases hleast : least? q.heads with
  | none =>
    rw [least?_eq_none_iff] at hleast
    rw [hleast] at hhead
    contradiction
  | some p =>
    obtain ⟨n, i⟩ := p
    obtain ⟨hmem, hle⟩ := least?_spec hleast
    obtain ⟨y, hy, rfl, rfl⟩ := h.mem_heads hmem
    refine ⟨(y.1, y.2.rank), rfl, ?_⟩
    -- only the first record has a serial number that small
    rcases List.mem_cons.mp hy with rfl | hy
    · rfl
    · have hlt := (List.pairwise_cons.mp h.sorted).1 y hy
      have hle := hle _ hhead
      omega

/-! ## Taking records out -/

theorem Holds.pop_nil {q : WriteQueue α} (h : q.Holds []) : q.pop? = none := by
  have hheads : q.heads = [] := by
    rw [List.eq_nil_iff_forall_not_mem]
    rintro ⟨n, i⟩ hi
    obtain ⟨x, hx, -⟩ := h.mem_heads hi
    contradiction
  rw [pop?, oldestLane?, hheads]
  rfl

/-- The oldest record is the first of the backlog. -/
theorem Holds.pop_cons {q : WriteQueue α} {b : Backlog α} {x : Nat × Record α}
    (h : q.Holds (x :: b)) :
    ∃ lanes size, q.pop? = some (x.2, { q with lanes := lanes, size := size }) ∧
      Holds { q with lanes := lanes, size := size } b := by
  obtain ⟨lanes, size, hpop, hrest⟩ := h.popLane (b := []) (c := b) (by simp)
  refine ⟨lanes, size, ?_, hrest⟩
  rw [pop?, h.oldestLane]
  exact hpop

/-- Draining takes as many records from the front of the backlog as there are and are asked for,
and loses none. -/
theorem Holds.drain {q : WriteQueue α} {b : Backlog α} (h : q.Holds b) (max : Nat) :
    (q.drain max).1 = (b.take max).map Prod.snd ∧ (q.drain max).2.Holds (b.drop max) ∧
      (q.drain max).2.capacity = q.capacity ∧ (q.drain max).2.dropped = q.dropped := by
  induction max generalizing q b with
  | zero => exact ⟨rfl, h, rfl, rfl⟩
  | succ n ih =>
    cases b with
    | nil =>
      rw [WriteQueue.drain, h.pop_nil]
      exact ⟨rfl, h, rfl, rfl⟩
    | cons x b =>
      obtain ⟨lanes, size, hpop, hrest⟩ := h.pop_cons
      obtain ⟨htaken, hleft, hsame⟩ := ih hrest
      rw [WriteQueue.drain, hpop]
      exact ⟨congrArg (x.2 :: ·) htaken, hleft, hsame⟩

/-! ## Adding a record -/

/-- What becomes of a queue when a record is added: with room for it, the record is the last of
the backlog; otherwise either a record of lower rank is given up for it, the first one of the
lowest rank, or the record itself is refused, no record of the queue having a lower rank. -/
theorem Holds.append_cases {q : WriteQueue α} {b : Backlog α} (h : q.Holds b)
    (hroom : 0 < q.capacity) (r : Record α) : (q.append r).capacity = q.capacity ∧
      ((q.size < q.capacity ∧ (q.append r).dropped = q.dropped ∧
          (q.append r).Holds (b ++ [(q.nextSerial, r)])) ∨
        q.capacity ≤ q.size ∧ (q.append r).dropped = q.dropped + 1 ∧
          ((∃ (before : Backlog α) (x : Nat × Record α) (after : Backlog α),
              b = before ++ x :: after ∧ (∀ y ∈ b, x.2.rank ≤ y.2.rank) ∧ x.2.rank < r.rank ∧
                (q.append r).Holds (before ++ after ++ [(q.nextSerial, r)])) ∨
            (∀ y ∈ b, r.rank ≤ y.2.rank) ∧ (q.append r).Holds b)) := by
  rw [append]
  split
  · rename_i hfree
    exact ⟨rfl, Or.inl ⟨hfree, rfl, h.push r⟩⟩
  · rename_i hfull
    have hsize : q.capacity ≤ q.size := Nat.le_of_not_lt hfull
    have hb : b ≠ [] := by
      rintro rfl
      rw [h.size_eq] at hsize
      exact absurd hsize (Nat.not_le.mpr hroom)
    obtain ⟨before, x, after, rfl, hlowest, hfirst, hle⟩ := h.lowestRank hb
    rw [hlowest]
    dsimp only
    split
    · rename_i hlt
      obtain ⟨lanes, size, hpop, hrest⟩ := h.popLane hfirst
      have hevict : q.evict x.2.rank = { q with lanes := lanes, size := size } := by
        rw [evict, hpop]
        rfl
      rw [hevict]
      exact ⟨rfl, Or.inr ⟨hsize, rfl, Or.inl
        ⟨before, x, after, rfl, hle, hlt, (hrest.push r).countLoss⟩⟩⟩
    · rename_i hge
      refine ⟨rfl, Or.inr ⟨hsize, rfl, Or.inr ⟨?_, h.countLoss⟩⟩⟩
      intro y hy
      exact le_trans (not_lt.mp hge) (hle y hy)

end WriteQueue

end NextStop
