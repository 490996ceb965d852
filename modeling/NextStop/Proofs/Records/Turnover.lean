import NextStop.Proofs.Records.Backlog

/-!
# What becomes of records in a queue

Records are added to a queue and taken out of it in any order. `WriteQueue.Turnover` keeps the
account of a stretch of such acts: what comes out and what is left stand in the order in which they
came in, and every record that came in has come out, is left or has been counted as lost. Stretches
follow one another, `Turnover.trans`, so that the account of a whole run is put together from those
of its acts.
-/

namespace NextStop

namespace WriteQueue

/-- What may be done to a queue. -/
inductive Act (α : Type) where
  | append (r : Record α)
  | drain (max : Nat)

variable {α : Type}

/-- The record that an act adds. -/
def Act.added? : Act α → Option (Record α)
  | append r => some r
  | drain _ => none

/-- The records that acts add, in order. -/
def added (acts : List (Act α)) : List (Record α) := acts.filterMap Act.added?

/-- The batches that acts take out of a queue, and the queue after them. -/
def run : WriteQueue α → List (Act α) → List (List (Record α)) × WriteQueue α
  | q, [] => ([], q)
  | q, .append r :: rest => (q.append r).run rest
  | q, .drain max :: rest =>
    let (batch, q) := q.drain max
    let (batches, q) := q.run rest
    (batch :: batches, q)

/-- A queue that has room for its backlog. -/
structure Bounded (q : WriteQueue α) (b : Backlog α) : Prop extends Holds q b where
  room : 0 < q.capacity
  size_le : q.size ≤ q.capacity

theorem Bounded.empty (capacity : Nat) : (empty capacity : WriteQueue α).Bounded [] where
  toHolds := Holds.empty capacity
  room := Nat.lt_of_lt_of_le Nat.zero_lt_one (Nat.le_max_right _ _)
  size_le := Nat.zero_le _

/-- The account of a stretch of acts, from a queue `q` with the backlog `b` to `q'` with `b'`. -/
structure Turnover (q : WriteQueue α) (b : Backlog α) (entered left : List (Record α))
    (q' : WriteQueue α) (b' : Backlog α) : Prop where
  bounded : q'.Bounded b'
  capacity_eq : q'.capacity = q.capacity
  order : (left ++ b'.map Prod.snd).Sublist (b.map Prod.snd ++ entered)
  count : b.length + entered.length + q.dropped = left.length + b'.length + q'.dropped

theorem Turnover.refl {q : WriteQueue α} {b : Backlog α} (h : q.Bounded b) :
    Turnover q b [] [] q b where
  bounded := h
  capacity_eq := rfl
  order := by rw [List.append_nil, List.nil_append]
  count := by rw [List.length_nil]; omega

/-- One stretch after another. -/
theorem Turnover.trans {q q' q'' : WriteQueue α} {b b' b'' : Backlog α}
    {entered entered' left left' : List (Record α)} (h : Turnover q b entered left q' b')
    (h' : Turnover q' b' entered' left' q'' b'') :
    Turnover q b (entered ++ entered') (left ++ left') q'' b'' where
  bounded := h'.bounded
  capacity_eq := h'.capacity_eq.trans h.capacity_eq
  order := by
    have hlater : (left ++ (left' ++ b''.map Prod.snd)).Sublist
        (left ++ (b'.map Prod.snd ++ entered')) := h'.order.append_left left
    have hearlier : ((left ++ b'.map Prod.snd) ++ entered').Sublist
        ((b.map Prod.snd ++ entered) ++ entered') := h.order.append_right entered'
    rw [List.append_assoc] at hearlier
    rw [List.append_assoc, ← List.append_assoc (b.map Prod.snd)]
    exact hlater.trans hearlier
  count := by
    have hfirst := h.count
    have hsecond := h'.count
    rw [List.length_append, List.length_append]
    omega

/-! ## The two acts -/

/-- Adding a record: it or another one may be lost, but never more than one. -/
theorem Bounded.append {q : WriteQueue α} {b : Backlog α} (h : q.Bounded b) (r : Record α) :
    ∃ b', Turnover q b [r] [] (q.append r) b' := by
  have hsize := h.size_eq
  have hle := h.size_le
  have hroom : 0 < q.capacity := h.room
  obtain ⟨hcapacity, ⟨hfree, hdropped, hb⟩ | ⟨hfull, hdropped, hlost⟩⟩ :=
    h.toHolds.append_cases h.room r
  · have hsize' := hb.size_eq
    rw [List.length_append, List.length_singleton] at hsize'
    refine ⟨_, ⟨hb, by omega, by omega⟩, hcapacity, ?_, ?_⟩
    · rw [List.map_append, List.nil_append]
      exact List.Sublist.refl _
    · rw [hdropped, List.length_append]
      simp only [List.length_cons, List.length_nil]
      omega
  · rcases hlost with ⟨before, x, after, rfl, -, -, hb⟩ | ⟨-, hb⟩
    · have hsize' := hb.size_eq
      rw [List.length_append, List.length_append, List.length_singleton] at hsize'
      rw [List.length_append, List.length_cons] at hsize
      refine ⟨_, ⟨hb, by omega, by omega⟩, hcapacity, ?_, ?_⟩
      · have hsub : (before ++ after).Sublist (before ++ x :: after) :=
          (List.sublist_cons_self x after).append_left before
        rw [List.map_append, List.nil_append]
        exact (hsub.map Prod.snd).append_right [r]
      · rw [hdropped]
        simp only [List.length_append, List.length_cons, List.length_nil]
        omega
    · have hsize' := hb.size_eq
      refine ⟨b, ⟨hb, by omega, by omega⟩, hcapacity, ?_, ?_⟩
      · exact List.sublist_append_left _ _
      · rw [hdropped]
        simp only [List.length_cons, List.length_nil]
        omega

/-- Draining loses nothing. -/
theorem Bounded.drain {q : WriteQueue α} {b : Backlog α} (h : q.Bounded b) (max : Nat) :
    Turnover q b [] (q.drain max).1 (q.drain max).2 (b.drop max) := by
  obtain ⟨htaken, hleft, hcapacity, hdropped⟩ := h.toHolds.drain max
  have hsize := h.size_eq
  have hle := h.size_le
  have hsize' := hleft.size_eq
  rw [List.length_drop] at hsize'
  refine ⟨⟨hleft, by rw [hcapacity]; exact h.room, by omega⟩, hcapacity, ?_, ?_⟩
  · rw [htaken, List.append_nil, ← List.map_append, List.take_append_drop]
  · rw [htaken, hdropped, List.length_map, List.length_take, List.length_drop, List.length_nil]
    omega

/-! ## Runs -/

theorem Bounded.run {q : WriteQueue α} {b : Backlog α} (h : q.Bounded b) (acts : List (Act α)) :
    ∃ b', Turnover q b (added acts) (q.run acts).1.flatten (q.run acts).2 b' := by
  induction acts generalizing q b with
  | nil => exact ⟨b, Turnover.refl h⟩
  | cons act rest ih =>
    cases act with
    | append r =>
      obtain ⟨b', hfirst⟩ := h.append r
      obtain ⟨b'', hrest⟩ := ih hfirst.bounded
      exact ⟨b'', hfirst.trans hrest⟩
    | drain max =>
      have hfirst := h.drain max
      obtain ⟨b'', hrest⟩ := ih hfirst.bounded
      exact ⟨b'', hfirst.trans hrest⟩

/-- After any run of additions and drains, what was drained and would be drained now stands in the
order in which it was added, with nothing twice. Every record that was added has been drained,
waits or has been counted as lost; the queue knows how many wait, never more than it has room for;
and a drain takes out as many as are asked for and there are. -/
theorem run_drains_in_order (capacity : Nat) (acts : List (Act α)) :
    let batches := ((empty capacity).run acts).1
    let q := ((empty capacity).run acts).2
    (batches.flatten ++ (q.drain q.size).1).Sublist (added acts) ∧
      (added acts).length = batches.flatten.length + q.records.length + q.dropped ∧
      q.size = q.records.length ∧ q.size ≤ max capacity 1 ∧
      ∀ max : Nat, (q.drain max).1.length = min max q.records.length := by
  intro batches q
  obtain ⟨b, hrun⟩ := (Bounded.empty capacity).run acts
  have hrecords : q.records.length = b.length :=
    hrun.bounded.records_perm.length_eq.trans (List.length_map ..)
  have hdrain : ∀ max : Nat, (q.drain max).1 = (b.take max).map Prod.snd :=
    fun max => (hrun.bounded.toHolds.drain max).1
  refine ⟨?_, ?_, ?_, ?_, ?_⟩
  · rw [hdrain, hrun.bounded.size_eq, List.take_length]
    exact hrun.order
  · have hcount : 0 + (added acts).length + 0 =
        batches.flatten.length + b.length + q.dropped := hrun.count
    rw [hrecords]
    omega
  · rw [hrecords]
    exact hrun.bounded.size_eq
  · have hle := hrun.bounded.size_le
    rw [hrun.capacity_eq] at hle
    exact hle
  · intro max
    rw [hdrain, hrecords, List.length_map, List.length_take]

end WriteQueue

end NextStop
