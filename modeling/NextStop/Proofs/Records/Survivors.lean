import NextStop.Proofs.Records.Turnover

/-!
# Which records survive

A full queue gives up a record whenever one is added, and never one of a higher rank than a record
that it keeps. So the choice that it makes record by record is as good as one made in the end: of
all records that were added, it has kept as many of the highest ranks as it has room for, whatever
the order in which they came.
-/

namespace NextStop

namespace WriteQueue

variable {α : Type}

/-- How many records have at least a given rank. -/
def countFrom (p : Nat) (rs : List (Record α)) : Nat := rs.countP fun r => p ≤ r.rank

/-! ## One record more -/

/-- Adding a record loses at most one, which is counted, and only out of a full queue. What is lost
does not rank above anything that is kept. -/
theorem Bounded.append_loses {q : WriteQueue α} {b : Backlog α} (h : q.Bounded b)
    (r : Record α) :
    ∃ lost : List (Record α), lost.length ≤ 1 ∧
      (lost ++ (q.append r).records).Perm (r :: q.records) ∧
        (q.append r).dropped = q.dropped + lost.length ∧
          (∀ x ∈ lost, ∀ y ∈ (q.append r).records, x.rank ≤ y.rank) ∧
            (lost ≠ [] → q.capacity ≤ q.records.length) := by
  have hbefore := h.records_perm
  have hlength : q.records.length = q.size := by
    rw [h.size_eq, hbefore.length_eq, List.length_map]
  obtain ⟨-, ⟨-, hdropped, hb⟩ | ⟨hfull, hdropped, hlost⟩⟩ := h.toHolds.append_cases h.room r
  · refine ⟨[], Nat.zero_le _, ?_, hdropped, by simp, by simp⟩
    have hafter := hb.records_perm
    rw [List.map_append] at hafter
    calc (q.append r).records
      List.Perm _ (b.map Prod.snd ++ [r]) := hafter
      List.Perm _ (r :: b.map Prod.snd) := List.perm_append_singleton r _
      List.Perm _ (r :: q.records) := hbefore.symm.cons r
  · rcases hlost with ⟨before, x, after, rfl, hle, hlt, hb⟩ | ⟨hle, hb⟩
    · have hafter := hb.records_perm
      refine ⟨[x.2], Nat.le_refl _, ?_, hdropped, ?_, fun _ => hlength ▸ hfull⟩
      · have hmiddle : (x.2 :: (before ++ after).map Prod.snd).Perm
            ((before ++ x :: after).map Prod.snd) := (List.perm_middle.map Prod.snd).symm
        rw [List.map_append] at hafter
        calc [x.2] ++ (q.append r).records
          List.Perm _ (x.2 :: ((before ++ after).map Prod.snd ++ [r])) := hafter.cons x.2
          List.Perm _ (r :: x.2 :: (before ++ after).map Prod.snd) :=
            List.perm_append_singleton r (x.2 :: (before ++ after).map Prod.snd)
          List.Perm _ (r :: q.records) := (hmiddle.trans hbefore.symm).cons r
      · intro w hw y hy
        rw [List.mem_singleton.mp hw]
        obtain ⟨z, hz, rfl⟩ := List.mem_map.mp (hafter.mem_iff.mp hy)
        rw [List.mem_append, List.mem_singleton] at hz
        rcases hz with hkept | rfl
        · have hsub := (List.sublist_cons_self x after).append_left before
          exact hle z (hsub.subset hkept)
        · exact le_of_lt hlt
    · have hafter := hb.records_perm
      refine ⟨[r], Nat.le_refl _, ?_, hdropped, ?_, fun _ => hlength ▸ hfull⟩
      · exact (hafter.trans hbefore.symm).cons r
      · intro x hx y hy
        rw [List.mem_singleton.mp hx]
        obtain ⟨z, hz, rfl⟩ := List.mem_map.mp (hafter.mem_iff.mp hy)
        exact hle z hz

/-! ## The highest ranks -/

theorem countFrom_le_length (p : Nat) (rs : List (Record α)) : countFrom p rs ≤ rs.length :=
  List.countP_le_length

theorem countFrom_eq_length {p : Nat} {rs : List (Record α)} (h : ∀ r ∈ rs, p ≤ r.rank) :
    countFrom p rs = rs.length :=
  List.countP_eq_length.mpr fun r hr => decide_eq_true (h r hr)

/-- A queue has kept as many records of the highest ranks as it has room for, of those that were
added. -/
def KeepsHighest (q : WriteQueue α) (rs : List (Record α)) : Prop :=
  ∀ p : Nat, countFrom p q.records = min q.capacity (countFrom p rs)

/-- The choice made for one more record keeps the choice as good as it was. -/
theorem KeepsHighest.append {q : WriteQueue α} {b : Backlog α} {rs : List (Record α)}
    (h : q.KeepsHighest rs) (hb : q.Bounded b) (r : Record α) :
    (q.append r).KeepsHighest (rs ++ [r]) := by
  intro p
  obtain ⟨b', hturn⟩ := hb.append r
  obtain ⟨lost, hone, hperm, -, hlow, hfull⟩ := hb.append_loses r
  have hcount : countFrom p lost + countFrom p (q.append r).records =
      countFrom p [r] + countFrom p q.records := by
    have hcounts := hperm.countP_eq fun x => decide (p ≤ x.rank)
    rw [List.countP_append, ← List.singleton_append, List.countP_append] at hcounts
    exact hcounts
  have hadded : countFrom p (rs ++ [r]) = countFrom p rs + countFrom p [r] :=
    List.countP_append
  have hlength : (q.append r).records.length ≤ q.capacity := by
    rw [hturn.bounded.records_perm.length_eq, List.length_map, ← hturn.bounded.size_eq,
      ← hturn.capacity_eq]
    exact hturn.bounded.size_le
  have hkept := countFrom_le_length p (q.append r).records
  have hnew := countFrom_le_length p [r]
  have hp := h p
  rw [hturn.capacity_eq, hadded]
  rw [List.length_singleton] at hnew
  cases lost with
  | nil =>
    have hnone : countFrom p ([] : List (Record α)) = 0 := rfl
    omega
  | cons x rest =>
    obtain rfl : rest = [] := by
      rw [List.length_cons] at hone
      exact List.eq_nil_of_length_eq_zero (by omega)
    have hlengths := hperm.length_eq
    have hsize := hfull (List.cons_ne_nil x [])
    rw [List.length_append, List.length_singleton, List.length_cons] at hlengths
    by_cases hx : p ≤ x.rank
    · -- then all that is kept has at least rank `p`, and it fills the queue
      have hall : ∀ y ∈ (q.append r).records, p ≤ y.rank :=
        fun y hy => Nat.le_trans hx (hlow x List.mem_cons_self y hy)
      have hfilled := countFrom_eq_length hall
      have hlost : countFrom p [x] = 1 := countFrom_eq_length (by simpa using hx)
      omega
    · have hlost : countFrom p [x] = 0 := by simpa [countFrom] using hx
      omega

theorem KeepsHighest.foldl_append {q : WriteQueue α} {b : Backlog α} {before : List (Record α)}
    (h : q.KeepsHighest before) (hb : q.Bounded b) (rs : List (Record α)) :
    (rs.foldl WriteQueue.append q).KeepsHighest (before ++ rs) ∧
      (rs.foldl WriteQueue.append q).capacity = q.capacity := by
  induction rs generalizing q b before with
  | nil =>
    rw [List.append_nil]
    exact ⟨h, rfl⟩
  | cons r rest ih =>
    obtain ⟨b', hturn⟩ := hb.append r
    obtain ⟨hrest, hcapacity⟩ := ih (h.append hb r) hturn.bounded
    rw [List.append_assoc] at hrest
    exact ⟨hrest, hcapacity.trans hturn.capacity_eq⟩

theorem KeepsHighest.empty (capacity : Nat) : (empty capacity : WriteQueue α).KeepsHighest [] := by
  intro p
  have hnone : (WriteQueue.empty capacity : WriteQueue α).records = [] :=
    List.eq_nil_of_length_eq_zero (Holds.empty capacity).records_perm.length_eq
  rw [hnone]
  exact (Nat.min_zero _).symm

/-- After any additions, a queue has as many records of the highest ranks as it has room for: for
every rank, it has all records of at least that rank that were added, or is full of such. And
whenever a record is added, between any additions and drains, at most one record is lost, the loss
is counted, and the lost record does not rank above any that is left; draining loses none. -/
theorem append_keeps_highest (capacity : Nat) :
    (∀ (rs : List (Record α)) (p : Nat),
      countFrom p (rs.foldl append (empty capacity)).records =
        min (max capacity 1) (countFrom p rs)) ∧
    ∀ acts : List (Act α),
      let q := ((empty capacity).run acts).2
      (∀ r : Record α, ∃ lost : List (Record α), lost.length ≤ 1 ∧
        (lost ++ (q.append r).records).Perm (r :: q.records) ∧
          (q.append r).dropped = q.dropped + lost.length ∧
            ∀ x ∈ lost, ∀ y ∈ (q.append r).records, x.rank ≤ y.rank) ∧
      ∀ max : Nat, ((q.drain max).1 ++ (q.drain max).2.records).Perm q.records ∧
        (q.drain max).2.dropped = q.dropped := by
  refine ⟨?_, ?_⟩
  · intro rs p
    obtain ⟨hkeeps, hcapacity⟩ :=
      (KeepsHighest.empty capacity).foldl_append (Bounded.empty capacity) rs
    have hp := hkeeps p
    rw [hcapacity] at hp
    exact hp
  · intro acts q
    obtain ⟨b, hrun⟩ := (Bounded.empty capacity).run acts
    refine ⟨?_, ?_⟩
    · intro r
      obtain ⟨lost, hone, hperm, hdropped, hlow, -⟩ := hrun.bounded.append_loses r
      exact ⟨lost, hone, hperm, hdropped, hlow⟩
    · intro max
      obtain ⟨htaken, hleft, -, hdropped⟩ := hrun.bounded.toHolds.drain max
      refine ⟨?_, hdropped⟩
      have hsplit : b.map Prod.snd = (b.take max).map Prod.snd ++ (b.drop max).map Prod.snd := by
        rw [← List.map_append, List.take_append_drop]
      rw [htaken]
      calc (b.take max).map Prod.snd ++ (q.drain max).2.records
        List.Perm _ ((b.take max).map Prod.snd ++ (b.drop max).map Prod.snd) :=
          hleft.records_perm.append_left _
        List.Perm _ (b.map Prod.snd) := List.Perm.of_eq hsplit.symm
        List.Perm _ q.records := hrun.bounded.records_perm.symm

end WriteQueue

end NextStop
