import Mathlib.Data.List.Induction
import NextStop.Proofs.Statistics.Ledger
import NextStop.Proofs.Statistics.WriteOrder

/-!
# A cache answers as its ledger

The entries of a cache are the last writes of its ledger from some generation on, and the writes
before that generation no longer count: each has expired or has too many other keys behind it.
`ExpiringCache.Mirrors` says so. A new entry keeps it and so does eviction, which only moves the
generation up; as a cache has no more entries than room, the entries that it has and that have not
expired are exactly the writes that count.

All of this holds as long as the readings of the clock do not span more than 64 bits. An entry that
is older than that is taken for a new one, as its age has wrapped.
-/

namespace NextStop

namespace ExpiringCache

open Ledger

variable {κ β : Type} [Ord κ]

/-- The keys are those that have an answer, each once. -/
theorem keys_answered [Std.TransOrd κ] [Std.LawfulEqOrd κ] (c : ExpiringCache κ β) (now : Int) :
    (c.keys now).Nodup ∧ ∀ k : κ, k ∈ c.keys now ↔ (c.get? now k).isSome = true := by
  constructor
  · have hkeys : (c.entries.toList.map Prod.fst).Nodup := by
      rw [Std.TreeMap.map_fst_toList_eq_keys]
      exact Std.TreeMap.nodup_keys
    exact hkeys.sublist (List.filter_sublist.map _)
  · intro k
    rw [keys, List.mem_map, get?, Option.isSome_map, entry?]
    constructor
    · rintro ⟨⟨j, e⟩, hmem, rfl⟩
      obtain ⟨hj, hlive⟩ := List.mem_filter.mp hmem
      rw [Std.TreeMap.mem_toList_iff_getElem?_eq_some.mp hj, Option.filter_some, if_pos hlive]
      rfl
    · intro hsome
      obtain ⟨e, he⟩ := Option.isSome_iff_exists.mp hsome
      obtain ⟨hk, hlive⟩ := Option.filter_eq_some_iff.mp he
      exact ⟨(k, e), List.mem_filter.mpr
        ⟨Std.TreeMap.mem_toList_iff_getElem?_eq_some.mpr hk, hlive⟩, rfl⟩

variable [DecidableEq κ]

/-- The entries of a cache are the last writes of a ledger from the generation `cut` on, and the
writes before no longer count at the time of the last write. -/
structure Mirrors (c : ExpiringCache κ β) (l : Ledger κ β) (clock : Int) (cut : Nat) : Prop where
  next_eq : c.nextGeneration = l.length
  cut_le : cut ≤ l.length
  entries_eq : ∀ k : κ, c.entries[k]? =
    ((l.last? k).filter fun s => cut ≤ s.before).map LastWrite.entry
  gone : ∀ {k : κ} {s : LastWrite κ β}, l.last? k = some s → s.before < cut →
    c.lifetime < clock - s.write.time ∨ c.capacity ≤ keyCount s.since

/-- A cache with the given limits that has seen the writes of a ledger, all at readings of the
clock from `first` to `clock`. -/
structure Tracks (capacity : Nat) (lifetime first : Int) (c : ExpiringCache κ β) (l : Ledger κ β)
    (clock : Int) : Prop where
  capacity_eq : c.capacity = capacity
  lifetime_eq : c.lifetime = lifetime
  ordered : c.Ordered
  size_le : c.entries.size ≤ capacity
  within : l.Within first clock
  mirrors : ∃ cut, c.Mirrors l clock cut

section Tracks

variable {capacity cut : Nat} {lifetime first clock now : Int} {c : ExpiringCache κ β}
  {l : Ledger κ β}

/-- An entry is the last write of its key. -/
theorem Mirrors.last_of_entry (h : c.Mirrors l clock cut) {k : κ} {e : Entry β}
    (he : c.entries[k]? = some e) :
    ∃ s, l.last? k = some s ∧ cut ≤ s.before ∧ s.entry = e := by
  rw [h.entries_eq k, Option.map_eq_some_iff] at he
  obtain ⟨s, hs, rfl⟩ := he
  obtain ⟨hlast, hcut⟩ := Option.filter_eq_some_iff.mp hs
  exact ⟨s, hlast, of_decide_eq_true hcut, rfl⟩

/-- The last write of a key is an entry from the generation `cut` on. -/
theorem Mirrors.entry_of_last (h : c.Mirrors l clock cut) {k : κ} {s : LastWrite κ β}
    (hs : l.last? k = some s) (hcut : cut ≤ s.before) : c.entries[k]? = some s.entry := by
  rw [h.entries_eq k, hs, Option.filter_some, if_pos (decide_eq_true hcut)]
  rfl

theorem Mirrors.none_of_last (h : c.Mirrors l clock cut) {k : κ} {s : LastWrite κ β}
    (hs : l.last? k = some s) (hcut : s.before < cut) : c.entries[k]? = none := by
  rw [h.entries_eq k, hs, Option.filter_some, if_neg (by simpa using hcut)]
  rfl

/-- Later on, the writes that no longer count still do not. -/
theorem Mirrors.later (h : c.Mirrors l clock cut) (hnow : clock ≤ now) : c.Mirrors l now cut :=
  { h with
    gone := by
      intro k s hs hlt
      rcases h.gone hs hlt with hdead | hmany
      · left
        omega
      · exact Or.inr hmany }

theorem Tracks.later (h : Tracks capacity lifetime first c l clock) (hnow : clock ≤ now) :
    Tracks capacity lifetime first c l now :=
  { h with
    within := h.within.later hnow
    mirrors := by
      obtain ⟨cut, hmir⟩ := h.mirrors
      exact ⟨cut, hmir.later hnow⟩ }

/-- Entries that outnumber one are keys written since. -/
theorem Mirrors.keyCount_of_outnumbered (h : c.Mirrors l now cut) {k : κ} {s : LastWrite κ β}
    (hs : l.last? k = some s) (hout : c.Outnumbered s.before) : c.capacity ≤ keyCount s.since := by
  obtain ⟨ks, hn, hlen, hks⟩ := hout
  refine Nat.le_trans hlen (length_le_keyCount hn ?_)
  intro j hj
  obtain ⟨e, he, hlt⟩ := hks j hj
  obtain ⟨s', hs', -, rfl⟩ := h.last_of_entry he
  exact (mem_since_iff hs).mpr ⟨s', hs', hlt⟩

/-- Eviction moves the generation up from which on the last writes are entries. -/
theorem Mirrors.evicted (h : c.Mirrors l now cut) (hwithin : l.Within first now)
    (hspan : now - first ≤ Time.latest) {c' : ExpiringCache κ β} {cut' : Nat}
    (hev : c.Evicted now c' cut') : c'.Mirrors l now (max cut cut') where
  next_eq := hev.next_eq.trans h.next_eq
  cut_le := Nat.max_le.mpr ⟨h.cut_le, h.next_eq ▸ hev.cut_le⟩
  entries_eq k := by
    have hboth : ∀ s : LastWrite κ β,
        (decide (cut ≤ s.before) && decide (cut' ≤ s.entry.generation)) =
          decide (max cut cut' ≤ s.before) := by
      intro s
      rw [← Bool.decide_and, decide_eq_decide, Nat.max_le]
      rfl
    rw [hev.entries_eq k, h.entries_eq k, Option.filter_map, Option.filter_filter]
    simp only [Function.comp, hboth]
  gone {k s} hs hlt := by
    rw [hev.lifetime_eq, hev.capacity_eq]
    -- either the write was gone before, or this eviction removed its entry
    by_cases hcut : s.before < cut
    · exact h.gone hs hcut
    · have hentry := h.entry_of_last hs (Nat.le_of_not_lt hcut)
      rcases hev.gone hentry (by show s.before < cut'; omega) with hdead | hout
      · left
        rw [isLive, decide_eq_false_iff_not, hwithin.age_eq hspan hs] at hdead
        exact Int.not_le.mp hdead
      · exact Or.inr (h.keyCount_of_outnumbered hs hout)

variable [Std.TransOrd κ]

/-- A cache before any change. -/
theorem Tracks.empty (capacity : Nat) (lifetime first clock : Int) :
    Tracks (max capacity 1) lifetime first
      (ExpiringCache.empty capacity lifetime : ExpiringCache κ β) [] clock where
  capacity_eq := rfl
  lifetime_eq := rfl
  ordered := Ordered.empty capacity lifetime
  size_le := Nat.zero_le _
  within := by
    intro w hw
    contradiction
  mirrors := by
    refine ⟨0, rfl, Nat.le_refl _, ?_, ?_⟩
    · intro k
      rw [ExpiringCache.empty, Std.TreeMap.getElem?_emptyc]
      rfl
    · intro k s _ hlt
      exact absurd hlt (Nat.not_lt_zero _)

variable [Std.LawfulEqOrd κ]

/-! ## A write -/

/-- A new entry is a new write. The entries of the other keys are all that matters of the cache
before. -/
theorem Mirrors.insert (h : c.Mirrors l now cut) (k : κ) (v : β) {m : Std.TreeMap κ (Entry β)}
    (hm : ∀ j : κ, k ≠ j → m[j]? = c.entries[j]?) :
    Mirrors { c with
      entries := m.insert k ⟨v, now, c.nextGeneration⟩
      order := c.order.push (k, c.nextGeneration)
      nextGeneration := c.nextGeneration + 1 } (⟨k, v, now⟩ :: l) now cut where
  next_eq := congrArg (· + 1) h.next_eq
  cut_le := Nat.le_succ_of_le h.cut_le
  entries_eq j := by
    by_cases hj : k = j
    · subst hj
      rw [Std.TreeMap.getElem?_insert_self, last?_cons_self l ⟨k, v, now⟩, Option.filter_some,
        if_pos (decide_eq_true h.cut_le), h.next_eq]
      rfl
    · rw [Table.getElem?_insert_of_ne _ _ hj, hm j hj, h.entries_eq j,
        last?_cons_of_ne l (w := ⟨k, v, now⟩) hj]
      cases l.last? j with
      | none => rfl
      | some s =>
        rw [Option.map_some, Option.filter_some, Option.filter_some, LastWrite.followedBy]
        split <;> rfl
  gone {j s} hs hlt := by
    by_cases hj : k = j
    · subst hj
      rw [last?_cons_self l ⟨k, v, now⟩, Option.some.injEq] at hs
      subst hs
      exact absurd hlt (Nat.not_lt.mpr h.cut_le)
    · rw [last?_cons_of_ne l (w := ⟨k, v, now⟩) hj, Option.map_eq_some_iff] at hs
      obtain ⟨s₀, hs₀, rfl⟩ := hs
      rcases h.gone hs₀ hlt with hdead | hmany
      · exact Or.inl hdead
      · exact Or.inr (Nat.le_trans hmany (keyCount_le_cons _ _))

/-- A write at a later reading of the clock, after which the cache has seen one more write. -/
theorem Tracks.write (h : Tracks capacity lifetime first c l clock) (hnow : clock ≤ now)
    (hfirst : first ≤ now) (hspan : now - first ≤ Time.latest) (k : κ) (v : β)
    {m : Std.TreeMap κ (Entry β)} (hm : ∀ j : κ, k ≠ j → m[j]? = c.entries[j]?)
    (hsub : ∀ {j : κ} {e : Entry β}, m[j]? = some e → c.entries[j]? = some e) :
    Tracks capacity lifetime first (put { c with entries := m } now k v) (⟨k, v, now⟩ :: l)
      now := by
  obtain ⟨cut, hmir⟩ := h.mirrors
  have hins := (hmir.later hnow).insert k v hm
  have hwithin := (h.within.later hnow).cons (w := ⟨k, v, now⟩) ⟨hfirst, Int.le_refl now⟩
  obtain ⟨hord, hsize, cut', hev⟩ := (h.ordered.restrict hsub).put now k v
  exact ⟨hev.capacity_eq.trans h.capacity_eq, hev.lifetime_eq.trans h.lifetime_eq, hord,
    le_of_le_of_eq hsize h.capacity_eq, hwithin, max cut cut', hins.evicted hwithin hspan hev⟩

/-! ## Answers -/

/-- A write that is an entry has fewer other keys behind it than there is room for: all of them
are entries as well. -/
theorem Tracks.keyCount_lt (h : Tracks capacity lifetime first c l clock)
    (hmir : c.Mirrors l clock cut) {k : κ} {s : LastWrite κ β} (hs : l.last? k = some s)
    (hcut : cut ≤ s.before) : keyCount s.since < capacity := by
  have hk : k ∉ s.since.map Written.key := by
    intro hk
    obtain ⟨s', hs', hlt⟩ := (mem_since_iff hs).mp hk
    obtain rfl := Option.some.inj (hs.symm.trans hs')
    exact Nat.lt_irrefl _ hlt
  have hn : (k :: (s.since.map Written.key).dedup).Nodup :=
    List.nodup_cons.mpr ⟨fun hmem => hk (List.mem_dedup.mp hmem), List.nodup_dedup _⟩
  have hsize := Table.length_le_size (m := c.entries) hn ?_
  · rw [List.length_cons] at hsize
    exact Nat.lt_of_lt_of_le hsize h.size_le
  · intro j hj
    rcases List.mem_cons.mp hj with rfl | hj
    · exact Table.mem_iff.mpr ⟨_, hmir.entry_of_last hs hcut⟩
    · obtain ⟨s', hs', hlt⟩ := (mem_since_iff hs).mp (List.mem_dedup.mp hj)
      exact Table.mem_iff.mpr ⟨_, hmir.entry_of_last hs' (by omega)⟩

/-- A cache answers what its ledger says. -/
theorem Tracks.get?_eq (h : Tracks capacity lifetime first c l clock) (hnow : clock ≤ now)
    (hspan : now - first ≤ Time.latest) (k : κ) :
    c.get? now k = l.get? capacity lifetime now k := by
  obtain ⟨cut, hmir⟩ := h.mirrors
  rw [ExpiringCache.get?, ExpiringCache.entry?, Ledger.get?]
  cases hs : l.last? k with
  | none =>
    rw [hmir.entries_eq k, hs]
    rfl
  | some s =>
    rw [Option.filter_some]
    by_cases hcut : cut ≤ s.before
    · rw [hmir.entry_of_last hs hcut, Option.filter_some]
      have hroom := h.keyCount_lt hmir hs hcut
      have hsame : c.isLive now s.entry = counts capacity lifetime now s := by
        rw [isLive, counts, h.lifetime_eq, decide_eq_true hroom, Bool.and_true,
          (h.within.later hnow).age_eq hspan hs]
      rw [hsame]
      split <;> rfl
    · rw [hmir.none_of_last hs (Nat.lt_of_not_le hcut)]
      have hno : counts capacity lifetime now s = false := by
        rw [counts, Bool.and_eq_false_iff, decide_eq_false_iff_not, decide_eq_false_iff_not]
        rcases hmir.gone hs (Nat.lt_of_not_le hcut) with hdead | hmany
        · left
          rw [h.lifetime_eq] at hdead
          omega
        · right
          rw [h.capacity_eq] at hmany
          omega
      rw [hno]
      rfl

/-- A change writes what the ledger says. -/
theorem Tracks.perform (h : Tracks capacity lifetime first c l clock) {p : Int × Change κ β}
    (hnow : clock ≤ p.1) (hfirst : first ≤ p.1) (hspan : p.1 - first ≤ Time.latest) :
    Tracks capacity lifetime first (c.perform p) (l.record capacity lifetime p) p.1 := by
  obtain ⟨now, change⟩ := p
  cases change with
  | put k v => exact h.write hnow hfirst hspan k v (fun _ _ => rfl) fun he => he
  | update k make =>
    rw [ExpiringCache.perform, update, Ledger.record, ← h.get?_eq hnow hspan k]
    refine h.write hnow hfirst hspan k _ (fun j hj => Table.getElem?_erase_of_ne _ hj) ?_
    intro j e he
    exact (Table.getElem?_erase_eq_some_iff.mp he).2

end Tracks

/-! ## Runs of changes -/

variable [Std.TransOrd κ] [Std.LawfulEqOrd κ]

/-- After changes in the order of time, at readings of the clock from `first` to `now` that do not
span more than 64 bits, the cache has seen the writes of their ledger. -/
theorem tracks_run (capacity : Nat) (lifetime : Int) {changes : List (Int × Change κ β)}
    (hchron : (changes.map Prod.fst).Pairwise (· ≤ ·)) {first now : Int}
    (hfirst : ∀ p ∈ changes, first ≤ p.1) (hnow : ∀ p ∈ changes, p.1 ≤ now)
    (hspan : now - first ≤ Time.latest) :
    Tracks (max capacity 1) lifetime first ((ExpiringCache.empty capacity lifetime).run changes)
      (ofChanges (max capacity 1) lifetime changes) now := by
  induction changes using List.reverseRecOn generalizing now with
  | nil => exact Tracks.empty capacity lifetime first now
  | append_singleton changes p ih =>
    rw [List.map_append, List.pairwise_append] at hchron
    obtain ⟨hearlier, -, hlast⟩ := hchron
    -- up to the last change, its own time is the clock
    have hbefore : ∀ q ∈ changes, q.1 ≤ p.1 := by
      intro q hq
      exact hlast q.1 (List.mem_map_of_mem hq) p.1 List.mem_cons_self
    have hlater : p.1 ≤ now := hnow p (by simp)
    have hroom : p.1 - first ≤ Time.latest := by omega
    have hfrom : ∀ q ∈ changes, first ≤ q.1 := fun q hq => hfirst q (List.mem_append_left _ hq)
    have hstep := (ih hearlier hfrom hbefore hroom).perform (Int.le_refl p.1)
      (hfirst p (by simp)) hroom
    rw [run, ofChanges, List.foldl_append, List.foldl_append]
    exact hstep.later hlater

/-- If the readings do span more, an entry that should have expired at once can still be found. -/
example : ((empty 2 0 : ExpiringCache Nat Nat).run [(Time.earliest, .put 1 7)]).get?
    Time.latest 1 = some 7 := by
  decide +kernel

/-- Four changes to a cache with room for two keys. The update of the first key is written after
the second key, so that the third key takes the place of the second. -/
def fourChanges : List (Int × Change Nat Nat) :=
  [(0, .put 1 7), (10, .put 2 5), (20, .update 1 fun v => v.getD 0 + 1), (30, .put 3 9)]

end ExpiringCache

end NextStop
