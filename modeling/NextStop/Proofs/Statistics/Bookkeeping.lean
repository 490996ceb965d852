import Mathlib.Data.List.Induction
import NextStop.Proofs.Statistics.Rewriting

/-!
# The bookkeeping of a cache

A clock may be set back, and then the entries of a cache no longer expire in the order in which
they were written. Nothing that bounds a cache looks at the clock: the queue has the generations
in their order and of every entry its write, so that an eviction that wants room finds an entry to
take, and what is left of a queue after its stale writes are dropped is no more than the entries.
`ExpiringCache.Kept` is what every change preserves, whatever the clock reads.

The entry of a key is that of the last change of the key, `ExpiringCache.LastWritten`. Changes at
one reading of the clock that write different keys, no more than there is room for, leave all that
they wrote, `ExpiringCache.Batch`.
-/

namespace NextStop

namespace ExpiringCache

variable {κ β : Type} [Ord κ]

/-- The bounds and the queue of a cache that was made for `capacity` entries. -/
structure Kept (capacity : Nat) (lifetime : Int) (c : ExpiringCache κ β) : Prop where
  capacity_eq : c.capacity = max capacity 1
  lifetime_eq : c.lifetime = lifetime
  ordered : c.Ordered
  size_le : c.entries.size ≤ c.capacity
  queue_le : c.order.toList.length ≤ 2 * c.entries.size + 64

/-- The last change of key `k` in a run of changes to a cache wrote value `v` at `time`. -/
def LastWritten (c : ExpiringCache κ β) (changes : List (Int × Change κ β)) (k : κ) (v : β)
    (time : Int) : Prop :=
  ∃ (before after : List (Int × Change κ β)) (change : Change κ β),
    changes = before ++ (time, change) :: after ∧ change.key = k ∧
      change.valueIn (c.run before) time = v ∧ ∀ later ∈ after, later.2.key ≠ k

/-- A cache within its bounds is well kept if an entry counts at least at the reading of its
write. -/
theorem Kept.wellKept {capacity : Nat} {lifetime : Int} {c : ExpiringCache κ β}
    (h : Kept capacity lifetime c) (hlifetime : 0 ≤ lifetime) : c.WellKept where
  ordered := h.ordered
  room := h.capacity_eq ▸ Nat.lt_of_lt_of_le Nat.one_pos (Nat.le_max_right capacity 1)
  lasting := h.lifetime_eq ▸ hlifetime

/-! ## Runs -/

@[simp] theorem run_append (c : ExpiringCache κ β) (before after : List (Int × Change κ β)) :
    c.run (before ++ after) = (c.run before).run after :=
  List.foldl_append

theorem run_concat (c : ExpiringCache κ β) (before : List (Int × Change κ β))
    (last : Int × Change κ β) : c.run (before ++ [last]) = (c.run before).perform last :=
  c.run_append before [last]

/-! ## The queue -/

/-- The queue has the write of an entry once. -/
theorem Ordered.count_eq_one [DecidableEq κ] {c : ExpiringCache κ β} (h : c.Ordered) {k : κ}
    {e : Entry β} (he : c.entries[k]? = some e) : c.order.toList.count (k, e.generation) = 1 := by
  have hnodup : c.order.toList.Nodup := by
    refine h.sorted.imp ?_
    rintro a b hlt rfl
    exact Nat.lt_irrefl _ hlt
  exact List.count_eq_one_of_mem hnodup (h.queued he)

variable [Std.TransOrd κ]

theorem Kept.empty (capacity : Nat) (lifetime : Int) :
    Kept capacity lifetime (ExpiringCache.empty capacity lifetime : ExpiringCache κ β) where
  capacity_eq := rfl
  lifetime_eq := rfl
  ordered := .empty capacity lifetime
  size_le := by
    rw [ExpiringCache.empty, Std.TreeMap.size_emptyc]
    exact Nat.zero_le _
  queue_le := by
    rw [ExpiringCache.empty, Fifo.toList_empty]
    exact Nat.zero_le _

variable [Std.LawfulEqOrd κ]

/-- Of the writes that are not stale there are no more than entries. -/
theorem Ordered.length_current_le {c : ExpiringCache κ β} (h : c.Ordered) :
    (c.order.toList.filter c.isCurrent).length ≤ c.entries.size := by
  rw [← List.length_map Prod.fst]
  apply Table.length_le_size
  · -- two current writes of one key would be of one generation
    refine List.pairwise_map.mpr ((h.sorted.sublist List.filter_sublist).imp_of_mem ?_)
    intro a b ha hb hlt hkey
    obtain ⟨e, he, hea⟩ := isCurrent_iff.mp (List.mem_filter.mp ha).2
    obtain ⟨e', he', heb⟩ := isCurrent_iff.mp (List.mem_filter.mp hb).2
    rw [hkey, he', Option.some.injEq] at he
    subst he
    exact Nat.ne_of_lt hlt (hea.symm.trans heb)
  · intro k hk
    obtain ⟨w, hw, rfl⟩ := List.mem_map.mp hk
    obtain ⟨e, he, -⟩ := isCurrent_iff.mp (List.mem_filter.mp hw).2
    exact Table.mem_iff.mpr ⟨e, he⟩

/-- Compacting bounds the queue by the entries. -/
theorem Ordered.length_compact_le {c : ExpiringCache κ β} (h : c.Ordered) :
    c.compact.order.toList.length ≤ 2 * c.compact.entries.size + 64 := by
  rw [compact_eq]
  dsimp only
  rw [ExpiringCache.compact]
  split
  · have hcurrent := h.length_current_le
    rw [Fifo.toList_filter]
    omega
  · rename_i hshort
    rw [Fifo.length_toList]
    exact Nat.le_of_not_lt hshort

/-! ## What every change keeps -/

/-- After a write, the bounds hold even if they did not before. -/
theorem Ordered.kept_put {c : ExpiringCache κ β} (h : c.Ordered) {capacity : Nat}
    (hcapacity : c.capacity = max capacity 1) (now : Int) (k : κ) (v : β) :
    Kept capacity c.lifetime (c.put now k v) := by
  obtain ⟨hordered, hsize, cut, hevicted⟩ := h.put now k v
  obtain ⟨hbefore, -⟩ := (h.entered now k v).evict now
  exact ⟨hevicted.capacity_eq.trans hcapacity, hevicted.lifetime_eq, hordered,
    le_of_le_of_eq hsize hevicted.capacity_eq.symm, hbefore.length_compact_le⟩

theorem Kept.perform {capacity : Nat} {lifetime : Int} {c : ExpiringCache κ β}
    (h : Kept capacity lifetime c) (change : Int × Change κ β) :
    Kept capacity lifetime (c.perform change) := by
  obtain rfl := h.lifetime_eq
  obtain ⟨now, change⟩ := change
  cases change with
  | put k v => exact h.ordered.kept_put h.capacity_eq now k v
  | update k make =>
    have herase : Ordered { c with entries := c.entries.erase k } :=
      h.ordered.restrict fun he => (Table.getElem?_erase_eq_some_iff.mp he).2
    exact herase.kept_put h.capacity_eq now k _

theorem Kept.run {capacity : Nat} {lifetime : Int} {c : ExpiringCache κ β}
    (h : Kept capacity lifetime c) (changes : List (Int × Change κ β)) :
    Kept capacity lifetime (c.run changes) := by
  induction changes generalizing c with
  | nil => exact h
  | cons change rest ih => exact ih (h.perform change)

/-! ## The last change of a key -/

/-- An entry was written by the last change of its key. -/
theorem lastWritten_of_entry (capacity : Nat) (lifetime : Int)
    (changes : List (Int × Change κ β)) {k : κ} {e : Entry β}
    (he : ((empty capacity lifetime).run changes).entries[k]? = some e) :
    (empty capacity lifetime).LastWritten changes k e.value e.written := by
  induction changes using List.reverseRecOn with
  | nil =>
    rw [run, List.foldl_nil, ExpiringCache.empty, Std.TreeMap.getElem?_emptyc] at he
    contradiction
  | append_singleton changes last ih =>
    rw [run_concat] at he
    rcases getElem?_of_perform he with ⟨hkey, rfl⟩ | ⟨hkey, hold⟩
    · refine ⟨changes, [], last.2, rfl, hkey, rfl, ?_⟩
      intro later hlater
      contradiction
    · obtain ⟨before, after, change, rfl, hk, hvalue, hafter⟩ := ih hold
      refine ⟨before, after ++ [last], change, List.append_assoc .., hk, hvalue, ?_⟩
      intro later hlater
      rcases List.mem_append.mp hlater with hmem | hmem
      · exact hafter later hmem
      · rw [List.mem_singleton.mp hmem]
        exact hkey

/-- The clock is set back after the first of three writes. -/
def setBack : List (Int × Change Nat Nat) := [(500, .put 1 7), (0, .put 2 5), (200, .put 3 9)]

/-- One cache comes from another by writing `pairs` at one reading of the clock, and has all of
them. -/
structure Batch (c : ExpiringCache κ β) (now : Int) (pairs : List (κ × β))
    (c' : ExpiringCache κ β) : Prop where
  wellKept : c'.WellKept
  capacity_eq : c'.capacity = c.capacity
  next_le : c.nextGeneration ≤ c'.nextGeneration
  written : ∀ p ∈ pairs, ∃ g, c'.entries[p.1]? = some ⟨p.2, now, g⟩ ∧ c.nextGeneration ≤ g
  recent : ∀ {k : κ} {e : Entry β}, c'.entries[k]? = some e → c.nextGeneration ≤ e.generation →
    k ∈ pairs.map Prod.fst

section Batch

variable {c c' : ExpiringCache κ β} {now : Int} {pairs : List (κ × β)}

omit [Std.TransOrd κ] [Std.LawfulEqOrd κ]

/-- With room for the keys of all entries since generation `g`, none of these is outnumbered. -/
theorem not_outnumbered_of_room {g : Nat} {ks : List κ} (hroom : ks.length ≤ c.capacity)
    (hrecent : ∀ {k : κ} {e : Entry β}, c.entries[k]? = some e → g ≤ e.generation → k ∈ ks)
    {k : κ} {e : Entry β} (he : c.entries[k]? = some e) (hle : g ≤ e.generation) :
    ¬c.Outnumbered e.generation := by
  rintro ⟨later, hnodup, hlength, hlater⟩
  have hcons : (k :: later).Nodup := by
    refine List.nodup_cons.mpr ⟨fun hmem => ?_, hnodup⟩
    obtain ⟨e', he', hlt⟩ := hlater k hmem
    obtain rfl := Option.some.inj (he.symm.trans he')
    exact Nat.lt_irrefl _ hlt
  have hsubset : k :: later ⊆ ks := by
    intro j hj
    rcases List.mem_cons.mp hj with rfl | hj
    · exact hrecent he hle
    · obtain ⟨e', he', hlt⟩ := hlater j hj
      exact hrecent he' (Nat.le_trans hle (Nat.le_of_lt hlt))
  have hcount : later.length + 1 ≤ ks.length := (List.subperm_of_subset hcons hsubset).length_le
  omega

theorem Batch.nil (h : c.WellKept) (now : Int) : c.Batch now [] c where
  wellKept := h
  capacity_eq := rfl
  next_le := Nat.le_refl _
  written p hp := by contradiction
  recent he hle := absurd hle (Nat.not_le_of_lt (h.ordered.generation_lt he))

variable [Std.TransOrd κ] [Std.LawfulEqOrd κ]

/-- When another entry enters, the recent ones are of the batch with it. -/
theorem Batch.recent_entered (h : c.Batch now pairs c') {k : κ} {v : β} {j : κ} {e : Entry β}
    (he : (c'.entered now k v).entries[j]? = some e) (hle : c.nextGeneration ≤ e.generation) :
    j ∈ (pairs ++ [(k, v)]).map Prod.fst := by
  rw [List.map_append, List.mem_append]
  by_cases hj : k = j
  · exact Or.inr (List.mem_singleton.mpr hj.symm)
  · rw [entered, Table.getElem?_insert_of_ne _ _ hj] at he
    exact Or.inl (h.recent he hle)

/-- As long as there is room for the whole batch, a write of another key takes none of it. -/
theorem Batch.put (h : c.Batch now pairs c') {k : κ} (hk : k ∉ pairs.map Prod.fst)
    (hroom : pairs.length < c.capacity) (v : β) :
    c.Batch now (pairs ++ [(k, v)]) (c'.put now k v) := by
  have hordered := h.wellKept.ordered
  obtain ⟨-, -, cut, hevicted⟩ := hordered.put now k v
  have hlength : ((pairs ++ [(k, v)]).map Prod.fst).length ≤ (c'.entered now k v).capacity := by
    rw [List.length_map, List.length_append]
    exact le_of_le_of_eq hroom h.capacity_eq.symm
  refine ⟨h.wellKept.put, hevicted.capacity_eq.trans h.capacity_eq,
    Nat.le_trans (Nat.le_succ_of_le h.next_le) (Nat.le_of_eq hevicted.next_eq.symm), ?_, ?_⟩
  · intro p hp
    rcases List.mem_append.mp hp with hp | hp
    · obtain ⟨g, he, hle⟩ := h.written p hp
      have hne : k ≠ p.1 := fun heq => hk (heq ▸ List.mem_map_of_mem hp)
      have hold : (c'.entered now k v).entries[p.1]? = some ⟨p.2, now, g⟩ := by
        rwa [entered, Table.getElem?_insert_of_ne _ _ hne]
      exact ⟨g, hordered.getElem?_put_of_stays hold (h.wellKept.isLive_of_written rfl)
        (not_outnumbered_of_room hlength h.recent_entered hold hle), hle⟩
    · rw [List.mem_singleton.mp hp]
      exact ⟨_, h.wellKept.getElem?_put_self, h.next_le⟩
  · intro j e he hle
    rw [hevicted.entries_eq] at he
    exact h.recent_entered (Option.filter_eq_some_iff.mp he).1 hle

/-- Writes of different keys, no more than there is room for, leave all that they wrote. -/
theorem WellKept.batch (h : c.WellKept) (now : Int) {pairs : List (κ × β)}
    (hkeys : (pairs.map Prod.fst).Nodup) (hroom : pairs.length ≤ c.capacity) :
    c.Batch now pairs (c.run (pairs.map fun p => (now, .put p.1 p.2))) := by
  induction pairs using List.reverseRecOn with
  | nil => exact .nil h now
  | append_singleton pairs last ih =>
    rw [List.map_append, List.nodup_append] at hkeys
    obtain ⟨hfront, -, hdisjoint⟩ := hkeys
    rw [List.length_append, List.length_singleton] at hroom
    rw [List.map_append, run_append]
    refine (ih hfront (Nat.le_of_succ_le hroom)).put ?_ hroom last.2
    intro hmem
    exact hdisjoint last.1 hmem last.1 (List.mem_singleton_self _) rfl

/-- What is written at one reading of the clock is found at it. -/
theorem WellKept.get?_batch (h : c.WellKept) (now : Int) {pairs : List (κ × β)}
    (hkeys : (pairs.map Prod.fst).Nodup) (hroom : pairs.length ≤ c.capacity) {p : κ × β}
    (hp : p ∈ pairs) :
    (c.run (pairs.map fun p => (now, .put p.1 p.2))).get? now p.1 = some p.2 := by
  have hbatch := h.batch now hkeys hroom
  obtain ⟨g, he, -⟩ := hbatch.written p hp
  exact get?_of_entry he (hbatch.wellKept.isLive_of_written rfl)

end Batch

end ExpiringCache

end NextStop
