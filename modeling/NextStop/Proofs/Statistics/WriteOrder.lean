import NextStop.Proofs.Table
import NextStop.Statistics.ExpiringCache

/-!
# The queue of writes of a cache

A cache queues its writes in their order. `ExpiringCache.Ordered` says that the queue is in the
order of the generations and holds the current write of every entry, among writes that are
stale. Eviction takes writes from the front, so that the entries that it removes are those of
the oldest writes: `ExpiringCache.Evicted` says that there is a generation such that exactly the
entries before it are gone, and why each of them had to go.
-/

namespace NextStop

namespace ExpiringCache

variable {κ β : Type} [Ord κ]

/-- The queue holds writes in their order, none that is yet to come, and of every entry its
current write. -/
structure Ordered (c : ExpiringCache κ β) : Prop where
  sorted : c.order.toList.Pairwise fun a b => a.2 < b.2
  below : ∀ w ∈ c.order.toList, w.2 < c.nextGeneration
  queued : ∀ {k : κ} {e : Entry β}, c.entries[k]? = some e → (k, e.generation) ∈ c.order.toList

/-- At least as many entries as there is room for were written after generation `g`. -/
def Outnumbered (c : ExpiringCache κ β) (g : Nat) : Prop :=
  ∃ ks : List κ, ks.Nodup ∧ c.capacity ≤ ks.length ∧
    ∀ k ∈ ks, ∃ e : Entry β, c.entries[k]? = some e ∧ g < e.generation

/-- One cache comes from another by removing the entries of the generations before `cut`, each
of which had expired or was outnumbered. -/
structure Evicted (c : ExpiringCache κ β) (now : Int) (c' : ExpiringCache κ β) (cut : Nat) :
    Prop where
  capacity_eq : c'.capacity = c.capacity
  lifetime_eq : c'.lifetime = c.lifetime
  next_eq : c'.nextGeneration = c.nextGeneration
  cut_le : cut ≤ c.nextGeneration
  entries_eq : ∀ k : κ, c'.entries[k]? = (c.entries[k]?).filter fun e => cut ≤ e.generation
  gone : ∀ {k : κ} {e : Entry β}, c.entries[k]? = some e → e.generation < cut →
    c.isLive now e = false ∨ c.Outnumbered e.generation

theorem isCurrent_iff {c : ExpiringCache κ β} {w : κ × Nat} :
    c.isCurrent w = true ↔ ∃ e : Entry β, c.entries[w.1]? = some e ∧ e.generation = w.2 := by
  rw [isCurrent]
  cases c.entries[w.1]? with
  | none => simp
  | some e => simp

/-- A cache from which nothing is removed. -/
theorem Evicted.refl (c : ExpiringCache κ β) (now : Int) : c.Evicted now c 0 where
  capacity_eq := rfl
  lifetime_eq := rfl
  next_eq := rfl
  cut_le := Nat.zero_le _
  entries_eq k := by cases c.entries[k]? <;> simp [Option.filter_some]
  gone _ h := absurd h (Nat.not_lt_zero _)

/-! ## Taking a write from the front of the queue -/

/-- What is behind the front of the queue is later than the front, in order, and not yet to
come. -/
theorem Ordered.pop {c : ExpiringCache κ β} (h : c.Ordered) {w : κ × Nat}
    {rest : Fifo (κ × Nat)} (hpop : c.order.pop? = some (w, rest)) :
    (∀ v ∈ rest.toList, w.2 < v.2) ∧ rest.toList.Pairwise (fun a b => a.2 < b.2) ∧
      ∀ v ∈ rest.toList, v.2 < c.nextGeneration := by
  have hs := h.sorted
  have hb := h.below
  rw [Fifo.toList_of_pop? hpop] at hs hb
  obtain ⟨hfront, hrest⟩ := List.pairwise_cons.mp hs
  exact ⟨hfront, hrest, fun v hv => hb v (List.mem_cons_of_mem _ hv)⟩

/-- An entry whose write is not at the front of the queue has it behind the front. -/
theorem Ordered.mem_rest {c : ExpiringCache κ β} (h : c.Ordered) {w : κ × Nat}
    {rest : Fifo (κ × Nat)} (hpop : c.order.pop? = some (w, rest)) {k : κ} {e : Entry β}
    (he : c.entries[k]? = some e) (hw : (k, e.generation) ≠ w) :
    (k, e.generation) ∈ rest.toList := by
  have hq := h.queued he
  rw [Fifo.toList_of_pop? hpop] at hq
  exact (List.mem_cons.mp hq).resolve_left hw

/-- Entries other than the one at the front of the queue were written after it. -/
theorem Ordered.lt_of_front {c : ExpiringCache κ β} (h : c.Ordered) {w : κ × Nat}
    {rest : Fifo (κ × Nat)} (hpop : c.order.pop? = some (w, rest)) {k : κ} {e : Entry β}
    (he : c.entries[k]? = some e) (hk : w.1 ≠ k) : w.2 < e.generation :=
  (h.pop hpop).1 _ (h.mem_rest hpop he fun heq => hk (congrArg Prod.fst heq).symm)

/-- Dropping a stale write. -/
theorem Ordered.dropStale {c : ExpiringCache κ β} (h : c.Ordered) {w : κ × Nat}
    {rest : Fifo (κ × Nat)} (hpop : c.order.pop? = some (w, rest))
    (hstale : ¬c.isCurrent w = true) : Ordered { c with order := rest } where
  sorted := (h.pop hpop).2.1
  below := (h.pop hpop).2.2
  queued {k e} he := by
    refine h.mem_rest hpop he ?_
    rintro rfl
    exact hstale (isCurrent_iff.mpr ⟨e, he, rfl⟩)

theorem Evicted.dropStale {c : ExpiringCache κ β} {now : Int} {rest : Fifo (κ × Nat)}
    {c' : ExpiringCache κ β} {cut : Nat}
    (h : Evicted { c with order := rest } now c' cut) : c.Evicted now c' cut :=
  ⟨h.capacity_eq, h.lifetime_eq, h.next_eq, h.cut_le, h.entries_eq, h.gone⟩

/-! ## Fewer entries, fewer writes -/

/-- Without some of its entries, a cache stays in order. -/
theorem Ordered.restrict {c : ExpiringCache κ β} (h : c.Ordered)
    {m : Std.TreeMap κ (Entry β)}
    (hm : ∀ {k : κ} {e : Entry β}, m[k]? = some e → c.entries[k]? = some e) :
    Ordered { c with entries := m } where
  sorted := h.sorted
  below := h.below
  queued he := h.queued (hm he)

/-- Compacting the queue changes nothing else. -/
theorem compact_eq (c : ExpiringCache κ β) :
    c.compact = { c with order := c.compact.order } := by
  rw [compact]
  split <;> rfl

/-- Compacting keeps the order of the queue and every current write. -/
theorem Ordered.compact {c : ExpiringCache κ β} (h : c.Ordered) : c.compact.Ordered := by
  rw [ExpiringCache.compact]
  split
  · constructor
    · rw [Fifo.toList_filter]
      exact h.sorted.sublist List.filter_sublist
    · intro w hw
      rw [Fifo.toList_filter] at hw
      exact h.below w (List.mem_of_mem_filter hw)
    · intro k e he
      rw [Fifo.toList_filter, List.mem_filter]
      exact ⟨h.queued he, isCurrent_iff.mpr ⟨e, he, rfl⟩⟩
  · exact h

variable [Std.TransOrd κ]

theorem Ordered.empty (capacity : Nat) (lifetime : Int) :
    (ExpiringCache.empty capacity lifetime : ExpiringCache κ β).Ordered where
  sorted := List.Pairwise.nil
  below w hw := by
    rw [ExpiringCache.empty, Fifo.toList_empty] at hw
    contradiction
  queued {k e} he := by
    rw [ExpiringCache.empty, Std.TreeMap.getElem?_emptyc] at he
    contradiction

variable [Std.LawfulEqOrd κ]

/-! ## Taking the oldest entry -/

/-- Dropping the oldest write with its entry. -/
theorem Ordered.dropFront {c : ExpiringCache κ β} (h : c.Ordered) {w : κ × Nat}
    {rest : Fifo (κ × Nat)} (hpop : c.order.pop? = some (w, rest)) :
    Ordered { c with order := rest, entries := c.entries.erase w.1 } where
  sorted := (h.pop hpop).2.1
  below := (h.pop hpop).2.2
  queued {k e} he := by
    obtain ⟨hk, he⟩ := Table.getElem?_erase_eq_some_iff.mp he
    exact h.mem_rest hpop he fun heq => hk (congrArg Prod.fst heq).symm

/-- When there are too many entries, the one at the front of the queue is outnumbered by the
others. -/
theorem Ordered.outnumbered {c : ExpiringCache κ β} (h : c.Ordered) {w : κ × Nat}
    {rest : Fifo (κ × Nat)} (hpop : c.order.pop? = some (w, rest))
    (hcur : c.isCurrent w = true) (hsize : c.capacity < c.entries.size) :
    c.Outnumbered w.2 := by
  obtain ⟨e, he, -⟩ := isCurrent_iff.mp hcur
  have hmem : w.1 ∈ c.entries := Table.mem_iff.mpr ⟨e, he⟩
  refine ⟨(c.entries.erase w.1).keys, Std.TreeMap.nodup_keys, ?_, ?_⟩
  · rw [Std.TreeMap.length_keys, Std.TreeMap.size_erase,
      if_pos (Std.TreeMap.contains_iff_mem.mpr hmem)]
    omega
  · intro k hk
    obtain ⟨e', he'⟩ := Table.mem_iff.mp (Std.TreeMap.mem_keys.mp hk)
    obtain ⟨hwk, he'⟩ := Table.getElem?_erase_eq_some_iff.mp he'
    exact ⟨e', he', h.lt_of_front hpop he' hwk⟩

/-- The entry at the front of the queue goes because it has expired or is outnumbered. -/
theorem Ordered.gone_of_mustGo {c : ExpiringCache κ β} (h : c.Ordered) {now : Int}
    {w : κ × Nat} {rest : Fifo (κ × Nat)} (hpop : c.order.pop? = some (w, rest))
    (hcur : c.isCurrent w = true) (hgo : c.mustGo now w.1 = true) {e : Entry β}
    (he : c.entries[w.1]? = some e) : c.isLive now e = false ∨ c.Outnumbered e.generation := by
  obtain ⟨e', he', hgen⟩ := isCurrent_iff.mp hcur
  obtain rfl : e' = e := Option.some.inj (he'.symm.trans he)
  rw [mustGo, entry?, he, Bool.or_eq_true, decide_eq_true_eq] at hgo
  rcases hgo with hdead | hsize
  · left
    rw [Option.filter_some, Option.isNone_iff_eq_none] at hdead
    simpa using hdead
  · right
    rw [hgen]
    exact h.outnumbered hpop hcur hsize

theorem Evicted.dropFront {c : ExpiringCache κ β} (h : c.Ordered) {now : Int} {w : κ × Nat}
    {rest : Fifo (κ × Nat)} (hpop : c.order.pop? = some (w, rest))
    (hcur : c.isCurrent w = true) (hgo : c.mustGo now w.1 = true) {c' : ExpiringCache κ β}
    {cut : Nat}
    (hev : Evicted { c with order := rest, entries := c.entries.erase w.1 } now c' cut) :
    c.Evicted now c' (max cut (w.2 + 1)) where
  capacity_eq := hev.capacity_eq
  lifetime_eq := hev.lifetime_eq
  next_eq := hev.next_eq
  cut_le := by
    have hcut : cut ≤ c.nextGeneration := hev.cut_le
    have hw := h.below w (by rw [Fifo.toList_of_pop? hpop]; exact List.mem_cons_self)
    omega
  entries_eq k := by
    rw [hev.entries_eq k]
    by_cases hk : w.1 = k
    · subst hk
      obtain ⟨e, he, hgen⟩ := isCurrent_iff.mp hcur
      rw [Std.TreeMap.getElem?_erase_self, he, Option.filter_some,
        if_neg (by simp only [decide_eq_true_eq]; omega)]
      rfl
    · rw [Table.getElem?_erase_of_ne _ hk]
      cases he : c.entries[k]? with
      | none => rfl
      | some e =>
        have hlt := h.lt_of_front hpop he hk
        have hsame : max cut (w.2 + 1) ≤ e.generation ↔ cut ≤ e.generation := by omega
        simp only [Option.filter_some, hsame]
  gone {k e} he hlt := by
    by_cases hk : w.1 = k
    · subst hk
      exact h.gone_of_mustGo hpop hcur hgo he
    · have hfront := h.lt_of_front hpop he hk
      have he' := Table.getElem?_erase_eq_some_iff.mpr ⟨hk, he⟩
      rcases hev.gone he' (by omega) with hdead | ⟨ks, hn, hlen, hks⟩
      · exact Or.inl hdead
      · refine Or.inr ⟨ks, hn, hlen, ?_⟩
        intro j hj
        obtain ⟨e₂, he₂, hlt₂⟩ := hks j hj
        exact ⟨e₂, (Table.getElem?_erase_eq_some_iff.mp he₂).2, hlt₂⟩

/-! ## A whole eviction -/

/-- A cache without a queue has no entries. -/
theorem Ordered.size_eq_zero {c : ExpiringCache κ β} (h : c.Ordered)
    (hpop : c.order.pop? = none) : c.entries.size = 0 := by
  have hnil := (Fifo.pop?_eq_none_iff c.order).mp hpop
  rw [← Std.TreeMap.length_keys, List.length_eq_zero_iff, List.eq_nil_iff_forall_not_mem]
  intro k hk
  obtain ⟨e, he⟩ := Table.mem_iff.mp (Std.TreeMap.mem_keys.mp hk)
  have hq := h.queued he
  rw [hnil] at hq
  contradiction

/-- Eviction removes the entries before some generation, each of which had to go, and leaves no
more than there is room for. -/
theorem Ordered.evict {c : ExpiringCache κ β} (h : c.Ordered) (now : Int) :
    (c.evict now).Ordered ∧ (c.evict now).entries.size ≤ c.capacity ∧
      ∃ cut, c.Evicted now (c.evict now) cut := by
  fun_induction ExpiringCache.evict c now with
  | case1 c hpop =>
    refine ⟨h, ?_, 0, Evicted.refl c now⟩
    rw [h.size_eq_zero hpop]
    exact Nat.zero_le _
  | case2 c w rest hpop _ hstale ih =>
    rw [Bool.not_eq_true'] at hstale
    obtain ⟨hord, hsize, cut, hev⟩ := ih (h.dropStale hpop (by simp [hstale]))
    exact ⟨hord, hsize, cut, hev.dropStale⟩
  | case3 c w rest hpop _ hcur hgo ih =>
    rw [Bool.not_eq_true', Bool.not_eq_false] at hcur
    obtain ⟨hord, hsize, cut, hev⟩ := ih (h.dropFront hpop)
    exact ⟨hord, hsize, max cut (w.2 + 1), hev.dropFront h hpop hcur hgo⟩
  | case4 c w rest hpop _ _ hgo =>
    refine ⟨h, ?_, 0, Evicted.refl c now⟩
    rw [mustGo, Bool.or_eq_true, decide_eq_true_eq, not_or] at hgo
    exact Nat.le_of_not_lt hgo.2

/-! ## A write -/

/-- A cache with a new entry, from which nothing has been evicted yet. -/
def entered (c : ExpiringCache κ β) (now : Int) (k : κ) (v : β) : ExpiringCache κ β :=
  { c with
    entries := c.entries.insert k ⟨v, now, c.nextGeneration⟩
    order := c.order.push (k, c.nextGeneration)
    nextGeneration := c.nextGeneration + 1 }

/-- A new entry enters at the end of the queue. -/
theorem Ordered.entered {c : ExpiringCache κ β} (h : c.Ordered) (now : Int) (k : κ) (v : β) :
    (c.entered now k v).Ordered where
  sorted := by
    rw [ExpiringCache.entered, Fifo.toList_push, List.pairwise_append]
    refine ⟨h.sorted, List.pairwise_singleton _ _, ?_⟩
    intro w hw last hlast
    rw [List.mem_singleton.mp hlast]
    exact h.below w hw
  below w hw := by
    rw [ExpiringCache.entered, Fifo.toList_push, List.mem_append, List.mem_singleton] at hw
    rcases hw with hold | rfl
    · exact Nat.lt_succ_of_lt (h.below w hold)
    · exact Nat.lt_succ_self _
  queued {j e} he := by
    rw [ExpiringCache.entered] at he ⊢
    rw [Fifo.toList_push, List.mem_append, List.mem_singleton]
    by_cases hk : k = j
    · subst hk
      rw [Std.TreeMap.getElem?_insert_self, Option.some.injEq] at he
      subst he
      exact Or.inr rfl
    · rw [Table.getElem?_insert_of_ne _ _ hk] at he
      exact Or.inl (h.queued he)

/-- A write enters its entry and evicts what has to go. -/
theorem Ordered.put {c : ExpiringCache κ β} (h : c.Ordered) (now : Int) (k : κ) (v : β) :
    (c.put now k v).Ordered ∧ (c.put now k v).entries.size ≤ c.capacity ∧
      ∃ cut, (c.entered now k v).Evicted now (c.put now k v) cut := by
  obtain ⟨hordered, hsize, cut, hevicted⟩ := (h.entered now k v).evict now
  have hcompact := hordered.compact
  have hput : c.put now k v = ((c.entered now k v).evict now).compact := rfl
  rw [compact_eq] at hcompact hput
  rw [hput]
  exact ⟨hcompact, hsize, cut, hevicted.capacity_eq, hevicted.lifetime_eq, hevicted.next_eq,
    hevicted.cut_le, hevicted.entries_eq, hevicted.gone⟩

end ExpiringCache

end NextStop
