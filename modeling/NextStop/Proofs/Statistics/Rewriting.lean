import NextStop.Proofs.Statistics.Histories
import NextStop.Proofs.Statistics.LedgerAnswers

/-!
# Writes that push nothing out

A write may take entries with it: those that have expired, and those for which there is no room.
As long as the latter does not happen, `ExpiringCache.Spares`, what is left does not depend on the
order of the writes. `ExpiringCache.Rewritten` tells a cache after any number of such writes, all
at one reading of the clock, by the keys that were written: an entry of another key is left exactly
if it is sheltered by one that has not expired and was not written later. Two caches that come from
one by writes of the same keys then answer alike at every reading of the clock, as soon as they do
so for the written keys at the reading of the writes, `ExpiringCache.Rewritten.get?_agree`.
-/

namespace NextStop

namespace ExpiringCache

variable {κ β : Type}

/-- The key that a change writes. -/
def Change.key : Change κ β → κ
  | .put k _ => k
  | .update k _ => k

variable [Ord κ]

/-- The value that a change writes into a cache. -/
def Change.valueIn (c : ExpiringCache κ β) (now : Int) : Change κ β → β
  | .put _ v => v
  | .update k make => make (c.get? now k)

/-- From one cache to another, no entry has gone that had not expired. -/
def Spares (c c' : ExpiringCache κ β) (now : Int) : Prop := ∀ k ∈ c.keys now, k ∈ c'.entries

instance (c c' : ExpiringCache κ β) (now : Int) : Decidable (c.Spares c' now) :=
  inferInstanceAs (Decidable (∀ k ∈ c.keys now, k ∈ c'.entries))

/-- A cache whose queue is in order, with room for an entry, which counts at least at the reading
of its write. -/
structure WellKept (c : ExpiringCache κ β) : Prop where
  ordered : c.Ordered
  room : 0 < c.capacity
  lasting : 0 ≤ c.lifetime

/-- Of the keys outside `W`, one has an entry that has not expired and was not written after
`e`. -/
def Sheltered (c : ExpiringCache κ β) (now : Int) (W : κ → Prop) (e : Entry β) : Prop :=
  ∃ (j : κ) (l : Entry β), ¬W j ∧ c.entries[j]? = some l ∧ c.isLive now l = true ∧
    l.generation ≤ e.generation

/-- One cache comes from another by writes of the keys in `W` that push nothing out. -/
structure Rewritten (c : ExpiringCache κ β) (now : Int) (W : κ → Prop)
    (c' : ExpiringCache κ β) : Prop where
  lifetime_eq : c'.lifetime = c.lifetime
  next_le : c.nextGeneration ≤ c'.nextGeneration
  written : ∀ k, W k → ∃ e : Entry β, c'.entries[k]? = some e ∧ e.written = now ∧
    c.nextGeneration ≤ e.generation
  kept : ∀ (k : κ) (e : Entry β), ¬W k → (c'.entries[k]? = some e ↔
    c.entries[k]? = some e ∧ ((∃ j, W j) → c.Sheltered now W e))

/-! ## Entries -/

/-- Every entry was written before the writes to come. -/
theorem Ordered.generation_lt {c : ExpiringCache κ β} (h : c.Ordered) {k : κ} {e : Entry β}
    (he : c.entries[k]? = some e) : e.generation < c.nextGeneration :=
  h.below _ (h.queued he)

/-- What is written counts at the reading of the write. -/
theorem WellKept.isLive_of_written {c : ExpiringCache κ β} (h : c.WellKept) {now : Int}
    {e : Entry β} (he : e.written = now) : c.isLive now e = true := by
  have hage : e.age now = 0 := by
    rw [Entry.age, he, Int.sub_self]
    rfl
  rw [isLive, hage, decide_eq_true_eq]
  exact h.lasting

theorem get?_of_entry {c : ExpiringCache κ β} {now : Int} {k : κ} {e : Entry β}
    (he : c.entries[k]? = some e) (hlive : c.isLive now e = true) :
    c.get? now k = some e.value := by
  rw [get?, entry?, he, Option.filter_some_pos hlive, Option.map_some]

/-- Entries expire alike in caches that keep them for the same time. -/
theorem isLive_congr {c c' : ExpiringCache κ β} (h : c'.lifetime = c.lifetime) :
    c'.isLive = c.isLive := by
  funext reading e
  rw [isLive, isLive, h]

/-- A key has the same answer after its entry could only go, if it counts and did not go. -/
theorem get?_eq_of_kept {c c' : ExpiringCache κ β} (hlifetime : c'.lifetime = c.lifetime)
    {reading : Int} {k : κ} (hold : ∀ e : Entry β, c'.entries[k]? = some e → c.entries[k]? = some e)
    (hkept : ∀ e : Entry β, c.entries[k]? = some e → c.isLive reading e = true →
      c'.entries[k]? = some e) : c'.get? reading k = c.get? reading k := by
  have hentry : c'.entry? reading k = c.entry? reading k := by
    apply Option.ext
    intro e
    rw [ExpiringCache.entry?, ExpiringCache.entry?, isLive_congr hlifetime,
      Option.filter_eq_some_iff, Option.filter_eq_some_iff]
    constructor
    · rintro ⟨he, hlive⟩
      exact ⟨hold e he, hlive⟩
    · rintro ⟨he, hlive⟩
      exact ⟨hkept e he hlive, hlive⟩
  rw [get?, get?, hentry]

/-! ## Any number of writes -/

section Rewritten

variable {c c₁ c₂ : ExpiringCache κ β} {now : Int} {W W' : κ → Prop}

/-- Without a write, nothing is rewritten. -/
theorem Rewritten.refl (c : ExpiringCache κ β) (now : Int) {W : κ → Prop} (hW : ∀ k, ¬W k) :
    c.Rewritten now W c where
  lifetime_eq := rfl
  next_le := Nat.le_refl _
  written k hk := absurd hk (hW k)
  kept k e _ := by simp [hW]

theorem Rewritten.isLive_eq (h : c.Rewritten now W c₁) : c₁.isLive = c.isLive :=
  isLive_congr h.lifetime_eq

/-- An entry that has not expired and is not written stays. -/
theorem Rewritten.kept_of_live (h : c.Rewritten now W c₁) {k : κ} {e : Entry β} (hk : ¬W k)
    (he : c.entries[k]? = some e) (hlive : c.isLive now e = true) : c₁.entries[k]? = some e :=
  (h.kept k e hk).mpr ⟨he, fun _ => ⟨k, e, hk, he, hlive, Nat.le_refl _⟩⟩

/-- An entry that is sheltered after some writes was so before them. -/
theorem Rewritten.sheltered (hc : c.WellKept) (h : c.Rewritten now W c₁) {k : κ} {e : Entry β}
    (he : c.entries[k]? = some e) (hsheltered : c₁.Sheltered now W' e) :
    c.Sheltered now (fun k => W k ∨ W' k) e := by
  obtain ⟨j, l, hj, hl, hlive, hle⟩ := hsheltered
  rw [h.isLive_eq] at hlive
  have hunwritten : ¬W j := by
    intro hwritten
    obtain ⟨l', hl', -, hnext⟩ := h.written j hwritten
    obtain rfl := Option.some.inj (hl.symm.trans hl')
    have hlt := hc.ordered.generation_lt he
    omega
  exact ⟨j, l, not_or.mpr ⟨hunwritten, hj⟩, ((h.kept j l hunwritten).mp hl).1, hlive, hle⟩

/-- One run of writes after another. -/
theorem Rewritten.trans (hc : c.WellKept) (h : c.Rewritten now W c₁)
    (h' : c₁.Rewritten now W' c₂) : c.Rewritten now (fun k => W k ∨ W' k) c₂ where
  lifetime_eq := h'.lifetime_eq.trans h.lifetime_eq
  next_le := Nat.le_trans h.next_le h'.next_le
  written k hk := by
    by_cases hlast : W' k
    · obtain ⟨e, he, htime, hnext⟩ := h'.written k hlast
      exact ⟨e, he, htime, Nat.le_trans h.next_le hnext⟩
    · obtain ⟨e, he, htime, hnext⟩ := h.written k (hk.resolve_right hlast)
      have hlive : c₁.isLive now e = true := h.isLive_eq ▸ hc.isLive_of_written htime
      exact ⟨e, h'.kept_of_live hlast he hlive, htime, hnext⟩
  kept k e hk := by
    obtain ⟨hfirst, hlast⟩ := not_or.mp hk
    rw [h'.kept k e hlast, h.kept k e hfirst]
    constructor
    · rintro ⟨⟨he, hsheltered⟩, hsheltered'⟩
      refine ⟨he, ?_⟩
      rintro ⟨j, hj⟩
      by_cases hsecond : ∃ j, W' j
      · exact h.sheltered hc he (hsheltered' hsecond)
      · -- there was no second write, so the first ones alone shelter
        obtain ⟨i, l, hi, hl, hlive, hle⟩ :=
          hsheltered ⟨j, hj.resolve_right fun hw => hsecond ⟨j, hw⟩⟩
        exact ⟨i, l, not_or.mpr ⟨hi, fun hw => hsecond ⟨i, hw⟩⟩, hl, hlive, hle⟩
    · rintro ⟨he, hsheltered⟩
      refine ⟨⟨he, ?_⟩, ?_⟩
      · rintro ⟨j, hj⟩
        obtain ⟨i, l, hi, hl, hlive, hle⟩ := hsheltered ⟨j, Or.inl hj⟩
        exact ⟨i, l, (not_or.mp hi).1, hl, hlive, hle⟩
      · rintro ⟨j, hj⟩
        obtain ⟨i, l, hi, hl, hlive, hle⟩ := hsheltered ⟨j, Or.inr hj⟩
        obtain ⟨hi, hi'⟩ := not_or.mp hi
        exact ⟨i, l, hi', h.kept_of_live hi hl hlive, h.isLive_eq ▸ hlive, hle⟩

/-- What is found under a key that is not written stays the same. -/
theorem Rewritten.get?_eq (h : c.Rewritten now W c₁) {k : κ} (hk : ¬W k) :
    c₁.get? now k = c.get? now k := by
  refine get?_eq_of_kept h.lifetime_eq ?_ ?_
  · intro e he
    exact ((h.kept k e hk).mp he).1
  · intro e he hlive
    exact h.kept_of_live hk he hlive

/-- Two caches that come from one by writes of the same keys answer alike at every reading of the
clock, if they do so for the written keys at the reading of the writes. -/
theorem Rewritten.get?_agree (hc : c.WellKept) (h₁ : c.Rewritten now W c₁)
    (h₂ : c.Rewritten now W c₂) (hnow : ∀ k, W k → c₁.get? now k = c₂.get? now k)
    (reading : Int) (k : κ) : c₁.get? reading k = c₂.get? reading k := by
  by_cases hk : W k
  · obtain ⟨e₁, he₁, htime₁, -⟩ := h₁.written k hk
    obtain ⟨e₂, he₂, htime₂, -⟩ := h₂.written k hk
    have hvalue := hnow k hk
    rw [get?_of_entry he₁ (h₁.isLive_eq ▸ hc.isLive_of_written htime₁),
      get?_of_entry he₂ (h₂.isLive_eq ▸ hc.isLive_of_written htime₂), Option.some.injEq] at hvalue
    have hlive : c.isLive reading e₁ = c.isLive reading e₂ := by
      rw [isLive, isLive, Entry.age, Entry.age, htime₁, htime₂]
    rw [get?, get?, entry?, entry?, h₁.isLive_eq, h₂.isLive_eq, he₁, he₂, Option.filter_some,
      Option.filter_some, hlive]
    split
    · exact congrArg some hvalue
    · rfl
  · have hentry : c₁.entries[k]? = c₂.entries[k]? :=
      Option.ext fun e => (h₁.kept k e hk).trans (h₂.kept k e hk).symm
    rw [get?, get?, entry?, entry?, h₁.isLive_eq, h₂.isLive_eq, hentry]

end Rewritten

variable [Std.TransOrd κ]

theorem WellKept.empty (capacity : Nat) {lifetime : Int} (h : 0 ≤ lifetime) :
    (ExpiringCache.empty capacity lifetime : ExpiringCache κ β).WellKept :=
  ⟨.empty capacity lifetime, Nat.lt_of_lt_of_le Nat.one_pos (Nat.le_max_right capacity 1), h⟩

variable [Std.LawfulEqOrd κ]

/-! ## Keys -/

/-- The keys are those of the entries that have not expired. -/
theorem mem_keys_iff {c : ExpiringCache κ β} {now : Int} {k : κ} :
    k ∈ c.keys now ↔ ∃ e : Entry β, c.entries[k]? = some e ∧ c.isLive now e = true := by
  rw [(c.keys_answered now).2, get?, Option.isSome_map, entry?, Option.isSome_iff_exists]
  simp only [Option.filter_eq_some_iff]

/-- A cache that has all keys of another one spares it. -/
theorem spares_of_keys {c c' : ExpiringCache κ β} (h : ∀ k ∈ c.entries.keys, k ∈ c'.entries)
    (now : Int) : c.Spares c' now := by
  intro k hk
  obtain ⟨e, he, -⟩ := mem_keys_iff.mp hk
  exact h k (Std.TreeMap.mem_keys.mpr (Table.mem_iff.mpr ⟨e, he⟩))

/-- Caches that answer alike have the same keys. -/
theorem keys_eq_of_get? {c₁ c₂ : ExpiringCache κ β} {reading : Int}
    (h : ∀ k : κ, c₁.get? reading k = c₂.get? reading k) :
    c₁.keys reading = c₂.keys reading := by
  have hsorted : ∀ d : ExpiringCache κ β,
      (d.keys reading).Pairwise fun a b => compare a b = .lt := by
    intro d
    have hkeys : (d.entries.toList.map Prod.fst).Pairwise fun a b => compare a b = .lt := by
      rw [Std.TreeMap.map_fst_toList_eq_keys]
      exact Std.TreeMap.ordered_keys
    exact hkeys.sublist (List.filter_sublist.map _)
  refine Table.eq_of_ascending (hsorted c₁) (hsorted c₂) fun k => ?_
  rw [(c₁.keys_answered reading).2, (c₂.keys_answered reading).2, h]

/-! ## Eviction -/

/-- The oldest entry that an eviction leaves has not expired. -/
theorem Ordered.oldest_of_evict {c : ExpiringCache κ β} (h : c.Ordered) {now : Int} {k : κ}
    {e : Entry β} (he : (c.evict now).entries[k]? = some e) :
    ∃ (j : κ) (l : Entry β), (c.evict now).entries[j]? = some l ∧ c.isLive now l = true ∧
      l.generation ≤ e.generation := by
  fun_induction ExpiringCache.evict c now with
  | case1 c hpop =>
    have hqueued := h.queued he
    rw [(Fifo.pop?_eq_none_iff c.order).mp hpop] at hqueued
    contradiction
  | case2 c w rest hpop _ hstale ih =>
    rw [Bool.not_eq_true'] at hstale
    exact ih (h.dropStale hpop (by simp [hstale])) he
  | case3 c w rest hpop _ hcur hgo ih => exact ih (h.dropFront hpop) he
  | case4 c w rest hpop _ hcur hgo =>
    rw [Bool.not_eq_true', Bool.not_eq_false] at hcur
    obtain ⟨front, hfront, hgeneration⟩ := isCurrent_iff.mp hcur
    have hlive : c.isLive now front = true := by
      rw [mustGo, Bool.or_eq_true, not_or, entry?, hfront, Option.filter_some] at hgo
      by_contra hdead
      exact hgo.1 (by rw [if_neg hdead]; rfl)
    refine ⟨w.1, front, hfront, hlive, ?_⟩
    by_cases hk : w.1 = k
    · subst hk
      obtain rfl := Option.some.inj (hfront.symm.trans he)
      exact Nat.le_refl _
    · exact hgeneration ▸ Nat.le_of_lt (h.lt_of_front hpop he hk)

/-! ## A write -/

section Put

variable {c : ExpiringCache κ β} {now : Int} {k : κ} {v : β}

/-- On a write, an entry stays that has not expired and is not outnumbered. -/
theorem Ordered.getElem?_put_of_stays (h : c.Ordered) {j : κ} {e : Entry β}
    (he : (c.entered now k v).entries[j]? = some e) (hlive : c.isLive now e = true)
    (hroom : ¬(c.entered now k v).Outnumbered e.generation) :
    (c.put now k v).entries[j]? = some e := by
  obtain ⟨-, -, cut, hevicted⟩ := h.put now k v
  have hcut : cut ≤ e.generation := by
    by_contra hlt
    rcases hevicted.gone he (Nat.lt_of_not_le hlt) with hdead | houtnumbered
    · exact Bool.false_ne_true (hdead.symm.trans hlive)
    · exact hroom houtnumbered
  rw [hevicted.entries_eq, he]
  exact Option.filter_some_pos (decide_eq_true hcut)

/-- An entry that is just written is not evicted. -/
theorem WellKept.getElem?_put_self (h : c.WellKept) :
    (c.put now k v).entries[k]? = some ⟨v, now, c.nextGeneration⟩ := by
  refine h.ordered.getElem?_put_of_stays Std.TreeMap.getElem?_insert_self
    (h.isLive_of_written rfl) ?_
  rintro ⟨ks, -, hlength, hlater⟩
  obtain _ | ⟨j, rest⟩ := ks
  · exact Nat.not_le_of_lt h.room hlength
  · obtain ⟨e, he, hlt⟩ := hlater j List.mem_cons_self
    have hbefore := (h.ordered.entered now k v).generation_lt he
    exact Nat.not_le_of_lt hlt (Nat.le_of_lt_succ hbefore)

theorem WellKept.put (h : c.WellKept) : (c.put now k v).WellKept := by
  obtain ⟨hordered, -, cut, hevicted⟩ := h.ordered.put now k v
  exact ⟨hordered, hevicted.capacity_eq.symm ▸ h.room, hevicted.lifetime_eq.symm ▸ h.lasting⟩

/-- A write that pushes nothing out rewrites its key. -/
theorem WellKept.rewritten_put (h : c.WellKept) (hspares : c.Spares (c.put now k v) now) :
    c.Rewritten now (· = k) (c.put now k v) := by
  have hself : (c.put now k v).entries[k]? = some ⟨v, now, c.nextGeneration⟩ :=
    h.getElem?_put_self
  obtain ⟨-, -, cut, hevicted⟩ := h.ordered.put now k v
  have hold : ∀ {j : κ} {e : Entry β}, j ≠ k → (c.put now k v).entries[j]? = some e →
      c.entries[j]? = some e := by
    intro j e hj he
    rcases getElem?_of_put he with ⟨heq, -⟩ | ⟨-, he⟩
    · exact absurd heq.symm hj
    · exact he
  refine ⟨hevicted.lifetime_eq, hevicted.next_eq.symm ▸ Nat.le_succ _, ?_, ?_⟩
  · rintro j rfl
    exact ⟨_, hself, rfl, Nat.le_refl _⟩
  · intro j e hj
    constructor
    · intro he
      refine ⟨hold hj he, fun _ => ?_⟩
      have hevict := he
      rw [ExpiringCache.put, compact_eq] at hevict
      obtain ⟨i, l, hl, hlive, hle⟩ := (h.ordered.entered now k v).oldest_of_evict hevict
      have hput : (c.put now k v).entries[i]? = some l := by
        rw [ExpiringCache.put, compact_eq]
        exact hl
      -- the written entry is younger than `e`
      have hi : i ≠ k := by
        rintro rfl
        obtain rfl := Option.some.inj (hself.symm.trans hput)
        exact Nat.not_le_of_lt (h.ordered.generation_lt (hold hj he)) hle
      exact ⟨i, l, hi, hold hi hput, hlive, hle⟩
    · rintro ⟨he, hsheltered⟩
      obtain ⟨i, l, hi, hl, hlive, hle⟩ := hsheltered ⟨k, rfl⟩
      obtain ⟨l', hl'⟩ := Table.mem_iff.mp (hspares i (mem_keys_iff.mpr ⟨l, hl, hlive⟩))
      obtain rfl := Option.some.inj (hl.symm.trans (hold hi hl'))
      rw [hevicted.entries_eq i] at hl'
      have hcut : cut ≤ l.generation := by simpa using (Option.filter_eq_some_iff.mp hl').2
      rw [hevicted.entries_eq j, entered, Table.getElem?_insert_of_ne _ _ (Ne.symm hj), he,
        Option.filter_some, if_pos (decide_eq_true (Nat.le_trans hcut hle))]

end Put

/-- Without an entry, a cache is as well kept. -/
theorem WellKept.erase {c : ExpiringCache κ β} (h : c.WellKept) (k : κ) :
    WellKept { c with entries := c.entries.erase k } where
  ordered := h.ordered.restrict fun he => (Table.getElem?_erase_eq_some_iff.mp he).2
  room := h.room
  lasting := h.lasting

/-- A key that is to be written can be taken out before. -/
theorem Rewritten.of_erase {c c' : ExpiringCache κ β} {now : Int} {k : κ}
    (h : Rewritten { c with entries := c.entries.erase k } now (· = k) c') :
    c.Rewritten now (· = k) c' where
  lifetime_eq := h.lifetime_eq
  next_le := h.next_le
  written := h.written
  kept j e hj := by
    have hsame : ∀ {i : κ}, i ≠ k → (c.entries.erase k)[i]? = c.entries[i]? :=
      fun hi => Table.getElem?_erase_of_ne _ (Ne.symm hi)
    rw [h.kept j e hj]
    refine and_congr (by rw [hsame hj]) (imp_congr_right fun _ => ?_)
    refine exists_congr fun i => exists_congr fun l => and_congr_right fun hi => ?_
    rw [hsame hi]
    rfl

section Perform

variable {c : ExpiringCache κ β} {now : Int}

theorem WellKept.perform (h : c.WellKept) (change : Change κ β) :
    (c.perform (now, change)).WellKept := by
  cases change with
  | put k v => exact h.put
  | update k make => exact (h.erase k).put

theorem WellKept.lifetime_perform (h : c.WellKept) (change : Change κ β) :
    (c.perform (now, change)).lifetime = c.lifetime := by
  cases change with
  | put k v =>
    obtain ⟨-, -, cut, hevicted⟩ := h.ordered.put now k v
    exact hevicted.lifetime_eq
  | update k make =>
    obtain ⟨-, -, cut, hevicted⟩ := (h.erase k).ordered.put now k (make (c.get? now k))
    exact hevicted.lifetime_eq

/-- An entry after a change is the one that was written, or an earlier one of another key. -/
theorem getElem?_of_perform {change : Change κ β} {k : κ} {e : Entry β}
    (h : (c.perform (now, change)).entries[k]? = some e) :
    change.key = k ∧ e = ⟨change.valueIn c now, now, c.nextGeneration⟩ ∨
      change.key ≠ k ∧ c.entries[k]? = some e := by
  cases change with
  | put j v => exact getElem?_of_put h
  | update j make =>
    rcases getElem?_of_put h with hnew | ⟨hj, hold⟩
    · exact Or.inl hnew
    · exact Or.inr ⟨hj, (Table.getElem?_erase_eq_some_iff.mp hold).2⟩

/-- The entry that a change leaves under its key. -/
theorem WellKept.getElem?_perform_self (h : c.WellKept) (change : Change κ β) :
    (c.perform (now, change)).entries[change.key]? =
      some ⟨change.valueIn c now, now, c.nextGeneration⟩ := by
  cases change with
  | put k v => exact h.getElem?_put_self
  | update k make => exact (h.erase k).getElem?_put_self

theorem WellKept.get?_perform_self (h : c.WellKept) (change : Change κ β) :
    (c.perform (now, change)).get? now change.key = some (change.valueIn c now) :=
  get?_of_entry (h.getElem?_perform_self change) ((h.perform change).isLive_of_written rfl)

/-- What is found after a change under another key, if none has gone that counts at the reading of
the clock, which may be any. -/
theorem WellKept.get?_perform_of_ne (h : c.WellKept) {change : Change κ β} {reading : Int}
    (hspares : c.Spares (c.perform (now, change)) reading) {k : κ} (hk : change.key ≠ k) :
    (c.perform (now, change)).get? reading k = c.get? reading k := by
  have hold : ∀ e : Entry β, (c.perform (now, change)).entries[k]? = some e →
      c.entries[k]? = some e := by
    intro e he
    exact ((getElem?_of_perform he).resolve_left fun hnew => hk hnew.1).2
  refine get?_eq_of_kept (h.lifetime_perform change) hold ?_
  intro e he hlive
  obtain ⟨e', he'⟩ := Table.mem_iff.mp (hspares k (mem_keys_iff.mpr ⟨e, he, hlive⟩))
  obtain rfl := Option.some.inj (he.symm.trans (hold e' he'))
  exact he'

/-- A change that pushes nothing out rewrites its key. -/
theorem WellKept.rewritten_perform (h : c.WellKept) {change : Change κ β}
    (hspares : c.Spares (c.perform (now, change)) now) :
    c.Rewritten now (· = change.key) (c.perform (now, change)) := by
  cases change with
  | put k v => exact h.rewritten_put hspares
  | update k make =>
    refine ((h.erase k).rewritten_put fun j hj => hspares j ?_).of_erase
    obtain ⟨e, he, hlive⟩ := mem_keys_iff.mp hj
    exact mem_keys_iff.mpr ⟨e, (Table.getElem?_erase_eq_some_iff.mp he).2, hlive⟩

end Perform

end ExpiringCache

end NextStop
