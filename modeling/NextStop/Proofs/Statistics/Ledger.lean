import Mathlib.Data.List.Dedup
import Mathlib.Data.List.Perm.Subperm
import NextStop.Statistics.ExpiringCache

/-!
# The ledger of a cache

A ledger lists all writes to a cache, the newest first, and forgets nothing. What a bounded cache
whose entries expire should answer can be read off it: the last write of the key counts unless it
has expired or too many other keys have been written since. `Ledger.get?` is that answer, with
neither a queue nor generations, and `Ledger.ofChanges` is the ledger of a run of changes, in which
an update writes what its function makes of that answer.
-/

namespace NextStop

namespace ExpiringCache

/-- A change to a cache. -/
inductive Change (κ β : Type) where
  | put (key : κ) (value : β)
  | update (key : κ) (make : Option β → β)

variable {κ β : Type}

/-- The cache after a change at a reading of the clock. -/
def perform [Ord κ] (c : ExpiringCache κ β) : Int × Change κ β → ExpiringCache κ β
  | (now, .put k v) => c.put now k v
  | (now, .update k make) => c.update now k make

/-- The cache after a run of changes. -/
def run [Ord κ] (c : ExpiringCache κ β) (changes : List (Int × Change κ β)) :
    ExpiringCache κ β :=
  changes.foldl perform c

/-- A write to a cache. -/
structure Written (κ β : Type) where
  key : κ
  value : β
  time : Int

/-- All writes to a cache, the newest first. -/
abbrev Ledger (κ β : Type) := List (Written κ β)

/-- The last write of a key, the writes since, and how many there were before. -/
structure LastWrite (κ β : Type) where
  write : Written κ β
  since : Ledger κ β
  before : Nat

namespace LastWrite

/-- The same write when there has been another one since. -/
def followedBy (s : LastWrite κ β) (w : Written κ β) : LastWrite κ β :=
  { s with since := w :: s.since }

/-- The entry that a write makes; its generation is the number of writes before. -/
def entry (s : LastWrite κ β) : Entry β := ⟨s.write.value, s.write.time, s.before⟩

end LastWrite

namespace Ledger

variable [DecidableEq κ]

/-- The last write of a key. -/
def last? : Ledger κ β → κ → Option (LastWrite κ β)
  | [], _ => none
  | w :: older, k =>
    if w.key = k then some ⟨w, [], older.length⟩
    else (last? older k).map (·.followedBy w)

/-- How many different keys a ledger has. -/
def keyCount (l : Ledger κ β) : Nat := (l.map Written.key).dedup.length

/-- Whether a write counts: it has not expired, and fewer other keys than there is room for have
been written since. -/
def counts (capacity : Nat) (lifetime now : Int) (s : LastWrite κ β) : Bool :=
  now - s.write.time ≤ lifetime && keyCount s.since < capacity

/-- What a cache should answer that has seen the writes of a ledger. -/
def get? (capacity : Nat) (lifetime : Int) (l : Ledger κ β) (now : Int) (k : κ) : Option β :=
  ((l.last? k).filter (counts capacity lifetime now)).map (·.write.value)

/-- The ledger after a change. -/
def record (capacity : Nat) (lifetime : Int) (l : Ledger κ β) :
    Int × Change κ β → Ledger κ β
  | (now, .put k v) => ⟨k, v, now⟩ :: l
  | (now, .update k make) => ⟨k, make (l.get? capacity lifetime now k), now⟩ :: l

/-- The ledger of a run of changes. -/
def ofChanges (capacity : Nat) (lifetime : Int) (changes : List (Int × Change κ β)) :
    Ledger κ β :=
  changes.foldl (record capacity lifetime) []

/-- All writes are at readings of the clock from `first` to `last`. -/
def Within (first last : Int) (l : Ledger κ β) : Prop :=
  ∀ w ∈ l, first ≤ w.time ∧ w.time ≤ last

omit [DecidableEq κ] in
theorem Within.cons {first last : Int} {l : Ledger κ β} (h : l.Within first last)
    {w : Written κ β} (hw : first ≤ w.time ∧ w.time ≤ last) : Within first last (w :: l) :=
  List.forall_mem_cons.mpr ⟨hw, h⟩

omit [DecidableEq κ] in
theorem Within.later {first last now : Int} {l : Ledger κ β} (h : l.Within first last)
    (hnow : last ≤ now) : l.Within first now := by
  intro w hw
  exact ⟨(h w hw).1, Int.le_trans (h w hw).2 hnow⟩

/-! ## The last write of a key -/

theorem last?_cons_self (l : Ledger κ β) (w : Written κ β) :
    last? (w :: l) w.key = some ⟨w, [], l.length⟩ := by
  rw [last?, if_pos rfl]

theorem last?_cons_of_ne (l : Ledger κ β) {w : Written κ β} {k : κ} (h : w.key ≠ k) :
    last? (w :: l) k = (last? l k).map (·.followedBy w) := by
  rw [last?, if_neg h]

/-- A ledger with a last write of a key, taken apart at that write. -/
theorem last?_eq_some_iff {l : Ledger κ β} {k : κ} {s : LastWrite κ β} :
    l.last? k = some s ↔ ∃ older : Ledger κ β, l = s.since ++ s.write :: older ∧
      older.length = s.before ∧ s.write.key = k ∧ ∀ w ∈ s.since, w.key ≠ k := by
  induction l generalizing s with
  | nil => simp [last?]
  | cons w l ih =>
    by_cases hk : w.key = k
    · rw [last?, if_pos hk, Option.some.injEq]
      constructor
      · rintro rfl
        exact ⟨l, rfl, rfl, hk, by simp⟩
      · rintro ⟨older, hl, hlen, -, hsince⟩
        obtain ⟨write, since, before⟩ := s
        cases since with
        | nil =>
          obtain ⟨rfl, rfl⟩ := List.cons.inj hl
          obtain rfl : l.length = before := hlen
          rfl
        | cons x since =>
          obtain ⟨rfl, -⟩ := List.cons.inj hl
          exact absurd hk (hsince w List.mem_cons_self)
    · rw [last?_cons_of_ne l hk, Option.map_eq_some_iff]
      constructor
      · rintro ⟨s', hs', rfl⟩
        obtain ⟨older, rfl, hlen, hkey, hsince⟩ := ih.mp hs'
        refine ⟨older, rfl, hlen, hkey, ?_⟩
        intro x hx
        rcases List.mem_cons.mp hx with rfl | hx
        · exact hk
        · exact hsince x hx
      · rintro ⟨older, hl, hlen, hkey, hsince⟩
        obtain ⟨write, since, before⟩ := s
        cases since with
        | nil =>
          obtain ⟨rfl, rfl⟩ := List.cons.inj hl
          exact absurd hkey hk
        | cons x since =>
          obtain ⟨rfl, rfl⟩ := List.cons.inj hl
          refine ⟨⟨write, since, before⟩, ih.mpr ⟨older, rfl, hlen, hkey, ?_⟩, rfl⟩
          intro y hy
          exact hsince y (List.mem_cons_of_mem _ hy)

/-- As long as the readings of the clock do not span more than 64 bits, the age of an entry is the
time since its write. -/
theorem Within.age_eq {l : Ledger κ β} {first now : Int} (h : l.Within first now)
    (hspan : now - first ≤ Time.latest) {k : κ} {s : LastWrite κ β} (hs : l.last? k = some s) :
    s.entry.age now = now - s.write.time := by
  obtain ⟨older, rfl, -⟩ := last?_eq_some_iff.mp hs
  have hwritten := h s.write (by simp)
  have hfits : Time.Fits (now - s.write.time) := by
    unfold Time.Fits Time.earliest
    omega
  exact Time.wrap_of_fits hfits

theorem before_lt_length {l : Ledger κ β} {k : κ} {s : LastWrite κ β}
    (h : l.last? k = some s) : s.before < l.length := by
  obtain ⟨older, rfl, hlen, -, -⟩ := last?_eq_some_iff.mp h
  rw [List.length_append, List.length_cons, hlen]
  omega

/-- The keys written since the last write of a key are those with a later last write. -/
theorem mem_since_iff {l : Ledger κ β} {k j : κ} {s : LastWrite κ β} (h : l.last? k = some s) :
    j ∈ s.since.map Written.key ↔ ∃ s', l.last? j = some s' ∧ s.before < s'.before := by
  induction l generalizing s with
  | nil => contradiction
  | cons w l ih =>
    by_cases hk : w.key = k
    · rw [last?, if_pos hk, Option.some.injEq] at h
      subst h
      constructor
      · intro hj
        contradiction
      · rintro ⟨s', hs', hlt⟩
        have hle := before_lt_length hs'
        rw [List.length_cons] at hle
        exact absurd hlt (by show ¬l.length < s'.before; omega)
    · rw [last?_cons_of_ne l hk, Option.map_eq_some_iff] at h
      obtain ⟨s₀, hs₀, rfl⟩ := h
      rw [LastWrite.followedBy, List.map_cons, List.mem_cons]
      by_cases hj : w.key = j
      · subst hj
        constructor
        · intro _
          have hlt := before_lt_length hs₀
          exact ⟨_, last?_cons_self l w, hlt⟩
        · intro _
          exact Or.inl rfl
      · rw [last?_cons_of_ne l hj, ih hs₀]
        constructor
        · rintro (rfl | ⟨s', hs', hlt⟩)
          · contradiction
          · exact ⟨s'.followedBy w, by rw [hs']; rfl, hlt⟩
        · rintro ⟨s', hs', hlt⟩
          obtain ⟨s₁, hs₁, rfl⟩ := Option.map_eq_some_iff.mp hs'
          exact Or.inr ⟨s₁, hs₁, hlt⟩

/-! ## Counting keys -/

/-- Different keys of a ledger are no more than it has. -/
theorem length_le_keyCount {l : Ledger κ β} {ks : List κ} (hn : ks.Nodup)
    (hk : ∀ k ∈ ks, k ∈ l.map Written.key) : ks.length ≤ l.keyCount := by
  rw [keyCount]
  refine (List.subperm_of_subset hn ?_).length_le
  intro k hmem
  exact List.mem_dedup.mpr (hk k hmem)

theorem keyCount_le_cons (l : Ledger κ β) (w : Written κ β) :
    l.keyCount ≤ keyCount (w :: l) := by
  refine length_le_keyCount (List.nodup_dedup _) ?_
  intro k hk
  exact List.mem_cons_of_mem _ (List.mem_dedup.mp hk)

/-! ## Answers and records -/

/-- The answer for a key is the value of its last write, if that counts. -/
theorem get?_eq_some_iff {capacity : Nat} {lifetime now : Int} {l : Ledger κ β} {k : κ} {v : β} :
    l.get? capacity lifetime now k = some v ↔
      ∃ (newer : Ledger κ β) (w : Written κ β) (older : Ledger κ β),
        l = newer ++ w :: older ∧ w.key = k ∧ (∀ x ∈ newer, x.key ≠ k) ∧
          w.value = v ∧ now - w.time ≤ lifetime ∧ keyCount newer < capacity := by
  rw [get?, Option.map_eq_some_iff]
  constructor
  · rintro ⟨s, hs, hv⟩
    obtain ⟨hlast, hcounts⟩ := Option.filter_eq_some_iff.mp hs
    obtain ⟨older, hl, -, hkey, hsince⟩ := last?_eq_some_iff.mp hlast
    rw [counts, Bool.and_eq_true, decide_eq_true_eq, decide_eq_true_eq] at hcounts
    exact ⟨s.since, s.write, older, hl, hkey, hsince, hv, hcounts⟩
  · rintro ⟨newer, w, older, hl, hkey, hnewer, hv, hage, hroom⟩
    refine ⟨⟨w, newer, older.length⟩, ?_, hv⟩
    rw [Option.filter_eq_some_iff, counts, Bool.and_eq_true, decide_eq_true_eq,
      decide_eq_true_eq]
    exact ⟨last?_eq_some_iff.mpr ⟨older, hl, rfl, hkey, hnewer⟩, hage, hroom⟩

theorem ofChanges_concat (capacity : Nat) (lifetime : Int) (changes : List (Int × Change κ β))
    (p : Int × Change κ β) :
    ofChanges capacity lifetime (changes ++ [p]) =
      (ofChanges capacity lifetime changes).record capacity lifetime p := by
  rw [ofChanges, List.foldl_append]
  rfl

end Ledger

end ExpiringCache

end NextStop
