import Mathlib.Data.List.Perm.Subperm
import Std.Data.TreeMap

/-!
# Tables as lists

A table is seen through its look-ups. Here the lists that a table gives are brought back to
them: the values, the keys, and the values of a table of lists. Where a list of keys is known
that covers the table, the table's own order of keys can be forgotten up to permutation.
-/

namespace NextStop

namespace Table

variable {κ β : Type} [Ord κ]

/-- The values of a table are those of its list of entries. -/
theorem values_eq_map_snd (m : Std.TreeMap κ β) : m.values = m.toList.map Prod.snd := by
  have h : m.values = m.foldr (fun _ b l => b :: l) [] := rfl
  rw [h, Std.TreeMap.foldr_eq_foldr_toList]
  induction m.toList with
  | nil => rfl
  | cons p rest ih => simp [ih]

variable [Std.TransOrd κ]

/-- A key is in a table when the look-up finds something. -/
theorem mem_iff {m : Std.TreeMap κ β} {k : κ} : k ∈ m ↔ ∃ v, m[k]? = some v := by
  rw [Std.TreeMap.mem_iff_isSome_getElem?, Option.isSome_iff_exists]

/-- In place of a table that is missing, an empty one does. -/
theorem getElem?_getD_empty (o : Option (Std.TreeMap κ β)) (k : κ) :
    (o.getD ∅)[k]? = o.bind (·[k]?) := by
  cases o with
  | none => exact Std.TreeMap.getElem?_emptyc
  | some m => rfl

/-- Giving up a table that is empty changes no look-up. -/
theorem bind_filter_isEmpty (o : Option (Std.TreeMap κ β)) (k : κ) :
    ((o.filter (!·.isEmpty)).bind fun m => m[k]?) = o.bind fun m => m[k]? := by
  cases o with
  | none => rfl
  | some m =>
    rw [Option.filter_some]
    cases h : m.isEmpty with
    | true => simp [Std.TreeMap.getElem?_of_isEmpty h]
    | false => simp

/-- Keys that a table of lists does not have add nothing to what it holds. -/
theorem flatMap_filter_contains (m : Std.TreeMap κ (List β)) (ks : List κ) :
    ((ks.filter m.contains).flatMap fun k => (m[k]?).getD []) =
      ks.flatMap fun k => (m[k]?).getD [] := by
  induction ks with
  | nil => rfl
  | cons k ks ih =>
    by_cases h : k ∈ m
    · rw [List.filter_cons_of_pos (Std.TreeMap.contains_iff_mem.mpr h), List.flatMap_cons,
        List.flatMap_cons, ih]
    · rw [List.filter_cons_of_neg (by simpa using h), ih, List.flatMap_cons,
        Std.TreeMap.getElem?_eq_none h]
      rfl

variable [Std.LawfulEqOrd κ]

theorem getElem?_erase_of_ne (m : Std.TreeMap κ β) {k k' : κ} (h : k ≠ k') :
    (m.erase k)[k']? = m[k']? := by
  rw [Std.TreeMap.getElem?_erase, if_neg (by rwa [Std.LawfulEqCmp.compare_eq_iff_eq])]

/-- What is left of a table without a key are the entries of the other keys. -/
theorem getElem?_erase_eq_some_iff {m : Std.TreeMap κ β} {k k' : κ} {v : β} :
    (m.erase k)[k']? = some v ↔ k ≠ k' ∧ m[k']? = some v := by
  by_cases h : k = k'
  · subst h
    rw [Std.TreeMap.getElem?_erase_self]
    constructor
    · intro hnone
      contradiction
    · rintro ⟨hne, -⟩
      contradiction
  · rw [getElem?_erase_of_ne m h]
    constructor
    · intro hv
      exact ⟨h, hv⟩
    · rintro ⟨-, hv⟩
      exact hv

theorem getElem?_insert_of_ne (m : Std.TreeMap κ β) {k k' : κ} (v : β) (h : k ≠ k') :
    (m.insert k v)[k']? = m[k']? := by
  rw [Std.TreeMap.getElem?_insert, if_neg (by rwa [Std.LawfulEqCmp.compare_eq_iff_eq])]

/-- Tables with the same look-ups are the same but for their shape. -/
theorem equiv_of_getElem? {m n : Std.TreeMap κ β} (h : ∀ k : κ, m[k]? = n[k]?) : m.Equiv n :=
  Std.TreeMap.Equiv.of_forall_constGet?_eq h

/-- A list of different keys that a table has is no longer than the table. -/
theorem length_le_size {m : Std.TreeMap κ β} {ks : List κ} (hn : ks.Nodup)
    (hk : ∀ k ∈ ks, k ∈ m) : ks.length ≤ m.size := by
  rw [← Std.TreeMap.length_keys]
  exact (List.subperm_of_subset hn fun k hmem =>
    Std.TreeMap.mem_keys.mpr (hk k hmem)).length_le

/-- A table of lists, read out key by key. -/
theorem values_flatten (m : Std.TreeMap κ (List β)) :
    m.values.flatten = m.keys.flatMap fun k => (m[k]?).getD [] := by
  rw [values_eq_map_snd, ← Std.TreeMap.map_fst_toList_eq_keys, List.flatMap_map,
    ← List.flatMap_def]
  apply List.flatMap_congr
  rintro ⟨k, v⟩ h
  rw [Std.TreeMap.mem_toList_iff_getElem?_eq_some.mp h]
  rfl

/-- The keys of a table are those of a covering list that the table has. -/
theorem keys_perm_filter (m : Std.TreeMap κ β) {ks : List κ} (hn : ks.Nodup)
    (hk : ∀ k ∈ m, k ∈ ks) : m.keys.Perm (ks.filter m.contains) := by
  rw [List.perm_ext_iff_of_nodup Std.TreeMap.nodup_keys (hn.filter _)]
  intro k
  rw [Std.TreeMap.mem_keys, List.mem_filter, Std.TreeMap.contains_iff_mem]
  constructor
  · intro h
    exact ⟨hk k h, h⟩
  · rintro ⟨-, h⟩
    exact h

/-- Lists of the same keys in ascending order are the same. -/
theorem eq_of_ascending {ks ks' : List κ} (h : ks.Pairwise fun a b => compare a b = .lt)
    (h' : ks'.Pairwise fun a b => compare a b = .lt) (hmem : ∀ k, k ∈ ks ↔ k ∈ ks') : ks = ks' := by
  have hnodup : ∀ {l : List κ}, (l.Pairwise fun a b => compare a b = .lt) → l.Nodup := by
    intro l hl
    refine hl.imp fun {a b} hlt heq => ?_
    rw [heq, Std.compare_self] at hlt
    contradiction
  have hperm := (List.perm_ext_iff_of_nodup (hnodup h) (hnodup h')).mpr hmem
  refine hperm.eq_of_pairwise ?_ h h'
  intro a b _ _ hlt hgt
  rw [Std.OrientedOrd.eq_swap, hgt] at hlt
  contradiction

/-- A table of lists holds what its look-ups give for the keys of a covering list. -/
theorem values_flatten_perm (m : Std.TreeMap κ (List β)) {ks : List κ} (hn : ks.Nodup)
    (hk : ∀ k ∈ m, k ∈ ks) :
    m.values.flatten.Perm (ks.flatMap fun k => (m[k]?).getD []) := by
  rw [values_flatten, ← flatMap_filter_contains m ks]
  exact (keys_perm_filter m hn hk).flatMap_right _

/-- Of a table of lists whose elements tell their keys, the elements of some keys are the lists of
these. -/
theorem filter_values_flatten {m : Std.TreeMap κ (List β)} {name : β → κ}
    (hname : ∀ k b, b ∈ (m[k]?).getD [] → name b = k) (these : κ → Bool) :
    m.values.flatten.filter (fun b => these (name b)) =
      (m.keys.filter these).flatMap fun k => (m[k]?).getD [] := by
  have hlist : ∀ k, ((m[k]?).getD []).filter (fun b => these (name b)) =
      if these k then (m[k]?).getD [] else [] := by
    intro k
    split
    · rename_i hk
      exact List.filter_eq_self.mpr fun b hb => hname k b hb ▸ hk
    · rename_i hk
      exact List.filter_eq_nil_iff.mpr fun b hb => hname k b hb ▸ hk
  rw [values_flatten]
  induction m.keys with
  | nil => rfl
  | cons k ks ih =>
    rw [List.flatMap_cons, List.filter_append, hlist, ih, List.filter_cons]
    split <;> rfl

/-- Such tables have the same elements of some keys, in the same order, if they have the same lists
of these. -/
theorem filter_values_flatten_congr {m m' : Std.TreeMap κ (List β)} {name : β → κ}
    (hname : ∀ k b, b ∈ (m[k]?).getD [] → name b = k)
    (hname' : ∀ k b, b ∈ (m'[k]?).getD [] → name b = k) {these : κ → Bool}
    (h : ∀ k, these k = true → m[k]? = m'[k]?) :
    m.values.flatten.filter (fun b => these (name b)) =
      m'.values.flatten.filter (fun b => these (name b)) := by
  have hkeys : m.keys.filter these = m'.keys.filter these := by
    refine eq_of_ascending (Std.TreeMap.ordered_keys.filter _)
      (Std.TreeMap.ordered_keys.filter _) fun k => ?_
    rw [List.mem_filter, List.mem_filter, Std.TreeMap.mem_keys, Std.TreeMap.mem_keys]
    refine and_congr_left fun hk => ?_
    rw [mem_iff, mem_iff, h k hk]
  rw [filter_values_flatten hname, filter_values_flatten hname', hkeys]
  refine List.flatMap_congr fun k hk => ?_
  rw [h k (List.mem_filter.mp hk).2]

end Table

end NextStop
