import Mathlib.Data.List.Basic

/-!
# Stable sorting

An order may fail to tell elements apart. A list in such an order is determined by its ties: by
the elements that are tied with each one, in their places, `StableSort.eq_of_tied`. Sorting keeps
ties as they are, so it does not matter whether a list is filtered before it is sorted or after,
`StableSort.filter_mergeSort`. Most orders here compare a key of the elements, such as their time.
-/

namespace NextStop

namespace StableSort

variable {β : Type} {le : β → β → Bool}

/-- Whether an order does not tell two elements apart. -/
def tied (le : β → β → Bool) (a b : β) : Bool := le a b && le b a

theorem tied_iff {a b : β} : tied le a b = true ↔ le a b = true ∧ le b a = true :=
  Bool.and_eq_true_iff

section Total

variable (htotal : ∀ a b, (le a b || le b a) = true)

include htotal

theorem tied_self (a : β) : tied le a a = true := by
  have hself := htotal a a
  rw [Bool.or_self] at hself
  exact tied_iff.mpr ⟨hself, hself⟩

/-- The first element of a list in order is not after any element of a list with the same ties. -/
theorem head_le {a : β} {xs ys : List β} (h : (a :: xs).Pairwise fun a b => le a b = true)
    (hsame : ∀ c, (a :: xs).filter (tied le c) = ys.filter (tied le c)) {b : β} (hb : b ∈ ys) :
    le a b = true := by
  have hmem : b ∈ (a :: xs).filter (tied le b) := by
    rw [hsame]
    exact List.mem_filter.mpr ⟨hb, tied_self htotal b⟩
  rcases List.mem_cons.mp (List.mem_filter.mp hmem).1 with rfl | hrest
  · exact (tied_iff.mp (tied_self htotal b)).1
  · exact (List.pairwise_cons.mp h).1 b hrest

/-- The order and the ties determine a list. -/
theorem eq_of_tied {xs ys : List β} (hx : xs.Pairwise fun a b => le a b = true)
    (hy : ys.Pairwise fun a b => le a b = true)
    (hsame : ∀ c, xs.filter (tied le c) = ys.filter (tied le c)) : xs = ys := by
  induction xs generalizing ys with
  | nil =>
    cases ys with
    | nil => rfl
    | cons b ys =>
      have hnil := hsame b
      rw [List.filter_cons_of_pos (tied_self htotal b)] at hnil
      contradiction
  | cons a xs ih =>
    cases ys with
    | nil =>
      have hnil := hsame a
      rw [List.filter_cons_of_pos (tied_self htotal a)] at hnil
      contradiction
    | cons b ys =>
      have htied : tied le a b = true :=
        tied_iff.mpr ⟨head_le htotal hx hsame List.mem_cons_self,
          head_le htotal hy (fun c => (hsame c).symm) List.mem_cons_self⟩
      -- the first elements are tied, and so are the first of those tied with either
      have hfirst := hsame a
      rw [List.filter_cons_of_pos (tied_self htotal a), List.filter_cons_of_pos htied,
        List.cons.injEq] at hfirst
      obtain ⟨rfl, -⟩ := hfirst
      have htail : ∀ c, xs.filter (tied le c) = ys.filter (tied le c) := by
        intro c
        have hall := hsame c
        rw [List.filter_cons, List.filter_cons] at hall
        split at hall
        · exact (List.cons.inj hall).2
        · exact hall
      rw [ih (List.pairwise_cons.mp hx).2 (List.pairwise_cons.mp hy).2 htail]

variable (htrans : ∀ a b c, le a b = true → le b c = true → le a c = true)

include htrans

/-- Sorting leaves ties as they are. -/
theorem filter_tied_mergeSort (c : β) (xs : List β) :
    (xs.mergeSort le).filter (tied le c) = xs.filter (tied le c) := by
  have hties : (xs.filter (tied le c)).Pairwise fun a b => le a b = true := by
    refine List.pairwise_of_forall_mem_list ?_
    intro a ha b hb
    exact htrans a c b (tied_iff.mp (List.mem_filter.mp ha).2).2
      (tied_iff.mp (List.mem_filter.mp hb).2).1
  have hsub := (List.sublist_mergeSort htrans htotal hties List.filter_sublist).filter (tied le c)
  have hperm := (List.mergeSort_perm xs le).filter (tied le c)
  rw [List.filter_filter] at hsub
  simp only [Bool.and_self] at hsub
  exact (hsub.eq_of_length hperm.length_eq.symm).symm

/-- What a filter leaves of a sorted list is the sorted rest. -/
theorem filter_mergeSort (p : β → Bool) (xs : List β) :
    (xs.mergeSort le).filter p = (xs.filter p).mergeSort le := by
  refine eq_of_tied htotal ((List.pairwise_mergeSort htrans htotal xs).filter p)
    (List.pairwise_mergeSort htrans htotal _) ?_
  intro c
  rw [filter_tied_mergeSort htotal htrans, List.filter_comm,
    filter_tied_mergeSort htotal htrans, List.filter_comm]

end Total

/-! ## Orders by a key -/

section Key

variable {κ : Type} [LE κ] [DecidableLE κ] [Std.IsLinearPreorder κ] (key : β → κ)

theorem key_trans (a b c : β) (hab : decide (key a ≤ key b) = true)
    (hbc : decide (key b ≤ key c) = true) : decide (key a ≤ key c) = true :=
  decide_eq_true (Std.le_trans (of_decide_eq_true hab) (of_decide_eq_true hbc))

theorem key_total (a b : β) : (decide (key a ≤ key b) || decide (key b ≤ key a)) = true := by
  rw [Bool.or_eq_true, decide_eq_true_eq, decide_eq_true_eq]
  exact Std.le_total

end Key

end StableSort

end NextStop
