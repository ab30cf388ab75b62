import Mathlib.Algebra.BigOperators.Group.Finset.Piecewise
import Mathlib.Algebra.Order.BigOperators.Group.Finset

/-!
# Highest values

A list of keys with values, of which each key counts with its highest value. One more
value adds what it goes beyond the highest one before.
-/
namespace Tally

variable {κ : Type} [DecidableEq κ]

/-- The highest value of the key, 0 if there is none. -/
def highest (l : List (κ × Nat)) (k : κ) : Nat :=
  l.foldr (fun p n => if p.1 = k then max p.2 n else n) 0

/-- The sum of the highest values of all keys. -/
def total (l : List (κ × Nat)) : Nat := ∑ k ∈ (l.map Prod.fst).toFinset, highest l k

section
variable {l : List (κ × Nat)} {k : κ}

theorem highest_of_not_mem (h : k ∉ l.map Prod.fst) : highest l k = 0 := by
  induction l with
  | nil => rfl
  | cons p l ih =>
    rw [List.map_cons, List.mem_cons, not_or] at h
    show (if p.1 = k then max p.2 (highest l k) else highest l k) = 0
    rw [if_neg (Ne.symm h.1), ih h.2]

theorem highest_snoc (l : List (κ × Nat)) (p : κ × Nat) (k : κ) :
    highest (l ++ [p]) k = if p.1 = k then max (highest l k) p.2 else highest l k := by
  induction l with
  | nil =>
    show (if p.1 = k then max p.2 0 else 0) = if p.1 = k then max 0 p.2 else 0
    rw [Nat.max_comm]
  | cons q l ih =>
    show (if q.1 = k then max q.2 (highest (l ++ [p]) k) else highest (l ++ [p]) k) =
      if p.1 = k then max (if q.1 = k then max q.2 (highest l k) else highest l k) p.2
      else if q.1 = k then max q.2 (highest l k) else highest l k
    rw [ih]
    split
    · split
      · exact (Nat.max_assoc _ _ _).symm
      · rfl
    · rfl

/-- The sum may as well run over more keys. -/
theorem total_eq_sum (l : List (κ × Nat)) {S : Finset κ} (h : (l.map Prod.fst).toFinset ⊆ S) :
    total l = ∑ k ∈ S, highest l k := by
  refine Finset.sum_subset h fun k _ hk => highest_of_not_mem ?_
  rwa [List.mem_toFinset] at hk

/-- A value adds what it goes beyond the highest one before. -/
theorem total_snoc (l : List (κ × Nat)) (k : κ) (n : Nat) :
    total (l ++ [(k, n)]) = total l + (n - highest l k) := by
  have hkeys : ((l ++ [(k, n)]).map Prod.fst).toFinset = insert k (l.map Prod.fst).toFinset := by
    rw [List.map_append, List.toFinset_append, Finset.union_comm]
    rfl
  have hval : ∀ i, highest (l ++ [(k, n)]) i =
      highest l i + if i = k then n - highest l k else 0 := by
    intro i
    rw [highest_snoc]
    by_cases hi : k = i
    · rw [if_pos hi, if_pos hi.symm, hi]
      omega
    · rw [if_neg hi, if_neg (Ne.symm hi), Nat.add_zero]
  rw [total, hkeys, total_eq_sum l (Finset.subset_insert k _),
    Finset.sum_congr rfl fun i _ => hval i,
    Finset.sum_add_distrib, Finset.sum_ite_eq', if_pos (Finset.mem_insert_self _ _)]

theorem highest_le {f : κ → Nat} (h : ∀ p ∈ l, p.2 ≤ f p.1) (k : κ) : highest l k ≤ f k := by
  induction l with
  | nil => exact Nat.zero_le _
  | cons p l ih =>
    have ih := ih fun q hq => h q (List.mem_cons_of_mem p hq)
    show (if p.1 = k then max p.2 (highest l k) else highest l k) ≤ f k
    split
    · next heq => exact Nat.max_le.mpr ⟨heq ▸ h p List.mem_cons_self, ih⟩
    · exact ih

theorem highest_le_total (l : List (κ × Nat)) (k : κ) : highest l k ≤ total l := by
  by_cases hk : k ∈ l.map Prod.fst
  · exact Finset.single_le_sum (fun _ _ => Nat.zero_le _) (List.mem_toFinset.mpr hk)
  · rw [highest_of_not_mem hk]
    exact Nat.zero_le _

/-- Values that are no higher have no higher sum. -/
theorem total_mono {l' : List (κ × Nat)} (h : ∀ k, highest l k ≤ highest l' k) :
    total l ≤ total l' := by
  rw [total_eq_sum l Finset.subset_union_left,
    total_eq_sum l' (S := (l.map Prod.fst).toFinset ∪ (l'.map Prod.fst).toFinset)
      Finset.subset_union_right]
  exact Finset.sum_le_sum fun k _ => h k

end

end Tally
