import Mathlib

/-!
# Ranges of positions

A range is the pair of its first position and the one after its last. Ranges sorted by
their first position and checked neighbour by neighbour are pairwise disjoint
(`disjoint_of_sorted`), and pairwise disjoint ranges are together no longer than what they
lie in (`sum_extent_le`).
-/

namespace Lorepia.Extents

/-- The positions from `r.1` up to `r.2`. -/
abbrev Range := Nat × Nat

def before (a b : Range) : Prop := a.1 < b.1 ∨ a.1 = b.1 ∧ a.2 ≤ b.2

instance : DecidableRel before := fun _ _ => inferInstanceAs (Decidable (_ ∨ _))

def Apart (a b : Range) : Prop := a.2 ≤ b.1 ∨ b.2 ≤ a.1

theorem Apart.symm {a b : Range} (h : Apart a b) : Apart b a := Or.symm h

def Separated (ranges : List Range) : Prop := ranges.IsChain fun a b => a.2 ≤ b.1

instance (ranges : List Range) : Decidable (Separated ranges) :=
  inferInstanceAs (Decidable (List.IsChain _ _))

def extent (r : Range) : Nat := r.2 - r.1

theorem Separated.pairwise {ranges : List Range} (h : Separated ranges)
    (hle : ∀ r ∈ ranges, r.1 ≤ r.2) : ranges.Pairwise fun a b => a.2 ≤ b.1 := by
  induction ranges with
  | nil => exact .nil
  | cons r rest ih =>
    have hrest := ih h.of_cons fun x hx => hle x (List.mem_cons_of_mem _ hx)
    refine List.pairwise_cons.mpr ⟨fun x hx => ?_, hrest⟩
    cases rest with
    | nil => cases hx
    | cons next rest =>
      have hnext : r.2 ≤ next.1 := (List.isChain_cons_cons.mp h).1
      obtain rfl | hx := List.mem_cons.mp hx
      · exact hnext
      · calc r.2 ≤ next.1 := hnext
          _ ≤ next.2 := hle next (by simp)
          _ ≤ x.1 := (List.pairwise_cons.mp hrest).1 x hx

theorem disjoint_of_sorted {ranges : List Range} (hle : ∀ r ∈ ranges, r.1 ≤ r.2)
    (h : Separated (ranges.insertionSort before)) : ranges.Pairwise Apart := by
  have hperm := List.perm_insertionSort before ranges
  have hsorted := h.pairwise fun r hr => hle r (hperm.mem_iff.mp hr)
  exact (hperm.pairwise_iff Apart.symm).mp (hsorted.imp .inl)

/-- Separated ranges from `low` up to `high` are together no longer than that. -/
theorem sum_le_of_separated {ranges : List Range} {low high : Nat} (hbound : low ≤ high)
    (h : ranges.Pairwise fun a b => a.2 ≤ b.1)
    (hin : ∀ r ∈ ranges, low ≤ r.1 ∧ r.1 ≤ r.2 ∧ r.2 ≤ high) :
    low + (ranges.map extent).sum ≤ high := by
  induction ranges generalizing low with
  | nil => simpa using hbound
  | cons r rest ih =>
    obtain ⟨hlow, hle, hhigh⟩ := hin r List.mem_cons_self
    obtain ⟨hfirst, hrest⟩ := List.pairwise_cons.mp h
    have := ih hhigh hrest fun x hx =>
      ⟨hfirst x hx, (hin x (List.mem_cons_of_mem _ hx)).2⟩
    simp only [List.map_cons, List.sum_cons, extent] at *
    omega

theorem sum_extent_le {ranges : List Range} {high : Nat}
    (hin : ∀ r ∈ ranges, r.1 ≤ r.2 ∧ r.2 ≤ high)
    (h : Separated (ranges.insertionSort before)) : (ranges.map extent).sum ≤ high := by
  have hperm := List.perm_insertionSort before ranges
  have hsorted := h.pairwise fun r hr => (hin r (hperm.mem_iff.mp hr)).1
  have hsum : ((ranges.insertionSort before).map extent).sum = (ranges.map extent).sum :=
    (hperm.map extent).sum_eq
  have := sum_le_of_separated (Nat.zero_le high) hsorted fun r hr =>
    ⟨Nat.zero_le _, hin r (hperm.mem_iff.mp hr)⟩
  omega

end Lorepia.Extents
