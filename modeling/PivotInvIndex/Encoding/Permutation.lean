import PivotInvIndex.Encoding.Defs
import Mathlib.Data.List.Perm.Basic
import Mathlib.Data.List.Nodup

/-! The permutation builder orders every pivot id once, by distance and then by id,
and a permutation can be given by the head it starts with: the ids in front,
then the others in increasing order. -/

namespace PivotInvIndex

theorem getPermutation_perm {α : Type} [LinearOrder α] (N : Nat) (vDst : Nat → α) :
    (getPermutation N vDst).Perm (List.range N) := by
  have h := (List.perm_insertionSort distIntLe ((List.range N).map (fun i => (vDst i, i)))).map
    Prod.snd
  simpa only [List.map_map, Function.comp_def, List.map_id'] using h

theorem getPermutation_length {α : Type} [LinearOrder α] (N : Nat) (vDst : Nat → α) :
    (getPermutation N vDst).length = N := by
  rw [(getPermutation_perm N vDst).length_eq, List.length_range]

instance {α : Type} [LinearOrder α] : IsTotal (α × Nat) distIntLe :=
  ⟨fun a b => by
    simp only [distIntLe]
    rcases lt_trichotomy a.1 b.1 with h | h | h
    · exact .inl (.inl h)
    · exact (le_total a.2 b.2).imp (fun h' => .inr ⟨h, h'⟩) (fun h' => .inr ⟨h.symm, h'⟩)
    · exact .inr (.inl h)⟩

instance {α : Type} [LinearOrder α] : IsTrans (α × Nat) distIntLe :=
  ⟨fun a b c hab hbc => by
    simp only [distIntLe] at *
    rcases hab with h | ⟨h, h'⟩ <;> rcases hbc with g | ⟨g, g'⟩
    · exact .inl (h.trans g)
    · exact .inl (g ▸ h)
    · exact .inl (h ▸ g)
    · exact .inr ⟨h.trans g, h'.trans g'⟩⟩

theorem getPermutation_sorted {α : Type} [LinearOrder α] (N : Nat) (vDst : Nat → α) :
    (getPermutation N vDst).Sorted (fun i j => vDst i < vDst j ∨ (vDst i = vDst j ∧ i ≤ j)) := by
  have h := List.sorted_insertionSort distIntLe ((List.range N).map (fun i => (vDst i, i)))
  have hfst : ∀ p ∈ ((List.range N).map (fun i => (vDst i, i))).insertionSort distIntLe,
      p.1 = vDst p.2 := by
    intro p hp
    obtain ⟨i, -, rfl⟩ := List.mem_map.mp ((List.perm_insertionSort _ _).subset hp)
    rfl
  unfold getPermutation
  rw [List.Sorted, List.pairwise_map]
  exact h.imp_of_mem fun {a b} ha hb hab => by
    simpa only [distIntLe, hfst a ha, hfst b hb] using hab

/-- The permutation depends on the distances only through how they compare: two distance
vectors, of any two types, that order the pivots alike give the same permutation. -/
theorem getPermutation_congr {α β : Type} [LinearOrder α] [LinearOrder β] (N : Nat)
    {vDst : Nat → α} {vDst' : Nat → β} (h : ∀ i < N, ∀ j < N, vDst i ≤ vDst j ↔ vDst' i ≤ vDst' j) :
    getPermutation N vDst = getPermutation N vDst' := by
  haveI : IsAntisymm Nat fun i j => vDst i < vDst j ∨ (vDst i = vDst j ∧ i ≤ j) :=
    ⟨fun i j hij hji => by
      rcases hij with hij | ⟨hij, hle⟩ <;> rcases hji with hji | ⟨hji, hle'⟩
      · exact absurd (hij.trans hji) (lt_irrefl _)
      · exact absurd hji.symm hij.ne
      · exact absurd hij.symm hji.ne
      · exact Nat.le_antisymm hle hle'⟩
  have hlt : ∀ i ∈ getPermutation N vDst', i < N := fun i hi =>
    List.mem_range.mp ((getPermutation_perm N vDst').subset hi)
  refine List.eq_of_perm_of_sorted ((getPermutation_perm N vDst).trans
    (getPermutation_perm N vDst').symm) (getPermutation_sorted N vDst)
    ((getPermutation_sorted N vDst').imp_of_mem fun {i j} hi hj hij => ?_)
  have hij' := h i (hlt i hi) j (hlt j hj)
  have hji' := h j (hlt j hj) i (hlt i hi)
  simp only [lt_iff_le_not_le, le_antisymm_iff, hij', hji'] at hij ⊢
  exact hij

def withHead (l : List Nat) (n : Nat) : List Nat := l ++ (List.range n).filter (fun x => x ∉ l)

theorem withHead_perm {l : List Nat} {n : Nat} (hl : l.Nodup) (hlt : ∀ x ∈ l, x < n) :
    (withHead l n).Perm (List.range n) := by
  have hin : l.Perm ((List.range n).filter (fun x => x ∈ l)) := by
    rw [List.perm_ext_iff_of_nodup hl ((List.nodup_range n).filter _)]
    intro x
    simp only [List.mem_filter, List.mem_range, decide_eq_true_eq]
    exact ⟨fun h => ⟨hlt x h, h⟩, fun h => h.2⟩
  have hnot : (fun x => decide (x ∉ l)) = fun x => !decide (x ∈ l) := funext fun x => decide_not ..
  rw [withHead, hnot]
  exact (hin.append_right _).trans (List.filter_append_perm _ _)

end PivotInvIndex
