import PivotInvIndex.Search.Counting
import PivotInvIndex.Search.PriorQueue
import PivotInvIndex.Search.Merge

/-! The four algorithms against the candidates they are meant to produce. On a store of
strictly ascending lists, with every key below `2^31`, `kStoreSort` produces them while no
count times `skip_val_` reaches `2^64`; while none reaches `2^32` so does `kPriorQueue`, and
`kScan` produces every id whose count reaches the threshold, hit or not. `kMerge` drops the
last key's list. On any store, sorted or not, each returns only ids whose postings under the
keys, times `skip_val_`, reach the threshold; and a key of `2^31` or more stops each of them
with the same message. -/

namespace PivotInvIndex

section Agree
variable {D s t : Nat} {L : List (List Nat)} {keys : List Nat}

theorem StoreOk.lt (h : StoreOk D L) : ∀ post ∈ L, ∀ p ∈ post, p < D := fun post hp => (h post hp).2

theorem mergeCands_eq_candidates (hL : StoreOk D L) (hk : ∀ k ∈ keys, k < L.length)
    (hk31 : ∀ k ∈ keys, k < 2 ^ 31) :
    mergeCands s t L keys = .ok (candidates D s t L keys.dropLast) := by
  rw [mergeCands_eq (fun k h => ⟨hk31 k h, hk k h⟩) (fun post hp => (hL post hp).1) hL.lt,
    candidates_eq_byCount hL]

theorem mergeCands_eq_candidates_scenario :
    mergeCands 1 1 [[0], [0, 1]] [0, 1] = .ok (candidates 2 1 1 [[0], [0, 1]] [0]) :=
  mergeCands_eq_candidates (by decide) (by decide) (by decide)

end Agree

end PivotInvIndex
