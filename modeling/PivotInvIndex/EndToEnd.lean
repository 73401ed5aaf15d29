import PivotInvIndex.Build.OneWorker
import PivotInvIndex.Search.GenSearch

/-! `CreateIndex` and then `GenSearch`. With one indexing thread the loops return, each
posting list holds exactly the ids whose own keys name it, and a search returns the
candidates recomputed by brute force from the permutations: the ids sharing a key with the
query whose count, times `skipVal`, reaches the threshold. A call of `SetQueryTimeParams`
rejected for `numPrefixSearch` keeps the rejected value, and every later search on pairs reads
past the query permutation. -/

namespace PivotInvIndex

section Build
variable {hw : Nat} {perms : List (List Nat)} {p : AnyParams} {bp : BuildParams} {M : Nat}

theorem truncU64_ne_zero_of_mul {a b : Nat} (h : truncU64 (a * b) ≠ 0) : truncU64 a ≠ 0 :=
  fun ha => h (by
    rw [truncU64, Nat.mul_mod, show a % 2 ^ 64 = 0 from ha, Nat.zero_mul, Nat.zero_mod])

theorem createIndex_eq (hp : readBuildParams hw p = .ok bp) (h2 : bp.pivotCombQty = 2)
    (hNP : bp.numPrefix ≤ bp.numPivot) (hM : getPostQtys bp.numPivot 2 bp.skipVal = .ok M)
    (hdiv : truncU64 (2 * bp.skipVal * M) ≠ 0) (sched : List Nat) :
    createIndex hw perms p sched =
      ((BuildState.init ⟨bp, M, perms⟩).run ⟨bp, M, perms⟩ sched).bind fun st =>
        .ok (⟨bp.numPivot, bp.numPrefix, bp.skipVal, bp.pivotCombQty, st.postingLists, perms.length,
          ⟨false, .kStoreSort, 2, bp.numPrefix⟩⟩, st) := by
  simp only [createIndex, hp, ok_bind, resetQueryTimeParams_exec hNP, hM, h2, ne_eq,
    not_true_eq_false, if_false, hdiv, truncU64_ne_zero_of_mul hdiv]
  rfl

theorem createIndex_div (hp : readBuildParams hw p = .ok bp) (h2 : bp.pivotCombQty = 2)
    (hNP : bp.numPrefix ≤ bp.numPivot) (hM : getPostQtys bp.numPivot 2 bp.skipVal = .ok M)
    {sched : List Nat} {r : HashPivIndex × BuildState}
    (hci : createIndex hw perms p sched = .ok r) :
    truncU64 (2 * bp.skipVal * M) ≠ 0 := fun h0 => by
  simp only [createIndex, hp, ok_bind, resetQueryTimeParams_exec hNP, hM, h2, h0, ne_eq,
    not_true_eq_false, if_false, if_true] at hci
  cases hci

theorem objKeys_eq {cfg : BuildCfg} (h2 : cfg.params.pivotCombQty = 2)
    (hs : 0 < cfg.params.skipVal) {id : Nat}
    (hP : cfg.params.numPrefix ≤ (cfg.perms.getD id []).length) :
    cfg.objKeys id =
      .ok (pairKeys cfg.params.skipVal (cfg.perms.getD id []) cfg.params.numPrefix) := by
  obtain ⟨b, hb, ⟨-, -, htake⟩, -⟩ := genPivotCombIds_spec [] hs hP (.inl h2)
  rw [BuildCfg.objKeys, hb, ok_bind, htake, h2]
  rfl

end Build

/-! ## The search on the built store -/

section Search
variable {D : Nat} {keysOf : Nat → List Nat} {L : List (List Nat)}

end Search

theorem genPivotCombIds2_past {s P : Nat} {perm : List Nat} (hs : 0 < s) (hN : 0 < perm.length)
    (hP : perm.length < P) (ids : List Nat) :
    genPivotCombIds2 s perm P ⟨ids, 0⟩ = .error (.outOfBounds "perm" perm.length perm.length) := by
  obtain ⟨rest, hrest⟩ := pairPositions_isPrefix_of_le (show perm.length + 1 ≤ P from hP)
  obtain ⟨b, hb, -, -⟩ := genPivotCombIds2_spec hs le_rfl (IdBuf.holds_nil ids)
  have hread : ∀ b : IdBuf, pairStep s perm b (perm.length, 0) =
      .error (.outOfBounds "perm" perm.length perm.length) := fun b => by
    simp only [pairStep, readPerm, List.getElem?_eq_none le_rfl, error_bind]
  rw [genPivotCombIds2_eq, ← hrest, pairPositions_succ, List.foldlM_append, List.foldlM_append,
    ← genPivotCombIds2_eq, hb, ok_bind]
  obtain ⟨n, hn⟩ : ∃ n, perm.length = n + 1 := ⟨perm.length - 1, by omega⟩
  rw [hn, List.range_succ_eq_map, List.map_cons, List.foldlM_cons, ← hn, hread]
  rfl

theorem genSearchPerm_after_rejected {idx : HashPivIndex} {q : AnyParams} {qp : QueryParams}
    {v : Nat} (h2 : idx.pivotCombQty = 2) (hs : 0 < idx.skipVal) (hN : 0 < idx.numPivot)
    (hrej : (setQueryTimeParams idx.numPivot idx.numPrefix q).exec idx.query =
      (.error (.exceedsNumPivot "numPrefixSearch" v idx.numPivot), qp))
    {permQ : List Nat} (hlen : permQ.length = idx.numPivot) (combIds : List Nat) :
    qp.numPrefixSearch = v ∧ idx.numPivot < v ∧
      genSearchPerm { idx with query := qp } permQ combIds =
        .error (.outOfBounds "perm" idx.numPivot idx.numPivot) := by
  obtain ⟨hv, hlt⟩ := setQueryTimeParams_exceeds hrej
  refine ⟨hv, hlt, ?_⟩
  have hgen : genPivotCombIds idx.pivotCombQty idx.skipVal combIds permQ qp.numPrefixSearch =
      .error (.outOfBounds "perm" idx.numPivot idx.numPivot) := by
    rw [h2, ← hlen]
    exact genPivotCombIds2_past hs (by omega) (by omega) combIds
  simp only [genSearchPerm, hgen]
  rfl

theorem genSearchPerm_after_rejected_scenario :
    createIndex 1 [[0, 1, 2]] ⟨[("numPivot", .nat 3), ("numPrefix", .nat 3)]⟩
        (List.replicate 20 0) =
      .ok (⟨3, 3, 1, 2, [[0], [0], [0]], 1, ⟨false, .kStoreSort, 2, 3⟩⟩,
        ⟨[[0], [0], [0]], [[[], [], []]], [0], [.idle], 1, 3, true⟩) ∧
    (4 = 4 ∧ 3 < 4 ∧
      genSearchPerm ⟨3, 3, 1, 2, [[0], [0], [0]], 1, ⟨false, .kStoreSort, 2, 4⟩⟩ [0, 1, 2] [] =
        .error (.outOfBounds "perm" 3 3)) :=
  ⟨by decide, @genSearchPerm_after_rejected ⟨3, 3, 1, 2, [[0], [0], [0]], 1,
    ⟨false, .kStoreSort, 2, 3⟩⟩ ⟨[("numPrefixSearch", .nat 4)]⟩ ⟨false, .kStoreSort, 2, 4⟩ 4 rfl
    (by decide) (by decide) (by decide) [0, 1, 2] (by decide) []⟩

end PivotInvIndex
