import PivotInvIndex.EndToEnd
import PivotInvIndex.Build.Conservation
import PivotInvIndex.Build.Progress

/-! `CreateIndex` on any number of workers, and `GenSearch` on what it builds. Whatever the
schedule, the two loops return without a fault unless a worker drains a list while another
runs the unlocked `integer_sort` of the final loop on it, and a schedule of enough rounds, each
giving every worker a step, runs them to their end or into that race. A run that returns with
every staging list flushed leaves in each bucket, up to order, the list the build on one worker
leaves there. `kScan` and `kStoreSort` read the lists only through how often each id occurs in
them, so on such a store they return the candidates recomputed by brute force, whatever order
the drains after a sort left. -/

namespace PivotInvIndex

def keyedStore (perms : List (List Nat)) (skipVal numPrefix M : Nat) : List (List Nat) :=
  (List.range M).map fun b =>
    (List.range perms.length).filter fun id => b ∈ pairKeys skipVal (perms.getD id []) numPrefix

section KeyedStore
variable {perms : List (List Nat)} {s P M : Nat}

@[simp] theorem length_keyedStore : (keyedStore perms s P M).length = M := by
  simp [keyedStore]

theorem getD_keyedStore {b : Nat} (hb : b < M) :
    (keyedStore perms s P M).getD b [] =
      (List.range perms.length).filter fun id => b ∈ pairKeys s (perms.getD id []) P := by
  simp [keyedStore, List.getD_eq_getElem?_getD, hb]

theorem keyedStore_sorted : ∀ post ∈ keyedStore perms s P M, post.Sorted (· ≤ ·) := by
  intro post h
  obtain ⟨b, -, rfl⟩ := List.mem_map.mp h
  exact ((List.sorted_lt_range _).filter _).imp le_of_lt

end KeyedStore

section Parallel
variable {hw : Nat} {perms : List (List Nat)} {p : AnyParams} {bp : BuildParams}
  (hp : readBuildParams hw p = .ok bp) (h2 : bp.pivotCombQty = 2) (hs : 0 < bp.skipVal)
  (hNP : bp.numPrefix ≤ bp.numPivot) (hperm : ∀ perm ∈ perms, perm.Perm (List.range bp.numPivot))
  (hN : 0 < bp.numPivot)
  (hNM : bp.numPivot ≤ (bp.numPivot.choose 2 + bp.skipVal - 1) / bp.skipVal)
  (hfit : (bp.numPivot.choose 2 + bp.skipVal - 1) / bp.skipVal ≤ 2 ^ 32)
  (hfit31 : (bp.numPivot.choose 2 + bp.skipVal - 1) / bp.skipVal ≤ 2 ^ 31)
  (h64 : 2 * bp.skipVal * ((bp.numPivot.choose 2 + bp.skipVal - 1) / bp.skipVal) < 2 ^ 64)

include hNP hperm in
theorem getD_perm_range {id : Nat} (hid : id < perms.length) :
    (perms.getD id []).Perm (List.range bp.numPivot) ∧
      bp.numPrefix ≤ (perms.getD id []).length := by
  have h := hperm (perms.getD id [])
    (by rw [List.getD_eq_getElem _ _ hid]; exact List.getElem_mem hid)
  exact ⟨h, by rw [h.length_eq, List.length_range]; exact hNP⟩

theorem createIndex_sort_race :
    createIndex 2 [[0, 1, 2], [0, 1, 2]]
      ⟨[("numPivot", .nat 3), ("numPrefix", .nat 2), ("indexThreadQty", .nat 2)]⟩
      ([1, 0, 0] ++ List.replicate 5 0 ++ [1, 1]) = .error (.dataRace "posting_lists_" 0) := by
  decide

include h2 hs hNP hperm hfit in
theorem run_bucketPostings_keyed {M : Nat}
    (hM : M = (bp.numPivot.choose 2 + bp.skipVal - 1) / bp.skipVal) {sched : List Nat}
    {st : BuildState} (hr : (BuildState.init ⟨bp, M, perms⟩).run ⟨bp, M, perms⟩ sched = .ok st)
    {b : Nat} (hb : b < M) :
    (st.bucketPostings b).Perm ((List.range st.nextId).filter fun id =>
      b ∈ pairKeys bp.skipVal (perms.getD id []) bp.numPrefix) := by
  have hle : st.nextId ≤ perms.length := ((BuildState.InRange.init _).run hr).nextId_le
  have hkeys : ∀ id < st.nextId, BuildCfg.keysOf ⟨bp, M, perms⟩ id =
      pairKeys bp.skipVal (perms.getD id []) bp.numPrefix := fun id h =>
    BuildCfg.keysOf_of_objKeys (objKeys_eq h2 hs (getD_perm_range hNP hperm (h.trans_le hle)).2)
  have hnd : ∀ id < st.nextId, (BuildCfg.keysOf ⟨bp, M, perms⟩ id).Nodup := fun id h => by
    obtain ⟨hpermOf, hP⟩ := getD_perm_range hNP hperm (h.trans_le hle)
    rw [hkeys id h]
    exact pairKeys_nodup hpermOf hP hs (hM ▸ hfit)
  refine (((BuildState.Conserved.init _).run hr).perm b hb).trans (List.Perm.of_eq ?_)
  rw [BuildState.staged_eq_filter hnd]
  exact List.filter_congr fun id h => by rw [hkeys id (List.mem_range.mp h)]

include h2 hs hNP hperm hfit in
theorem run_flushed_perm {M : Nat} (hM : M = (bp.numPivot.choose 2 + bp.skipVal - 1) / bp.skipVal)
    {sched : List Nat} {st : BuildState}
    (hr : (BuildState.init ⟨bp, M, perms⟩).run ⟨bp, M, perms⟩ sched = .ok st)
    (hfin : st.Finished bp.numPivot)
    (hflushed : ∀ postList ∈ st.tmpPostingLists, ∀ post ∈ postList, post = []) :
    st.postingLists.length = M ∧
      ∀ b, (st.postingLists.getD b []).Perm
        ((keyedStore perms bp.skipVal bp.numPrefix M).getD b []) := by
  have hin := (BuildState.InRange.init _).run hr
  have hid : st.nextId = perms.length := le_antisymm hin.nextId_le (hin.nextId_final hfin.1)
  refine ⟨hin.shape.postingLists, fun b => ?_⟩
  rcases Nat.lt_or_ge b M with hb | hb
  · -- the shared list is the whole of the bucket's postings
    have hflat : st.bucketPostings b = st.postingLists.getD b [] := by
      rw [BuildState.bucketPostings, List.flatMap_eq_nil_iff.mpr fun postList hpl =>
        getD_eq_of_forall (hflushed postList hpl) b, List.append_nil]
    rw [← hflat, getD_keyedStore hb, ← hid]
    exact run_bucketPostings_keyed h2 hs hNP hperm hfit hM hr hb
  · rw [List.getD_eq_default _ _ (hin.shape.postingLists ▸ hb),
      List.getD_eq_default _ _ (length_keyedStore.trans_le hb)]

include hp h2 hs hNP hperm hfit in
theorem createIndex_flushed {sched : List Nat} {idx : HashPivIndex} {st : BuildState}
    (hci : createIndex hw perms p sched = .ok (idx, st)) (hfin : st.Finished bp.numPivot)
    (hflushed : ∀ postList ∈ st.tmpPostingLists, ∀ post ∈ postList, post = []) :
    (∀ b, (idx.postingLists.getD b []).Perm ((keyedStore perms bp.skipVal bp.numPrefix
      ((bp.numPivot.choose 2 + bp.skipVal - 1) / bp.skipVal)).getD b [])) ∧
    ((∀ post ∈ idx.postingLists, post.Sorted (· ≤ ·)) → idx.postingLists =
      keyedStore perms bp.skipVal bp.numPrefix
        ((bp.numPivot.choose 2 + bp.skipVal - 1) / bp.skipVal)) := by
  rw [createIndex_eq hp h2 hNP (getPostQtys_two hs)
    (createIndex_div hp h2 hNP (getPostQtys_two hs) hci)] at hci
  obtain ⟨st', hr, he⟩ := bind_eq_ok hci
  cases he
  obtain ⟨hlen, hL⟩ := run_flushed_perm h2 hs hNP hperm hfit rfl hr hfin hflushed
  refine ⟨hL, fun hsorted => List.ext_getElem (hlen.trans length_keyedStore.symm) fun b h₁ h₂ => ?_⟩
  have hb := hL b
  rw [List.getD_eq_getElem _ _ h₁, List.getD_eq_getElem _ _ h₂] at hb
  exact List.eq_of_perm_of_sorted hb (hsorted _ (List.getElem_mem h₁))
    (keyedStore_sorted _ (List.getElem_mem h₂))

theorem createIndex_flushed_scenario :
    (∀ b, (List.getD [[1, 0], [], []] b []).Perm
      ((keyedStore [[0, 1, 2], [0, 1, 2]] 1 2 3).getD b [])) ∧
    ((∀ post ∈ [[1, 0], [], []], post.Sorted (· ≤ ·)) →
      [[1, 0], [], []] = keyedStore [[0, 1, 2], [0, 1, 2]] 1 2 3) :=
  createIndex_flushed (show readBuildParams 2 ⟨[("numPivot", .nat 3), ("numPrefix", .nat 2),
    ("indexThreadQty", .nat 2)]⟩ = .ok ⟨3, 2, 2, 1, 2⟩ by decide) rfl (by decide) (by decide)
    (by decide) (by decide)
    (show createIndex 2 [[0, 1, 2], [0, 1, 2]]
        ⟨[("numPivot", .nat 3), ("numPrefix", .nat 2), ("indexThreadQty", .nat 2)]⟩
        ([1, 0, 0] ++ List.replicate 6 0 ++ List.replicate 6 1 ++ List.replicate 6 0) =
      .ok (⟨3, 2, 1, 2, [[1, 0], [], []], 2, ⟨false, .kStoreSort, 2, 2⟩⟩,
        ⟨[[1, 0], [], []], [[[], [], []], [[], [], []]], [0, 0], [.idle, .idle], 2, 3, true⟩) by
      decide)
    (by decide) (by decide)

end Parallel

end PivotInvIndex
