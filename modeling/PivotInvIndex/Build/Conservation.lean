import PivotInvIndex.Build.OneWorker
import PivotInvIndex.Encoding.Encoder

/-! Where the postings of each bucket are while the two loops run. An item of the indexing
loop stages its object under each of its keys, a drain moves one staging list to the end of the
shared list of its bucket, and a sort reorders one shared list. So in every state a run
reaches, the shared list and the staging lists of a bucket hold together, up to order, each
object indexed so far once per occurrence of the bucket among its keys, whoever drained what
and in which order. -/

namespace PivotInvIndex

def BuildCfg.keysOf (cfg : BuildCfg) (id : Nat) : List Nat :=
  match cfg.objKeys id with
  | .ok keys => keys
  | .error _ => []

theorem BuildCfg.keysOf_of_objKeys {cfg : BuildCfg} {id : Nat} {keys : List Nat}
    (h : cfg.objKeys id = .ok keys) : cfg.keysOf id = keys := by
  rw [BuildCfg.keysOf, h]

theorem perm_flatMap_set {α β : Type} (f : α → List β) {l : List α} {i : Nat} (d : α)
    (hi : i < l.length) (a : α) :
    ((l.set i a).flatMap f ++ f (l.getD i d)).Perm (l.flatMap f ++ f a) := by
  induction l generalizing i with
  | nil => exact absurd hi (Nat.not_lt_zero i)
  | cons x l ih =>
    cases i with
    | zero =>
      simp only [List.set_cons_zero, List.flatMap_cons, List.getD_cons_zero]
      exact List.perm_append_comm.trans
        ((List.perm_append_comm.append_left (f x)).trans (by rw [List.append_assoc]))
    | succ i =>
      simpa only [List.set_cons_succ, List.flatMap_cons, List.getD_cons_succ, List.append_assoc]
        using (ih (Nat.lt_of_succ_lt_succ hi)).append_left (f x)

namespace BuildState

def bucketPostings (st : BuildState) (b : Nat) : List Nat :=
  st.postingLists.getD b [] ++ st.tmpPostingLists.flatMap fun postList => postList.getD b []

section Postings
variable {cfg : BuildCfg} {st : BuildState} {w b : Nat}

theorem bucketPostings_set_tmp (hw : w < st.tmpPostingLists.length) (postList : List (List Nat))
    (b : Nat) :
    (bucketPostings { st with tmpPostingLists := st.tmpPostingLists.set w postList } b ++
        (st.tmpPostingLists.getD w []).getD b []).Perm
      (bucketPostings st b ++ postList.getD b []) := by
  simp only [bucketPostings, List.append_assoc]
  exact (perm_flatMap_set (fun postList => postList.getD b []) [] hw postList).append_left _

theorem bucketPostings_stage (hs : Shape cfg st) (hw : w < cfg.params.indexThreadQty)
    (hb : b < cfg.maxPostQty) (id : Nat) (keys : List Nat) :
    (bucketPostings { st with tmpPostingLists :=
        st.tmpPostingLists.set w (stage id keys (st.tmpPostingLists.getD w [])) } b).Perm
      (bucketPostings st b ++ List.replicate (keys.count b) id) := by
  have h := bucketPostings_set_tmp (hs.tmpPostingLists ▸ hw)
    (stage id keys (st.tmpPostingLists.getD w [])) b
  rw [getD_stage id keys ((hs.tmp_getD w hw).symm ▸ hb)] at h
  exact (List.perm_append_right_iff _).mp
    (h.trans ((List.perm_append_comm.append_left _).trans (by rw [List.append_assoc])))

theorem bucketPostings_drain (hs : Shape cfg st) (hw : w < cfg.params.indexThreadQty)
    {cid : Nat} (hc : cid < cfg.maxPostQty) (b : Nat) :
    (bucketPostings (st.drain w cid) b).Perm (bucketPostings st b) := by
  have h := bucketPostings_set_tmp (hs.tmpPostingLists ▸ hw)
    ((st.tmpPostingLists.getD w []).set cid []) b
  have hc' : cid < (st.tmpPostingLists.getD w []).length := (hs.tmp_getD w hw).symm ▸ hc
  simp only [bucketPostings, drain] at h ⊢
  by_cases hbc : b = cid
  · subst hbc
    rw [getD_set_self hc', List.append_nil, List.append_assoc] at h
    rw [getD_set_self (hs.postingLists.symm ▸ hc), List.append_assoc]
    exact (List.perm_append_left_iff _).mpr
      (List.perm_append_comm.trans ((List.perm_append_left_iff _).mp h))
  · rw [getD_set_ne (Ne.symm hbc)] at h ⊢
    exact (List.perm_append_right_iff _).mp h

theorem bucketPostings_sort {p : Nat} {oneList : List Nat}
    (hl : st.postingLists[p]? = some oneList) (pc : List WorkerPc) (b : Nat) :
    (bucketPostings { st with
      postingLists := st.postingLists.set p (oneList.insertionSort (· ≤ ·))
      pc := pc } b).Perm (bucketPostings st b) := by
  simp only [bucketPostings]
  refine List.Perm.append_right _ ?_
  by_cases hbp : b = p
  · subst hbp
    rw [getD_set_self (List.getElem?_eq_some_iff.mp hl).1, List.getD_eq_getElem?_getD, hl,
      Option.getD_some]
    exact List.perm_insertionSort _ _
  · rw [getD_set_ne (Ne.symm hbp)]

end Postings

structure Conserved (cfg : BuildCfg) (st : BuildState) : Prop where
  shape : Shape cfg st
  keys : ∀ id < st.nextId, cfg.objKeys id = .ok (cfg.keysOf id)
  perm : ∀ b < cfg.maxPostQty, (bucketPostings st b).Perm (staged cfg.keysOf b st.nextId)

namespace Conserved
variable {cfg : BuildCfg} {st st' : BuildState}

theorem init (cfg : BuildCfg) : Conserved cfg (init cfg) where
  shape := Shape.init cfg
  keys id h := absurd h (Nat.not_lt_zero id)
  perm b _ := by
    have hrep : ∀ n, (List.replicate n ([] : List Nat)).getD b [] = [] := fun n =>
      getD_eq_of_forall (fun a ha => List.eq_of_mem_replicate ha) b
    have hflat : (List.replicate cfg.params.indexThreadQty
        (List.replicate cfg.maxPostQty ([] : List Nat))).flatMap
          (fun postList => postList.getD b []) = [] :=
      List.flatMap_eq_nil_iff.mpr fun l hl => by rw [List.eq_of_mem_replicate hl, hrep]
    simp only [bucketPostings, BuildState.init, hrep, hflat, List.append_nil]
    exact List.Perm.nil

theorem step (h : Conserved cfg st) {w : Nat} (hs : st.step cfg w = .ok st') :
    Conserved cfg st' := by
  have hsh := h.shape
  rcases step_cases hs with rfl | ⟨-, -, -, -, rfl⟩ | ⟨hw, -, -, -, hi⟩ | ⟨-, -, -, rfl⟩ |
    ⟨cid, pivId, hw, -, hc, -, rfl⟩ | ⟨cid, pivId, -, -, -, rfl⟩ | ⟨p, l, -, -, hl, rfl⟩
  · exact h
  · exact { h with shape := hsh.step hs }
  · -- the indexing loop stages object `nextId`
    obtain ⟨keys, hk, hlt⟩ := indexItem_keys hi
    rw [indexItem_eq hk hlt] at hi
    cases hi
    refine ⟨hsh.step hs, fun id hid => ?_, fun b hb => ?_⟩
    · rcases Nat.lt_succ_iff_lt_or_eq.mp hid with hid | rfl
      · exact h.keys id hid
      · rw [BuildCfg.keysOf_of_objKeys hk]; exact hk
    · refine (bucketPostings_stage hsh hw hb st.nextId keys).trans ?_
      rw [staged_succ, BuildCfg.keysOf_of_objKeys hk]
      exact (h.perm b hb).append_right _
  · exact { h with shape := hsh.step hs }
  · -- the drain of bucket `cid`
    exact ⟨hsh.step hs, h.keys, fun b hb =>
      ((bucketPostings_drain hsh hw hc b).trans (h.perm b hb))⟩
  · exact { h with shape := hsh.step hs }
  · -- the sort of list `p`
    exact ⟨hsh.step hs, h.keys, fun b hb => (bucketPostings_sort hl _ b).trans (h.perm b hb)⟩

theorem run (h : Conserved cfg st) {sched : List Nat} (hr : st.run cfg sched = .ok st') :
    Conserved cfg st' := by
  induction sched generalizing st with
  | nil => cases hr; exact h
  | cons w sched ih =>
    obtain ⟨st₁, h₁, h₂⟩ := bind_eq_ok hr
    exact ih (h.step h₁) h₂

end Conserved

/-- In every state a run of the two loops reaches, whatever the number of workers and the
schedule, the shared list and the staging lists of each bucket hold, up to order, each object
indexed so far once per occurrence of the bucket among the keys `genPivotCombIds` wrote for it;
every step that indexes no object, a drain or a sort of any worker among them, keeps those
postings up to order; and a drain of bucket `cid` moves the worker's staging list of `cid` to
the end of `posting_lists_[cid]`, unless a worker is sorting that list, which is a data race. -/
theorem run_bucketPostings_perm (cfg : BuildCfg) {sched : List Nat} {st : BuildState}
    (h : (init cfg).run cfg sched = .ok st) :
    (∀ id < st.nextId, cfg.objKeys id = .ok (cfg.keysOf id)) ∧
      (∀ b < cfg.maxPostQty, (bucketPostings st b).Perm (staged cfg.keysOf b st.nextId)) ∧
      (∀ w st', st.step cfg w = .ok st' → st'.nextId = st.nextId →
        ∀ b < cfg.maxPostQty, (bucketPostings st' b).Perm (bucketPostings st b)) ∧
      ∀ w cid pivId, st.pc.getD w .idle = .flushing cid pivId → cid < cfg.maxPostQty →
        (WorkerPc.sorting cid ∈ st.pc → st.step cfg w = .error (.dataRace "posting_lists_" cid)) ∧
        ∀ st', st.step cfg w = .ok st' →
          st'.postingLists.getD cid [] =
            st.postingLists.getD cid [] ++ (st.tmpPostingLists.getD w []).getD cid [] ∧
          (st'.tmpPostingLists.getD w []).getD cid [] = [] := by
  have hc := (Conserved.init cfg).run h
  refine ⟨hc.keys, hc.perm, fun w st' hs hid b hb => ?_,
    fun w cid pivId hpc hcid => step_drain hc.shape hpc hcid⟩
  exact (hid ▸ (hc.step hs).perm b hb).trans (hc.perm b hb).symm

theorem run_bucketPostings_perm_scenario :
    (init ⟨⟨3, 2, 2, 1, 2⟩, 3, [[0, 1, 2], [0, 1, 2]]⟩).run
      ⟨⟨3, 2, 2, 1, 2⟩, 3, [[0, 1, 2], [0, 1, 2]]⟩
        ([1, 0, 0] ++ List.replicate 5 0 ++ [1]) =
      .ok ⟨[[1], [], []], [[[], [], []], [[0], [], []]], [0, 1],
        [.sorting 0, .flushing 0 (some 1)], 2, 2, true⟩ ∧
    ((∀ id < 2, BuildCfg.objKeys ⟨⟨3, 2, 2, 1, 2⟩, 3, [[0, 1, 2], [0, 1, 2]]⟩ id =
        .ok (BuildCfg.keysOf ⟨⟨3, 2, 2, 1, 2⟩, 3, [[0, 1, 2], [0, 1, 2]]⟩ id)) ∧
      (∀ b < 3, (bucketPostings ⟨[[1], [], []], [[[], [], []], [[0], [], []]], [0, 1],
          [.sorting 0, .flushing 0 (some 1)], 2, 2, true⟩ b).Perm
        (staged (BuildCfg.keysOf ⟨⟨3, 2, 2, 1, 2⟩, 3, [[0, 1, 2], [0, 1, 2]]⟩) b 2)) ∧
      (∀ w st', BuildState.step ⟨⟨3, 2, 2, 1, 2⟩, 3, [[0, 1, 2], [0, 1, 2]]⟩ w
          ⟨[[1], [], []], [[[], [], []], [[0], [], []]], [0, 1],
            [.sorting 0, .flushing 0 (some 1)], 2, 2, true⟩ = .ok st' → st'.nextId = 2 →
        ∀ b < 3, (bucketPostings st' b).Perm (bucketPostings ⟨[[1], [], []],
          [[[], [], []], [[0], [], []]], [0, 1], [.sorting 0, .flushing 0 (some 1)], 2, 2,
          true⟩ b)) ∧
      ∀ w cid pivId, List.getD [WorkerPc.sorting 0, .flushing 0 (some 1)] w .idle =
          .flushing cid pivId → cid < 3 →
        (WorkerPc.sorting cid ∈ [WorkerPc.sorting 0, .flushing 0 (some 1)] →
          BuildState.step ⟨⟨3, 2, 2, 1, 2⟩, 3, [[0, 1, 2], [0, 1, 2]]⟩ w
            ⟨[[1], [], []], [[[], [], []], [[0], [], []]], [0, 1],
              [.sorting 0, .flushing 0 (some 1)], 2, 2, true⟩ =
            .error (.dataRace "posting_lists_" cid)) ∧
        ∀ st', BuildState.step ⟨⟨3, 2, 2, 1, 2⟩, 3, [[0, 1, 2], [0, 1, 2]]⟩ w
            ⟨[[1], [], []], [[[], [], []], [[0], [], []]], [0, 1],
              [.sorting 0, .flushing 0 (some 1)], 2, 2, true⟩ = .ok st' →
          st'.postingLists.getD cid [] =
            List.getD [[1], [], []] cid [] ++
              (List.getD [[[], [], []], [[0], [], []]] w []).getD cid [] ∧
          (st'.tmpPostingLists.getD w []).getD cid [] = []) :=
  (fun h => ⟨h, run_bucketPostings_perm _ h⟩) (by decide)

theorem run_bucketPostings_wrap :
    readBuildParams 1 ⟨[("numPivot", .nat 92684), ("numPrefix", .nat 4)]⟩ =
        .ok ⟨92684, 4, 1, 1, 2⟩ ∧ getPostQtys 92684 2 1 = .ok 4295115586 ∧
      (withHead [92683, 0, 333, 329] 92684).Perm (List.range 92684) ∧
      ¬ ∀ (cfg : BuildCfg) (sched : List Nat) (st : BuildState), (init cfg).run cfg sched = .ok st →
        ∀ b < cfg.maxPostQty, (bucketPostings st b).Perm
          ((List.range st.nextId).filter fun id => b ∈ cfg.keysOf id) := by
  refine ⟨by decide, by decide, withHead_perm (by decide) (by decide), fun h => ?_⟩
  have hkeys : BuildCfg.objKeys
      ⟨⟨92684, 4, 1, 1, 2⟩, 4295115586, [withHead [92683, 0, 333, 329] 92684]⟩ 0 =
        .ok [55607, 55940, 55278, 55936, 53956, 55607] := by
    rw [BuildCfg.objKeys,
      show genPivotCombIds 2 1 [] ([withHead [92683, 0, 333, 329] 92684].getD 0 []) 4 =
        genPivotCombIds2 1 (withHead [92683, 0, 333, 329] 92684) 4 ⟨[], 0⟩ from rfl, withHead,
      genPivotCombIds2_append (by decide)]
    decide
  have hrun : (init ⟨⟨92684, 4, 1, 1, 2⟩, 4295115586, [withHead [92683, 0, 333, 329] 92684]⟩).run
      ⟨⟨92684, 4, 1, 1, 2⟩, 4295115586, [withHead [92683, 0, 333, 329] 92684]⟩ [0] =
        (init ⟨⟨92684, 4, 1, 1, 2⟩, 4295115586, [withHead [92683, 0, 333, 329] 92684]⟩).indexItem
          ⟨⟨92684, 4, 1, 1, 2⟩, 4295115586, [withHead [92683, 0, 333, 329] 92684]⟩ 0 := by
    rw [run_cons, step_idle ?_ ?_, if_neg ?_, if_pos ?_]
    · cases BuildState.indexItem _ _ _ <;> rfl
    all_goals decide
  have hr := hrun.trans (@indexItem_eq 0 (init _) _ _ hkeys (by decide))
  -- the store holds object `0` twice under the bucket, and the filter holds at most one id
  have hlen := ((((Conserved.init _).run hr).perm 55607 (by decide)).symm.trans
    (h _ [0] _ hr 55607 (by decide))).length_eq.trans_le (List.length_filter_le _ _)
  change (staged _ 55607 (0 + 1)).length ≤ (List.range 1).length at hlen
  rw [staged_succ, BuildCfg.keysOf_of_objKeys hkeys] at hlen
  exact absurd hlen (by decide)

end BuildState

end PivotInvIndex
