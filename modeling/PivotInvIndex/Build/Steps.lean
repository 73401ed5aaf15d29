import PivotInvIndex.Build.Defs
import Mathlib.Data.List.Sort

/-! One step of the build machine, case by case; what a step of one worker leaves alone; and
the shape of the store and of the staging lists, which every step keeps. -/

namespace PivotInvIndex

theorem getD_set_ne {α : Type} {l : List α} {i j : Nat} {a d : α} (h : i ≠ j) :
    (l.set i a).getD j d = l.getD j d := by
  simp only [List.getD_eq_getElem?_getD, List.getElem?_set_ne h]

theorem getD_set_self {α : Type} {l : List α} {i : Nat} {a d : α} (h : i < l.length) :
    (l.set i a).getD i d = a := by
  simp only [List.getD_eq_getElem?_getD, List.getElem?_set_self h, Option.getD_some]

theorem getD_eq_of_forall {α : Type} {l : List α} {d : α} (h : ∀ a ∈ l, a = d) (i : Nat) :
    l.getD i d = d := by
  rw [List.getD_eq_getElem?_getD]
  cases hi : l[i]? with
  | none => rfl
  | some a => exact h a (List.getElem?_mem hi)

namespace BuildState

/-! ## Staging one item -/

def stage (id : Nat) (keys : List Nat) (postList : List (List Nat)) : List (List Nat) :=
  keys.foldl (fun postList cid => postList.set cid (postList.getD cid [] ++ [id])) postList

@[simp] theorem length_stage (id : Nat) (keys : List Nat) (postList : List (List Nat)) :
    (stage id keys postList).length = postList.length := by
  induction keys generalizing postList with
  | nil => rfl
  | cons k keys ih => simp only [stage, List.foldl_cons] at ih ⊢; rw [ih, List.length_set]

theorem getD_stage (id : Nat) (keys : List Nat) {postList : List (List Nat)} {b : Nat}
    (hb : b < postList.length) :
    (stage id keys postList).getD b [] =
      postList.getD b [] ++ List.replicate (keys.count b) id := by
  induction keys generalizing postList with
  | nil => simp [stage]
  | cons k keys ih =>
    simp only [stage, List.foldl_cons] at ih ⊢
    rw [ih (by rwa [List.length_set])]
    by_cases hk : k = b
    · subst hk
      rw [getD_set_self hb, List.count_cons_self, List.replicate_succ, List.append_assoc]
      rfl
    · rw [getD_set_ne hk, List.count_cons_of_ne (Ne.symm hk)]

theorem foldlM_pushPosting {M id cqty n : Nat} {keys : List Nat} (hk : ∀ k ∈ keys, idTypeLt k M)
    (postList : List (List Nat)) :
    (keys.enumFrom n).foldlM (pushPosting M id cqty) postList = .ok (stage id keys postList) := by
  induction keys generalizing n postList with
  | nil => rfl
  | cons k keys ih =>
    simp only [List.enumFrom_cons, List.foldlM_cons, pushPosting,
      if_pos (hk k (List.mem_cons_self k keys)), ok_bind]
    exact ih (fun k' h => hk k' (List.mem_cons_of_mem k h)) _

theorem pushPosting_of_ge {M id cqty i k : Nat} (postList : List (List Nat)) (hk : 2 ^ 31 ≤ k) :
    pushPosting M id cqty postList (i, k) = .error (.checkFailed ("bug cid (" ++
      toString (toIdType k) ++ ") >= maxPostQty (" ++ toString M ++ ") " ++ "i=" ++ toString i ++
        " cqty=" ++ toString cqty)) :=
  if_neg fun h => absurd h.1 (Nat.not_lt.mpr hk)

theorem indexItem_eq {w : Nat} {st : BuildState} {cfg : BuildCfg} {keys : List Nat}
    (hkeys : cfg.objKeys st.nextId = .ok keys) (hk : ∀ k ∈ keys, idTypeLt k cfg.maxPostQty) :
    st.indexItem cfg w = .ok { st with
      nextId := st.nextId + 1
      tmpPostingLists :=
        st.tmpPostingLists.set w (stage st.nextId keys (st.tmpPostingLists.getD w []))
      tmpPostDocQty := st.tmpPostDocQty.set w (st.tmpPostDocQty.getD w 0 + 1)
      pc := if st.tmpPostDocQty.getD w 0 + 1 ≥ maxTmpDocQty then st.pc.set w (.flushing 0 none)
        else st.pc } := by
  simp only [indexItem, hkeys, ok_bind, List.enum, foldlM_pushPosting hk]
  rfl

theorem length_of_foldlM_pushPosting {M id cqty n : Nat} {keys : List Nat}
    {postList postList' : List (List Nat)}
    (h : (keys.enumFrom n).foldlM (pushPosting M id cqty) postList = .ok postList') :
    postList'.length = postList.length := by
  induction keys generalizing n postList with
  | nil => cases h; rfl
  | cons k keys ih =>
    simp only [List.enumFrom_cons, List.foldlM_cons, pushPosting] at h
    split at h
    · rw [ok_bind] at h
      rw [ih h, List.length_set]
    · cases h

theorem indexItem_ok {w : Nat} {st st' : BuildState} {cfg : BuildCfg}
    (h : st.indexItem cfg w = .ok st') : ∃ postList,
      (postList.length = (st.tmpPostingLists.getD w []).length) ∧ st' = { st with
        nextId := st.nextId + 1
        tmpPostingLists := st.tmpPostingLists.set w postList
        tmpPostDocQty := st.tmpPostDocQty.set w (st.tmpPostDocQty.getD w 0 + 1)
        pc := if st.tmpPostDocQty.getD w 0 + 1 ≥ maxTmpDocQty then st.pc.set w (.flushing 0 none)
          else st.pc } := by
  simp only [indexItem, bind, Except.bind] at h
  split at h
  · cases h
  split at h
  · cases h
  cases h
  exact ⟨_, length_of_foldlM_pushPosting (by assumption), rfl⟩

theorem lt_of_foldlM_pushPosting {M id cqty n : Nat} {keys : List Nat}
    {postList postList' : List (List Nat)}
    (h : (keys.enumFrom n).foldlM (pushPosting M id cqty) postList = .ok postList') :
    ∀ k ∈ keys, idTypeLt k M := by
  induction keys generalizing n postList with
  | nil => exact fun k hk => absurd hk (List.not_mem_nil k)
  | cons k keys ih =>
    simp only [List.enumFrom_cons, List.foldlM_cons, pushPosting] at h
    split at h
    · rw [ok_bind] at h
      exact List.forall_mem_cons.mpr ⟨by assumption, ih h⟩
    · cases h

theorem indexItem_keys {w : Nat} {st st' : BuildState} {cfg : BuildCfg}
    (h : st.indexItem cfg w = .ok st') :
    ∃ keys, cfg.objKeys st.nextId = .ok keys ∧ ∀ k ∈ keys, idTypeLt k cfg.maxPostQty := by
  obtain ⟨keys, hk, h⟩ := bind_eq_ok h
  obtain ⟨pl, hpl, -⟩ := bind_eq_ok h
  exact ⟨keys, hk, lt_of_foldlM_pushPosting hpl⟩

/-! ## One step, case by case -/

@[simp] theorem setPc_postingLists (st : BuildState) (w : Nat) (p : WorkerPc) :
    (st.setPc w p).postingLists = st.postingLists := rfl
@[simp] theorem setPc_tmpPostingLists (st : BuildState) (w : Nat) (p : WorkerPc) :
    (st.setPc w p).tmpPostingLists = st.tmpPostingLists := rfl
@[simp] theorem setPc_tmpPostDocQty (st : BuildState) (w : Nat) (p : WorkerPc) :
    (st.setPc w p).tmpPostDocQty = st.tmpPostDocQty := rfl
@[simp] theorem setPc_pc (st : BuildState) (w : Nat) (p : WorkerPc) :
    (st.setPc w p).pc = st.pc.set w p := rfl
@[simp] theorem drain_tmpPostDocQty (st : BuildState) (w cid : Nat) :
    (st.drain w cid).tmpPostDocQty = st.tmpPostDocQty := rfl
@[simp] theorem drain_pc (st : BuildState) (w cid : Nat) : (st.drain w cid).pc = st.pc := rfl
section Step
variable {cfg : BuildCfg} {st st' : BuildState} {w : Nat}

theorem step_absent (h : cfg.params.indexThreadQty ≤ w) : st.step cfg w = .ok st := by
  rw [step, if_neg (Nat.not_lt.mpr h)]

theorem step_idle (hw : w < cfg.params.indexThreadQty) (hpc : st.pc.getD w .idle = .idle) :
    st.step cfg w =
      if st.finalPhase then
        if st.nextPivId < cfg.params.numPivot then
          .ok { st with
            nextPivId := st.nextPivId + 1
            pc := st.pc.set w (.flushing 0 (some st.nextPivId)) }
        else .ok st
      else if st.nextId < cfg.dataQty then st.indexItem cfg w
      else if st.pc.all (· == .idle) then .ok { st with finalPhase := true }
      else .ok st := by
  simp only [step, if_pos hw, hpc]

theorem step_flushing {cid : Nat} {pivId : Option Nat} (hw : w < cfg.params.indexThreadQty)
    (hpc : st.pc.getD w .idle = .flushing cid pivId) :
    st.step cfg w =
      if cid < cfg.maxPostQty then
        if WorkerPc.sorting cid ∈ st.pc then .error (.dataRace "posting_lists_" cid)
        else .ok ((st.drain w cid).setPc w (.flushing (cid + 1) pivId))
      else
        .ok { st with
          tmpPostDocQty := st.tmpPostDocQty.set w 0
          pc := st.pc.set w (WorkerPc.afterFlush pivId) } := by
  simp only [step, if_pos hw, hpc]

theorem step_sorting {pivId : Nat} (hw : w < cfg.params.indexThreadQty)
    (hpc : st.pc.getD w .idle = .sorting pivId) :
    st.step cfg w = (st.sortList pivId).bind fun st => .ok (st.setPc w .idle) := by
  simp only [step, if_pos hw, hpc]
  rfl

theorem all_idle_iff (pc : List WorkerPc) : pc.all (· == .idle) = true ↔ ∀ p ∈ pc, p = .idle := by
  simp only [List.all_eq_true, beq_iff_eq]

/-- What one step of worker `w` that returns can do: nothing; hand out the next item of the
final loop; run an item of the indexing loop; pass the barrier between the loops; drain one
bucket no worker is sorting; end a flush; or sort one shared list. -/
theorem step_cases (h : st.step cfg w = .ok st') :
    st' = st ∨
    (w < cfg.params.indexThreadQty ∧ st.pc.getD w .idle = .idle ∧ st.finalPhase = true ∧
      st.nextPivId < cfg.params.numPivot ∧ st' = { st with
        nextPivId := st.nextPivId + 1
        pc := st.pc.set w (.flushing 0 (some st.nextPivId)) }) ∨
    (w < cfg.params.indexThreadQty ∧ st.pc.getD w .idle = .idle ∧ st.finalPhase = false ∧
      st.nextId < cfg.dataQty ∧ st.indexItem cfg w = .ok st') ∨
    (st.finalPhase = false ∧ cfg.dataQty ≤ st.nextId ∧ (∀ p ∈ st.pc, p = .idle) ∧
      st' = { st with finalPhase := true }) ∨
    (∃ cid pivId, w < cfg.params.indexThreadQty ∧ st.pc.getD w .idle = .flushing cid pivId ∧
      cid < cfg.maxPostQty ∧ WorkerPc.sorting cid ∉ st.pc ∧
      st' = (st.drain w cid).setPc w (.flushing (cid + 1) pivId)) ∨
    (∃ cid pivId, w < cfg.params.indexThreadQty ∧ st.pc.getD w .idle = .flushing cid pivId ∧
      cfg.maxPostQty ≤ cid ∧ st' = { st with
        tmpPostDocQty := st.tmpPostDocQty.set w 0
        pc := st.pc.set w (WorkerPc.afterFlush pivId) }) ∨
    (∃ pivId oneList, w < cfg.params.indexThreadQty ∧ st.pc.getD w .idle = .sorting pivId ∧
      st.postingLists[pivId]? = some oneList ∧ st' = { st with
        postingLists := st.postingLists.set pivId (oneList.insertionSort (· ≤ ·))
        pc := st.pc.set w .idle }) := by
  by_cases hw : w < cfg.params.indexThreadQty
  · cases hpc : st.pc.getD w .idle with
    | idle =>
      rw [step_idle hw hpc] at h
      split at h
      · split at h
        · cases h; exact .inr (.inl ⟨hw, rfl, by assumption, by assumption, rfl⟩)
        · cases h; exact .inl rfl
      · rename_i hph
        split at h
        · exact .inr (.inr (.inl ⟨hw, rfl, by simpa using hph, by assumption, h⟩))
        · split at h
          · cases h
            exact .inr (.inr (.inr (.inl ⟨by simpa using hph, by omega,
              (all_idle_iff _).mp (by assumption), rfl⟩)))
          · cases h; exact .inl rfl
    | flushing cid pivId =>
      rw [step_flushing hw hpc] at h
      split at h
      · split at h
        · cases h
        · cases h
          exact .inr (.inr (.inr (.inr (.inl ⟨cid, pivId, hw, rfl, by assumption, by assumption,
            rfl⟩))))
      · cases h
        exact .inr (.inr (.inr (.inr (.inr (.inl ⟨cid, pivId, hw, rfl, by omega, rfl⟩)))))
    | sorting pivId =>
      rw [step_sorting hw hpc, sortList] at h
      split at h
      · cases h
        exact .inr (.inr (.inr (.inr (.inr (.inr ⟨pivId, _, hw, rfl, by assumption, rfl⟩)))))
      · cases h
  · exact .inl (Except.ok.inj ((step_absent (Nat.not_lt.mp hw)).symm.trans h)).symm

theorem step_frame {v : Nat} (h : st.step cfg w = .ok st') (hv : w ≠ v) :
    st'.tmpPostingLists.getD v [] = st.tmpPostingLists.getD v [] ∧
      st'.tmpPostDocQty.getD v 0 = st.tmpPostDocQty.getD v 0 ∧
      st'.pc.getD v .idle = st.pc.getD v .idle := by
  rcases step_cases h with rfl | ⟨-, -, -, -, rfl⟩ | ⟨-, -, -, -, hi⟩ | ⟨-, -, -, rfl⟩ |
    ⟨cid, pivId, -, -, -, -, rfl⟩ | ⟨cid, pivId, -, -, -, rfl⟩ | ⟨pivId, l, -, -, -, rfl⟩
  · exact ⟨rfl, rfl, rfl⟩
  · exact ⟨rfl, rfl, getD_set_ne hv⟩
  · obtain ⟨pl, -, rfl⟩ := indexItem_ok hi
    refine ⟨getD_set_ne hv, getD_set_ne hv, ?_⟩
    dsimp only
    split
    · exact getD_set_ne hv
    · rfl
  · exact ⟨rfl, rfl, rfl⟩
  · exact ⟨getD_set_ne hv, rfl, getD_set_ne hv⟩
  · exact ⟨rfl, getD_set_ne hv, getD_set_ne hv⟩
  · exact ⟨rfl, rfl, getD_set_ne hv⟩

theorem drain_postingLists {cid : Nat} (h : cid < st.postingLists.length) :
    (st.drain w cid).postingLists.getD cid [] =
      st.postingLists.getD cid [] ++ (st.tmpPostingLists.getD w []).getD cid [] := by
  exact getD_set_self h

theorem createIndex_unsorted :
    createIndex 2 [[0, 1, 2], [0, 1, 2]]
        ⟨[("numPivot", .nat 3), ("numPrefix", .nat 2), ("indexThreadQty", .nat 2)]⟩
        ([1, 0, 0] ++ List.replicate 6 0 ++ List.replicate 6 1 ++ List.replicate 6 0) =
      .ok (⟨3, 2, 1, 2, [[1, 0], [], []], 2, ⟨false, .kStoreSort, 2, 2⟩⟩,
        ⟨[[1, 0], [], []], [[[], [], []], [[], [], []]], [0, 0], [.idle, .idle], 2, 3, true⟩) ∧
      Finished 3
        ⟨[[1, 0], [], []], [[[], [], []], [[], [], []]], [0, 0], [.idle, .idle], 2, 3, true⟩ ∧
      ¬ [1, 0].Sorted (· ≤ ·) := by
  decide

end Step

/-! ## Runs -/

section Run
variable {cfg : BuildCfg} {st st' : BuildState}

theorem run_cons (w : Nat) (sched : List Nat) (st : BuildState) :
    run cfg (w :: sched) st = (st.step cfg w) >>= run cfg sched := rfl

theorem createIndex_unflushed :
    genPivotCombIds 2 1 [] [0, 1, 2] 2 = .ok ⟨[0, 0], 1⟩ ∧
      createIndex 2 [[0, 1, 2], [0, 1, 2]]
          ⟨[("numPivot", .nat 3), ("numPrefix", .nat 2), ("indexThreadQty", .nat 2)]⟩
          ([1, 0, 0] ++ List.replicate 18 0) =
        .ok (⟨3, 2, 1, 2, [[1], [], []], 2, ⟨false, .kStoreSort, 2, 2⟩⟩,
          ⟨[[1], [], []], [[[], [], []], [[0], [], []]], [0, 1], [.idle, .idle], 2, 3, true⟩) ∧
      Finished 3
        ⟨[[1], [], []], [[[], [], []], [[0], [], []]], [0, 1], [.idle, .idle], 2, 3, true⟩ := by
  decide

end Run

/-! ## The shape of the store -/

structure Shape (cfg : BuildCfg) (st : BuildState) : Prop where
  postingLists : st.postingLists.length = cfg.maxPostQty
  tmpPostingLists : st.tmpPostingLists.length = cfg.params.indexThreadQty
  tmp_getD : ∀ w < cfg.params.indexThreadQty, (st.tmpPostingLists.getD w []).length = cfg.maxPostQty
  tmpPostDocQty : st.tmpPostDocQty.length = cfg.params.indexThreadQty
  pc : st.pc.length = cfg.params.indexThreadQty

namespace Shape
variable {cfg : BuildCfg} {st st' : BuildState}

theorem init (cfg : BuildCfg) : Shape cfg (init cfg) where
  postingLists := List.length_replicate _ _
  tmpPostingLists := List.length_replicate _ _
  tmp_getD w hw := by
    simp only [BuildState.init, List.getD_eq_getElem?_getD, List.getElem?_replicate, hw,
      if_true, Option.getD_some, List.length_replicate]
  tmpPostDocQty := List.length_replicate _ _
  pc := List.length_replicate _ _

theorem tmp_set (h : Shape cfg st) {w : Nat} {postList : List (List Nat)}
    (hlen : postList.length = cfg.maxPostQty) :
    ∀ v < cfg.params.indexThreadQty,
      ((st.tmpPostingLists.set w postList).getD v []).length = cfg.maxPostQty := fun v hv => by
  by_cases hwv : w = v
  · subst hwv; rwa [getD_set_self (h.tmpPostingLists ▸ hv)]
  · rw [getD_set_ne hwv]; exact h.tmp_getD v hv

theorem step (h : Shape cfg st) {w : Nat} (hs : st.step cfg w = .ok st') : Shape cfg st' := by
  rcases step_cases hs with rfl | ⟨-, -, -, -, rfl⟩ | ⟨hw, -, -, -, hi⟩ | ⟨-, -, -, rfl⟩ |
    ⟨cid, pivId, hw, -, -, -, rfl⟩ | ⟨cid, pivId, -, -, -, rfl⟩ | ⟨pivId, l, -, -, -, rfl⟩
  · exact h
  · exact { h with pc := (List.length_set _ _ _).trans h.pc }
  · obtain ⟨pl, hpl, rfl⟩ := indexItem_ok hi
    refine ⟨h.postingLists, (List.length_set _ _ _).trans h.tmpPostingLists,
      h.tmp_set (hpl.trans (h.tmp_getD w hw)), (List.length_set _ _ _).trans h.tmpPostDocQty, ?_⟩
    dsimp only
    split
    · exact (List.length_set _ _ _).trans h.pc
    · exact h.pc
  · exact { h with }
  · exact ⟨(List.length_set _ _ _).trans h.postingLists,
      (List.length_set _ _ _).trans h.tmpPostingLists,
      h.tmp_set ((List.length_set _ _ _).trans (h.tmp_getD w hw)), h.tmpPostDocQty,
      (List.length_set _ _ _).trans h.pc⟩
  · exact { h with
      tmpPostDocQty := (List.length_set _ _ _).trans h.tmpPostDocQty
      pc := (List.length_set _ _ _).trans h.pc }
  · exact { h with
      postingLists := (List.length_set _ _ _).trans h.postingLists
      pc := (List.length_set _ _ _).trans h.pc }

theorem run (h : Shape cfg st) {sched : List Nat} (hr : st.run cfg sched = .ok st') :
    Shape cfg st' := by
  induction sched generalizing st with
  | nil => cases hr; exact h
  | cons w sched ih =>
    obtain ⟨st₁, h₁, h₂⟩ := bind_eq_ok hr
    exact ih (h.step h₁) h₂

end Shape

theorem step_drain {cfg : BuildCfg} {st : BuildState} {w cid : Nat} {pivId : Option Nat}
    (hs : Shape cfg st) (hpc : st.pc.getD w .idle = .flushing cid pivId)
    (hc : cid < cfg.maxPostQty) :
    (WorkerPc.sorting cid ∈ st.pc → st.step cfg w = .error (.dataRace "posting_lists_" cid)) ∧
      ∀ st', st.step cfg w = .ok st' →
        st'.postingLists.getD cid [] =
          st.postingLists.getD cid [] ++ (st.tmpPostingLists.getD w []).getD cid [] ∧
        (st'.tmpPostingLists.getD w []).getD cid [] = [] := by
  have hw : w < cfg.params.indexThreadQty := by
    by_contra hw
    rw [List.getD_eq_getElem?_getD, List.getElem?_eq_none (by rw [hs.pc]; omega)] at hpc
    cases hpc
  rw [step_flushing hw hpc, if_pos hc]
  refine ⟨fun h => if_pos h, fun st' h => ?_⟩
  rw [if_neg fun hm => by rw [if_pos hm] at h; cases h] at h
  cases h
  refine ⟨drain_postingLists (hs.postingLists.symm ▸ hc), ?_⟩
  simp only [setPc_tmpPostingLists, drain]
  rw [getD_set_self (hs.tmpPostingLists.symm ▸ hw), getD_set_self ((hs.tmp_getD w hw).symm ▸ hc)]

end BuildState

end PivotInvIndex
