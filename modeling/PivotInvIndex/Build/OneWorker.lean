import PivotInvIndex.Build.Steps

/-! The loops on one indexing thread. The objects are staged in id order, a flush drains the
buckets in order, and the final loop's first flush empties the staging lists, so every sort
finds its list ascending already. From every state the worker reaches the end of the loops,
and the store it leaves holds under each bucket the ids whose keys name it, ascending, once per
key. -/

namespace PivotInvIndex

namespace BuildState

def staged (keysOf : Nat → List Nat) (b n : Nat) : List Nat :=
  (List.range n).flatMap fun id => List.replicate ((keysOf id).count b) id

section Staged
variable {keysOf : Nat → List Nat} {b : Nat}

theorem staged_succ (n : Nat) :
    staged keysOf b (n + 1) = staged keysOf b n ++ List.replicate ((keysOf n).count b) n := by
  simp [staged, List.range_succ]

theorem lt_of_mem_staged {n x : Nat} (h : x ∈ staged keysOf b n) : x < n := by
  simp only [staged, List.mem_flatMap, List.mem_range, List.mem_replicate] at h
  obtain ⟨a, ha, -, rfl⟩ := h
  exact ha

theorem staged_sorted (n : Nat) : (staged keysOf b n).Sorted (· ≤ ·) := by
  induction n with
  | zero => exact List.sorted_nil
  | succ n ih =>
    rw [staged_succ]
    refine List.pairwise_append.mpr ⟨ih, List.pairwise_replicate.mpr (.inr le_rfl),
      fun a ha c hc => ?_⟩
    rw [List.eq_of_mem_replicate hc]
    exact (lt_of_mem_staged ha).le

theorem staged_eq_filter {n : Nat} (hnd : ∀ id < n, (keysOf id).Nodup) :
    staged keysOf b n = (List.range n).filter fun id => b ∈ keysOf id := by
  induction n with
  | zero => rfl
  | succ n ih =>
    rw [staged_succ, ih fun id h => hnd id (by omega), List.range_succ, List.filter_append]
    congr 1
    by_cases hb : b ∈ keysOf n
    · rw [List.count_eq_one_of_mem (hnd n (by omega)) hb]
      simp [hb]
    · rw [List.count_eq_zero_of_not_mem hb]
      simp [hb]

end Staged

/-- The invariant of the loops on one worker: the shared list and the staging list of each
bucket together hold what the indexed objects staged there, and a flush has emptied the
buckets it passed. -/
structure OneInv (cfg : BuildCfg) (keysOf : Nat → List Nat) (st : BuildState) : Prop where
  shape : Shape cfg st
  stagedEq : ∀ b < cfg.maxPostQty,
    st.postingLists.getD b [] ++ (st.tmpPostingLists.getD 0 []).getD b [] =
      staged keysOf b st.nextId
  nextId_le : st.nextId ≤ cfg.dataQty
  nextId_final : st.finalPhase = true → st.nextId = cfg.dataQty
  nextPivId_index : st.finalPhase = false → st.nextPivId = 0
  nextPivId_le : st.nextPivId ≤ cfg.params.numPivot
  flushing : ∀ cid pivId, st.pc.getD 0 .idle = .flushing cid pivId →
    cid ≤ cfg.maxPostQty ∧ (∀ b < cid, (st.tmpPostingLists.getD 0 []).getD b [] = []) ∧
      ∀ p, pivId = some p → p < cfg.params.numPivot
  sorting : ∀ p, st.pc.getD 0 .idle = .sorting p →
    p < cfg.params.numPivot ∧ ∀ b < cfg.maxPostQty, (st.tmpPostingLists.getD 0 []).getD b [] = []
  idle : st.pc.getD 0 .idle = .idle → st.finalPhase = true → 0 < st.nextPivId →
    ∀ b < cfg.maxPostQty, (st.tmpPostingLists.getD 0 []).getD b [] = []

section One
variable {cfg : BuildCfg} {keysOf : Nat → List Nat} {st st' : BuildState}
  (h1 : cfg.params.indexThreadQty = 1)
  (hkeys : ∀ id < cfg.dataQty, cfg.objKeys id = .ok (keysOf id))
  (hlt : ∀ id < cfg.dataQty, ∀ k ∈ keysOf id, idTypeLt k cfg.maxPostQty)
  (hNM : cfg.params.numPivot ≤ cfg.maxPostQty)

include h1 in
theorem OneInv.init : OneInv cfg keysOf (init cfg) where
  shape := Shape.init cfg
  stagedEq b hb := by simp [BuildState.init, h1, staged, hb]
  nextId_le := Nat.zero_le _
  nextId_final h := by cases h
  nextPivId_index _ := rfl
  nextPivId_le := Nat.zero_le _
  flushing cid pivId h := by simp [BuildState.init, h1] at h
  sorting p h := by simp [BuildState.init, h1] at h
  idle _ h := by cases h

include h1 in
theorem pc_set_zero (hs : Shape cfg st) (q : WorkerPc) : (st.pc.set 0 q).getD 0 .idle = q :=
  getD_set_self (by rw [hs.pc, h1]; exact Nat.one_pos)

include h1 in
theorem tmp_set_zero (hs : Shape cfg st) (pl : List (List Nat)) :
    (st.tmpPostingLists.set 0 pl).getD 0 [] = pl :=
  getD_set_self (by rw [hs.tmpPostingLists, h1]; exact Nat.one_pos)

include h1 in
theorem tmp_zero_length (hs : Shape cfg st) :
    (st.tmpPostingLists.getD 0 []).length = cfg.maxPostQty :=
  hs.tmp_getD 0 (by rw [h1]; exact Nat.one_pos)

include h1 hkeys hlt in
theorem OneInv.step (h : OneInv cfg keysOf st) (hs : st.step cfg 0 = .ok st') :
    OneInv cfg keysOf st' := by
  have hsh := h.shape
  rcases step_cases hs with rfl | ⟨-, -, hph, hnp, rfl⟩ | ⟨-, hpc, hph, hid, hi⟩ |
    ⟨hph, hD, -, rfl⟩ | ⟨cid, pivId, -, hpc, hc, -, rfl⟩ | ⟨cid, pivId, -, hpc, hc, rfl⟩ |
    ⟨p, l, -, hpc, hl, rfl⟩
  · exact h
  · -- the final loop hands out item `nextPivId`
    refine { h with
      shape := hsh.step hs
      nextPivId_index := fun e => absurd (hph.symm.trans e) Bool.noConfusion
      nextPivId_le := hnp
      flushing := fun cid pivId e => ?_
      sorting := fun p e => ?_
      idle := fun e => ?_ } <;>
    rw [pc_set_zero h1 hsh] at e <;> cases e
    exact ⟨Nat.zero_le _, fun b hb => absurd hb (Nat.not_lt_zero b),
      fun p hp => by cases hp; exact hnp⟩
  · -- the indexing loop stages object `nextId`
    rw [indexItem_eq (hkeys _ hid) (hlt _ hid)] at hi
    cases hi
    refine { h with
      shape := hsh.step hs
      stagedEq := fun b hb => ?_
      nextId_le := hid
      nextId_final := fun e => absurd (hph.symm.trans e) Bool.noConfusion
      flushing := fun cid pivId e => ?_
      sorting := fun p e => ?_
      idle := fun _ e => absurd (hph.symm.trans e) Bool.noConfusion }
    · dsimp only
      rw [tmp_set_zero h1 hsh, getD_stage _ _ ((tmp_zero_length h1 hsh).symm ▸ hb),
        ← List.append_assoc, h.stagedEq b hb, staged_succ]
    · dsimp only at e
      split at e
      · rw [pc_set_zero h1 hsh] at e
        cases e
        exact ⟨Nat.zero_le _, fun b hb => absurd hb (Nat.not_lt_zero b), fun p hp => by cases hp⟩
      · rw [hpc] at e; cases e
    · dsimp only at e
      split at e
      · rw [pc_set_zero h1 hsh] at e; cases e
      · rw [hpc] at e; cases e
  · -- the barrier between the loops
    exact { h with
      shape := hsh.step hs
      nextId_final := fun _ => le_antisymm h.nextId_le hD
      nextPivId_index := fun e => by cases e
      idle := fun _ _ hnp => absurd hnp (by rw [h.nextPivId_index hph]; exact Nat.lt_irrefl 0) }
  · -- the drain of bucket `cid`
    obtain ⟨-, hemp, hpiv⟩ := h.flushing cid pivId hpc
    have htmp : ∀ b, ((st.drain 0 cid).tmpPostingLists.getD 0 []).getD b [] =
        if b = cid then [] else (st.tmpPostingLists.getD 0 []).getD b [] := fun b => by
      simp only [drain, tmp_set_zero h1 hsh]
      split
      · subst b; exact getD_set_self ((tmp_zero_length h1 hsh).symm ▸ hc)
      · exact getD_set_ne (Ne.symm ‹_›)
    refine { h with
      shape := hsh.step hs
      stagedEq := fun b hb => ?_
      flushing := fun cid' pivId' e => ?_
      sorting := fun p e => ?_
      idle := fun e => ?_ }
    · rw [setPc_tmpPostingLists, setPc_postingLists, htmp]
      by_cases hbc : b = cid
      · subst hbc
        rw [if_pos rfl, List.append_nil, drain_postingLists (hsh.postingLists.symm ▸ hc)]
        exact h.stagedEq b hb
      · rw [if_neg hbc, drain, getD_set_ne (Ne.symm hbc)]
        exact h.stagedEq b hb
    · rw [setPc_pc, drain_pc, pc_set_zero h1 hsh] at e
      cases e
      refine ⟨hc, fun b hb => ?_, hpiv⟩
      rw [setPc_tmpPostingLists, htmp]
      split
      · rfl
      · exact hemp b (by omega)
    all_goals rw [setPc_pc, drain_pc, pc_set_zero h1 hsh] at e; cases e
  · -- the end of a flush
    obtain ⟨hcM, hemp, hpiv⟩ := h.flushing cid pivId hpc
    have hall : ∀ b < cfg.maxPostQty, (st.tmpPostingLists.getD 0 []).getD b [] = [] :=
      fun b hb => hemp b (by omega)
    refine { h with
      shape := hsh.step hs
      flushing := fun cid' pivId' e => ?_
      sorting := fun p e => ⟨?_, hall⟩
      idle := fun _ _ _ => hall } <;>
    rw [pc_set_zero h1 hsh] at e <;> cases pivId <;> cases e
    exact hpiv p rfl
  · -- the sort of list `p`
    obtain ⟨-, hemp⟩ := h.sorting p hpc
    have hp : p < cfg.maxPostQty := hsh.postingLists ▸ (List.getElem?_eq_some_iff.mp hl).1
    have hlist : l = staged keysOf p st.nextId := by
      have := h.stagedEq p hp
      rwa [hemp p hp, List.append_nil, List.getD_eq_getElem?_getD, hl, Option.getD_some] at this
    refine { h with
      shape := hsh.step hs
      stagedEq := fun b hb => ?_
      flushing := fun cid' pivId' e => ?_
      sorting := fun p' e => ?_
      idle := fun _ _ _ => hemp }
    · dsimp only
      by_cases hbp : b = p
      · subst hbp
        rw [getD_set_self (hsh.postingLists.symm ▸ hp), hlist,
          (staged_sorted _).insertionSort_eq, hemp b hb, List.append_nil]
      · rw [getD_set_ne (Ne.symm hbp)]
        exact h.stagedEq b hb
    all_goals rw [pc_set_zero h1 hsh] at e; cases e

include h1 hkeys hlt in
theorem OneInv.run (h : OneInv cfg keysOf st) {sched : List Nat}
    (hr : st.run cfg sched = .ok st') : OneInv cfg keysOf st' := by
  induction sched generalizing st with
  | nil => cases hr; exact h
  | cons w sched ih =>
    obtain ⟨st₁, h₁, h₂⟩ := bind_eq_ok hr
    rcases Nat.eq_zero_or_pos w with rfl | hw
    · exact ih (h.step h1 hkeys hlt h₁) h₂
    · rw [step_absent (by rw [h1]; exact hw)] at h₁
      cases h₁
      exact ih h h₂

end One

end BuildState
end PivotInvIndex
