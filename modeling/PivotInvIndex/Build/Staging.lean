import PivotInvIndex.Build.Steps
import PivotInvIndex.Search.Postings
import Mathlib.Data.Finset.Card

/-! What a worker buffers. `tmp_post_doc_qty_[threadId]` counts the objects the worker has
indexed since its last flush, and reaching `MAX_TMP_DOC_QTY` starts a flush, which drains every
staging list and then resets the count. So in every state a run reaches, on any number of
workers and whatever the schedule, each worker's staging lists hold postings of at most
`tmp_post_doc_qty_` objects, and the count never passes `MAX_TMP_DOC_QTY`. -/

namespace PivotInvIndex

def WorkerPc.Buffers (staging : List (List Nat)) (docQty : Nat) : WorkerPc → Prop
  | .flushing cid _ => ∀ b < cid, staging.getD b [] = []
  | _ => docQty < maxTmpDocQty

namespace BuildState

def WorkerBuffered (staging : List (List Nat)) (docQty : Nat) (q : WorkerPc) : Prop :=
  staging.flatten.toFinset.card ≤ docQty ∧ docQty ≤ maxTmpDocQty ∧ q.Buffers staging docQty

structure Buffered (cfg : BuildCfg) (st : BuildState) : Prop where
  shape : Shape cfg st
  worker : ∀ w, WorkerBuffered (st.tmpPostingLists.getD w []) (st.tmpPostDocQty.getD w 0)
    (st.pc.getD w .idle)

/-! ## The objects a worker's staging lists hold -/

section Lists
variable {postList : List (List Nat)}

theorem mem_flatten_stage {id : Nat} {keys : List Nat} {x : Nat}
    (h : x ∈ (stage id keys postList).flatten) : x ∈ postList.flatten ∨ x = id := by
  induction keys generalizing postList with
  | nil => exact .inl h
  | cons k keys ih =>
    rcases ih h with h | h
    · obtain ⟨l, hl, hx⟩ := List.mem_flatten.mp h
      rcases List.mem_or_eq_of_mem_set hl with hl | rfl
      · exact .inl (List.mem_flatten.mpr ⟨l, hl, hx⟩)
      · rcases List.mem_append.mp hx with hx | hx
        · rcases getD_mem_or_nil postList k with hm | hn
          · exact .inl (List.mem_flatten.mpr ⟨_, hm, hx⟩)
          · rw [hn] at hx; cases hx
        · exact .inr (List.mem_singleton.mp hx)
    · exact .inr h

theorem mem_flatten_set_nil {cid x : Nat} (h : x ∈ (postList.set cid []).flatten) :
    x ∈ postList.flatten := by
  obtain ⟨l, hl, hx⟩ := List.mem_flatten.mp h
  rcases List.mem_or_eq_of_mem_set hl with hl | rfl
  · exact List.mem_flatten.mpr ⟨l, hl, hx⟩
  · cases hx

theorem flatten_eq_nil_of_getD (h : ∀ b < postList.length, postList.getD b [] = []) :
    postList.flatten = [] := by
  refine List.flatten_eq_nil_iff.mpr fun l hl => ?_
  obtain ⟨b, hb, rfl⟩ := List.getElem_of_mem hl
  rw [← h b hb, List.getD_eq_getElem?_getD, List.getElem?_eq_getElem hb, Option.getD_some]

theorem card_stage_le (id : Nat) (keys : List Nat) (postList : List (List Nat)) :
    (stage id keys postList).flatten.toFinset.card ≤ postList.flatten.toFinset.card + 1 :=
  calc (stage id keys postList).flatten.toFinset.card
      ≤ (insert id postList.flatten.toFinset).card := Finset.card_le_card fun x hx => by
        rcases mem_flatten_stage (List.mem_toFinset.mp hx) with h | rfl
        · exact Finset.mem_insert_of_mem (List.mem_toFinset.mpr h)
        · exact Finset.mem_insert_self _ _
    _ ≤ postList.flatten.toFinset.card + 1 := Finset.card_insert_le _ _

theorem card_set_nil_le (cid : Nat) (postList : List (List Nat)) :
    (postList.set cid []).flatten.toFinset.card ≤ postList.flatten.toFinset.card :=
  Finset.card_le_card fun _ hx =>
    List.mem_toFinset.mpr (mem_flatten_set_nil (List.mem_toFinset.mp hx))

end Lists

/-! ## Every run keeps it -/

section Run
variable {cfg : BuildCfg} {st st' : BuildState}

theorem Buffered.init (cfg : BuildCfg) : Buffered cfg (init cfg) where
  shape := Shape.init cfg
  worker w := by
    have hflat : ((BuildState.init cfg).tmpPostingLists.getD w []).flatten = [] := by
      simp only [BuildState.init, List.getD_eq_getElem?_getD, List.getElem?_replicate]
      split <;> simp [List.flatten_eq_nil_iff, List.mem_replicate]
    have hqty : (BuildState.init cfg).tmpPostDocQty.getD w 0 = 0 :=
      getD_eq_of_forall (fun a ha => List.eq_of_mem_replicate ha) w
    have hpc : (BuildState.init cfg).pc.getD w .idle = .idle :=
      getD_eq_of_forall (fun a ha => List.eq_of_mem_replicate ha) w
    rw [hqty, hpc]
    exact ⟨by rw [hflat]; exact Nat.le_refl 0, Nat.zero_le _, (by decide : 0 < maxTmpDocQty)⟩

theorem Buffered.worker_step (h : Buffered cfg st) {w : Nat} (hs : st.step cfg w = .ok st') :
    WorkerBuffered (st'.tmpPostingLists.getD w []) (st'.tmpPostDocQty.getD w 0)
      (st'.pc.getD w .idle) := by
  obtain ⟨hcard, hle, hbuf⟩ := h.worker w
  rcases step_cases hs with rfl | ⟨hw, hpc, -, -, rfl⟩ | ⟨hw, hpc, -, -, hi⟩ | ⟨-, -, -, rfl⟩ |
    ⟨cid, pivId, hw, hpc, hc, -, rfl⟩ | ⟨cid, pivId, hw, hpc, hc, rfl⟩ | ⟨p, l, hw, hpc, -, rfl⟩
  · exact h.worker w
  · -- the final loop hands out an item: its flush has passed no bucket
    refine ⟨hcard, hle, ?_⟩
    rw [getD_set_self (h.shape.pc ▸ hw)]
    exact fun b hb => absurd hb (Nat.not_lt_zero b)
  · -- an item of the indexing loop stages one more object and counts it
    obtain ⟨keys, hk, hlt⟩ := indexItem_keys hi
    rw [indexItem_eq hk hlt] at hi
    cases hi
    rw [hpc] at hbuf
    change st.tmpPostDocQty.getD w 0 < maxTmpDocQty at hbuf
    dsimp only
    rw [getD_set_self (h.shape.tmpPostingLists ▸ hw), getD_set_self (h.shape.tmpPostDocQty ▸ hw)]
    refine ⟨(card_stage_le _ _ _).trans (Nat.add_le_add_right hcard 1), hbuf, ?_⟩
    split
    · rw [getD_set_self (h.shape.pc ▸ hw)]
      exact fun b hb => absurd hb (Nat.not_lt_zero b)
    · rw [hpc]
      change _ < maxTmpDocQty
      omega
  · exact h.worker w
  · -- the drain of bucket `cid` empties it
    rw [hpc] at hbuf
    have hlen : cid < (st.tmpPostingLists.getD w []).length := (h.shape.tmp_getD w hw).symm ▸ hc
    simp only [setPc_tmpPostingLists, setPc_tmpPostDocQty, setPc_pc, drain,
      getD_set_self (h.shape.tmpPostingLists ▸ hw), getD_set_self (h.shape.pc ▸ hw)]
    refine ⟨(card_set_nil_le cid _).trans hcard, hle, fun b hb => ?_⟩
    rcases Nat.lt_succ_iff_lt_or_eq.mp hb with hb | rfl
    · rw [getD_set_ne (Nat.ne_of_gt hb)]
      exact hbuf b hb
    · exact getD_set_self hlen
  · -- the end of a flush: every bucket is drained and the count is reset
    rw [hpc] at hbuf
    have hflat : (st.tmpPostingLists.getD w []).flatten = [] := flatten_eq_nil_of_getD fun b hb =>
      hbuf b (by rw [h.shape.tmp_getD w hw] at hb; omega)
    dsimp only
    rw [getD_set_self (h.shape.tmpPostDocQty ▸ hw), getD_set_self (h.shape.pc ▸ hw)]
    refine ⟨by rw [hflat]; exact Nat.zero_le _, Nat.zero_le _, ?_⟩
    cases pivId <;> exact (by decide : 0 < maxTmpDocQty)
  · -- the sort of the final loop
    rw [hpc] at hbuf
    refine ⟨hcard, hle, ?_⟩
    rw [getD_set_self (h.shape.pc ▸ hw)]
    exact hbuf

theorem Buffered.step (h : Buffered cfg st) {w : Nat} (hs : st.step cfg w = .ok st') :
    Buffered cfg st' := by
  refine ⟨h.shape.step hs, fun v => ?_⟩
  by_cases hv : w = v
  · subst hv
    exact h.worker_step hs
  · obtain ⟨h1, h2, h3⟩ := step_frame hs hv
    rw [h1, h2, h3]
    exact h.worker v

theorem Buffered.run (h : Buffered cfg st) {sched : List Nat} (hr : st.run cfg sched = .ok st') :
    Buffered cfg st' := by
  induction sched generalizing st with
  | nil => cases hr; exact h
  | cons w sched ih =>
    obtain ⟨st₁, h₁, h₂⟩ := bind_eq_ok hr
    exact ih (h.step h₁) h₂

/-- On any number of workers and whatever the schedule, in every state the loops reach each
worker's staging lists hold postings of at most `tmp_post_doc_qty_` objects, and that count
never passes `MAX_TMP_DOC_QTY`. -/
theorem run_staging_le (cfg : BuildCfg) {sched : List Nat} {st : BuildState}
    (h : (init cfg).run cfg sched = .ok st) (w : Nat) :
    (st.tmpPostingLists.getD w []).flatten.toFinset.card ≤ st.tmpPostDocQty.getD w 0 ∧
      st.tmpPostDocQty.getD w 0 ≤ maxTmpDocQty :=
  have hb := ((Buffered.init cfg).run h).worker w
  ⟨hb.1, hb.2.1⟩

theorem run_staging_le_scenario :
    (init ⟨⟨3, 2, 2, 1, 2⟩, 3, [[0, 1, 2], [0, 1, 2]]⟩).run
      ⟨⟨3, 2, 2, 1, 2⟩, 3, [[0, 1, 2], [0, 1, 2]]⟩
        ([1, 0, 0] ++ List.replicate 5 0 ++ [1]) =
      .ok ⟨[[1], [], []], [[[], [], []], [[0], [], []]], [0, 1],
        [.sorting 0, .flushing 0 (some 1)], 2, 2, true⟩ ∧
    ([[0], [], []].flatten.toFinset.card ≤ 1 ∧ 1 ≤ maxTmpDocQty) :=
  (fun h => ⟨h, run_staging_le _ h 1⟩) (by decide)

end Run

end BuildState

end PivotInvIndex
