import PivotInvIndex.Build.Steps

/-! The final loop runs over `pivId < num_pivot_` and reads `posting_lists_[pivId]`, while the
store has `maxPostQty_` lists. An item handed out past the store stays with its worker until
the sort reads past the store, so when `maxPostQty_ < num_pivot_` no schedule returns from the
loops without that fault. -/

namespace PivotInvIndex

def WorkerPc.item : WorkerPc → Option Nat
  | .idle => none
  | .flushing _ pivId => pivId
  | .sorting pivId => some pivId

@[simp] theorem WorkerPc.item_afterFlush (pivId : Option Nat) :
    (WorkerPc.afterFlush pivId).item = pivId := by
  cases pivId <;> rfl

namespace BuildState
variable {cfg : BuildCfg} {st st' : BuildState}

def HeldPast (cfg : BuildCfg) (st : BuildState) : Prop :=
  ∀ p, cfg.maxPostQty ≤ p → p < st.nextPivId → ∃ w, (st.pc.getD w .idle).item = some p

theorem heldPast_set {w : Nat} {q : WorkerPc} (h : HeldPast cfg st)
    (hw : (st.pc.getD w .idle).item = none) (p : Nat) (hp : cfg.maxPostQty ≤ p)
    (hlt : p < st.nextPivId) : ∃ v, ((st.pc.set w q).getD v .idle).item = some p := by
  obtain ⟨v, hv⟩ := h p hp hlt
  have hwv : w ≠ v := fun e => by rw [e, hv] at hw; cases hw
  exact ⟨v, by rwa [getD_set_ne hwv]⟩

theorem heldPast_set_same {w : Nat} {q : WorkerPc} (h : HeldPast cfg st) (hlen : w < st.pc.length)
    (hq : q.item = (st.pc.getD w .idle).item) (p : Nat) (hp : cfg.maxPostQty ≤ p)
    (hlt : p < st.nextPivId) : ∃ v, ((st.pc.set w q).getD v .idle).item = some p := by
  obtain ⟨v, hv⟩ := h p hp hlt
  by_cases hwv : w = v
  · subst hwv; exact ⟨w, by rwa [getD_set_self hlen, hq]⟩
  · exact ⟨v, by rwa [getD_set_ne hwv]⟩

theorem HeldPast.step (hs : Shape cfg st) (h : HeldPast cfg st) {w : Nat}
    (hstep : st.step cfg w = .ok st') : HeldPast cfg st' := by
  rcases step_cases hstep with rfl | ⟨hw, hpc, -, -, rfl⟩ | ⟨-, hpc, -, -, hi⟩ | ⟨-, -, -, rfl⟩ |
    ⟨cid, pivId, hw, hpc, -, -, rfl⟩ | ⟨cid, pivId, hw, hpc, -, rfl⟩ | ⟨pivId, l, hw, hpc, hl, rfl⟩
  · exact h
  · intro p hp hlt
    rcases Nat.lt_succ_iff_lt_or_eq.mp hlt with hlt | rfl
    · exact heldPast_set h (by rw [hpc]; rfl) p hp hlt
    · exact ⟨w, by rw [getD_set_self (hs.pc ▸ hw)]; rfl⟩
  · obtain ⟨pl, -, rfl⟩ := indexItem_ok hi
    intro p hp hlt
    dsimp only at hlt ⊢
    split
    · exact heldPast_set h (by rw [hpc]; rfl) p hp hlt
    · exact h p hp hlt
  · exact h
  · exact heldPast_set_same h (hs.pc ▸ hw) (by rw [hpc]; rfl)
  · exact heldPast_set_same h (hs.pc ▸ hw) (by rw [hpc, WorkerPc.item_afterFlush]; rfl)
  · intro p hp hlt
    obtain ⟨v, hv⟩ := h p hp hlt
    have hwv : w ≠ v := by
      rintro rfl
      rw [hpc] at hv
      cases hv
      exact absurd (hs.postingLists ▸ (List.getElem?_eq_some_iff.mp hl).1) (Nat.not_lt.mpr hp)
    exact ⟨v, by rwa [getD_set_ne hwv]⟩

/-- When `maxPostQty_ < num_pivot_`, no schedule returns from the loops without a fault. -/
theorem run_not_finished (hM : cfg.maxPostQty < cfg.params.numPivot) {sched : List Nat}
    (h : (init cfg).run cfg sched = .ok st) : ¬ st.Finished cfg.params.numPivot := by
  have key : ∀ {sched : List Nat} {st₀ st : BuildState}, Shape cfg st₀ → HeldPast cfg st₀ →
      st₀.run cfg sched = .ok st → HeldPast cfg st := by
    intro sched
    induction sched with
    | nil => intro st₀ st _ h hr; cases hr; exact h
    | cons w sched ih =>
      intro st₀ st hs h hr
      obtain ⟨st₁, h₁, h₂⟩ := bind_eq_ok hr
      exact ih (hs.step h₁) (h.step hs h₁) h₂
  rintro ⟨-, hN, hidle⟩
  obtain ⟨w, hw⟩ := key (Shape.init cfg) (fun p _ hlt => absurd hlt (Nat.not_lt_zero p)) h
    cfg.maxPostQty le_rfl (by omega)
  rw [List.getD_eq_getElem?_getD] at hw
  cases hg : st.pc[w]? with
  | none => rw [hg] at hw; cases hw
  | some q => rw [hg, hidle q (List.getElem?_mem hg)] at hw; cases hw

theorem createIndex_faults :
    createIndex 1 [[0, 1]] ⟨[("numPivot", .nat 2), ("numPrefix", .nat 2)]⟩ (List.replicate 10 0) =
        .error (.outOfBounds "posting_lists_" 1 1) ∧
      createIndex 1 [] ⟨[("numPivot", .nat 1), ("numPrefix", .nat 1)]⟩ [] =
        .error (.divByZero "2 * skip_val_ * maxPostQty_") ∧
      createIndex 1 [] ⟨[("skipVal", .nat 0)]⟩ [] = .error (.divByZero "skipVal") := by
  decide

end BuildState

end PivotInvIndex
