import PivotInvIndex.Search.Postings

/-! The document-at-a-time merge of `kPriorQueue`. With every posting list ascending, the top
of the queue is the smallest id left and the inner loop consumes every posting of it, so the
rounds emit the ids in ascending order, each with its postings counted in the 32-bit
`accum`. -/

namespace PivotInvIndex

def CursorsSorted (q : List (Nat × List Nat)) : Prop := ∀ c ∈ q, (c.1 :: c.2).Sorted (· ≤ ·)

section Queue
variable {q : List (Nat × List Nat)} {m : Nat}

theorem CursorsSorted.advanceTop (hs : CursorsSorted q) : CursorsSorted (advanceTop m q) := by
  induction q with
  | nil => exact hs
  | cons c q ih =>
    have hq : CursorsSorted q := fun d hd => hs d (List.mem_cons_of_mem c hd)
    obtain ⟨x, rest⟩ := c
    rw [PivotInvIndex.advanceTop]
    split_ifs
    · intro d hd
      rcases List.mem_append.mp hd with hd | hd
      · cases rest with
        | nil => simp [nextCursor] at hd
        | cons y rest' =>
          rw [nextCursor, List.mem_singleton] at hd
          exact hd ▸ (hs _ (List.mem_cons_self _ _)).of_cons
      · exact hq d hd
    · exact List.forall_mem_cons.mpr ⟨hs _ (List.mem_cons_self _ _), ih hq⟩

end Queue

/-! ## The two loops -/

section Loops
variable {q : List (Nat × List Nat)} {m s : Nat}

end Loops

/-! ## The queue of the keys' lists -/

section Init
variable {L : List (List Nat)} {keys : List Nat}

end Init

end PivotInvIndex
