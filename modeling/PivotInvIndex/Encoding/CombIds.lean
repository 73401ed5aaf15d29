import PivotInvIndex.Encoding.Index
import PivotInvIndex.Encoding.Permutation

/-! `genPivotCombIds` writes, in loop order, the key of every single pivot, pair
or triple of prefix positions whose index `skip_val_` divides. Each branch is a
fold of its loop body; once every read of `perm` is in bounds the body is
`keep` of the index split by `skip_val_`, and the buffer then holds exactly the
keys of the abstract lists below. -/

namespace PivotInvIndex

/-! ## Folds in `Except` -/

theorem foldlM_congr {α β : Type} {f g : β → α → Except Fault β} {l : List α}
    (h : ∀ b, ∀ x ∈ l, f b x = g b x) (b : β) : l.foldlM f b = l.foldlM g b := by
  induction l generalizing b with
  | nil => rfl
  | cons x xs ih =>
    simp only [List.foldlM_cons, h b x (List.mem_cons_self x xs)]
    congr 1
    funext b'
    exact ih (fun b y hy => h b y (List.mem_cons_of_mem x hy)) b'

theorem foldlM_flatMap {α γ β : Type} (F : β → α × γ → Except Fault β) (g : α → List γ)
    (l : List α) (b : β) :
    l.foldlM (fun b j => (g j).foldlM (fun b k => F b (j, k)) b) b =
      (l.flatMap fun j => (g j).map (j, ·)).foldlM F b := by
  induction l generalizing b with
  | nil => rfl
  | cons j js ih =>
    simp only [List.foldlM_cons, List.flatMap_cons, List.foldlM_append, List.foldlM_map, ih]

/-! ## The buffer -/

theorem getD_of_lt {l : List Nat} {i : Nat} (h : i < l.length) : l.getD i 0 = l[i] := by
  rw [List.getD_eq_getElem?_getD, List.getElem?_eq_getElem h, Option.getD_some]

theorem take_set_succ {l : List Nat} {r : Nat} (h : r < l.length) (x : Nat) :
    (l.set r x).take (r + 1) = l.take r ++ [x] := by
  rw [List.take_succ, List.getElem?_set_self h, List.set_take,
    List.set_eq_of_length_le (List.length_take_le _ _)]
  rfl

theorem length_resizeVec (v : List Nat) (n : Nat) : (resizeVec v n).length = n := by
  simp only [resizeVec, List.length_append, List.length_take, List.length_replicate]
  omega

theorem take_resizeVec {v : List Nat} {n r : Nat} (hr : r ≤ v.length) (hn : r ≤ n) :
    (resizeVec v n).take r = v.take r := by
  rw [resizeVec, List.take_append_eq_append_take, List.take_take, Nat.min_eq_left hn,
    List.length_take, Nat.sub_eq_zero_of_le (Nat.le_min.mpr ⟨hn, hr⟩), List.take_zero,
    List.append_nil]

namespace IdBuf

def Holds (b : IdBuf) (keys : List Nat) : Prop :=
  b.resSize = keys.length ∧ b.resSize ≤ b.ids.length ∧ b.ids.take b.resSize = keys

theorem holds_nil (ids : List Nat) : (⟨ids, 0⟩ : IdBuf).Holds [] := ⟨rfl, Nat.zero_le _, rfl⟩

theorem push_holds {b : IdBuf} {keys : List Nat} (h : b.Holds keys) (x : Nat) :
    ∃ b', b.push x = .ok b' ∧ b'.Holds (keys ++ [x]) ∧ b.ids.length ≤ b'.ids.length := by
  obtain ⟨hr, hle, htake⟩ := h
  have write : ∀ g : List Nat, b.ids.length ≤ g.length → b.resSize < g.length →
      g.take b.resSize = keys → ∃ b' : IdBuf, (if b.resSize < g.length then
        Except.ok (IdBuf.mk (g.set b.resSize x) (b.resSize + 1))
        else Except.error (Fault.outOfBounds "ids" b.resSize g.length)) = .ok b' ∧
        b'.Holds (keys ++ [x]) ∧ b.ids.length ≤ b'.ids.length := by
    intro g hg hrg htk
    refine ⟨_, if_pos hrg, ⟨?_, ?_, ?_⟩, ?_⟩
    · simp only [hr, List.length_append, List.length_singleton]
    · simp only [List.length_set]; omega
    · rw [take_set_succ hrg, htk]
    · simp only [List.length_set]; omega
  by_cases hfull : b.resSize + 1 ≥ b.ids.length
  · simp only [push, if_pos hfull]
    exact write _ (by rw [length_resizeVec]; omega) (by rw [length_resizeVec]; omega)
      (by rw [take_resizeVec hle (by omega), htake])
  · simp only [push, if_neg hfull]
    exact write b.ids le_rfl (by omega) htake

theorem keep_holds {b : IdBuf} {keys : List Nat} (h : b.Holds keys) (idiv imod : Nat) :
    ∃ b', b.keep idiv imod = .ok b' ∧
      b'.Holds (keys ++ (if imod = 0 then some idiv else none).toList) ∧
      b.ids.length ≤ b'.ids.length := by
  by_cases h0 : imod = 0
  · simpa only [keep, if_pos h0, Option.toList_some] using push_holds h idiv
  · exact ⟨b, by simp only [keep, if_neg h0], by simpa only [if_neg h0, Option.toList_none,
      List.append_nil] using h, le_rfl⟩

theorem foldlM_keep {α : Type} (f : α → Nat × Nat) (l : List α) {b : IdBuf} {keys : List Nat}
    (h : b.Holds keys) :
    ∃ b', l.foldlM (fun b x => b.keep (f x).1 (f x).2) b = .ok b' ∧
      b'.Holds (keys ++ l.filterMap (fun x => if (f x).2 = 0 then some (f x).1 else none)) ∧
      b.ids.length ≤ b'.ids.length := by
  induction l generalizing b keys with
  | nil => exact ⟨b, rfl, by simpa only [List.filterMap_nil, List.append_nil] using h, le_rfl⟩
  | cons x xs ih =>
    obtain ⟨b₁, h₁, hh₁, hl₁⟩ := keep_holds h (f x).1 (f x).2
    obtain ⟨b₂, h₂, hh₂, hl₂⟩ := ih hh₁
    refine ⟨b₂, by simp only [List.foldlM_cons, h₁, ok_bind, h₂], ?_, hl₁.trans hl₂⟩
    rw [List.filterMap_cons]
    split <;> simpa only [List.append_assoc, Option.toList_some, Option.toList_none,
      List.append_nil, List.cons_append, List.nil_append, *] using hh₂

end IdBuf

/-! ## The loop bodies once the reads are in bounds -/

theorem readPerm_of_lt {perm : List Nat} {i : Nat} (h : i < perm.length) :
    readPerm perm i = .ok (perm.getD i 0) := by
  simp only [readPerm, List.getElem?_eq_getElem h, getD_of_lt h]

theorem splitIndex_of_pos {s : Nat} (hs : 0 < s) (i : Nat) :
    splitIndex s i = .ok (truncU32 (i / s), i % s) := by
  simp only [splitIndex, Nat.pos_iff_ne_zero.mp hs, if_false]

theorem splitIndex3_of_pos {s : Nat} (hs : 0 < s) (i : Nat) :
    splitIndex3 s i =
      .ok (truncU32 (truncU32 i / s), truncU32 i - truncU32 (truncU32 i / s) * s) := by
  simp only [splitIndex3, Nat.pos_iff_ne_zero.mp hs, if_false]

def keyOf (s index : Nat) : Option Nat :=
  if index % s = 0 then some (truncU32 (index / s)) else none

def keyOf3 (s index : Nat) : Option Nat :=
  if truncU32 index - truncU32 (truncU32 index / s) * s = 0 then
    some (truncU32 (truncU32 index / s))
  else none

def pairIndex (perm : List Nat) (jk : Nat × Nat) : Nat :=
  postingListIndex (perm.getD jk.1 0) (perm.getD jk.2 0)

def tripleIndex (perm : List Nat) (jkl : Nat × Nat × Nat) : Nat :=
  postingListIndex3 (perm.getD jkl.1 0) (perm.getD jkl.2.1 0) (perm.getD jkl.2.2 0)

theorem singleStep_eq {s : Nat} {perm : List Nat} (hs : 0 < s) {i : Nat} (hi : i < perm.length)
    (b : IdBuf) :
    singleStep s perm b i = b.keep (truncU32 (perm.getD i 0 / s)) (perm.getD i 0 % s) := by
  simp only [singleStep, readPerm_of_lt hi, splitIndex_of_pos hs, ok_bind]

theorem pairStep_eq {s : Nat} {perm : List Nat} (hs : 0 < s) {jk : Nat × Nat}
    (hj : jk.1 < perm.length) (hk : jk.2 < perm.length) (b : IdBuf) :
    pairStep s perm b jk = b.keep (truncU32 (pairIndex perm jk / s)) (pairIndex perm jk % s) := by
  simp only [pairStep, readPerm_of_lt hj, readPerm_of_lt hk, splitIndex_of_pos hs, ok_bind]
  rfl

theorem tripleStep_eq {s : Nat} {perm : List Nat} (hs : 0 < s) {jkl : Nat × Nat × Nat}
    (hj : jkl.1 < perm.length) (hk : jkl.2.1 < perm.length) (hl : jkl.2.2 < perm.length)
    (b : IdBuf) :
    tripleStep s perm b jkl = b.keep (truncU32 (truncU32 (tripleIndex perm jkl) / s))
      (truncU32 (tripleIndex perm jkl) - truncU32 (truncU32 (tripleIndex perm jkl) / s) * s) := by
  simp only [tripleStep, readPerm_of_lt hj, readPerm_of_lt hk, readPerm_of_lt hl,
    splitIndex3_of_pos hs, ok_bind]
  rfl

/-! ## What each branch emits -/

def pairPositions (P : Nat) : List (Nat × Nat) :=
  (List.range' 1 (P - 1)).flatMap fun j => (List.range j).map (j, ·)

def triplePositions (P : Nat) : List (Nat × Nat × Nat) :=
  (List.range' 2 (P - 2)).flatMap fun j => (pairPositions j).map (j, ·)

def singleKeys (s : Nat) (perm : List Nat) (P : Nat) : List Nat :=
  (List.range P).filterMap fun i => keyOf s (perm.getD i 0)

def pairKeys (s : Nat) (perm : List Nat) (P : Nat) : List Nat :=
  (pairPositions P).filterMap fun jk => keyOf s (pairIndex perm jk)

def tripleKeys (s : Nat) (perm : List Nat) (P : Nat) : List Nat :=
  (triplePositions P).filterMap fun jkl => keyOf3 s (tripleIndex perm jkl)

def combKeys (k s : Nat) (perm : List Nat) (P : Nat) : List Nat :=
  if k = 1 then singleKeys s perm P else if k = 2 then pairKeys s perm P else tripleKeys s perm P

theorem mem_pairPositions {P : Nat} {jk : Nat × Nat} :
    jk ∈ pairPositions P ↔ jk.2 < jk.1 ∧ jk.1 < P := by
  obtain ⟨j, k⟩ := jk
  simp only [pairPositions, List.mem_flatMap, List.mem_range', List.mem_map, List.mem_range,
    Prod.mk.injEq]
  constructor
  · rintro ⟨j', ⟨i, hi, rfl⟩, k', hk', rfl, rfl⟩
    omega
  · rintro ⟨hkj, hjP⟩
    exact ⟨j, ⟨j - 1, by omega, by omega⟩, k, hkj, rfl, rfl⟩

theorem mem_triplePositions {P : Nat} {jkl : Nat × Nat × Nat} :
    jkl ∈ triplePositions P ↔ jkl.2.2 < jkl.2.1 ∧ jkl.2.1 < jkl.1 ∧ jkl.1 < P := by
  obtain ⟨j, k, l⟩ := jkl
  simp only [triplePositions, pairPositions, List.mem_flatMap, List.mem_range', List.mem_map,
    List.mem_range, Prod.mk.injEq]
  constructor
  · rintro ⟨j', ⟨i, hi, rfl⟩, _, ⟨k', ⟨i', hi', rfl⟩, l', hl', rfl⟩, rfl, hkl⟩
    simp only [Prod.mk.injEq] at hkl
    omega
  · rintro ⟨hlk, hkj, hjP⟩
    exact ⟨j, ⟨j - 2, by omega, by omega⟩, (k, l), ⟨k, ⟨k - 1, by omega, by omega⟩, l, hlk, rfl⟩,
      rfl, rfl⟩

theorem genPivotCombIds2_eq (s : Nat) (perm : List Nat) (P : Nat) (b : IdBuf) :
    genPivotCombIds2 s perm P b = (pairPositions P).foldlM (pairStep s perm) b :=
  foldlM_flatMap (pairStep s perm) List.range _ b

theorem genPivotCombIds3_eq (s : Nat) (perm : List Nat) (P : Nat) (b : IdBuf) :
    genPivotCombIds3 s perm P b = (triplePositions P).foldlM (tripleStep s perm) b := by
  unfold genPivotCombIds3 triplePositions pairPositions
  rw [← foldlM_flatMap]
  congr
  funext b j
  exact foldlM_flatMap (fun b kl => tripleStep s perm b (j, kl)) List.range _ b

section Branches
variable {s : Nat} {perm : List Nat} {P : Nat} {b : IdBuf} {keys : List Nat}

theorem genPivotCombIds1_spec (hs : 0 < s) (hP : P ≤ perm.length) (h : b.Holds keys) :
    ∃ b', genPivotCombIds1 s perm P b = .ok b' ∧ b'.Holds (keys ++ singleKeys s perm P) ∧
      b.ids.length ≤ b'.ids.length := by
  rw [genPivotCombIds1, foldlM_congr (fun b i hi => singleStep_eq hs
    (Nat.lt_of_lt_of_le (List.mem_range.mp hi) hP) b)]
  exact IdBuf.foldlM_keep (fun i => (truncU32 (perm.getD i 0 / s), perm.getD i 0 % s)) _ h

theorem genPivotCombIds2_spec (hs : 0 < s) (hP : P ≤ perm.length) (h : b.Holds keys) :
    ∃ b', genPivotCombIds2 s perm P b = .ok b' ∧ b'.Holds (keys ++ pairKeys s perm P) ∧
      b.ids.length ≤ b'.ids.length := by
  rw [genPivotCombIds2_eq, foldlM_congr (fun b jk hjk => pairStep_eq hs
    (by have := mem_pairPositions.mp hjk; omega) (by have := mem_pairPositions.mp hjk; omega) b)]
  exact IdBuf.foldlM_keep (fun jk => (truncU32 (pairIndex perm jk / s), pairIndex perm jk % s)) _ h

theorem genPivotCombIds3_spec (hs : 0 < s) (hP : P ≤ perm.length) (h : b.Holds keys) :
    ∃ b', genPivotCombIds3 s perm P b = .ok b' ∧ b'.Holds (keys ++ tripleKeys s perm P) ∧
      b.ids.length ≤ b'.ids.length := by
  rw [genPivotCombIds3_eq, foldlM_congr (fun b jkl hjkl => tripleStep_eq hs
    (by have := mem_triplePositions.mp hjkl; omega) (by have := mem_triplePositions.mp hjkl; omega)
    (by have := mem_triplePositions.mp hjkl; omega) b)]
  exact IdBuf.foldlM_keep (fun jkl => (truncU32 (truncU32 (tripleIndex perm jkl) / s),
    truncU32 (tripleIndex perm jkl) - truncU32 (truncU32 (tripleIndex perm jkl) / s) * s)) _ h

end Branches

/-- Refinement: with every read of `perm` in bounds, `genPivotCombIds` returns a buffer grown
from `ids` whose first `resSize` entries are `combKeys`. -/
theorem genPivotCombIds_spec {k s : Nat} (ids : List Nat) {perm : List Nat} {P : Nat}
    (hs : 0 < s) (hP : P ≤ perm.length) (hk : k = 2 ∨ k = 3 ∨ (k = 1 ∧ P < perm.length)) :
    ∃ b, genPivotCombIds k s ids perm P = .ok b ∧ b.Holds (combKeys k s perm P) ∧
      ids.length ≤ b.ids.length := by
  rcases hk with rfl | rfl | ⟨rfl, hlt⟩
  · simpa only [genPivotCombIds, combKeys, List.nil_append] using
      genPivotCombIds2_spec hs hP (IdBuf.holds_nil ids)
  · simpa only [genPivotCombIds, combKeys, List.nil_append] using
      genPivotCombIds3_spec hs hP (IdBuf.holds_nil ids)
  · simpa only [genPivotCombIds, combKeys, List.nil_append, if_pos hlt] using
      genPivotCombIds1_spec hs hP (IdBuf.holds_nil ids)

end PivotInvIndex
