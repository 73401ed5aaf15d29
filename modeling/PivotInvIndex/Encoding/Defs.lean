import PivotInvIndex.Basic
import Mathlib.Data.List.Sort

/-! The combination-key encoder: the pair and triple indexes, the number of
posting lists, the permutation builder, and `genPivotCombIds` with its three
branches, each loop as the source writes it. -/

namespace PivotInvIndex

/-- Modelled from the spec: `PostingListIndex(x, y)` (declared in a header that is not under
src/) is `PAIR(x, y) = max(x,y)·(max(x,y)−1)/2 + min(x,y)`. -/
def postingListIndex (x y : Nat) : Nat := max x y * (max x y - 1) / 2 + min x y

/-- Modelled from the spec: `PostingListIndex(x, y, z)` is the canonical index `TRIPLE(a, b, c)`
of the triple sorted as `a < b < c` into a tetrahedral array of size `N(N−1)(N−2)/6`. -/
def postingListIndex3 (x y z : Nat) : Nat :=
  let hi := max x (max y z)
  let lo := min x (min y z)
  let mid := x + y + z - hi - lo
  hi * (hi - 1) * (hi - 2) / 6 + mid * (mid - 1) / 2 + lo

/-- Modelled from the spec: `getPostQtys(pivotCombQty, skipVal)` is `⌈C / skipVal⌉` for the
`C` combinations of `numPivot` pivots (`N`, `N(N−1)/2` or `N(N−1)(N−2)/6`). -/
def getPostQtys (numPivot pivotCombQty skipVal : Nat) : Except Fault Nat :=
  if skipVal = 0 then .error (.divByZero "skipVal") else
  let combQty := match pivotCombQty with
    | 1 => numPivot
    | 2 => numPivot * (numPivot - 1) / 2
    | _ => numPivot * (numPivot - 1) * (numPivot - 2) / 6
  .ok ((combQty + skipVal - 1) / skipVal)

def distIntLe {α : Type} [LinearOrder α] (a b : α × Nat) : Prop :=
  a.1 < b.1 ∨ (a.1 = b.1 ∧ a.2 ≤ b.2)

instance {α : Type} [LinearOrder α] : DecidableRel (distIntLe (α := α)) :=
  fun _ _ => inferInstanceAs (Decidable (_ ∨ _))

def getPermutation {α : Type} [LinearOrder α] (numPivot : Nat) (vDst : Nat → α) : List Nat :=
  (((List.range numPivot).map (fun i => (vDst i, i))).insertionSort distIntLe).map Prod.snd

/-! ## `genPivotCombIds` -/

structure IdBuf where
  ids : List Nat
  resSize : Nat
  deriving Repr, DecidableEq

def resizeVec (v : List Nat) (n : Nat) : List Nat := v.take n ++ List.replicate (n - v.length) 0

namespace IdBuf

def push (b : IdBuf) (idiv : Nat) : Except Fault IdBuf :=
  let ids := if b.resSize + 1 ≥ b.ids.length then resizeVec b.ids (2 * (b.resSize + 1)) else b.ids
  if b.resSize < ids.length then .ok { ids := ids.set b.resSize idiv, resSize := b.resSize + 1 }
  else .error (.outOfBounds "ids" b.resSize ids.length)

def keep (b : IdBuf) (idiv imod : Nat) : Except Fault IdBuf :=
  if imod = 0 then b.push idiv else .ok b

end IdBuf

def readPerm (perm : List Nat) (i : Nat) : Except Fault Nat :=
  match perm[i]? with
  | some p => .ok p
  | none => .error (.outOfBounds "perm" i perm.length)

def splitIndex (skipVal index : Nat) : Except Fault (Nat × Nat) :=
  if skipVal = 0 then .error (.divByZero "index / skip_val_") else
  .ok (truncU32 (index / skipVal), index % skipVal)

def splitIndex3 (skipVal index : Nat) : Except Fault (Nat × Nat) :=
  if skipVal = 0 then .error (.divByZero "index / skip_val_") else
  let index := truncU32 index
  let idiv := truncU32 (index / skipVal)
  .ok (idiv, index - idiv * skipVal)

def singleStep (skipVal : Nat) (perm : List Nat) (b : IdBuf) (i : Nat) : Except Fault IdBuf := do
  let (idiv, imod) ← splitIndex skipVal (← readPerm perm i)
  b.keep idiv imod

def pairStep (skipVal : Nat) (perm : List Nat) (b : IdBuf) (jk : Nat × Nat) :
    Except Fault IdBuf := do
  let index := postingListIndex (← readPerm perm jk.1) (← readPerm perm jk.2)
  let (idiv, imod) ← splitIndex skipVal index
  b.keep idiv imod

def tripleStep (skipVal : Nat) (perm : List Nat) (b : IdBuf) (jkl : Nat × Nat × Nat) :
    Except Fault IdBuf := do
  let index := postingListIndex3 (← readPerm perm jkl.1) (← readPerm perm jkl.2.1)
    (← readPerm perm jkl.2.2)
  let (idiv, imod) ← splitIndex3 skipVal index
  b.keep idiv imod

def genPivotCombIds1 (skipVal : Nat) (perm : List Nat) (permPrefixSize : Nat) (b : IdBuf) :
    Except Fault IdBuf :=
  (List.range permPrefixSize).foldlM (singleStep skipVal perm) b

def genPivotCombIds2 (skipVal : Nat) (perm : List Nat) (permPrefixSize : Nat) (b : IdBuf) :
    Except Fault IdBuf :=
  (List.range' 1 (permPrefixSize - 1)).foldlM (fun b j =>
    (List.range j).foldlM (fun b k => pairStep skipVal perm b (j, k)) b) b

def genPivotCombIds3 (skipVal : Nat) (perm : List Nat) (permPrefixSize : Nat) (b : IdBuf) :
    Except Fault IdBuf :=
  (List.range' 2 (permPrefixSize - 2)).foldlM (fun b j =>
    (List.range' 1 (j - 1)).foldlM (fun b k =>
      (List.range k).foldlM (fun b l => tripleStep skipVal perm b (j, k, l)) b) b) b

def genPivotCombIds (pivotCombQty skipVal : Nat) (ids perm : List Nat) (permPrefixSize : Nat) :
    Except Fault IdBuf :=
  if ¬ (pivotCombQty ≠ 0 ∧ pivotCombQty ≤ 3) then
    .error (.checkFailed ("Illegal number of pivots in the combinations " ++
      toString pivotCombQty ++ " must be >0 and <=3"))
  else if pivotCombQty = 1 then
    if permPrefixSize < perm.length then genPivotCombIds1 skipVal perm permPrefixSize ⟨ids, 0⟩
    else .error (.checkFailed "permPrefixSize < perm.size()")
  else if pivotCombQty = 2 then genPivotCombIds2 skipVal perm permPrefixSize ⟨ids, 0⟩
  else genPivotCombIds3 skipVal perm permPrefixSize ⟨ids, 0⟩

end PivotInvIndex
