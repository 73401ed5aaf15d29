import PivotInvIndex.Encoding.Defs
import PivotInvIndex.Params.Defs

/-! The query side of `GenSearch`: the threshold, and the four ways of turning the posting
lists of the query's keys into candidates, each loop as the source writes it. -/

namespace PivotInvIndex

def searchThresh (pivotCombQty minTimes numPrefix : Nat) : Nat :=
  if pivotCombQty = 3 then truncU64 (minTimes * subU64 numPrefix 1 * subU64 numPrefix 2) / 6
  else if pivotCombQty = 2 then truncU64 (minTimes * subU64 numPrefix 1) / 2
  else minTimes

def readPostList (postingLists : List (List Nat)) (idiv : Nat) : Except Fault (List Nat) :=
  if idTypeLt idiv postingLists.length then .ok (postingLists.getD idiv [])
  else .error (.checkFailed (toString (toIdType idiv) ++ " vs " ++ toString postingLists.length))

/-! ## `kScan` -/

def addCount (skipVal : Nat) (counter : List Nat) (p : Nat) : Except Fault (List Nat) :=
  if p < counter.length then .ok (counter.set p (truncU32 (counter.getD p 0 + skipVal)))
  else .error (.outOfBounds "counter" p counter.length)

def scanCounter (skipVal : Nat) (postingLists : List (List Nat)) (combIds counter : List Nat) :
    Except Fault (List Nat) :=
  combIds.foldlM (fun counter idiv => do
    let post ← readPostList postingLists idiv
    post.foldlM (addCount skipVal) counter) counter

def scanCands (dataQty skipVal thresh : Nat) (postingLists : List (List Nat))
    (combIds : List Nat) : Except Fault (List Nat) := do
  let counter ← scanCounter skipVal postingLists combIds (List.replicate dataQty 0)
  return (List.range dataQty).filter fun i => thresh ≤ counter.getD i 0

/-! ## `kStoreSort` -/

def storeSortBuffer (postingLists : List (List Nat)) (combIds : List Nat) :
    Except Fault (List Nat) :=
  combIds.foldlM (fun tmpRes idiv => do return tmpRes ++ (← readPostList postingLists idiv)) []

def scanRuns (skipVal thresh prevId len : Nat) : List Nat → List Nat
  | [] => if thresh ≤ truncU64 (skipVal * len) then [prevId] else []
  | x :: rest =>
    if x = prevId then scanRuns skipVal thresh prevId (len + 1) rest
    else (if thresh ≤ truncU64 (skipVal * len) then [prevId] else []) ++
      scanRuns skipVal thresh x 1 rest

def scanSorted (skipVal thresh : Nat) : List Nat → List Nat
  | [] => []
  | x :: rest => scanRuns skipVal thresh x 1 rest

def storeSortCands (skipVal thresh : Nat) (postingLists : List (List Nat)) (combIds : List Nat) :
    Except Fault (List Nat) := do
  let tmpRes ← storeSortBuffer postingLists combIds
  return scanSorted skipVal thresh (tmpRes.insertionSort (· ≤ ·))

/-! ## `kMerge` -/

def unionStep (skipVal i qty : Nat) (rest : List Nat → List (Nat × Nat)) :
    List Nat → List (Nat × Nat)
  | [] => (i, qty) :: rest []
  | j :: lst2 =>
    if i < j then (i, qty) :: rest (j :: lst2)
    else if j < i then (j, skipVal) :: unionStep skipVal i qty rest lst2
    else (i, qty + skipVal) :: rest lst2

/-- Modelled from the spec: `postListUnion(lst1, lst2, res, skipVal)` (declared in a header that
is not under src/) merges the posting list `lst2` into the running list `lst1` of `(id, qty)`
pairs ascending by id, adding `skipVal` to the count on a match and inserting `(id, skipVal)`
otherwise. -/
def postListUnion (skipVal : Nat) : List (Nat × Nat) → List Nat → List (Nat × Nat)
  | [], lst2 => lst2.map fun j => (j, skipVal)
  | (i, qty) :: lst1, lst2 => unionStep skipVal i qty (postListUnion skipVal lst1) lst2

structure MergeBufs where
  tmpRes : List (Nat × Nat) × List (Nat × Nat)
  prevRes : Nat

namespace MergeBufs

def get (b : MergeBufs) (r : Nat) : List (Nat × Nat) := if r = 0 then b.tmpRes.1 else b.tmpRes.2

def step (skipVal : Nat) (b : MergeBufs) (post : List Nat) : MergeBufs :=
  let res := postListUnion skipVal (b.get b.prevRes) post
  { tmpRes := if 1 - b.prevRes = 0 then (res, b.tmpRes.2) else (b.tmpRes.1, res)
    prevRes := 1 - b.prevRes }

end MergeBufs

def mergeCands (skipVal thresh : Nat) (postingLists : List (List Nat)) (combIds : List Nat) :
    Except Fault (List Nat) := do
  let b ← combIds.foldlM (fun b idiv => do
    return b.step skipVal (← readPostList postingLists idiv)) (⟨([], []), 0⟩ : MergeBufs)
  return ((b.get (1 - b.prevRes)).filter fun it => thresh ≤ it.2).map Prod.fst

/-! ## `kPriorQueue`

The heap `postListQueue` is a list of cursors, each the current id of a posting list and what
follows it; its top is a cursor with the smallest current id. -/

def topKey (q : List (Nat × List Nat)) : Option Nat := (q.map Prod.fst).min?

def nextCursor : List Nat → List (Nat × List Nat)
  | [] => []
  | y :: rest => [(y, rest)]

def advanceTop (m : Nat) : List (Nat × List Nat) → List (Nat × List Nat)
  | [] => []
  | (x, rest) :: q => if x = m then nextCursor rest ++ q else (x, rest) :: advanceTop m q

def queueIds (q : List (Nat × List Nat)) : List Nat := q.flatMap fun c => c.1 :: c.2

def accumDoc (skipVal minDocId : Nat) :
    Nat → List (Nat × List Nat) → Nat → List (Nat × List Nat) × Nat
  | 0, q, accum => (q, accum)
  | fuel + 1, q, accum =>
    if topKey q = some minDocId then
      accumDoc skipVal minDocId fuel (advanceTop minDocId q) (truncU32 (accum + skipVal))
    else (q, accum)

def daatLoop (skipVal thresh : Nat) : Nat → List (Nat × List Nat) → List Nat → List Nat
  | 0, _, cands => cands
  | fuel + 1, q, cands =>
    match topKey q with
    | none => cands
    | some minDocId =>
      let r := accumDoc skipVal minDocId (queueIds q).length q 0
      daatLoop skipVal thresh fuel r.1 (if thresh ≤ r.2 then cands ++ [minDocId] else cands)

def pushPost (q : List (Nat × List Nat)) : List Nat → List (Nat × List Nat)
  | [] => q
  | x :: rest => q ++ [(x, rest)]

def initQueue (postingLists : List (List Nat)) (combIds : List Nat) :
    Except Fault (List (Nat × List Nat)) :=
  combIds.foldlM (fun q idiv => do return pushPost q (← readPostList postingLists idiv)) []

def priorQueueCands (skipVal thresh : Nat) (postingLists : List (List Nat)) (combIds : List Nat) :
    Except Fault (List Nat) := do
  let q ← initQueue postingLists combIds
  return daatLoop skipVal thresh (queueIds q).length q []

/-! ## Dispatch -/

/-- The candidate list `cands[0..candQty)` of `GenSearch` for the keys `combIds`, each algorithm
after its `CHECK(num_prefix_search_ >= 1)`. -/
def invProc (alg : InvProcAlg) (numPrefixSearch dataQty skipVal thresh : Nat)
    (postingLists : List (List Nat)) (combIds : List Nat) : Except Fault (List Nat) :=
  if numPrefixSearch ≥ 1 then
    match alg with
    | .kPriorQueue => priorQueueCands skipVal thresh postingLists combIds
    | .kScan => scanCands dataQty skipVal thresh postingLists combIds
    | .kMerge => mergeCands skipVal thresh postingLists combIds
    | .kStoreSort => storeSortCands skipVal thresh postingLists combIds
  else .error (.checkFailed "num_prefix_search_ >= 1")

/-! ## `GenSearch` -/

structure HashPivIndex where
  numPivot : Nat
  numPrefix : Nat
  skipVal : Nat
  pivotCombQty : Nat
  postingLists : List (List Nat)
  dataQty : Nat
  query : QueryParams
  deriving Repr, DecidableEq

def genSearchPerm (idx : HashPivIndex) (permQ combIds : List Nat) : Except Fault (List Nat) := do
  let b ← genPivotCombIds idx.pivotCombQty idx.skipVal combIds permQ idx.query.numPrefixSearch
  invProc idx.query.invProcAlg idx.query.numPrefixSearch idx.dataQty idx.skipVal
    (searchThresh idx.pivotCombQty idx.query.minTimes idx.numPrefix) idx.postingLists
    (b.ids.take b.resSize)

def genSearch {α : Type} [LinearOrder α] (idx : HashPivIndex) (vDst : Nat → α)
    (combIds : List Nat) : Except Fault (List Nat) :=
  genSearchPerm idx (getPermutation idx.numPivot vDst) combIds

def hitCount (postingLists : List (List Nat)) (combIds : List Nat) (o : Nat) : Nat :=
  combIds.countP fun k => o ∈ postingLists.getD k []

def candidates (dataQty skipVal thresh : Nat) (postingLists : List (List Nat))
    (combIds : List Nat) : List Nat :=
  (List.range dataQty).filter fun o =>
    0 < hitCount postingLists combIds o ∧ thresh ≤ skipVal * hitCount postingLists combIds o

def StoreOk (dataQty : Nat) (postingLists : List (List Nat)) : Prop :=
  ∀ post ∈ postingLists, post.Sorted (· < ·) ∧ ∀ p ∈ post, p < dataQty

instance (dataQty : Nat) (postingLists : List (List Nat)) :
    Decidable (StoreOk dataQty postingLists) :=
  inferInstanceAs (Decidable (∀ post ∈ postingLists, _ ∧ _))

end PivotInvIndex
