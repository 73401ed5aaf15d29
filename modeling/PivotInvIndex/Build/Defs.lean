import PivotInvIndex.Search.Defs

/-! `CreateIndex`. The parameters are read and the store is sized; then the two `ParallelFor`
loops run on `index_thread_qty_` workers. A schedule, a list of worker ids, says which worker
takes the next atomic step: an item of the indexing loop on its private staging lists, the
drain of one bucket under that bucket's mutex, an item of the final loop, or the sort of one
shared list. The sort takes no mutex, so a drain into a list that another worker may be
sorting is a data race. -/

namespace PivotInvIndex

inductive WorkerPc where
  | idle
  | flushing (cid : Nat) (pivId : Option Nat)
  | sorting (pivId : Nat)
  deriving Repr, DecidableEq

def WorkerPc.afterFlush : Option Nat → WorkerPc
  | none => .idle
  | some pivId => .sorting pivId

structure BuildState where
  postingLists : List (List Nat)
  tmpPostingLists : List (List (List Nat))
  tmpPostDocQty : List Nat
  pc : List WorkerPc
  nextId : Nat
  nextPivId : Nat
  finalPhase : Bool
  deriving Repr, DecidableEq

structure BuildCfg where
  params : BuildParams
  maxPostQty : Nat
  perms : List (List Nat)

namespace BuildCfg

def dataQty (cfg : BuildCfg) : Nat := cfg.perms.length

def objKeys (cfg : BuildCfg) (id : Nat) : Except Fault (List Nat) := do
  let b ← genPivotCombIds cfg.params.pivotCombQty cfg.params.skipVal [] (cfg.perms.getD id [])
    cfg.params.numPrefix
  return b.ids.take b.resSize

end BuildCfg

namespace BuildState

def pushPosting (maxPostQty id cqty : Nat) (postList : List (List Nat)) (icid : Nat × Nat) :
    Except Fault (List (List Nat)) :=
  if idTypeLt icid.2 maxPostQty then .ok (postList.set icid.2 (postList.getD icid.2 [] ++ [id]))
  else .error (.checkFailed ("bug cid (" ++ toString (toIdType icid.2) ++ ") >= maxPostQty (" ++
    toString maxPostQty ++ ") " ++ "i=" ++ toString icid.1 ++ " cqty=" ++ toString cqty))

def setPc (st : BuildState) (threadId : Nat) (p : WorkerPc) : BuildState :=
  { st with pc := st.pc.set threadId p }

def indexItem (cfg : BuildCfg) (threadId : Nat) (st : BuildState) : Except Fault BuildState := do
  let id := st.nextId
  let combIds ← cfg.objKeys id
  let postList ← combIds.enum.foldlM (pushPosting cfg.maxPostQty id combIds.length)
    (st.tmpPostingLists.getD threadId [])
  let docQty := st.tmpPostDocQty.getD threadId 0 + 1
  return { st with
    nextId := id + 1
    tmpPostingLists := st.tmpPostingLists.set threadId postList
    tmpPostDocQty := st.tmpPostDocQty.set threadId docQty
    pc := if docQty ≥ maxTmpDocQty then st.pc.set threadId (.flushing 0 none) else st.pc }

/-- Modelled from the spec: `flushTmpPost(threadId)` (declared in a header that is not under
src/) drains each staging bucket of the worker into the shared list under that bucket's mutex;
this is the drain of bucket `cid`. -/
def drain (threadId cid : Nat) (st : BuildState) : BuildState :=
  let tmp := st.tmpPostingLists.getD threadId []
  { st with
    postingLists := st.postingLists.set cid (st.postingLists.getD cid [] ++ tmp.getD cid [])
    tmpPostingLists := st.tmpPostingLists.set threadId (tmp.set cid []) }

def sortList (pivId : Nat) (st : BuildState) : Except Fault BuildState :=
  match st.postingLists[pivId]? with
  | some oneList =>
    .ok { st with postingLists := st.postingLists.set pivId (oneList.insertionSort (· ≤ ·)) }
  | none => .error (.outOfBounds "posting_lists_" pivId st.postingLists.length)

/-- One atomic step of worker `threadId`; a worker the pool does not have takes none. The
indexing loop ends once every item is handed out and every worker is back at the loop. A drain
of bucket `cid` while a worker is past its flush and not done sorting list `cid` races with
`integer_sort`, which holds no mutex. -/
def step (cfg : BuildCfg) (threadId : Nat) (st : BuildState) : Except Fault BuildState :=
  if threadId < cfg.params.indexThreadQty then
    match st.pc.getD threadId .idle with
    | .idle =>
      if st.finalPhase then
        if st.nextPivId < cfg.params.numPivot then
          .ok { st with
            nextPivId := st.nextPivId + 1
            pc := st.pc.set threadId (.flushing 0 (some st.nextPivId)) }
        else .ok st
      else if st.nextId < cfg.dataQty then st.indexItem cfg threadId
      else if st.pc.all (· == .idle) then .ok { st with finalPhase := true }
      else .ok st
    | .flushing cid pivId =>
      if cid < cfg.maxPostQty then
        if WorkerPc.sorting cid ∈ st.pc then .error (.dataRace "posting_lists_" cid)
        else .ok ((st.drain threadId cid).setPc threadId (.flushing (cid + 1) pivId))
      else
        .ok { st with
          tmpPostDocQty := st.tmpPostDocQty.set threadId 0
          pc := st.pc.set threadId (WorkerPc.afterFlush pivId) }
    | .sorting pivId => do
      let st ← st.sortList pivId
      return st.setPc threadId .idle
  else .ok st

def run (cfg : BuildCfg) : List Nat → BuildState → Except Fault BuildState
  | [], st => .ok st
  | threadId :: sched, st => do run cfg sched (← st.step cfg threadId)

def init (cfg : BuildCfg) : BuildState where
  postingLists := List.replicate cfg.maxPostQty []
  tmpPostingLists := List.replicate cfg.params.indexThreadQty (List.replicate cfg.maxPostQty [])
  tmpPostDocQty := List.replicate cfg.params.indexThreadQty 0
  pc := List.replicate cfg.params.indexThreadQty .idle
  nextId := 0
  nextPivId := 0
  finalPhase := false

def Finished (numPivot : Nat) (st : BuildState) : Prop :=
  st.finalPhase = true ∧ numPivot ≤ st.nextPivId ∧ ∀ p ∈ st.pc, p = .idle

instance (numPivot : Nat) (st : BuildState) : Decidable (st.Finished numPivot) :=
  inferInstanceAs (Decidable (_ ∧ _))

end BuildState

def unsetQuery : QueryParams := ⟨false, .kStoreSort, 0, 0⟩

def createIndex (hardwareConcurrency : Nat) (perms : List (List Nat)) (p : AnyParams)
    (sched : List Nat) : Except Fault (HashPivIndex × BuildState) := do
  let params ← readBuildParams hardwareConcurrency p
  let (reset, query) := (resetQueryTimeParams params.numPivot params.numPrefix).exec unsetQuery
  reset
  let maxPostQty ← getPostQtys params.numPivot params.pivotCombQty params.skipVal
  if params.pivotCombQty ≠ 2 then
    throw (.checkFailed "Only two pivot combinations are currently supported")
  if truncU64 (2 * params.skipVal * maxPostQty) = 0 then
    throw (.divByZero "2 * skip_val_ * maxPostQty_")
  if truncU64 (2 * params.skipVal) = 0 then throw (.divByZero "2 * skip_val_")
  let cfg : BuildCfg := ⟨params, maxPostQty, perms⟩
  let st ← (BuildState.init cfg).run cfg sched
  return (⟨params.numPivot, params.numPrefix, params.skipVal, params.pivotCombQty,
    st.postingLists, perms.length, query⟩, st)

end PivotInvIndex
