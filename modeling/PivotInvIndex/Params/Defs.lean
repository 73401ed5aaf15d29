import PivotInvIndex.Basic

/-! The parameter readers of the index: the build parameters of `CreateIndex` and the
query-time fields of `SetQueryTimeParams`. Each `GetParamOptional` writes its field at once,
so a call that throws keeps every field written before the throw. -/

namespace PivotInvIndex

/-- Modelled from the spec: the values of the header macros `PERM_PROC_FAST_SCAN`,
`PERM_PROC_STORE_SORT`, `PERM_PROC_MERGE` and `PERM_PROC_PRIOR_QUEUE`. -/
def permProcName : InvProcAlg → String
  | .kScan => "scan"
  | .kStoreSort => "store-sort"
  | .kMerge => "merge"
  | .kPriorQueue => "priority-queue"

def parseInvProcAlg (invProcAlg : String) : Option InvProcAlg :=
  if invProcAlg = permProcName .kScan then some .kScan
  else if invProcAlg = permProcName .kStoreSort then some .kStoreSort
  else if invProcAlg = permProcName .kMerge then some .kMerge
  else if invProcAlg = permProcName .kPriorQueue then some .kPriorQueue
  else none

structure QueryParams where
  skipChecking : Bool
  invProcAlg : InvProcAlg
  minTimes : Nat
  numPrefixSearch : Nat
  deriving Repr, DecidableEq

abbrev QueryM := ExceptT Fault (StateM QueryParams)

def QueryM.exec (m : QueryM Unit) (qp : QueryParams) : Except Fault Unit × QueryParams :=
  m.run.run qp

def liftParam {α : Type} (x : Except Fault α) : QueryM α := ExceptT.mk (pure x)

def setQueryTimeParams (numPivot numPrefix : Nat) (p : AnyParams) : QueryM Unit := do
  let skipChecking ← liftParam (p.getFlag "skipChecking" false)
  modify fun qp => { qp with skipChecking }
  let invProcAlg ← liftParam (p.getText "invProcAlg" (permProcName .kStoreSort))
  if p.hasParam "minTimes" && p.hasParam "numPivotSearch" then
    throw (.runtimeError
      "One shouldn't specify both parameters minTimes and numPivotSearch, b/c they are synonyms!")
  let minTimes ← liftParam (p.getNat "minTimes" 2)
  modify fun qp => { qp with minTimes }
  let minTimes ← liftParam (p.getNat "numPivotSearch" 2)
  modify fun qp => { qp with minTimes }
  let numPrefixSearch ← liftParam (p.getNat "numPrefixSearch" numPrefix)
  modify fun qp => { qp with numPrefixSearch }
  if numPrefixSearch > numPivot then
    throw (.exceedsNumPivot "numPrefixSearch" numPrefixSearch numPivot)
  match parseInvProcAlg invProcAlg with
  | some alg => modify fun qp => { qp with invProcAlg := alg }
  | none => throw (.unknownInvProcAlg (← get).invProcAlg)
  liftParam (p.checkUnused ["skipChecking", "invProcAlg", "minTimes", "numPivotSearch",
    "numPrefixSearch"])

/-- Modelled from the spec: `Index::ResetQueryTimeParams` (declared in a header that is not
under src/) sets every query-time option to its default: `SetQueryTimeParams` of an empty
map. -/
def resetQueryTimeParams (numPivot numPrefix : Nat) : QueryM Unit :=
  setQueryTimeParams numPivot numPrefix ⟨[]⟩

/-! ## `CreateIndex` -/

structure BuildParams where
  numPivot : Nat
  numPrefix : Nat
  indexThreadQty : Nat
  skipVal : Nat
  pivotCombQty : Nat
  deriving Repr, DecidableEq

def readBuildParams (hardwareConcurrency : Nat) (p : AnyParams) : Except Fault BuildParams := do
  let numPivot ← p.getNat "numPivot" 512
  if p.hasParam "numPivotIndex" && p.hasParam "numPrefix" then
    throw (.runtimeError
      "One shouldn't specify both parameters numPrefix and numPivotIndex, b/c they are synonyms!")
  let numPrefix ← p.getNat "numPivotIndex" 32
  let numPrefix ← p.getNat "numPrefix" numPrefix
  let indexThreadQty ← p.getNat "indexThreadQty" hardwareConcurrency
  let _ ← p.getFlag "disablePivotIndex" false
  let _ ← p.getNat "hashTrickDim" 0
  if numPrefix > numPivot then throw (.exceedsNumPivot "numPrefix" numPrefix numPivot)
  let _ ← p.getText "pivotFile" ""
  let skipVal ← p.getNat "skipVal" 1
  let pivotCombQty ← p.getNat "pivotCombQty" 2
  let _ ← p.getNat "printPivotStat" 0
  if ¬ (pivotCombQty ≠ 0 ∧ pivotCombQty ≤ 3) then
    throw (.checkFailed ("Illegal number of pivots in the combinations " ++
      toString pivotCombQty ++ " must be >0 and <=3"))
  p.checkUnused ["numPivot", "numPivotIndex", "numPrefix", "indexThreadQty", "disablePivotIndex",
    "hashTrickDim", "pivotFile", "skipVal", "pivotCombQty", "printPivotStat"]
  return ⟨numPivot, numPrefix, indexThreadQty, skipVal, pivotCombQty⟩

end PivotInvIndex
