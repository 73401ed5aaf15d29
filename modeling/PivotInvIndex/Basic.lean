import Mathlib.Data.List.Basic
import Mathlib.Algebra.Group.Nat.Basic
import Mathlib.Algebra.Group.Int

/-! Shared vocabulary of `PivotNeighbHorderHashPivInvIndex`: how a call ends
when it does not return, the parameter maps `CreateIndex` and
`SetQueryTimeParams` read, and the fixed-width integers: `uint32_t` and
`unsigned` keep their value modulo `2^32`, `size_t` modulo `2^64`, and the
signed `IdType` turns the `uint32_t` keys of `2^31` and above negative. -/

namespace PivotInvIndex

inductive InvProcAlg where
  | kScan
  | kMerge
  | kPriorQueue
  | kStoreSort
  deriving Repr, DecidableEq

inductive Fault where
  | checkFailed (msg : String)
  | runtimeError (msg : String)
  /-- `<METH> requires that field (value) should be <= numPivot (numPivot)`; the method name
  is a macro of a header that is not under src/. -/
  | exceedsNumPivot (field : String) (value numPivot : Nat)
  | unknownInvProcAlg (shown : InvProcAlg)
  | badParam (name : String)
  | unusedParams (names : List String)
  | outOfBounds (vec : String) (index size : Nat)
  | divByZero (expr : String)
  | dataRace (vec : String) (index : Nat)
  deriving Repr, DecidableEq

instance instDecidableEqExcept {ε α : Type} [DecidableEq ε] [DecidableEq α] :
    DecidableEq (Except ε α)
  | .error a, .error b => decidable_of_iff (a = b) ⟨congrArg _, Except.error.inj⟩
  | .ok a, .ok b => decidable_of_iff (a = b) ⟨congrArg _, Except.ok.inj⟩
  | .error _, .ok _ => .isFalse nofun
  | .ok _, .error _ => .isFalse nofun

@[simp] theorem ok_bind {α β ε : Type} (a : α) (f : α → Except ε β) :
    (Except.ok a >>= f) = f a := rfl

@[simp] theorem error_bind {α β ε : Type} (e : ε) (f : α → Except ε β) :
    (Except.error e >>= f) = Except.error e := rfl

@[simp] theorem pure_eq_ok {α ε : Type} (a : α) : (pure a : Except ε α) = Except.ok a := rfl

theorem bind_eq_ok {α β ε : Type} {x : Except ε α} {f : α → Except ε β} {b : β}
    (h : x >>= f = .ok b) : ∃ a, x = .ok a ∧ f a = .ok b := by
  cases x with
  | error e => cases h
  | ok a => exact ⟨a, rfl, h⟩

def truncU32 (n : Nat) : Nat := n % 2 ^ 32

theorem truncU32_of_lt {n : Nat} (h : n < 2 ^ 32) : truncU32 n = n := Nat.mod_eq_of_lt h

theorem truncU32_le (n : Nat) : truncU32 n ≤ n := Nat.mod_le n _

theorem truncU32_lt (n : Nat) : truncU32 n < 2 ^ 32 := Nat.mod_lt n (by decide)

def truncU64 (n : Nat) : Nat := n % 2 ^ 64

def subU64 (a b : Nat) : Nat := truncU64 (a + 2 ^ 64 - truncU64 b)

def toIdType (k : Nat) : Int := if k < 2 ^ 31 then k else (k : Int) - 2 ^ 32

/-- `cid < qty` for the `IdType` `cid` of key `k` and a `size_t` `qty`. The comparison converts
`cid` to `size_t`, which takes a negative `IdType` past `2^64 - 2^31`, beyond the size of any
vector, so it holds exactly for the keys below `2^31` and below `qty`. -/
def idTypeLt (k qty : Nat) : Prop := k < 2 ^ 31 ∧ k < qty

instance (k qty : Nat) : Decidable (idTypeLt k qty) := inferInstanceAs (Decidable (_ ∧ _))

theorem toIdType_of_lt {k : Nat} (h : k < 2 ^ 31) : toIdType k = k := if_pos h

theorem toIdType_neg {k : Nat} (h : 2 ^ 31 ≤ k) (h' : k < 2 ^ 32) : toIdType k < 0 := by
  rw [toIdType, if_neg (Nat.not_lt.mpr h)]
  omega

def maxTmpDocQty : Nat := 4096 * 32

/-! ## Parameter maps -/

inductive ParamValue where
  | nat (n : Nat)
  | flag (b : Bool)
  | text (s : String)
  deriving Repr, DecidableEq

structure AnyParams where
  entries : List (String × ParamValue)
  deriving Repr, DecidableEq

namespace AnyParams

def find? (p : AnyParams) (name : String) : Option ParamValue := p.entries.lookup name

def hasParam (p : AnyParams) (name : String) : Bool := (p.find? name).isSome

/-- Modelled from the spec: `AnyParamManager::GetParamOptional` (params.h is not under src/)
gives the value the map holds for the name, or the default when it holds none; a value of
the wrong kind is rejected. -/
def getNat (p : AnyParams) (name : String) (default : Nat) : Except Fault Nat :=
  match p.find? name with
  | none => .ok default
  | some (.nat n) => .ok n
  | some _ => .error (.badParam name)

def getFlag (p : AnyParams) (name : String) (default : Bool) : Except Fault Bool :=
  match p.find? name with
  | none => .ok default
  | some (.flag b) => .ok b
  | some _ => .error (.badParam name)

def getText (p : AnyParams) (name : String) (default : String) : Except Fault String :=
  match p.find? name with
  | none => .ok default
  | some (.text s) => .ok s
  | some _ => .error (.badParam name)

/-- Modelled from the spec: `AnyParamManager::CheckUnused` rejects every name that no
`GetParamOptional` read ("unknown key"). -/
def checkUnused (p : AnyParams) (read : List String) : Except Fault Unit :=
  match p.entries.filter (fun e => e.1 ∉ read) with
  | [] => .ok ()
  | extra => .error (.unusedParams (extra.map Prod.fst))

theorem getNat_error {p : AnyParams} {name : String} {d : Nat} {e : Fault}
    (h : p.getNat name d = .error e) : e = .badParam name := by
  unfold getNat at h
  split at h <;> simp_all

theorem getFlag_error {p : AnyParams} {name : String} {d : Bool} {e : Fault}
    (h : p.getFlag name d = .error e) : e = .badParam name := by
  unfold getFlag at h
  split at h <;> simp_all

theorem getText_error {p : AnyParams} {name : String} {d : String} {e : Fault}
    (h : p.getText name d = .error e) : e = .badParam name := by
  unfold getText at h
  split at h <;> simp_all

theorem checkUnused_error {p : AnyParams} {read : List String} {e : Fault}
    (h : p.checkUnused read = .error e) : ∃ names, e = .unusedParams names := by
  unfold checkUnused at h
  split at h
  · simp at h
  · exact ⟨_, (Except.error.inj h).symm⟩

theorem getNat_of_find_none {p : AnyParams} {name : String} (h : p.find? name = none) (d : Nat) :
    p.getNat name d = .ok d := by
  simp only [getNat, h]

theorem getNat_of_find_nat {p : AnyParams} {name : String} {n : Nat}
    (h : p.find? name = some (.nat n)) (d : Nat) : p.getNat name d = .ok n := by
  simp only [getNat, h]

theorem hasParam_iff {p : AnyParams} {name : String} :
    p.hasParam name = true ↔ ∃ v, p.find? name = some v := by
  simp only [hasParam, Option.isSome_iff_exists]

end AnyParams

end PivotInvIndex
