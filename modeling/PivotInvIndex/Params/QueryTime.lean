import PivotInvIndex.Params.Defs
import PivotInvIndex.Search.Defs

/-! What `SetQueryTimeParams` leaves in the query-time fields. A call that returns normally
sets all four from the map alone, whatever they held: `num_prefix_search_` is then at most
`num_pivot_`, and `min_times_` is the value of `numPivotSearch`, or `2`, whatever `minTimes`
says. A call that throws keeps what it wrote before the throw: one rejected for
`numPrefixSearch` leaves the rejected value. -/

namespace PivotInvIndex

section Exec
variable {α β : Type} (qp : QueryParams) (f : α → QueryM β)

@[simp] theorem exec_ok_bind (a : α) :
    ((liftParam (.ok a : Except Fault α)) >>= f).run.run qp = (f a).run.run qp := rfl

@[simp] theorem exec_error_bind (e : Fault) :
    ((liftParam (.error e : Except Fault α)) >>= f).run.run qp = (.error e, qp) := rfl

@[simp] theorem exec_modify_bind (g : QueryParams → QueryParams) (f : PUnit → QueryM β) :
    ((modify g : QueryM PUnit) >>= f).run.run qp = (f ⟨⟩).run.run (g qp) := rfl

@[simp] theorem exec_throw_bind (e : Fault) :
    ((throw e : QueryM α) >>= f).run.run qp = (.error e, qp) := rfl

@[simp] theorem exec_get_bind (f : QueryParams → QueryM β) :
    ((get : QueryM QueryParams) >>= f).run.run qp = (f qp).run.run qp := rfl

@[simp] theorem exec_pure_bind (a : α) :
    ((pure a : QueryM α) >>= f).run.run qp = (f a).run.run qp :=
  rfl

@[simp] theorem exec_liftParam (x : Except Fault α) : (liftParam x).run.run qp = (x, qp) := rfl

variable {qp f} in
theorem exec_liftParam_bind_eq {r : Except Fault β × QueryParams} {x : Except Fault α}
    (h : ((liftParam x) >>= f).run.run qp = r) :
    (∃ e, x = .error e ∧ r = (.error e, qp)) ∨ ∃ a, x = .ok a ∧ (f a).run.run qp = r := by
  cases x with
  | error e => exact .inl ⟨e, rfl, h.symm⟩
  | ok a => exact .inr ⟨a, rfl, h⟩

end Exec

section SetQuery
variable {N P : Nat} {p : AnyParams} {qp qp' : QueryParams}

theorem setQueryTimeParams_exec_ok {sc : Bool} {text : String} {m m' ps : Nat} {alg : InvProcAlg}
    (h1 : p.getFlag "skipChecking" false = .ok sc)
    (h2 : p.getText "invProcAlg" (permProcName .kStoreSort) = .ok text)
    (hboth : (p.hasParam "minTimes" && p.hasParam "numPivotSearch") = false)
    (h3 : p.getNat "minTimes" 2 = .ok m) (h4 : p.getNat "numPivotSearch" 2 = .ok m')
    (h5 : p.getNat "numPrefixSearch" P = .ok ps) (hle : ps ≤ N)
    (hparse : parseInvProcAlg text = some alg)
    (h6 : p.checkUnused ["skipChecking", "invProcAlg", "minTimes", "numPivotSearch",
      "numPrefixSearch"] = .ok ()) (qp : QueryParams) :
    (setQueryTimeParams N P p).exec qp = (.ok (), ⟨sc, alg, m', ps⟩) := by
  simp only [setQueryTimeParams, QueryM.exec, h1, h2, hboth, h3, h4, h5, hparse, h6,
    exec_ok_bind, exec_modify_bind, exec_pure_bind, exec_liftParam, Bool.false_eq_true, if_false,
    if_neg (show ¬ ps > N from Nat.not_lt.mpr hle)]

theorem setQueryTimeParams_exceeds {v n : Nat} {field : String}
    (h : (setQueryTimeParams N P p).exec qp = (.error (.exceedsNumPivot field v n), qp')) :
    qp'.numPrefixSearch = v ∧ N < v := by
  simp only [setQueryTimeParams, QueryM.exec] at h
  rcases exec_liftParam_bind_eq h with ⟨e, he, h⟩ | ⟨sc, -, h⟩
  · cases h; exact Fault.noConfusion (AnyParams.getFlag_error he)
  rw [exec_modify_bind] at h
  rcases exec_liftParam_bind_eq h with ⟨e, he, h⟩ | ⟨text, -, h⟩
  · cases h; exact Fault.noConfusion (AnyParams.getText_error he)
  split at h
  · rw [exec_throw_bind] at h; cases h
  rw [exec_pure_bind] at h
  rcases exec_liftParam_bind_eq h with ⟨e, he, h⟩ | ⟨m, -, h⟩
  · cases h; exact Fault.noConfusion (AnyParams.getNat_error he)
  rw [exec_modify_bind] at h
  rcases exec_liftParam_bind_eq h with ⟨e, he, h⟩ | ⟨m', -, h⟩
  · cases h; exact Fault.noConfusion (AnyParams.getNat_error he)
  rw [exec_modify_bind] at h
  rcases exec_liftParam_bind_eq h with ⟨e, he, h⟩ | ⟨ps, -, h⟩
  · cases h; exact Fault.noConfusion (AnyParams.getNat_error he)
  rw [exec_modify_bind] at h
  split at h
  · rename_i hlt
    rw [exec_throw_bind] at h
    cases h
    exact ⟨rfl, hlt⟩
  rw [exec_pure_bind] at h
  split at h
  · rw [exec_modify_bind, exec_liftParam] at h
    obtain ⟨names, hn⟩ := AnyParams.checkUnused_error (Prod.mk.inj h).1
    exact Fault.noConfusion hn
  · rw [exec_get_bind, exec_throw_bind] at h; cases h

theorem resetQueryTimeParams_exec (hP : P ≤ N) (qp : QueryParams) :
    (resetQueryTimeParams N P).exec qp = (.ok (), ⟨false, .kStoreSort, 2, P⟩) :=
  setQueryTimeParams_exec_ok (p := ⟨[]⟩) rfl rfl rfl rfl rfl rfl hP (by decide) rfl qp

theorem setQueryTimeParams_minTimes_dropped (hP : P ≤ N) (m : Nat) (qp : QueryParams) :
    (setQueryTimeParams N P ⟨[("minTimes", .nat m)]⟩).exec qp =
      (.ok (), ⟨false, .kStoreSort, 2, P⟩) :=
  setQueryTimeParams_exec_ok (p := ⟨[("minTimes", .nat m)]⟩) rfl rfl rfl rfl rfl rfl hP
    (by decide) rfl qp

theorem setQueryTimeParams_minTimes_five :
    (setQueryTimeParams 4 4 ⟨[("minTimes", .nat 5)]⟩).exec ⟨false, .kStoreSort, 2, 4⟩ =
      (.ok (), ⟨false, .kStoreSort, 2, 4⟩) ∧ searchThresh 2 2 4 = 3 ∧ searchThresh 2 5 4 = 7 :=
  ⟨setQueryTimeParams_minTimes_dropped (by decide) 5 _, by decide, by decide⟩

end SetQuery

end PivotInvIndex
