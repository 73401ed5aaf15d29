import PivotInvIndex.Search.Defs
import PivotInvIndex.Encoding.CombIds

/-! Every algorithm reads the posting lists of the keys in key order. Once the keys pass the
check, below `2^31` and below the number of lists, each read succeeds, and what each algorithm
computes depends only on how often each id occurs in those lists taken together: its
candidates are the ids below `D`, ascending, whose number of occurrences passes a test.
Otherwise every algorithm stops at the first key the check rejects, with the same message. -/

namespace PivotInvIndex

def keyPostings (postingLists : List (List Nat)) (combIds : List Nat) : List Nat :=
  (combIds.map fun k => postingLists.getD k []).flatten

def byCount (D : Nat) (J : List Nat) (keep : Nat → Prop) [DecidablePred keep] : List Nat :=
  (List.range D).filter fun o => keep (J.count o)

section ByCount
variable {D : Nat} {J : List Nat} {keep : Nat → Prop} [DecidablePred keep]

@[simp] theorem mem_byCount {x : Nat} : x ∈ byCount D J keep ↔ x < D ∧ keep (J.count x) := by
  simp [byCount]

theorem byCount_sorted : (byCount D J keep).Sorted (· < ·) :=
  (List.sorted_lt_range D).filter _

theorem eq_byCount {l : List Nat} (hs : l.Sorted (· < ·))
    (hmem : ∀ x, x ∈ l ↔ x < D ∧ keep (J.count x)) : l = byCount D J keep := by
  refine List.eq_of_perm_of_sorted ?_ hs byCount_sorted
  exact (List.perm_ext_iff_of_nodup hs.nodup byCount_sorted.nodup).mpr fun x => by
    rw [hmem, mem_byCount]

end ByCount

section Reads
variable {L : List (List Nat)} {keys : List Nat}

theorem readPostList_of_lt {k : Nat} (h : idTypeLt k L.length) :
    readPostList L k = .ok (L.getD k []) := if_pos h

theorem readPostList_of_not {k : Nat} (h : ¬ idTypeLt k L.length) :
    readPostList L k =
      .error (.checkFailed (toString (toIdType k) ++ " vs " ++ toString L.length)) := if_neg h

theorem foldlM_readPostList {β : Type} (f : β → List Nat → Except Fault β)
    (hk : ∀ k ∈ keys, idTypeLt k L.length) (b : β) :
    keys.foldlM (fun b idiv => do f b (← readPostList L idiv)) b =
      (keys.map fun k => L.getD k []).foldlM f b := by
  rw [List.foldlM_map]
  exact foldlM_congr (fun b k hk' => by rw [readPostList_of_lt (hk k hk')]; rfl) b

theorem foldlM_readPostList_stop {β : Type} (f : β → List Nat → Except Fault β) {pre : List Nat}
    {k : Nat} (post : List Nat) (hpre : ∀ x ∈ pre, idTypeLt x L.length)
    (hbad : ¬ idTypeLt k L.length) {b b' : β}
    (hf : (pre.map fun x => L.getD x []).foldlM f b = .ok b') :
    (pre ++ k :: post).foldlM (fun b idiv => do f b (← readPostList L idiv)) b =
      .error (.checkFailed (toString (toIdType k) ++ " vs " ++ toString L.length)) := by
  rw [List.foldlM_append, foldlM_readPostList f hpre, hf, ok_bind, List.foldlM_cons,
    readPostList_of_not hbad]
  rfl

theorem foldlM_pure_eq {α β : Type} (f : β → α → β) (l : List α) (b : β) :
    l.foldlM (fun b x => (pure (f b x) : Except Fault β)) b = .ok (l.foldl f b) := by
  induction l generalizing b with
  | nil => rfl
  | cons x xs ih => exact ih (f b x)

theorem getD_mem_or_nil (L : List (List Nat)) (k : Nat) : L.getD k [] ∈ L ∨ L.getD k [] = [] := by
  rw [List.getD_eq_getElem?_getD]
  cases h : L[k]? with
  | none => exact .inr rfl
  | some post => exact .inl (List.getElem?_mem h)

theorem sorted_getD {r : Nat → Nat → Prop} (h : ∀ post ∈ L, post.Sorted r) (k : Nat) :
    (L.getD k []).Sorted r := by
  rcases getD_mem_or_nil L k with hmem | hnil
  · exact h _ hmem
  · rw [hnil]; exact List.sorted_nil

theorem lt_of_mem_getD {D : Nat} (hD : ∀ post ∈ L, ∀ p ∈ post, p < D) (k : Nat) {p : Nat}
    (hp : p ∈ L.getD k []) : p < D := by
  rcases getD_mem_or_nil L k with hmem | hnil
  · exact hD _ hmem p hp
  · rw [hnil] at hp; exact absurd hp (List.not_mem_nil p)

theorem lt_of_mem_keyPostings {D : Nat} (hD : ∀ post ∈ L, ∀ p ∈ post, p < D) {p : Nat}
    (hp : p ∈ keyPostings L keys) : p < D := by
  obtain ⟨post, hpost, hp⟩ := List.mem_flatten.mp hp
  obtain ⟨k, -, rfl⟩ := List.mem_map.mp hpost
  exact lt_of_mem_getD hD k hp

theorem keyPostings_cons (k : Nat) (keys : List Nat) :
    keyPostings L (k :: keys) = L.getD k [] ++ keyPostings L keys := rfl

end Reads

/-! ## Hits -/

section Hits
variable {D : Nat} {L : List (List Nat)}

theorem StoreOk.nodup_getD (h : StoreOk D L) (k : Nat) : (L.getD k []).Nodup := by
  rcases getD_mem_or_nil L k with hmem | hnil
  · exact (h _ hmem).1.nodup
  · rw [hnil]; exact List.nodup_nil

/-- With duplicate-free lists, the number of keys whose list holds `o` is the number of
times `o` occurs in their lists. -/
theorem hitCount_eq_count (h : StoreOk D L) (keys : List Nat) (o : Nat) :
    hitCount L keys o = (keyPostings L keys).count o := by
  induction keys with
  | nil => rfl
  | cons k ks ih =>
    rw [hitCount, List.countP_cons, ← hitCount, ih, keyPostings_cons, List.count_append,
      List.count_eq_of_nodup (h.nodup_getD k)]
    by_cases ho : o ∈ L.getD k [] <;> simp [ho, Nat.add_comm]

theorem candidates_eq_byCount (h : StoreOk D L) (s t : Nat) (keys : List Nat) :
    candidates D s t L keys = byCount D (keyPostings L keys) fun n => 0 < n ∧ t ≤ s * n := by
  simp only [candidates, byCount, hitCount_eq_count h]

end Hits

end PivotInvIndex
