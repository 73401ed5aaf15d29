import PivotInvIndex.Encoding.CombIds

/-! The keys of one permutation: a longer prefix extends them, no key comes twice
while the bucket ids fit the `uint32_t` keys, every key is below the number of
posting lists, and the keys are the combinations of the prefix pivots whose
index `skip_val_` divides. -/

namespace PivotInvIndex

/-! ## Positions -/

theorem pairPositions_succ (P : Nat) :
    pairPositions (P + 1) = pairPositions P ++ (List.range P).map (P, ·) := by
  rcases P with _ | P
  · rfl
  · simp only [pairPositions, Nat.add_sub_cancel, List.range'_concat, List.flatMap_append,
      List.flatMap_cons, List.flatMap_nil, List.append_nil, Nat.one_mul, Nat.add_comm 1 P]

theorem triplePositions_succ (P : Nat) :
    triplePositions (P + 1) = triplePositions P ++ (pairPositions P).map (P, ·) := by
  rcases P with _ | _ | P
  · rfl
  · rfl
  · simp only [triplePositions, show P + 1 + 1 + 1 - 2 = P + 1 by omega,
      show P + 1 + 1 - 2 = P by omega, List.range'_concat, List.flatMap_append,
      List.flatMap_cons, List.flatMap_nil, List.append_nil, Nat.one_mul, Nat.add_comm 2 P]

theorem length_pairPositions (P : Nat) : (pairPositions P).length = P.choose 2 := by
  induction P with
  | zero => rfl
  | succ P ih =>
    rw [pairPositions_succ, List.length_append, ih, List.length_map, List.length_range,
      Nat.choose_succ_succ', Nat.choose_one_right, Nat.add_comm]

theorem length_triplePositions (P : Nat) : (triplePositions P).length = P.choose 3 := by
  induction P with
  | zero => rfl
  | succ P ih =>
    rw [triplePositions_succ, List.length_append, ih, List.length_map, length_pairPositions,
      Nat.choose_succ_succ' P 2, Nat.add_comm]

theorem pairPositions_isPrefix_of_le {P P' : Nat} (h : P ≤ P') :
    pairPositions P <+: pairPositions P' := by
  induction P', h using Nat.le_induction with
  | base => exact List.prefix_refl _
  | succ P' _ ih => exact ih.trans (pairPositions_succ P' ▸ List.prefix_append _ _)

theorem pairPositions_nodup (P : Nat) : (pairPositions P).Nodup := by
  induction P with
  | zero => exact List.nodup_nil
  | succ P ih =>
    rw [pairPositions_succ, List.nodup_append]
    refine ⟨ih, (List.nodup_range P).map (fun _ _ h => (Prod.mk.inj h).2), ?_⟩
    intro jk hjk hjk'
    obtain ⟨k, -, rfl⟩ := List.mem_map.mp hjk'
    exact absurd (mem_pairPositions.mp hjk).2 (lt_irrefl P)

theorem triplePositions_nodup (P : Nat) : (triplePositions P).Nodup := by
  induction P with
  | zero => exact List.nodup_nil
  | succ P ih =>
    rw [triplePositions_succ, List.nodup_append]
    refine ⟨ih, (pairPositions_nodup P).map (fun _ _ h => (Prod.mk.inj h).2), ?_⟩
    intro jkl hjkl hjkl'
    obtain ⟨kl, -, rfl⟩ := List.mem_map.mp hjkl'
    exact absurd (mem_triplePositions.mp hjkl).2.2 (lt_irrefl P)

/-! ## Keys -/

theorem keyOf_eq_some {s i x : Nat} : keyOf s i = some x ↔ i % s = 0 ∧ truncU32 (i / s) = x := by
  unfold keyOf
  split <;> simp_all

theorem keyOf_eq_some_of_lt {s i x : Nat} (hi : i / s < 2 ^ 32) :
    keyOf s i = some x ↔ i % s = 0 ∧ x = i / s := by
  rw [keyOf_eq_some, truncU32_of_lt hi, @eq_comm _ (i / s) x]

theorem keyOf3_eq_keyOf {s i : Nat} (hi : i < 2 ^ 32) : keyOf3 s i = keyOf s i := by
  simp only [keyOf3, keyOf, truncU32_of_lt hi, truncU32_of_lt ((Nat.div_le_self i s).trans_lt hi),
    Nat.mod_def, Nat.mul_comm s]

theorem keyOf_inj {s i i' x : Nat} (hi : i / s < 2 ^ 32) (hi' : i' / s < 2 ^ 32)
    (h : keyOf s i = some x) (h' : keyOf s i' = some x) : i = i' := by
  rw [keyOf_eq_some_of_lt hi] at h
  rw [keyOf_eq_some_of_lt hi'] at h'
  rw [← Nat.mod_add_div i s, ← Nat.mod_add_div i' s, h.1, h'.1, ← h.2, ← h'.2]

theorem keyOf_le {s i x : Nat} (h : keyOf s i = some x) : x ≤ i / s := by
  rw [keyOf_eq_some] at h
  exact h.2 ▸ truncU32_le _

theorem keyOf_one (i : Nat) : keyOf 1 i = some (truncU32 i) := by
  simp only [keyOf, Nat.mod_one, Nat.div_one, if_true]

/-! ## The permutation read by the loops -/

section Perm
variable {N : Nat} {perm : List Nat}

theorem getD_inj (hnd : perm.Nodup) {i j : Nat} (hi : i < perm.length) (hj : j < perm.length)
    (h : perm.getD i 0 = perm.getD j 0) : i = j := by
  rw [getD_of_lt hi, getD_of_lt hj] at h
  exact (hnd.getElem_inj_iff).mp h

theorem getD_lt (hperm : perm.Perm (List.range N)) {i : Nat} (hi : i < perm.length) :
    perm.getD i 0 < N := by
  rw [getD_of_lt hi]
  exact List.mem_range.mp (hperm.subset (List.getElem_mem hi))

theorem mem_take_iff_getD {P u : Nat} (hP : P ≤ perm.length) :
    u ∈ perm.take P ↔ ∃ i < P, perm.getD i 0 = u := by
  rw [List.mem_take_iff_getElem]
  constructor
  · rintro ⟨i, hi, rfl⟩
    exact ⟨i, by omega, getD_of_lt (by omega)⟩
  · rintro ⟨i, hi, rfl⟩
    exact ⟨i, by omega, (getD_of_lt (by omega)).symm⟩

end Perm

section Pairs
variable {N s P : Nat} {perm : List Nat}

theorem pairIndex_lt (hperm : perm.Perm (List.range N)) (hP : P ≤ perm.length)
    (hnd : perm.Nodup) {jk : Nat × Nat} (h : jk ∈ pairPositions P) :
    pairIndex perm jk < N.choose 2 := by
  obtain ⟨hkj, hjP⟩ := mem_pairPositions.mp h
  have hne : perm.getD jk.1 0 ≠ perm.getD jk.2 0 := fun he =>
    absurd (getD_inj hnd (by omega) (by omega) he) (by omega)
  have h1 := getD_lt hperm (i := jk.1) (by omega)
  have h2 := getD_lt hperm (i := jk.2) (by omega)
  unfold pairIndex
  rcases Nat.lt_or_gt_of_ne hne with hl | hl
  · exact postingListIndex_lt hl h2
  · rw [postingListIndex_comm]; exact postingListIndex_lt hl h1

theorem pairIndex_inj (hP : P ≤ perm.length) (hnd : perm.Nodup) {jk jk' : Nat × Nat}
    (h : jk ∈ pairPositions P) (h' : jk' ∈ pairPositions P)
    (he : pairIndex perm jk = pairIndex perm jk') : jk = jk' := by
  obtain ⟨hkj, hjP⟩ := mem_pairPositions.mp h
  obtain ⟨hkj', hjP'⟩ := mem_pairPositions.mp h'
  have inj := fun {i j} (hi : i < P) (hj : j < P) => @getD_inj perm hnd i j
    (by omega) (by omega)
  have hne : ∀ {i j}, i < P → j < P → i ≠ j → perm.getD i 0 ≠ perm.getD j 0 :=
    fun hi hj hij he => hij (inj hi hj he)
  rcases (postingListIndex_eq_iff (hne (by omega) (by omega) (by omega))
    (hne (by omega) (by omega) (by omega))).mp he with ⟨h1, h2⟩ | ⟨h1, h2⟩
  · exact Prod.ext (inj (by omega) (by omega) h1) (inj (by omega) (by omega) h2)
  · have := inj (by omega) (by omega) h1
    have := inj (by omega) (by omega) h2
    omega

/-- The fit of the bucket ids in 32 bits puts every quotient of a pair index below `2^32`. -/
theorem pairIndex_div_lt (hperm : perm.Perm (List.range N)) (hP : P ≤ perm.length)
    (hnd : perm.Nodup) (hs : 0 < s) (hfit : (N.choose 2 + s - 1) / s ≤ 2 ^ 32) {jk : Nat × Nat}
    (h : jk ∈ pairPositions P) : pairIndex perm jk / s < 2 ^ 32 :=
  lt_of_lt_of_le (div_lt_ceil hs (pairIndex_lt hperm hP hnd h)) hfit

theorem pairKeys_nodup (hperm : perm.Perm (List.range N)) (hP : P ≤ perm.length) (hs : 0 < s)
    (hfit : (N.choose 2 + s - 1) / s ≤ 2 ^ 32) : (pairKeys s perm P).Nodup := by
  have hnd := hperm.nodup_iff.mpr (List.nodup_range N)
  refine List.pairwise_filterMap.mpr ((pairPositions_nodup P).pairwise_of_forall_ne ?_)
  intro jk h jk' h' hne x hx x' hx' hxx
  subst hxx
  exact hne (pairIndex_inj hP hnd h h' (keyOf_inj (pairIndex_div_lt hperm hP hnd hs hfit h)
    (pairIndex_div_lt hperm hP hnd hs hfit h') hx hx'))

theorem pairKeys_lt (hperm : perm.Perm (List.range N)) (hP : P ≤ perm.length) (hs : 0 < s)
    {x : Nat} (hx : x ∈ pairKeys s perm P) : x < (N.choose 2 + s - 1) / s := by
  obtain ⟨jk, h, hk⟩ := List.mem_filterMap.mp hx
  exact lt_of_le_of_lt (keyOf_le hk)
    (div_lt_ceil hs (pairIndex_lt hperm hP (hperm.nodup_iff.mpr (List.nodup_range N)) h))

theorem mem_pairKeys (hperm : perm.Perm (List.range N)) (hP : P ≤ perm.length) (hs : 0 < s)
    (hfit : (N.choose 2 + s - 1) / s ≤ 2 ^ 32) (x : Nat) :
    x ∈ pairKeys s perm P ↔ ∃ u ∈ perm.take P, ∃ v ∈ perm.take P, u ≠ v ∧
      postingListIndex u v % s = 0 ∧ x = postingListIndex u v / s := by
  have hnd := hperm.nodup_iff.mpr (List.nodup_range N)
  constructor
  · intro hx
    obtain ⟨jk, h, hk⟩ := List.mem_filterMap.mp hx
    obtain ⟨hkj, hjP⟩ := mem_pairPositions.mp h
    rw [keyOf_eq_some_of_lt (pairIndex_div_lt hperm hP hnd hs hfit h)] at hk
    refine ⟨_, (mem_take_iff_getD hP).mpr ⟨jk.1, hjP, rfl⟩, _,
      (mem_take_iff_getD hP).mpr ⟨jk.2, by omega, rfl⟩, fun he => ?_, hk⟩
    exact absurd (getD_inj hnd (by omega) (by omega) he) (by omega)
  · rintro ⟨u, hu, v, hv, huv, hmod, rfl⟩
    obtain ⟨i, hi, rfl⟩ := (mem_take_iff_getD hP).mp hu
    obtain ⟨j, hj, rfl⟩ := (mem_take_iff_getD hP).mp hv
    have hij : i ≠ j := fun h => huv (h ▸ rfl)
    rcases Nat.lt_or_gt_of_ne hij with hl | hl
    · have hmem : (j, i) ∈ pairPositions P := mem_pairPositions.mpr ⟨hl, hj⟩
      refine List.mem_filterMap.mpr ⟨(j, i), hmem, ?_⟩
      rw [keyOf_eq_some_of_lt (pairIndex_div_lt hperm hP hnd hs hfit hmem), pairIndex,
        postingListIndex_comm]
      exact ⟨hmod, rfl⟩
    · have hmem : (i, j) ∈ pairPositions P := mem_pairPositions.mpr ⟨hl, hi⟩
      refine List.mem_filterMap.mpr ⟨(i, j), hmem, ?_⟩
      rw [keyOf_eq_some_of_lt (pairIndex_div_lt hperm hP hnd hs hfit hmem)]
      exact ⟨hmod, rfl⟩

theorem length_pairKeys_one (perm : List Nat) (P : Nat) :
    (pairKeys 1 perm P).length = P * (P - 1) / 2 := by
  have h : (fun jk => keyOf 1 (pairIndex perm jk)) =
      some ∘ fun jk => truncU32 (pairIndex perm jk) :=
    funext fun jk => keyOf_one _
  rw [pairKeys, h, List.filterMap_eq_map, List.length_map, length_pairPositions, choose_two_eq]

end Pairs

section Singles
variable {N s P : Nat} {perm : List Nat}

theorem singleKeys_nodup (hperm : perm.Perm (List.range N)) (hP : P ≤ perm.length) (hs : 0 < s)
    (hfit : (N + s - 1) / s ≤ 2 ^ 32) : (singleKeys s perm P).Nodup := by
  have hnd := hperm.nodup_iff.mpr (List.nodup_range N)
  have hdiv : ∀ i ∈ List.range P, perm.getD i 0 / s < 2 ^ 32 := fun i hi =>
    lt_of_lt_of_le (div_lt_ceil hs (getD_lt hperm (by have := List.mem_range.mp hi; omega))) hfit
  refine List.pairwise_filterMap.mpr ((List.nodup_range P).pairwise_of_forall_ne ?_)
  intro i hi i' hi' hne x hx x' hx' hxx
  subst hxx
  exact hne (getD_inj hnd (by have := List.mem_range.mp hi; omega)
    (by have := List.mem_range.mp hi'; omega) (keyOf_inj (hdiv i hi) (hdiv i' hi') hx hx'))

theorem singleKeys_lt (hperm : perm.Perm (List.range N)) (hP : P ≤ perm.length) (hs : 0 < s)
    {x : Nat} (hx : x ∈ singleKeys s perm P) : x < (N + s - 1) / s := by
  obtain ⟨i, hi, hk⟩ := List.mem_filterMap.mp hx
  exact lt_of_le_of_lt (keyOf_le hk)
    (div_lt_ceil hs (getD_lt hperm (by have := List.mem_range.mp hi; omega)))

theorem mem_singleKeys (hperm : perm.Perm (List.range N)) (hP : P ≤ perm.length) (hs : 0 < s)
    (hfit : (N + s - 1) / s ≤ 2 ^ 32) (x : Nat) :
    x ∈ singleKeys s perm P ↔ ∃ u ∈ perm.take P, u % s = 0 ∧ x = u / s := by
  have hdiv : ∀ u ∈ perm.take P, u / s < 2 ^ 32 := fun u hu =>
    lt_of_lt_of_le (div_lt_ceil hs (List.mem_range.mp (hperm.subset (List.mem_of_mem_take hu))))
      hfit
  constructor
  · intro hx
    obtain ⟨i, hi, hk⟩ := List.mem_filterMap.mp hx
    have hu := (mem_take_iff_getD hP).mpr ⟨i, List.mem_range.mp hi, rfl⟩
    exact ⟨_, hu, (keyOf_eq_some_of_lt (hdiv _ hu)).mp hk⟩
  · rintro ⟨u, hu, hk⟩
    obtain ⟨i, hi, rfl⟩ := (mem_take_iff_getD hP).mp hu
    exact List.mem_filterMap.mpr
      ⟨i, List.mem_range.mpr hi, (keyOf_eq_some_of_lt (hdiv _ hu)).mpr hk⟩

theorem length_singleKeys_one (perm : List Nat) (P : Nat) : (singleKeys 1 perm P).length = P := by
  have h : (fun i => keyOf 1 (perm.getD i 0)) = some ∘ fun i => truncU32 (perm.getD i 0) :=
    funext fun i => keyOf_one _
  rw [singleKeys, h, List.filterMap_eq_map, List.length_map, List.length_range]

end Singles

section Triples
variable {N s P : Nat} {perm : List Nat}

theorem getD_ne3 (hnd : perm.Nodup) (hP : P ≤ perm.length) {j k l : Nat} (hlk : l < k)
    (hkj : k < j) (hjP : j < P) :
    perm.getD j 0 ≠ perm.getD k 0 ∧ perm.getD j 0 ≠ perm.getD l 0 ∧
      perm.getD k 0 ≠ perm.getD l 0 := by
  refine ⟨fun h => ?_, fun h => ?_, fun h => ?_⟩ <;>
    have := getD_inj hnd (by omega) (by omega) h <;> omega

theorem tripleIndex_lt (hperm : perm.Perm (List.range N)) (hP : P ≤ perm.length)
    (hnd : perm.Nodup) {jkl : Nat × Nat × Nat} (h : jkl ∈ triplePositions P) :
    tripleIndex perm jkl < N.choose 3 := by
  obtain ⟨j, k, l⟩ := jkl
  obtain ⟨hlk, hkj, hjP⟩ : l < k ∧ k < j ∧ j < P := mem_triplePositions.mp h
  obtain ⟨d₁, d₂, d₃⟩ := getD_ne3 hnd hP hlk hkj hjP
  obtain ⟨hl, hm⟩ := sorted_of_ne d₁ d₂ d₃
  have hhi : hiOf (perm.getD j 0) (perm.getD k 0) (perm.getD l 0) < N := by
    rcases (mem_sorted _ _ _ _).mpr (Or.inr (Or.inr rfl)) with h | h | h <;> rw [h] <;>
      exact getD_lt hperm (by omega)
  rw [tripleIndex, postingListIndex3_eq, ← postingListIndex3_of_lt hl hm]
  exact postingListIndex3_lt hl hm hhi

theorem tripleIndex_inj (hP : P ≤ perm.length) (hnd : perm.Nodup) {jkl jkl' : Nat × Nat × Nat}
    (h : jkl ∈ triplePositions P) (h' : jkl' ∈ triplePositions P)
    (he : tripleIndex perm jkl = tripleIndex perm jkl') : jkl = jkl' := by
  obtain ⟨j, k, l⟩ := jkl
  obtain ⟨j', k', l'⟩ := jkl'
  obtain ⟨hlk, hkj, hjP⟩ : l < k ∧ k < j ∧ j < P := mem_triplePositions.mp h
  obtain ⟨hlk', hkj', hjP'⟩ : l' < k' ∧ k' < j' ∧ j' < P := mem_triplePositions.mp h'
  obtain ⟨d₁, d₂, d₃⟩ := getD_ne3 hnd hP hlk hkj hjP
  obtain ⟨d₁', d₂', d₃'⟩ := getD_ne3 hnd hP hlk' hkj' hjP'
  have hset := postingListIndex3_inj d₁ d₂ d₃ d₁' d₂' d₃' he
  have pos : ∀ i < P, perm.getD i 0 = perm.getD j' 0 ∨ perm.getD i 0 = perm.getD k' 0 ∨
      perm.getD i 0 = perm.getD l' 0 → i = j' ∨ i = k' ∨ i = l' := fun i hi hv =>
    hv.imp (getD_inj hnd (by omega) (by omega)) (Or.imp (getD_inj hnd (by omega) (by omega))
      (getD_inj hnd (by omega) (by omega)))
  have h1 := pos j hjP ((hset _).mp (.inl rfl))
  have h2 := pos k (by omega) ((hset _).mp (.inr (.inl rfl)))
  have h3 := pos l (by omega) ((hset _).mp (.inr (.inr rfl)))
  simp only [Prod.mk.injEq]
  omega

theorem tripleIndex_div_lt (hperm : perm.Perm (List.range N)) (hP : P ≤ perm.length)
    (hnd : perm.Nodup) (hfit : N.choose 3 ≤ 2 ^ 32) {jkl : Nat × Nat × Nat}
    (h : jkl ∈ triplePositions P) : tripleIndex perm jkl / s < 2 ^ 32 :=
  (Nat.div_le_self _ s).trans_lt ((tripleIndex_lt hperm hP hnd h).trans_le hfit)

theorem tripleKeys_eq (hperm : perm.Perm (List.range N)) (hP : P ≤ perm.length)
    (hfit : N.choose 3 ≤ 2 ^ 32) :
    tripleKeys s perm P = (triplePositions P).filterMap fun jkl => keyOf s (tripleIndex perm jkl) :=
  List.filterMap_congr fun _ h => keyOf3_eq_keyOf
    ((tripleIndex_lt hperm hP (hperm.nodup_iff.mpr (List.nodup_range N)) h).trans_le hfit)

theorem tripleKeys_nodup (hperm : perm.Perm (List.range N)) (hP : P ≤ perm.length)
    (hfit : N.choose 3 ≤ 2 ^ 32) : (tripleKeys s perm P).Nodup := by
  have hnd := hperm.nodup_iff.mpr (List.nodup_range N)
  rw [tripleKeys_eq hperm hP hfit]
  refine List.pairwise_filterMap.mpr ((triplePositions_nodup P).pairwise_of_forall_ne ?_)
  intro jkl h jkl' h' hne x hx x' hx' hxx
  subst hxx
  exact hne (tripleIndex_inj hP hnd h h' (keyOf_inj (tripleIndex_div_lt hperm hP hnd hfit h)
    (tripleIndex_div_lt hperm hP hnd hfit h') hx hx'))

theorem tripleKeys_lt (hperm : perm.Perm (List.range N)) (hP : P ≤ perm.length) (hs : 0 < s)
    (hfit : N.choose 3 ≤ 2 ^ 32) {x : Nat} (hx : x ∈ tripleKeys s perm P) :
    x < (N.choose 3 + s - 1) / s := by
  rw [tripleKeys_eq hperm hP hfit] at hx
  obtain ⟨jkl, h, hk⟩ := List.mem_filterMap.mp hx
  exact lt_of_le_of_lt (keyOf_le hk)
    (div_lt_ceil hs (tripleIndex_lt hperm hP (hperm.nodup_iff.mpr (List.nodup_range N)) h))

theorem length_tripleKeys_one (perm : List Nat) (P : Nat) :
    (tripleKeys 1 perm P).length = P * (P - 1) * (P - 2) / 6 := by
  have h : (fun jkl => keyOf3 1 (tripleIndex perm jkl)) =
      some ∘ fun jkl => truncU32 (truncU32 (tripleIndex perm jkl)) :=
    funext fun jkl => by simp only [keyOf3, Nat.div_one, Nat.mul_one, Nat.sub_self, if_true,
      Function.comp_apply, truncU32_of_lt (truncU32_lt _)]
  rw [tripleKeys, h, List.filterMap_eq_map, List.length_map, length_triplePositions,
    choose_three_eq]

theorem postingListIndex3_getD_sort {u v w : Nat} {j k l i₁ i₂ i₃ : Nat}
    (hj : j = i₁ ∨ j = i₂ ∨ j = i₃) (hk : k = i₁ ∨ k = i₂ ∨ k = i₃) (hl : l = i₁ ∨ l = i₂ ∨ l = i₃)
    (hu : perm.getD i₁ 0 = u) (hv : perm.getD i₂ 0 = v) (hw : perm.getD i₃ 0 = w)
    (huv : u < v) (hvw : v < w) (d₁ : perm.getD j 0 ≠ perm.getD k 0)
    (d₂ : perm.getD j 0 ≠ perm.getD l 0) (d₃ : perm.getD k 0 ≠ perm.getD l 0) :
    postingListIndex3 (perm.getD j 0) (perm.getD k 0) (perm.getD l 0) =
      postingListIndex3 u v w := by
  have mem : ∀ {i}, (i = i₁ ∨ i = i₂ ∨ i = i₃) →
      perm.getD i 0 = u ∨ perm.getD i 0 = v ∨ perm.getD i 0 = w := by
    rintro i (rfl | rfl | rfl) <;> simp only [hu, hv, hw, true_or, or_true]
  exact postingListIndex3_of_mem (mem hj) (mem hk) (mem hl) d₁ d₂ d₃ huv hvw

theorem mem_tripleKeys (hperm : perm.Perm (List.range N)) (hP : P ≤ perm.length)
    (hfit : N.choose 3 ≤ 2 ^ 32) (x : Nat) :
    x ∈ tripleKeys s perm P ↔ ∃ u ∈ perm.take P, ∃ v ∈ perm.take P, ∃ w ∈ perm.take P,
      u < v ∧ v < w ∧ postingListIndex3 u v w % s = 0 ∧ x = postingListIndex3 u v w / s := by
  have hnd := hperm.nodup_iff.mpr (List.nodup_range N)
  have take_of : ∀ {i}, i < P → perm.getD i 0 ∈ perm.take P := fun hi =>
    (mem_take_iff_getD hP).mpr ⟨_, hi, rfl⟩
  rw [tripleKeys_eq hperm hP hfit]
  constructor
  · intro hx
    obtain ⟨⟨j, k, l⟩, h, hk⟩ := List.mem_filterMap.mp hx
    obtain ⟨hlk, hkj, hjP⟩ : l < k ∧ k < j ∧ j < P := mem_triplePositions.mp h
    rw [keyOf_eq_some_of_lt (tripleIndex_div_lt hperm hP hnd hfit h)] at hk
    obtain ⟨d₁, d₂, d₃⟩ := getD_ne3 hnd hP hlk hkj hjP
    obtain ⟨hl, hm⟩ := sorted_of_ne d₁ d₂ d₃
    have mem : ∀ {v}, (v = perm.getD j 0 ∨ v = perm.getD k 0 ∨ v = perm.getD l 0) →
        v ∈ perm.take P := by
      rintro v (rfl | rfl | rfl) <;> exact take_of (by omega)
    refine ⟨_, mem ((mem_sorted _ _ _ _).mpr (.inl rfl)), _,
      mem ((mem_sorted _ _ _ _).mpr (.inr (.inl rfl))), _,
      mem ((mem_sorted _ _ _ _).mpr (.inr (.inr rfl))), hl, hm, ?_⟩
    rwa [postingListIndex3_of_lt hl hm, ← postingListIndex3_eq]
  · rintro ⟨u, hu, v, hv, w, hw, huv, hvw, hk⟩
    obtain ⟨i₁, hi₁, hu⟩ := (mem_take_iff_getD hP).mp hu
    obtain ⟨i₂, hi₂, hv⟩ := (mem_take_iff_getD hP).mp hv
    obtain ⟨i₃, hi₃, hw⟩ := (mem_take_iff_getD hP).mp hw
    have h₁₂ : i₁ ≠ i₂ := fun h => by subst h; omega
    have h₁₃ : i₁ ≠ i₃ := fun h => by subst h; omega
    have h₂₃ : i₂ ≠ i₃ := fun h => by subst h; omega
    obtain ⟨hl, hm⟩ := sorted_of_ne h₁₂ h₁₃ h₂₃
    have hjP : hiOf i₁ i₂ i₃ < P := by
      rcases (mem_sorted i₁ i₂ i₃ _).mpr (.inr (.inr rfl)) with h | h | h <;> omega
    have hmem : (hiOf i₁ i₂ i₃, midOf i₁ i₂ i₃, loOf i₁ i₂ i₃) ∈ triplePositions P :=
      mem_triplePositions.mpr ⟨hl, hm, hjP⟩
    obtain ⟨d₁, d₂, d₃⟩ := getD_ne3 hnd hP hl hm hjP
    refine List.mem_filterMap.mpr ⟨_, hmem, ?_⟩
    rw [keyOf_eq_some_of_lt (tripleIndex_div_lt hperm hP hnd hfit hmem), tripleIndex]
    rw [postingListIndex3_getD_sort ((mem_sorted i₁ i₂ i₃ _).mpr (.inr (.inr rfl)))
      ((mem_sorted i₁ i₂ i₃ _).mpr (.inr (.inl rfl))) ((mem_sorted i₁ i₂ i₃ _).mpr (.inl rfl))
      hu hv hw huv hvw d₁ d₂ d₃]
    exact hk

end Triples

end PivotInvIndex
