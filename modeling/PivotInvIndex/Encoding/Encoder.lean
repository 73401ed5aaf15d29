import PivotInvIndex.Encoding.Keys

/-! `genPivotCombIds` on a permutation of the `N` pivot ids. While every bucket id
fits the `uint32_t` keys the encoder writes each combination of the prefix once,
below the number of posting lists; past that the keys wrap around, and the
one-pivot branch refuses a prefix as long as the permutation. -/

namespace PivotInvIndex

/-! ## The encoder reads only the prefix -/

theorem readPerm_append {l rest : List Nat} {i : Nat} (h : i < l.length) :
    readPerm (l ++ rest) i = readPerm l i := by
  simp only [readPerm, List.getElem?_append_left h, List.getElem?_eq_getElem h]

theorem genPivotCombIds2_append {s P : Nat} {l rest : List Nat} (hP : P ≤ l.length) (b : IdBuf) :
    genPivotCombIds2 s (l ++ rest) P b = genPivotCombIds2 s l P b := by
  rw [genPivotCombIds2_eq, genPivotCombIds2_eq]
  refine foldlM_congr (fun b jk h => ?_) b
  have := mem_pairPositions.mp h
  simp only [pairStep, readPerm_append (show jk.1 < l.length by omega),
    readPerm_append (show jk.2 < l.length by omega)]

theorem genPivotCombIds3_append {s P : Nat} {l rest : List Nat} (hP : P ≤ l.length) (b : IdBuf) :
    genPivotCombIds3 s (l ++ rest) P b = genPivotCombIds3 s l P b := by
  rw [genPivotCombIds3_eq, genPivotCombIds3_eq]
  refine foldlM_congr (fun b jkl h => ?_) b
  have := mem_triplePositions.mp h
  simp only [tripleStep, readPerm_append (show jkl.1 < l.length by omega),
    readPerm_append (show jkl.2.1 < l.length by omega),
    readPerm_append (show jkl.2.2 < l.length by omega)]

/-! ## Two pivots -/

/-- With every bucket id below `2^32`, the two-pivot branch writes inside the buffer it grows,
each pair of prefix pivots whose `PAIR` index `s` divides once, every key below the number of
posting lists, and `P(P−1)/2` keys when `s = 1`. -/
theorem genPivotCombIds_pairs {N s P : Nat} (ids perm : List Nat)
    (hperm : perm.Perm (List.range N)) (hP : P ≤ N) (hs : 0 < s)
    (hfit : (N * (N - 1) / 2 + s - 1) / s ≤ 2 ^ 32) :
    ∃ b, genPivotCombIds 2 s ids perm P = .ok b ∧ ids.length ≤ b.ids.length ∧
      (b.ids.take b.resSize).Nodup ∧
      (∀ x, x ∈ b.ids.take b.resSize ↔ ∃ u ∈ perm.take P, ∃ v ∈ perm.take P, u ≠ v ∧
        postingListIndex u v % s = 0 ∧ x = postingListIndex u v / s) ∧
      (∀ x ∈ b.ids.take b.resSize, x < (N * (N - 1) / 2 + s - 1) / s) ∧
      (s = 1 → b.resSize = P * (P - 1) / 2) := by
  have hP' : P ≤ perm.length := by rw [hperm.length_eq, List.length_range]; exact hP
  rw [choose_two_eq] at hfit ⊢
  obtain ⟨b, hb, ⟨hr, -, htake⟩, hgrow⟩ := genPivotCombIds_spec ids hs hP' (.inl rfl)
  simp only [combKeys, show (2 : Nat) ≠ 1 by decide, if_false, if_true] at htake hr
  refine ⟨b, hb, hgrow, htake ▸ pairKeys_nodup hperm hP' hs hfit,
    htake ▸ mem_pairKeys hperm hP' hs hfit, htake ▸ fun x => pairKeys_lt hperm hP' hs, ?_⟩
  rintro rfl
  rw [hr, length_pairKeys_one]

theorem genPivotCombIds_pairs_scenario :
    ([0, 1, 2] : List Nat).Perm (List.range 3) ∧ 3 ≤ 3 ∧ 0 < 1 ∧
      (3 * (3 - 1) / 2 + 1 - 1) / 1 ≤ 2 ^ 32 ∧
    ∃ b, genPivotCombIds 2 1 [] [0, 1, 2] 3 = .ok b ∧ ([] : List Nat).length ≤ b.ids.length ∧
      (b.ids.take b.resSize).Nodup ∧
      (∀ x, x ∈ b.ids.take b.resSize ↔ ∃ u ∈ [0, 1, 2].take 3, ∃ v ∈ [0, 1, 2].take 3, u ≠ v ∧
        postingListIndex u v % 1 = 0 ∧ x = postingListIndex u v / 1) ∧
      (∀ x ∈ b.ids.take b.resSize, x < (3 * (3 - 1) / 2 + 1 - 1) / 1) ∧
      (1 = 1 → b.resSize = 3 * (3 - 1) / 2) :=
  ⟨by decide, by decide, by decide, by decide,
    genPivotCombIds_pairs [] [0, 1, 2] (by decide) (by decide) (by decide) (by decide)⟩

theorem genPivotCombIds_pairs_wrap :
    ¬ ∀ (N s P : Nat) (ids perm : List Nat), perm.Perm (List.range N) → P ≤ N → 0 < s →
      ∃ b, genPivotCombIds 2 s ids perm P = .ok b ∧ (b.ids.take b.resSize).Nodup := by
  intro h
  obtain ⟨b, hb, hnd⟩ := h 92684 1 4 [] (withHead [92683, 0, 333, 329] 92684)
    (withHead_perm (by decide) (by decide)) (by decide) (by decide)
  have hval : genPivotCombIds 2 1 [] (withHead [92683, 0, 333, 329] 92684) 4 =
      .ok ⟨[55607, 55940, 55278, 55936, 53956, 55607, 0, 0], 6⟩ := by
    rw [show genPivotCombIds 2 1 [] (withHead [92683, 0, 333, 329] 92684) 4 =
      genPivotCombIds2 1 (withHead [92683, 0, 333, 329] 92684) 4 ⟨[], 0⟩ from rfl, withHead,
      genPivotCombIds2_append (by decide)]
    decide
  rw [hval] at hb
  cases hb
  exact absurd hnd (by decide)

/-! ## One and three pivots -/

theorem genPivotCombIds_singles_triples {N s P : Nat} (ids perm : List Nat)
    (hperm : perm.Perm (List.range N)) (hP : P ≤ N) (hs : 0 < s) :
    (P < N → (N + s - 1) / s ≤ 2 ^ 32 →
      ∃ b, genPivotCombIds 1 s ids perm P = .ok b ∧ ids.length ≤ b.ids.length ∧
        (b.ids.take b.resSize).Nodup ∧
        (∀ x, x ∈ b.ids.take b.resSize ↔ ∃ u ∈ perm.take P, u % s = 0 ∧ x = u / s) ∧
        (∀ x ∈ b.ids.take b.resSize, x < (N + s - 1) / s) ∧ (s = 1 → b.resSize = P)) ∧
    (N * (N - 1) * (N - 2) / 6 ≤ 2 ^ 32 →
      ∃ b, genPivotCombIds 3 s ids perm P = .ok b ∧ ids.length ≤ b.ids.length ∧
        (b.ids.take b.resSize).Nodup ∧
        (∀ x, x ∈ b.ids.take b.resSize ↔ ∃ u ∈ perm.take P, ∃ v ∈ perm.take P,
          ∃ w ∈ perm.take P, u < v ∧ v < w ∧ postingListIndex3 u v w % s = 0 ∧
            x = postingListIndex3 u v w / s) ∧
        (∀ x ∈ b.ids.take b.resSize, x < (N * (N - 1) * (N - 2) / 6 + s - 1) / s) ∧
        (s = 1 → b.resSize = P * (P - 1) * (P - 2) / 6)) := by
  have hlen : perm.length = N := by rw [hperm.length_eq, List.length_range]
  have hP' : P ≤ perm.length := hlen ▸ hP
  constructor
  · intro hlt hfit
    obtain ⟨b, hb, ⟨hr, -, htake⟩, hgrow⟩ :=
      genPivotCombIds_spec ids hs hP' (.inr (.inr ⟨rfl, hlen ▸ hlt⟩))
    simp only [combKeys, if_true] at htake hr
    refine ⟨b, hb, hgrow, htake ▸ singleKeys_nodup hperm hP' hs hfit,
      htake ▸ mem_singleKeys hperm hP' hs hfit, htake ▸ fun x => singleKeys_lt hperm hP' hs, ?_⟩
    rintro rfl
    rw [hr, length_singleKeys_one]
  · intro hfit
    rw [choose_three_eq] at hfit ⊢
    obtain ⟨b, hb, ⟨hr, -, htake⟩, hgrow⟩ := genPivotCombIds_spec ids hs hP' (.inr (.inl rfl))
    simp only [combKeys, show (3 : Nat) ≠ 1 by decide, show (3 : Nat) ≠ 2 by decide,
      if_false] at htake hr
    refine ⟨b, hb, hgrow, htake ▸ tripleKeys_nodup hperm hP' hfit,
      htake ▸ mem_tripleKeys hperm hP' hfit, htake ▸ fun x => tripleKeys_lt hperm hP' hs hfit, ?_⟩
    rintro rfl
    rw [hr, length_tripleKeys_one]

theorem genPivotCombIds_singles_triples_scenario :
    ([0, 1, 2, 3] : List Nat).Perm (List.range 4) ∧ 3 ≤ 4 ∧ 0 < 1 ∧
    ((3 < 4 → (4 + 1 - 1) / 1 ≤ 2 ^ 32 →
      ∃ b, genPivotCombIds 1 1 [] [0, 1, 2, 3] 3 = .ok b ∧ ([] : List Nat).length ≤ b.ids.length ∧
        (b.ids.take b.resSize).Nodup ∧
        (∀ x, x ∈ b.ids.take b.resSize ↔ ∃ u ∈ [0, 1, 2, 3].take 3, u % 1 = 0 ∧ x = u / 1) ∧
        (∀ x ∈ b.ids.take b.resSize, x < (4 + 1 - 1) / 1) ∧ (1 = 1 → b.resSize = 3)) ∧
    (4 * (4 - 1) * (4 - 2) / 6 ≤ 2 ^ 32 →
      ∃ b, genPivotCombIds 3 1 [] [0, 1, 2, 3] 3 = .ok b ∧ ([] : List Nat).length ≤ b.ids.length ∧
        (b.ids.take b.resSize).Nodup ∧
        (∀ x, x ∈ b.ids.take b.resSize ↔ ∃ u ∈ [0, 1, 2, 3].take 3, ∃ v ∈ [0, 1, 2, 3].take 3,
          ∃ w ∈ [0, 1, 2, 3].take 3, u < v ∧ v < w ∧ postingListIndex3 u v w % 1 = 0 ∧
            x = postingListIndex3 u v w / 1) ∧
        (∀ x ∈ b.ids.take b.resSize, x < (4 * (4 - 1) * (4 - 2) / 6 + 1 - 1) / 1) ∧
        (1 = 1 → b.resSize = 3 * (3 - 1) * (3 - 2) / 6))) :=
  ⟨by decide, by decide, by decide,
    genPivotCombIds_singles_triples [] [0, 1, 2, 3] (by decide) (by decide) (by decide)⟩

theorem genPivotCombIds_singles_triples_fail :
    (¬ ∀ (N s P : Nat) (ids perm : List Nat), perm.Perm (List.range N) → P ≤ N → 0 < s →
      ∃ b, genPivotCombIds 1 s ids perm P = .ok b) ∧
    (¬ ∀ (N s P : Nat) (ids perm : List Nat), perm.Perm (List.range N) → P ≤ N → 0 < s →
      ∃ b, genPivotCombIds 3 s ids perm P = .ok b ∧ (b.ids.take b.resSize).Nodup) := by
  constructor
  · intro h
    obtain ⟨b, hb⟩ := h 1 1 1 [] [0] (by decide) le_rfl Nat.one_pos
    rw [show genPivotCombIds 1 1 [] [0] 1 = .error (.checkFailed "permPrefixSize < perm.size()")
      by decide] at hb
    cases hb
  · intro h
    obtain ⟨b, hb, hnd⟩ := h 3000 2 6 [] (withHead [2996, 2998, 2999, 313, 826, 1064] 3000)
      (withHead_perm (by decide) (by decide)) (by decide) (by decide)
    have hval : genPivotCombIds 3 2 [] (withHead [2996, 2998, 2999, 313, 826, 1064] 3000) 6 =
        .ok ⟨[100266851, 100262513, 98016518, 100265766, 91455361, 95943369, 98016637, 100265885,
          98302016, 91568013, 96056021, 100266851, 0, 0, 0, 0], 12⟩ := by
      rw [show genPivotCombIds 3 2 [] (withHead [2996, 2998, 2999, 313, 826, 1064] 3000) 6 =
        genPivotCombIds3 2 (withHead [2996, 2998, 2999, 313, 826, 1064] 3000) 6 ⟨[], 0⟩ from rfl,
        withHead, genPivotCombIds3_append (by decide)]
      decide
    rw [hval] at hb
    cases hb
    exact absurd hnd (by decide)

end PivotInvIndex
