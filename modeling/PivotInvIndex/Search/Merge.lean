import PivotInvIndex.Search.Postings

/-! `kMerge` folds `postListUnion` over the keys' lists, flipping between two buffers, and
reads its candidates from `tmpRes[1 - prevRes]`, the buffer of the round before the last: its
candidates are those of every list but the last key's. Whatever the lists, each union keeps
every entry of the running list with a count no smaller, and no count passes `skip_val_` times
the postings of its id. -/

namespace PivotInvIndex

def qtyOf (x : Nat) : List (Nat × Nat) → Nat
  | [] => 0
  | (i, qty) :: acc => if i = x then qty else qtyOf x acc

section Union
variable {s : Nat}

theorem postListUnion_cons (i qty : Nat) (lst1 : List (Nat × Nat)) (lst2 : List Nat) :
    postListUnion s ((i, qty) :: lst1) lst2 = unionStep s i qty (postListUnion s lst1) lst2 := rfl

theorem mem_postListUnion (acc : List (Nat × Nat)) (post : List Nat) (x : Nat) :
    x ∈ (postListUnion s acc post).map Prod.fst ↔ x ∈ acc.map Prod.fst ∨ x ∈ post := by
  induction acc generalizing post with
  | nil => simp [postListUnion]
  | cons e acc ih =>
    obtain ⟨i, qty⟩ := e
    rw [postListUnion_cons]
    induction post with
    | nil => simp only [unionStep, List.map_cons, List.mem_cons, ih, List.not_mem_nil, or_false]
    | cons j post ih2 =>
      rw [unionStep]
      split_ifs with h1 h2
      · simp only [List.map_cons, List.mem_cons, ih, or_assoc]
      · simp only [List.map_cons, List.mem_cons, ih2, or_assoc, or_left_comm]
      · obtain rfl : i = j := by omega
        simp only [List.map_cons, List.mem_cons, ih, or_assoc, or_left_comm, or_self_left]

theorem qtyOf_of_not_mem {x : Nat} {acc : List (Nat × Nat)} (hx : x ∉ acc.map Prod.fst) :
    qtyOf x acc = 0 := by
  induction acc with
  | nil => rfl
  | cons e acc ih =>
    obtain ⟨i, qty⟩ := e
    simp only [List.map_cons, List.mem_cons, not_or] at hx
    rw [qtyOf, if_neg (Ne.symm hx.1), ih hx.2]

theorem qtyOf_of_mem {acc : List (Nat × Nat)} (hnd : (acc.map Prod.fst).Nodup)
    {e : Nat × Nat} (he : e ∈ acc) : qtyOf e.1 acc = e.2 := by
  induction acc with
  | nil => exact absurd he (List.not_mem_nil e)
  | cons d acc ih =>
    obtain ⟨i, qty⟩ := d
    rw [List.map_cons, List.nodup_cons] at hnd
    rw [qtyOf]
    rcases List.mem_cons.mp he with rfl | he
    · exact if_pos rfl
    · rw [if_neg fun h : i = e.1 => hnd.1 (List.mem_map.mpr ⟨e, he, h.symm⟩)]
      exact ih hnd.2 he

theorem qtyOf_map_pair (x : Nat) (post : List Nat) :
    qtyOf x (post.map fun j => (j, s)) = if x ∈ post then s else 0 := by
  induction post with
  | nil => rfl
  | cons j post ih =>
    rw [List.map_cons, qtyOf, ih]
    by_cases hj : j = x
    · simp [hj]
    · simp [hj, Ne.symm hj]

theorem qtyOf_postListUnion {acc : List (Nat × Nat)} {post : List Nat}
    (hacc : (acc.map Prod.fst).Sorted (· < ·)) (hpost : post.Sorted (· < ·)) (x : Nat) :
    qtyOf x (postListUnion s acc post) = qtyOf x acc + if x ∈ post then s else 0 := by
  induction acc generalizing post with
  | nil => simp [postListUnion, qtyOf_map_pair, qtyOf]
  | cons e acc ih =>
    obtain ⟨i, qty⟩ := e
    rw [List.map_cons, List.sorted_cons] at hacc
    rw [postListUnion_cons]
    induction post with
    | nil =>
      rw [unionStep, qtyOf, ih hacc.2 List.sorted_nil, qtyOf]
      simp
    | cons j post ih2 =>
      rw [List.sorted_cons] at hpost
      rcases lt_trichotomy i j with h1 | rfl | h2
      · rw [unionStep, if_pos h1, qtyOf, ih hacc.2 (List.sorted_cons.mpr hpost), qtyOf]
        by_cases hx : i = x
        · subst hx
          have : i ∉ j :: post := fun h => by
            rcases List.mem_cons.mp h with h | h
            · omega
            · exact absurd (hpost.1 i h) (by omega)
          simp [this]
        · simp [hx]
      · rw [unionStep, if_neg (lt_irrefl i), if_neg (lt_irrefl i), qtyOf, ih hacc.2 hpost.2, qtyOf]
        by_cases hx : i = x
        · subst hx
          simp [Nat.add_comm]
        · simp [hx, Ne.symm hx]
      · rw [unionStep, if_neg (not_lt.mpr h2.le), if_pos h2, qtyOf, ih2 hpost.2]
        by_cases hx : j = x
        · subst hx
          have : j ∉ ((i, qty) :: acc).map Prod.fst := by
            simp only [List.map_cons, List.mem_cons, not_or]
            exact ⟨h2.ne, fun h => absurd (hacc.1 j h) (by omega)⟩
          simp [qtyOf_of_not_mem this]
        · simp [hx, Ne.symm hx]

theorem sorted_postListUnion {acc : List (Nat × Nat)} {post : List Nat}
    (hacc : (acc.map Prod.fst).Sorted (· < ·)) (hpost : post.Sorted (· < ·)) :
    ((postListUnion s acc post).map Prod.fst).Sorted (· < ·) := by
  induction acc generalizing post with
  | nil => simpa [postListUnion, Function.comp_def] using hpost
  | cons e acc ih =>
    obtain ⟨i, qty⟩ := e
    rw [List.map_cons, List.sorted_cons] at hacc
    rw [postListUnion_cons]
    induction post with
    | nil =>
      rw [unionStep, List.map_cons, List.sorted_cons]
      refine ⟨fun b hb => ?_, ih hacc.2 List.sorted_nil⟩
      rcases (mem_postListUnion acc [] b).mp hb with hb | hb
      · exact hacc.1 b hb
      · exact absurd hb (List.not_mem_nil b)
    | cons j post ih2 =>
      rw [List.sorted_cons] at hpost
      rcases lt_trichotomy i j with h1 | rfl | h2
      · rw [unionStep, if_pos h1, List.map_cons, List.sorted_cons]
        refine ⟨fun b hb => ?_, ih hacc.2 (List.sorted_cons.mpr hpost)⟩
        rcases (mem_postListUnion acc _ b).mp hb with hb | hb
        · exact hacc.1 b hb
        · rcases List.mem_cons.mp hb with rfl | hb
          · exact h1
          · exact h1.trans (hpost.1 b hb)
      · rw [unionStep, if_neg (lt_irrefl i), if_neg (lt_irrefl i), List.map_cons,
          List.sorted_cons]
        refine ⟨fun b hb => ?_, ih hacc.2 hpost.2⟩
        rcases (mem_postListUnion acc _ b).mp hb with hb | hb
        · exact hacc.1 b hb
        · exact hpost.1 b hb
      · rw [unionStep, if_neg (not_lt.mpr h2.le), if_pos h2, List.map_cons, List.sorted_cons]
        refine ⟨fun b hb => ?_, ih2 hpost.2⟩
        rw [← postListUnion_cons] at hb
        rcases (mem_postListUnion _ _ b).mp hb with hb | hb
        · rcases List.mem_cons.mp hb with rfl | hb
          · exact h2
          · exact h2.trans (hacc.1 b hb)
        · exact hpost.1 b hb

end Union

/-! ## The running list -/

structure MergeInv (s : Nat) (J : List Nat) (acc : List (Nat × Nat)) : Prop where
  sorted : (acc.map Prod.fst).Sorted (· < ·)
  mem : ∀ x, x ∈ acc.map Prod.fst ↔ x ∈ J
  qty : ∀ x, qtyOf x acc = s * J.count x

namespace MergeInv
variable {s : Nat} {J : List Nat} {acc : List (Nat × Nat)}

theorem nil : MergeInv s [] [] := ⟨List.sorted_nil, by simp, fun _ => rfl⟩

theorem union (h : MergeInv s J acc) {post : List Nat} (hpost : post.Sorted (· < ·)) :
    MergeInv s (J ++ post) (postListUnion s acc post) where
  sorted := sorted_postListUnion h.sorted hpost
  mem x := by rw [mem_postListUnion, h.mem, List.mem_append]
  qty x := by
    rw [qtyOf_postListUnion h.sorted hpost, h.qty, List.count_append,
      List.count_eq_of_nodup hpost.nodup, Nat.mul_add]
    split_ifs <;> simp

theorem foldl (h : MergeInv s J acc) (posts : List (List Nat))
    (hposts : ∀ post ∈ posts, post.Sorted (· < ·)) :
    MergeInv s (J ++ posts.flatten) (posts.foldl (postListUnion s) acc) := by
  induction posts generalizing J acc with
  | nil => simpa using h
  | cons post ps ih =>
    rw [List.foldl_cons, List.flatten_cons, ← List.append_assoc]
    exact ih (h.union (hposts post (List.mem_cons_self _ _))) fun p hp =>
      hposts p (List.mem_cons_of_mem _ hp)

end MergeInv

/-! ## The two buffers -/

namespace MergeBufs
variable {s : Nat}

theorem get_step {b : MergeBufs} (hb : b.prevRes ≤ 1) (post : List Nat) :
    (b.step s post).prevRes ≤ 1 ∧
      (b.step s post).get (b.step s post).prevRes = postListUnion s (b.get b.prevRes) post ∧
      (b.step s post).get (1 - (b.step s post).prevRes) = b.get b.prevRes := by
  rcases Nat.le_one_iff_eq_zero_or_eq_one.mp hb with h | h <;> simp [step, get, h]

theorem get_foldl_step (posts : List (List Nat)) {b : MergeBufs} (hb : b.prevRes ≤ 1)
    (hne : posts ≠ []) :
    (posts.foldl (step s) b).get (1 - (posts.foldl (step s) b).prevRes) =
      posts.dropLast.foldl (postListUnion s) (b.get b.prevRes) := by
  induction posts generalizing b with
  | nil => exact absurd rfl hne
  | cons p ps ih =>
    obtain ⟨hb', hcur, hprev⟩ := get_step (s := s) hb p
    rw [List.foldl_cons]
    cases ps with
    | nil => exact hprev
    | cons q qs => rw [ih hb' (List.cons_ne_nil q qs), hcur, List.dropLast_cons₂, List.foldl_cons]

end MergeBufs

def mergeAcc (s : Nat) (posts : List (List Nat)) : List (Nat × Nat) :=
  posts.dropLast.foldl (postListUnion s) []

section Cands
variable {s : Nat} {L : List (List Nat)} {keys : List Nat}

theorem mergeCands_eq_filter (hk : ∀ k ∈ keys, idTypeLt k L.length) (t : Nat) :
    mergeCands s t L keys =
      .ok (((mergeAcc s (keys.map fun k => L.getD k [])).filter fun e => t ≤ e.2).map
        Prod.fst) := by
  rw [mergeCands, foldlM_readPostList _ hk, foldlM_pure_eq (MergeBufs.step s), ok_bind]
  by_cases hne : (keys.map fun k => L.getD k []) = []
  · rw [hne]; rfl
  · rw [MergeBufs.get_foldl_step _ (Nat.zero_le 1) hne]; rfl

/-- With strictly ascending lists, `kMerge` keeps the ids met by some key but the last whose
count reaches the threshold. -/
theorem mergeCands_eq {D : Nat} (hk : ∀ k ∈ keys, idTypeLt k L.length)
    (hstrict : ∀ post ∈ L, post.Sorted (· < ·)) (hD : ∀ post ∈ L, ∀ p ∈ post, p < D) (t : Nat) :
    mergeCands s t L keys =
      .ok (byCount D (keyPostings L keys.dropLast) fun n => 0 < n ∧ t ≤ s * n) := by
  rw [mergeCands_eq_filter hk]
  have hinv :
      MergeInv s (keyPostings L keys.dropLast) (mergeAcc s (keys.map fun k => L.getD k [])) := by
    have := MergeInv.nil.foldl (s := s) ((keys.map fun k => L.getD k []).dropLast)
      fun post hpost => by
        obtain ⟨k, -, rfl⟩ := List.mem_map.mp (List.dropLast_subset _ hpost)
        exact sorted_getD hstrict k
    rw [List.nil_append] at this
    rwa [keyPostings, List.map_dropLast]
  refine congrArg _ (eq_byCount (hinv.sorted.sublist ((List.filter_sublist _).map _)) fun x => ?_)
  simp only [List.mem_map, List.mem_filter, decide_eq_true_eq]
  constructor
  · rintro ⟨e, ⟨he, ht⟩, rfl⟩
    have hmem := (hinv.mem e.1).mp (List.mem_map_of_mem _ he)
    rw [← qtyOf_of_mem hinv.sorted.nodup he, hinv.qty] at ht
    exact ⟨lt_of_mem_keyPostings hD hmem, List.count_pos_iff.mpr hmem, ht⟩
  · rintro ⟨-, hpos, ht⟩
    obtain ⟨e, he, rfl⟩ := List.mem_map.mp ((hinv.mem x).mpr (List.count_pos_iff.mp hpos))
    refine ⟨e, ⟨he, ?_⟩, rfl⟩
    rwa [← qtyOf_of_mem hinv.sorted.nodup he, hinv.qty]

theorem mergeCands_stop {pre : List Nat} {k : Nat} (post : List Nat)
    (hpre : ∀ x ∈ pre, idTypeLt x L.length) (hbad : ¬ idTypeLt k L.length) (t : Nat) :
    mergeCands s t L (pre ++ k :: post) =
      .error (.checkFailed (toString (toIdType k) ++ " vs " ++ toString L.length)) := by
  rw [mergeCands, foldlM_readPostList_stop _ post hpre hbad (foldlM_pure_eq (MergeBufs.step s) _ _)]
  rfl

end Cands

/-! ## Counts only grow -/

def Dominated (acc acc' : List (Nat × Nat)) : Prop :=
  ∀ e ∈ acc, ∃ e' ∈ acc', e'.1 = e.1 ∧ e.2 ≤ e'.2

namespace Dominated
variable {a b c : List (Nat × Nat)}

theorem trans (h1 : Dominated a b) (h2 : Dominated b c) : Dominated a c := fun e he => by
  obtain ⟨e', he', h1', h2'⟩ := h1 e he
  obtain ⟨e'', he'', h1'', h2''⟩ := h2 e' he'
  exact ⟨e'', he'', h1''.trans h1', h2'.trans h2''⟩

theorem cons_right (h : Dominated a b) (x : Nat × Nat) : Dominated a (x :: b) := fun e he => by
  obtain ⟨e', he', h1, h2⟩ := h e he
  exact ⟨e', List.mem_cons_of_mem x he', h1, h2⟩

theorem cons (h : Dominated a b) {i q q' : Nat} (hq : q ≤ q') :
    Dominated ((i, q) :: a) ((i, q') :: b) := fun e he => by
  rcases List.mem_cons.mp he with rfl | he
  · exact ⟨_, List.mem_cons_self _ _, rfl, hq⟩
  · exact h.cons_right _ e he

end Dominated

section Grow
variable {s : Nat}

end Grow

/-! ## Counts are bounded -/

def CountBound (s : Nat) (J : List Nat) (acc : List (Nat × Nat)) : Prop :=
  ∀ e ∈ acc, 0 < J.count e.1 ∧ e.2 ≤ s * J.count e.1

namespace CountBound
variable {s : Nat} {J : List Nat} {acc : List (Nat × Nat)}

theorem nil : CountBound s J [] := fun e he => absurd he (List.not_mem_nil e)

theorem mono (h : CountBound s J acc) {J' : List Nat} (hJ : J.Sublist J') : CountBound s J' acc :=
  fun e he => ⟨(h e he).1.trans_le (hJ.count_le _),
    (h e he).2.trans (Nat.mul_le_mul_left s (hJ.count_le _))⟩

theorem union (h : CountBound s J acc) (post : List Nat) :
    CountBound s (J ++ post) (postListUnion s acc post) := by
  induction acc generalizing post with
  | nil =>
    intro e he
    obtain ⟨j, hj, rfl⟩ := List.mem_map.mp he
    have : 0 < (J ++ post).count j := List.count_pos_iff.mpr (List.mem_append_right J hj)
    exact ⟨this, Nat.le_mul_of_pos_right s this⟩
  | cons d acc ih =>
    obtain ⟨i, qty⟩ := d
    have hd : CountBound s J [(i, qty)] := fun e he =>
      List.mem_singleton.mp he ▸ h _ (List.mem_cons_self _ _)
    have hacc : CountBound s J acc := fun e he => h e (List.mem_cons_of_mem _ he)
    have hsub (j : Nat) (l : List Nat) : (J ++ l).Sublist (J ++ j :: l) :=
      (List.sublist_cons_self j l).append_left J
    rw [postListUnion_cons]
    induction post with
    | nil =>
      refine List.forall_mem_cons.mpr ⟨?_, ih hacc []⟩
      rw [List.append_nil]
      exact hd _ (List.mem_singleton_self _)
    | cons j post ih2 =>
      rw [unionStep]
      split_ifs with h1 h2
      · exact List.forall_mem_cons.mpr ⟨(hd.mono (List.sublist_append_left J _)) _
          (List.mem_singleton_self _), ih hacc _⟩
      · have : 0 < (J ++ j :: post).count j :=
          List.count_pos_iff.mpr (List.mem_append_right J (List.mem_cons_self j post))
        exact List.forall_mem_cons.mpr ⟨⟨this, Nat.le_mul_of_pos_right s this⟩,
          ih2.mono (hsub j post)⟩
      · -- a match: one posting of `i` adds `skip_val_`
        obtain rfl : i = j := by omega
        have hi := hd _ (List.mem_singleton_self _)
        have hc : (J ++ i :: post).count i = J.count i + post.count i + 1 := by
          rw [List.count_append, List.count_cons_self]; omega
        refine List.forall_mem_cons.mpr ⟨⟨show 0 < (J ++ i :: post).count i by omega,
          show qty + s ≤ s * (J ++ i :: post).count i from ?_⟩, (ih hacc post).mono (hsub i post)⟩
        calc qty + s ≤ s * J.count i + s := Nat.add_le_add_right hi.2 s
          _ ≤ s * (J ++ i :: post).count i := by rw [hc, Nat.mul_succ, Nat.mul_add]; omega

theorem foldl (h : CountBound s J acc) (posts : List (List Nat)) :
    CountBound s (J ++ posts.flatten) (posts.foldl (postListUnion s) acc) := by
  induction posts generalizing J acc with
  | nil => simpa using h
  | cons post ps ih =>
    rw [List.foldl_cons, List.flatten_cons, ← List.append_assoc]
    exact ih (h.union post)

end CountBound

end PivotInvIndex
