import PivotInvIndex.Encoding.Defs
import Mathlib.Data.Nat.Choose.Basic
import Mathlib.Tactic.Ring

/-! `PAIR` and `TRIPLE` are the combinatorial number system of degree two and
three: a pair or triple of distinct pivots is fixed by its index, and the index
of pivots below `N` lies below `C(N, 2)` or `C(N, 3)`. -/

namespace PivotInvIndex

theorem choose_two_eq (n : Nat) : n * (n - 1) / 2 = n.choose 2 := (Nat.choose_two_right n).symm

theorem choose_three_eq (n : Nat) : n * (n - 1) * (n - 2) / 6 = n.choose 3 := by
  rw [Nat.choose_eq_descFactorial_div_factorial]
  simp only [Nat.descFactorial_succ, Nat.descFactorial_zero, Nat.sub_zero]
  congr 1
  ring

theorem choose_two_add_lt {x y : Nat} (h : x < y) : y.choose 2 + x < (y + 1).choose 2 := by
  rw [show (2 : Nat) = 1 + 1 from rfl, Nat.choose_succ_succ', Nat.choose_one_right]
  omega

theorem eq_of_window {f : Nat → Nat} (hf : Monotone f) {y y' u u' : Nat}
    (hu : f y + u < f (y + 1)) (hu' : f y' + u' < f (y' + 1)) (he : f y + u = f y' + u') :
    y = y' := by
  by_contra hne
  rcases Nat.lt_or_gt_of_ne hne with hlt | hlt
  · have := hf (show y + 1 ≤ y' from hlt); omega
  · have := hf (show y' + 1 ≤ y from hlt); omega

/-! ## Pairs -/

theorem postingListIndex_comm (x y : Nat) : postingListIndex x y = postingListIndex y x := by
  simp only [postingListIndex, max_comm, min_comm]

theorem postingListIndex_of_lt {x y : Nat} (h : x < y) : postingListIndex x y = y.choose 2 + x := by
  rw [postingListIndex, max_eq_right h.le, min_eq_left h.le, choose_two_eq]

theorem postingListIndex_lt {x y N : Nat} (h : x < y) (hy : y < N) :
    postingListIndex x y < N.choose 2 := by
  rw [postingListIndex_of_lt h]
  exact lt_of_lt_of_le (choose_two_add_lt h) (Nat.choose_le_choose 2 hy)

theorem postingListIndex_inj {x y x' y' : Nat} (h : x < y) (h' : x' < y')
    (he : postingListIndex x y = postingListIndex x' y') : x = x' ∧ y = y' := by
  rw [postingListIndex_of_lt h, postingListIndex_of_lt h'] at he
  have hy := eq_of_window (Nat.choose_mono 2) (choose_two_add_lt h) (choose_two_add_lt h') he
  subst hy
  exact ⟨by omega, rfl⟩

theorem postingListIndex_eq_iff {x y x' y' : Nat} (h : x ≠ y) (h' : x' ≠ y') :
    postingListIndex x y = postingListIndex x' y' ↔ (x = x' ∧ y = y') ∨ (x = y' ∧ y = x') := by
  constructor
  · intro he
    rcases Nat.lt_or_gt_of_ne h with hl | hl <;> rcases Nat.lt_or_gt_of_ne h' with hl' | hl'
    · exact .inl (postingListIndex_inj hl hl' he)
    · rw [postingListIndex_comm x' y'] at he
      exact .inr (postingListIndex_inj hl hl' he)
    · rw [postingListIndex_comm x y] at he
      exact .inr ((postingListIndex_inj hl hl' he).symm)
    · rw [postingListIndex_comm x y, postingListIndex_comm x' y'] at he
      exact .inl ((postingListIndex_inj hl hl' he).symm)
  · rintro (⟨rfl, rfl⟩ | ⟨rfl, rfl⟩)
    · rfl
    · exact postingListIndex_comm _ _

/-! ## Triples -/

def hiOf (x y z : Nat) : Nat := max x (max y z)

def loOf (x y z : Nat) : Nat := min x (min y z)

def midOf (x y z : Nat) : Nat := x + y + z - hiOf x y z - loOf x y z

theorem postingListIndex3_eq (x y z : Nat) :
    postingListIndex3 x y z = (hiOf x y z).choose 3 + (midOf x y z).choose 2 + loOf x y z := by
  simp only [postingListIndex3, hiOf, loOf, midOf, choose_two_eq, choose_three_eq]

theorem sorted_of_ne {x y z : Nat} (hxy : x ≠ y) (hxz : x ≠ z) (hyz : y ≠ z) :
    loOf x y z < midOf x y z ∧ midOf x y z < hiOf x y z := by
  simp only [loOf, midOf, hiOf]
  rcases Nat.lt_or_gt_of_ne hxy with h1 | h1 <;> rcases Nat.lt_or_gt_of_ne hxz with h2 | h2 <;>
    rcases Nat.lt_or_gt_of_ne hyz with h3 | h3 <;>
    simp only [max_eq_left, max_eq_right, min_eq_left, min_eq_right, h1.le, h2.le, h3.le] <;> omega

theorem mem_sorted (x y z v : Nat) :
    (v = x ∨ v = y ∨ v = z) ↔ (v = loOf x y z ∨ v = midOf x y z ∨ v = hiOf x y z) := by
  simp only [loOf, midOf, hiOf]
  rcases le_total x y with h1 | h1 <;> rcases le_total x z with h2 | h2 <;>
    rcases le_total y z with h3 | h3 <;>
    simp only [max_eq_left, max_eq_right, min_eq_left, min_eq_right, h1, h2, h3] <;>
    constructor <;> rintro (rfl | rfl | rfl) <;> omega

theorem postingListIndex3_of_lt {a b c : Nat} (hab : a < b) (hbc : b < c) :
    postingListIndex3 a b c = c.choose 3 + b.choose 2 + a := by
  have hs : hiOf a b c = c ∧ midOf a b c = b ∧ loOf a b c = a := by
    simp only [hiOf, midOf, loOf, max_eq_left, max_eq_right, min_eq_left, min_eq_right, hab.le,
      hbc.le, (hab.trans hbc).le, true_and, and_true]
    omega
  rw [postingListIndex3_eq, hs.1, hs.2.1, hs.2.2]

theorem postingListIndex3_of_mem {a b c u v w : Nat} (ha : a = u ∨ a = v ∨ a = w)
    (hb : b = u ∨ b = v ∨ b = w) (hc : c = u ∨ c = v ∨ c = w) (hab : a ≠ b) (hac : a ≠ c)
    (hbc : b ≠ c) (huv : u < v) (hvw : v < w) :
    postingListIndex3 a b c = postingListIndex3 u v w := by
  have huw := huv.trans hvw
  have hs : hiOf a b c = w ∧ midOf a b c = v ∧ loOf a b c = u := by
    rcases ha with rfl | rfl | rfl <;> rcases hb with rfl | rfl | rfl <;>
      rcases hc with rfl | rfl | rfl <;>
      first | exact absurd rfl hab | exact absurd rfl hac | exact absurd rfl hbc |
        (simp only [hiOf, midOf, loOf, max_eq_left, max_eq_right, min_eq_left, min_eq_right,
          huv.le, hvw.le, huw.le, true_and, and_true]; omega)
  rw [postingListIndex3_eq, hs.1, hs.2.1, hs.2.2, postingListIndex3_of_lt huv hvw]

theorem choose_three_add_lt {a b c : Nat} (hab : a < b) (hbc : b < c) :
    c.choose 3 + (b.choose 2 + a) < (c + 1).choose 3 := by
  have h1 := choose_two_add_lt hab
  have h2 := Nat.choose_le_choose 2 (show b + 1 ≤ c from hbc)
  rw [show (3 : Nat) = 2 + 1 from rfl, Nat.choose_succ_succ' c 2]
  omega

theorem postingListIndex3_lt {a b c N : Nat} (hab : a < b) (hbc : b < c) (hc : c < N) :
    postingListIndex3 a b c < N.choose 3 := by
  rw [postingListIndex3_of_lt hab hbc, Nat.add_assoc]
  exact lt_of_lt_of_le (choose_three_add_lt hab hbc) (Nat.choose_le_choose 3 hc)

/-- `TRIPLE` of three distinct pivots determines the set of them. -/
theorem postingListIndex3_inj {x y z x' y' z' : Nat} (hxy : x ≠ y) (hxz : x ≠ z) (hyz : y ≠ z)
    (hxy' : x' ≠ y') (hxz' : x' ≠ z') (hyz' : y' ≠ z')
    (he : postingListIndex3 x y z = postingListIndex3 x' y' z') (v : Nat) :
    (v = x ∨ v = y ∨ v = z) ↔ (v = x' ∨ v = y' ∨ v = z') := by
  obtain ⟨hl, hm⟩ := sorted_of_ne hxy hxz hyz
  obtain ⟨hl', hm'⟩ := sorted_of_ne hxy' hxz' hyz'
  rw [postingListIndex3_eq, postingListIndex3_eq, Nat.add_assoc, Nat.add_assoc] at he
  have hhi := eq_of_window (Nat.choose_mono 3) (choose_three_add_lt hl hm)
    (choose_three_add_lt hl' hm') he
  rw [hhi, Nat.add_left_cancel_iff] at he
  have hmid := eq_of_window (Nat.choose_mono 2) (choose_two_add_lt hl) (choose_two_add_lt hl') he
  rw [hmid, Nat.add_left_cancel_iff] at he
  rw [mem_sorted x y z, mem_sorted x' y' z', hhi, hmid, he]

/-! ## The number of posting lists -/

theorem getPostQtys_two {N s : Nat} (hs : 0 < s) :
    getPostQtys N 2 s = .ok ((N.choose 2 + s - 1) / s) := by
  simp only [getPostQtys, Nat.pos_iff_ne_zero.mp hs, if_false, choose_two_eq]

theorem getPostQtys_one {N s : Nat} (hs : 0 < s) : getPostQtys N 1 s = .ok ((N + s - 1) / s) := by
  simp only [getPostQtys, Nat.pos_iff_ne_zero.mp hs, if_false]

theorem getPostQtys_three {N s : Nat} (hs : 0 < s) :
    getPostQtys N 3 s = .ok ((N.choose 3 + s - 1) / s) := by
  simp only [getPostQtys, Nat.pos_iff_ne_zero.mp hs, if_false, choose_three_eq]

theorem div_lt_ceil {i C s : Nat} (hs : 0 < s) (hi : i < C) : i / s < (C + s - 1) / s := by
  apply Nat.lt_of_succ_le
  rw [Nat.le_div_iff_mul_le hs, Nat.succ_mul]
  have := Nat.div_mul_le_self i s
  omega

end PivotInvIndex
