import Mathlib.Algebra.Ring.Nat

/-!
# Rounding addresses to pages

A page is a power of two bytes. An address is rounded to one with a mask.

* `toNat_alignDown` — the mask rounds down
* `covers` — the pages between the rounded ends of a range have all of its bytes
-/

namespace Lib

variable {w k : Nat}

/-- The start of the page of an address. -/
def alignDown (page x : BitVec w) : BitVec w := x &&& ~~~(page - 1)

/-- The end of the page before which an address is. -/
def alignUp (page x : BitVec w) : BitVec w := (x + page - 1) &&& ~~~(page - 1)

theorem toNat_one_of_lt (hk : k < w) : (1 : BitVec w).toNat = 1 := by
  show (BitVec.ofNat w 1).toNat = 1
  rw [BitVec.toNat_ofNat, Nat.mod_eq_of_lt (Nat.one_lt_two_pow (by omega))]

theorem one_le_twoPow (hk : k < w) : (1 : BitVec w) ≤ BitVec.twoPow w k := by
  rw [BitVec.le_def, toNat_one_of_lt hk, BitVec.toNat_twoPow_of_lt hk]
  exact Nat.two_pow_pos k

theorem toNat_twoPow_sub_one (hk : k < w) : (BitVec.twoPow w k - 1).toNat = 2 ^ k - 1 := by
  rw [BitVec.toNat_sub_of_le (one_le_twoPow hk), BitVec.toNat_twoPow_of_lt hk, toNat_one_of_lt hk]

/-- The mask clears the bits below the page size. -/
theorem alignDown_twoPow (hk : k < w) (x : BitVec w) :
    alignDown (BitVec.twoPow w k) x = (x >>> k) <<< k := by
  apply BitVec.eq_of_getLsbD_eq
  intro i hi
  have hmask : (BitVec.twoPow w k - 1).getLsbD i = decide (i < k) := by
    rw [BitVec.getLsbD, toNat_twoPow_sub_one hk, Nat.testBit_two_pow_sub_one]
  rw [alignDown, BitVec.getLsbD_and, BitVec.getLsbD_not, hmask, BitVec.getLsbD_shiftLeft,
    BitVec.getLsbD_ushiftRight]
  by_cases hik : i < k
  · simp [hik]
  · have hsum : k + (i - k) = i := by omega
    simp [hik, hi, hsum]

theorem toNat_alignDown (hk : k < w) (x : BitVec w) :
    (alignDown (BitVec.twoPow w k) x).toNat = x.toNat / 2 ^ k * 2 ^ k := by
  rw [alignDown_twoPow hk, BitVec.toNat_shiftLeft, BitVec.toNat_ushiftRight, Nat.shiftLeft_eq,
    Nat.shiftRight_eq_div_pow]
  exact Nat.mod_eq_of_lt (Nat.lt_of_le_of_lt (Nat.div_mul_le_self _ _) x.isLt)

theorem toNat_alignUp (hk : k < w) {x : BitVec w} (hx : x.toNat + 2 ^ k ≤ 2 ^ w) :
    (alignUp (BitVec.twoPow w k) x).toNat = (x.toNat + 2 ^ k - 1) / 2 ^ k * 2 ^ k := by
  have hpos := Nat.two_pow_pos k
  have hsum : (x + BitVec.twoPow w k - 1).toNat = x.toNat + 2 ^ k - 1 := by
    rw [BitVec.toNat_sub, BitVec.toNat_add, BitVec.toNat_twoPow_of_lt hk, toNat_one_of_lt hk]
    rcases Nat.lt_or_eq_of_le hx with hlt | heq
    · rw [Nat.mod_eq_of_lt hlt, show 2 ^ w - 1 + (x.toNat + 2 ^ k) =
        x.toNat + 2 ^ k - 1 + 2 ^ w by omega, Nat.add_mod_right, Nat.mod_eq_of_lt (by omega)]
    · rw [heq, Nat.mod_self, Nat.add_zero, Nat.mod_eq_of_lt (by omega)]
  have hdown := toNat_alignDown hk (x + BitVec.twoPow w k - 1)
  rw [hsum] at hdown
  exact hdown

/-- **The pages between the rounded ends have all bytes of the range.** -/
theorem covers (hk : k < w) {a b : BitVec w} (hb : b.toNat + 2 ^ k ≤ 2 ^ w) {i : Nat}
    (ha : a.toNat ≤ i) (hi : i < b.toNat) :
    (alignDown (BitVec.twoPow w k) a).toNat ≤ i / 2 ^ k * 2 ^ k ∧
      i / 2 ^ k * 2 ^ k < (alignUp (BitVec.twoPow w k) b).toNat := by
  have hpos := Nat.two_pow_pos k
  rw [toNat_alignDown hk, toNat_alignUp hk hb]
  refine ⟨Nat.mul_le_mul_right _ (Nat.div_le_div_right ha), ?_⟩
  refine Nat.mul_lt_mul_of_pos_right ?_ hpos
  have hnext : (i + 2 ^ k) / 2 ^ k ≤ (b.toNat + 2 ^ k - 1) / 2 ^ k :=
    Nat.div_le_div_right (by omega)
  rw [Nat.add_div_right i hpos] at hnext
  exact hnext

end Lib
