import Mathlib.Data.List.Basic
import Mathlib.Tactic.Ring

/-!
# Little-endian numbers

A byte string of fixed width and the number it spells, least significant byte first.
-/

namespace Lib

abbrev Bytes := List UInt8

/-- The number that a byte string spells, least significant byte first. -/
def leValue : Bytes → Nat
  | [] => 0
  | b :: bs => b.toNat + 256 * leValue bs

/-- The `n` low bytes of `v`, least significant first. -/
def leBytes : Nat → Nat → Bytes
  | 0, _ => []
  | n + 1, v => UInt8.ofNat v :: leBytes n (v / 256)

@[simp] theorem length_leBytes : ∀ (n v : Nat), (leBytes n v).length = n := by
  intro n
  induction n with
  | zero => exact fun _ => rfl
  | succ n ih =>
    intro v
    simp [leBytes, ih (v / 256)]

/-- Writing a number and reading it back keeps its low `n` bytes. -/
theorem leValue_leBytes : ∀ (n v : Nat), leValue (leBytes n v) = v % 256 ^ n := by
  intro n
  induction n with
  | zero =>
    intro v
    simp [leBytes, leValue, Nat.mod_one]
  | succ n ih =>
    intro v
    have hlow : (UInt8.ofNat v).toNat = v % 256 := UInt8.toNat_ofNat'
    rw [leBytes, leValue, ih, hlow, Nat.pow_succ', Nat.mod_mul]

theorem leValue_leBytes_of_lt {n v : Nat} (h : v < 256 ^ n) : leValue (leBytes n v) = v := by
  rw [leValue_leBytes, Nat.mod_eq_of_lt h]

/-- Reading a string of `n` bytes and writing the number gives the string back. -/
theorem leBytes_leValue : ∀ (bs : Bytes), leBytes bs.length (leValue bs) = bs := by
  intro bs
  induction bs with
  | nil => rfl
  | cons b bs ih =>
    have hb : b.toNat < 256 := b.toNat_lt
    have hlow : UInt8.ofNat (b.toNat + 256 * leValue bs) = b := by
      apply UInt8.toNat_inj.mp
      rw [UInt8.toNat_ofNat']
      omega
    have hhigh : (b.toNat + 256 * leValue bs) / 256 = leValue bs := by omega
    rw [leValue, List.length_cons, leBytes, hlow, hhigh, ih]

end Lib
