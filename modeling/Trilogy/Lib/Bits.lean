import Mathlib.Data.Nat.Bitwise
import Mathlib.Data.List.Basic
import Mathlib.Tactic.Ring
import Trilogy.Lib.Bytes

namespace Lib

def bitsToNat : List Bool → Nat
  | [] => 0
  | b :: bs => b.toNat + 2 * bitsToNat bs

theorem bitsToNat_lt (bs : List Bool) : bitsToNat bs < 2 ^ bs.length := by
  induction bs with
  | nil => simp [bitsToNat]
  | cons b bs ih =>
    have hb : b.toNat ≤ 1 := Bool.toNat_le b
    simp only [bitsToNat, List.length_cons, pow_succ]
    omega

theorem bitsToNat_append (bs : List Bool) (b : Bool) :
    bitsToNat (bs ++ [b]) = bitsToNat bs + 2 ^ bs.length * b.toNat := by
  induction bs with
  | nil => simp [bitsToNat]
  | cons a bs ih =>
    simp only [List.cons_append, bitsToNat, ih, List.length_cons, pow_succ]
    ring

theorem testBit_bitsToNat (bs : List Bool) (j : Nat) :
    (bitsToNat bs).testBit j = bs.getD j false := by
  induction bs generalizing j with
  | nil => simp [bitsToNat]
  | cons b bs ih =>
    have hb : b.toNat ≤ 1 := Bool.toNat_le b
    cases j with
    | zero =>
      simp only [bitsToNat, Nat.testBit_zero, List.getD_cons_zero]
      cases b <;> simp
    | succ j =>
      rw [List.getD_cons_succ, ← ih, Nat.testBit_succ]
      congr 1
      simp only [bitsToNat]
      omega

def packBits (bs : List Bool) : List UInt8 :=
  (List.range ((bs.length + 7) / 8)).map fun k =>
    UInt8.ofNat (bitsToNat ((bs.drop (8 * k)).take 8))

@[simp] theorem length_packBits (bs : List Bool) : (packBits bs).length = (bs.length + 7) / 8 := by
  simp [packBits]

theorem packBits_append {bs : List Bool} (h : bs.length = 8) (rest : List Bool) :
    packBits (bs ++ rest) = UInt8.ofNat (bitsToNat bs) :: packBits rest := by
  have hk : ((bs ++ rest).length + 7) / 8 = (rest.length + 7) / 8 + 1 := by
    rw [List.length_append]
    omega
  rw [packBits, hk, List.range_succ_eq_map, List.map_cons, List.map_map]
  congr 1
  · rw [Nat.mul_zero, List.drop_zero, List.take_left' h]
  · apply List.map_congr_left
    intro k _
    have hd : 8 * Nat.succ k = bs.length + 8 * k := by omega
    simp only [Function.comp_apply, hd, ← List.drop_drop, List.drop_left]

/-- What is left over goes into one more byte. -/
theorem packBits_of_le {bs : List Bool} (h : bs.length ≤ 8) (pos : 0 < bs.length) :
    packBits bs = [UInt8.ofNat (bitsToNat bs)] := by
  have hk : (bs.length + 7) / 8 = 1 := by omega
  rw [packBits, hk]
  simp [List.take_of_length_le h]

/-- Every bit is in its place, and the padding is zero. -/
theorem testBit_packBits (bs : List Bool) (i : Nat) :
    ((packBits bs).getD (i / 8) 0).toNat.testBit (i % 8) = bs.getD i false := by
  have hmod : i % 8 < 8 := Nat.mod_lt _ (by decide)
  rcases Nat.lt_or_ge (i / 8) ((bs.length + 7) / 8) with hlt | hge
  · have hget : (packBits bs).getD (i / 8) 0 =
        UInt8.ofNat (bitsToNat ((bs.drop (8 * (i / 8))).take 8)) := by
      rw [List.getD_eq_getElem _ _ (by simpa using hlt)]
      simp [packBits]
    have hlen : bitsToNat ((bs.drop (8 * (i / 8))).take 8) < 2 ^ 8 :=
      (bitsToNat_lt _).trans_le (Nat.pow_le_pow_right Nat.two_pos (List.length_take_le _ _))
    rw [hget, UInt8.toNat_ofNat', Nat.mod_eq_of_lt hlen, testBit_bitsToNat]
    rw [List.getD_eq_getElem?_getD, List.getElem?_take, if_pos hmod, List.getElem?_drop,
      Nat.div_add_mod, ← List.getD_eq_getElem?_getD]
  · have hlen : bs.length ≤ i := by omega
    rw [List.getD_eq_default _ _ (by simpa using hge), List.getD_eq_default _ _ hlen]
    simp

/-- `byte & (1 << j)`, as a condition. -/
theorem and_shift_ne_zero (b : UInt8) {j : Nat} (h : j < 8) :
    (b &&& (1 <<< UInt8.ofNat j) != 0) = b.toNat.testBit j := by
  have hs : ((1 : UInt8) <<< UInt8.ofNat j).toNat = 2 ^ j := by
    have : ∀ j < 8, ((1 : UInt8) <<< UInt8.ofNat j).toNat = 2 ^ j := by decide
    exact this j h
  have hand : (b &&& (1 <<< UInt8.ofNat j)).toNat = (b.toNat.testBit j).toNat * 2 ^ j := by
    rw [UInt8.toNat_and, hs, Nat.and_two_pow]
  have hpow : 2 ^ j ≠ 0 := (Nat.two_pow_pos j).ne'
  rw [Bool.eq_iff_iff, bne_iff_ne, ne_eq, ← UInt8.toNat_inj, hand]
  cases b.toNat.testBit j <;> simp

/-- Setting the bit above the bits that are there. -/
theorem ofNat_or_shift {bs : List Bool} (h : bs.length < 8) (b : Bool) :
    (if b then UInt8.ofNat (bitsToNat bs) ||| (1 <<< UInt8.ofNat bs.length)
      else UInt8.ofNat (bitsToNat bs)) = UInt8.ofNat (bitsToNat (bs ++ [b])) := by
  cases b with
  | false => simp [bitsToNat_append]
  | true =>
    have hlt := bitsToNat_lt bs
    have h8 : 2 ^ bs.length ≤ 2 ^ 7 := Nat.pow_le_pow_right Nat.two_pos (by omega)
    have hs : ((1 : UInt8) <<< UInt8.ofNat bs.length).toNat = 2 ^ bs.length := by
      have : ∀ j < 8, ((1 : UInt8) <<< UInt8.ofNat j).toNat = 2 ^ j := by decide
      exact this _ h
    apply UInt8.toNat_inj.mp
    rw [if_pos rfl, UInt8.toNat_or, hs, UInt8.toNat_ofNat', UInt8.toNat_ofNat', bitsToNat_append,
      Nat.mod_eq_of_lt (by omega), Nat.mod_eq_of_lt (by simp only [Bool.toNat_true]; omega)]
    have := or_shiftLeft hlt 1
    rwa [Nat.shiftLeft_eq, Nat.one_mul] at this

end Lib
