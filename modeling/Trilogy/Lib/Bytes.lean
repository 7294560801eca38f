import Mathlib.Data.List.Basic
import Mathlib.Tactic.Ring

namespace Lib

def leBytes : Nat → Nat → List UInt8
  | 0, _ => []
  | k + 1, n => UInt8.ofNat n :: leBytes k (n / 256)

def ofLeBytes : List UInt8 → Nat
  | [] => 0
  | b :: bs => b.toNat + 256 * ofLeBytes bs

@[simp] theorem length_leBytes (k n : Nat) : (leBytes k n).length = k := by
  induction k generalizing n with
  | zero => rfl
  | succ k ih => simp [leBytes, ih]

theorem ofLeBytes_lt (bs : List UInt8) : ofLeBytes bs < 256 ^ bs.length := by
  induction bs with
  | nil => simp [ofLeBytes]
  | cons b bs ih =>
    have hb := b.toNat_lt
    simp only [ofLeBytes, List.length_cons, pow_succ]
    omega

theorem ofLeBytes_leBytes (k n : Nat) : ofLeBytes (leBytes k n) = n % 256 ^ k := by
  induction k generalizing n with
  | zero => simp [leBytes, ofLeBytes, Nat.mod_one]
  | succ k ih =>
    rw [leBytes, ofLeBytes, ih, pow_succ', Nat.mod_mul, UInt8.toNat_ofNat']

theorem ofLeBytes_leBytes_of_lt {k n : Nat} (h : n < 256 ^ k) : ofLeBytes (leBytes k n) = n := by
  rw [ofLeBytes_leBytes, Nat.mod_eq_of_lt h]

theorem leBytes_mod (k n : Nat) : leBytes k (n % 256 ^ k) = leBytes k n := by
  induction k generalizing n with
  | zero => rfl
  | succ k ih =>
    have hd : n % 256 ^ (k + 1) / 256 = n / 256 % 256 ^ k := by
      rw [pow_succ', Nat.mod_mul_right_div_self]
    have hm : UInt8.ofNat (n % 256 ^ (k + 1)) = UInt8.ofNat n := by
      apply UInt8.toNat_inj.mp
      simp only [UInt8.toNat_ofNat']
      exact Nat.mod_mod_of_dvd _ (pow_succ' 256 k ▸ Dvd.intro _ rfl)
    rw [leBytes, leBytes, hm, hd, ih]

theorem leBytes_ofLeBytes (bs : List UInt8) : leBytes bs.length (ofLeBytes bs) = bs := by
  induction bs with
  | nil => rfl
  | cons b bs ih =>
    have hb := b.toNat_lt
    have hd : (b.toNat + 256 * ofLeBytes bs) / 256 = ofLeBytes bs := by omega
    have hm : UInt8.ofNat (b.toNat + 256 * ofLeBytes bs) = b := by
      apply UInt8.toNat_inj.mp
      rw [UInt8.toNat_ofNat']
      omega
    rw [List.length_cons, leBytes, ofLeBytes, hd, hm, ih]

theorem leBytes_shift (n : Nat) : leBytes 8 n =
    [UInt8.ofNat n, UInt8.ofNat (n >>> 8), UInt8.ofNat (n >>> 16), UInt8.ofNat (n >>> 24),
      UInt8.ofNat (n >>> 32), UInt8.ofNat (n >>> 40), UInt8.ofNat (n >>> 48),
      UInt8.ofNat (n >>> 56)] := by
  simp [leBytes, Nat.shiftRight_eq_div_pow, Nat.div_div_eq_div_mul]

theorem leBytes_take {j k : Nat} (h : j ≤ k) (n : Nat) : (leBytes k n).take j = leBytes j n := by
  induction j generalizing k n with
  | zero => rfl
  | succ j ih =>
    obtain ⟨k, rfl⟩ : ∃ k', k = k' + 1 := ⟨k - 1, by omega⟩
    simp [leBytes, ih (Nat.le_of_succ_le_succ h)]

theorem or_shiftLeft {a i : Nat} (h : a < 2 ^ i) (b : Nat) : a ||| b <<< i = a + 2 ^ i * b := by
  rw [Nat.or_comm, ← Nat.shiftLeft_add_eq_or_of_lt h, Nat.shiftLeft_eq]
  ring

/-- The next byte, shifted into place in a word of `w` bits. -/
theorem or_shiftLeft_mod {a b i w : Nat} (ha : a < 2 ^ i) (hb : b < 2 ^ 8) (hw : i + 8 ≤ w) :
    a ||| b <<< i % 2 ^ w = a + 2 ^ i * b := by
  have hlt : b <<< i < 2 ^ w := by
    calc b <<< i = b * 2 ^ i := Nat.shiftLeft_eq b i
      _ < 2 ^ 8 * 2 ^ i := Nat.mul_lt_mul_of_pos_right hb (Nat.two_pow_pos i)
      _ = 2 ^ (i + 8) := by rw [Nat.add_comm, pow_add]
      _ ≤ 2 ^ w := Nat.pow_le_pow_right Nat.two_pos hw
  rw [Nat.mod_eq_of_lt hlt, or_shiftLeft ha]

/-- Masking twice with an operation that undoes itself. -/
theorem zipWith_cancel {α : Type} {f : α → α → α} (cancel : ∀ a b, f (f a b) b = a)
    {xs ys : List α} (h : xs.length ≤ ys.length) :
    List.zipWith f (List.zipWith f xs ys) ys = xs := by
  induction xs generalizing ys with
  | nil => rfl
  | cons x xs ih =>
    cases ys with
    | nil => cases h
    | cons y ys =>
      rw [List.zipWith_cons_cons, List.zipWith_cons_cons, cancel, ih (Nat.le_of_succ_le_succ h)]

end Lib
