import Mathlib.Data.List.GetD
import Mathlib.Tactic.Ring
import Trilogy.Lib.Proc
import Trilogy.Code

/-! `trilogy_buffer_t` with its storage: `bytes` is `buff[0 .. len)` and `stale` is
what earlier contents left behind in the allocation after it. A buffer that was
freed (`buff == NULL`) is not a `Buffer`, and every buffer has room for
something, which is what makes the doubling loop of `expand` end. -/
namespace Trilogy

open Lib

/-- Which sizes `realloc` can provide. -/
abbrev Alloc := Nat → Bool

structure Buffer where
  bytes : List UInt8
  stale : List UInt8
  cap : Nat
  cap_pos : 0 < cap
  deriving DecidableEq

namespace Buffer

def len (b : Buffer) : Nat := b.bytes.length

/-- `buff[i]`, also behind the end. -/
def byteAt (b : Buffer) (i : Nat) : UInt8 := (b.bytes ++ b.stale).getD i 0

/-- The doubling loop. A turn either stops or doubles, so from a positive
capacity `growCap_ne_none` allows 65 of them; `none` is a loop that goes on. -/
def growCap (target : Nat) : Nat → Nat → Option (Except Code Nat)
  | 0, _ => none
  | turns + 1, newCap =>
    if target > newCap then
      if newCap > sizeMax / 2 then some (.error .typeOverflow)
      else growCap target turns (newCap * 2)
    else some (.ok newCap)

theorem growCap_le {target turns cap c : Nat} (h : growCap target turns cap = some (.ok c)) :
    cap ≤ c := by
  induction turns generalizing cap with
  | zero => cases h
  | succ turns ih =>
    simp only [growCap] at h
    split at h
    · split at h
      · cases h
      · have := ih h
        omega
    · cases h
      exact Nat.le_refl _

theorem growCap_error {target turns cap : Nat} {rc : Code}
    (h : growCap target turns cap = some (.error rc)) : rc = .typeOverflow := by
  induction turns generalizing cap with
  | zero => cases h
  | succ turns ih =>
    simp only [growCap] at h
    split at h
    · split at h
      · cases h
        rfl
      · exact ih h
    · cases h

theorem growCap_ne_none {target turns cap : Nat} (h : sizeMax / 2 < cap * 2 ^ turns) :
    growCap target (turns + 1) cap ≠ none := by
  induction turns generalizing cap with
  | zero =>
    simp only [pow_zero, mul_one] at h
    simp only [growCap, h, if_true]
    split <;> simp
  | succ turns ih =>
    rw [growCap]
    split
    · split
      · simp
      · exact ih (by rwa [mul_assoc, ← pow_succ'])
    · simp

theorem growCap_ok {target turns cap : Nat} (h : target ≤ cap * 2 ^ turns)
    (ht : target ≤ 2 ^ 63) : ∃ c, growCap target (turns + 1) cap = some (.ok c) := by
  induction turns generalizing cap with
  | zero =>
    simp only [pow_zero, mul_one] at h
    exact ⟨cap, by simp [growCap, Nat.not_lt.mpr h]⟩
  | succ turns ih =>
    rw [growCap]
    split
    · have hcap : ¬ cap > sizeMax / 2 := by
        unfold sizeMax
        omega
      rw [if_neg hcap]
      exact ih (by rwa [mul_assoc, ← pow_succ'])
    · exact ⟨cap, rfl⟩

def expand (alloc : Alloc) (needed : Nat) : Proc Code Buffer Unit := fun b =>
  if sizeAdd b.len needed > b.cap then
    match h : growCap (sizeAdd b.len needed) 65 b.cap with
    -- not reached, by `growCap_ne_none`
    | none => (.error .typeOverflow, b)
    | some (.error rc) => (.error rc, b)
    | some (.ok newCap) =>
      if alloc newCap then
        (.ok (), { b with cap := newCap, cap_pos := b.cap_pos.trans_le (growCap_le h) })
      else (.error .syserr, b)
  else (.ok (), b)

/-- Growing touches nothing but the capacity, and never lowers it. -/
theorem expand_frame (alloc : Alloc) (needed : Nat) (b : Buffer) :
    (expand alloc needed b).2.bytes = b.bytes ∧ (expand alloc needed b).2.stale = b.stale ∧
      b.cap ≤ (expand alloc needed b).2.cap := by
  unfold expand
  split
  · split
    · exact ⟨rfl, rfl, Nat.le_refl _⟩
    · exact ⟨rfl, rfl, Nat.le_refl _⟩
    · rename_i h
      split
      · exact ⟨rfl, rfl, growCap_le h⟩
      · exact ⟨rfl, rfl, Nat.le_refl _⟩
  · exact ⟨rfl, rfl, Nat.le_refl _⟩

theorem expand_error {alloc : Alloc} {needed : Nat} {b b' : Buffer} {rc : Code}
    (h : expand alloc needed b = (.error rc, b')) : rc = .typeOverflow ∨ rc = .syserr := by
  unfold expand at h
  split at h
  · split at h
    · cases h
      exact .inl rfl
    · rename_i hg
      cases h
      exact .inl (growCap_error hg)
    · split at h <;> cases h
      exact .inr rfl
  · cases h

/-- `memcpy(buff + len, data, ...)` and `len += ...`. -/
def push (data : List UInt8) (b : Buffer) : Buffer :=
  { b with bytes := b.bytes ++ data, stale := b.stale.drop data.length }

/-- `len = 0`; the storage keeps what it held. -/
def reset (b : Buffer) : Buffer :=
  { b with bytes := [], stale := b.bytes ++ b.stale }

/-- `buff[i] = v` inside the contents. -/
def setByte (i : Nat) (v : UInt8) (b : Buffer) : Buffer :=
  { b with bytes := b.bytes.set i v }

@[simp] theorem push_bytes (data : List UInt8) (b : Buffer) :
    (b.push data).bytes = b.bytes ++ data := rfl

@[simp] theorem reset_bytes (b : Buffer) : b.reset.bytes = [] := rfl

@[simp] theorem setByte_bytes (i : Nat) (v : UInt8) (b : Buffer) :
    (b.setByte i v).bytes = b.bytes.set i v := rfl

theorem byteAt_of_lt {b : Buffer} {i : Nat} (h : i < b.len) : b.byteAt i = b.bytes.getD i 0 := by
  rw [byteAt, List.getD_append _ _ _ _ h]

theorem byteAt_of_le {b : Buffer} {i : Nat} (h : b.len ≤ i) :
    b.byteAt i = b.stale.getD (i - b.len) 0 := by
  rw [byteAt, List.getD_append_right _ _ _ _ h]
  rfl

@[simp] theorem len_push (data : List UInt8) (b : Buffer) :
    (b.push data).len = b.len + data.length := List.length_append

theorem byteAt_push {data : List UInt8} {b : Buffer} {i : Nat} (h : b.len + data.length ≤ i) :
    (b.push data).byteAt i = b.byteAt i := by
  rw [byteAt_of_le (by rw [len_push]; exact h), byteAt_of_le (by omega), len_push]
  simp only [push, List.getD_eq_getElem?_getD, List.getElem?_drop]
  congr 2
  omega

theorem byteAt_setByte_of_le {i j : Nat} {v : UInt8} {b : Buffer} (h : b.len ≤ j) :
    (b.setByte i v).byteAt j = b.byteAt j := by
  have hlen : (b.setByte i v).len = b.len := List.length_set
  rw [byteAt_of_le (hlen.symm ▸ h), byteAt_of_le h, hlen]
  rfl

/-- Growth succeeds for buffers of this capacity at least, as long as they
need no more than `n` bytes in all. -/
def Grows (alloc : Alloc) (cap n : Nat) : Prop :=
  ∀ (b : Buffer) (needed : Nat), cap ≤ b.cap → b.len + needed ≤ n →
    (expand alloc needed b).1 = .ok ()

theorem Grows.mono {alloc : Alloc} {cap cap' n n' : Nat} (h : Grows alloc cap n)
    (hc : cap ≤ cap') (hn : n' ≤ n) : Grows alloc cap' n' :=
  fun b needed hb hl => h b needed (hc.trans hb) (hl.trans hn)

/-- With a `realloc` that does not fail, growth succeeds up to half of the
address space. -/
theorem grows_of_alloc {alloc : Alloc} (h : ∀ c, alloc c = true) (cap : Nat) {n : Nat}
    (hn : n ≤ 2 ^ 63) : Grows alloc cap n := by
  intro b needed _ hl
  have hadd : sizeAdd b.len needed = b.len + needed := sizeAdd_of_lt (by omega)
  have hcap := b.cap_pos
  obtain ⟨c, hc⟩ : ∃ c, growCap (b.len + needed) 65 b.cap = some (.ok c) :=
    growCap_ok (by omega) (by omega)
  rw [← hadd] at hc
  unfold expand
  split
  · split
    · rename_i e
      rw [hc] at e
      cases e
    · rename_i e
      rw [hc] at e
      cases e
    · rw [if_pos (h _)]
  · rfl

end Buffer

end Trilogy
