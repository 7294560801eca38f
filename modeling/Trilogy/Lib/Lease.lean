import Mathlib.Data.List.Basic
import Mathlib.Logic.Function.Basic

/-! Things that lie on a shelf until somebody takes them. `Exclusive shelf held`: each
is in one place, once on the shelf or with one holder.

* `Exclusive.take`, `Exclusive.give`: from the shelf to a holder and back;
* `Exclusive.drop`, `Exclusive.fresh`: out of the world and into it;
* `Below`: everything has a number from a counter, so the next one is fresh. -/
namespace Lib

variable {ι κ : Type} [DecidableEq ι]

structure Exclusive (shelf : List κ) (held : ι → Option κ) : Prop where
  once : shelf.Nodup
  apart : ∀ ⦃i k⦄, held i = some k → k ∉ shelf
  own : ∀ ⦃i j k⦄, held i = some k → held j = some k → i = j

namespace Exclusive

variable {shelf : List κ} {held : ι → Option κ} {i : ι} {k : κ}

theorem drop (h : Exclusive shelf held) (i : ι) :
    Exclusive shelf (Function.update held i none) where
  once := h.once
  apart := by
    intro j k hj
    by_cases hji : j = i
    · subst hji
      simp at hj
    · rw [Function.update_of_ne hji] at hj
      exact h.apart hj
  own := by
    intro a b k ha hb
    by_cases hai : a = i
    · subst hai
      simp at ha
    · by_cases hbi : b = i
      · subst hbi
        simp at hb
      · rw [Function.update_of_ne hai] at ha
        rw [Function.update_of_ne hbi] at hb
        exact h.own ha hb

/-- What is neither on the shelf nor with anybody else can be handed out. -/
theorem fresh (h : Exclusive shelf held) (new : k ∉ shelf) (nobody : ∀ j, j ≠ i → held j ≠ some k) :
    Exclusive shelf (Function.update held i (some k)) where
  once := h.once
  apart := by
    intro j l hj
    by_cases hji : j = i
    · subst hji
      rw [Function.update_self] at hj
      cases hj
      exact new
    · rw [Function.update_of_ne hji] at hj
      exact h.apart hj
  own := by
    intro a b l ha hb
    by_cases hai : a = i
    · by_cases hbi : b = i
      · exact hai.trans hbi.symm
      · subst hai
        rw [Function.update_self] at ha
        rw [Function.update_of_ne hbi, ← ha] at hb
        exact absurd hb (nobody b hbi)
    · rw [Function.update_of_ne hai] at ha
      by_cases hbi : b = i
      · subst hbi
        rw [Function.update_self] at hb
        exact absurd (ha.trans hb.symm) (nobody a hai)
      · rw [Function.update_of_ne hbi] at hb
        exact h.own ha hb

theorem take (h : Exclusive (k :: shelf) held) (i : ι) :
    Exclusive shelf (Function.update held i (some k)) := by
  obtain ⟨new, once⟩ := List.nodup_cons.mp h.once
  have left : Exclusive shelf held :=
    ⟨once, fun j l hj hl => h.apart hj (List.mem_cons_of_mem k hl), h.own⟩
  apply left.fresh new
  intro j _ hj
  exact h.apart hj List.mem_cons_self

theorem give (h : Exclusive shelf held) (hi : held i = some k) :
    Exclusive (k :: shelf) (Function.update held i none) where
  once := List.nodup_cons.mpr ⟨h.apart hi, h.once⟩
  apart := by
    intro j l hj hl
    have gone := h.drop i
    cases List.mem_cons.mp hl with
    | inl hlk =>
      subst hlk
      by_cases hji : j = i
      · subst hji
        simp at hj
      · rw [Function.update_of_ne hji] at hj
        exact hji (h.own hj hi)
    | inr hl => exact gone.apart hj hl
  own := (h.drop i).own

end Exclusive

/-- All numbers in use are below `n`. -/
structure Below (n : Nat) (shelf : List Nat) (held : ι → Option Nat) : Prop where
  shelf : ∀ k ∈ shelf, k < n
  held : ∀ i k, held i = some k → k < n

namespace Below

variable {n k : Nat} {shelf : List Nat} {held : ι → Option Nat}

theorem drop (h : Below n shelf held) (i : ι) : Below n shelf (Function.update held i none) where
  shelf := h.shelf
  held := by
    intro j k hj
    by_cases hji : j = i
    · subst hji
      simp at hj
    · rw [Function.update_of_ne hji] at hj
      exact h.held j k hj

theorem hold (h : Below n shelf held) (i : ι) (hk : k < n) :
    Below n shelf (Function.update held i (some k)) where
  shelf := h.shelf
  held := by
    intro j l hj
    by_cases hji : j = i
    · subst hji
      rw [Function.update_self] at hj
      cases hj
      exact hk
    · rw [Function.update_of_ne hji] at hj
      exact h.held j l hj

theorem take (h : Below n (k :: shelf) held) (i : ι) :
    Below n shelf (Function.update held i (some k)) := by
  have left : Below n shelf held := ⟨fun l hl => h.shelf l (List.mem_cons_of_mem k hl), h.held⟩
  exact left.hold i (h.shelf k List.mem_cons_self)

theorem give (h : Below n shelf held) {i : ι} (hi : held i = some k) :
    Below n (k :: shelf) (Function.update held i none) where
  shelf := by
    intro l hl
    cases List.mem_cons.mp hl with
    | inl hlk => exact hlk ▸ h.held i k hi
    | inr hl => exact h.shelf l hl
  held := (h.drop i).held

omit [DecidableEq ι] in
theorem succ (h : Below n shelf held) : Below (n + 1) shelf held :=
  ⟨fun k hk => Nat.lt_succ_of_lt (h.shelf k hk), fun i k hi => Nat.lt_succ_of_lt (h.held i k hi)⟩

omit [DecidableEq ι] in
/-- The next number is nowhere. -/
theorem unused (h : Below n shelf held) : n ∉ shelf ∧ ∀ i, held i ≠ some n :=
  ⟨fun hn => Nat.lt_irrefl n (h.shelf n hn), fun i hi => Nat.lt_irrefl n (h.held i n hi)⟩

end Below

end Lib
