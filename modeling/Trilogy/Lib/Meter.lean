import Mathlib.Algebra.BigOperators.Group.List.Basic
import Mathlib.Tactic.Ring
import Trilogy.Lib.Proc

/-! A `Meter` reads off a state how much was used and how much there may be. What
uses `n` of it either stays below the limit and has counted `n`, or it stops,
and then with the meter's refusal, unless it failed for another reason.

* `Spent.bind`, `Spends.bind`: the costs of a sequence add up;
* `Spends.forM`: a list of steps, whose sums have to be countable only as far
  as the steps before them stayed below the limit;
* `Spent.ok_iff`, `Spent.refused`: where nothing else fails, the limit is exact. -/
namespace Lib

structure Meter (ε σ : Type) where
  used : σ → Nat
  limit : σ → Nat
  /-- Sums below this are counted exactly. -/
  wrap : Nat
  refusal : ε
  /-- The errors that have nothing to do with the limit. -/
  other : ε → Prop

namespace Meter

variable {ε σ ω : Type} {M : Meter ε σ} {m m' : Proc ε σ Unit} {f : Unit → Proc ε σ Unit}
  {n k : Nat} {s t : σ} {e : ε}

/-- How `m` uses `n` from the state `s`. -/
structure Spent (M : Meter ε σ) (m : Proc ε σ Unit) (n : Nat) (s : σ) : Prop where
  paid : ∀ ⦃t⦄, m s = (.ok (), t) →
    M.used t = M.used s + n ∧ M.used t < M.limit t ∧ M.limit t = M.limit s
  stopped : ∀ ⦃e t⦄, m s = (.error e, t) →
    M.other e ∨ e = M.refusal ∧ M.limit s ≤ M.used s + n

theorem Spent.bind (hm : M.Spent m n s) (hf : ∀ t, m s = (.ok (), t) → M.Spent (f ()) k t) :
    M.Spent (m >>= f) (n + k) s where
  paid := by
    intro t h
    obtain ⟨_, s₁, h₁, h₂⟩ := Proc.bind_ok.mp h
    obtain ⟨used₁, -, limit₁⟩ := hm.paid h₁
    obtain ⟨used₂, below, limit₂⟩ := (hf s₁ h₁).paid h₂
    exact ⟨by omega, below, limit₂.trans limit₁⟩
  stopped := by
    intro e t h
    obtain h₁ | ⟨_, s₁, h₁, h₂⟩ := Proc.bind_error.mp h
    · refine (hm.stopped h₁).imp_right fun ⟨he, reached⟩ => ⟨he, ?_⟩
      omega
    · obtain ⟨used₁, -, limit₁⟩ := hm.paid h₁
      refine ((hf s₁ h₁).stopped h₂).imp_right fun ⟨he, reached⟩ => ⟨he, ?_⟩
      omega

theorem Spent.pure (below : M.used s < M.limit s) : M.Spent (pure ()) 0 s where
  paid := by
    intro t h
    cases h
    exact ⟨rfl, below, rfl⟩
  stopped := by
    intro e t h
    cases h

theorem Spent.refuse (reached : M.limit s ≤ M.used s + n) :
    M.Spent (throw M.refusal) n s where
  paid := by
    intro t h
    cases h
  stopped := by
    intro e t h
    cases h
    exact .inr ⟨rfl, reached⟩

/-- What neither counts nor looks at the limit. -/
theorem Spent.free (below : M.used s < M.limit s)
    (same : ∀ t, m s = (.ok (), t) → M.used t = M.used s ∧ M.limit t = M.limit s)
    (fails : ∀ e t, m s = (.error e, t) → M.other e) : M.Spent m 0 s where
  paid := by
    intro t h
    obtain ⟨used, limit⟩ := same t h
    exact ⟨used, used ▸ limit ▸ below, limit⟩
  stopped := fun e t h => .inl (fails e t h)

theorem Spent.get {f : σ → Proc ε σ Unit} (h : M.Spent (f s) n s) : M.Spent (get >>= f) n s where
  paid := fun _ ht => h.paid ht
  stopped := fun _ _ he => h.stopped he

/-- A change that the meter does not see. -/
theorem Spent.modify {g : σ → σ} {f : PUnit → Proc ε σ Unit} (used : M.used (g s) = M.used s)
    (limit : M.limit (g s) = M.limit s) (h : M.Spent (f ()) n (g s)) :
    M.Spent (modify g >>= f) n s where
  paid := fun _ ht => limit ▸ used ▸ h.paid ht
  stopped := fun _ _ he => limit ▸ used ▸ h.stopped he

theorem Spent.of_eq (h : M.Spent m n s) (eq : n = k) : M.Spent m k s := eq ▸ h

theorem Spent.ok_iff (h : M.Spent m n s) (clean : ∀ e, (m s).1 = .error e → ¬ M.other e) :
    (m s).1 = .ok () ↔ M.used s + n < M.limit s := by
  constructor
  · intro ok
    obtain ⟨used, below, limit⟩ := h.paid (Proc.ends ok)
    omega
  · intro room
    cases hr : (m s).1 with
    | ok _ => rfl
    | error e =>
      obtain other | ⟨-, reached⟩ := h.stopped (Proc.ends hr)
      · exact absurd other (clean e hr)
      · omega

theorem Spent.refused (h : M.Spent m n s) (clean : ∀ e, (m s).1 = .error e → ¬ M.other e)
    (reached : M.limit s ≤ M.used s + n) : (m s).1 = .error M.refusal := by
  cases hr : (m s).1 with
  | ok _ =>
    have := (h.ok_iff clean).mp hr
    omega
  | error e =>
    obtain other | ⟨rfl, -⟩ := h.stopped (Proc.ends hr)
    · exact absurd other (clean e hr)
    · rfl

/-- `m` uses `n`, wherever it starts below the limit and can count so far. -/
def Spends (M : Meter ε σ) (m : Proc ε σ Unit) (n : Nat) : Prop :=
  ∀ ⦃s⦄, M.used s < M.limit s → M.limit s < M.wrap → M.used s + n < M.wrap → M.Spent m n s

theorem Spends.of_eq (h : M.Spends m n) (eq : n = k) : M.Spends m k := eq ▸ h

theorem Spends.bind (hm : M.Spends m n) (hf : M.Spends (f ()) k) :
    M.Spends (m >>= f) (n + k) := by
  intro s below range counted
  have first := hm below range (by omega)
  refine first.bind fun t ht => ?_
  obtain ⟨used, below', limit⟩ := first.paid ht
  exact hf below' (limit ▸ range) (by omega)

theorem Spends.ite {c : Prop} [Decidable c] (hm : c → M.Spends m n)
    (hm' : ¬ c → M.Spends m' k) : M.Spends (if c then m else m') (if c then n else k) := by
  split
  · exact hm ‹_›
  · exact hm' ‹_›

/-- The steps before `w` are all that a sum with the cost of `w` depends on. -/
def Countable (wrap limit : Nat) (cost : ω → Nat) (used : Nat) (ws : List ω) : Prop :=
  ∀ before w, before ++ [w] <+: ws → used + (before.map cost).sum < limit →
    used + (before.map cost).sum + cost w < wrap

theorem Countable.head {wrap limit used : Nat} {cost : ω → Nat} {w : ω} {ws : List ω}
    (h : Countable wrap limit cost used (w :: ws)) (below : used < limit) :
    used + cost w < wrap := by
  have := h [] w (by simp)
  simpa [below] using this

theorem Countable.tail {wrap limit used : Nat} {cost : ω → Nat} {w : ω} {ws : List ω}
    (h : Countable wrap limit cost used (w :: ws)) :
    Countable wrap limit cost (used + cost w) ws := by
  intro before v hb
  have := h (w :: before) v (by simpa using hb)
  simpa [Nat.add_assoc] using this

theorem Countable.of_isPrefix {wrap limit used : Nat} {cost : ω → Nat} {ws ws' : List ω}
    (h : Countable wrap limit cost used ws) (hp : ws' <+: ws) :
    Countable wrap limit cost used ws' :=
  fun before w hb => h before w (hb.trans hp)

theorem Spends.forM {step : ω → Proc ε σ Unit} {cost : ω → Nat}
    (h : ∀ w, M.Spends (step w) (cost w)) {ws : List ω} (below : M.used s < M.limit s)
    (range : M.limit s < M.wrap) (counted : Countable M.wrap (M.limit s) cost (M.used s) ws) :
    M.Spent (forM ws step) (ws.map cost).sum s := by
  induction ws generalizing s with
  | nil => exact .pure below
  | cons w ws ih =>
    have first := h w below range (counted.head below)
    rw [List.forM_cons, List.map_cons, List.sum_cons]
    refine first.bind fun t ht => ?_
    obtain ⟨used, below', limit⟩ := first.paid ht
    exact ih below' (limit ▸ range) (limit ▸ used ▸ counted.tail)

end Meter

end Lib
