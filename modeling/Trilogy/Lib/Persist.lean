import Trilogy.Lib.Paced

/-! `Persists again wait m s r t` is the loop of a caller that waits each time `m` asks
for another call; it ends as `m` does, or with the error of a wait. What waiting
changes does not matter to `m`, so it ends as the calls without waits do.

* `Persists.returns`: what the loop returns, the calls without waits return;
* `ReturnsIn.persists`: the other way, with a budget of waits that do not fail. -/
namespace Lib

variable {ε σ α : Type} {again : ε}

inductive Persists (again : ε) (wait : Proc ε σ Unit) (m : Proc ε σ α) :
    σ → Except ε α → σ → Prop
  | stop {s r t} : m s = (r, t) → r ≠ .error again → Persists again wait m s r t
  | again {s u v r t} : m s = (.error again, u) → wait u = (.ok (), v) →
      Persists again wait m v r t → Persists again wait m s r t
  | failed {s u e t} : m s = (.error again, u) → wait u = (.error e, t) →
      Persists again wait m s (.error e) t

/-- The error, and the state, are those of a wait. -/
def WaitFailed (wait : Proc ε σ Unit) (r : Except ε α) (t : σ) : Prop :=
  ∃ u e, wait u = (.error e, t) ∧ r = .error e

variable {wait : Proc ε σ Unit} {m : Proc ε σ α} {s s' t : σ} {r : Except ε α}

theorem Persists.unique {t' : σ} {r' : Except ε α} (h : Persists again wait m s r t)
    (h' : Persists again wait m s r' t') : r = r' ∧ t = t' := by
  induction h with
  | stop e hr =>
    cases h' with
    | stop e' _ =>
      rw [e] at e'
      cases e'
      exact ⟨rfl, rfl⟩
    | again e' _ _ | failed e' _ =>
      rw [e] at e'
      cases e'
      exact absurd rfl hr
  | again e hwait _ ih =>
    cases h' with
    | stop e' hr' =>
      rw [e] at e'
      cases e'
      exact absurd rfl hr'
    | again e' hwait' h' =>
      rw [e] at e'
      cases e'
      rw [hwait] at hwait'
      cases hwait'
      exact ih h'
    | failed e' hwait' =>
      rw [e] at e'
      cases e'
      rw [hwait] at hwait'
      cases hwait'
  | failed e hwait =>
    cases h' with
    | stop e' hr' =>
      rw [e] at e'
      cases e'
      exact absurd rfl hr'
    | again e' hwait' _ =>
      rw [e] at e'
      cases e'
      rw [hwait] at hwait'
      cases hwait'
    | failed e' hwait' =>
      rw [e] at e'
      cases e'
      rw [hwait] at hwait'
      cases hwait'
      exact ⟨rfl, rfl⟩

section

variable {S : σ → σ → Prop} [IsTrans σ S]

theorem Persists.returns {t' : σ} (h : Persists again wait m s' r t') (blind : Blind S m)
    (waits : ∀ s, S s (wait s).2) (hs : S s s') :
    (∃ t, Returns again m s r t ∧ S t t') ∨ WaitFailed wait r t' := by
  induction h generalizing s with
  | @stop s' r t' e hr =>
    obtain ⟨hend, ht⟩ := blind s s' hs
    rw [e] at hend ht
    exact .inl ⟨_, .stop (Proc.ends hend.eq) hr, ht⟩
  | @again s' u v r t' e hwait _ ih =>
    obtain ⟨hend, hu⟩ := blind s s' hs
    have hv := waits u
    rw [e] at hend hu
    rw [hwait] at hv
    refine (ih (IsTrans.trans _ _ _ hu hv)).imp_left ?_
    rintro ⟨t, h, ht⟩
    exact ⟨t, .again (Proc.ends hend.eq) h, ht⟩
  | failed _ hwait => exact .inr ⟨_, _, hwait, rfl⟩

theorem ReturnsIn.persists {B : Nat → σ → Prop} {k n : Nat} (h : ReturnsIn again m k s r t)
    (blind : Blind S m) (keep : ∀ n s, B n s → B n (m s).2)
    (waits : ∀ n s, B (n + 1) s → ∃ v, wait s = (.ok (), v) ∧ B n v ∧ S s v) (hs : S s s')
    (budget : B (n + k) s') : ∃ t', Persists again wait m s' r t' ∧ S t t' ∧ B n t' := by
  induction h generalizing s' with
  | @stop s r t e hr =>
    obtain ⟨hend, ht⟩ := blind s s' hs
    rw [e] at hend ht
    exact ⟨_, .stop (Proc.ends hend.eq.symm) hr, ht, keep n s' budget⟩
  | @again k s u r t e _ ih =>
    obtain ⟨hend, hu⟩ := blind s s' hs
    rw [e] at hend hu
    obtain ⟨v, hwait, hbudget, hv⟩ := waits (n + k) _ (keep (n + k + 1) s' budget)
    obtain ⟨t', h', ht, hleft⟩ := ih (IsTrans.trans _ _ _ hu hv) hbudget
    exact ⟨t', .again (Proc.ends hend.eq.symm) hwait h', ht, hleft⟩

end

end Lib
