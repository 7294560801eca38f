import Trilogy.Lib.Fails
import Trilogy.Lib.Relate
import Trilogy.Lib.Retry

/-! `ReturnsIn again m k s r t` is `Returns` with the number `k` of the calls that
asked for another. `Paced P m`: a call that asks for another has used something
up, or is stuck, and then so is every call after it.

* `Paced.bind`, `Stalls.bind`, `Stalls.after`: one part behind another;
* `Returns.within`: what there is to use up bounds the calls. -/
namespace Lib

variable {ε σ α β : Type} {again : ε}

inductive ReturnsIn (again : ε) (m : Proc ε σ α) : Nat → σ → Except ε α → σ → Prop
  | stop {s r t} : m s = (r, t) → r ≠ .error again → ReturnsIn again m 0 s r t
  | again {k s u r t} : m s = (.error again, u) → ReturnsIn again m k u r t →
      ReturnsIn again m (k + 1) s r t

/-- What is used up, in the states that `valid` holds of; nothing more comes
once a state is stuck. -/
structure Pace (σ : Type) where
  valid : σ → Prop
  left : σ → Nat
  stuck : σ → Prop

structure Paced (P : Pace σ) (again : ε) (m : Proc ε σ α) : Prop where
  valid : ∀ ⦃s⦄, P.valid s → P.valid (m s).2
  less : ∀ ⦃s⦄, P.valid s → P.left (m s).2 ≤ P.left s
  asks : ∀ ⦃s u⦄, P.valid s → m s = (.error again, u) → P.left u < P.left s ∨ P.stuck u

namespace Paced

variable {P : Pace σ} {m : Proc ε σ α} {f : α → Proc ε σ β}

/-- A procedure that never asks for another call. -/
theorem of_fails {m : Proc ε σ α} (fails : Fails (· ≠ again) m)
    (h : ∀ s, P.valid s → P.valid (m s).2 ∧ P.left (m s).2 ≤ P.left s) : Paced P again m where
  valid _ hs := (h _ hs).1
  less _ hs := (h _ hs).2
  asks _ _ _ e := absurd rfl (fails e)

theorem bind (hm : Paced P again m) (hf : ∀ a, Paced P again (f a)) : Paced P again (m >>= f) where
  valid s hs := by
    have h := hm.valid hs
    rw [Proc.bind_apply]
    rcases e : m s with ⟨rc | a, u⟩
    · simpa only [e] using h
    · rw [e] at h
      exact (hf a).valid h
  less s hs := by
    have h := hm.less hs
    have hu := hm.valid hs
    rw [Proc.bind_apply]
    rcases e : m s with ⟨rc | a, u⟩
    · simpa only [e] using h
    · rw [e] at h hu
      exact Nat.le_trans ((hf a).less hu) h
  asks s t hs h := by
    obtain h | ⟨a, u, hu, h⟩ := Proc.bind_error.mp h
    · exact hm.asks hs h
    · have hless := hm.less hs
      have hvalid := hm.valid hs
      rw [hu] at hless hvalid
      exact ((hf a).asks hvalid h).imp_left fun hlt => Nat.lt_of_lt_of_le hlt hless

end Paced

/-- A stuck call asks for another, which is stuck as well. -/
def Stalls (stuck : σ → Prop) (again : ε) (m : Proc ε σ α) : Prop :=
  ∀ ⦃s⦄, stuck s → ∃ u, m s = (.error again, u) ∧ stuck u

namespace Stalls

variable {stuck : σ → Prop} {m : Proc ε σ α} {f : α → Proc ε σ β}

theorem bind (hm : Stalls stuck again m) : Stalls stuck again (m >>= f) := by
  intro s hs
  obtain ⟨u, e, hu⟩ := hm hs
  exact ⟨u, Proc.bind_of_error e, hu⟩

/-- Behind a part that may be passed over. -/
theorem after (hm : ∀ s, stuck s → stuck (m s).2 ∧ ((m s).1 = .error again ∨ ∃ a, (m s).1 = .ok a))
    (hf : ∀ a, Stalls stuck again (f a)) : Stalls stuck again (m >>= f) := by
  intro s hs
  obtain ⟨hstuck, hend | ⟨a, hend⟩⟩ := hm s hs
  · exact ⟨_, Proc.bind_of_error (Proc.ends hend), hstuck⟩
  · rw [Proc.bind_of_ok (Proc.ends hend)]
    exact hf a hstuck

theorem not_returns {t : σ} {r : Except ε α} {s : σ} (hm : Stalls stuck again m) (hs : stuck s) :
    ¬ Returns again m s r t := by
  intro h
  induction h with
  | stop e hr =>
    obtain ⟨u, e', -⟩ := hm hs
    rw [e] at e'
    cases e'
    exact hr rfl
  | again e _ ih =>
    obtain ⟨u, e', hu⟩ := hm hs
    rw [e] at e'
    cases e'
    exact ih hu

end Stalls

theorem Returns.within {P : Pace σ} {m : Proc ε σ α} {s t : σ} {r : Except ε α}
    (h : Returns again m s r t) (paced : Paced P again m) (stalls : Stalls P.stuck again m)
    (valid : P.valid s) : ∃ k, ReturnsIn again m k s r t ∧ P.valid t ∧ k + P.left t ≤ P.left s := by
  induction h with
  | @stop s r t e hr =>
    have hvalid := paced.valid valid
    have hless := paced.less valid
    rw [e] at hvalid hless
    exact ⟨0, .stop e hr, hvalid, by simpa using hless⟩
  | @again s u r t e h ih =>
    have hvalid := paced.valid valid
    rw [e] at hvalid
    have hasks := (paced.asks valid e).resolve_right fun hu => stalls.not_returns hu h
    obtain ⟨k, hk, hvalid', hle⟩ := ih hvalid
    exact ⟨k + 1, .again e hk, hvalid', by omega⟩

end Lib
