import Trilogy.Lib.Proc

/-! `Alike S R m m'`: from states that `S` relates, the two procedures end in states
that `S` relates, with the same error or with values that `R` relates. `Blind` is
about two runs of one procedure that end in the same way. The rules follow the
procedures as they are written. -/
namespace Lib

variable {ε σ τ α α' β β' : Type}

inductive SameEnd (R : α → β → Prop) : Except ε α → Except ε β → Prop
  | ok {a b} (h : R a b) : SameEnd R (.ok a) (.ok b)
  | error (e : ε) : SameEnd R (.error e) (.error e)

theorem SameEnd.weaken {R R' : α → β → Prop} {r : Except ε α} {r' : Except ε β}
    (h : SameEnd R r r') (hR : ∀ a b, R a b → R' a b) : SameEnd R' r r' := by
  cases h with
  | ok h => exact .ok (hR _ _ h)
  | error e => exact .error e

theorem SameEnd.eq {r r' : Except ε α} (h : SameEnd Eq r r') : r = r' := by
  cases h with
  | ok h => rw [h]
  | error e => rfl

theorem SameEnd.rfl {r : Except ε α} : SameEnd Eq r r := by
  cases r with
  | ok a => exact .ok (Eq.refl a)
  | error e => exact .error e

def Alike (S : σ → τ → Prop) (R : α → β → Prop) (m : Proc ε σ α) (m' : Proc ε τ β) : Prop :=
  ∀ s s', S s s' → SameEnd R (m s).1 (m' s').1 ∧ S (m s).2 (m' s').2

namespace Alike

variable {S : σ → τ → Prop} {R : α → β → Prop} {Q : α' → β' → Prop}
  {m : Proc ε σ α} {m' : Proc ε τ β} {f : α → Proc ε σ α'} {f' : β → Proc ε τ β'}

theorem same (m : Proc ε σ α) : Alike Eq Eq m m := by
  rintro s _ rfl
  exact ⟨.rfl, rfl⟩

theorem pure {a : α} {b : β} (h : R a b) :
    Alike S R (Pure.pure a : Proc ε σ α) (Pure.pure b : Proc ε τ β) :=
  fun _ _ hs => ⟨.ok h, hs⟩

theorem throw (e : ε) :
    Alike S R (MonadExcept.throw e : Proc ε σ α) (MonadExcept.throw e : Proc ε τ β) :=
  fun _ _ hs => ⟨.error e, hs⟩

/-- The rest has to do the same from the states in which `m` ends. -/
theorem bind_at (hm : Alike S R m m') {s : σ} {s' : τ} (hs : S s s')
    (hf : ∀ a b t t', m s = (.ok a, t) → R a b → S t t' →
      SameEnd Q (f a t).1 (f' b t').1 ∧ S (f a t).2 (f' b t').2) :
    SameEnd Q ((m >>= f) s).1 ((m' >>= f') s').1 ∧ S ((m >>= f) s).2 ((m' >>= f') s').2 := by
  obtain ⟨hend, hs'⟩ := hm s s' hs
  rw [Proc.bind_apply, Proc.bind_apply]
  rcases e : m s with ⟨r, t⟩
  rcases e' : m' s' with ⟨r', t'⟩
  rw [e, e'] at hend hs'
  cases hend with
  | ok h => exact hf _ _ _ _ e h hs'
  | error rc => exact ⟨.error rc, hs'⟩

theorem bind (hm : Alike S R m m') (hf : ∀ a b, R a b → Alike S Q (f a) (f' b)) :
    Alike S Q (m >>= f) (m' >>= f') :=
  fun _ _ hs => hm.bind_at hs fun _ _ _ _ _ h ht => hf _ _ h _ _ ht

theorem ite {p q : Prop} [Decidable p] [Decidable q] {n : Proc ε σ α} {n' : Proc ε τ β}
    (same : p ↔ q) (hm : p → Alike S R m m') (hn : ¬ p → Alike S R n n') :
    Alike S R (if p then m else n) (if q then m' else n') := by
  by_cases hp : p
  · rw [if_pos hp, if_pos (same.mp hp)]
    exact hm hp
  · rw [if_neg hp, if_neg (mt same.mpr hp)]
    exact hn hp

theorem weaken {R' : α → β → Prop} (hm : Alike S R m m') (h : ∀ a b, R a b → R' a b) :
    Alike S R' m m' :=
  fun s s' hs => ⟨(hm s s' hs).1.weaken h, (hm s s' hs).2⟩

end Alike

/-- A procedure that does not tell the states that `S` relates apart. -/
def Blind (S : σ → σ → Prop) (m : Proc ε σ α) : Prop := Alike S Eq m m

namespace Blind

variable {S : σ → σ → Prop} {m : Proc ε σ α} {f : α → Proc ε σ β}

theorem pure (a : α) : Blind S (Pure.pure a : Proc ε σ α) := Alike.pure (Eq.refl a)

theorem throw (e : ε) : Blind S (MonadExcept.throw e : Proc ε σ α) := Alike.throw e

theorem modify {g : σ → σ} (h : ∀ s s', S s s' → S (g s) (g s')) :
    Blind S (modify g : Proc ε σ PUnit) :=
  fun s s' hs => ⟨.rfl, h s s' hs⟩

theorem bind (hm : Blind S m) (hf : ∀ a, Blind S (f a)) : Blind S (m >>= f) := by
  apply Alike.bind hm
  rintro a _ rfl
  exact hf a

/-- A part that depends on the state, but not on what `S` leaves open. -/
theorem get_bind {g : σ → Proc ε σ β} (same : ∀ s s', S s s' → g s' = g s)
    (h : ∀ s, Blind S (g s)) : Blind S (MonadState.get >>= g) := by
  intro s s' hs
  rw [Proc.get_bind, Proc.get_bind, same s s' hs]
  exact h s s s' hs

theorem attempt (hm : Blind S m) : Blind S (Proc.attempt m) := by
  intro s s' hs
  obtain ⟨hend, hs'⟩ := hm s s' hs
  refine ⟨?_, hs'⟩
  rw [Proc.attempt_apply, Proc.attempt_apply, hend.eq]
  exact .rfl

theorem ite {p : Prop} [Decidable p] {m m' : Proc ε σ α} (hm : p → Blind S m)
    (hm' : ¬ p → Blind S m') : Blind S (if p then m else m') :=
  Alike.ite Iff.rfl hm hm'

theorem when {p : Prop} [Decidable p] {m : Proc ε σ Unit} (hm : p → Blind S m) :
    Blind S (Proc.when p m) :=
  ite hm fun _ => pure ()

end Blind

end Lib
