import Trilogy.Lib.Proc

/-! `Fails P m`: the errors of `m` are among those of `P`. `Spares P R m`: when it
fails with one of these, the state is what it was, as far as `R` goes. The rules
follow a procedure as it is written.

* `Spares.after`: nothing done before that matters;
* `Spares.before`: nothing goes wrong after what matters. -/
namespace Lib

variable {ε σ τ α β : Type}

def Fails (P : ε → Prop) (m : Proc ε σ α) : Prop := ∀ ⦃s e t⦄, m s = (.error e, t) → P e

namespace Fails

variable {P Q : ε → Prop} {m m' : Proc ε σ α} {f : α → Proc ε σ β}

theorem pure (a : α) : Fails P (Pure.pure a : Proc ε σ α) := by
  intro s e t h
  cases h

theorem throw {e : ε} (he : P e) : Fails P (MonadExcept.throw e : Proc ε σ α) := by
  intro s e' t h
  cases h
  exact he

theorem get : Fails P (MonadState.get : Proc ε σ σ) := by
  intro s e t h
  cases h

theorem modify (g : σ → σ) : Fails P (modify g : Proc ε σ PUnit) := by
  intro s e t h
  cases h

theorem bind (hm : Fails P m) (hf : ∀ a, Fails P (f a)) : Fails P (m >>= f) := by
  intro s e t h
  obtain h | ⟨a, s', -, h⟩ := Proc.bind_error.mp h
  · exact hm h
  · exact hf a h

theorem ite {c : Prop} [Decidable c] (hm : c → Fails P m) (hm' : ¬ c → Fails P m') :
    Fails P (if c then m else m') := by
  split
  · exact hm ‹_›
  · exact hm' ‹_›

theorem zoom {part : σ → τ} {put : τ → σ → σ} {m : Proc ε τ α} (hm : Fails P m) :
    Fails P (Proc.zoom part put m) := by
  intro s e t h
  rw [Proc.zoom_apply] at h
  exact hm (Proc.ends (congrArg Prod.fst h))

theorem mono (hm : Fails P m) (h : ∀ e, P e → Q e) : Fails Q m :=
  fun _ e _ he => h e (hm he)

end Fails

def Spares (P : ε → Prop) (R : σ → σ → Prop) (m : Proc ε σ α) : Prop :=
  ∀ ⦃s e t⦄, m s = (.error e, t) → P e → R s t

namespace Spares

variable {P : ε → Prop} {R : σ → σ → Prop} {m m' : Proc ε σ α} {f : α → Proc ε σ β}

theorem of_keeps (hm : Proc.Keeps R m) : Spares P R m := by
  intro s e t h _
  have hs := hm s
  rwa [h] at hs

theorem pure (a : α) : Spares P R (Pure.pure a : Proc ε σ α) := by
  intro s e t h
  cases h

theorem throw [Std.Refl R] (e : ε) : Spares P R (MonadExcept.throw e : Proc ε σ α) :=
  .of_keeps (.throw e)

theorem ite {c : Prop} [Decidable c] (hm : c → Spares P R m) (hm' : ¬ c → Spares P R m') :
    Spares P R (if c then m else m') := by
  split
  · exact hm ‹_›
  · exact hm' ‹_›

theorem after [IsTrans σ R] (hm : Proc.Keeps R m) (hf : ∀ a, Spares P R (f a)) :
    Spares P R (m >>= f) := by
  intro s e t h he
  have hs := hm s
  obtain h | ⟨a, s', h', h⟩ := Proc.bind_error.mp h
  · rwa [h] at hs
  · rw [h'] at hs
    exact IsTrans.trans _ _ _ hs (hf a h he)

theorem before (hm : Spares P R m) (hf : ∀ a, Fails (fun e => ¬ P e) (f a)) :
    Spares P R (m >>= f) := by
  intro s e t h he
  obtain h | ⟨a, s', -, h⟩ := Proc.bind_error.mp h
  · exact hm h he
  · exact absurd he (hf a h)

end Spares

end Lib
