import Trilogy.Lib.Proc

namespace Lib

variable {ε σ α β : Type}

structure Triple (P : σ → Prop) (m : Proc ε σ α) (Q : α → σ → Prop) (E : ε → σ → Prop) : Prop where
  returns : ∀ ⦃s a t⦄, P s → m s = (.ok a, t) → Q a t
  raises : ∀ ⦃s e t⦄, P s → m s = (.error e, t) → E e t

namespace Triple

variable {P P' : σ → Prop} {m : Proc ε σ α} {Q Q' : α → σ → Prop} {R : β → σ → Prop}
  {E : ε → σ → Prop} {f : α → Proc ε σ β}

theorem pure {a : α} (h : ∀ s, P s → Q a s) : Triple P (pure a) Q E where
  returns := by
    intro s b t hs e
    cases e
    exact h s hs
  raises := by
    intro s e t _ he
    cases he

theorem throw {e : ε} (h : ∀ s, P s → E e s) : Triple P (throw e : Proc ε σ α) Q E where
  returns := by
    intro s a t _ he
    cases he
  raises := by
    intro s e' t hs he
    cases he
    exact h s hs

theorem modify {g : σ → σ} {Q : PUnit → σ → Prop} (h : ∀ s, P s → Q () (g s)) :
    Triple P (modify g : Proc ε σ PUnit) Q E where
  returns := by
    intro s a t hs he
    cases he
    exact h s hs
  raises := by
    intro s e t _ he
    cases he

theorem bind (hm : Triple P m Q E) (hf : ∀ a, Triple (Q a) (f a) R E) : Triple P (m >>= f) R E where
  returns := by
    intro s b t hs h
    obtain ⟨a, s₁, h₁, h₂⟩ := Proc.bind_ok.mp h
    exact (hf a).returns (hm.returns hs h₁) h₂
  raises := by
    intro s e t hs h
    obtain h₁ | ⟨a, s₁, h₁, h₂⟩ := Proc.bind_error.mp h
    · exact hm.raises hs h₁
    · exact (hf a).raises (hm.returns hs h₁) h₂

/-- What depends on the state is looked at state by state. -/
theorem get_bind {g : σ → Proc ε σ β} (h : ∀ s, P s → Triple (· = s) (g s) R E) :
    Triple P (get >>= g) R E where
  returns := fun s _ _ hs he => (h s hs).returns rfl he
  raises := fun s _ _ hs he => (h s hs).raises rfl he

theorem pre (hm : Triple P m Q E) (h : ∀ s, P' s → P s) : Triple P' m Q E where
  returns := fun s _ _ hs he => hm.returns (h s hs) he
  raises := fun s _ _ hs he => hm.raises (h s hs) he

/-- From one state. -/
theorem start {s : σ} (h : P s) (hm : Triple P m Q E) : Triple (· = s) m Q E :=
  hm.pre fun _ hs => hs ▸ h

theorem post (hm : Triple P m Q E) (h : ∀ a s, Q a s → Q' a s) : Triple P m Q' E where
  returns := fun _ _ _ hs he => h _ _ (hm.returns hs he)
  raises := hm.raises

theorem mono_raises {E' : ε → σ → Prop} (hm : Triple P m Q E) (h : ∀ e s, E e s → E' e s) :
    Triple P m Q E' where
  returns := hm.returns
  raises := fun _ _ _ hs he => h _ _ (hm.raises hs he)

/-- What holds however it ends. -/
theorem ends {F : Except ε α → σ → Prop} {s : σ}
    (h : Triple P m (fun a => F (.ok a)) fun e => F (.error e)) (hs : P s) :
    F (m s).1 (m s).2 := by
  cases hr : (m s).1 with
  | ok a => exact h.returns hs (Proc.ends hr)
  | error e => exact h.raises hs (Proc.ends hr)

/-- What is kept needs no look at the ending. -/
theorem of_keeps {K : σ → σ → Prop} {F : σ → Prop} (hm : Proc.Keeps K m)
    (h : ∀ s t, P s → K s t → F t) : Triple P m (fun _ => F) fun _ => F where
  returns := by
    intro s a t hs he
    have hk := hm s
    rw [he] at hk
    exact h s t hs hk
  raises := by
    intro s e t hs he
    have hk := hm s
    rw [he] at hk
    exact h s t hs hk

theorem attempt (hm : Triple P m Q E) :
    Triple P (Proc.attempt m) (fun r s => (∀ a, r = .ok a → Q a s) ∧ ∀ e, r = .error e → E e s)
      E where
  returns := by
    intro s r t hs he
    cases he
    exact ⟨fun a ha => hm.returns hs (Proc.ends ha), fun e hr => hm.raises hs (Proc.ends hr)⟩
  raises := by
    intro s e t _ he
    cases he

theorem when {c : Prop} [Decidable c] {m : Proc ε σ Unit} {Q : Unit → σ → Prop}
    (hm : c → Triple P m Q E) (hn : ¬ c → ∀ s, P s → Q () s) : Triple P (Proc.when c m) Q E := by
  by_cases hc : c
  · rw [Proc.when_pos hc]
    exact hm hc
  · rw [Proc.when_neg hc]
    exact .pure (hn hc)

end Triple

end Lib
