import Trilogy.Lib.Proc

/-! `Returns again m s r t`: called from `s`, and called again for as long as it
ends with `again`, `m` ends with `r` and leaves the state `t`. There is no such
`r` when the calls never stop. -/
namespace Lib

variable {ε σ α β : Type} {again : ε}

inductive Returns (again : ε) (m : Proc ε σ α) : σ → Except ε α → σ → Prop
  | stop {s r t} : m s = (r, t) → r ≠ .error again → Returns again m s r t
  | again {s u r t} : m s = (.error again, u) → Returns again m u r t → Returns again m s r t

namespace Returns

variable {m : Proc ε σ α} {s t t' : σ} {r r' : Except ε α}

theorem unique (h : Returns again m s r t) (h' : Returns again m s r' t') : r = r' ∧ t = t' := by
  induction h with
  | stop e hr =>
    cases h' with
    | stop e' _ =>
      rw [e] at e'
      cases e'
      exact ⟨rfl, rfl⟩
    | again e' _ =>
      rw [e] at e'
      cases e'
      exact absurd rfl hr
  | again e _ ih =>
    cases h' with
    | stop e' hr' =>
      rw [e] at e'
      cases e'
      exact absurd rfl hr'
    | again e' h' =>
      rw [e] at e'
      cases e'
      exact ih h'

/-- Two procedures that agree from every state a run can pass through. -/
theorem congr {m' : Proc ε σ α} {I : σ → Prop} (h : Returns again m s r t) (hs : I s)
    (same : ∀ s, I s → m' s = m s) (keep : ∀ s u, I s → m s = (.error again, u) → I u) :
    Returns again m' s r t := by
  induction h with
  | stop e hr => exact .stop (same _ hs ▸ e) hr
  | again e _ ih => exact .again (same _ hs ▸ e) (ih (keep _ _ hs e))

theorem keeps {R : σ → σ → Prop} [IsTrans σ R] (h : Returns again m s r t)
    (hm : Proc.Keeps R m) : R s t := by
  induction h with
  | @stop s _ _ e _ => simpa only [e] using hm s
  | @again s _ _ _ e _ ih => exact IsTrans.trans _ _ _ (by simpa only [e] using hm s) ih

theorem bind_ok {f : α → Proc ε σ β} {a : α} {r : Except ε β} {t' : σ}
    (h : Returns again m s (.ok a) t) (hf : f a t = (r, t')) (hr : r ≠ .error again) :
    Returns again (m >>= f) s r t' := by
  generalize e : (Except.ok a : Except ε α) = q at h
  induction h with
  | stop e' _ =>
    subst e
    exact .stop (by rw [Proc.bind_of_ok e', hf]) hr
  | again e' _ ih => exact .again (Proc.bind_of_error e') (ih hf e)

theorem bind_error {f : α → Proc ε σ β} {e : ε} (h : Returns again m s (.error e) t) :
    Returns again (m >>= f) s (.error e) t := by
  generalize eq : (Except.error e : Except ε α) = q at h
  induction h with
  | stop e' hr =>
    subst eq
    exact .stop (Proc.bind_of_error e') (by simpa using hr)
  | again e' _ ih => exact .again (Proc.bind_of_error e') (ih eq)

theorem map (f : α → β) (h : Returns again m s r t) : Returns again (f <$> m) s (r.map f) t := by
  rw [map_eq_pure_bind]
  cases r with
  | ok a => exact h.bind_ok rfl (by rintro ⟨⟩)
  | error e => exact h.bind_error

theorem of_map {f : α → β} {r : Except ε β} (h : Returns again (f <$> m) s r t) :
    ∃ r', Returns again m s r' t ∧ r = r'.map f := by
  induction h with
  | @stop s r t e hr =>
    rw [Proc.map_apply] at e
    cases e
    exact ⟨(m s).1, .stop rfl fun hagain => hr (congrArg (Except.map f) hagain), rfl⟩
  | @again s u r t e _ ih =>
    obtain ⟨r', hreturns, hr⟩ := ih
    exact ⟨r', .again (Proc.map_error.mp e) hreturns, hr⟩

/-- A first part that is done once, and passed over by the calls after that. -/
theorem bind_skip {f : α → Proc ε σ β} {a : α} {r : Except ε β} {t' : σ} {I : σ → Prop}
    (h : Returns again m s (.ok a) t) (hf : Returns again (f a) t r t') (ht : I t)
    (skip : ∀ u, I u → m u = (.ok a, u))
    (keep : ∀ u v, I u → f a u = (.error again, v) → I v) : Returns again (m >>= f) s r t' := by
  generalize e : (Except.ok a : Except ε α) = q at h
  induction h with
  | again e' _ ih => exact .again (Proc.bind_of_error e') (ih hf ht e)
  | stop e' _ =>
    subst e
    have rest : ∀ {u}, Returns again (f a) u r t' → I u → Returns again (m >>= f) u r t' :=
      fun hu hi => hu.congr hi (fun u hu => Proc.bind_of_ok (skip u hu)) keep
    cases hf with
    | stop e hr => exact .stop (by rw [Proc.bind_of_ok e', e]) hr
    | again e hf => exact .again (by rw [Proc.bind_of_ok e', e]) (rest hf (keep _ _ ht e))

/-- What follows a first part that is passed over from then on. -/
theorem of_bind_skip {f : α → Proc ε σ β} {a : α} {r : Except ε β} {t' : σ} {I : σ → Prop}
    (h : Returns again m s (.ok a) t) (hf : Returns again (m >>= f) s r t') (ht : I t)
    (skip : ∀ u, I u → m u = (.ok a, u))
    (keep : ∀ u v, I u → f a u = (.error again, v) → I v) : Returns again (f a) t r t' := by
  have rest : ∀ {u}, Returns again (m >>= f) u r t' → I u → Returns again (f a) u r t' :=
    fun hu hi => hu.congr hi (fun u hu => (Proc.bind_of_ok (skip u hu)).symm)
      fun u v hu e => keep u v hu ((Proc.bind_of_ok (skip u hu)).symm.trans e)
  generalize e : (Except.ok a : Except ε α) = q at h
  induction h with
  | again e' _ ih =>
    cases hf with
    | stop e'' hr =>
      rw [Proc.bind_of_error e'] at e''
      cases e''
      exact absurd rfl hr
    | again e'' hf =>
      rw [Proc.bind_of_error e'] at e''
      cases e''
      exact ih hf ht e
  | stop e' _ =>
    subst e
    cases hf with
    | stop e'' hr => exact .stop ((Proc.bind_of_ok e').symm.trans e'') hr
    | again e'' hf =>
      rw [Proc.bind_of_ok e'] at e''
      exact .again e'' (rest hf (keep _ _ ht e''))

end Returns

/-- Called again and again, each time until it stops asking for it, `m` ends
with the values of the list. -/
inductive Yields (again : ε) (m : Proc ε σ α) : σ → List α → σ → Prop
  | nil (s : σ) : Yields again m s [] s
  | cons {s t u a as} : Returns again m s (.ok a) t → Yields again m t as u →
      Yields again m s (a :: as) u

theorem Yields.unique {m : Proc ε σ α} {s t t' : σ} {as : List α} (h : Yields again m s as t)
    (h' : Yields again m s as t') : t = t' := by
  induction h with
  | nil s =>
    cases h'
    rfl
  | cons first _ ih =>
    cases h' with
    | cons first' rest' =>
      obtain ⟨-, rfl⟩ := first.unique first'
      exact ih rest'

end Lib
