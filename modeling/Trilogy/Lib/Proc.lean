import Mathlib.Order.Defs.Unbundled

/-! A procedure reads and writes a state and ends with a value or an error. The
state it leaves is kept in both cases, as with a function that changes its
arguments and then returns an error code.

* `bind_ok`, `bind_error`: what a sequence of two procedures can have done;
* `bind_of_ok`, `bind_of_error`: running a sequence forwards;
* `Keeps`: a relation between the state before and after, on every exit. -/
namespace Lib

def Proc (ε σ α : Type) : Type := σ → Except ε α × σ

namespace Proc

variable {ε σ τ α β : Type}

instance : Monad (Proc ε σ) where
  pure a := fun s => (.ok a, s)
  bind m f := fun s =>
    match m s with
    | (.ok a, s') => f a s'
    | (.error e, s') => (.error e, s')

instance : MonadStateOf σ (Proc ε σ) where
  get := fun s => (.ok s, s)
  set s := fun _ => (.ok (), s)
  modifyGet f := fun s => (.ok (f s).1, (f s).2)

instance : MonadExceptOf ε (Proc ε σ) where
  throw e := fun s => (.error e, s)
  tryCatch m h := fun s =>
    match m s with
    | (.ok a, s') => (.ok a, s')
    | (.error e, s') => h e s'

/-- Run `m` on one part of the state. -/
def zoom (part : σ → τ) (put : τ → σ → σ) (m : Proc ε τ α) : Proc ε σ α := fun s =>
  ((m (part s)).1, put (m (part s)).2 s)

/-- Run `m` and hand its outcome on, error or not. -/
def attempt (m : Proc ε σ α) : Proc ε σ (Except ε α) := fun s => (.ok (m s).1, (m s).2)

/-- Run `m` where the condition holds. -/
def when (c : Prop) [Decidable c] (m : Proc ε σ Unit) : Proc ε σ Unit :=
  if c then m else pure ()

theorem when_pos {c : Prop} [Decidable c] (h : c) (m : Proc ε σ Unit) : when c m = m := if_pos h

theorem when_neg {c : Prop} [Decidable c] (h : ¬ c) (m : Proc ε σ Unit) : when c m = pure () :=
  if_neg h

theorem not_of_when_throw {c : Prop} [Decidable c] {e : ε} {u : Unit} {s t : σ}
    (h : (when c (throw e) : Proc ε σ Unit) s = (.ok u, t)) : ¬ c := by
  intro hc
  rw [when_pos hc] at h
  cases h

@[simp] theorem pure_apply (a : α) (s : σ) : (pure a : Proc ε σ α) s = (.ok a, s) := rfl

@[simp] theorem modify_apply (f : σ → σ) (s : σ) :
    (modify f : Proc ε σ PUnit) s = (.ok (), f s) := rfl

@[simp] theorem throw_apply (e : ε) (s : σ) : (throw e : Proc ε σ α) s = (.error e, s) := rfl

@[simp] theorem zoom_apply (part : σ → τ) (put : τ → σ → σ) (m : Proc ε τ α) (s : σ) :
    zoom part put m s = ((m (part s)).1, put (m (part s)).2 s) := rfl

@[simp] theorem attempt_apply (m : Proc ε σ α) (s : σ) :
    attempt m s = (.ok (m s).1, (m s).2) := rfl

theorem ends {m : Proc ε σ α} {s : σ} {r : Except ε α} (h : (m s).1 = r) :
    m s = (r, (m s).2) := by
  rw [← h]

theorem bind_apply (m : Proc ε σ α) (f : α → Proc ε σ β) (s : σ) :
    (m >>= f) s = match m s with
      | (.ok a, s') => f a s'
      | (.error e, s') => (.error e, s') := rfl

theorem bind_of_ok {m : Proc ε σ α} {f : α → Proc ε σ β} {s s' : σ} {a : α}
    (h : m s = (.ok a, s')) : (m >>= f) s = f a s' := by
  rw [bind_apply, h]

theorem bind_of_error {m : Proc ε σ α} {f : α → Proc ε σ β} {s s' : σ} {e : ε}
    (h : m s = (.error e, s')) : (m >>= f) s = (.error e, s') := by
  rw [bind_apply, h]

theorem bind_ok {m : Proc ε σ α} {f : α → Proc ε σ β} {s t : σ} {b : β} :
    (m >>= f) s = (.ok b, t) ↔ ∃ a s', m s = (.ok a, s') ∧ f a s' = (.ok b, t) := by
  rw [bind_apply]
  rcases h : m s with ⟨_ | a, s'⟩
  · simp
  · exact ⟨fun hf => ⟨a, s', rfl, hf⟩, by rintro ⟨_, _, ⟨⟩, hf⟩; exact hf⟩

theorem bind_error {m : Proc ε σ α} {f : α → Proc ε σ β} {s t : σ} {e : ε} :
    (m >>= f) s = (.error e, t) ↔
      m s = (.error e, t) ∨ ∃ a s', m s = (.ok a, s') ∧ f a s' = (.error e, t) := by
  rw [bind_apply]
  rcases h : m s with ⟨_ | a, s'⟩
  · simp
  · refine ⟨fun hf => .inr ⟨a, s', rfl, hf⟩, ?_⟩
    rintro (he | ⟨_, _, ⟨⟩, hf⟩)
    · cases he
    · exact hf

theorem bind_congr_left {m m' : Proc ε σ α} {s : σ} (h : m s = m' s) (f : α → Proc ε σ β) :
    (m >>= f) s = (m' >>= f) s := by
  rw [bind_apply, bind_apply, h]

theorem bind_congr {m : Proc ε σ α} {f g : α → Proc ε σ β} {s : σ}
    (h : ∀ a s', m s = (.ok a, s') → f a s' = g a s') : (m >>= f) s = (m >>= g) s := by
  rw [bind_apply, bind_apply]
  rcases e : m s with ⟨_ | a, s'⟩
  · rfl
  · exact h a s' e

@[simp] theorem get_bind (f : σ → Proc ε σ β) (s : σ) : ((get : Proc ε σ σ) >>= f) s = f s s := rfl

@[simp] theorem modify_bind (g : σ → σ) (f : PUnit → Proc ε σ β) (s : σ) :
    ((modify g : Proc ε σ PUnit) >>= f) s = f () (g s) := rfl

@[simp] theorem throw_bind (e : ε) (f : α → Proc ε σ β) (s : σ) :
    ((throw e : Proc ε σ α) >>= f) s = (.error e, s) := rfl

@[simp] theorem attempt_bind (m : Proc ε σ α) (f : Except ε α → Proc ε σ β) (s : σ) :
    (attempt m >>= f) s = f (m s).1 (m s).2 := rfl

instance : LawfulMonad (Proc ε σ) := LawfulMonad.mk' _
  (by
    intro α m
    funext s
    show (m >>= fun a => pure (id a)) s = m s
    rw [bind_apply]
    rcases h : m s with ⟨_ | a, s'⟩ <;> rfl)
  (fun _ _ => rfl)
  (by
    intro α β γ m f g
    funext s
    simp only [bind_apply]
    rcases h : m s with ⟨_ | a, s'⟩ <;> rfl)

theorem map_apply (f : α → β) (m : Proc ε σ α) (s : σ) :
    (f <$> m) s = ((m s).1.map f, (m s).2) := by
  rw [map_eq_pure_bind, bind_apply]
  rcases m s with ⟨_ | _, _⟩
  · rfl
  · rfl

theorem map_state (f : α → β) (m : Proc ε σ α) (s : σ) : ((f <$> m) s).2 = (m s).2 := by
  rw [map_apply]

theorem map_ok {f : α → β} {m : Proc ε σ α} {s t : σ} {b : β} :
    (f <$> m) s = (.ok b, t) ↔ ∃ a, m s = (.ok a, t) ∧ f a = b := by
  rw [map_apply]
  rcases m s with ⟨e | a, s'⟩
  · simp [Except.map]
  · simp only [Except.map, Prod.mk.injEq, Except.ok.injEq]
    constructor
    · rintro ⟨hb, ht⟩
      exact ⟨a, ⟨rfl, ht⟩, hb⟩
    · rintro ⟨_, ⟨rfl, ht⟩, hb⟩
      exact ⟨hb, ht⟩

theorem map_error {f : α → β} {m : Proc ε σ α} {s t : σ} {e : ε} :
    (f <$> m) s = (.error e, t) ↔ m s = (.error e, t) := by
  rw [map_apply]
  rcases m s with ⟨e | a, s'⟩ <;> simp [Except.map]

/-- However `m` ends, the state before and the state after are related. -/
def Keeps (R : σ → σ → Prop) (m : Proc ε σ α) : Prop := ∀ s, R s (m s).2

section Keeps

variable {R : σ → σ → Prop}

theorem Keeps.pure [Std.Refl R] (a : α) : Keeps R (pure a : Proc ε σ α) :=
  fun s => Std.Refl.refl s

theorem Keeps.throw [Std.Refl R] (e : ε) : Keeps R (throw e : Proc ε σ α) :=
  fun s => Std.Refl.refl s

theorem Keeps.get [Std.Refl R] : Keeps R (get : Proc ε σ σ) :=
  fun s => Std.Refl.refl s

theorem Keeps.get_bind {g : σ → Proc ε σ β} (h : ∀ s, R s (g s s).2) :
    Keeps R (MonadState.get >>= g) := h

theorem Keeps.modify {f : σ → σ} (h : ∀ s, R s (f s)) : Keeps R (modify f : Proc ε σ PUnit) := h

theorem Keeps.bind [IsTrans σ R] {m : Proc ε σ α} {f : α → Proc ε σ β}
    (hm : Keeps R m) (hf : ∀ a, Keeps R (f a)) : Keeps R (m >>= f) := by
  intro s
  have h := hm s
  rw [bind_apply]
  rcases e : m s with ⟨_ | a, s'⟩
  · simpa [e] using h
  · rw [e] at h
    exact IsTrans.trans _ _ _ h (hf a s')

theorem Keeps.attempt {m : Proc ε σ α} (hm : Keeps R m) : Keeps R (attempt m) := hm

theorem Keeps.ite {c : Prop} [Decidable c] {m m' : Proc ε σ α} (hm : c → Keeps R m)
    (hm' : ¬ c → Keeps R m') : Keeps R (if c then m else m') := by
  split
  · exact hm ‹_›
  · exact hm' ‹_›

theorem Keeps.when [Std.Refl R] {c : Prop} [Decidable c] {m : Proc ε σ Unit}
    (hm : c → Keeps R m) : Keeps R (when c m) :=
  .ite hm fun _ => .pure _

end Keeps

end Proc

end Lib
