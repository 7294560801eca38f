import Mathlib.Data.List.Basic

/-! A step reads a symbol and goes on, reads it and stops to report something, or
refuses it. `feed` runs the steps over a list until one stops, and returns the
symbols it did not read. What a machine reports does not depend on how its
input was cut (`feed_append_of_none`, `feed_append_of_some`). -/
namespace Lib

inductive Outcome (σ ω : Type)
  | next (s : σ)
  | stop (s : σ) (o : ω)
  | refuse (o : ω)

variable {σ ι ω : Type} (step : σ → ι → Outcome σ ω)

def feed (s : σ) : List ι → σ × Option ω × List ι
  | [] => (s, none, [])
  | x :: xs =>
    match step s x with
    | .next s' => feed s' xs
    | .stop s' o => (s', some o, xs)
    | .refuse o => (s, some o, x :: xs)

@[simp] theorem feed_nil (s : σ) : feed step s [] = (s, none, []) := rfl

variable {step}

theorem feed_next {s t : σ} {x : ι} (h : step s x = .next t) (xs : List ι) :
    feed step s (x :: xs) = feed step t xs := by
  simp [feed, h]

theorem feed_stop {s t : σ} {x : ι} {o : ω} (h : step s x = .stop t o) (xs : List ι) :
    feed step s (x :: xs) = (t, some o, xs) := by
  simp [feed, h]

theorem feed_refuse {s : σ} {x : ι} {o : ω} (h : step s x = .refuse o) (xs : List ι) :
    feed step s (x :: xs) = (s, some o, x :: xs) := by
  simp [feed, h]

theorem feed_append_of_none {s s' : σ} {xs rest : List ι}
    (h : feed step s xs = (s', none, rest)) (ys : List ι) :
    feed step s (xs ++ ys) = feed step s' ys := by
  induction xs generalizing s with
  | nil => cases h; rfl
  | cons x xs ih =>
    cases e : step s x with
    | next t =>
      rw [feed_next e] at h
      rw [List.cons_append, feed_next e, ih h]
    | stop t o => rw [feed_stop e] at h; cases h
    | refuse o => rw [feed_refuse e] at h; cases h

theorem feed_append_of_some {s s' : σ} {o : ω} {xs rest : List ι}
    (h : feed step s xs = (s', some o, rest)) (ys : List ι) :
    feed step s (xs ++ ys) = (s', some o, rest ++ ys) := by
  induction xs generalizing s with
  | nil => cases h
  | cons x xs ih =>
    cases e : step s x with
    | next t =>
      rw [feed_next e] at h
      rw [List.cons_append, feed_next e, ih h]
    | stop t o =>
      rw [feed_stop e] at h
      cases h
      rw [List.cons_append, feed_stop e]
    | refuse o =>
      rw [feed_refuse e] at h
      cases h
      rw [List.cons_append, feed_refuse e]

theorem feed_none_rest {s s' : σ} {xs rest : List ι} (h : feed step s xs = (s', none, rest)) :
    rest = [] := by
  induction xs generalizing s with
  | nil => cases h; rfl
  | cons x xs ih =>
    cases e : step s x with
    | next t =>
      rw [feed_next e] at h
      exact ih h
    | stop t o => rw [feed_stop e] at h; cases h
    | refuse o => rw [feed_refuse e] at h; cases h

/-- A machine that stops on the whole input has not stopped on a part of it
that leaves something unread. -/
theorem feed_none_of_append {s s' : σ} {o : ω} {xs ys rest : List ι}
    (h : feed step s (xs ++ ys) = (s', some o, rest)) (hr : rest.length < ys.length) :
    ∃ t, feed step s xs = (t, none, []) ∧ feed step t ys = (s', some o, rest) := by
  rcases e : feed step s xs with ⟨t, _ | o', rest'⟩
  · have := feed_none_rest e
    subst this
    exact ⟨t, rfl, feed_append_of_none e ys ▸ h⟩
  · rw [feed_append_of_some e] at h
    have : rest = rest' ++ ys := by cases h; rfl
    rw [this, List.length_append] at hr
    omega

end Lib
