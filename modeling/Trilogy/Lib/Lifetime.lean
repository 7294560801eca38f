import Mathlib.Data.List.Induction

namespace Lib

inductive Life
  | live | closed | misused
  deriving DecidableEq, Repr

namespace Life

variable {ε : Type} (closes : ε → Bool)

def next : Life → ε → Life
  | live, e => if closes e then closed else live
  | _, _ => misused

/-- What has become of it. -/
def after (events : List ε) : Life := events.foldl (next closes) live

variable {closes} {events : List ε} {e : ε}

theorem after_concat : after closes (events ++ [e]) = next closes (after closes events) e := by
  rw [after, List.foldl_append]
  rfl

theorem next_live {life : Life} : next closes life e = live ↔ life = live ∧ closes e = false := by
  cases life <;> simp [next]

theorem next_closed {life : Life} : next closes life e = closed ↔ life = live ∧ closes e = true := by
  cases life <;> simp [next]

theorem after_live : after closes events = live ↔ ∀ e ∈ events, closes e = false := by
  induction events using List.reverseRecOn with
  | nil => simp [after]
  | append_singleton events e ih =>
    rw [after_concat, next_live, ih]
    simp [or_imp, forall_and]

/-- It was closed once, and that was the end of it. -/
theorem after_closed : after closes events = closed ↔
    ∃ before e, events = before ++ [e] ∧ closes e = true ∧ ∀ d ∈ before, closes d = false := by
  constructor
  · intro h
    induction events using List.reverseRecOn with
    | nil => cases h
    | append_singleton events e _ =>
      rw [after_concat, next_closed, after_live] at h
      exact ⟨events, e, rfl, h.2, h.1⟩
  · rintro ⟨before, e, rfl, he, hbefore⟩
    rw [after_concat, next_closed, after_live]
    exact ⟨hbefore, he⟩

end Life

end Lib
