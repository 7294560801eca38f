import Mathlib.Data.List.Basic
import Trilogy.Lib.Proc

/-! A `Cursor` is a position in a list. `Reads m input r left` says what a
procedure makes of the symbols in front of it: wherever `input` is what is left,
`m` ends with `r` and leaves `left`. The rules below run a parser symbolically,
over an input whose shape is known; `Raises` bounds the errors it can end with.
`Safe` is about any input: the procedure never gets hold of anything outside the
list, and what it returns on success satisfies a predicate. -/
namespace Lib

/-- `log` is the history of the array elements that were touched, each with the
size of its array; no function reads it. -/
structure Cursor (ι : Type) where
  buff : List ι
  pos : Nat
  log : List (Nat × Nat)

namespace Cursor

variable {ε ι α β : Type}

def ofList (buff : List ι) : Cursor ι := ⟨buff, 0, []⟩

def rest (c : Cursor ι) : List ι := c.buff.drop c.pos

theorem length_rest (c : Cursor ι) : c.rest.length = c.buff.length - c.pos := List.length_drop

/-- Element `i` of an array of `n`. -/
def touch (i n : Nat) (c : Cursor ι) : Cursor ι := { c with log := (i, n) :: c.log }

/-- The elements of an array of `n` up to `stop`, which may be its end. -/
def span (stop n : Nat) (c : Cursor ι) : Cursor ι := c.touch stop (n + 1)

/-- Read the symbol here. -/
def step (c : Cursor ι) : Cursor ι := { c.touch c.pos c.buff.length with pos := c.pos + 1 }

/-- Move past `n` symbols. -/
def advance (n : Nat) (c : Cursor ι) : Cursor ι :=
  { c.span (c.pos + n) c.buff.length with pos := c.pos + n }

@[simp] theorem pos_touch (i n : Nat) (c : Cursor ι) : (c.touch i n).pos = c.pos := rfl

@[simp] theorem buff_advance (n : Nat) (c : Cursor ι) : (c.advance n).buff = c.buff := rfl

@[simp] theorem pos_advance (n : Nat) (c : Cursor ι) : (c.advance n).pos = c.pos + n := rfl

@[simp] theorem rest_advance (n : Nat) (c : Cursor ι) : (c.advance n).rest = c.rest.drop n := by
  rw [rest, rest, List.drop_drop]
  rfl

/-- Note an access, which the cursor may be asked about. -/
def mark (g : Cursor ι → Nat × Nat) : Proc ε (Cursor ι) Unit := fun c =>
  (.ok (), c.touch (g c).1 (g c).2)

/-- Run `m` over a list of its own. -/
def nested (m : Proc ε (Cursor ι) α) (buff : List ι) : Proc ε (Cursor ι) α := fun c =>
  ((m (ofList buff)).1, { c with log := (m (ofList buff)).2.log ++ c.log })

def Reads (m : Proc ε (Cursor ι) α) (input : List ι) (r : Except ε α) (left : List ι) : Prop :=
  ∀ c : Cursor ι, c.pos ≤ c.buff.length → c.rest = input →
    ∃ c', m c = (r, c') ∧ c'.pos ≤ c'.buff.length ∧ c'.rest = left

namespace Reads

variable {m : Proc ε (Cursor ι) α} {f : α → Proc ε (Cursor ι) β} {input left left' : List ι}

theorem pure (a : α) (input : List ι) :
    Reads (Pure.pure a : Proc ε (Cursor ι) α) input (.ok a) input :=
  fun c hp h => ⟨c, rfl, hp, h⟩

theorem throw (e : ε) (input : List ι) :
    Reads (MonadExcept.throw e : Proc ε (Cursor ι) α) input (.error e) input :=
  fun c hp h => ⟨c, rfl, hp, h⟩

/-- A check that lets the input pass. -/
theorem passes {p : Prop} [Decidable p] (h : ¬ p) (e : ε) (input : List ι) :
    Reads (Proc.when p (MonadExcept.throw e) : Proc ε (Cursor ι) Unit) input (.ok ()) input := by
  rw [Proc.when_neg h]
  exact pure () input

theorem mark (g : Cursor ι → Nat × Nat) (input : List ι) :
    Reads (Cursor.mark g : Proc ε (Cursor ι) Unit) input (.ok ()) input :=
  fun _ hp h => ⟨_, rfl, hp, h⟩

theorem bind {a : α} {r : Except ε β} (hm : Reads m input (.ok a) left)
    (hf : Reads (f a) left r left') : Reads (m >>= f) input r left' := by
  intro c hp hc
  obtain ⟨c₁, h₁, hp₁, hc₁⟩ := hm c hp hc
  obtain ⟨c₂, h₂, hp₂, hc₂⟩ := hf c₁ hp₁ hc₁
  exact ⟨c₂, by rw [Proc.bind_of_ok h₁, h₂], hp₂, hc₂⟩

/-- What is left of a run when its first part is known. -/
theorem bind_ok {a : α} {b : β} {c c' : Cursor ι} (hm : Reads m input (.ok a) left)
    (hp : c.pos ≤ c.buff.length) (hc : c.rest = input) (h : (m >>= f) c = (.ok b, c')) :
    ∃ c₁, c₁.pos ≤ c₁.buff.length ∧ c₁.rest = left ∧ f a c₁ = (.ok b, c') := by
  obtain ⟨c₁, h₁, hp₁, hc₁⟩ := hm c hp hc
  rw [Proc.bind_of_ok h₁] at h
  exact ⟨c₁, hp₁, hc₁, h⟩

theorem bind_error {e : ε} (hm : Reads m input (.error e) left) :
    Reads (m >>= f) input (.error e) left := by
  intro c hp hc
  obtain ⟨c₁, h₁, hp₁, hc₁⟩ := hm c hp hc
  exact ⟨c₁, Proc.bind_of_error h₁, hp₁, hc₁⟩

theorem attempt {r : Except ε α} (hm : Reads m input r left) :
    Reads (Proc.attempt m) input (.ok r) left := by
  intro c hp hc
  obtain ⟨c₁, h₁, hp₁, hc₁⟩ := hm c hp hc
  exact ⟨c₁, by rw [Proc.attempt_apply, h₁], hp₁, hc₁⟩

theorem nested {r : Except ε α} {buff : List ι} (hm : (m (ofList buff)).1 = r)
    (input : List ι) : Reads (Cursor.nested m buff) input r input :=
  fun c hp h => ⟨{ c with log := (m (ofList buff)).2.log ++ c.log },
    by rw [Cursor.nested, hm], hp, h⟩

theorem run {r : Except ε α} (hm : Reads m input r left) : (m (ofList input)).1 = r := by
  obtain ⟨c, h, -⟩ := hm (ofList input) (Nat.zero_le _) rfl
  rw [h]

end Reads

/-- Every error `m` ends with satisfies `P`. -/
def Raises (P : ε → Prop) (m : Proc ε (Cursor ι) α) : Prop :=
  ∀ ⦃c e c'⦄, m c = (.error e, c') → P e

namespace Raises

variable {P Q : ε → Prop} {m : Proc ε (Cursor ι) α} {f : α → Proc ε (Cursor ι) β}

theorem mono (hm : Raises P m) (h : ∀ e, P e → Q e) : Raises Q m :=
  fun _ e _ he => h e (hm he)

theorem pure (a : α) : Raises P (Pure.pure a : Proc ε (Cursor ι) α) := by
  intro c e c' h
  cases h

theorem throw {e : ε} (h : P e) : Raises P (MonadExcept.throw e : Proc ε (Cursor ι) α) := by
  intro c e' c' h'
  cases h'
  exact h

theorem get : Raises P (MonadState.get : Proc ε (Cursor ι) (Cursor ι)) := by
  intro c e c' h
  cases h

theorem mark (g : Cursor ι → Nat × Nat) :
    Raises P (Cursor.mark g : Proc ε (Cursor ι) Unit) := by
  intro c e c' h
  cases h

theorem nested (hm : Raises P m) (buff : List ι) : Raises P (Cursor.nested m buff) := by
  intro c e c' h
  exact hm (Proc.ends (congrArg Prod.fst h))

theorem bind (hm : Raises P m) (hf : ∀ a, Raises P (f a)) : Raises P (m >>= f) := by
  intro c e c' h
  rcases Proc.bind_error.mp h with h | ⟨a, c₁, -, h⟩
  · exact hm h
  · exact hf a h

theorem ite {p : Prop} [Decidable p] {m m' : Proc ε (Cursor ι) α} (hm : Raises P m)
    (hm' : Raises P m') : Raises P (if p then m else m') := by
  split
  · exact hm
  · exact hm'

end Raises

/-- In bounds, in the list and in all that was touched. -/
structure Inside (buff : List ι) (c : Cursor ι) : Prop where
  same : c.buff = buff
  pos_le : c.pos ≤ buff.length
  log : ∀ access ∈ c.log, access.1 < access.2

/-- From inside the list `m` stays inside, and what it returns satisfies `Q`. -/
def Safe (buff : List ι) (m : Proc ε (Cursor ι) α) (Q : α → Prop) : Prop :=
  ∀ c, Inside buff c → Inside buff (m c).2 ∧ ∀ a, (m c).1 = .ok a → Q a

namespace Safe

variable {buff : List ι} {m : Proc ε (Cursor ι) α} {f : α → Proc ε (Cursor ι) β} {Q : α → Prop}
  {R : β → Prop}

theorem pure {a : α} (h : Q a) : Safe buff (Pure.pure a : Proc ε (Cursor ι) α) Q :=
  fun _ hc => ⟨hc, by rintro _ ⟨⟩; exact h⟩

theorem throw (e : ε) : Safe buff (MonadExcept.throw e : Proc ε (Cursor ι) α) Q :=
  fun _ hc => ⟨hc, by rintro _ ⟨⟩⟩

theorem bind (hm : Safe buff m Q) (hf : ∀ a, Q a → Safe buff (f a) R) :
    Safe buff (m >>= f) R := by
  intro c hc
  obtain ⟨hin, hok⟩ := hm c hc
  rw [Proc.bind_apply]
  rcases e : m c with ⟨rc | a, c₁⟩
  · rw [e] at hin
    exact ⟨hin, by rintro _ ⟨⟩⟩
  · rw [e] at hin hok
    exact hf a (hok a rfl) c₁ hin

theorem mark {g : Cursor ι → Nat × Nat} (h : ∀ c, Inside buff c → (g c).1 < (g c).2) :
    Safe buff (Cursor.mark g : Proc ε (Cursor ι) Unit) fun _ => True :=
  fun c hc => ⟨⟨hc.same, hc.pos_le, List.forall_mem_cons.mpr ⟨h c hc, hc.log⟩⟩, fun _ _ => trivial⟩

theorem nested {inner : List ι} (hm : Safe inner m Q) : Safe buff (Cursor.nested m inner) Q := by
  intro c hc
  obtain ⟨hin, hok⟩ := hm (ofList inner) ⟨rfl, Nat.zero_le _, by simp [ofList]⟩
  refine ⟨⟨hc.same, hc.pos_le, fun access h => ?_⟩, hok⟩
  rcases List.mem_append.mp h with h | h
  · exact hin.log access h
  · exact hc.log access h

theorem weaken (hm : Safe buff m Q) {Q' : α → Prop} (h : ∀ a, Q a → Q' a) : Safe buff m Q' :=
  fun c hc => ⟨(hm c hc).1, fun a ha => h a ((hm c hc).2 a ha)⟩

theorem attempt (hm : Safe buff m Q) :
    Safe buff (Proc.attempt m) fun r => ∀ a, r = .ok a → Q a := by
  intro c hc
  refine ⟨(hm c hc).1, ?_⟩
  rintro _ ⟨⟩
  exact (hm c hc).2

theorem ite {p : Prop} [Decidable p] {m m' : Proc ε (Cursor ι) α} (hm : p → Safe buff m Q)
    (hm' : ¬ p → Safe buff m' Q) : Safe buff (if p then m else m') Q := by
  split
  · exact hm ‹_›
  · exact hm' ‹_›

end Safe

/-- On success `m` has moved on by `k` symbols at least. -/
def Moves (k : Nat) (m : Proc ε (Cursor ι) α) : Prop :=
  ∀ ⦃c a c'⦄, m c = (.ok a, c') → c'.buff = c.buff ∧ c.pos + k ≤ c'.pos

namespace Moves

variable {k l : Nat} {m : Proc ε (Cursor ι) α} {f : α → Proc ε (Cursor ι) β}

theorem pure (a : α) : Moves 0 (Pure.pure a : Proc ε (Cursor ι) α) := by
  intro c a' c' h
  cases h
  exact ⟨rfl, Nat.le_refl _⟩

theorem throw (e : ε) : Moves k (MonadExcept.throw e : Proc ε (Cursor ι) α) := by
  intro c a c' h
  cases h

theorem mark (g : Cursor ι → Nat × Nat) :
    Moves 0 (Cursor.mark g : Proc ε (Cursor ι) Unit) := by
  intro c a c' h
  cases h
  exact ⟨rfl, Nat.le_refl _⟩

theorem get : Moves 0 (MonadState.get : Proc ε (Cursor ι) (Cursor ι)) := by
  intro c a c' h
  cases h
  exact ⟨rfl, Nat.le_refl _⟩

theorem nested (m : Proc ε (Cursor ι) α) (buff : List ι) : Moves 0 (Cursor.nested m buff) := by
  intro c a c' h
  cases congrArg Prod.snd h
  exact ⟨rfl, Nat.le_refl _⟩

theorem bind (hm : Moves k m) (hf : ∀ a, Moves l (f a)) : Moves (k + l) (m >>= f) := by
  intro c b c' h
  obtain ⟨a, c₁, h₁, h₂⟩ := Proc.bind_ok.mp h
  obtain ⟨hb₁, hp₁⟩ := hm h₁
  obtain ⟨hb₂, hp₂⟩ := hf a h₂
  exact ⟨hb₂.trans hb₁, by omega⟩

theorem weaken (hm : Moves k m) (h : l ≤ k) : Moves l m := by
  intro c a c' e
  obtain ⟨hb, hp⟩ := hm e
  exact ⟨hb, by omega⟩

theorem ite {p : Prop} [Decidable p] {m m' : Proc ε (Cursor ι) α} (hm : Moves k m)
    (hm' : Moves k m') : Moves k (if p then m else m') := by
  split
  · exact hm
  · exact hm'

end Moves

end Cursor

end Lib
