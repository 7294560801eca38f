import Trilogy.Lib.Cursor

/-! `Reads` runs a reader over an input whose shape is known. `Accepts m R` says
which inputs it succeeds on at all: `m`, with `input` in front of it, ends with
`a` and leaves `left` exactly when `R input a left`. The rules follow the text
of a reader, so that its grammar is read off it.

* `Accepts.run`: over a whole list, an if and only if;
* `Accepts.unique`: no input is accepted in two ways. -/
namespace Lib

namespace Cursor

variable {ε ι α β : Type}

structure Accepts (m : Proc ε (Cursor ι) α) (R : List ι → α → List ι → Prop) : Prop where
  sound : ∀ ⦃c a c'⦄, c.pos ≤ c.buff.length → m c = (.ok a, c') →
    c'.pos ≤ c'.buff.length ∧ R c.rest a c'.rest
  complete : ∀ ⦃input a left⦄, R input a left → Reads m input (.ok a) left

namespace Accepts

variable {m m' : Proc ε (Cursor ι) α} {f : α → Proc ε (Cursor ι) β}
  {R R' : List ι → α → List ι → Prop} {S : α → List ι → β → List ι → Prop}

/-- A reader that fails wherever it has nothing to accept. -/
theorem of_reads (complete : ∀ input a left, R input a left → Reads m input (.ok a) left)
    (refuse : ∀ input, (∀ a left, ¬ R input a left) → ∃ e left, Reads m input (.error e) left) :
    Accepts m R where
  complete := complete
  sound := by
    intro c a c' hp h
    by_cases hr : ∃ a left, R c.rest a left
    · obtain ⟨a₁, left, hr⟩ := hr
      obtain ⟨c₁, h₁, hp₁, rfl⟩ := complete _ _ _ hr c hp rfl
      cases h.symm.trans h₁
      exact ⟨hp₁, hr⟩
    · obtain ⟨e, left, he⟩ := refuse c.rest fun a left hr' => hr ⟨a, left, hr'⟩
      obtain ⟨c₁, h₁, -⟩ := he c hp rfl
      cases h.symm.trans h₁

theorem of_iff (h : Accepts m R) (iff : ∀ input a left, R input a left ↔ R' input a left) :
    Accepts m R' where
  sound := fun _ _ _ hp e => ⟨(h.sound hp e).1, (iff _ _ _).mp (h.sound hp e).2⟩
  complete := fun _ _ _ hr => h.complete ((iff _ _ _).mpr hr)

theorem run (h : Accepts m R) {buff : List ι} {a : α} :
    (m (ofList buff)).1 = .ok a ↔ ∃ left, R buff a left := by
  constructor
  · intro e
    exact ⟨_, (h.sound (Nat.zero_le _) (Proc.ends e)).2⟩
  · rintro ⟨left, hr⟩
    exact (h.complete hr).run

theorem unique (h : Accepts m R) {input left left' : List ι} {a a' : α} (hr : R input a left)
    (hr' : R input a' left') : a = a' ∧ left = left' := by
  obtain ⟨c, e, -, rfl⟩ := h.complete hr (ofList input) (Nat.zero_le _) rfl
  obtain ⟨c', e', -, rfl⟩ := h.complete hr' (ofList input) (Nat.zero_le _) rfl
  cases e.symm.trans e'
  exact ⟨rfl, rfl⟩

theorem pure (a : α) :
    Accepts (Pure.pure a : Proc ε (Cursor ι) α) fun input b left => b = a ∧ left = input where
  sound := by
    intro c b c' hp h
    cases h
    exact ⟨hp, rfl, rfl⟩
  complete := by
    rintro input _ _ ⟨rfl, rfl⟩
    exact .pure _ _

theorem throw (e : ε) :
    Accepts (MonadExcept.throw e : Proc ε (Cursor ι) α) fun _ _ _ => False where
  sound := by
    intro c a c' _ h
    cases h
  complete := fun _ _ _ h => h.elim

theorem mark (g : Cursor ι → Nat × Nat) :
    Accepts (Cursor.mark g : Proc ε (Cursor ι) Unit) fun input _ left => left = input where
  sound := by
    intro c a c' hp h
    cases h
    exact ⟨hp, rfl⟩
  complete := by
    rintro input _ _ rfl
    exact .mark _ _

theorem bind (hm : Accepts m R) (hf : ∀ a, Accepts (f a) (S a)) :
    Accepts (m >>= f) fun input b left => ∃ a mid, R input a mid ∧ S a mid b left where
  sound := by
    intro c b c' hp h
    obtain ⟨a, c₁, h₁, h₂⟩ := Proc.bind_ok.mp h
    obtain ⟨hp₁, hr⟩ := hm.sound hp h₁
    obtain ⟨hp₂, hs⟩ := (hf a).sound hp₁ h₂
    exact ⟨hp₂, a, _, hr, hs⟩
  complete := by
    rintro input b left ⟨a, mid, hr, hs⟩
    exact (hm.complete hr).bind ((hf a).complete hs)

/-- The first part of a reader that succeeds, and the run of the other. -/
theorem bind_ok (hm : Accepts m R) {c c' : Cursor ι} {b : β} (hp : c.pos ≤ c.buff.length)
    (h : (m >>= f) c = (.ok b, c')) :
    ∃ a c₁, c₁.pos ≤ c₁.buff.length ∧ R c.rest a c₁.rest ∧ f a c₁ = (.ok b, c') := by
  obtain ⟨a, c₁, h₁, h₂⟩ := Proc.bind_ok.mp h
  obtain ⟨hp₁, hr⟩ := hm.sound hp h₁
  exact ⟨a, c₁, hp₁, hr, h₂⟩

theorem ite {p : Prop} [Decidable p] (hm : p → Accepts m R) (hm' : ¬ p → Accepts m' R') :
    Accepts (if p then m else m') fun input a left =>
      (p → R input a left) ∧ (¬ p → R' input a left) := by
  split
  · rename_i h
    exact (hm h).of_iff fun _ _ _ => by simp [h]
  · rename_i h
    exact (hm' h).of_iff fun _ _ _ => by simp [h]

/-- A check that ends the reader where `p` holds. -/
theorem refuses {p : Prop} [Decidable p] (e : ε) :
    Accepts (Proc.when p (MonadExcept.throw e) : Proc ε (Cursor ι) Unit) fun input _ left =>
      ¬ p ∧ left = input := by
  refine (ite (fun _ => .throw e) fun _ => .pure ()).of_iff fun input a left => ?_
  constructor
  · rintro ⟨ends, goes⟩
    exact ⟨ends, (goes ends).2⟩
  · rintro ⟨h, rfl⟩
    exact ⟨h, fun _ => ⟨rfl, rfl⟩⟩

theorem nested (hm : Accepts m R) (buff : List ι) :
    Accepts (Cursor.nested m buff) fun input a left => left = input ∧ ∃ rest, R buff a rest where
  sound := by
    intro c a c' hp h
    cases congrArg Prod.snd h
    exact ⟨hp, rfl, hm.run.mp (congrArg Prod.fst h)⟩
  complete := by
    rintro input a _ ⟨rfl, hr⟩
    exact .nested (hm.run.mpr hr) _

end Accepts

end Cursor

end Lib
