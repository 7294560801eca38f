import Trilogy.Lib.Cursor

/-! `Delimits e m w a`: in front of `w`, whatever comes after it, `m` ends with `a`
and leaves what comes after; in front of anything less than `w` it stops with
`e`. Such words can be put one behind the other (`Delimits.bind`, `Delimits.mapM`). -/
namespace Lib

namespace Cursor

variable {ε ι α β κ : Type} {e : ε}

structure Delimits (e : ε) (m : Proc ε (Cursor ι) α) (w : List ι) (a : α) : Prop where
  reads : ∀ tail, Reads m (w ++ tail) (.ok a) tail
  short : ∀ ⦃front back⦄, w = front ++ back → back ≠ [] → ∃ left, Reads m front (.error e) left

namespace Delimits

variable {m : Proc ε (Cursor ι) α} {f : α → Proc ε (Cursor ι) β} {w w' : List ι} {a : α} {b : β}

theorem pure (a : α) : Delimits e (Pure.pure a : Proc ε (Cursor ι) α) [] a where
  reads := fun tail => .pure a tail
  short := by
    intro front back split some
    exact absurd (List.append_eq_nil_iff.mp split.symm).2 some

/-- What is cut short is cut in the one or in the other. -/
theorem bind (hm : Delimits e m w a) (hf : Delimits e (f a) w' b) :
    Delimits e (m >>= f) (w ++ w') b where
  reads := by
    intro tail
    rw [List.append_assoc]
    exact (hm.reads _).bind (hf.reads tail)
  short := by
    intro front back split some
    obtain ⟨front', rfl, split'⟩ | ⟨back', rfl, rfl⟩ := List.append_eq_append_iff.mp split
    · obtain ⟨left, hs⟩ := hf.short split' some
      exact ⟨left, (hm.reads front').bind hs⟩
    · cases back' with
      | nil =>
        obtain ⟨left, hs⟩ := hf.short (List.nil_append w').symm some
        have first : Reads m front (.ok a) [] := by simpa using hm.reads []
        exact ⟨left, first.bind hs⟩
      | cons x back' =>
        obtain ⟨left, hs⟩ := hm.short rfl (List.cons_ne_nil x back')
        exact ⟨left, hs.bind_error⟩

theorem map {g : α → β} (hm : Delimits e m w a) : Delimits e (g <$> m) w (g a) := by
  rw [map_eq_pure_bind, ← List.append_nil w]
  exact hm.bind (.pure _)

theorem mapM {read : κ → Proc ε (Cursor ι) α} {kind : α → κ} {word : α → List ι} {as : List α}
    (h : ∀ a ∈ as, Delimits e (read (kind a)) (word a) a) :
    Delimits e ((as.map kind).mapM read) (as.flatMap word) as := by
  induction as with
  | nil => exact .pure []
  | cons a as ih =>
    rw [List.map_cons, List.mapM_cons, List.flatMap_cons]
    have rest := ih fun a ha => h a (List.mem_cons_of_mem _ ha)
    refine (h a List.mem_cons_self).bind ?_
    rw [← List.append_nil (as.flatMap word)]
    exact rest.bind (.pure _)

end Delimits

end Cursor

end Lib
