import Trilogy.Buffer

/-! `buffer.c` over every buffer it can be called on: also one whose `malloc` failed
(`buff == NULL`), and one that was initialized without any capacity. `Buffer`
has neither, and on a `Buffer` both models of `expand` agree. -/
namespace Trilogy

open Buffer

structure RawBuffer where
  /-- `buff != NULL` -/
  allocated : Bool
  /-- `buff[0 .. len)` -/
  bytes : List UInt8
  cap : Nat
  deriving DecidableEq

namespace RawBuffer

inductive Outcome
  /-- The doubling loop goes on. -/
  | loops
  /-- A store outside of the allocation. -/
  | undefined
  | returns (r : Except Code Unit) (b : RawBuffer)
  deriving DecidableEq

def len (b : RawBuffer) : Nat := b.bytes.length

def init (alloc : Alloc) (initialCapacity : Nat) : Except Code Unit × RawBuffer :=
  (if alloc initialCapacity then .ok () else .error .syserr,
    { allocated := alloc initialCapacity, bytes := [], cap := initialCapacity })

section

variable (alloc : Alloc) (turns : Nat)

def expand (needed : Nat) (b : RawBuffer) : Outcome :=
  if sizeAdd b.len needed > b.cap then
    if b.allocated then
      match growCap (sizeAdd b.len needed) turns b.cap with
      | none => .loops
      | some (.error rc) => .returns (.error rc) b
      | some (.ok newCap) =>
        if alloc newCap then .returns (.ok ()) { b with cap := newCap }
        else .returns (.error .syserr) b
    else .returns (.error .memError) b
  else .returns (.ok ()) b

/-- `memcpy(buff + len, data, ...)` and `len += ...`. -/
def store (data : List UInt8) (b : RawBuffer) : Outcome :=
  if b.allocated ∧ b.len + data.length ≤ b.cap then
    .returns (.ok ()) { b with bytes := b.bytes ++ data }
  else .undefined

def write (data : List UInt8) (b : RawBuffer) : Outcome :=
  match expand alloc turns data.length b with
  | .returns (.ok _) b => store data b
  | stopped => stopped

def putc (c : UInt8) (b : RawBuffer) : Outcome :=
  match expand alloc turns 1 b with
  | .returns (.ok _) b => store [c] b
  | stopped => stopped

end

/-- The buffers that calls from outside can come to, whatever `malloc` and
`realloc` answer each time. -/
inductive Reachable : RawBuffer → Prop
  | init (alloc : Alloc) {cap : Nat} : cap ≤ sizeMax → Reachable (init alloc cap).2
  | expand {alloc turns needed b r b'} : Reachable b → needed ≤ sizeMax →
      expand alloc turns needed b = .returns r b' → Reachable b'
  | putc {alloc turns c b r b'} : Reachable b → putc alloc turns c b = .returns r b' → Reachable b'
  | write {alloc turns data b r b'} : Reachable b → data.length ≤ sizeMax →
      write alloc turns data b = .returns r b' → Reachable b'

/-- What `buffer.h` says of `trilogy_buffer_expand`, read as natural numbers. -/
structure Promise (alloc : Alloc) (needed : Nat) (b : RawBuffer) : Prop where
  terminates : ∃ turns, expand alloc turns needed b ≠ .loops
  ok : ∀ turns b', expand alloc turns needed b = .returns (.ok ()) b' →
    b.len + needed ≤ b'.cap ∧ b'.bytes = b.bytes ∧ b.cap ≤ b'.cap
  error : ∀ turns rc b', expand alloc turns needed b = .returns (.error rc) b' → b' = b
  range : sizeMax < b.len + needed →
    ∀ turns b', expand alloc turns needed b ≠ .returns (.ok ()) b'

variable {alloc : Alloc} {turns needed : Nat} {b b' : RawBuffer}

theorem growCap_bounds {target cap c : Nat} (h : growCap target turns cap = some (.ok c))
    (range : cap ≤ sizeMax) : target ≤ c ∧ c ≤ sizeMax := by
  induction turns generalizing cap with
  | zero => cases h
  | succ turns ih =>
    rw [growCap] at h
    split at h
    · split at h
      · cases h
      · apply ih h
        unfold sizeMax at *
        omega
    · cases h
      exact ⟨by omega, range⟩

/-- Doubling nothing gives nothing. -/
theorem growCap_zero {target : Nat} (pos : 0 < target) : growCap target turns 0 = none := by
  induction turns with
  | zero => rfl
  | succ turns ih => rw [growCap, if_pos pos, if_neg (Nat.not_lt_zero _), Nat.zero_mul, ih]

/-- All that a call that returns can have done. -/
theorem expand_returns {r : Except Code Unit} (h : expand alloc turns needed b = .returns r b') :
    (b' = b ∧ (∀ u, r = .ok u → sizeAdd b.len needed ≤ b.cap)) ∨
      r = .ok () ∧ ∃ c, growCap (sizeAdd b.len needed) turns b.cap = some (.ok c) ∧
        b' = { b with cap := c } := by
  unfold expand at h
  split at h
  · split at h
    · split at h
      · cases h
      · cases h
        exact .inl ⟨rfl, fun u hu => by cases hu⟩
      · rename_i c hc
        split at h
        · cases h
          exact .inr ⟨rfl, c, hc, rfl⟩
        · cases h
          exact .inl ⟨rfl, fun u hu => by cases hu⟩
    · cases h
      exact .inl ⟨rfl, fun u hu => by cases hu⟩
  · rename_i fits
    cases h
    exact .inl ⟨rfl, fun _ _ => by omega⟩

/-- The contents are in the capacity, and the capacity is a `size_t`. -/
structure Valid (b : RawBuffer) : Prop where
  inside : b.len ≤ b.cap
  range : b.cap ≤ sizeMax

theorem Valid.expand {r : Except Code Unit} (hb : b.Valid)
    (h : expand alloc turns needed b = .returns r b') : b'.Valid := by
  obtain ⟨rfl, -⟩ | ⟨-, c, hc, rfl⟩ := expand_returns h
  · exact hb
  · have grown := growCap_le hc
    exact ⟨hb.inside.trans grown, (growCap_bounds hc hb.range).2⟩

theorem Valid.store {data : List UInt8} {r : Except Code Unit} (hb : b.Valid)
    (h : store data b = .returns r b') : b'.Valid := by
  unfold RawBuffer.store at h
  split at h
  · rename_i room
    cases h
    constructor
    · change (b.bytes ++ data).length ≤ b.cap
      rw [List.length_append]
      exact room.2
    · exact hb.range
  · cases h

theorem Reachable.valid (h : Reachable b) : b.Valid := by
  induction h with
  | init alloc range => exact ⟨Nat.zero_le _, range⟩
  | expand _ _ h ih => exact ih.expand h
  | putc _ h ih =>
    unfold RawBuffer.putc at h
    split at h
    · rename_i e
      exact (ih.expand e).store h
    · exact ih.expand h
  | write _ _ h ih =>
    unfold RawBuffer.write at h
    split at h
    · rename_i e
      exact (ih.expand e).store h
    · exact ih.expand h

/-- An error leaves the buffer alone, in any state. -/
theorem expand_error {rc : Code} (h : expand alloc turns needed b = .returns (.error rc) b') :
    b' = b := by
  obtain ⟨rfl, -⟩ | ⟨hr, -⟩ := expand_returns h
  · rfl
  · cases hr

/-- A sum that wraps is below the length, so it always seems to fit. -/
theorem expand_wrapped (hb : b.Valid) (size : needed ≤ sizeMax) (wraps : sizeMax < b.len + needed) :
    expand alloc turns needed b = .returns (.ok ()) b := by
  have hinside := hb.inside
  have hrange := hb.range
  have hadd : sizeAdd b.len needed = b.len + needed - 2 ^ 64 := by
    unfold sizeAdd
    unfold sizeMax at *
    omega
  rw [expand, if_neg]
  unfold sizeMax at *
  omega

/-- Without a capacity to double, the loop never ends. -/
theorem expand_loops (hb : b.Valid) (allocated : b.allocated = true) (empty : b.cap = 0)
    (pos : 0 < needed) (size : needed ≤ sizeMax) : expand alloc turns needed b = .loops := by
  have hlen : b.len = 0 := Nat.le_zero.mp (empty ▸ hb.inside)
  have hadd : sizeAdd b.len needed = needed := by
    rw [hlen, sizeAdd_of_lt (by unfold sizeMax at size; omega), Nat.zero_add]
  rw [expand, hadd, empty, if_pos pos, if_pos allocated, growCap_zero pos]

theorem expand_terminates (fits : b.len + needed ≤ sizeMax)
    (grows : b.allocated = false ∨ 0 < b.cap ∨ needed = 0) (hb : b.Valid) :
    expand alloc 65 needed b ≠ .loops := by
  have hadd : sizeAdd b.len needed = b.len + needed :=
    sizeAdd_of_lt (by unfold sizeMax at fits; omega)
  unfold expand
  split
  · rename_i larger
    split
    · rename_i allocated
      have pos : 0 < b.cap := by
        obtain h | h | h := grows
        · rw [h] at allocated
          cases allocated
        · exact h
        · have hinside := hb.inside
          omega
      have ends : growCap (sizeAdd b.len needed) 65 b.cap ≠ none :=
        growCap_ne_none (by unfold sizeMax; omega)
      split
      · exact absurd ‹_› ends
      · intro h
        cases h
      · split
        · intro h
          cases h
        · intro h
          cases h
    · intro h
      cases h
  · intro h
    cases h

theorem expand_keeps_promise (hb : Reachable b) (size : needed ≤ sizeMax) :
    Promise alloc needed b ↔
      b.len + needed ≤ sizeMax ∧ (b.allocated = false ∨ 0 < b.cap ∨ needed = 0) := by
  have hv := hb.valid
  constructor
  · intro promise
    have fits : b.len + needed ≤ sizeMax := by
      by_contra wraps
      have wraps' : sizeMax < b.len + needed := by omega
      exact promise.range wraps' 0 b (expand_wrapped hv size wraps')
    refine ⟨fits, ?_⟩
    by_contra stuck
    simp only [not_or, Bool.not_eq_false, Nat.not_lt, Nat.le_zero] at stuck
    obtain ⟨turns, ends⟩ := promise.terminates
    exact ends (expand_loops hv stuck.1 stuck.2.1 (by omega) size)
  · rintro ⟨fits, grows⟩
    have hadd : sizeAdd b.len needed = b.len + needed :=
      sizeAdd_of_lt (by unfold sizeMax at fits; omega)
    constructor
    · exact ⟨65, expand_terminates fits grows hv⟩
    · intro turns b' h
      obtain ⟨rfl, room⟩ | ⟨-, c, hc, rfl⟩ := expand_returns h
      · exact ⟨hadd ▸ room () rfl, rfl, Nat.le_refl _⟩
      · exact ⟨hadd ▸ (growCap_bounds hc hv.range).1, rfl, growCap_le hc⟩
    · intro turns rc b' h
      exact expand_error h
    · intro wraps
      omega

theorem expand_keeps_promise_four :
    let b := (init (fun _ => true) 1).2
    Promise (fun _ => true) 4 b ↔
      b.len + 4 ≤ sizeMax ∧ (b.allocated = false ∨ 0 < b.cap ∨ 4 = 0) :=
  expand_keeps_promise (.init _ (by decide)) (by decide)

/-- A buffer initialized without capacity is in the loop forever; and after one
byte, asking for all of `size_t` is granted on the spot. -/
theorem expand_promise_broken :
    (Reachable (init (fun _ => true) 0).2 ∧ ¬ Promise (fun _ => true) 1 (init (fun _ => true) 0).2) ∧
      Reachable ⟨true, [7], 1⟩ ∧ ¬ Promise (fun _ => true) sizeMax ⟨true, [7], 1⟩ := by
  have empty : Reachable (init (fun _ => true) 0).2 := .init _ (by decide)
  have one : Reachable (init (fun _ => true) 1).2 := .init _ (by decide)
  have filled : Reachable ⟨true, [7], 1⟩ :=
    .putc one (show putc (fun _ => true) 0 7 (init (fun _ => true) 1).2 = .returns (.ok ()) _ from rfl)
  refine ⟨⟨empty, ?_⟩, filled, ?_⟩
  · intro promise
    obtain ⟨turns, ends⟩ := promise.terminates
    exact ends (expand_loops empty.valid rfl rfl (by decide) (by decide))
  · intro promise
    exact promise.range (by decide) 0 _ (expand_wrapped filled.valid (by decide) (by decide))

def ofBuffer (b : Buffer) : RawBuffer := { allocated := true, bytes := b.bytes, cap := b.cap }

@[simp] theorem ofBuffer_len (b : Buffer) : (ofBuffer b).len = b.len := rfl

@[simp] theorem ofBuffer_cap (b : Buffer) : (ofBuffer b).cap = b.cap := rfl

/-- Behind a successful `trilogy_buffer_init` with a capacity, this is the
`expand` that the rest of the library is verified on. -/
theorem expand_ofBuffer (alloc : Alloc) (needed : Nat) (b : Buffer) :
    expand alloc 65 needed (ofBuffer b) =
      .returns (Buffer.expand alloc needed b).1 (ofBuffer (Buffer.expand alloc needed b).2) := by
  have hcap := b.cap_pos
  have ends : growCap (sizeAdd b.len needed) 65 b.cap ≠ none :=
    growCap_ne_none (by unfold sizeMax; omega)
  unfold expand Buffer.expand
  rw [ofBuffer_len, ofBuffer_cap]
  split
  · rw [if_pos (show (ofBuffer b).allocated = true from rfl)]
    split
    · exact absurd ‹_› ends
    · rename_i h
      split <;> rename_i e <;> rw [h] at e <;> cases e
      rfl
    · rename_i h
      split
      · rename_i granted
        split <;> rename_i e <;> rw [h] at e <;> cases e
        rw [if_pos granted]
        rfl
      · rename_i refused
        split <;> rename_i e <;> rw [h] at e <;> cases e
        rw [if_neg refused]
  · rfl

end RawBuffer

end Trilogy
