import Trilogy.Limit

namespace Trilogy

open Lib

namespace Builder

/-- Everything in two builders but the limit and the unused storage. -/
structure SameLayout (b b' : Builder) : Prop where
  bytes : b.buffer.bytes = b'.buffer.bytes
  header_offset : b.header_offset = b'.header_offset
  fragment_length : b.fragment_length = b'.fragment_length
  packet_length : b.packet_length = b'.packet_length
  seq : b.seq = b'.seq

variable {alloc : Alloc} {s : UInt8} {p d : List UInt8} {b b' : Builder}

theorem Layout.closed_eq {closed tail : List UInt8} {full : Nat}
    (h : Layout s p closed tail full b) :
    full = p.length / maxPacketLen ∧ tail.length = p.length % maxPacketLen ∧
      frames s p = closed ++ header tail.length (s + UInt8.ofNat full) ++ tail := by
  have hroom := h.room
  have hlen := h.length
  refine ⟨?_, ?_, ?_⟩
  · rw [hlen, Nat.add_comm, Nat.add_mul_div_right _ _ (by decide), Nat.div_eq_of_lt hroom,
      Nat.zero_add]
  · rw [hlen, Nat.add_comm, Nat.add_mul_mod_self_right, Nat.mod_eq_of_lt hroom]
  · have hp := h.extend []
    rwa [List.append_nil, List.append_nil, frames_of_lt hroom, ← List.append_assoc] at hp

/-- A payload has one layout. -/
theorem Building.unique (h : Building s p b) (h' : Building s p b') : SameLayout b b' := by
  obtain ⟨closed, tail, full, h⟩ := h
  obtain ⟨closed', tail', full', h'⟩ := h'
  obtain ⟨hfull, htail, hframes⟩ := h.closed_eq
  obtain ⟨hfull', htail', hframes'⟩ := h'.closed_eq
  have sameFull : full = full' := hfull.trans hfull'.symm
  have sameLength : tail.length = tail'.length := htail.trans htail'.symm
  obtain ⟨front, sameTail⟩ := List.append_inj' (hframes.symm.trans hframes') sameLength
  obtain ⟨sameClosed, -⟩ := List.append_inj' front (by rw [header_length, header_length])
  constructor
  · rw [h.bytes, h'.bytes, sameClosed, sameFull, sameTail]
  · rw [h.offset, h'.offset, sameClosed]
  · rw [h.fragment, h'.fragment, sameLength]
  · rw [h.packet, h'.packet]
  · rw [h.seq, h'.seq, sameFull]

def bytewise (alloc : Alloc) (d : List UInt8) : Proc Code Builder Unit := forM d (writeUint8 alloc)

theorem appends_bytewise (alloc : Alloc) (d : List UInt8) : Appends (bytewise alloc d) d := by
  induction d with
  | nil => exact .pure
  | cons v d ih => exact .bind (appends_writeUint8 alloc v) ih

theorem spent_bytewise (below : b.packet_length < b.packet_max_length)
    (range : b.packet_max_length < 2 ^ 64) (memory : b.packet_length + d.length < 2 ^ 64) :
    payloadMeter.Spent (bytewise alloc d) d.length b := by
  have counted : Meter.Countable (2 ^ 64) b.packet_max_length (fun _ : UInt8 => 1)
      b.packet_length d := by
    rintro before v ⟨rest, rfl⟩ -
    simp only [List.map_const', List.sum_replicate_nat, List.length_append,
      List.length_singleton] at memory ⊢
    omega
  have spent : payloadMeter.Spent (bytewise alloc d) (d.map fun _ => 1).sum b :=
    Meter.Spends.forM (spends_writeUint8 alloc) below range counted
  refine spent.of_eq ?_
  rw [List.map_const', List.sum_replicate_nat, Nat.mul_one]

/-- A byte that the limit lets pass. -/
theorem writeUint8_passed {v : UInt8} {r : Except Code Unit}
    (passed : b.packet_length < sizeSub b.packet_max_length 1)
    (h : writeUint8 alloc v b = (r, b')) :
    (∃ rc, r = .error rc ∧ GrowthFailure rc) ∨
      r = .ok () ∧ b'.packet_length = sizeAdd b.packet_length 1 ∧
        b'.packet_max_length = b.packet_max_length := by
  rw [writeUint8, Proc.get_bind, if_neg (Nat.not_le.mpr passed)] at h
  cases r with
  | error rc =>
    refine .inl ⟨rc, rfl, ?_⟩
    obtain h | ⟨_, b₁, -, h⟩ := Proc.bind_error.mp h
    · exact onBuffer_expand_error h
    · rw [Proc.modify_bind, Proc.get_bind] at h
      split at h
      · exact writeContinuationHeader_error h
      · cases h
  | ok _ =>
    refine .inr ⟨rfl, ?_⟩
    obtain ⟨_, b₁, h₁, h⟩ := Proc.bind_ok.mp h
    obtain ⟨buffer, -, rfl⟩ := onBuffer_expand h₁
    rw [Proc.modify_bind, Proc.get_bind] at h
    split at h
    · rw [writeContinuationHeader, Proc.modify_bind] at h
      obtain ⟨-, -, -, -, hpacket, hmax⟩ := writeHeader_ok h
      exact ⟨hpacket, hmax⟩
    · cases h
      exact ⟨rfl, rfl⟩

/-- `packet_max_length - 1` wraps to `SIZE_MAX`: a limit of nothing lets single
bytes pass without end. -/
theorem bytewise_unlimited (limit : b.packet_max_length = 0)
    (memory : b.packet_length + d.length < 2 ^ 64)
    (clean : ∀ rc, (bytewise alloc d b).1 = .error rc → ¬ GrowthFailure rc) :
    (bytewise alloc d b).1 = .ok () := by
  induction d generalizing b with
  | nil => rfl
  | cons v d ih =>
    rw [List.length_cons] at memory
    have passed : b.packet_length < sizeSub b.packet_max_length 1 := by
      rw [limit]
      change b.packet_length < 2 ^ 64 - 1
      omega
    change ((writeUint8 alloc v >>= fun _ => bytewise alloc d) b).1 = _
    change ∀ rc, ((writeUint8 alloc v >>= fun _ => bytewise alloc d) b).1 = _ → _ at clean
    obtain ⟨rc, hr, failed⟩ | ⟨hr, hpacket, hmax⟩ := writeUint8_passed passed (Proc.ends rfl)
    · rw [Proc.bind_of_error (Proc.ends hr)] at clean
      exact absurd failed (clean rc rfl)
    · rw [Proc.bind_of_ok (Proc.ends hr)] at clean ⊢
      rw [sizeAdd_of_lt (by omega)] at hpacket
      exact ih (hmax.trans limit) (by omega) clean

structure BulkIsBytewise (alloc : Alloc) (d : List UInt8) (b : Builder) : Prop where
  succeeds : (writeBuffer alloc d b).1 = .ok () ↔ (bytewise alloc d b).1 = .ok ()
  same : ∀ b₁ b₂, writeBuffer alloc d b = (.ok (), b₁) → bytewise alloc d b = (.ok (), b₂) →
    SameLayout b₁ b₂

theorem writeBuffer_refused (memory : b.packet_length + d.length < 2 ^ 64)
    (reached : b.packet_max_length ≤ b.packet_length + d.length) :
    writeBuffer alloc d b = (.error .maxPacketExceeded, b) := by
  rw [writeBuffer, Proc.get_bind, sizeAdd_of_lt memory, if_pos reached]
  rfl

theorem bytewise_refused (nonempty : d ≠ []) (pos : 0 < b.packet_max_length)
    (range : b.packet_max_length < 2 ^ 64) (reached : b.packet_max_length ≤ b.packet_length) :
    (bytewise alloc d b).1 = .error .maxPacketExceeded := by
  cases d with
  | nil => exact absurd rfl nonempty
  | cons v d =>
    have refused : writeUint8 alloc v b = (.error .maxPacketExceeded, b) := by
      have hsub : sizeSub b.packet_max_length 1 = b.packet_max_length - 1 :=
        sizeSub_of_le (by omega)
      rw [writeUint8, Proc.get_bind, hsub, if_pos (by omega)]
      rfl
    change ((writeUint8 alloc v >>= fun _ => bytewise alloc d) b).1 = _
    rw [Proc.bind_of_error refused]

/-- Agreement, wherever there is a limit. -/
theorem bulkIsBytewise (building : Building s p b) (nonempty : d ≠ [])
    (pos : 0 < b.packet_max_length) (range : b.packet_max_length < 2 ^ 64)
    (memory : b.packet_length + d.length < 2 ^ 64)
    (cleanBulk : ∀ rc, (writeBuffer alloc d b).1 = .error rc → ¬ GrowthFailure rc)
    (cleanBytes : ∀ rc, (bytewise alloc d b).1 = .error rc → ¬ GrowthFailure rc) :
    BulkIsBytewise alloc d b where
  succeeds := by
    by_cases below : b.packet_length < b.packet_max_length
    · have bulk : payloadMeter.Spent (writeBuffer alloc d) d.length b :=
        spends_writeBuffer alloc d below range memory
      have bytes : payloadMeter.Spent (bytewise alloc d) d.length b :=
        spent_bytewise below range memory
      exact (bulk.ok_iff cleanBulk).trans (bytes.ok_iff cleanBytes).symm
    · have reached : b.packet_max_length ≤ b.packet_length := Nat.not_lt.mp below
      rw [writeBuffer_refused memory (reached.trans (Nat.le_add_right _ _)),
        bytewise_refused nonempty pos range reached]
  same := by
    intro b₁ b₂ h₁ h₂
    exact (appends_writeBuffer alloc d building h₁).unique (appends_bytewise alloc d building h₂)

theorem not_bulkIsBytewise (limit : b.packet_max_length = 0)
    (memory : b.packet_length + d.length < 2 ^ 64)
    (clean : ∀ rc, (bytewise alloc d b).1 = .error rc → ¬ GrowthFailure rc) :
    ¬ BulkIsBytewise alloc d b := by
  intro agree
  have bulk := agree.succeeds.mpr (bytewise_unlimited limit memory clean)
  rw [writeBuffer_refused memory (by omega)] at bulk
  cases bulk

theorem setMaxPacketLength_ok {m : Nat} (h : setMaxPacketLength m b = (.ok (), b')) :
    b' = { b with packet_max_length := m } := by
  unfold setMaxPacketLength at h
  rw [Proc.get_bind] at h
  split at h
  · cases h
  · cases h
    rfl

theorem bulk_writes_are_bytewise {buff : Buffer} {seq : UInt8} {b₀ b₁ b₂ : Builder}
    {ws : List Write} {m : Nat} (fresh : init alloc buff seq = (.ok (), b₀))
    (written : writes alloc ws b₀ = (.ok (), b₁))
    (limited : setMaxPacketLength m b₁ = (.ok (), b₂)) (size : m ≤ sizeMax) (nonempty : d ≠ [])
    (memory : b₁.packet_length + d.length < 2 ^ 64)
    (cleanBulk : ∀ rc, (writeBuffer alloc d b₂).1 = .error rc → ¬ GrowthFailure rc)
    (cleanBytes : ∀ rc, (bytewise alloc d b₂).1 = .error rc → ¬ GrowthFailure rc) :
    BulkIsBytewise alloc d b₂ ↔ m ≠ 0 := by
  have building := appends_writes alloc ws (init_building fresh) written
  obtain rfl := setMaxPacketLength_ok limited
  constructor
  · rintro agree rfl
    have limit : ({ b₁ with packet_max_length := 0 } : Builder).packet_max_length = 0 := rfl
    exact not_bulkIsBytewise limit memory cleanBytes agree
  · intro some
    exact bulkIsBytewise (building.setMax m) nonempty (Nat.pos_of_ne_zero some)
      (by unfold sizeMax at size; change m < _; omega) memory cleanBulk cleanBytes

/-- One byte behind another, under a limit of three. -/
theorem bulk_writes_are_bytewise_three :
    let b₀ := (init (fun _ => true) ⟨[], [], 16, by decide⟩ 0).2
    let b₁ := (writes (fun _ => true) [.uint8 1] b₀).2
    let b₂ := (setMaxPacketLength 3 b₁).2
    BulkIsBytewise (fun _ => true) [2] b₂ ↔ 3 ≠ 0 := by
  intro b₀ b₁ b₂
  have hbulk : (writeBuffer (fun _ => true) [2] b₂).1 = .ok () := by decide +kernel
  have hbytes : (bytewise (fun _ => true) [2] b₂).1 = .ok () := by decide +kernel
  have fresh : init (fun _ => true) ⟨[], [], 16, by decide⟩ 0 = (.ok (), b₀) := rfl
  have hwritten : (writes (fun _ => true) [.uint8 1] b₀).1 = .ok () := by decide +kernel
  have hlimited : (setMaxPacketLength 3 b₁).1 = .ok () := by decide +kernel
  have written : writes (fun _ => true) [.uint8 1] b₀ = (.ok (), b₁) := Proc.ends hwritten
  have limited : setMaxPacketLength 3 b₁ = (.ok (), b₂) := Proc.ends hlimited
  apply bulk_writes_are_bytewise fresh written limited
  · decide
  · decide
  · decide +kernel
  · intro rc h
    rw [hbulk] at h
    cases h
  · intro rc h
    rw [hbytes] at h
    cases h

/-- With a limit of nothing, in a packet that has nothing yet, a byte alone is
written, and as a block of one it is refused. -/
theorem bulk_write_differs :
    let b₀ := (init (fun _ => true) ⟨[], [], 16, by decide⟩ 0).2
    let b₁ := (setMaxPacketLength 0 b₀).2
    setMaxPacketLength 0 b₀ = (.ok (), b₁) ∧
      (writeBuffer (fun _ => true) [7] b₁).1 = .error .maxPacketExceeded ∧
      (bytewise (fun _ => true) [7] b₁).1 = .ok () ∧
      ¬ BulkIsBytewise (fun _ => true) [7] b₁ := by
  intro b₀ b₁
  have bulk : (writeBuffer (fun _ => true) [7] b₁).1 = .error .maxPacketExceeded := by
    decide +kernel
  have bytes : (bytewise (fun _ => true) [7] b₁).1 = .ok () := by decide +kernel
  refine ⟨rfl, bulk, bytes, ?_⟩
  intro agree
  have := agree.succeeds.mpr bytes
  rw [bulk] at this
  cases this

end Builder

end Trilogy
