import Trilogy.Lib.Meter
import Trilogy.Framing

/-! Single bytes are tested against `packet_max_length - 1` and bulk writes against
`packet_max_length`, in `size_t` arithmetic. Both are one meter: the payload has
to stay below the limit. -/
namespace Trilogy

open Lib

namespace Builder

/-- What a failed growth returns, and nothing else in the builder. -/
def GrowthFailure (rc : Code) : Prop := rc = .typeOverflow ∨ rc = .syserr

def payloadMeter : Meter Code Builder where
  used := packet_length
  limit := packet_max_length
  wrap := 2 ^ 64
  refusal := .maxPacketExceeded
  other := GrowthFailure

variable {alloc : Alloc} {b : Builder}

/-- What a successful write has counted. -/
theorem counted {m : Proc Code Builder Unit} {n : Nat} {b' : Builder}
    (h : payloadMeter.Spent m n b) (ok : m b = (.ok (), b')) :
    b'.packet_length = b.packet_length + n ∧ b'.packet_length < b'.packet_max_length ∧
      b'.packet_max_length = b.packet_max_length := h.paid ok

theorem onBuffer_expand_error {needed : Nat} {b' : Builder} {rc : Code}
    (h : onBuffer (Buffer.expand alloc needed) b = (.error rc, b')) : GrowthFailure rc := by
  have hrc : (Buffer.expand alloc needed b.buffer).1 = .error rc := congrArg Prod.fst h
  exact Buffer.expand_error (Proc.ends hrc)

theorem writeHeader_error {b' : Builder} {rc : Code}
    (h : writeHeader alloc b = (.error rc, b')) : GrowthFailure rc := by
  obtain h | ⟨_, _, -, h⟩ := Proc.bind_error.mp h
  · exact onBuffer_expand_error h
  · cases h

theorem writeContinuationHeader_error {b' : Builder} {rc : Code}
    (h : writeContinuationHeader alloc b = (.error rc, b')) : GrowthFailure rc := by
  rw [writeContinuationHeader, Proc.modify_bind] at h
  exact writeHeader_error h

theorem copy_error {needed : Nat} {d : List UInt8} {b' : Builder} {rc : Code}
    (h : (do onBuffer (Buffer.expand alloc needed); modify (append d) : Proc Code Builder Unit) b =
      (.error rc, b')) : GrowthFailure rc := by
  obtain h | ⟨_, _, -, h⟩ := Proc.bind_error.mp h
  · exact onBuffer_expand_error h
  · cases h

theorem writeFragments_error {turns remaining : Nat} {d : List UInt8} {b' : Builder} {rc : Code}
    (h : writeFragments alloc turns d remaining b = (.error rc, b')) : GrowthFailure rc := by
  induction turns generalizing d remaining b with
  | zero => cases h
  | succ turns ih =>
    rw [writeFragments] at h
    split at h
    · obtain h | ⟨_, b₁, -, h⟩ := Proc.bind_error.mp h
      · exact onBuffer_expand_error h
      · rw [Proc.modify_bind] at h
        obtain h | ⟨_, b₂, -, h⟩ := Proc.bind_error.mp h
        · exact writeContinuationHeader_error h
        · exact ih h
    · split at h
      · exact copy_error h
      · cases h

/-- The test of a bulk write comes before its first byte. -/
theorem writeBuffer_refused_unchanged {d : List UInt8} {b' : Builder}
    (h : writeBuffer alloc d b = (.error .maxPacketExceeded, b')) : b' = b := by
  have grown : ¬ GrowthFailure .maxPacketExceeded := by
    unfold GrowthFailure
    decide
  unfold writeBuffer at h
  rw [Proc.get_bind] at h
  split at h
  · cases h
    rfl
  · split at h
    · exact absurd (copy_error h) grown
    · exact absurd (writeFragments_error h) grown

theorem spent_expand (below : b.packet_length < b.packet_max_length) (needed : Nat) :
    payloadMeter.Spent (onBuffer (Buffer.expand alloc needed)) 0 b := by
  apply Meter.Spent.free below
  · intro t h
    obtain ⟨buffer, -, rfl⟩ := onBuffer_expand h
    exact ⟨rfl, rfl⟩
  · intro e t h
    exact onBuffer_expand_error h

/-- Headers are not counted. -/
theorem spent_writeHeader (below : b.packet_length < b.packet_max_length) :
    payloadMeter.Spent (writeHeader alloc) 0 b := by
  apply Meter.Spent.free below
  · intro t h
    obtain ⟨-, -, -, -, hpacket, hmax⟩ := writeHeader_ok h
    exact ⟨hpacket, hmax⟩
  · intro e t h
    exact writeHeader_error h

theorem spent_writeContinuationHeader (below : b.packet_length < b.packet_max_length) :
    payloadMeter.Spent (writeContinuationHeader alloc) 0 b :=
  Meter.Spent.modify rfl rfl (spent_writeHeader below)

/-- Bytes that were tested before they are copied. -/
theorem spent_append {d : List UInt8} (room : b.packet_length + d.length < b.packet_max_length)
    (range : b.packet_max_length < 2 ^ 64) : payloadMeter.Spent (modify (append d)) d.length b where
  paid := by
    intro t h
    cases h
    have hadd : sizeAdd b.packet_length d.length = b.packet_length + d.length :=
      sizeAdd_of_lt (by omega)
    refine ⟨hadd, ?_, rfl⟩
    change sizeAdd b.packet_length d.length < b.packet_max_length
    omega
  stopped := by
    intro e t h
    cases h

theorem spent_copy {d : List UInt8} (room : b.packet_length + d.length < b.packet_max_length)
    (range : b.packet_max_length < 2 ^ 64) (needed : Nat) :
    payloadMeter.Spent (do onBuffer (Buffer.expand alloc needed); modify (append d)) d.length b := by
  have grown := @spent_expand alloc b (by omega) needed
  refine (grown.bind fun t ht => ?_).of_eq (Nat.zero_add _)
  obtain ⟨used, -, limit⟩ := counted grown ht
  exact spent_append (by omega) (by omega)

theorem spends_writeUint8 (alloc : Alloc) (v : UInt8) :
    payloadMeter.Spends (writeUint8 alloc v) 1 := by
  intro b below range _
  change b.packet_length < b.packet_max_length at below
  change b.packet_max_length < 2 ^ 64 at range
  have hsub : sizeSub b.packet_max_length 1 = b.packet_max_length - 1 :=
    sizeSub_of_le (by omega)
  apply Meter.Spent.get
  split
  · apply Meter.Spent.refuse
    change b.packet_max_length ≤ b.packet_length + 1
    omega
  · have grown := @spent_expand alloc b below 1
    refine grown.bind (k := 1) fun t ht => ?_
    obtain ⟨used, -, limit⟩ := counted grown ht
    have appended : payloadMeter.Spent (modify (append [v])) 1 t :=
      spent_append (d := [v]) (by rw [List.length_singleton]; omega) (by omega)
    refine appended.bind (k := 0) fun u hu => ?_
    obtain ⟨-, room, -⟩ := counted appended hu
    apply Meter.Spent.get
    split
    · exact spent_writeContinuationHeader room
    · exact .pure room

/-- The loop of `writeBuffer`, with enough turns for the fragments it fills. -/
theorem spent_writeFragments (turns : Nat) {d : List UInt8} {remaining : Nat}
    (inside : remaining ≤ maxPacketLen)
    (enough : d.length + (maxPacketLen - remaining) < turns * maxPacketLen)
    (room : b.packet_length + d.length < b.packet_max_length)
    (range : b.packet_max_length < 2 ^ 64) :
    payloadMeter.Spent (writeFragments alloc turns d remaining) d.length b := by
  induction turns generalizing d remaining b with
  | zero => omega
  | succ turns ih =>
    rw [writeFragments]
    split
    · rename_i hge
      have htake : (d.take remaining).length = remaining := List.length_take_of_le hge
      have hdrop : (d.drop remaining).length = d.length - remaining := List.length_drop
      have grown := @spent_expand alloc b (by omega) remaining
      refine (grown.bind (k := d.length) fun t ht => ?_).of_eq (Nat.zero_add _)
      obtain ⟨used₁, -, limit₁⟩ := counted grown ht
      have copied : payloadMeter.Spent (modify (append (d.take remaining))) _ t :=
        spent_append (by omega) (by omega)
      refine (copied.bind (k := d.length - remaining) fun u hu => ?_).of_eq (by omega)
      obtain ⟨used₂, below₂, limit₂⟩ := counted copied hu
      have continued := @spent_writeContinuationHeader alloc u below₂
      refine (continued.bind (k := d.length - remaining) fun v hv => ?_).of_eq (Nat.zero_add _)
      obtain ⟨used₃, -, limit₃⟩ := counted continued hv
      rw [Nat.add_mul] at enough
      exact (ih (Nat.le_refl _) (by omega) (by omega) (by omega)).of_eq hdrop
    · split
      · exact spent_copy room range _
      · rename_i hnil
        have below : b.packet_length < b.packet_max_length := by omega
        exact (Meter.Spent.pure (M := payloadMeter) below).of_eq (Decidable.not_not.mp hnil).symm

theorem spends_writeBuffer (alloc : Alloc) (d : List UInt8) :
    payloadMeter.Spends (writeBuffer alloc d) d.length := by
  intro b below range counts
  change b.packet_length < b.packet_max_length at below
  change b.packet_max_length < 2 ^ 64 at range
  have hadd : sizeAdd b.packet_length d.length = b.packet_length + d.length :=
    sizeAdd_of_lt counts
  apply Meter.Spent.get
  split
  · apply Meter.Spent.refuse
    change b.packet_max_length ≤ b.packet_length + d.length
    omega
  · split
    · exact spent_copy (by omega) range _
    · apply spent_writeFragments _ (Nat.sub_le _ _) _ (by omega) range
      rw [Nat.add_mul]
      unfold maxPacketLen
      omega

theorem spends_writeUint16 (alloc : Alloc) (v : UInt16) :
    payloadMeter.Spends (writeUint16 alloc v) 2 :=
  Meter.Spends.of_eq (.bind (spends_writeUint8 _ _) (spends_writeUint8 _ _)) rfl

theorem spends_writeUint24 (alloc : Alloc) (v : UInt32) :
    payloadMeter.Spends (writeUint24 alloc v) 3 :=
  Meter.Spends.of_eq (.bind (spends_writeUint8 _ _) (.bind (spends_writeUint8 _ _)
    (spends_writeUint8 _ _))) rfl

theorem spends_writeUint32 (alloc : Alloc) (v : UInt32) :
    payloadMeter.Spends (writeUint32 alloc v) 4 :=
  Meter.Spends.of_eq (.bind (spends_writeUint8 _ _) (.bind (spends_writeUint8 _ _)
    (.bind (spends_writeUint8 _ _) (spends_writeUint8 _ _)))) rfl

theorem spends_writeUint64 (alloc : Alloc) (v : UInt64) :
    payloadMeter.Spends (writeUint64 alloc v) 8 :=
  Meter.Spends.of_eq (.bind (spends_writeUint8 _ _) (.bind (spends_writeUint8 _ _)
    (.bind (spends_writeUint8 _ _) (.bind (spends_writeUint8 _ _)
    (.bind (spends_writeUint8 _ _) (.bind (spends_writeUint8 _ _)
    (.bind (spends_writeUint8 _ _) (spends_writeUint8 _ _)))))))) rfl

theorem lenenc_length (n : Nat) : (lenenc n).length =
    if n < 251 then 1 else if n ≤ 0xffff then 3 else if n ≤ 0xffffff then 4 else 9 := by
  unfold lenenc
  split_ifs <;> simp

theorem spends_writeLenenc (alloc : Alloc) (v : UInt64) :
    payloadMeter.Spends (writeLenenc alloc v) (lenenc v.toNat).length := by
  refine Meter.Spends.of_eq (.ite (fun _ => spends_writeUint8 _ _) fun _ =>
    .ite (fun _ => .bind (spends_writeUint8 _ _) (spends_writeUint16 _ _)) fun _ =>
    .ite (fun _ => .bind (spends_writeUint8 _ _) (spends_writeUint24 _ _)) fun _ =>
    .bind (spends_writeUint8 _ _) (spends_writeUint64 _ _)) ?_
  rw [lenenc_length]
  simp only [UInt64.lt_iff_toNat_lt, UInt64.le_iff_toNat_le]
  rfl

theorem spends_writeLenencBuffer (alloc : Alloc) (d : List UInt8) :
    payloadMeter.Spends (writeLenencBuffer alloc d) (lenenc (d.length % 2 ^ 64) ++ d).length :=
  Meter.Spends.of_eq (.bind (spends_writeLenenc _ _) (spends_writeBuffer _ _))
    (by rw [List.length_append, UInt64.toNat_ofNat'])

theorem spends_writeString (alloc : Alloc) (s : List UInt8) :
    payloadMeter.Spends (writeString alloc s) (s.takeWhile (· ≠ 0) ++ [0]).length :=
  Meter.Spends.of_eq (.bind (spends_writeBuffer _ _) (spends_writeUint8 _ _))
    (by rw [take_strlen, List.length_append, List.length_singleton])

inductive Write
  | uint8 (val : UInt8) | uint16 (val : UInt16) | uint24 (val : UInt32) | uint32 (val : UInt32)
  | uint64 (val : UInt64) | float (val : UInt32) | double (val : UInt64) | lenenc (val : UInt64)
  | buffer (data : List UInt8) | lenencBuffer (data : List UInt8) | string (data : List UInt8)
  deriving DecidableEq

namespace Write

def run (alloc : Alloc) : Write → Proc Code Builder Unit
  | uint8 val => writeUint8 alloc val
  | uint16 val => writeUint16 alloc val
  | uint24 val => writeUint24 alloc val
  | uint32 val => writeUint32 alloc val
  | uint64 val => writeUint64 alloc val
  | float val => writeFloat alloc val
  | double val => writeDouble alloc val
  | lenenc val => writeLenenc alloc val
  | buffer data => writeBuffer alloc data
  | lenencBuffer data => writeLenencBuffer alloc data
  | string data => writeString alloc data

/-- The payload bytes of a write. -/
def bytes : Write → List UInt8
  | uint8 val => [val]
  | uint16 val => leBytes 2 val.toNat
  | uint24 val => leBytes 3 val.toNat
  | uint32 val => leBytes 4 val.toNat
  | uint64 val => leBytes 8 val.toNat
  | float val => leBytes 4 val.toNat
  | double val => leBytes 8 val.toNat
  | lenenc val => Trilogy.lenenc val.toNat
  | buffer data => data
  | lenencBuffer data => Trilogy.lenenc (data.length % 2 ^ 64) ++ data
  | string data => data.takeWhile (· ≠ 0) ++ [0]

theorem appends (alloc : Alloc) (w : Write) : Appends (w.run alloc) w.bytes := by
  cases w with
  | uint8 val => exact appends_writeUint8 alloc val
  | uint16 val => exact appends_writeUint16 alloc val
  | uint24 val => exact appends_writeUint24 alloc val
  | uint32 val => exact appends_writeUint32 alloc val
  | uint64 val => exact appends_writeUint64 alloc val
  | float val => exact appends_writeUint32 alloc val
  | double val => exact appends_writeUint64 alloc val
  | lenenc val => exact appends_writeLenenc alloc val
  | buffer data => exact appends_writeBuffer alloc data
  | lenencBuffer data => exact appends_writeLenencBuffer alloc data
  | string data => exact appends_writeString alloc data

theorem spends (alloc : Alloc) (w : Write) : payloadMeter.Spends (w.run alloc) w.bytes.length := by
  cases w with
  | uint8 val => exact spends_writeUint8 alloc val
  | uint16 val => exact (spends_writeUint16 alloc val).of_eq (length_leBytes ..).symm
  | uint24 val => exact (spends_writeUint24 alloc val).of_eq (length_leBytes ..).symm
  | uint32 val => exact (spends_writeUint32 alloc val).of_eq (length_leBytes ..).symm
  | uint64 val => exact (spends_writeUint64 alloc val).of_eq (length_leBytes ..).symm
  | float val => exact (spends_writeUint32 alloc val).of_eq (length_leBytes ..).symm
  | double val => exact (spends_writeUint64 alloc val).of_eq (length_leBytes ..).symm
  | lenenc val => exact spends_writeLenenc alloc val
  | buffer data => exact spends_writeBuffer alloc data
  | lenencBuffer data => exact spends_writeLenencBuffer alloc data
  | string data => exact spends_writeString alloc data

end Write

def writes (alloc : Alloc) (ws : List Write) : Proc Code Builder Unit := forM ws (Write.run alloc)

def payload (ws : List Write) : List UInt8 := ws.flatMap Write.bytes

theorem payload_append (ws ws' : List Write) : payload (ws ++ ws') = payload ws ++ payload ws' :=
  List.flatMap_append

theorem payload_length (ws : List Write) :
    (payload ws).length = (ws.map fun w => w.bytes.length).sum := List.length_flatMap

theorem appends_writes (alloc : Alloc) (ws : List Write) :
    Appends (writes alloc ws) (payload ws) := by
  induction ws with
  | nil => exact .pure
  | cons w ws ih => exact .bind (w.appends alloc) ih

theorem writes_snoc {ws : List Write} {w : Write} {b₁ b₂ : Builder} {r : Except Code Unit}
    (done : writes alloc ws b = (.ok (), b₁)) (next : w.run alloc b₁ = (r, b₂)) :
    writes alloc (ws ++ [w]) b = (r, b₂) := by
  unfold writes at done ⊢
  rw [List.forM_append, Proc.bind_of_ok done]
  cases r with
  | ok _ => exact Proc.bind_of_ok next
  | error e => exact Proc.bind_of_error next

/-- An error among the first writes is the error of the whole sequence. -/
theorem writes_error_of_isPrefix {ws ws' : List Write} {rc : Code} (hp : ws' <+: ws)
    (h : (writes alloc ws' b).1 = .error rc) : (writes alloc ws b).1 = .error rc := by
  obtain ⟨rest, rfl⟩ := hp
  unfold writes at h ⊢
  rw [List.forM_append, Proc.bind_of_error (Proc.ends h)]

/-- The data of a write and the payload before it are in memory together. -/
def Addressable (m : Nat) (ws : List Write) : Prop :=
  ∀ before w, before ++ [w] <+: ws → (payload before).length < m →
    (payload before).length + w.bytes.length < 2 ^ 64

theorem Addressable.countable {m : Nat} {ws : List Write} (h : Addressable m ws) :
    Meter.Countable (2 ^ 64) m (fun w : Write => w.bytes.length) 0 ws := by
  intro before w hp below
  rw [← payload_length, Nat.zero_add] at *
  exact h before w hp below

theorem addressable_of_lt {m : Nat} {ws : List Write} (h : (payload ws).length < 2 ^ 64) :
    Addressable m ws := by
  rintro before w ⟨rest, rfl⟩ _
  rw [payload_append, payload_append, List.length_append, List.length_append] at h
  have hw : payload [w] = w.bytes := List.flatMap_singleton ..
  rw [hw] at h
  omega

/-- A builder that is fresh but for its limit. -/
theorem limited_building {buff : Buffer} {seq : UInt8} {b b₀ : Builder} {m : Nat}
    (fresh : init alloc buff seq = (.ok (), b)) (limited : setMaxPacketLength m b = (.ok (), b₀)) :
    Building seq [] b₀ ∧ b₀.packet_length = 0 ∧ b₀.packet_max_length = m := by
  have hb := init_building fresh
  obtain ⟨-, -, -, -, hpacket, -⟩ := writeHeader_ok fresh
  unfold setMaxPacketLength at limited
  rw [Proc.get_bind] at limited
  split at limited <;> cases limited
  exact ⟨hb.setMax m, hpacket, rfl⟩

theorem packet_limit_exact {buff : Buffer} {seq : UInt8} {b₀ : Builder} {m : Nat}
    {ws : List Write} (fresh : init alloc buff seq = (.ok (), b))
    (limited : setMaxPacketLength m b = (.ok (), b₀)) (pos : 1 ≤ m) (size : m ≤ sizeMax)
    (addressable : Addressable m ws)
    (grows : ∀ rc, (writes alloc ws b₀).1 = .error rc → ¬ GrowthFailure rc) :
    (∀ done b₁, done <+: ws → writes alloc done b₀ = (.ok (), b₁) →
      b₁.packet_length = (payload done).length ∧ b₁.packet_length < m ∧
        b₁.finalize.buffer.bytes = frames seq (payload done)) ∧
    ((writes alloc ws b₀).1 = .ok () ↔ (payload ws).length < m) ∧
    (∀ done w b₁, done ++ [w] <+: ws → writes alloc done b₀ = (.ok (), b₁) →
      m ≤ (payload (done ++ [w])).length → (w.run alloc b₁).1 = .error .maxPacketExceeded) ∧
    (∀ d b₁ b₂, writeBuffer alloc d b₁ = (.error .maxPacketExceeded, b₂) → b₂ = b₁) := by
  obtain ⟨building, used, limit⟩ := limited_building fresh limited
  have spent : ∀ ws', ws' <+: ws →
      payloadMeter.Spent (writes alloc ws') (payload ws').length b₀ := by
    intro ws' hp
    rw [payload_length]
    apply Meter.Spends.forM (Write.spends alloc)
    · change b₀.packet_length < b₀.packet_max_length
      omega
    · change b₀.packet_max_length < 2 ^ 64
      unfold sizeMax at size
      omega
    · change Meter.Countable (2 ^ 64) b₀.packet_max_length _ b₀.packet_length ws'
      rw [used, limit]
      exact addressable.countable.of_isPrefix hp
  have clean : ∀ ws', ws' <+: ws → ∀ rc, (writes alloc ws' b₀).1 = .error rc →
      ¬ GrowthFailure rc := fun ws' hp rc h => grows rc (writes_error_of_isPrefix hp h)
  refine ⟨?_, ?_, ?_, fun d b₁ b₂ h => writeBuffer_refused_unchanged h⟩
  · intro done b₁ hp h
    obtain ⟨hused, below, hlimit⟩ := counted (spent done hp) h
    rw [used, Nat.zero_add] at hused
    exact ⟨hused, by omega, (appends_writes alloc done building h).finalize.1⟩
  · have := (spent ws (List.prefix_refl _)).ok_iff (clean ws (List.prefix_refl _))
    change _ ↔ b₀.packet_length + _ < b₀.packet_max_length at this
    rwa [used, limit, Nat.zero_add] at this
  · intro done w b₁ hp h reached
    have refused := (spent _ hp).refused (clean _ hp)
      (by change b₀.packet_max_length ≤ b₀.packet_length + _; omega)
    have hw := writes_snoc h (w := w) (Proc.ends rfl)
    rw [hw] at refused
    exact refused

/-- A byte and then two more reach a limit of three: the second write is refused. -/
theorem packet_limit_exact_three :
    let alloc : Alloc := fun _ => true
    let buff : Buffer := ⟨[], [], 16, by decide⟩
    let b := (init alloc buff 0).2
    let b₀ := (setMaxPacketLength 3 b).2
    let ws := [Write.uint8 1, .buffer [2, 3]]
    (∀ done b₁, done <+: ws → writes alloc done b₀ = (.ok (), b₁) →
      b₁.packet_length = (payload done).length ∧ b₁.packet_length < 3 ∧
        b₁.finalize.buffer.bytes = frames 0 (payload done)) ∧
    ((writes alloc ws b₀).1 = .ok () ↔ (payload ws).length < 3) ∧
    (∀ done w b₁, done ++ [w] <+: ws → writes alloc done b₀ = (.ok (), b₁) →
      3 ≤ (payload (done ++ [w])).length → (w.run alloc b₁).1 = .error .maxPacketExceeded) ∧
    (∀ d b₁ b₂, writeBuffer alloc d b₁ = (.error .maxPacketExceeded, b₂) → b₂ = b₁) := by
  intro alloc buff b b₀ ws
  have hr : (writes alloc ws b₀).1 = .error .maxPacketExceeded := by decide +kernel
  apply packet_limit_exact (show init alloc buff 0 = (.ok (), b) from rfl)
  · rfl
  · decide
  · decide
  · exact addressable_of_lt (by decide)
  · intro rc h
    rw [hr] at h
    cases h
    unfold GrowthFailure
    decide

end Builder

end Trilogy
