import Trilogy.Builder

namespace Trilogy

open Lib

def header (length : Nat) (seq : UInt8) : List UInt8 := leBytes 3 length ++ [seq]

def frames (seq : UInt8) (p : List UInt8) : List UInt8 :=
  if p.length < maxPacketLen then header p.length seq ++ p
  else header maxPacketLen seq ++ (p.take maxPacketLen ++ frames (seq + 1) (p.drop maxPacketLen))
termination_by p.length
decreasing_by
  rename_i h
  rw [List.length_drop]
  unfold maxPacketLen at *
  omega

/-- How many fragments carry a payload of this length, after the first. -/
def extraFragments (length : Nat) : Nat := length / maxPacketLen

theorem frames_of_lt {p : List UInt8} (h : p.length < maxPacketLen) (seq : UInt8) :
    frames seq p = header p.length seq ++ p := by
  rw [frames, if_pos h]

theorem frames_full {full : List UInt8} (h : full.length = maxPacketLen) (seq : UInt8)
    (q : List UInt8) :
    frames seq (full ++ q) = header maxPacketLen seq ++ (full ++ frames (seq + 1) q) := by
  have hlen : ¬ (full ++ q).length < maxPacketLen := by
    rw [List.length_append]
    omega
  rw [frames, if_neg hlen, ← h, List.take_left, List.drop_left]

theorem header_length (n : Nat) (seq : UInt8) : (header n seq).length = 4 := by
  simp [header]

theorem header_eq (n : Nat) (seq : UInt8) : header n seq =
    [UInt8.ofNat n, UInt8.ofNat (n >>> 8), UInt8.ofNat (n >>> 16), seq] := by
  simp only [header, leBytes, Nat.shiftRight_eq_div_pow, List.cons_append, List.nil_append]
  rw [Nat.div_div_eq_div_mul]

namespace Builder

/-- A builder in the middle of a packet. The payload `p` so far fills `full`
fragments, which are `closed`, and the `tail` in the open one, whose length
bytes are still zero. -/
structure Layout (s : UInt8) (p closed tail : List UInt8) (full : Nat) (b : Builder) : Prop where
  bytes : b.buffer.bytes = closed ++ 0 :: 0 :: 0 :: (s + UInt8.ofNat full) :: tail
  offset : b.header_offset = closed.length
  fragment : b.fragment_length = tail.length
  room : tail.length < maxPacketLen
  length : p.length = full * maxPacketLen + tail.length
  seq : b.seq = s + UInt8.ofNat full + 1
  packet : b.packet_length = p.length % 2 ^ 64
  extend : ∀ q, frames s (p ++ q) = closed ++ frames (s + UInt8.ofNat full) (tail ++ q)

def Building (s : UInt8) (p : List UInt8) (b : Builder) : Prop :=
  ∃ closed tail full, Layout s p closed tail full b

theorem ofNat_succ (n : Nat) : UInt8.ofNat (n + 1) = UInt8.ofNat n + 1 := by
  apply UInt8.toNat_inj.mp
  simp [UInt8.toNat_add]

theorem onBuffer_expand {alloc : Alloc} {needed : Nat} {b b' : Builder}
    (h : onBuffer (Buffer.expand alloc needed) b = (.ok (), b')) :
    ∃ buffer, buffer.bytes = b.buffer.bytes ∧ b' = { b with buffer } := by
  have hf := Buffer.expand_frame alloc needed b.buffer
  simp only [onBuffer, Proc.zoom_apply, Prod.mk.injEq] at h
  exact ⟨_, hf.1, h.2.symm⟩

theorem writeHeader_ok {alloc : Alloc} {b b' : Builder}
    (h : writeHeader alloc b = (.ok (), b')) :
    b'.buffer.bytes = b.buffer.bytes ++ [0, 0, 0, b.seq] ∧ b'.header_offset = b.buffer.len ∧
      b'.fragment_length = 0 ∧ b'.seq = b.seq + 1 ∧ b'.packet_length = b.packet_length ∧
      b'.packet_max_length = b.packet_max_length := by
  obtain ⟨_, b₁, h₁, h₂⟩ := Proc.bind_ok.mp h
  obtain ⟨buffer, hb, rfl⟩ := onBuffer_expand h₁
  cases h₂
  simp [hb, Buffer.len]

theorem init_building {alloc : Alloc} {buff : Buffer} {s : UInt8} {b : Builder}
    (h : init alloc buff s = (.ok (), b)) : Building s [] b := by
  obtain ⟨hbytes, hoff, hfrag, hseq, hpacket, -⟩ := writeHeader_ok h
  refine ⟨[], [], 0, ?_⟩
  constructor
  · simpa using hbytes
  · simpa [Buffer.len] using hoff
  · exact hfrag
  · decide
  · rfl
  · simpa using hseq
  · simpa using hpacket
  · intro q
    simp

theorem Building.setMax {s : UInt8} {p : List UInt8} {b : Builder} (h : Building s p b) (n : Nat) :
    Building s p { b with packet_max_length := n } := by
  obtain ⟨closed, tail, full, h⟩ := h
  exact ⟨closed, tail, full, { h with }⟩

/-- Bytes that do not fill the open fragment. -/
theorem Layout.append {s : UInt8} {p closed tail : List UInt8} {full : Nat} {b : Builder}
    (h : Layout s p closed tail full b) {d : List UInt8} (room : (tail ++ d).length < maxPacketLen) :
    Layout s (p ++ d) closed (tail ++ d) full (b.append d) where
  bytes := by simp [Builder.append, h.bytes]
  offset := h.offset
  fragment := by simp [Builder.append, h.fragment]
  room := room
  length := by simp [h.length, Nat.add_assoc]
  seq := h.seq
  packet := by simp [Builder.append, h.packet, sizeAdd]
  extend := fun q => by simpa using h.extend (d ++ q)

/-- Bytes that fill the open fragment, and the header of the next one. -/
theorem Layout.fill {alloc : Alloc} {s : UInt8} {p closed tail : List UInt8} {full : Nat}
    {b b' : Builder} (h : Layout s p closed tail full b) {d : List UInt8}
    (fills : (tail ++ d).length = maxPacketLen)
    (ok : writeContinuationHeader alloc (b.append d) = (.ok (), b')) :
    Layout s (p ++ d) (closed ++ header maxPacketLen (s + UInt8.ofNat full) ++ (tail ++ d)) []
      (full + 1) b' := by
  obtain ⟨_, b₁, h₁, h₂⟩ := Proc.bind_ok.mp ok
  cases h₁
  obtain ⟨hbytes, hoff, hfrag, hseq, hpacket, -⟩ := writeHeader_ok h₂
  have hset : ((((b.append d).buffer.setByte b.header_offset 0xff).setByte
      (b.header_offset + 1) 0xff).setByte (b.header_offset + 2) 0xff).bytes =
      closed ++ header maxPacketLen (s + UInt8.ofNat full) ++ (tail ++ d) := by
    have hhead : header maxPacketLen (s + UInt8.ofNat full) =
        [0xff, 0xff, 0xff, s + UInt8.ofNat full] := by
      rw [header_eq]
      rfl
    simp [Builder.append, h.bytes, h.offset, hhead]
  have hnext : s + UInt8.ofNat (full + 1) = s + UInt8.ofNat full + 1 := by
    rw [ofNat_succ, UInt8.add_assoc]
  have hlen : tail.length + d.length = maxPacketLen := by simpa using fills
  constructor
  · have hs : (b.append d).seq = s + UInt8.ofNat (full + 1) := by rw [hnext]; exact h.seq
    rw [hbytes]
    simp only [hs]
    change (Buffer.bytes _) ++ _ = _
    rw [show (b.append d).header_offset = b.header_offset from rfl, hset]
  · rw [hoff]
    exact congrArg List.length hset
  · exact hfrag
  · decide
  · rw [List.length_append, h.length, List.length_nil, Nat.add_mul]
    omega
  · rw [hseq, hnext]
    exact congrArg (· + 1) h.seq
  · rw [hpacket]
    simp [Builder.append, h.packet, sizeAdd]
  · intro q
    have := h.extend (d ++ q)
    rw [← List.append_assoc tail, frames_full fills, ← hnext] at this
    simpa using this

/-- On success `m` adds exactly the bytes `d` to the payload. -/
def Appends (m : Proc Code Builder Unit) (d : List UInt8) : Prop :=
  ∀ ⦃s p b b'⦄, Building s p b → m b = (.ok (), b') → Building s (p ++ d) b'

theorem Appends.of_eq {m : Proc Code Builder Unit} {d e : List UInt8} (h : Appends m d)
    (eq : d = e) : Appends m e := eq ▸ h

theorem Appends.pure : Appends (pure ()) [] := by
  intro s p b b' hb h
  cases h
  simpa using hb

theorem Appends.bind {m : Proc Code Builder Unit} {f : Unit → Proc Code Builder Unit}
    {d e : List UInt8} (hm : Appends m d) (hf : Appends (f ()) e) : Appends (m >>= f) (d ++ e) := by
  intro s p b b' hb h
  obtain ⟨_, b₁, h₁, h₂⟩ := Proc.bind_ok.mp h
  rw [← List.append_assoc]
  exact hf (hm hb h₁) h₂

theorem Appends.ite {c : Prop} [Decidable c] {m m' : Proc Code Builder Unit} {d d' : List UInt8}
    (hm : c → Appends m d) (hm' : ¬ c → Appends m' d') :
    Appends (if c then m else m') (if c then d else d') := by
  split
  · exact hm ‹_›
  · exact hm' ‹_›

theorem Appends.throw (e : Code) (d : List UInt8) : Appends (throw e) d := by
  intro s p b b' _ h
  cases h

theorem appends_writeUint8 (alloc : Alloc) (v : UInt8) : Appends (writeUint8 alloc v) [v] := by
  rintro s p b b' ⟨closed, tail, full, hb⟩ h
  unfold writeUint8 at h
  rw [Proc.get_bind] at h
  split at h
  · cases h
  · obtain ⟨_, b₁, h₁, h₂⟩ := Proc.bind_ok.mp h
    obtain ⟨buffer, hbuf, rfl⟩ := onBuffer_expand h₁
    have hb' : Layout s p closed tail full { b with buffer } := { hb with bytes := hbuf ▸ hb.bytes }
    rw [Proc.modify_bind, Proc.get_bind] at h₂
    have hlen : (Builder.append [v] { b with buffer }).fragment_length = (tail ++ [v]).length := by
      simp [Builder.append, hb.fragment]
    split at h₂
    · exact ⟨_, _, _, hb'.fill (hlen ▸ ‹_›) h₂⟩
    · cases h₂
      have := hb.room
      refine ⟨_, _, _, hb'.append (d := [v]) ?_⟩
      rw [hlen] at *
      rw [List.length_append, List.length_singleton] at *
      omega

/-- The loop of `writeBuffer`, with enough turns for the fragments it fills. -/
theorem appends_writeFragments (alloc : Alloc) (turns : Nat) {s : UInt8}
    {p closed tail d : List UInt8} {full : Nat} {b b' : Builder}
    (hb : Layout s p closed tail full b) (enough : tail.length + d.length < turns * maxPacketLen)
    (h : writeFragments alloc turns d (maxPacketLen - tail.length) b = (.ok (), b')) :
    Building s (p ++ d) b' := by
  induction turns generalizing p closed tail full d b with
  | zero => omega
  | succ turns ih =>
    have hroom := hb.room
    rw [writeFragments] at h
    split at h
    · rename_i hge
      obtain ⟨_, b₁, h₁, h₂⟩ := Proc.bind_ok.mp h
      obtain ⟨buffer, hbuf, rfl⟩ := onBuffer_expand h₁
      rw [Proc.modify_bind] at h₂
      obtain ⟨_, b₂, h₂, h₃⟩ := Proc.bind_ok.mp h₂
      have hb₁ : Layout s p closed tail full { b with buffer } :=
        { hb with bytes := hbuf ▸ hb.bytes }
      have fills : (tail ++ d.take (maxPacketLen - tail.length)).length = maxPacketLen := by
        rw [List.length_append, List.length_take]
        omega
      have hb₂ := hb₁.fill fills h₂
      rw [Nat.add_mul] at enough
      have := ih hb₂ (by rw [List.length_drop, List.length_nil]; omega) h₃
      rwa [List.append_assoc, List.take_append_drop] at this
    · rename_i hlt
      have room : (tail ++ d).length < maxPacketLen := by
        rw [List.length_append]
        omega
      split at h
      · obtain ⟨_, b₁, h₁, h₂⟩ := Proc.bind_ok.mp h
        obtain ⟨buffer, hbuf, rfl⟩ := onBuffer_expand h₁
        cases h₂
        have hb₁ : Layout s p closed tail full { b with buffer } :=
          { hb with bytes := hbuf ▸ hb.bytes }
        exact ⟨_, _, _, hb₁.append room⟩
      · rename_i hnil
        cases h
        have : d = [] := List.length_eq_zero_iff.mp (Decidable.not_not.mp hnil)
        subst this
        rw [List.append_nil]
        exact ⟨_, _, _, hb⟩

theorem appends_writeBuffer (alloc : Alloc) (d : List UInt8) : Appends (writeBuffer alloc d) d := by
  rintro s p b b' ⟨closed, tail, full, hb⟩ h
  have hroom := hb.room
  unfold writeBuffer at h
  rw [Proc.get_bind] at h
  split at h
  · cases h
  · rw [hb.fragment] at h
    split at h
    · obtain ⟨_, b₁, h₁, h₂⟩ := Proc.bind_ok.mp h
      obtain ⟨buffer, hbuf, rfl⟩ := onBuffer_expand h₁
      cases h₂
      have hb₁ : Layout s p closed tail full { b with buffer } :=
        { hb with bytes := hbuf ▸ hb.bytes }
      refine ⟨_, _, _, hb₁.append ?_⟩
      rw [List.length_append]
      omega
    · refine appends_writeFragments alloc _ hb ?_ h
      rw [Nat.add_mul]
      unfold maxPacketLen at *
      omega

theorem byte16 (v : UInt16) : (v &&& 0xff).toUInt8 = UInt8.ofNat v.toNat := by
  apply UInt8.toNat_inj.mp
  simp [Nat.and_two_pow_sub_one_eq_mod _ 8]

theorem byte32 (v : UInt32) : (v &&& 0xff).toUInt8 = UInt8.ofNat v.toNat := by
  apply UInt8.toNat_inj.mp
  simp [Nat.and_two_pow_sub_one_eq_mod _ 8]

theorem byte64 (v : UInt64) : (v &&& 0xff).toUInt8 = UInt8.ofNat v.toNat := by
  apply UInt8.toNat_inj.mp
  simp [Nat.and_two_pow_sub_one_eq_mod _ 8]

theorem appends_writeUint16 (alloc : Alloc) (v : UInt16) :
    Appends (writeUint16 alloc v) (leBytes 2 v.toNat) := by
  refine Appends.of_eq (.bind (appends_writeUint8 _ _) (appends_writeUint8 _ _)) ?_
  rw [← leBytes_take (by decide : 2 ≤ 8), leBytes_shift]
  simp only [byte16]
  rfl

theorem appends_writeUint24 (alloc : Alloc) (v : UInt32) :
    Appends (writeUint24 alloc v) (leBytes 3 v.toNat) := by
  refine Appends.of_eq (.bind (appends_writeUint8 _ _) (.bind (appends_writeUint8 _ _)
    (appends_writeUint8 _ _))) ?_
  rw [← leBytes_take (by decide : 3 ≤ 8), leBytes_shift]
  simp only [byte32]
  rfl

theorem appends_writeUint32 (alloc : Alloc) (v : UInt32) :
    Appends (writeUint32 alloc v) (leBytes 4 v.toNat) := by
  refine Appends.of_eq (.bind (appends_writeUint8 _ _) (.bind (appends_writeUint8 _ _)
    (.bind (appends_writeUint8 _ _) (appends_writeUint8 _ _)))) ?_
  rw [← leBytes_take (by decide : 4 ≤ 8), leBytes_shift]
  simp only [byte32]
  rfl

theorem appends_writeUint64 (alloc : Alloc) (v : UInt64) :
    Appends (writeUint64 alloc v) (leBytes 8 v.toNat) := by
  refine Appends.of_eq (.bind (appends_writeUint8 _ _) (.bind (appends_writeUint8 _ _)
    (.bind (appends_writeUint8 _ _) (.bind (appends_writeUint8 _ _)
    (.bind (appends_writeUint8 _ _) (.bind (appends_writeUint8 _ _)
    (.bind (appends_writeUint8 _ _) (appends_writeUint8 _ _)))))))) ?_
  rw [leBytes_shift]
  simp only [byte64]
  rfl

end Builder

/-- MySQL's length-encoded integer, in its shortest form. -/
def lenenc (n : Nat) : List UInt8 :=
  if n < 251 then leBytes 1 n
  else if n ≤ 0xffff then 0xfc :: leBytes 2 n
  else if n ≤ 0xffffff then 0xfd :: leBytes 3 n
  else 0xfe :: leBytes 8 n

def lenencBytes (d : List UInt8) : List UInt8 := lenenc d.length ++ d

namespace Builder

theorem appends_writeLenenc (alloc : Alloc) (v : UInt64) :
    Appends (writeLenenc alloc v) (lenenc v.toNat) := by
  refine Appends.of_eq (.ite (fun _ => appends_writeUint8 _ _) fun _ =>
    .ite (fun _ => .bind (appends_writeUint8 _ _) (appends_writeUint16 _ _)) fun _ =>
    .ite (fun _ => .bind (appends_writeUint8 _ _) (appends_writeUint24 _ _)) fun _ =>
    .bind (appends_writeUint8 _ _) (appends_writeUint64 _ _)) ?_
  have h1 : [v.toUInt8] = leBytes 1 v.toNat := rfl
  have h2 : leBytes 2 v.toUInt16.toNat = leBytes 2 v.toNat := leBytes_mod 2 v.toNat
  have h3 : leBytes 3 v.toUInt32.toNat = leBytes 3 v.toNat := by
    rw [← leBytes_take (by decide : 3 ≤ 4), ← leBytes_take (by decide : 3 ≤ 4) v.toNat]
    exact congrArg (List.take 3) (leBytes_mod 4 v.toNat)
  simp only [UInt64.lt_iff_toNat_lt, UInt64.le_iff_toNat_le, h1, h2, h3]
  rfl

theorem appends_writeLenencBuffer (alloc : Alloc) (d : List UInt8) :
    Appends (writeLenencBuffer alloc d) (lenenc (d.length % 2 ^ 64) ++ d) :=
  Appends.of_eq (.bind (appends_writeLenenc _ _) (appends_writeBuffer _ _))
    (by rw [UInt64.toNat_ofNat'])

theorem take_strlen (s : List UInt8) : s.take (strlen s) = s.takeWhile (· ≠ 0) := by
  rw [strlen]
  exact (List.prefix_iff_eq_take.mp (List.takeWhile_prefix _)).symm

theorem appends_writeString (alloc : Alloc) (s : List UInt8) :
    Appends (writeString alloc s) (s.takeWhile (· ≠ 0) ++ [0]) :=
  Appends.of_eq (.bind (appends_writeBuffer _ _) (appends_writeUint8 _ _)) (by rw [take_strlen])

/-- Once finalized, the buffer is the framed payload. -/
theorem Building.finalize {s : UInt8} {p : List UInt8} {b : Builder} (h : Building s p b) :
    b.finalize.buffer.bytes = frames s p ∧
      b.finalize.seq = s + UInt8.ofNat (extraFragments p.length) + 1 := by
  obtain ⟨closed, tail, full, h⟩ := h
  have hroom := h.room
  have hfull : full = extraFragments p.length := by
    rw [extraFragments, h.length, Nat.add_comm, Nat.add_mul_div_right _ _ (by decide),
      Nat.div_eq_of_lt hroom, Nat.zero_add]
  constructor
  · have hp := h.extend []
    rw [List.append_nil, List.append_nil, frames_of_lt hroom, header_eq] at hp
    rw [hp]
    simp [Builder.finalize, h.bytes, h.offset, h.fragment]
  · exact hfull ▸ h.seq

/-- On success `m` ends the packet, after the bytes `d`. -/
def Finalizes (m : Proc Code Builder Unit) (d : List UInt8) : Prop :=
  ∀ ⦃s p b b'⦄, Building s p b → m b = (.ok (), b') →
    b'.buffer.bytes = frames s (p ++ d) ∧
      b'.seq = s + UInt8.ofNat (extraFragments (p ++ d).length) + 1

theorem Finalizes.finalize : Finalizes (modify Builder.finalize) [] := by
  intro s p b b' hb h
  cases h
  rw [List.append_nil]
  exact hb.finalize

theorem Finalizes.bind {m : Proc Code Builder Unit} {f : Unit → Proc Code Builder Unit}
    {d e : List UInt8} (hm : Appends m d) (hf : Finalizes (f ()) e) :
    Finalizes (m >>= f) (d ++ e) := by
  intro s p b b' hb h
  obtain ⟨_, b₁, h₁, h₂⟩ := Proc.bind_ok.mp h
  rw [← List.append_assoc]
  exact hf (hm hb h₁) h₂

theorem Finalizes.of_eq {m : Proc Code Builder Unit} {d e : List UInt8} (h : Finalizes m d)
    (eq : d = e) : Finalizes m e := eq ▸ h

section

variable {alloc : Alloc} (always : ∀ c, alloc c = true)
include always

theorem expand_succeeds {needed : Nat} {b : Builder} (h : b.buffer.len + needed ≤ 2 ^ 63) :
    ∃ buffer, buffer.bytes = b.buffer.bytes ∧
      onBuffer (Buffer.expand alloc needed) b = (.ok (), { b with buffer }) := by
  have hg := Buffer.grows_of_alloc always b.buffer.cap (Nat.le_refl _) b.buffer needed
    (Nat.le_refl _) h
  exact ⟨_, (Buffer.expand_frame alloc needed b.buffer).1, by rw [onBuffer, Proc.zoom_apply, hg]⟩

theorem writeHeader_succeeds {b : Builder} (h : b.buffer.len + 4 ≤ 2 ^ 63) :
    ∃ b', writeHeader alloc b = (.ok (), b') ∧ b'.buffer.len = b.buffer.len + 4 := by
  obtain ⟨buffer, hbytes, he⟩ := expand_succeeds always h
  exact ⟨_, by rw [writeHeader, Proc.bind_of_ok he]; rfl, by simp [Buffer.len, hbytes]⟩

theorem writeContinuationHeader_succeeds {b : Builder} (h : b.buffer.len + 4 ≤ 2 ^ 63) :
    ∃ b', writeContinuationHeader alloc b = (.ok (), b') ∧ b'.buffer.len = b.buffer.len + 4 := by
  rw [writeContinuationHeader, Proc.modify_bind]
  obtain ⟨b', he, hlen⟩ := writeHeader_succeeds always (b := { b with
    buffer := ((b.buffer.setByte b.header_offset 0xff).setByte
      (b.header_offset + 1) 0xff).setByte (b.header_offset + 2) 0xff }) (by simpa [Buffer.len] using h)
  exact ⟨b', he, by simpa [Buffer.len] using hlen⟩

/-- A header is shorter than five times the fragment in front of it. -/
theorem writeFragments_succeeds (turns : Nat) {d : List UInt8} {remaining : Nat} {b : Builder}
    (pos : 0 < remaining) (h : b.buffer.len + 5 * d.length ≤ 2 ^ 62) :
    ∃ b', writeFragments alloc turns d remaining b = (.ok (), b') := by
  induction turns generalizing d remaining b with
  | zero => exact ⟨b, rfl⟩
  | succ turns ih =>
    rw [writeFragments]
    split
    · rename_i hge
      obtain ⟨buffer, hbytes, he⟩ := @expand_succeeds alloc always remaining b (by omega)
      have hlen : ((Builder.append (d.take remaining) { b with buffer }).buffer).len =
          b.buffer.len + remaining := by
        simp [Builder.append, Buffer.len, hbytes, hge]
      obtain ⟨b₁, he₁, hlen₁⟩ := writeContinuationHeader_succeeds always
        (b := Builder.append (d.take remaining) { b with buffer }) (by omega)
      obtain ⟨b₂, he₂⟩ := @ih (d.drop remaining) maxPacketLen b₁ (by decide)
        (by rw [hlen₁, hlen, List.length_drop]; omega)
      exact ⟨b₂, by rw [Proc.bind_of_ok he, Proc.modify_bind, Proc.bind_of_ok he₁, he₂]⟩
    · split
      · obtain ⟨buffer, hbytes, he⟩ := @expand_succeeds alloc always d.length b (by omega)
        exact ⟨_, by rw [Proc.bind_of_ok he]; rfl⟩
      · exact ⟨b, rfl⟩

theorem writeBuffer_succeeds {d : List UInt8} {b : Builder}
    (room : b.fragment_length < maxPacketLen) (max : b.packet_length + d.length < b.packet_max_length)
    (limit : b.packet_max_length ≤ 2 ^ 64) (h : b.buffer.len + 5 * d.length ≤ 2 ^ 62) :
    ∃ b', writeBuffer alloc d b = (.ok (), b') := by
  have hadd : sizeAdd b.packet_length d.length = b.packet_length + d.length :=
    sizeAdd_of_lt (by omega)
  rw [writeBuffer, Proc.get_bind, hadd, if_neg (by omega)]
  split
  · obtain ⟨buffer, hbytes, he⟩ := @expand_succeeds alloc always d.length b (by omega)
    exact ⟨_, by rw [Proc.bind_of_ok he]; rfl⟩
  · exact writeFragments_succeeds always _ (by omega) h

end

end Builder

end Trilogy
