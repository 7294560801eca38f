import Trilogy.Drain
import Trilogy.Leftovers

/-! Reading a packet leaves what the storage held behind it. A byte planted there is
still there afterwards; and each packet uses something up, so that no two
connections that differ by a packet are the same. -/
namespace Trilogy

open Lib Proc

/-- Put a byte anywhere in the storage. -/
def Buffer.plant (i : Nat) (v : UInt8) (b : Buffer) : Buffer :=
  if i < b.len then b.setByte i v
  else { b with stale := (b.stale ++ List.replicate (i - b.len + 1) 0).set (i - b.len) v }

namespace Buffer

variable {i : Nat} {v : UInt8} {b : Buffer}

theorem byteAt_plant : (b.plant i v).byteAt i = v := by
  unfold plant
  by_cases hin : i < b.len
  · have hlen : (b.setByte i v).len = b.len := List.length_set
    rw [if_pos hin, byteAt_of_lt (hlen.symm ▸ hin), setByte_bytes, List.getD_eq_getElem?_getD,
      List.getElem?_set_self hin]
    rfl
  · rw [if_neg hin, byteAt_of_le]
    · change ((b.stale ++ List.replicate (i - b.len + 1) 0).set (i - b.len) v).getD (i - b.len) 0 = v
      rw [List.getD_eq_getElem?_getD, List.getElem?_set_self (by simp; omega)]
      rfl
    · exact Nat.not_lt.mp hin

theorem len_plant : (b.plant i v).len = b.len := by
  unfold plant
  by_cases hin : i < b.len
  · rw [if_pos hin]
    exact List.length_set
  · rw [if_neg hin]
    rfl

theorem cap_plant : (b.plant i v).cap = b.cap := by
  unfold plant
  split <;> rfl

theorem bytes_plant (h : b.len ≤ i) : (b.plant i v).bytes = b.bytes := by
  rw [plant, if_neg (Nat.not_lt.mpr h)]

end Buffer

namespace PacketParser

variable {alloc : Alloc} {p : PacketParser} {b : Buffer} {i : Nat} {v : UInt8}

/-- The byte is in the storage, unless it is part of the packet being read. -/
def Holds (i : Nat) (v : UInt8) (p : PacketParser) (b : Buffer) : Prop :=
  b.byteAt i = v ∨ ¬ p.Awaits ∧ i < b.len

theorem onPacketData_holds (h : b.byteAt i = v ∨ i < b.len) (data : List UInt8) :
    (onPacketData alloc b data).2.byteAt i = v ∨ i < (onPacketData alloc b data).2.len := by
  obtain ⟨hbytes, hstale, -⟩ := Buffer.expand_frame alloc data.length b
  have hexpand : ∀ b₁ : Buffer, b₁.bytes = b.bytes → b₁.stale = b.stale →
      b₁.byteAt i = v ∨ i < b₁.len := by
    intro b₁ hb hs
    rw [Buffer.byteAt, Buffer.len, hb, hs]
    exact h
  unfold onPacketData
  rcases e : Buffer.expand alloc data.length b with ⟨rc | _, b₁⟩
  · rw [e] at hbytes hstale
    exact hexpand b₁ hbytes hstale
  · rw [e] at hbytes hstale
    by_cases hin : i < b₁.len + data.length
    · exact .inr (by rw [Buffer.len_push]; exact hin)
    · have hout : b₁.len + data.length ≤ i := Nat.not_lt.mp hin
      refine (hexpand b₁ hbytes hstale).imp (fun hv => ?_) fun hlt => by omega
      rw [Buffer.byteAt_push hout]
      exact hv

/-- A turn leaves the byte alone; one that completes a packet may have put
another in its place. -/
structure HoldsAfter (i : Nat) (v : UInt8) (t : Executed Buffer) : Prop where
  next : t.error = 0 → t.parser.deferred_end_callback = false ∧ Holds i v t.parser t.user
  last : 0 < t.error → t.user.byteAt i = v ∨ i < t.user.len

theorem turn_holds (hd : p.deferred_end_callback = false) (h : Holds i v p b) (x : UInt8)
    (rest : List UInt8) : HoldsAfter i v (turn (packetParserCallbacks alloc) p b x rest) := by
  have held : b.byteAt i = v ∨ i < b.len := h.imp_right And.right
  have hend : ∀ {b : Buffer} {q : PacketParser} {n : Nat}, q.deferred_end_callback = false →
      b.byteAt i = v ∨ i < b.len →
      HoldsAfter i v (endOfPayload (packetParserCallbacks alloc) q b n) := by
    intro b q n hq hb
    rw [endOfPayload_eq]
    constructor
    · intro hzero
      refine ⟨hq, hb.imp_right fun hin => ⟨?_, hin⟩⟩
      have hfragment : q.fragment = true := by
        by_contra hno
        simp [hno] at hzero
      simp [Awaits, hfragment]
    · intro _
      exact hb
  have hnext : ∀ {b : Buffer} {q : PacketParser} {n : Nat}, q.deferred_end_callback = false →
      Holds i v q b → HoldsAfter i v ⟨q, b, n, 0⟩ :=
    fun hq hb => ⟨fun _ => ⟨hq, hb⟩, fun hpos => absurd hpos (lt_irrefl (0 : Int))⟩
  unfold turn
  cases hs : p.state with
  | len0 | len1 =>
    refine hnext hd (h.imp_right fun hno => ⟨?_, hno.2⟩)
    simpa [Awaits, hs] using hno.1
  | len2 =>
    by_cases hfragment : p.fragment
    · simp only [hfragment, if_true]
      exact hnext hd (held.imp_right fun hin => ⟨by simp [Awaits], hin⟩)
    · simp only [hfragment]
      have hbyte : b.byteAt i = v := h.resolve_right fun hno => hno.1 (by simp [Awaits, hs, hd, hfragment])
      exact hnext hd (.inl hbyte)
  | seq =>
    by_cases hseq : x ≠ p.sequence_number
    · simp only [if_pos hseq]
      exact ⟨fun hzero => absurd hzero invalid_ne, fun hpos => absurd (show 0 < Code.invalidSequenceId.toInt from hpos) (by decide)⟩
    · simp only [if_neg hseq]
      by_cases hzero : p.bytes_remaining = 0
      · simp only [if_pos hzero]
        exact hend hd held
      · simp only [if_neg hzero]
        exact hnext hd (held.imp_right fun hin => ⟨by simp [Awaits], hin⟩)
  | payload =>
    have hafter := @onPacketData_holds alloc b i v held ((x :: rest).take p.bytes_remaining)
    have hneg := @onPacketData_neg alloc b ((x :: rest).take p.bytes_remaining)
    dsimp only
    by_cases hstop : ((packetParserCallbacks alloc).on_packet_data b
        ((x :: rest).take p.bytes_remaining)).1 = 0
    · rw [if_neg (not_not.mpr hstop)]
      by_cases hzero : p.bytes_remaining - ((x :: rest).take p.bytes_remaining).length = 0
      · rw [if_pos hzero]
        exact hend hd hafter
      · rw [if_neg hzero]
        exact hnext hd (hafter.imp_right fun hin => ⟨by simp [Awaits], hin⟩)
    · rw [if_pos hstop]
      exact ⟨fun hzero => absurd hzero hstop, fun hpos => absurd hpos (hneg hstop).not_gt⟩

theorem loop_holds (hd : p.deferred_end_callback = false) (h : Holds i v p b) (turns : Nat)
    (input : List UInt8) :
    HoldsAfter i v (loop (packetParserCallbacks alloc) turns p b input) := by
  have stay : ∀ {p : PacketParser} {b : Buffer}, p.deferred_end_callback = false → Holds i v p b →
      HoldsAfter i v (⟨p, b, 0, 0⟩ : Executed Buffer) :=
    fun hd h => ⟨fun _ => ⟨hd, h⟩, fun hpos => absurd hpos (lt_irrefl (0 : Int))⟩
  induction turns generalizing p b input with
  | zero => exact stay hd h
  | succ turns ih =>
    cases input with
    | nil => exact stay hd h
    | cons x rest =>
      have hturn := @turn_holds alloc p b i v hd h x rest
      rw [loop]
      by_cases hstop : (turn (packetParserCallbacks alloc) p b x rest).error ≠ 0
      · simp only [if_pos hstop]
        exact hturn
      · simp only [if_neg hstop]
        obtain ⟨hd', h'⟩ := hturn.next (not_not.mp hstop)
        have hrest := ih hd' h' ((x :: rest).drop
          (turn (packetParserCallbacks alloc) p b x rest).consumed)
        exact ⟨hrest.next, hrest.last⟩

theorem execute_holds (h : Holds i v p b) (input : List UInt8) :
    let t := execute (packetParserCallbacks alloc) p b input
    0 < t.error → t.user.byteAt i = v ∨ i < t.user.len := by
  unfold execute
  by_cases hd : p.deferred_end_callback
  · simp only [hd, if_true]
    exact fun _ => h.imp_right And.right
  · simp only [hd]
    exact (loop_holds (by simpa using hd) h _ input).last

/-- What the parser may do before it takes a byte. -/
def owed (p : PacketParser) : Nat :=
  (if p.deferred_end_callback then 2 else 0) + if p.state = .payload then 1 else 0

theorem owed_le (p : PacketParser) : p.owed ≤ 3 := by
  unfold owed
  split <;> split <;> decide

/-- A turn that does not fail takes a byte, or gets out of `S_PAYLOAD`. -/
theorem turn_spends {x : UInt8} {rest : List UInt8}
    (ok : 0 ≤ (turn (packetParserCallbacks alloc) p b x rest).error) :
    0 < (turn (packetParserCallbacks alloc) p b x rest).consumed ∨
      (turn (packetParserCallbacks alloc) p b x rest).parser.owed < p.owed := by
  unfold turn at ok ⊢
  cases hs : p.state with
  | len0 | len1 => exact .inl Nat.one_pos
  | len2 =>
    by_cases hfragment : p.fragment
    · simp only [hfragment, if_true]
      exact .inl Nat.one_pos
    · simp only [hfragment]
      exact .inl Nat.one_pos
  | seq =>
    simp only [hs] at ok ⊢
    by_cases hseq : x ≠ p.sequence_number
    · rw [if_pos hseq] at ok
      exact absurd (show 0 ≤ Code.invalidSequenceId.toInt from ok) (by decide)
    · rw [if_neg hseq]
      by_cases hzero : p.bytes_remaining = 0
      · rw [if_pos hzero, endOfPayload_eq]
        exact .inl Nat.one_pos
      · rw [if_neg hzero]
        exact .inl Nat.one_pos
  | payload =>
    simp only [hs] at ok ⊢
    have hneg := @onPacketData_neg alloc b ((x :: rest).take p.bytes_remaining)
    by_cases hstop : ((packetParserCallbacks alloc).on_packet_data b
        ((x :: rest).take p.bytes_remaining)).1 = 0
    · rw [if_neg (not_not.mpr hstop)]
      by_cases hpos : p.bytes_remaining = 0
      · rw [if_pos (by rw [hpos, Nat.zero_sub]), endOfPayload_eq]
        right
        simp [owed, hs]
      · left
        have hchunk : 0 < ((x :: rest).take p.bytes_remaining).length := by
          rw [List.length_take, List.length_cons]
          omega
        split
        · rw [endOfPayload_eq]
          exact hchunk
        · exact hchunk
    · rw [if_pos hstop] at ok
      exact absurd (hneg hstop) (not_lt.mpr ok)

theorem loop_spends {turns : Nat} {input : List UInt8}
    (ok : 0 ≤ (loop (packetParserCallbacks alloc) turns p b input).error) :
    let r := loop (packetParserCallbacks alloc) turns p b input
    4 * (input.length - r.consumed) + r.parser.owed ≤ 4 * input.length + p.owed ∧
      (0 < r.error → 4 * (input.length - r.consumed) + r.parser.owed < 4 * input.length + p.owed) := by
  induction turns generalizing p b input with
  | zero => exact ⟨Nat.le_refl _, fun hpos => absurd hpos (lt_irrefl (0 : Int))⟩
  | succ turns ih =>
    cases input with
    | nil => exact ⟨Nat.le_refl _, fun hpos => absurd hpos (lt_irrefl (0 : Int))⟩
    | cons x rest =>
      rw [loop] at ok ⊢
      simp only at ok ⊢
      have hturn := @turn_spends alloc p b x rest
      generalize turn (packetParserCallbacks alloc) p b x rest = t at ok hturn ⊢
      have howed := t.parser.owed_le
      have hlen : (x :: rest).length = rest.length + 1 := rfl
      by_cases hstop : t.error ≠ 0
      · rw [if_pos hstop] at ok ⊢
        have hspent := hturn ok
        omega
      · rw [if_neg hstop] at ok ⊢
        have hspent := hturn (not_not.mp hstop).ge
        have hrest := ih ok
        rw [List.length_drop] at hrest
        simp only at hrest ⊢
        omega

/-- A packet costs bytes, or what was owed. -/
theorem execute_spends {input : List UInt8}
    (ok : 0 ≤ (execute (packetParserCallbacks alloc) p b input).error) :
    let r := execute (packetParserCallbacks alloc) p b input
    4 * (input.length - r.consumed) + r.parser.owed ≤ 4 * input.length + p.owed ∧
      (0 < r.error → 4 * (input.length - r.consumed) + r.parser.owed < 4 * input.length + p.owed) := by
  by_cases hd : p.deferred_end_callback
  · have hstop : execute (packetParserCallbacks alloc) p b input =
        ⟨{ p with deferred_end_callback := false }, b, 0, 1⟩ := by
      rw [execute, if_pos hd]
      rfl
    have howed : owed { p with deferred_end_callback := false } < p.owed := by
      simp [owed, hd]
    rw [hstop]
    simp only [Nat.sub_zero]
    omega
  · unfold execute at ok ⊢
    rw [if_neg hd] at ok ⊢
    exact loop_spends ok

end PacketParser

namespace Conn

variable {alloc : Alloc} {c c' c₁ : Conn}

def spare (c : Conn) : Nat := 4 * c.pending.length + c.packetParser.owed

theorem execute_ok (h : execute alloc c = (.ok (), c')) :
    let t := PacketParser.execute (packetParserCallbacks alloc) c.packetParser c.packet_buffer c.unread
    0 < t.error ∧ c' = c.consume t := by
  unfold execute at h
  simp only at h ⊢
  split at h
  · cases h
  · split at h
    · cases h
      exact ⟨‹_›, rfl⟩
    · cases h

theorem readPacket_spends (h : readPacket alloc c = (.ok (), c')) : c'.spare < c.spare := by
  obtain ⟨_, c₁, hrefill, hexecute⟩ := bind_ok.mp h
  obtain ⟨hpending, hparser⟩ := refill_pending hrefill
  obtain ⟨hpos, rfl⟩ := execute_ok hexecute
  have hspent := (PacketParser.execute_spends (Int.le_of_lt hpos)).2 hpos
  rw [spare, spare, ← hpending, ← hparser, consume_pending, pending, List.length_append,
    List.length_append, List.length_drop]
  change 4 * (c₁.unread.length - _ + c₁.socket.incoming.length) + PacketParser.owed (Executed.parser _) < _
  omega

theorem refill_frame (c : Conn) : ∃ socket recv_buff recv_buff_pos,
    (refill c).2 = { c with socket, recv_buff, recv_buff_pos } := by
  rw [refill, get_bind]
  split
  · rcases hread : Sock.read defaultBufSize c.socket with ⟨rc | bytes, socket⟩
    · rw [bind_of_error (onSocket_read hread)]
      exact ⟨_, _, _, rfl⟩
    · rw [bind_of_ok (onSocket_read hread)]
      split
      · exact ⟨_, _, _, rfl⟩
      · exact ⟨_, _, _, rfl⟩
  · exact ⟨_, _, _, rfl⟩

theorem readPacket_holds {i : Nat} {v : UInt8} (h : c.packetParser.Holds i v c.packet_buffer)
    (ok : readPacket alloc c = (.ok (), c')) :
    c'.packet_buffer.byteAt i = v ∨ i < c'.packet_buffer.len := by
  obtain ⟨_, c₁, hrefill, hexecute⟩ := bind_ok.mp ok
  obtain ⟨socket, recv_buff, recv_buff_pos, hframe⟩ := refill_frame c
  rw [hrefill] at hframe
  subst hframe
  obtain ⟨hpos, rfl⟩ := execute_ok hexecute
  exact PacketParser.execute_holds h _ hpos

end Conn

end Trilogy
