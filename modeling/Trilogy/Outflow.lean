import Trilogy.AuthSwitch
import Trilogy.Building
import Trilogy.Sending

namespace Trilogy

open Lib Proc

def RawWrite.Calm : RawWrite → Prop
  | .wrote _ => True
  | .failed e => Sock.rawWriteError e = .again

def TlsWrite.Calm : TlsWrite → Prop
  | .wrote _ => True
  | .failed e => Sock.sslIoReturn e = .again

/-- Whether at least one byte is taken. -/
def RawWrite.takes : RawWrite → Bool
  | .wrote n => 0 < n
  | .failed _ => false

def TlsWrite.takes : TlsWrite → Bool
  | .wrote n => 0 < n
  | .failed _ => false

namespace Sock

/-- No write fails for good. -/
def Takes (sock : Sock) : Prop :=
  match sock.io with
  | .raw => ∀ write ∈ sock.net.raw_writes, write.Calm
  | .ssl => ∀ write ∈ sock.net.tls_writes, write.Calm
  | .shutdown => False

/-- So many bytes will be taken, at least. -/
def capacity (sock : Sock) : Nat :=
  match sock.io with
  | .raw => sock.net.raw_writes.countP RawWrite.takes
  | .ssl => sock.net.tls_writes.countP TlsWrite.takes
  | .shutdown => 0

/-- The bytes that were sent. -/
def sentBytes (sock : Sock) : List UInt8 := sock.sent.flatMap Prod.snd

/-- One write: some of the bytes were taken, or it asks to be called again. -/
inductive Took (data : List UInt8) (sock : Sock) : Except Code Nat × Sock → Prop
  | some {n sock'} (le : n ≤ data.length) (takes : Takes sock')
      (sent : sock'.sentBytes = sock.sentBytes ++ data.take n)
      (capacity : sock.capacity ≤ sock'.capacity + n) (less : sock'.writes < sock.writes) :
      Took data sock (.ok n, sock')
  | again {sock'} (takes : Takes sock') (sent : sock'.sentBytes = sock.sentBytes)
      (capacity : sock.capacity ≤ sock'.capacity) (less : sock'.writes < sock.writes) :
      Took data sock (.error .again, sock')

theorem write_took {data : List UInt8} {sock : Sock} (takes : sock.Takes) (nonempty : data ≠ [])
    (room : 0 < sock.capacity) : Took data sock (write data data.length sock) := by
  have hlen := List.length_pos_of_ne_nil nonempty
  cases hio : sock.io with
  | raw =>
    simp only [Takes, capacity, hio] at takes room
    simp only [write, hio, rawWrite]
    split
    · rename_i h
      rw [h] at room
      exact absurd room (Nat.lt_irrefl 0)
    · rename_i e more h
      rw [h] at takes
      obtain ⟨he, hmore⟩ := List.forall_mem_cons.mp takes
      rw [show rawWriteError e = .again from he]
      exact .again (by simpa [Takes, hio] using hmore) rfl
        (by simp [capacity, hio, h, RawWrite.takes]) (by simp [writes, hio, h])
    · rename_i n more h
      rw [h] at takes
      obtain ⟨-, hmore⟩ := List.forall_mem_cons.mp takes
      refine .some (Nat.min_le_right _ _) (by simpa [Takes, hio] using hmore) ?_ ?_
        (by simp [writes, hio, h])
      · simp [sentBytes]
      · simp only [capacity, hio, h, List.countP_cons, RawWrite.takes]
        by_cases hpos : 0 < n
        · simp only [hpos, decide_true, if_true]
          omega
        · simp only [hpos, decide_false, Bool.false_eq_true, if_false]
          omega
  | ssl =>
    simp only [Takes, capacity, hio] at takes room
    simp only [write, hio, sslWrite]
    split
    · rename_i h
      rw [h] at room
      exact absurd room (Nat.lt_irrefl 0)
    · rename_i e more h
      rw [h] at takes
      obtain ⟨he, hmore⟩ := List.forall_mem_cons.mp takes
      rw [show sslIoReturn e = .again from he]
      exact .again (by simpa [Takes, hio] using hmore) rfl
        (by simp [capacity, hio, h, TlsWrite.takes]) (by simp [writes, hio, h])
    · rename_i n more h
      rw [h] at takes
      obtain ⟨-, hmore⟩ := List.forall_mem_cons.mp takes
      refine .some (Nat.min_le_right _ _) (by simpa [Takes, hio] using hmore) ?_ ?_
        (by simp [writes, hio, h])
      · simp [sentBytes]
      · simp only [capacity, hio, h, List.countP_cons, TlsWrite.takes]
        by_cases hpos : 0 < n
        · simp only [hpos, decide_true, if_true]
          omega
        · simp only [hpos, decide_false, Bool.false_eq_true, if_false]
          omega
  | shutdown => simp only [Takes, hio] at takes

end Sock

namespace Conn

variable {alloc : Alloc} {c c' : Conn}

/-- The rest of the packet goes out. -/
theorem flushWrites_returns (takes : c.socket.Takes)
    (left : c.packet_buffer_written < c.packet_buffer.len)
    (room : c.packet_buffer.len ≤ c.packet_buffer_written + c.socket.capacity) :
    ∃ socket, Returns .again flushWrites c (.ok ())
        { c with socket, packet_buffer_written := c.packet_buffer.len } ∧ socket.Takes ∧
      socket.sentBytes = c.socket.sentBytes ++ c.packet_buffer.bytes.drop c.packet_buffer_written ∧
      c.socket.capacity + c.packet_buffer_written ≤ socket.capacity + c.packet_buffer.len := by
  generalize hturns : c.socket.writes = turns
  induction turns using Nat.strong_induction_on generalizing c with
  | _ turns ih =>
    have hoffer : c.packet_buffer.bytes.drop c.packet_buffer_written ≠ [] := by
      rw [ne_eq, List.drop_eq_nil_iff]
      exact Nat.not_le.mpr left
    have htook := Sock.write_took takes hoffer (by omega)
    have hwritten := write_unwritten (Nat.le_of_lt left)
    generalize hwrite : Sock.write (c.packet_buffer.bytes.drop c.packet_buffer_written)
      (c.packet_buffer.bytes.drop c.packet_buffer_written).length c.socket = res at htook
    cases htook with
    | @again socket takes' hsent hcapacity less =>
      have hflush : flushWrites c = (.error .again, { c with socket }) := by
        rw [flushWrites, get_bind, bind_of_error (by rw [hwritten, onSocket, zoom_apply, hwrite])]
      obtain ⟨socket', hreturns, h⟩ := @ih _ (hturns ▸ less) { c with socket } takes' left
        (by dsimp only; omega) rfl
      refine ⟨socket', .again hflush hreturns, h.1, by rw [h.2.1, hsent], ?_⟩
      have := h.2.2
      dsimp only at this
      omega
    | @some n socket le takes' hsent hcapacity less =>
      rw [List.length_drop] at le
      have hflush : flushWrites c =
          (if c.packet_buffer_written + n < c.packet_buffer.len then .error .again else .ok (),
            { c with socket, packet_buffer_written := c.packet_buffer_written + n }) := by
        rw [flushWrites, get_bind, bind_of_ok (by rw [hwritten, onSocket, zoom_apply, hwrite]), modify_bind,
          get_bind]
        split <;> rfl
      by_cases hmore : c.packet_buffer_written + n < c.packet_buffer.len
      · rw [if_pos hmore] at hflush
        obtain ⟨socket', hreturns, h⟩ := @ih _ (hturns ▸ less)
          { c with socket, packet_buffer_written := c.packet_buffer_written + n } takes' hmore
          (by dsimp only; omega) rfl
        refine ⟨socket', .again hflush hreturns, h.1, ?_, ?_⟩
        · rw [h.2.1, hsent, List.append_assoc, ← List.drop_drop, List.take_append_drop]
        · have := h.2.2
          dsimp only at this
          omega
      · rw [if_neg hmore] at hflush
        have hall : c.packet_buffer_written + n = c.packet_buffer.len := by
          unfold Buffer.len at *
          omega
        rw [hall] at hflush
        refine ⟨socket, .stop hflush (by simp), takes', ?_, by omega⟩
        rw [hsent, List.take_of_length_le]
        rw [List.length_drop]
        unfold Buffer.len at *
        omega

/-- What `trilogy_builder_set_max_packet_length` is called with, if it is called. -/
def payloadLimit (c : Conn) : Nat :=
  if c.socket.opts.max_allowed_packet > 0 then c.socket.opts.max_allowed_packet else sizeMax

/-- A payload of `n` bytes passes the limit, and can be addressed with its headers. -/
structure Passes (c : Conn) (n : Nat) : Prop where
  below : n < c.payloadLimit
  size : c.socket.opts.max_allowed_packet ≤ sizeMax
  memory : 5 * n + 4 ≤ 2 ^ 62

theorem beginCommandPhase_room (always : ∀ c, alloc c = true) {n : Nat} (h : Passes c n)
    (seq : UInt8) : ∃ builder c₁, beginCommandPhase alloc seq c = (.ok builder, c₁) ∧
      Builder.Room builder n := by
  obtain ⟨b, hinit, -⟩ := Builder.writeHeader_succeeds always (b :=
    { buffer := c.packet_buffer.reset
      header_offset := 0
      packet_length := 0
      packet_max_length := sizeMax
      fragment_length := 0
      seq := seq }) (show 0 + 4 ≤ 2 ^ 63 by decide)
  have hinit : Builder.init alloc c.packet_buffer seq = (.ok (), b) := hinit
  have hbegin : ∃ builder c₁, beginCommandPhase alloc seq c = (.ok builder, c₁) := by
    unfold beginCommandPhase
    rw [hinit]
    exact ⟨_, _, rfl⟩
  obtain ⟨builder, c₁, hbegin⟩ := hbegin
  obtain ⟨-, -, -, hmax⟩ := beginCommandPhase_fresh hbegin
  have hmax : builder.packet_max_length = c.payloadLimit := hmax
  refine ⟨builder, c₁, hbegin, ?_, ?_, h.memory⟩
  · rw [hmax]
    exact h.below
  · rw [hmax, payloadLimit]
    split
    · exact h.size
    · exact Nat.le_refl _

/-- The payload has gone out in frames from `s` on, and `n` is expected in answer. -/
structure Requested (s : UInt8) (payload : List UInt8) (n : UInt8) (c c' : Conn) : Prop where
  takes : c'.socket.Takes
  sent : c'.socket.sentBytes = c.socket.sentBytes ++ frames s payload
  capacity : c.socket.capacity ≤ c'.socket.capacity + (frames s payload).length
  onlyWrite : Sock.OnlyWrite c.socket c'.socket
  parser : c'.packetParser = { c.packetParser with sequence_number := n }
  untouched : Untouched c c'
  unread : c'.unread = c.unread
  pos_le : c'.recv_buff_pos ≤ c'.recv_buff.length ↔ c.recv_buff_pos ≤ c.recv_buff.length

theorem frames_ne_nil (s : UInt8) (p : List UInt8) : frames s p ≠ [] := by
  rw [frames]
  split <;> simp [header]

section

variable {s n : UInt8} {payload : List UInt8} {c₀ : Conn} {send : Proc Code Conn Unit}

theorem beginWrite_flushed (hsend : send c = beginWrite c₀) (takes : c₀.socket.Takes)
    (nonempty : c₀.packet_buffer.bytes ≠ [])
    (room : c₀.packet_buffer.len ≤ c₀.socket.capacity) :
    ∃ socket, Flushed send c (.ok ())
        { c₀ with socket, packet_buffer_written := c₀.packet_buffer.len } ∧ socket.Takes ∧
      socket.sentBytes = c₀.socket.sentBytes ++ c₀.packet_buffer.bytes ∧
      c₀.socket.capacity ≤ socket.capacity + c₀.packet_buffer.len := by
  obtain ⟨socket, hreturns, htakes, hsent, hcapacity⟩ :=
    @flushWrites_returns { c₀ with packet_buffer_written := 0 } takes
      (List.length_pos_of_ne_nil nonempty) (by dsimp only; omega)
  have hflush : send c = flushWrites { c₀ with packet_buffer_written := 0 } := hsend
  refine ⟨socket, ?_, htakes, hsent, hcapacity⟩
  cases hreturns with
  | stop e hr => exact .atOnce (hflush.trans e) hr
  | again e hrest => exact .later (hflush.trans e) hrest

theorem Flushed.onlyWrite {r : Except Code Unit} (offers : Offers send)
    (h : Flushed send c r c') : Sock.OnlyWrite c.socket c'.socket := by
  have hkeeps := offers.keeps c
  cases h with
  | atOnce e _ =>
    rw [e] at hkeeps
    exact hkeeps
  | later e hreturns =>
    rw [e] at hkeeps
    exact IsTrans.trans _ _ _ hkeeps (hreturns.keeps offers_flushWrites.keeps)

/-- The common part of the functions that send; `n` is what they leave the parser
to expect. -/
theorem command_requested (always : ∀ c, alloc c = true) {m : Proc Code Builder Unit}
    (finalizes : Builder.Finalizes m payload) (completes : Builder.Completes m payload)
    (passes : c.Passes payload.length) (takes : c.socket.Takes)
    (room : (frames s payload).length ≤ c.socket.capacity)
    (offers : Offers send)
    (hsend : ∀ builder builder' c₁, beginCommandPhase alloc s c = (.ok builder, c₁) →
      m builder = (.ok (), builder') →
      builder'.seq = s + UInt8.ofNat (extraFragments payload.length) + 1 →
      send c = beginWrite { c with
        packet_buffer := builder'.buffer
        packetParser := { c.packetParser with sequence_number := n } }) :
    ∃ c', Flushed send c (.ok ()) c' ∧ Requested s payload n c c' := by
  obtain ⟨builder, c₁, hbegin, hroom⟩ := beginCommandPhase_room always passes s
  obtain ⟨hbuilding, -⟩ := beginCommandPhase_ok hbegin
  obtain ⟨builder', hbuild⟩ := completes hbuilding (by simpa using hroom)
  obtain ⟨hbytes, hseq⟩ := finalizes hbuilding hbuild
  rw [List.nil_append] at hbytes hseq
  have hwrite := hsend builder builder' c₁ hbegin hbuild hseq
  obtain ⟨socket, hflushed, htakes, hsent, hcapacity⟩ := beginWrite_flushed hwrite takes
    (by dsimp only; rw [hbytes]; exact frames_ne_nil s payload)
    (by dsimp only [Buffer.len]; rw [hbytes]; exact room)
  refine ⟨_, hflushed, htakes, ?_, ?_, ?_, rfl, ⟨rfl, rfl, rfl, rfl, rfl⟩, rfl, Iff.rfl⟩
  · rw [hsent, hbytes]
  · dsimp only [Buffer.len] at hcapacity
    rwa [hbytes] at hcapacity
  · exact hflushed.onlyWrite offers

theorem sendPacket_requested (always : ∀ c, alloc c = true) {m : Proc Code Builder Unit}
    (finalizes : Builder.Finalizes m payload) (completes : Builder.Completes m payload)
    (offers : Offers (sendPacket alloc s m)) (passes : c.Passes payload.length)
    (takes : c.socket.Takes) (room : (frames s payload).length ≤ c.socket.capacity) :
    ∃ c', Flushed (sendPacket alloc s m) c (.ok ()) c' ∧ Requested s payload (s + 1) c c' := by
  apply command_requested always finalizes completes passes takes room offers
  intro builder builder' c₁ hbegin hbuild _
  obtain ⟨-, rfl⟩ := beginCommandPhase_ok hbegin
  rw [sendPacket, bind_of_ok hbegin, bind_of_ok (build_of_ok hbuild _)]

theorem sendPacketInSequence_requested (always : ∀ c, alloc c = true) {m : Proc Code Builder Unit}
    (finalizes : Builder.Finalizes m payload) (completes : Builder.Completes m payload)
    (offers : Offers (sendPacketInSequence alloc m)) (passes : c.Passes payload.length)
    (takes : c.socket.Takes) (room : (frames 0 payload).length ≤ c.socket.capacity) :
    ∃ c', Flushed (sendPacketInSequence alloc m) c (.ok ()) c' ∧
      Requested 0 payload (UInt8.ofNat (extraFragments payload.length) + 1) c c' := by
  apply command_requested always finalizes completes passes takes room offers
  intro builder builder' c₁ hbegin hbuild hseq
  obtain ⟨-, rfl⟩ := beginCommandPhase_ok hbegin
  rw [UInt8.zero_add] at hseq
  rw [sendPacketInSequence, bind_of_ok hbegin, bind_of_ok (build_of_ok hbuild _), modify_bind, hseq]

end

/-- Nothing is under way: these bytes are to come, and no read or write fails. -/
structure Resting (c : Conn) (bytes : List UInt8) : Prop where
  calm : c.socket.Calm
  takes : c.socket.Takes
  pos_le : c.recv_buff_pos ≤ c.recv_buff.length
  steady : PacketParser.Steady c.packetParser
  boundary : c.packetParser.state = .len0
  whole : c.packetParser.fragment = false
  pending : c.pending = bytes

/-- The longest packet that a buffer can be grown for. -/
def longestPacket : Nat := 2 ^ 63

/-- The answer to a request is what there is to read. -/
theorem Resting.requested (always : ∀ c, alloc c = true) {s n : UInt8} {payload rest : List UInt8}
    {packets : List (List UInt8)} (h : Resting c (stream n packets ++ rest))
    (requested : Requested s payload n c c') (fits : ∀ p ∈ packets, p.length ≤ longestPacket) :
    Facing alloc longestPacket c' packets rest := by
  obtain ⟨raw_writes, tls_writes, hnet⟩ := requested.onlyWrite.net
  have hio := requested.onlyWrite.io
  have hparser := requested.parser
  have hincoming : c'.socket.incoming = c.socket.incoming := by
    rw [Sock.incoming, Sock.incoming, hio, hnet]
  refine ⟨⟨?_, requested.pos_le.mpr h.pos_le, ?_, Buffer.grows_of_alloc always _ (Nat.le_refl _)⟩,
    ?_, ?_, ?_, fits⟩
  · have hcalm := h.calm
    rw [Sock.Calm] at hcalm ⊢
    rw [hio, hnet]
    exact hcalm
  · rw [hparser]
    exact ⟨h.steady.1, h.steady.2⟩
  · rw [hparser]
    exact h.boundary
  · rw [hparser]
    exact h.whole
  · rw [Conn.pending, requested.unread, hincoming, hparser]
    exact h.pending

end Conn

end Trilogy
