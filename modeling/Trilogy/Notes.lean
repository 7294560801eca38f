import Trilogy.Receive
import Trilogy.Responses

/-! The functions that take a response to heart write to a few fields of the
connection, the status among them. They leave alone what packets are read with,
so the connection faces the same packets as before. -/
namespace Trilogy

open Lib Proc

namespace Conn

/-- What packets are read with. -/
structure SameWire (c c' : Conn) : Prop where
  socket : c'.socket = c.socket
  recv_buff : c'.recv_buff = c.recv_buff
  recv_buff_pos : c'.recv_buff_pos = c.recv_buff_pos
  packetParser : c'.packetParser = c.packetParser
  packet_buffer : c'.packet_buffer = c.packet_buffer

structure Noted (c c' : Conn) : Prop extends SameWire c c' where
  packet_buffer_written : c'.packet_buffer_written = c.packet_buffer_written
  parsed : c'.parsed = c.parsed
  capabilities : c'.capabilities = c.capabilities
  column_count : c'.column_count = c.column_count
  started_reading_rows : c'.started_reading_rows = c.started_reading_rows

instance : Std.Refl Noted := ⟨fun _ => ⟨⟨rfl, rfl, rfl, rfl, rfl⟩, rfl, rfl, rfl, rfl, rfl⟩⟩

instance : IsTrans Conn Noted where
  trans _ _ _ h h' :=
    ⟨⟨h'.socket.trans h.socket, h'.recv_buff.trans h.recv_buff,
      h'.recv_buff_pos.trans h.recv_buff_pos, h'.packetParser.trans h.packetParser,
      h'.packet_buffer.trans h.packet_buffer⟩,
      h'.packet_buffer_written.trans h.packet_buffer_written, h'.parsed.trans h.parsed,
      h'.capabilities.trans h.capabilities, h'.column_count.trans h.column_count,
      h'.started_reading_rows.trans h.started_reading_rows⟩

theorem Noted.refl (c : Conn) : Noted c c := Std.Refl.refl c

theorem Facing.sameWire {alloc : Alloc} {n : Nat} {c c' : Conn} {packets : List (List UInt8)}
    {rest : List UInt8} (h : Facing alloc n c packets rest) (same : SameWire c c') :
    Facing alloc n c' packets rest := by
  obtain ⟨hsocket, hbuff, hpos, hparser, hbuffer⟩ := same
  refine ⟨⟨by rw [hsocket]; exact h.ready.calm, by rw [hbuff, hpos]; exact h.ready.pos_le,
    by rw [hparser]; exact h.ready.steady, by rw [hbuffer]; exact h.ready.grow⟩,
    by rw [hparser]; exact h.boundary, by rw [hparser]; exact h.whole, ?_, h.fits⟩
  rw [hparser, ← h.pending, Conn.pending, Conn.pending, hsocket]
  simp only [unread, hbuff, hpos]

theorem noted_parsePacket {α : Type} (m : Proc Code Reader α) : Keeps Noted (parsePacket m) :=
  Noted.refl

theorem noted_readOkPacket : Keeps Noted readOkPacket :=
  .bind .get fun _ => .bind (noted_parsePacket _) fun _ =>
    .bind (.when fun _ => .modify fun _ => { Noted.refl _ with }) fun _ =>
    .bind (.modify fun _ => { Noted.refl _ with }) fun _ =>
    .when fun _ => .modify fun _ => { Noted.refl _ with }

theorem noted_readErrPacket {α : Type} : Keeps Noted (readErrPacket : Proc Code Conn α) :=
  .bind .get fun _ => .bind (noted_parsePacket _) fun _ =>
    .bind (.modify fun _ => { Noted.refl _ with }) fun _ => .throw _

theorem noted_readEofPacket : Keeps Noted readEofPacket :=
  .bind .get fun _ => .ite (fun _ => noted_readOkPacket) fun _ =>
    .bind .get fun _ => .bind (noted_parsePacket _) fun _ =>
    .when fun _ => .modify fun _ => { Noted.refl _ with }

theorem noted_handleGenericResponse : Keeps Noted handleGenericResponse :=
  .bind .get fun _ => .ite (fun _ => noted_readOkPacket) fun _ =>
    .ite (fun _ => noted_readErrPacket) fun _ => .throw _

/-- The status flags and the warnings. -/
def standing (c : Conn) : UInt16 × UInt16 := (c.server_status, c.warning_count)

/-- What they are once a packet has reported these. -/
def noting (c : Conn) (status warnings : UInt16) : UInt16 × UInt16 :=
  if has c.capabilities Capabilities.protocol41 then (status, warnings) else c.standing

variable {c : Conn}

theorem readOkPacket_ok {packet : OkPacket}
    (h : parse (parseOkPacket c.capabilities) c.packet_buffer.bytes = .ok packet) :
    ∃ c', readOkPacket c = (.ok (), c') ∧ Noted c c' ∧
      c'.standing = c.noting packet.status_flags packet.warning_count := by
  have hnoted := noted_readOkPacket c
  have hparse : parsePacket (parseOkPacket c.capabilities) c = (.ok packet, c) := by
    rw [parsePacket, h]
  rw [readOkPacket, Proc.get_bind, Proc.bind_of_ok hparse] at hnoted ⊢
  have hgtid : ∀ d : Conn, ∃ d', (Proc.when
      (packet.last_gtid.length > 0 ∧ packet.last_gtid.length < maxLastGtidLen)
      (modify fun conn => { conn with last_gtid := packet.last_gtid }) : Proc Code Conn Unit) d =
        (.ok (), d') ∧ d'.standing = d.standing := by
    intro d
    rw [Proc.when]
    split
    · exact ⟨_, rfl, rfl⟩
    · exact ⟨_, rfl, rfl⟩
  unfold noting
  by_cases h41 : has c.capabilities Capabilities.protocol41
  · rw [Proc.when_pos h41, Proc.modify_bind, Proc.modify_bind] at hnoted ⊢
    obtain ⟨d', hd, hstanding⟩ := hgtid _
    rw [hd] at hnoted ⊢
    exact ⟨d', rfl, hnoted, by rw [hstanding, if_pos h41]; rfl⟩
  · rw [Proc.when_neg h41, pure_bind, Proc.modify_bind] at hnoted ⊢
    obtain ⟨d', hd, hstanding⟩ := hgtid _
    rw [hd] at hnoted ⊢
    exact ⟨d', rfl, hnoted, by rw [hstanding, if_neg h41]; rfl⟩

theorem readOkPacket_error {rc : Code}
    (h : parse (parseOkPacket c.capabilities) c.packet_buffer.bytes = .error rc) :
    readOkPacket c = (.error rc, c) := by
  rw [readOkPacket, Proc.get_bind, Proc.bind_of_error]
  rw [parsePacket, h]

theorem readDeprecatedEofPacket_ok {packet : EofPacket}
    (h : parse (parseEofPacket c.capabilities) c.packet_buffer.bytes = .ok packet) :
    ∃ c', readDeprecatedEofPacket c = (.ok (), c') ∧ Noted c c' ∧
      c'.standing = c.noting packet.status_flags packet.warning_count := by
  have hparse : parsePacket (parseEofPacket c.capabilities) c = (.ok packet, c) := by
    rw [parsePacket, h]
  rw [readDeprecatedEofPacket, Proc.get_bind, Proc.bind_of_ok hparse]
  unfold noting
  by_cases h41 : has c.capabilities Capabilities.protocol41
  · rw [Proc.when_pos h41, if_pos h41]
    exact ⟨_, rfl, { Noted.refl c with }, rfl⟩
  · rw [Proc.when_neg h41, if_neg h41]
    exact ⟨_, rfl, Noted.refl c, rfl⟩

theorem readErrPacket_err {α : Type} {packet : ErrPacket}
    (h : parse (parseErrPacket c.capabilities) c.packet_buffer.bytes = .ok packet) :
    ∃ c', (readErrPacket : Proc Code Conn α) c = (.error .err, c') ∧ Noted c c' ∧
      c'.standing = c.standing := by
  have hparse : parsePacket (parseErrPacket c.capabilities) c = (.ok packet, c) := by
    rw [parsePacket, h]
  rw [readErrPacket, Proc.get_bind, Proc.bind_of_ok hparse]
  exact ⟨_, rfl, { Noted.refl c with }, rfl⟩

/-- The column EOF, or the end of the rows: with `DEPRECATE_EOF` an OK packet
whose header is 0xfe. -/
def terminatorBytes (capabilities : UInt32) (o : OkReply) : List UInt8 :=
  if has capabilities Capabilities.deprecateEof then o.bytes Packet.eof capabilities
  else eofBytes capabilities o.warnings o.status

/-- A terminator that a client tells from a row. -/
def Terminates (capabilities : UInt32) (o : OkReply) : Prop :=
  has capabilities Capabilities.deprecateEof →
    o.Sendable capabilities ∧ (o.bytes Packet.eof capabilities).length < 9

theorem Terminates.length {capabilities : UInt32} {o : OkReply} (h : Terminates capabilities o) :
    (terminatorBytes capabilities o).length < 9 := by
  unfold terminatorBytes
  split
  · exact (h ‹_›).2
  · exact length_eofBytes _ _ _

theorem terminatorBytes_head (capabilities : UInt32) (o : OkReply) :
    ∃ bs, terminatorBytes capabilities o = Packet.eof :: bs := by
  unfold terminatorBytes
  split
  · exact ⟨_, rfl⟩
  · exact ⟨_, rfl⟩

theorem readEofPacket_terminator {o : OkReply} (h : Terminates c.capabilities o)
    (hbytes : c.packet_buffer.bytes = terminatorBytes c.capabilities o) :
    ∃ c', readEofPacket c = (.ok (), c') ∧ Noted c c' ∧
      c'.standing = c.noting o.status o.warnings := by
  rw [readEofPacket, Proc.get_bind]
  unfold terminatorBytes at hbytes
  by_cases de : has c.capabilities Capabilities.deprecateEof
  · obtain ⟨sendable, short⟩ := h de
    rw [if_pos de] at hbytes ⊢
    have hparse := OkReply.parse_bytes Packet.eof sendable fun track =>
      OkReply.not_changed_of_short sendable track short
    rw [← hbytes] at hparse
    obtain ⟨c', hread, hnoted, hstanding⟩ := readOkPacket_ok hparse
    refine ⟨c', hread, hnoted, hstanding.trans ?_⟩
    obtain ⟨hstatus, hwarnings, -⟩ := o.packet_head c.capabilities
    rw [hstatus, hwarnings]
    unfold noting OkReply.head
    split <;> rfl
  · rw [if_neg de] at hbytes ⊢
    have hparse := parse_eofPacket c.capabilities o.warnings o.status
    rw [← hbytes] at hparse
    obtain ⟨c', hread, hnoted, hstanding⟩ := readDeprecatedEofPacket_ok hparse
    refine ⟨c', hread, hnoted, hstanding.trans ?_⟩
    unfold noting
    split <;> rfl

end Conn

end Trilogy
