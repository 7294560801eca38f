import Trilogy.Faults
import Trilogy.Rows

/-! A reply is parsed into a record, and the fields of the connection are written
from there, so nothing is written before all of the packet was read and found
in order. Nothing that could fail comes after. -/
namespace Trilogy

open Lib Proc

namespace Conn

/-- The fields that replies are there for. -/
structure Unmoved (c c' : Conn) : Prop where
  affected_rows : c'.affected_rows = c.affected_rows
  last_insert_id : c'.last_insert_id = c.last_insert_id
  warning_count : c'.warning_count = c.warning_count
  server_status : c'.server_status = c.server_status
  capabilities : c'.capabilities = c.capabilities
  last_gtid : c'.last_gtid = c.last_gtid
  error_code : c'.error_code = c.error_code
  error_message : c'.error_message = c.error_message
  column_count : c'.column_count = c.column_count
  started_reading_rows : c'.started_reading_rows = c.started_reading_rows

/-- No byte was read in between, and the packet is where it was. -/
structure NothingRead (c c' : Conn) : Prop where
  recv_buff : c'.recv_buff = c.recv_buff
  recv_buff_pos : c'.recv_buff_pos = c.recv_buff_pos
  packetParser : c'.packetParser = c.packetParser
  packet_buffer : c'.packet_buffer = c.packet_buffer
  parsed : c'.parsed = c.parsed

structure Held (c c' : Conn) : Prop extends Unmoved c c', NothingRead c c'

instance : Std.Refl Held :=
  ⟨fun _ => ⟨⟨rfl, rfl, rfl, rfl, rfl, rfl, rfl, rfl, rfl, rfl⟩, ⟨rfl, rfl, rfl, rfl, rfl⟩⟩⟩

instance : IsTrans Conn Held where
  trans _ _ _ h h' :=
    ⟨⟨h'.affected_rows.trans h.affected_rows, h'.last_insert_id.trans h.last_insert_id,
      h'.warning_count.trans h.warning_count, h'.server_status.trans h.server_status,
      h'.capabilities.trans h.capabilities, h'.last_gtid.trans h.last_gtid,
      h'.error_code.trans h.error_code, h'.error_message.trans h.error_message,
      h'.column_count.trans h.column_count,
      h'.started_reading_rows.trans h.started_reading_rows⟩,
      ⟨h'.recv_buff.trans h.recv_buff, h'.recv_buff_pos.trans h.recv_buff_pos,
        h'.packetParser.trans h.packetParser, h'.packet_buffer.trans h.packet_buffer,
        h'.parsed.trans h.parsed⟩⟩

variable {alloc : Alloc} {digests : Digests} {c c' : Conn}

theorem held_parsePacket {α : Type} (m : Proc Code Reader α) : Keeps Held (parsePacket m) :=
  fun c => Std.Refl.refl c

/-- A packet is parsed as a whole before anything is done with what is in it. -/
theorem spares_parsed {α β : Type} {m : Proc Code Reader α} {f : α → Proc Code Conn β}
    (hf : ∀ a, Fails (fun rc => ¬ ParseError rc) (f a)) :
    Spares ParseError Held (parsePacket m >>= f) :=
  .before (.of_keeps (held_parsePacket m)) hf

theorem held_authClearPassword : Keeps Held authClearPassword :=
  .modify fun c => { (Std.Refl.refl c : Held c c) with }

theorem spares_readOkPacket : Spares ParseError Held readOkPacket := by
  refine .after .get fun conn => spares_parsed fun packet => ?_
  refine .bind (.ite (fun _ => .modify _) fun _ => .pure _) fun _ => .bind (.modify _) fun _ => ?_
  exact .ite (fun _ => .modify _) fun _ => .pure _

theorem spares_readErrPacket {α : Type} :
    Spares ParseError Held (readErrPacket : Proc Code Conn α) :=
  .after .get fun _ => spares_parsed fun _ =>
    .bind (.modify _) fun _ => .throw (by decide)

theorem spares_readEofPacket : Spares ParseError Held readEofPacket := by
  refine .after .get fun conn => .ite (fun _ => spares_readOkPacket) fun _ => ?_
  refine .after .get fun conn => spares_parsed fun packet => ?_
  exact .ite (fun _ => .modify _) fun _ => .pure _

theorem spares_handleGenericResponse : Spares ParseError Held handleGenericResponse :=
  .after .get fun _ => .ite (fun _ => spares_readOkPacket) fun _ =>
    .ite (fun _ => spares_readErrPacket) fun _ => .throw _

theorem spares_readAuthSwitchPacket (packet : AuthSwitchRequestPacket) (handshake : Handshake) :
    Spares ParseError Held (readAuthSwitchPacket packet handshake) :=
  .after .get fun _ => .after (held_parsePacket _) fun _ => .ite (fun _ => .throw _) fun _ => .pure _

/-- The answer to a query or to the execution of a statement; `note` is what they write. -/
theorem spares_resultReply (note : ResultPacket → Conn → Conn) : Spares ParseError Held (do
    let conn ← get
    if conn.currentPacketType = Packet.ok then do
      readOkPacket
      pure none
    else if conn.currentPacketType = Packet.err then readErrPacket
    else do
      let result_packet ← parsePacket parseResultPacket
      modify (note result_packet)
      pure (some result_packet.column_count) : Proc Code Conn (Option UInt64)) :=
  .after .get fun _ => .ite (fun _ => .before spares_readOkPacket fun _ => .pure _) fun _ =>
    .ite (fun _ => spares_readErrPacket) fun _ =>
    spares_parsed fun _ => .bind (.modify _) fun _ => .pure _

theorem spares_rowReply {α : Type} (row : UInt64 → Proc Code Reader α) :
    Spares ParseError Held (rowReply row) :=
  .after .get fun _ => .ite
    (fun _ => .before spares_readEofPacket fun _ => .throw (by decide)) fun _ =>
    .ite (fun _ => spares_readErrPacket) fun _ => .of_keeps (held_parsePacket _)

/-- A parse error comes from the packet that was read, not from reading it. -/
theorem readPacket_parsed {α : Type} {f : Unit → Proc Code Conn α} {rc : Code}
    (malformed : ParseError rc) (h : (readPacket alloc >>= f) c = (.error rc, c')) :
    ∃ c₁, readPacket alloc c = (.ok (), c₁) ∧ f () c₁ = (.error rc, c') := by
  obtain h | ⟨_, c₁, hread, h⟩ := bind_error.mp h
  · obtain rfl | rfl | rfl | rfl | rfl | rfl := readPacket_fault h <;>
      exact absurd malformed (by decide)
  · exact ⟨c₁, hread, h⟩

end Conn

open Conn

/-- The calls that begin by reading a packet that they look at. -/
def Call.BeginsReading (c : Conn) : Call → Prop
  | closeRecv => False
  | readRow => c.started_reading_rows = false ∧ has c.capabilities Capabilities.deprecateEof = false
  | drainResults => c.started_reading_rows = false
  | call => call.Receives

/-- In the course of the call from `c` a packet is delivered that the call looks at,
and this is the connection then. -/
inductive Call.Delivered (alloc : Alloc) (c : Conn) : Call → Conn → Prop
  | first {call c₁} (begins : call.BeginsReading c) (h : readPacket alloc c = (.ok (), c₁)) :
      Delivered alloc c call c₁
  | row {c₁ c₂} (begun : beginRows alloc c = (.ok (), c₁))
      (h : readPacket alloc c₁ = (.ok (), c₂)) : Delivered alloc c .readRow c₂
  /-- what `trilogy_auth_recv` waits for after the fast or the full authentication -/
  | answer {packet handshake c₁ c₂ c₃ turns} (h : readPacket alloc c = (.ok (), c₁))
      (more : c₁.currentPacketType = Packet.authMoreData)
      (asked : FastAuth alloc c₁ c₂)
      (awaited : awaitPacket alloc turns c₂ = (.ok (), c₃)) :
      Delivered alloc c (.authRecv packet handshake) c₃
  /-- a packet that comes instead of the end of the stream -/
  | quit {c₁} (h : readPacket alloc (onSocket Sock.shutdown c).2 = (.ok (), c₁)) :
      Delivered alloc c .closeRecv c₁

namespace Conn

variable {alloc : Alloc} {digests : Digests} {c c' : Conn} {rc : Code}

/-- What a call that reads one packet does with it. -/
theorem delivered_first {α : Type} {call : Call} {reply : Unit → Proc Code Conn α}
    (begins : call.BeginsReading c) (hreply : Spares ParseError Held (reply ()))
    (malformed : ParseError rc) (h : (readPacket alloc >>= reply) c = (.error rc, c')) :
    ∃ c₁, call.Delivered alloc c c₁ ∧ Held c₁ c' := by
  obtain ⟨c₁, hread, h⟩ := readPacket_parsed malformed h
  exact ⟨c₁, .first begins hread, hreply h malformed⟩

theorem spares_clearedResponse : Spares ParseError Held (do
    authClearPassword
    handleGenericResponse
    pure none : Proc Code Conn (Option Handshake)) :=
  .after held_authClearPassword fun _ => .before spares_handleGenericResponse fun _ => .pure _

theorem delivered_authRecv {packet : AuthSwitchRequestPacket} {handshake : Handshake}
    (malformed : ParseError rc) (h : authRecv alloc packet handshake c = (.error rc, c')) :
    ∃ c₁, (Call.authRecv packet handshake).Delivered alloc c c₁ ∧ Held c₁ c' := by
  obtain ⟨c₁, hread, h⟩ := readPacket_parsed malformed h
  have first : (Call.authRecv packet handshake).Delivered alloc c c₁ := .first trivial hread
  rw [get_bind] at h
  split at h
  · rename_i more
    dsimp only at h
    split at h
    · cases h
      exact absurd malformed (by decide)
    · obtain h | ⟨_, c₂, hasked, h⟩ := bind_error.mp h
      · split at h
        · cases h
        · split at h
          · exact absurd malformed (fails_sendClearPassword h).1
          · cases h
            exact ⟨_, first, Std.Refl.refl _⟩
      · rw [get_bind] at h
        obtain h | ⟨_, c₃, hawait, h⟩ := bind_error.mp h
        · exact absurd malformed (fails_awaitPacket _ h).1
        · exact ⟨c₃, .answer hread more (fastAuth_iff.mp hasked) hawait,
            spares_clearedResponse h malformed⟩
  · split at h
    · have hswitch : Spares ParseError Held (do
          let handshake ← readAuthSwitchPacket packet handshake
          pure (some handshake)) :=
        .before (spares_readAuthSwitchPacket packet handshake) fun _ => .pure _
      exact ⟨c₁, first, hswitch h malformed⟩
    · exact ⟨c₁, first, spares_clearedResponse h malformed⟩

theorem fails_readPacket : Fails (fun rc => ¬ ParseError rc) (readPacket alloc) := by
  intro c rc c' h
  obtain rfl | rfl | rfl | rfl | rfl | rfl := readPacket_fault h <;> decide

/-- The rows are not looked at. -/
theorem fails_drainRows (turns : Nat) : Fails (fun rc => ¬ ParseError rc) (drainRows alloc turns) := by
  induction turns with
  | zero => exact .throw (by decide)
  | succ turns ih =>
    exact .bind fails_readPacket fun _ => .bind .get fun _ => .ite (fun _ => .pure _) fun _ => ih

theorem delivered_readEof {call : Call} (begins : call.BeginsReading c) (malformed : ParseError rc)
    (h : readEof alloc c = (.error rc, c')) : ∃ c₁, call.Delivered alloc c c₁ ∧ Held c₁ c' :=
  delivered_first begins spares_readEofPacket malformed h

theorem delivered_readRow (malformed : ParseError rc) (h : readRow alloc c = (.error rc, c')) :
    ∃ c₁, Call.readRow.Delivered alloc c c₁ ∧ Held c₁ c' := by
  obtain h | ⟨_, c₁, hbegin, h⟩ := bind_error.mp h
  · rw [beginRows, get_bind] at h
    split at h
    · rename_i unstarted
      obtain h | ⟨_, _, -, h⟩ := bind_error.mp h
      · by_cases deprecated : has c.capabilities Capabilities.deprecateEof
        · rw [when_neg (by simp [deprecated])] at h
          cases h
        · rw [when_pos (by simp [deprecated])] at h
          exact delivered_readEof ⟨by simpa using unstarted, by simpa using deprecated⟩ malformed h
      · cases h
    · cases h
  · obtain ⟨c₂, hread, h⟩ := readPacket_parsed malformed h
    exact ⟨c₂, .row hbegin hread, spares_rowReply parseRowPacket h malformed⟩

theorem delivered_drainResults (malformed : ParseError rc)
    (h : drainResults alloc c = (.error rc, c')) :
    ∃ c₁, Call.drainResults.Delivered alloc c c₁ ∧ Held c₁ c' := by
  rw [drainResults, get_bind] at h
  obtain h | ⟨_, c₁, -, h⟩ := bind_error.mp h
  · split at h
    · rename_i unstarted
      obtain h | ⟨_, _, -, h⟩ := bind_error.mp h
      · exact delivered_readEof (show _ = false by simpa using unstarted) malformed h
      · cases h
    · cases h
  · exact absurd malformed (fails_drainRows _ h)

theorem delivered_closeRecv (malformed : ParseError rc) (h : closeRecv alloc c = (.error rc, c')) :
    ∃ c₁, Call.closeRecv.Delivered alloc c c₁ ∧ Held c₁ c' := by
  obtain h | ⟨_, c₁, hshutdown, h⟩ := bind_error.mp h
  · cases h
  · rw [attempt_bind] at h
    rcases hread : readPacket alloc c₁ with ⟨e | _, c₂⟩
    · rw [hread] at h
      have hnot := fails_readPacket hread
      obtain rfl | rfl | hother := readPacket_fault hread
      · cases h
        exact absurd malformed hnot
      · cases h
      · rcases hother with rfl | rfl | rfl | rfl <;>
          (cases h; exact absurd malformed hnot)
    · rw [hread] at h
      cases h
      cases hshutdown
      exact ⟨c₂, .quit hread, Std.Refl.refl _⟩

/-- However far into a packet the parser got, a parse error leaves the connection as it
was when the packet was delivered. -/
theorem malformed_reply_unmoved {call : Call} (receives : call.Receives)
    (malformed : ParseError rc) (h : call.run alloc digests c = (.error rc, c')) :
    ∃ c₁, call.Delivered alloc c c₁ ∧ NothingRead c₁ c' ∧ Unmoved c₁ c' := by
  suffices hheld : ∃ c₁, call.Delivered alloc c c₁ ∧ Held c₁ c' by
    obtain ⟨c₁, delivered, held⟩ := hheld
    exact ⟨c₁, delivered, held.toNothingRead, held.toUnmoved⟩
  have hdone : ∀ {m : Proc Code Conn Unit},
      (do m; pure Decoded.done : Proc Code Conn Decoded) c = (.error rc, c') →
      m c = (.error rc, c') := by
    intro m h
    obtain h | ⟨_, _, -, h⟩ := bind_error.mp h
    · exact h
    · cases h
  cases call with
  | connectRecv handshake =>
    refine delivered_first trivial ?_ malformed (map_error.mp h)
    refine .after .get fun conn => .ite (fun _ => spares_readErrPacket) fun _ => ?_
    exact spares_parsed fun _ => .bind (.modify _) fun _ => .pure _
  | authRecv packet handshake => exact delivered_authRecv malformed (map_error.mp h)
  | changeDbRecv | pingRecv | stmtResetRecv =>
    exact delivered_first trivial spares_handleGenericResponse malformed (hdone h)
  | setOptionRecv =>
    refine delivered_first trivial ?_ malformed (hdone h)
    exact .after .get fun _ => .ite (fun _ => spares_readOkPacket) fun _ =>
      .ite (fun _ => spares_readErrPacket) fun _ => .throw _
  | queryRecv =>
    exact delivered_first trivial (spares_resultReply fun packet conn => { conn with
      column_count := packet.column_count, started_reading_rows := false }) malformed (map_error.mp h)
  | stmtExecuteRecv =>
    exact delivered_first trivial (spares_resultReply fun packet conn => { conn with
      column_count := packet.column_count }) malformed (map_error.mp h)
  | stmtPrepareRecv =>
    refine delivered_first trivial ?_ malformed (map_error.mp h)
    refine .after .get fun conn => .ite (fun _ => ?_) fun _ =>
      .ite (fun _ => spares_readErrPacket) fun _ => .throw _
    exact spares_parsed fun _ => .bind (.modify _) fun _ => .pure _
  | readColumn =>
    exact delivered_first trivial (.of_keeps (held_parsePacket _)) malformed (map_error.mp h)
  | stmtReadRow stmt columns values_out =>
    exact delivered_first trivial (spares_rowReply fun _ =>
      parseStmtRowPacket columns stmt.column_count.toUInt64 values_out) malformed (map_error.mp h)
  | readRow => exact delivered_readRow malformed (map_error.mp h)
  | drainResults => exact delivered_drainResults malformed (hdone h)
  | closeRecv => exact delivered_closeRecv malformed (hdone h)
  | _ => exact receives.elim

/-- An OK packet that ends behind its first length. -/
theorem malformed_reply_unmoved_ping :
    let c := { Conn.init idleSock with recv_buff := [2, 0, 0, 0, 0x00, 0x05], affected_rows := 7 }
    ∃ c₁ c', Call.pingRecv.run (fun _ => true) noDigests c = (.error .truncatedPacket, c') ∧
      Call.pingRecv.Delivered (fun _ => true) c c₁ ∧ NothingRead c₁ c' ∧ Unmoved c₁ c' := by
  intro c
  have hrun : (Call.pingRecv.run (fun _ => true) noDigests c).1 = .error .truncatedPacket := by
    decide +kernel
  have receives : Call.pingRecv.Receives := trivial
  obtain ⟨c₁, h⟩ := malformed_reply_unmoved receives (by decide) (ends hrun)
  exact ⟨c₁, _, ends hrun, h⟩

end Conn

end Trilogy
