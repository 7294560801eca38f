import Trilogy.PacketParser
import Trilogy.Socket

/-! `client.c`. A procedure ends with a code other than `TRILOGY_OK` as an error,
`TRILOGY_AGAIN` and `TRILOGY_EOF` included. -/
namespace Trilogy

open Lib

/-- A connection with a socket. `recv_buff` is what the last read put there,
`recv_buff_len` bytes; `parsed` is the history of the bytes the packet parser
has consumed, which no function reads. -/
structure Conn where
  affected_rows : UInt64
  last_insert_id : UInt64
  warning_count : UInt16
  last_gtid : List UInt8
  error_code : UInt16
  error_message : List UInt8
  capabilities : UInt32
  server_status : UInt16
  socket : Sock
  recv_buff : List UInt8
  recv_buff_pos : Nat
  packetParser : PacketParser
  packet_buffer : Buffer
  packet_buffer_written : Nat
  column_count : UInt64
  started_reading_rows : Bool
  parsed : List UInt8
  deriving DecidableEq

/-- `TRILOGY_DEFAULT_BUF_SIZE` -/
def defaultBufSize : Nat := 32768

namespace Packet

def ok : UInt8 := 0x00
def authMoreData : UInt8 := 0x01
def eof : UInt8 := 0xfe
def err : UInt8 := 0xff

end Packet

namespace Conn

/-- `trilogy_init`; `socket` stands for the `NULL` that `connectSendSocket`
replaces. -/
def init (socket : Sock) : Conn where
  affected_rows := 0
  last_insert_id := 0
  warning_count := 0
  last_gtid := []
  error_code := 0
  error_message := []
  capabilities := 0
  server_status := 0
  socket := socket
  recv_buff := []
  recv_buff_pos := 0
  packetParser := PacketParser.init
  packet_buffer := ⟨[], [], defaultBufSize, by decide⟩
  packet_buffer_written := 0
  column_count := 0
  started_reading_rows := false
  parsed := []

/-- What has been read from the socket and not yet been parsed. -/
def unread (conn : Conn) : List UInt8 := conn.recv_buff.drop conn.recv_buff_pos

def currentPacketType (conn : Conn) : UInt8 := conn.packet_buffer.byteAt 0

def onSocket {α : Type} (m : Proc Code Sock α) : Proc Code Conn α :=
  Proc.zoom Conn.socket (fun socket conn => { conn with socket }) m

/-- The memory at `packet_buffer.buff + packet_buffer_written`. -/
def unwritten (conn : Conn) : List UInt8 :=
  (conn.packet_buffer.bytes ++ conn.packet_buffer.stale).drop conn.packet_buffer_written

/-- Where a shorter packet was read since, the length wraps. -/
def flushWrites : Proc Code Conn Unit := do
  let conn ← get
  let len := sizeSub conn.packet_buffer.len conn.packet_buffer_written
  let bytes ← onSocket (Sock.write conn.unwritten len)
  modify fun conn => { conn with packet_buffer_written := conn.packet_buffer_written + bytes }
  let conn ← get
  if conn.packet_buffer_written < conn.packet_buffer.len then throw .again else pure ()

theorem write_unwritten {c : Conn} (h : c.packet_buffer_written ≤ c.packet_buffer.len) :
    onSocket (Sock.write c.unwritten (sizeSub c.packet_buffer.len c.packet_buffer_written)) =
      onSocket (Sock.write (c.packet_buffer.bytes.drop c.packet_buffer_written)
        (c.packet_buffer.bytes.drop c.packet_buffer_written).length) := by
  have hlen : sizeSub c.packet_buffer.len c.packet_buffer_written =
      (c.packet_buffer.bytes.drop c.packet_buffer_written).length := by
    rw [sizeSub_of_le h, List.length_drop, Buffer.len]
  rw [hlen, unwritten, List.drop_append_of_le_length h, Sock.write_append]

def beginWrite : Proc Code Conn Unit := do
  modify fun conn => { conn with packet_buffer_written := 0 }
  flushWrites

/-- What a call of the packet parser leaves. -/
def consume (conn : Conn) (r : Executed Buffer) : Conn :=
  { conn with
    packetParser := r.parser
    packet_buffer := r.user
    recv_buff_pos := conn.recv_buff_pos + r.consumed
    parsed := conn.parsed ++ conn.unread.take r.consumed }

/-- The `if` of `read_packet`. -/
def refill : Proc Code Conn Unit := do
  let conn ← get
  if conn.recv_buff_pos = conn.recv_buff.length then do
    let bytes ← onSocket (Sock.read defaultBufSize)
    if bytes.length = 0 then throw .closedConnection
    else modify fun conn => { conn with recv_buff := bytes, recv_buff_pos := 0 }
  else pure ()

section

variable (alloc : Alloc)

/-- The call of the packet parser, and what `read_packet` returns for it. -/
def execute : Proc Code Conn Unit := fun conn =>
  let r := PacketParser.execute (packetParserCallbacks alloc) conn.packetParser
    conn.packet_buffer conn.unread
  if r.error < 0 then (.error (Code.ofInt r.error), conn.consume r)
  else if r.error > 0 then (.ok (), conn.consume r)
  else (.error .again, conn.consume r)

def readPacket : Proc Code Conn Unit := do
  refill
  execute alloc

/-- Run a parser over the packet buffer. -/
def parsePacket {α : Type} (m : Proc Code Reader α) : Proc Code Conn α := fun conn =>
  (parse m conn.packet_buffer.bytes, conn)

def readOkPacket : Proc Code Conn Unit := do
  let conn ← get
  let ok_packet ← parsePacket (parseOkPacket conn.capabilities)
  Proc.when (has conn.capabilities Capabilities.protocol41)
    (modify fun conn =>
      { conn with
        warning_count := ok_packet.warning_count
        server_status := ok_packet.status_flags })
  modify fun conn =>
    { conn with
      affected_rows := ok_packet.affected_rows
      last_insert_id := ok_packet.last_insert_id }
  Proc.when (ok_packet.last_gtid.length > 0 ∧ ok_packet.last_gtid.length < maxLastGtidLen)
    (modify fun conn => { conn with last_gtid := ok_packet.last_gtid })

/-- It returns `TRILOGY_ERR` when all goes well. -/
def readErrPacket {α : Type} : Proc Code Conn α := do
  let conn ← get
  let err_packet ← parsePacket (parseErrPacket conn.capabilities)
  modify fun conn =>
    { conn with
      error_code := err_packet.error_code
      error_message := err_packet.error_message }
  throw .err

/-- The record of an EOF packet, without the `TRILOGY_EOF` it returns. -/
def readDeprecatedEofPacket : Proc Code Conn Unit := do
  let conn ← get
  let eof_packet ← parsePacket (parseEofPacket conn.capabilities)
  Proc.when (has conn.capabilities Capabilities.protocol41)
    (modify fun conn =>
      { conn with
        warning_count := eof_packet.warning_count
        server_status := eof_packet.status_flags })

def readEofPacket : Proc Code Conn Unit := do
  let conn ← get
  if has conn.capabilities Capabilities.deprecateEof then readOkPacket
  else readDeprecatedEofPacket

def handleGenericResponse : Proc Code Conn Unit := do
  let conn ← get
  if conn.currentPacketType = Packet.ok then readOkPacket
  else if conn.currentPacketType = Packet.err then readErrPacket
  else throw .unexpectedPacket

def readGenericResponse : Proc Code Conn Unit := do
  readPacket alloc
  handleGenericResponse

/-- `begin_command_phase`; the result of `trilogy_builder_set_max_packet_length`
is not looked at. -/
def beginCommandPhase (seq : UInt8) : Proc Code Conn Builder := fun conn =>
  match Builder.init alloc conn.packet_buffer seq with
  | (.error rc, builder) => (.error rc, { conn with packet_buffer := builder.buffer })
  | (.ok (), builder) =>
    let max := conn.socket.opts.max_allowed_packet
    let builder := if max > 0 then (Builder.setMaxPacketLength max builder).2 else builder
    (.ok builder, { conn with
      packet_buffer := builder.buffer
      packetParser := { conn.packetParser with sequence_number := seq + 1 } })

/-- The builder writes to the packet buffer of the connection. -/
def build (builder : Builder) (m : Proc Code Builder Unit) : Proc Code Conn Builder := fun conn =>
  match m builder with
  | (.error rc, builder) => (.error rc, { conn with packet_buffer := builder.buffer })
  | (.ok (), builder) => (.ok builder, { conn with packet_buffer := builder.buffer })

/-- What all requests have in common: `seq` is the first sequence id, and the
packet parser is left to expect the next one. -/
def sendPacket (seq : UInt8) (m : Proc Code Builder Unit) : Proc Code Conn Unit := do
  let builder ← beginCommandPhase alloc seq
  let _ ← build builder m
  beginWrite

/-- The two requests that hand the sequence number of the builder on. -/
def sendPacketInSequence (m : Proc Code Builder Unit) : Proc Code Conn Unit := do
  let builder ← beginCommandPhase alloc 0
  let builder ← build builder m
  modify fun conn =>
    { conn with packetParser := { conn.packetParser with sequence_number := builder.seq } }
  beginWrite

def connectSendSocket (sock : Sock) : Proc Code Conn Unit := fun conn =>
  match Sock.connect sock with
  | (.error rc, _) => (.error rc, conn)
  | (.ok (), socket) =>
    (.ok (), { conn with
      socket
      packetParser := { conn.packetParser with sequence_number := 0 } })

def connectSend (opts : SockOpt) (net : Net) : Proc Code Conn Unit := fun conn =>
  match Sock.resolve (Sock.new opts net) with
  | (.error rc, _) => (.error rc, conn)
  | (.ok (), sock) => connectSendSocket sock conn

def connectRecv (handshake : Handshake) : Proc Code Conn Handshake := do
  readPacket alloc
  let conn ← get
  if conn.currentPacketType = Packet.err then readErrPacket
  else do
    let handshake ← parsePacket (parseHandshakePacket handshake)
    modify fun conn =>
      { conn with
        capabilities := handshake.capabilities
        server_status := handshake.server_status }
    pure handshake

variable (digests : Digests)

def authSend (handshake : Handshake) : Proc Code Conn Unit := do
  let conn ← get
  let opts := conn.socket.opts
  sendPacket alloc conn.packetParser.sequence_number
    (buildAuthPacket alloc digests opts.username opts.password opts.database opts.encoding
      handshake.auth_plugin handshake.scramble opts.flags)

def sslRequestSend : Proc Code Conn Unit := do
  let conn ← get
  let builder ← beginCommandPhase alloc conn.packetParser.sequence_number
  modify fun conn =>
    { conn with
      socket := { conn.socket with
        opts := { conn.socket.opts with flags := conn.socket.opts.flags ||| Capabilities.ssl } } }
  let conn ← get
  let _ ← build builder
    (buildSslRequestPacket alloc conn.socket.opts.flags conn.socket.opts.encoding)
  beginWrite

def authSwitchSend (handshake : Handshake) : Proc Code Conn Unit := do
  let conn ← get
  let opts := conn.socket.opts
  sendPacket alloc conn.packetParser.sequence_number
    (buildAuthSwitchResponsePacket alloc digests opts.password handshake.auth_plugin
      handshake.scramble opts.enable_cleartext_plugin)

def authClearPassword : Proc Code Conn Unit := modify fun conn =>
  { conn with
    socket := { conn.socket with
      opts := { conn.socket.opts with
        password := List.replicate conn.socket.opts.password.length 0 } } }

/-- `packet` is what `auth_switch_packet` holds on the stack. -/
def readAuthSwitchPacket (packet : AuthSwitchRequestPacket) (handshake : Handshake) :
    Proc Code Conn Handshake := do
  let conn ← get
  let packet ← parsePacket (parseAuthSwitchRequestPacket conn.capabilities packet)
  if !sameString nativePassword packet.auth_plugin &&
      !sameString cachingSha2Password packet.auth_plugin &&
      !sameString clearPassword packet.auth_plugin then
    throw .protocolViolation
  else pure { handshake with auth_plugin := packet.auth_plugin, scramble := packet.scramble }

/-- The loop that writes the clear password out. A turn uses up a poll. -/
def flushPassword : Nat → Except Code Unit → Proc Code Conn Unit
  | turns + 1, .error .again => do
    onSocket Sock.wait
    let rc ← Proc.attempt flushWrites
    flushPassword turns rc
  | _, .error rc => throw rc
  | _, .ok () => pure ()

/-- The loop that reads the answer to it. -/
def awaitPacket : Nat → Proc Code Conn Unit
  | 0 => throw .syserr
  | turns + 1 => do
    let rc ← Proc.attempt (readPacket alloc)
    match rc with
    | .ok () => pure ()
    | .error .again => do
      onSocket Sock.wait
      awaitPacket turns
    | .error rc => throw rc

/-- The unhashed password: what the server asked for with `FAST_AUTH_FAIL`. -/
def sendClearPassword : Proc Code Conn Unit := do
  let conn ← get
  let builder ← beginCommandPhase alloc conn.packetParser.sequence_number
  let _ ← build builder (buildAuthClearPassword alloc conn.socket.opts.password)
  let rc ← Proc.attempt beginWrite
  let conn ← get
  flushPassword (conn.socket.net.polls.length + 1) rc

/-- The `handshake` that an auth switch request changed, together with
`TRILOGY_AUTH_SWITCH`; `none` is `TRILOGY_OK`. -/
def authRecv (packet : AuthSwitchRequestPacket) (handshake : Handshake) :
    Proc Code Conn (Option Handshake) := do
  readPacket alloc
  let conn ← get
  if conn.currentPacketType = Packet.authMoreData then do
    let use_ssl := has conn.socket.opts.flags Capabilities.ssl
    let has_unix_socket := conn.socket.opts.path.isSome
    if !use_ssl && !has_unix_socket then throw .unsupported
    else do
      let byte := conn.packet_buffer.byteAt 1
      (if byte = 3 then pure ()
       else if byte = 4 then sendClearPassword alloc
       else throw .unexpectedPacket)
      let conn ← get
      awaitPacket alloc (conn.socket.net.polls.length + 1)
      authClearPassword
      handleGenericResponse
      pure none
  else if conn.currentPacketType = Packet.eof then do
    let handshake ← readAuthSwitchPacket packet handshake
    pure (some handshake)
  else do
    authClearPassword
    handleGenericResponse
    pure none

def changeDbSend (name : List UInt8) : Proc Code Conn Unit :=
  sendPacket alloc 0 (buildChangeDbPacket alloc name)

def changeDbRecv : Proc Code Conn Unit := readGenericResponse alloc

def setOptionSend (option : UInt16) : Proc Code Conn Unit :=
  sendPacket alloc 0 (buildSetOptionPacket alloc option)

/-- `COM_SET_OPTION` is answered with an EOF packet, which is read as an OK packet. -/
def setOptionRecv : Proc Code Conn Unit := do
  readPacket alloc
  let conn ← get
  if conn.currentPacketType = Packet.ok ∨ conn.currentPacketType = Packet.eof then readOkPacket
  else if conn.currentPacketType = Packet.err then readErrPacket
  else throw .unexpectedPacket

def pingSend : Proc Code Conn Unit := sendPacket alloc 0 (buildPingPacket alloc)

def pingRecv : Proc Code Conn Unit := readGenericResponse alloc

def querySend (query : List UInt8) : Proc Code Conn Unit :=
  sendPacketInSequence alloc (buildQueryPacket alloc query)

/-- The column count, where the response has one; it comes with
`TRILOGY_HAVE_RESULTS`. -/
def queryRecv : Proc Code Conn (Option UInt64) := do
  readPacket alloc
  let conn ← get
  if conn.currentPacketType = Packet.ok then do
    readOkPacket
    pure none
  else if conn.currentPacketType = Packet.err then readErrPacket
  else do
    let result_packet ← parsePacket parseResultPacket
    modify fun conn =>
      { conn with column_count := result_packet.column_count, started_reading_rows := false }
    pure (some result_packet.column_count)

def readColumn : Proc Code Conn Column := do
  readPacket alloc
  parsePacket (parseColumnPacket false)

def readEof : Proc Code Conn Unit := do
  readPacket alloc
  readEofPacket

/-- The first part of `trilogy_read_row`: the EOF packet behind the columns. -/
def beginRows : Proc Code Conn Unit := do
  let conn ← get
  if !conn.started_reading_rows then do
    Proc.when (!has conn.capabilities Capabilities.deprecateEof) (readEof alloc)
    modify fun conn => { conn with started_reading_rows := true }
  else pure ()

def readRow : Proc Code Conn (List Value) := do
  beginRows alloc
  readPacket alloc
  let conn ← get
  if conn.currentPacketType = Packet.eof ∧ conn.packet_buffer.len < 9 then do
    readEofPacket
    throw .eof
  else if conn.currentPacketType = Packet.err then readErrPacket
  else parsePacket (parseRowPacket conn.column_count)

/-- The loop of `trilogy_drain_results`. A turn reads a packet, so the bytes
still to come bound the turns. -/
def drainRows : Nat → Proc Code Conn Unit
  | 0 => throw .again
  | turns + 1 => do
    readPacket alloc
    let conn ← get
    if conn.currentPacketType = Packet.eof ∧ conn.packet_buffer.len < 9 then pure ()
    else drainRows turns

/-- The bytes one call can get hold of. -/
def pendingBytes (conn : Conn) : Nat :=
  conn.unread.length +
    (conn.socket.net.raw_reads.map fun
      | .data bytes => bytes.length
      | .failed _ => 0).sum +
    (conn.socket.net.tls_reads.map fun
      | .data _ bytes => bytes.length + 1
      | .failed _ => 0).sum

def drainResults : Proc Code Conn Unit := do
  let conn ← get
  (if !conn.started_reading_rows then do
    readEof alloc
    modify fun conn => { conn with started_reading_rows := true }
  else pure ())
  let conn ← get
  drainRows alloc (conn.pendingBytes + 2)

def closeSend : Proc Code Conn Unit := sendPacket alloc 0 (buildQuitPacket alloc)

def closeRecv : Proc Code Conn Unit := do
  onSocket Sock.shutdown
  let rc ← Proc.attempt (readPacket alloc)
  match rc with
  | .error .closedConnection => pure ()
  | .ok () => throw .protocolViolation
  | .error rc => throw rc

def stmtPrepareSend (stmt : List UInt8) : Proc Code Conn Unit :=
  sendPacket alloc 0 (buildStmtPreparePacket alloc stmt)

def stmtPrepareRecv : Proc Code Conn StmtOkPacket := do
  readPacket alloc
  let conn ← get
  if conn.currentPacketType = Packet.ok then do
    let stmt ← parsePacket parseStmtOkPacket
    modify fun conn => { conn with warning_count := stmt.warning_count }
    pure stmt
  else if conn.currentPacketType = Packet.err then readErrPacket
  else throw .unexpectedPacket

def stmtExecuteSend (stmt : StmtOkPacket) (flags : UInt8) (binds : Option (List BinaryValue)) :
    Proc Code Conn Unit :=
  sendPacketInSequence alloc
    (buildStmtExecutePacket alloc stmt.id flags binds stmt.parameter_count)

/-- Unlike `queryRecv` it returns `TRILOGY_OK` with a column count too, and
leaves `started_reading_rows` alone. -/
def stmtExecuteRecv : Proc Code Conn (Option UInt64) := do
  readPacket alloc
  let conn ← get
  if conn.currentPacketType = Packet.ok then do
    readOkPacket
    pure none
  else if conn.currentPacketType = Packet.err then readErrPacket
  else do
    let result_packet ← parsePacket parseResultPacket
    modify fun conn => { conn with column_count := result_packet.column_count }
    pure (some result_packet.column_count)

def stmtBindDataSend (stmt : StmtOkPacket) (param_num : UInt16) (data : List UInt8) :
    Proc Code Conn Unit :=
  sendPacket alloc 0 (buildStmtBindDataPacket alloc stmt.id param_num data)

def stmtReadRow (stmt : StmtOkPacket) (columns : List Column) (values_out : List BinaryValue) :
    Proc Code Conn (List BinaryValue) := do
  readPacket alloc
  let conn ← get
  if conn.currentPacketType = Packet.eof ∧ conn.packet_buffer.len < 9 then do
    readEofPacket
    throw .eof
  else if conn.currentPacketType = Packet.err then readErrPacket
  else parsePacket (parseStmtRowPacket columns stmt.column_count.toUInt64 values_out)

def stmtResetSend (stmt : StmtOkPacket) : Proc Code Conn Unit :=
  sendPacket alloc 0 (buildStmtResetPacket alloc stmt.id)

def stmtResetRecv : Proc Code Conn Unit := readGenericResponse alloc

def stmtCloseSend (stmt : StmtOkPacket) : Proc Code Conn Unit :=
  sendPacket alloc 0 (buildStmtClosePacket alloc stmt.id)

end

end Conn

end Trilogy
