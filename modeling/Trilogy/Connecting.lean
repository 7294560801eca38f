import Trilogy.Opening

/-! `rb_trilogy_connect`, from the options of the client to a connection that is logged
in. The waits inside `trilogy_sock_upgrade_ssl` and `trilogy_auth_recv` are those of
the Ruby client here: they take no polls, and an exception can come out of them. -/
namespace Trilogy

open Lib

namespace Capabilities

def foundRows : UInt32 := 0x00000002
def multiStatements : UInt32 := 0x00010000
def multiResults : UInt32 := 0x00020000

end Capabilities

namespace Rb

/-- The hash `opts`; an option that is only tested for truth is a `Bool`. -/
structure Options where
  host : Option (List UInt8)
  socket : Option (List UInt8)
  username : Option (List UInt8)
  password : Option (List UInt8)
  database : Option (List UInt8)
  ssl_mode : Option SslMode
  max_allowed_packet : Option Nat
  enable_cleartext_plugin : Bool
  found_rows : Bool
  multi_result : Option Bool
  multi_statement : Bool

namespace Options

/-- Only `false` turns `multi_result` off. -/
def flags (options : Options) : UInt32 :=
  (if options.database.isSome then Capabilities.connectWithDb else 0) |||
    (if options.found_rows then Capabilities.foundRows else 0) |||
    (if options.multi_result ≠ some false then Capabilities.multiResults else 0) |||
    (if options.multi_statement then Capabilities.multiStatements else 0)

/-- `connopt`. A host name leaves no path, and without one there always is a path. -/
def sockOpt (options : Options) (charset : UInt8) : SockOpt where
  hostname := options.host
  path := if options.host.isSome then none else some (options.socket.getD (literal "/tmp/mysql.sock"))
  database := options.database
  username := options.username
  password := options.password.getD []
  encoding := charset
  ssl_mode := options.ssl_mode.getD .disabled
  enable_cleartext_plugin := options.enable_cleartext_plugin
  flags := options.flags
  max_allowed_packet := options.max_allowed_packet.getD 0

end Options

/-- `if (rc < 0) return rc`, between two calls. -/
def andThen {α β : Type} (m : Proc Exit Rb (Except Code α))
    (f : α → Proc Exit Rb (Except Code β)) : Proc Exit Rb (Except Code β) := do
  let rc ← m
  match rc with
  | .error rc => pure (.error rc)
  | .ok a => f a

/-- A part of the work on the socket that does not fail. -/
def onSock (f : Sock → Sock) : Proc Exit Rb Unit := modify fun s =>
  { s with ctx := { s.ctx with conn := { s.ctx.conn with socket := f s.ctx.conn.socket } } }

/-- The `SSL_connect` loop. An exception leaves it with `sock->ssl` set, and the socket
shut down. -/
def sslConnect : List SslConnect → Proc Exit Rb (Except Code Unit)
  | [] => pure (.error .opensslErr)
  | result :: more => do
    onSock fun sock => { sock with net := { sock.net with ssl_connects := more } }
    match result with
    | .done => pure (.ok ())
    | .failed .wantRead | .failed .wantWrite => do
      let rc ← sockWait
      match rc with
      | .ok () => sslConnect more
      | .error _ => pure (.error .opensslErr)
    | .failed _ => pure (.error .opensslErr)

/-- `trilogy_sock_upgrade_ssl` -/
def upgradeSsl : Proc Exit Rb (Except Code Unit) :=
  andThen (onConn (Conn.onSocket Sock.setup)) fun _ => do
    let s ← get
    let sock := s.ctx.conn.socket
    if sock.opts.ssl_mode = .verifyIdentity ∧ sock.opts.hostname = none then
      pure (.error .opensslErr)
    else if sock.io = .shutdown then pure (.error .opensslErr)
    else andThen (sslConnect sock.net.ssl_connects) fun _ => do
      onSock fun sock => { sock with io := .ssl }
      pure (.ok ())

section

variable (alloc : Alloc) (digests : Digests)

/-- The loop that writes the clear password out. -/
def flushPassword : Nat → Except Code Unit → Proc Exit Rb (Except Code Unit)
  | 0, .error .again => throw .unfinished
  | turns + 1, .error .again => andThen sockWait fun _ => do
    let rc ← onBuffer Conn.flushWrites
    flushPassword turns rc
  | _, rc => pure rc

/-- What the server asked for with `FAST_AUTH_FAIL`. -/
def sendClearPassword (turns : Nat) : Proc Exit Rb (Except Code Unit) :=
  andThen (onBuffer do
    let conn ← get
    let builder ← Conn.beginCommandPhase alloc conn.packetParser.sequence_number
    Conn.build builder (buildAuthClearPassword alloc conn.socket.opts.password)) fun _ => do
  let rc ← onBuffer Conn.beginWrite
  flushPassword turns rc

/-- `trilogy_auth_recv` -/
def authRecv (packet : AuthSwitchRequestPacket) (handshake : Handshake) (turns : Nat) :
    Proc Exit Rb (Except Code (Option Handshake)) :=
  andThen (onBuffer (Conn.readPacket alloc)) fun _ => do
    let s ← get
    let conn := s.ctx.conn
    if conn.currentPacketType = Packet.authMoreData then
      let use_ssl := has conn.socket.opts.flags Capabilities.ssl
      let has_unix_socket := conn.socket.opts.path.isSome
      if !use_ssl && !has_unix_socket then pure (.error .unsupported)
      else
        let byte := conn.packet_buffer.byteAt 1
        andThen
          (if byte = 3 then pure (.ok ())
           else if byte = 4 then sendClearPassword alloc turns
           else pure (.error .unexpectedPacket)) fun _ =>
        andThen (await (Conn.readPacket alloc) turns) fun _ =>
        onBuffer do
          Conn.authClearPassword
          Conn.handleGenericResponse
          pure none
    else if conn.currentPacketType = Packet.eof then
      onBuffer (some <$> Conn.readAuthSwitchPacket packet handshake)
    else onBuffer do
      Conn.authClearPassword
      Conn.handleGenericResponse
      pure none

/-- A turn of the loops around it, in `authenticate` and `auth_switch`. -/
def authTurn (packet : AuthSwitchRequestPacket) (handshake : Handshake) (turns : Nat)
    (again : Proc Exit Rb (Option Handshake)) : Proc Exit Rb (Option Handshake) := do
  let rc ← authRecv alloc packet handshake turns
  match rc with
  | .ok switch => pure switch
  | .error .again => do
    orHandle sockWait
    again
  | .error rc => handleTrilogyError rc

/-- What a turn finds on the stack may depend on the turn. -/
def awaitAuth (packets : Nat → AuthSwitchRequestPacket) (handshake : Handshake) (turns : Nat) :
    Nat → Proc Exit Rb (Option Handshake)
  | 0 => authTurn alloc (packets 0) handshake turns (throw .unfinished)
  | left + 1 =>
    authTurn alloc (packets (left + 1)) handshake turns (awaitAuth packets handshake turns left)

/-- `auth_switch`, to which a second request to switch is an error like others. -/
def authSwitch (packets : Nat → AuthSwitchRequestPacket) (handshake : Handshake) (turns : Nat) :
    Proc Exit Rb Unit := do
  orHandle (sendFlushed (Conn.authSwitchSend alloc digests handshake) turns)
  let switch ← awaitAuth alloc packets handshake turns turns
  match switch with
  | none => pure ()
  | some _ => handleTrilogyError .authSwitch

/-- The first part of `authenticate`. Where TLS has to be and the server has none, the
exception goes past everything that handles errors. -/
def secure (handshake : Handshake) (ssl_mode : SslMode) (turns : Nat) : Proc Exit Rb Unit :=
  if ssl_mode = .disabled then pure ()
  else if has handshake.capabilities Capabilities.ssl then do
    orHandle (sendFlushed (Conn.sslRequestSend alloc) turns)
    orHandle upgradeSsl
  else if ssl_mode = .preferredNoverify then pure ()
  else throw (.raised .ruby)

def authenticate (packets packets' : Nat → AuthSwitchRequestPacket) (handshake : Handshake)
    (ssl_mode : SslMode) (turns : Nat) : Proc Exit Rb Unit := do
  secure alloc handshake ssl_mode turns
  orHandle (sendFlushed (Conn.authSend alloc digests handshake) turns)
  let switch ← awaitAuth alloc packets handshake turns turns
  match switch with
  | none => pure ()
  | some handshake => authSwitch alloc digests packets' handshake turns

end

end Rb

/-- `rb_trilogy_connect`. The records are what is on the stack for each call that fills
one in. -/
def Opening.rbConnect (alloc : Alloc) (digests : Digests) (options : Rb.Options)
    (charset : UInt8) (net : Net) (world : World) (handshake : Handshake)
    (packets packets' : Nat → AuthSwitchRequestPacket) (turns : Nat) :
    Proc Rb.Exit Opening Rb.Returned := do
  onClient (Rb.mayRaise .argument)
  onClient Rb.acquireBuffer
  let rc ← tryConnect (options.sockOpt charset) net world alloc handshake turns
  match rc with
  | .error rc => onClient (Rb.handleTrilogyError rc)
  | .ok handshake => onClient do
    Rb.authenticate alloc digests packets packets' handshake (options.sockOpt charset).ssl_mode turns
    Rb.releaseBuffer
    pure .nil

end Trilogy
