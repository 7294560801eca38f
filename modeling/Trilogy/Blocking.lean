import Trilogy.Session

/-! `blocking.c`. Its loops call a function again while it asks for that, and wait for
the socket in between. A wait uses up a poll, so the polls bound the turns. -/
namespace Trilogy

open Lib

namespace Conn

/-- `flush_full` -/
def flushFull : Nat → Proc Code Conn Unit
  | 0 => throw .syserr
  | turns + 1 => do
    onSocket Sock.wait
    let rc ← Proc.attempt flushWrites
    match rc with
    | .error .again => flushFull turns
    | .error rc => throw rc
    | .ok () => pure ()

/-- A request, flushed to its end. -/
def sendFull (send : Proc Code Conn Unit) : Proc Code Conn Unit := do
  let rc ← Proc.attempt send
  match rc with
  | .error .again => do
    let conn ← get
    flushFull (conn.socket.net.polls.length + 1)
  | .error rc => throw rc
  | .ok () => pure ()

/-- The loops around `connectRecv` and `authRecv`; what a turn finds on the stack
may depend on the turn. -/
def recvFull {α : Type} (recv : Nat → Proc Code Conn α) : Nat → Proc Code Conn α
  | 0 => throw .syserr
  | turns + 1 => do
    let rc ← Proc.attempt (recv turns)
    match rc with
    | .ok a => pure a
    | .error .again => do
      onSocket Sock.wait
      recvFull recv turns
    | .error rc => throw rc

section

variable (alloc : Alloc) (digests : Digests)

/-- `trilogy_connect_auth_switch`; a second request to switch is handed on. -/
def connectAuthSwitch (packets : Nat → AuthSwitchRequestPacket) (handshake : Handshake) :
    Proc Code Conn Unit := do
  sendFull (authSwitchSend alloc digests handshake)
  let conn ← get
  let switch ← recvFull (fun turn => authRecv alloc (packets turn) handshake)
    (conn.socket.net.polls.length + 1)
  match switch with
  | none => pure ()
  | some _ => throw .authSwitch

/-- `trilogy_connect_handshake`. The records are what is on the stack for each
call that fills one in. -/
def connectHandshake (handshake : Handshake) (packets packets' : Nat → AuthSwitchRequestPacket) :
    Proc Code Conn Unit := do
  let conn ← get
  let handshake ← recvFull (fun _ => connectRecv alloc handshake)
    (conn.socket.net.polls.length + 1)
  sendFull (authSend alloc digests handshake)
  let conn ← get
  let switch ← recvFull (fun turn => authRecv alloc (packets turn) handshake)
    (conn.socket.net.polls.length + 1)
  match switch with
  | none => pure ()
  | some handshake => connectAuthSwitch alloc digests packets' handshake

/-- `trilogy_connect` -/
def connect (opts : SockOpt) (net : Net) (handshake : Handshake)
    (packets packets' : Nat → AuthSwitchRequestPacket) : Proc Code Conn Unit := do
  connectSend opts net
  connectHandshake alloc digests handshake packets packets'

/-- `trilogy_connect_sock` -/
def connectSock (sock : Sock) (handshake : Handshake)
    (packets packets' : Nat → AuthSwitchRequestPacket) : Proc Code Conn Unit := do
  connectSendSocket sock
  connectHandshake alloc digests handshake packets packets'

end

/-- A loop whose turns are all alike. A socket that was shut down is read without
waiting, a few times at most. -/
def readFull {α : Type} (recv : Proc Code Conn α) : Proc Code Conn α := do
  let conn ← get
  recvFull (fun _ => recv) (conn.socket.net.polls.length + 3)

/-- What the functions for commands with a response have in common. -/
def command {α : Type} (send : Proc Code Conn Unit) (recv : Proc Code Conn α) :
    Proc Code Conn α := do
  sendFull send
  readFull recv

section

variable (alloc : Alloc)

def changeDb (name : List UInt8) : Proc Code Conn Unit :=
  command (changeDbSend alloc name) (changeDbRecv alloc)

def setOption (option : UInt16) : Proc Code Conn Unit :=
  command (setOptionSend alloc option) (setOptionRecv alloc)

def ping : Proc Code Conn Unit := command (pingSend alloc) (pingRecv alloc)

def query (query : List UInt8) : Proc Code Conn (Option UInt64) :=
  command (querySend alloc query) (queryRecv alloc)

def readFullColumn : Proc Code Conn Column := readFull (readColumn alloc)

def readFullRow : Proc Code Conn (List Value) := readFull (readRow alloc)

def close : Proc Code Conn Unit := command (closeSend alloc) (closeRecv alloc)

def stmtPrepare (stmt : List UInt8) : Proc Code Conn StmtOkPacket :=
  command (stmtPrepareSend alloc stmt) (stmtPrepareRecv alloc)

def stmtExecute (stmt : StmtOkPacket) (flags : UInt8) (binds : Option (List BinaryValue)) :
    Proc Code Conn (Option UInt64) :=
  command (stmtExecuteSend alloc stmt flags binds) (stmtExecuteRecv alloc)

/-- There is no response to it. -/
def stmtBindData (stmt : StmtOkPacket) (param_num : UInt16) (data : List UInt8) :
    Proc Code Conn Unit :=
  sendFull (stmtBindDataSend alloc stmt param_num data)

def stmtReadFullRow (stmt : StmtOkPacket) (columns : List Column) (values_out : List BinaryValue) :
    Proc Code Conn (List BinaryValue) :=
  readFull (stmtReadRow alloc stmt columns values_out)

def stmtReset (stmt : StmtOkPacket) : Proc Code Conn Unit :=
  command (stmtResetSend alloc stmt) (stmtResetRecv alloc)

/-- Nor to this one. -/
def stmtClose (stmt : StmtOkPacket) : Proc Code Conn Unit := sendFull (stmtCloseSend alloc stmt)

end

end Conn

/-- The steps of a handshake without TLS. -/
def Step.Handshakes : Step → Prop
  | .wait | .call .flushWrites | .call (.connectRecv _) | .call (.authSend _)
  | .call (.authSwitchSend _) | .call (.authRecv _ _) => True
  | _ => False

namespace Conn

variable {alloc : Alloc} {digests : Digests} {kind : Step → Prop}

theorem plays_wait (wait : kind .wait) : Plays alloc digests kind (onSocket Sock.wait) :=
  .step .wait wait fun c => (Proc.map_state (fun _ => Decoded.done) _ c).symm

theorem plays_flushFull (wait : kind .wait) (flush : kind (.call .flushWrites)) (turns : Nat) :
    Plays alloc digests kind (flushFull turns) := by
  have hflush : Plays alloc digests kind flushWrites := by
    apply Plays.step (.call .flushWrites) flush
    intro c
    exact (Proc.map_state (fun _ => Decoded.done) flushWrites c).symm
  induction turns with
  | zero => exact .throw _
  | succ turns ih =>
    apply Plays.bind (plays_wait wait)
    intro _
    apply Plays.bind hflush.attempt
    intro rc
    cases rc with
    | ok _ => exact .pure _
    | error rc =>
      cases rc with
      | again => exact ih
      | _ => exact .throw _

theorem plays_sendFull (wait : kind .wait) (flush : kind (.call .flushWrites))
    {send : Proc Code Conn Unit} (h : Plays alloc digests kind send) :
    Plays alloc digests kind (sendFull send) := by
  apply Plays.bind h.attempt
  intro rc
  cases rc with
  | ok _ => exact .pure _
  | error rc =>
    cases rc with
    | again => exact .bind .get fun _ => plays_flushFull wait flush _
    | _ => exact .throw _

theorem plays_recvFull (wait : kind .wait) {α : Type} {recv : Nat → Proc Code Conn α}
    (h : ∀ turn, Plays alloc digests kind (recv turn)) (turns : Nat) :
    Plays alloc digests kind (recvFull recv turns) := by
  induction turns with
  | zero => exact .throw _
  | succ turns ih =>
    apply Plays.bind (h turns).attempt
    intro rc
    cases rc with
    | ok a => exact .pure a
    | error rc =>
      cases rc with
      | again => exact .bind (plays_wait wait) fun _ => ih
      | _ => exact .throw _

theorem plays_connectRecv (handshake : Handshake) (h : kind (.call (.connectRecv handshake))) :
    Plays alloc digests kind (connectRecv alloc handshake) :=
  .step (.call (.connectRecv handshake)) h fun c => (Proc.map_state _ _ c).symm

theorem plays_authSend (handshake : Handshake) (h : kind (.call (.authSend handshake))) :
    Plays alloc digests kind (authSend alloc digests handshake) :=
  .step (.call (.authSend handshake)) h fun c =>
    (Proc.map_state (fun _ => Decoded.done) _ c).symm

theorem plays_authSwitchSend (handshake : Handshake)
    (h : kind (.call (.authSwitchSend handshake))) :
    Plays alloc digests kind (authSwitchSend alloc digests handshake) :=
  .step (.call (.authSwitchSend handshake)) h fun c =>
    (Proc.map_state (fun _ => Decoded.done) _ c).symm

theorem plays_authRecv (packet : AuthSwitchRequestPacket) (handshake : Handshake) :
    Plays alloc digests Step.Handshakes (authRecv alloc packet handshake) :=
  .step (.call (.authRecv packet handshake)) trivial fun c => (Proc.map_state _ _ c).symm

theorem plays_connectAuthSwitch (packets : Nat → AuthSwitchRequestPacket) (handshake : Handshake) :
    Plays alloc digests Step.Handshakes (connectAuthSwitch alloc digests packets handshake) := by
  apply Plays.bind (plays_sendFull trivial trivial (plays_authSwitchSend handshake trivial))
  intro _
  apply Plays.bind .get
  intro conn
  apply Plays.bind (plays_recvFull trivial (fun turn => plays_authRecv (packets turn) handshake) _)
  intro switch
  cases switch with
  | none => exact .pure _
  | some _ => exact .throw _

theorem plays_connectHandshake (handshake : Handshake)
    (packets packets' : Nat → AuthSwitchRequestPacket) :
    Plays alloc digests Step.Handshakes
      (connectHandshake alloc digests handshake packets packets') := by
  apply Plays.bind .get
  intro conn
  apply Plays.bind (plays_recvFull trivial (fun _ => plays_connectRecv handshake trivial) _)
  intro handshake
  apply Plays.bind (plays_sendFull trivial trivial (plays_authSend handshake trivial))
  intro _
  apply Plays.bind .get
  intro conn
  apply Plays.bind (plays_recvFull trivial (fun turn => plays_authRecv (packets turn) handshake) _)
  intro switch
  cases switch with
  | none => exact .pure _
  | some handshake => exact plays_connectAuthSwitch packets' handshake

end Conn

end Trilogy
