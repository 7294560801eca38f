import Trilogy.Notes

/-! A run of a connection is a sequence of calls, whatever they return. Apart from
the two that attach a socket, a call has to do with the network through four
operations of the socket; what those keep, every call keeps. -/
namespace Trilogy

open Lib Proc

/-- The functions of `client.h`, with their arguments. -/
inductive Call
  | flushWrites
  | connectSend (opts : SockOpt) (net : Net)
  | connectSendSocket (sock : Sock)
  | connectRecv (handshake : Handshake)
  | sslRequestSend
  | authSend (handshake : Handshake)
  | authSwitchSend (handshake : Handshake)
  | authRecv (packet : AuthSwitchRequestPacket) (handshake : Handshake)
  | changeDbSend (name : List UInt8)
  | changeDbRecv
  | setOptionSend (option : UInt16)
  | setOptionRecv
  | pingSend
  | pingRecv
  | querySend (query : List UInt8)
  | queryRecv
  | readColumn
  | readRow
  | drainResults
  | closeSend
  | closeRecv
  | stmtPrepareSend (stmt : List UInt8)
  | stmtPrepareRecv
  | stmtBindDataSend (stmt : StmtOkPacket) (param_num : UInt16) (data : List UInt8)
  | stmtExecuteSend (stmt : StmtOkPacket) (flags : UInt8) (binds : Option (List BinaryValue))
  | stmtExecuteRecv
  | stmtReadRow (stmt : StmtOkPacket) (columns : List Column) (values_out : List BinaryValue)
  | stmtResetSend (stmt : StmtOkPacket)
  | stmtResetRecv
  | stmtCloseSend (stmt : StmtOkPacket)

/-- What a call hands out with its `TRILOGY_OK`, or the code that stands for it. -/
inductive Decoded
  | done
  | handshake (handshake : Handshake)
  | authSwitch (handshake : Handshake)
  | haveResults (column_count : UInt64)
  | column (column : Column)
  | row (values : List Value)
  | stmt (stmt : StmtOkPacket)
  | stmtRow (values : List BinaryValue)
  deriving DecidableEq

namespace Call

section

variable (alloc : Alloc) (digests : Digests)

def run : Call → Proc Code Conn Decoded
  | flushWrites => do Conn.flushWrites; pure .done
  | connectSend opts net => do Conn.connectSend opts net; pure .done
  | connectSendSocket sock => do Conn.connectSendSocket sock; pure .done
  | connectRecv handshake => .handshake <$> Conn.connectRecv alloc handshake
  | sslRequestSend => do Conn.sslRequestSend alloc; pure .done
  | authSend handshake => do Conn.authSend alloc digests handshake; pure .done
  | authSwitchSend handshake => do Conn.authSwitchSend alloc digests handshake; pure .done
  | authRecv packet handshake =>
    (Option.elim · .done .authSwitch) <$> Conn.authRecv alloc packet handshake
  | changeDbSend name => do Conn.changeDbSend alloc name; pure .done
  | changeDbRecv => do Conn.changeDbRecv alloc; pure .done
  | setOptionSend option => do Conn.setOptionSend alloc option; pure .done
  | setOptionRecv => do Conn.setOptionRecv alloc; pure .done
  | pingSend => do Conn.pingSend alloc; pure .done
  | pingRecv => do Conn.pingRecv alloc; pure .done
  | querySend query => do Conn.querySend alloc query; pure .done
  | queryRecv => (Option.elim · .done .haveResults) <$> Conn.queryRecv alloc
  | readColumn => .column <$> Conn.readColumn alloc
  | readRow => .row <$> Conn.readRow alloc
  | drainResults => do Conn.drainResults alloc; pure .done
  | closeSend => do Conn.closeSend alloc; pure .done
  | closeRecv => do Conn.closeRecv alloc; pure .done
  | stmtPrepareSend stmt => do Conn.stmtPrepareSend alloc stmt; pure .done
  | stmtPrepareRecv => .stmt <$> Conn.stmtPrepareRecv alloc
  | stmtBindDataSend stmt param_num data => do
    Conn.stmtBindDataSend alloc stmt param_num data
    pure .done
  | stmtExecuteSend stmt flags binds => do Conn.stmtExecuteSend alloc stmt flags binds; pure .done
  | stmtExecuteRecv => (Option.elim · .done .haveResults) <$> Conn.stmtExecuteRecv alloc
  | stmtReadRow stmt columns values_out =>
    .stmtRow <$> Conn.stmtReadRow alloc stmt columns values_out
  | stmtResetSend stmt => do Conn.stmtResetSend alloc stmt; pure .done
  | stmtResetRecv => do Conn.stmtResetRecv alloc; pure .done
  | stmtCloseSend stmt => do Conn.stmtCloseSend alloc stmt; pure .done

end

/-- The calls that give the connection another socket. -/
def Attaches : Call → Prop
  | connectSend .. | connectSendSocket _ => True
  | _ => False

/-- The calls that wait for a packet. -/
def Receives : Call → Prop
  | connectRecv _ | authRecv .. | changeDbRecv | setOptionRecv | pingRecv | queryRecv
  | readColumn | readRow | drainResults | closeRecv | stmtPrepareRecv | stmtExecuteRecv
  | stmtReadRow .. | stmtResetRecv => True
  | _ => False

end Call

/-- Calls one after the other, with what they returned; each is made in a state
in which `allowed` holds of it. -/
inductive Run (alloc : Alloc) (digests : Digests) (allowed : Conn → Call → Prop) :
    Conn → List (Call × Except Code Decoded) → Conn → Prop
  | nil (c : Conn) : Run alloc digests allowed c [] c
  | cons {c call r c₁ trace c₂} (ok : allowed c call) (h : call.run alloc digests c = (r, c₁))
      (rest : Run alloc digests allowed c₁ trace c₂) :
      Run alloc digests allowed c ((call, r) :: trace) c₂

/-- The run of these calls. -/
def replay (alloc : Alloc) (digests : Digests) :
    List Call → Conn → List (Call × Except Code Decoded) × Conn
  | [], c => ([], c)
  | call :: calls, c =>
    let r := call.run alloc digests c
    let rest := replay alloc digests calls r.2
    ((call, r.1) :: rest.1, rest.2)

/-- Each of the calls is made in a state in which `allowed` holds of it. -/
def Allowed (alloc : Alloc) (digests : Digests) (allowed : Conn → Call → Prop) :
    List Call → Conn → Prop
  | [], _ => True
  | call :: calls, c =>
    allowed c call ∧ Allowed alloc digests allowed calls (call.run alloc digests c).2

theorem Allowed.run {alloc : Alloc} {digests : Digests} {allowed : Conn → Call → Prop}
    {calls : List Call} {c : Conn} (h : Allowed alloc digests allowed calls c) :
    Run alloc digests allowed c (replay alloc digests calls c).1
      (replay alloc digests calls c).2 := by
  induction calls generalizing c with
  | nil => exact .nil c
  | cons call calls ih => exact .cons h.1 rfl (ih h.2)

theorem run_replay {alloc : Alloc} {digests : Digests} {allowed : Call → Prop} {calls : List Call}
    (h : ∀ call ∈ calls, allowed call) (c : Conn) :
    Run alloc digests (fun _ => allowed) c (replay alloc digests calls c).1
      (replay alloc digests calls c).2 := by
  apply Allowed.run
  induction calls generalizing c with
  | nil => trivial
  | cons call calls ih =>
    obtain ⟨hcall, hmore⟩ := List.forall_mem_cons.mp h
    exact ⟨hcall, ih hmore _⟩

/-- The bytes that were read, and how many of them were parsed. -/
structure SameInput (c c' : Conn) : Prop where
  socket : c'.socket = c.socket
  recv_buff : c'.recv_buff = c.recv_buff
  recv_buff_pos : c'.recv_buff_pos = c.recv_buff_pos
  parsed : c'.parsed = c.parsed

/-- Kept by all that reading a packet does. -/
structure ReadRel (alloc : Alloc) (R : Conn → Conn → Prop) : Prop where
  refill : Keeps R Conn.refill
  execute : Keeps R (Conn.execute alloc)
  same : ∀ c c', SameInput c c' → R c c'

/-- Kept by all that writing a packet does. -/
structure WriteRel (alloc : Alloc) (R : Conn → Conn → Prop) : Prop extends ReadRel alloc R where
  write : ∀ data nwrite, Keeps R (Conn.onSocket (Sock.write data nwrite))
  wait : Keeps R (Conn.onSocket Sock.wait)

/-- Kept by all that a call does to its input and to the socket, but for the
flag that `sslRequestSend` sets. -/
structure CallRel (alloc : Alloc) (R : Conn → Conn → Prop) : Prop extends ReadRel alloc R where
  write : ∀ data nwrite, Keeps R (Conn.onSocket (Sock.write data nwrite))
  wait : Keeps R (Conn.onSocket Sock.wait)
  shutdown : Keeps R (Conn.onSocket Sock.shutdown)
  password : ∀ c password,
    R c { c with socket := { c.socket with opts := { c.socket.opts with password } } }

/-- Kept by what `sslRequestSend` does besides. -/
def FlagsRel (R : Conn → Conn → Prop) : Prop :=
  ∀ c flags, R c { c with socket := { c.socket with opts := { c.socket.opts with flags } } }

section

variable {alloc : Alloc} {R : Conn → Conn → Prop}

theorem CallRel.toWriteRel (h : CallRel alloc R) : WriteRel alloc R :=
  ⟨h.toReadRel, h.write, h.wait⟩

open Conn in
theorem ReadRel.noted (h : ReadRel alloc R) {α : Type} {m : Proc Code Conn α}
    (hm : Keeps Noted m) : Keeps R m :=
  fun c => h.same c _ ⟨(hm c).socket, (hm c).recv_buff, (hm c).recv_buff_pos, (hm c).parsed⟩

namespace Conn

theorem keeps_modify (h : ReadRel alloc R) {f : Conn → Conn} (hf : ∀ c, SameInput c (f c)) :
    Keeps R (modify f : Proc Code Conn PUnit) :=
  fun c => h.same c _ (hf c)

theorem keeps_beginCommandPhase (h : ReadRel alloc R) (seq : UInt8) :
    Keeps R (beginCommandPhase alloc seq) := by
  refine fun c => h.same _ _ ?_
  unfold beginCommandPhase
  split <;> exact ⟨rfl, rfl, rfl, rfl⟩

theorem keeps_build (h : ReadRel alloc R) (builder : Builder) (m : Proc Code Builder Unit) :
    Keeps R (build builder m) := by
  refine fun c => h.same _ _ ?_
  unfold build
  split <;> exact ⟨rfl, rfl, rfl, rfl⟩

theorem keeps_authClearPassword (h : CallRel alloc R) : Keeps R authClearPassword :=
  fun c => h.password c _

variable [IsTrans Conn R]

theorem keeps_readPacket (h : ReadRel alloc R) : Keeps R (readPacket alloc) :=
  .bind h.refill fun _ => h.execute

theorem keeps_readGenericResponse (h : ReadRel alloc R) : Keeps R (readGenericResponse alloc) :=
  .bind (keeps_readPacket h) fun _ => h.noted noted_handleGenericResponse

theorem keeps_readEof (h : ReadRel alloc R) : Keeps R (readEof alloc) :=
  .bind (keeps_readPacket h) fun _ => h.noted noted_readEofPacket

variable [Std.Refl R]

theorem keeps_flushWrites (h : WriteRel alloc R) : Keeps R flushWrites :=
  .bind .get fun _ => .bind (h.write _ _) fun _ =>
    .bind (keeps_modify h.toReadRel fun _ => ⟨rfl, rfl, rfl, rfl⟩) fun _ => .bind .get fun _ =>
    .ite (fun _ => .throw _) fun _ => .pure _

theorem keeps_beginWrite (h : WriteRel alloc R) : Keeps R beginWrite :=
  .bind (keeps_modify h.toReadRel fun _ => ⟨rfl, rfl, rfl, rfl⟩) fun _ => keeps_flushWrites h

theorem keeps_flushPassword (flush : Keeps R flushWrites) (wait : Keeps R (onSocket Sock.wait))
    (turns : Nat) (rc : Except Code Unit) : Keeps R (flushPassword turns rc) := by
  induction turns generalizing rc with
  | zero =>
    rcases rc with rc | _
    · exact .throw _
    · exact .pure _
  | succ turns ih =>
    rcases rc with rc | _
    · cases rc with
      | again =>
        exact .bind wait fun _ => .bind (.attempt flush) ih
      | _ => exact .throw _
    · exact .pure _

theorem keeps_sendPacket (h : WriteRel alloc R) (seq : UInt8) (m : Proc Code Builder Unit) :
    Keeps R (sendPacket alloc seq m) :=
  .bind (keeps_beginCommandPhase h.toReadRel _) fun _ => .bind (keeps_build h.toReadRel _ _) fun _ =>
    keeps_beginWrite h

theorem keeps_sendPacketInSequence (h : WriteRel alloc R) (m : Proc Code Builder Unit) :
    Keeps R (sendPacketInSequence alloc m) :=
  .bind (keeps_beginCommandPhase h.toReadRel _) fun _ => .bind (keeps_build h.toReadRel _ _) fun _ =>
    .bind (keeps_modify h.toReadRel fun _ => ⟨rfl, rfl, rfl, rfl⟩) fun _ => keeps_beginWrite h

theorem keeps_awaitPacket (read : Keeps R (readPacket alloc)) (wait : Keeps R (onSocket Sock.wait))
    (turns : Nat) : Keeps R (awaitPacket alloc turns) := by
  induction turns with
  | zero => exact .throw _
  | succ turns ih =>
    refine .bind (.attempt read) fun rc => ?_
    rcases rc with rc | _
    · cases rc with
      | again => exact .bind wait fun _ => ih
      | _ => exact .throw _
    · exact .pure _

theorem keeps_sendClearPassword (h : WriteRel alloc R) : Keeps R (sendClearPassword alloc) :=
  .bind .get fun _ => .bind (keeps_beginCommandPhase h.toReadRel _) fun _ =>
    .bind (keeps_build h.toReadRel _ _) fun _ => .bind (.attempt (keeps_beginWrite h)) fun _ =>
    .bind .get fun _ => keeps_flushPassword (keeps_flushWrites h) h.wait _ _

theorem noted_readAuthSwitchPacket (packet : AuthSwitchRequestPacket) (handshake : Handshake) :
    Keeps Noted (readAuthSwitchPacket packet handshake) :=
  .bind .get fun _ => .bind (noted_parsePacket _) fun _ => .ite (fun _ => .throw _) fun _ => .pure _

theorem keeps_authRecv (h : CallRel alloc R) (packet : AuthSwitchRequestPacket)
    (handshake : Handshake) : Keeps R (authRecv alloc packet handshake) :=
  .bind (keeps_readPacket h.toReadRel) fun _ => .bind .get fun _ => .ite
    (fun _ => .ite (fun _ => .throw _) fun _ =>
      .bind (.ite (fun _ => .pure _) fun _ => .ite (fun _ => keeps_sendClearPassword h.toWriteRel)
        fun _ => .throw _) fun _ =>
      .bind .get fun _ => .bind (keeps_awaitPacket (keeps_readPacket h.toReadRel) h.wait _) fun _ =>
      .bind (keeps_authClearPassword h) fun _ => .bind (h.noted noted_handleGenericResponse)
        fun _ => .pure _)
    fun _ => .ite (fun _ => .bind (h.noted (noted_readAuthSwitchPacket _ _)) fun _ => .pure _)
    fun _ => .bind (keeps_authClearPassword h) fun _ =>
      .bind (h.noted noted_handleGenericResponse) fun _ => .pure _

theorem keeps_connectRecv (h : ReadRel alloc R) (handshake : Handshake) :
    Keeps R (connectRecv alloc handshake) :=
  .bind (keeps_readPacket h) fun _ => .bind .get fun _ => .ite (fun _ => h.noted noted_readErrPacket)
    fun _ => .bind (h.noted (noted_parsePacket _)) fun _ =>
    .bind (keeps_modify h fun _ => ⟨rfl, rfl, rfl, rfl⟩) fun _ => .pure _

theorem keeps_sslRequestSend (h : WriteRel alloc R) (flags : FlagsRel R) :
    Keeps R (sslRequestSend alloc) :=
  .bind .get fun _ => .bind (keeps_beginCommandPhase h.toReadRel _) fun _ =>
    .bind (fun c => flags c _) fun _ => .bind .get fun _ =>
    .bind (keeps_build h.toReadRel _ _) fun _ => keeps_beginWrite h

theorem keeps_readRow (h : ReadRel alloc R) : Keeps R (readRow alloc) :=
  .bind (.bind .get fun _ => .ite (fun _ => .bind (.when fun _ => keeps_readEof h) fun _ =>
      keeps_modify h fun _ => ⟨rfl, rfl, rfl, rfl⟩) fun _ => .pure _) fun _ =>
    .bind (keeps_readPacket h) fun _ => .bind .get fun _ =>
    .ite (fun _ => .bind (h.noted noted_readEofPacket) fun _ => .throw _) fun _ =>
    .ite (fun _ => h.noted noted_readErrPacket) fun _ => h.noted (noted_parsePacket _)

theorem keeps_drainRows (read : Keeps R (readPacket alloc)) (turns : Nat) :
    Keeps R (drainRows alloc turns) := by
  induction turns with
  | zero => exact .throw _
  | succ turns ih =>
    exact .bind read fun _ => .bind .get fun _ => .ite (fun _ => .pure _) fun _ => ih

theorem keeps_closeRecv (h : CallRel alloc R) : Keeps R (closeRecv alloc) := by
  refine .bind h.shutdown fun _ => .bind (.attempt (keeps_readPacket h.toReadRel)) fun rc => ?_
  rcases rc with rc | _
  · cases rc with
    | closedConnection => exact .pure _
    | _ => exact .throw _
  · exact .throw _

end Conn

open Conn

theorem Call.keeps [Std.Refl R] [IsTrans Conn R] (h : CallRel alloc R) (digests : Digests)
    {call : Call} (same : ¬ call.Attaches) (flags : call = .sslRequestSend → FlagsRel R) :
    Keeps R (call.run alloc digests) := by
  have hr := h.toReadRel
  have hw := h.toWriteRel
  have done : ∀ {m : Proc Code Conn Unit}, Keeps R m → Keeps R (do m; pure Decoded.done) :=
    fun hm => .bind hm fun _ => .pure _
  have map : ∀ {α : Type} {m : Proc Code Conn α} {f : α → Decoded}, Keeps R m →
      Keeps R (f <$> m) := by
    intro α m f hm
    rw [map_eq_pure_bind]
    exact .bind hm fun _ => .pure _
  have write : ∀ {f : Conn → Conn}, (∀ c, SameInput c (f c)) →
      Keeps R (modify f : Proc Code Conn PUnit) := keeps_modify hr
  cases call with
  | connectSend _ _ | connectSendSocket _ => exact absurd trivial same
  | flushWrites => exact done (keeps_flushWrites hw)
  | connectRecv handshake => exact map (keeps_connectRecv hr handshake)
  | sslRequestSend => exact done (keeps_sslRequestSend hw (flags rfl))
  | authSend _ | authSwitchSend _ => exact done (.bind .get fun _ => keeps_sendPacket hw _ _)
  | authRecv packet handshake => exact map (keeps_authRecv h _ _)
  | changeDbSend _ | setOptionSend _ | pingSend | closeSend | stmtPrepareSend _
  | stmtBindDataSend _ _ _ | stmtResetSend _ | stmtCloseSend _ =>
    exact done (keeps_sendPacket hw _ _)
  | querySend _ | stmtExecuteSend _ _ _ => exact done (keeps_sendPacketInSequence hw _)
  | changeDbRecv | pingRecv | stmtResetRecv => exact done (keeps_readGenericResponse hr)
  | setOptionRecv =>
    exact done (.bind (keeps_readPacket hr) fun _ => .bind .get fun _ =>
      .ite (fun _ => h.noted noted_readOkPacket) fun _ =>
      .ite (fun _ => h.noted noted_readErrPacket) fun _ => .throw _)
  | queryRecv | stmtExecuteRecv =>
    exact map (.bind (keeps_readPacket hr) fun _ => .bind .get fun _ =>
      .ite (fun _ => .bind (h.noted noted_readOkPacket) fun _ => .pure _) fun _ =>
      .ite (fun _ => h.noted noted_readErrPacket) fun _ => .bind (h.noted (noted_parsePacket _))
      fun _ => .bind (write fun _ => ⟨rfl, rfl, rfl, rfl⟩) fun _ => .pure _)
  | readColumn => exact map (.bind (keeps_readPacket hr) fun _ => h.noted (noted_parsePacket _))
  | readRow => exact map (keeps_readRow hr)
  | drainResults =>
    exact done (.bind .get fun _ => .bind (.ite (fun _ => .bind (keeps_readEof hr) fun _ =>
      write fun _ => ⟨rfl, rfl, rfl, rfl⟩) fun _ => .pure _) fun _ => .bind .get fun _ =>
      keeps_drainRows (keeps_readPacket hr) _)
  | closeRecv => exact done (keeps_closeRecv h)
  | stmtPrepareRecv =>
    exact map (.bind (keeps_readPacket hr) fun _ => .bind .get fun _ =>
      .ite (fun _ => .bind (h.noted (noted_parsePacket _)) fun _ =>
        .bind (write fun _ => ⟨rfl, rfl, rfl, rfl⟩) fun _ => .pure _) fun _ =>
      .ite (fun _ => h.noted noted_readErrPacket) fun _ => .throw _)
  | stmtReadRow stmt columns values_out =>
    exact map (.bind (keeps_readPacket hr) fun _ => .bind .get fun _ =>
      .ite (fun _ => .bind (h.noted noted_readEofPacket) fun _ => .throw _) fun _ =>
      .ite (fun _ => h.noted noted_readErrPacket) fun _ => h.noted (noted_parsePacket _))

end

/-- Kept by all that a call does to the socket. -/
structure SockRel (P : Sock → Sock → Prop) : Prop where
  read : ∀ n, Keeps P (Sock.read n)
  write : ∀ data nwrite, Keeps P (Sock.write data nwrite)
  wait : Keeps P Sock.wait
  shutdown : Keeps P Sock.shutdown
  password : ∀ sock password, P sock { sock with opts := { sock.opts with password } }

/-- A relation of sockets, on connections. -/
def OnSock (P : Sock → Sock → Prop) (c c' : Conn) : Prop := P c.socket c'.socket

section

variable {P : Sock → Sock → Prop}

instance [Std.Refl P] : Std.Refl (OnSock P) := ⟨fun c => Std.Refl.refl c.socket⟩

instance [IsTrans Sock P] : IsTrans Conn (OnSock P) :=
  ⟨fun _ _ _ h h' => @IsTrans.trans Sock P _ _ _ _ h h'⟩

variable [Std.Refl P] [IsTrans Sock P]

theorem execute_socket (alloc : Alloc) (c : Conn) :
    (Conn.execute alloc c).2.socket = c.socket := by
  unfold Conn.execute
  simp only
  split
  · rfl
  · split <;> rfl

theorem onSock_readRel (alloc : Alloc) (read : ∀ n, Keeps P (Sock.read n)) :
    ReadRel alloc (OnSock P) where
  refill := .bind .get fun _ => .ite
    (fun _ => .bind (fun c => read _ c.socket) fun _ => .ite (fun _ => .throw _) fun _ =>
      .modify fun c => Std.Refl.refl c.socket)
    fun _ => .pure _
  execute c := by
    rw [OnSock, execute_socket]
    exact Std.Refl.refl _
  same c c' hc := by
    rw [OnSock, hc.socket]
    exact Std.Refl.refl _

theorem onSock_writeRel (alloc : Alloc) (read : ∀ n, Keeps P (Sock.read n))
    (write : ∀ data nwrite, Keeps P (Sock.write data nwrite)) (wait : Keeps P Sock.wait) :
    WriteRel alloc (OnSock P) where
  toReadRel := onSock_readRel alloc read
  write data nwrite c := write data nwrite c.socket
  wait c := wait c.socket

theorem SockRel.callRel (alloc : Alloc) (h : SockRel P) : CallRel alloc (OnSock P) where
  toReadRel := (onSock_writeRel alloc h.read h.write h.wait).toReadRel
  write data nwrite c := h.write data nwrite c.socket
  wait c := h.wait c.socket
  shutdown c := h.shutdown c.socket
  password c password := h.password c.socket password

end

end Trilogy
