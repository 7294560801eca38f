import Mathlib.Data.List.TakeDrop
import Trilogy.Blocking
import Trilogy.Sequence

/-! `begin_write` offers a packet to the socket, which takes as much of it as it
likes; `trilogy_flush_writes` goes on from there. The cursor
`packet_buffer_written` is all that carries over from one call to the next. -/
namespace Trilogy

open Lib Proc Builder

/-- A packet that goes out: by one of the functions that send, or on the way
through `trilogy_auth_recv`. -/
inductive Outgoing
  | request (r : Request)
  | clearPassword
  | close
  | stmtBindData (stmt : StmtOkPacket) (param_num : UInt16) (data : List UInt8)
  | stmtClose (stmt : StmtOkPacket)

namespace Outgoing

section

variable (alloc : Alloc) (digests : Digests)

/-- For the clear password, what comes before the loop. -/
def send : Outgoing → Proc Code Conn Unit
  | request r => r.send alloc digests
  | clearPassword => do
    let conn ← get
    Conn.sendPacket alloc conn.packetParser.sequence_number
      (buildAuthClearPassword alloc conn.socket.opts.password)
  | close => Conn.closeSend alloc
  | stmtBindData stmt param_num data => Conn.stmtBindDataSend alloc stmt param_num data
  | stmtClose stmt => Conn.stmtCloseSend alloc stmt

/-- The loop around it: of `trilogy_auth_recv`, or of `blocking.c`. -/
def sendWhole : Outgoing → Proc Code Conn Unit
  | clearPassword => Conn.sendClearPassword alloc
  | o => Conn.sendFull (o.send alloc digests)

def seq (conn : Conn) : Outgoing → UInt8
  | request r => r.seq conn
  | clearPassword => conn.packetParser.sequence_number
  | _ => 0

/-- How the packet is built. -/
def packet (conn : Conn) : Outgoing → Proc Code Builder Unit
  | request r => r.packet alloc digests conn
  | clearPassword => buildAuthClearPassword alloc conn.socket.opts.password
  | close => buildQuitPacket alloc
  | stmtBindData stmt param_num data => buildStmtBindDataPacket alloc stmt.id param_num data
  | stmtClose stmt => buildStmtClosePacket alloc stmt.id

def payload (conn : Conn) : Outgoing → List UInt8
  | request r => r.payload digests conn
  | clearPassword => conn.socket.opts.password ++ [0]
  | close => [Cmd.quit]
  | stmtBindData stmt param_num data =>
    Cmd.stmtSendLongData :: (leBytes 4 stmt.id.toNat ++ leBytes 2 param_num.toNat ++ data)
  | stmtClose stmt => Cmd.stmtClose :: leBytes 4 stmt.id.toNat

end

theorem finalizes_packet (alloc : Alloc) (digests : Digests) (conn : Conn) (o : Outgoing) :
    Finalizes (o.packet alloc digests conn) (o.payload digests conn) := by
  cases o with
  | request r => exact r.finalizes_packet alloc digests conn
  | clearPassword =>
    refine .of_eq (.bind (appends_writeBuffer _ _) (.bind (appends_writeUint8 _ _) .finalize)) ?_
    simp [payload]
  | close => exact .bind (appends_writeUint8 _ _) .finalize
  | stmtBindData stmt param_num data =>
    refine .of_eq (.bind (appends_writeUint8 _ _) (.bind (appends_writeUint32 _ _)
      (.bind (appends_writeUint16 _ _) (.bind (appends_writeBuffer _ _) .finalize)))) ?_
    simp [payload]
  | stmtClose stmt => exact finalizes_command alloc _ (appends_writeUint32 alloc stmt.id)

end Outgoing

/-- `r` is what the last call returned. Since `c`, the socket has taken the bytes
of `packet` up to the cursor, in these pieces, and all of them if that was
`TRILOGY_OK`; a call after it would have nothing to offer. -/
structure Partway (c : Conn) (packet : Buffer) (r : Except Code Unit) (c' : Conn) : Prop where
  packet_buffer : c'.packet_buffer = packet
  written_le : c'.packet_buffer_written ≤ packet.len
  pieces : ∃ pieces, c'.socket.sent = c.socket.sent ++ pieces ∧
    pieces.flatMap Prod.snd = packet.bytes.take c'.packet_buffer_written ∧
    (r = .ok () ↔ pieces.flatMap Prod.snd = packet.bytes)
  offers : r = .ok () → sizeSub c'.packet_buffer.len c'.packet_buffer_written = 0

/-- The calls that get a packet out: `send`, and as long as they return
`TRILOGY_AGAIN`, flushes and waits in any order. -/
inductive Flushing (send : Proc Code Conn Unit) (c : Conn) : Except Code Unit → Conn → Prop
  | send : Flushing send c (send c).1 (send c).2
  | wait {c'} : Flushing send c (.error .again) c' →
      Flushing send c (.error .again) (Conn.onSocket Sock.wait c').2
  | flush {c'} : Flushing send c (.error .again) c' →
      Flushing send c (Conn.flushWrites c').1 (Conn.flushWrites c').2

theorem Flushing.waited {send : Proc Code Conn Unit} {c c₁ c₂ : Conn} {r : Except Code Unit}
    (run : Flushing send c (.error .again) c₁) (h : Conn.onSocket Sock.wait c₁ = (r, c₂)) :
    Flushing send c (.error .again) c₂ := by
  have hrun := run.wait
  rwa [h] at hrun

/-- A write takes a first part of what it is offered, or nothing. -/
theorem sockWrite_takes (data : List UInt8) (sock : Sock) :
    (∃ n ≤ data.length, ∃ channel, (Sock.write data data.length sock).1 = .ok n ∧
      (Sock.write data data.length sock).2.sent = sock.sent ++ [(channel, data.take n)]) ∨
    ∃ rc, (Sock.write data data.length sock).1 = .error rc ∧
      (Sock.write data data.length sock).2.sent = sock.sent := by
  unfold Sock.write Sock.rawWrite Sock.sslWrite
  split
  · split
    · exact .inr ⟨_, rfl, rfl⟩
    · exact .inr ⟨_, rfl, rfl⟩
    · exact .inl ⟨_, Nat.min_le_right _ _, _, rfl, rfl⟩
  · split
    · exact .inr ⟨_, rfl, rfl⟩
    · exact .inr ⟨_, rfl, rfl⟩
    · exact .inl ⟨_, Nat.min_le_right _ _, _, rfl, rfl⟩
  · exact .inr ⟨_, rfl, rfl⟩

theorem sockWait_sent (sock : Sock) : (Sock.wait sock).2.sent = sock.sent := by
  unfold Sock.wait
  split
  · rfl
  · split <;> rfl

namespace Conn

variable {alloc : Alloc} {digests : Digests} {c c' c₁ : Conn} {packet : Buffer}

/-- What one call of `trilogy_flush_writes` does, by what the socket answers. -/
theorem flushWrites_cases (h : c.packet_buffer_written ≤ c.packet_buffer.len) :
    (∃ n ≤ (c.packet_buffer.bytes.drop c.packet_buffer_written).length, ∃ channel socket,
      flushWrites c =
        (if c.packet_buffer_written + n < c.packet_buffer.len then .error .again else .ok (),
          { c with socket, packet_buffer_written := c.packet_buffer_written + n }) ∧
      socket.sent = c.socket.sent ++
        [(channel, (c.packet_buffer.bytes.drop c.packet_buffer_written).take n)]) ∨
    ∃ rc socket, flushWrites c = (.error rc, { c with socket }) ∧ socket.sent = c.socket.sent := by
  have hwritten := write_unwritten h
  obtain ⟨n, hn, channel, hok, hsent⟩ | ⟨rc, herr, hsent⟩ :=
    sockWrite_takes (c.packet_buffer.bytes.drop c.packet_buffer_written) c.socket
  · left
    refine ⟨n, hn, channel, _, ?_, hsent⟩
    rw [flushWrites, get_bind, bind_of_ok (by rw [hwritten, onSocket, zoom_apply, hok]), modify_bind,
      get_bind]
    split <;> rfl
  · right
    refine ⟨rc, _, ?_, hsent⟩
    rw [flushWrites, get_bind, bind_of_error (by rw [hwritten, onSocket, zoom_apply, herr])]

theorem partway_flushWrites (h : Partway c packet (.error .again) c') :
    Partway c packet (flushWrites c').1 (flushWrites c').2 := by
  obtain ⟨rfl, hle, ⟨pieces, hsent, htaken, hmore⟩, -⟩ := h
  have hmore : pieces.flatMap Prod.snd ≠ c'.packet_buffer.bytes := fun hall => by
    cases hmore.mpr hall
  obtain ⟨n, hn, channel, socket, he, hs⟩ | ⟨rc, socket, he, hs⟩ := flushWrites_cases hle
  · rw [List.length_drop] at hn
    have htaken' : (pieces ++ [(channel,
        (c'.packet_buffer.bytes.drop c'.packet_buffer_written).take n)]).flatMap Prod.snd =
        c'.packet_buffer.bytes.take (c'.packet_buffer_written + n) := by
      rw [List.flatMap_append, htaken, List.flatMap_singleton, List.take_add]
    have hwhole : c'.packet_buffer.bytes.take (c'.packet_buffer_written + n) =
        c'.packet_buffer.bytes ↔ ¬ c'.packet_buffer_written + n < c'.packet_buffer.len := by
      rw [List.take_eq_self_iff, Nat.not_lt, Buffer.len]
    have hok : (if c'.packet_buffer_written + n < c'.packet_buffer.len then
        (.error .again : Except Code Unit) else .ok ()) = .ok () ↔
        ¬ c'.packet_buffer_written + n < c'.packet_buffer.len := by
      split
      · rename_i hlt
        simp only [hlt, not_true, reduceCtorEq]
      · rename_i hge
        simp only [hge, not_false_eq_true]
    rw [he]
    constructor
    · rfl
    · unfold Buffer.len at hle ⊢
      dsimp only
      omega
    · refine ⟨_, by rw [hs, hsent, List.append_assoc], htaken', ?_⟩
      rw [htaken', hwhole]
      exact hok
    · intro hr
      have hall := Nat.not_lt.mp (hok.mp hr)
      have hthere : c'.packet_buffer_written + n ≤ c'.packet_buffer.len := by
        unfold Buffer.len at hle ⊢
        omega
      exact (sizeSub_of_le hthere).trans (Nat.sub_eq_zero_of_le hall)
  · rw [he]
    constructor
    · rfl
    · exact hle
    · exact ⟨pieces, by rw [hs, hsent], htaken, by simp [hmore]⟩
    · intro hr
      cases hr

theorem partway_wait (h : Partway c packet (.error .again) c') :
    Partway c packet (.error .again) (onSocket Sock.wait c').2 := by
  obtain ⟨hbuffer, hle, ⟨pieces, hsent, htaken, hmore⟩, -⟩ := h
  constructor
  · exact hbuffer
  · exact hle
  · exact ⟨pieces, (sockWait_sent _).trans hsent, htaken, hmore⟩
  · intro hr
    cases hr

/-- A packet has a header, so there is something to write at first. -/
theorem partway_beginWrite (hsent : c'.socket.sent = c.socket.sent)
    (pos : c'.packet_buffer.bytes ≠ []) :
    Partway c c'.packet_buffer (beginWrite c').1 (beginWrite c').2 := by
  rw [beginWrite, modify_bind]
  apply partway_flushWrites
  constructor
  · rfl
  · exact Nat.zero_le _
  · refine ⟨[], by rw [hsent, List.append_nil], rfl, ?_⟩
    constructor
    · intro hr
      cases hr
    · intro hnil
      exact absurd hnil.symm pos
  · intro hr
    cases hr

/-- Once its packet is built, every function that sends is `begin_write`. -/
theorem send_begins {o : Outgoing} {builder builder' : Builder}
    (hbegin : beginCommandPhase alloc (o.seq c) c = (.ok builder, c₁))
    (hbuild : o.packet alloc digests c builder = (.ok (), builder')) :
    ∃ c₀, o.send alloc digests c = beginWrite c₀ ∧ c₀.packet_buffer = builder'.buffer ∧
      c₀.socket.sent = c.socket.sent := by
  obtain ⟨-, rfl⟩ := beginCommandPhase_ok hbegin
  have hsend : sendPacket alloc (o.seq c) (o.packet alloc digests c) c = beginWrite
      { c with
        packet_buffer := builder'.buffer
        packetParser := { c.packetParser with sequence_number := o.seq c + 1 } } := by
    rw [sendPacket, bind_of_ok hbegin, bind_of_ok (build_of_ok hbuild _)]
  cases o with
  | request r =>
    cases r with
    | query _ | stmtExecute _ _ _ _ | sslRequest =>
      exact ⟨_, (bind_of_ok hbegin).trans (bind_of_ok (build_of_ok hbuild _)), rfl, rfl⟩
    | auth _ | authSwitch _ | changeDb _ | setOption _ | ping | stmtPrepare _ | stmtReset _ =>
      exact ⟨_, hsend, rfl, rfl⟩
  | clearPassword | close | stmtBindData _ _ _ | stmtClose _ => exact ⟨_, hsend, rfl, rfl⟩

theorem built_ne_nil {o : Outgoing} {builder builder' : Builder}
    (hbegin : beginCommandPhase alloc (o.seq c) c = (.ok builder, c₁))
    (hbuild : o.packet alloc digests c builder = (.ok (), builder')) :
    builder'.buffer.bytes ≠ [] := by
  obtain ⟨hbuilding, -⟩ := beginCommandPhase_ok hbegin
  obtain ⟨hbytes, -⟩ := o.finalizes_packet alloc digests c hbuilding hbuild
  rw [hbytes, frames]
  split <;> simp [header]

section

variable {send : Proc Code Conn Unit} {rc r : Except Code Unit}

theorem flushing_flushPassword {turns : Nat} (run : Flushing send c rc c₁)
    (h : flushPassword turns rc c₁ = (r, c')) :
    ∃ r', Flushing send c r' c' ∧ (r = .ok () ↔ r' = .ok ()) := by
  induction turns generalizing rc c₁ with
  | zero =>
    cases rc with
    | ok _ =>
      cases h
      exact ⟨_, run, Iff.rfl⟩
    | error rc =>
      have hr : r = .error rc ∧ c' = c₁ := by
        cases rc <;> (cases h; exact ⟨rfl, rfl⟩)
      obtain ⟨rfl, rfl⟩ := hr
      exact ⟨_, run, Iff.rfl⟩
  | succ turns ih =>
    cases rc with
    | ok _ =>
      cases h
      exact ⟨_, run, Iff.rfl⟩
    | error rc =>
      cases rc with
      | again =>
        rw [flushPassword, bind_apply] at h
        rcases hwait : onSocket Sock.wait c₁ with ⟨rc | _, c₂⟩
        · rw [hwait] at h
          cases h
          exact ⟨_, run.waited hwait, by simp⟩
        · rw [hwait] at h
          exact ih (run.waited hwait).flush h
      | _ =>
        cases h
        exact ⟨_, run, Iff.rfl⟩

theorem flushing_flushFull {turns : Nat} (run : Flushing send c (.error .again) c₁)
    (h : flushFull turns c₁ = (r, c')) :
    ∃ r', Flushing send c r' c' ∧ (r = .ok () ↔ r' = .ok ()) := by
  induction turns generalizing c₁ with
  | zero =>
    cases h
    exact ⟨_, run, by simp⟩
  | succ turns ih =>
    rw [flushFull, bind_apply] at h
    rcases hwait : onSocket Sock.wait c₁ with ⟨rc | _, c₂⟩
    · rw [hwait] at h
      cases h
      exact ⟨_, run.waited hwait, by simp⟩
    · rw [hwait] at h
      have hflush := (run.waited hwait).flush
      rcases e : flushWrites c₂ with ⟨rc | _, c₃⟩
      · simp only [attempt_bind, e] at h hflush
        cases rc with
        | again => exact ih hflush h
        | _ =>
          cases h
          exact ⟨_, hflush, by simp⟩
      · simp only [attempt_bind, e] at h hflush
        cases h
        exact ⟨_, hflush, Iff.rfl⟩

theorem flushing_sendFull (h : sendFull send c = (r, c')) :
    ∃ r', Flushing send c r' c' ∧ (r = .ok () ↔ r' = .ok ()) := by
  have first : Flushing send c (send c).1 (send c).2 := .send
  rw [sendFull, attempt_bind] at h
  rcases e : send c with ⟨rc | _, c₁⟩
  · simp only [e] at h first
    cases rc with
    | again => exact flushing_flushFull first h
    | _ =>
      cases h
      exact ⟨_, first, by simp⟩
  · simp only [e] at h first
    cases h
    exact ⟨_, first, Iff.rfl⟩

theorem flushing_sendWhole {o : Outgoing} {builder builder' : Builder}
    (hbegin : beginCommandPhase alloc (o.seq c) c = (.ok builder, c₁))
    (hbuild : o.packet alloc digests c builder = (.ok (), builder'))
    (h : o.sendWhole alloc digests c = (r, c')) :
    ∃ r', Flushing (o.send alloc digests) c r' c' ∧ (r = .ok () ↔ r' = .ok ()) := by
  cases o with
  | clearPassword =>
    have hsend : Outgoing.clearPassword.send alloc digests c =
        beginWrite { c₁ with packet_buffer := builder'.buffer } :=
      (bind_of_ok hbegin).trans (bind_of_ok (build_of_ok hbuild _))
    have hwhole : sendClearPassword alloc c = _ :=
      (bind_of_ok hbegin).trans (bind_of_ok (build_of_ok hbuild _))
    have first : Flushing (Outgoing.clearPassword.send alloc digests) c _ _ := .send
    rw [hsend] at first
    rw [Outgoing.sendWhole, hwhole, attempt_bind, get_bind] at h
    exact flushing_flushPassword first h
  | request _ | close | stmtBindData _ _ _ | stmtClose _ => exact flushing_sendFull h

end

/-- However the socket cuts a packet up, and however often it has to be asked,
what it has taken of it is the part up to the cursor, and with `TRILOGY_OK` all
of it. The loops make no other calls than these. -/
theorem flushing_loses_nothing {o : Outgoing} {builder builder' : Builder}
    (hbegin : beginCommandPhase alloc (o.seq c) c = (.ok builder, c₁))
    (hbuild : o.packet alloc digests c builder = (.ok (), builder')) :
    (∀ r c', Flushing (o.send alloc digests) c r c' → Partway c builder'.buffer r c') ∧
      ∀ r c', o.sendWhole alloc digests c = (r, c') →
        ∃ r', Flushing (o.send alloc digests) c r' c' ∧ (r = .ok () ↔ r' = .ok ()) := by
  constructor
  · intro r c' run
    induction run with
    | send =>
      obtain ⟨c₀, hsend, hbuffer, hsent⟩ := send_begins hbegin hbuild
      rw [hsend, ← hbuffer]
      apply partway_beginWrite hsent
      rw [hbuffer]
      exact built_ne_nil hbegin hbuild
    | wait _ ih => exact partway_wait ih
    | flush _ ih => exact partway_flushWrites ih
  · intro r c' h
    exact flushing_sendWhole hbegin hbuild h

open Outgoing in
theorem flushing_loses_nothing_ping :
    let c := Conn.init { idleSock with net := { idleSock.net with
      raw_writes := [.wrote 2, .failed .eintr, .wrote 0, .wrote 8]
      polls := [true, true, true] } }
    let c' := ((request .ping).sendWhole (fun _ => true) noDigests c).2
    (∃ packet, Partway c packet (.ok ()) c') ∧
      c'.socket.sent = [(.plain, [1, 0]), (.plain, []), (.plain, [0, 0, Cmd.ping])] := by
  intro c c'
  have hbegin : beginCommandPhase (fun _ => true) 0 c =
      (.ok ((Builder.init (fun _ => true) c.packet_buffer 0).2),
        (beginCommandPhase (fun _ => true) 0 c).2) := by
    decide +kernel
  have hbuild := Proc.ends (m := buildPingPacket (fun _ => true))
    (s := (Builder.init (fun _ => true) c.packet_buffer 0).2) (r := .ok ()) (by decide +kernel)
  have hends : (request .ping).sendWhole (fun _ => true) noDigests c = (.ok (), c') :=
    Proc.ends (by decide +kernel)
  obtain ⟨hpartway, hloops⟩ :=
    @flushing_loses_nothing (fun _ => true) noDigests _ _ (request .ping) _ _ hbegin hbuild
  obtain ⟨r', run, hok⟩ := hloops _ _ hends
  obtain rfl := hok.mp rfl
  exact ⟨⟨_, hpartway _ _ run⟩, by decide +kernel⟩

end Conn

end Trilogy
