import Trilogy.Calls
import Trilogy.Sequence

/-! `trilogy_sock_shutdown` swaps the callbacks of the socket, so that nothing is
read or written any more. What `recv_buff` still holds is parsed all the same:
a connection yields nothing as long as no packet is complete in there. -/
namespace Trilogy

open Lib Proc

/-- The codes with which reading a packet fails. -/
def ReadFault (rc : Code) : Prop :=
  rc = .again ∨ rc = .closedConnection ∨ rc = .invalidSequenceId ∨ rc = .typeOverflow ∨
    rc = .syserr ∨ rc = .opensslErr

instance (rc : Code) : Decidable (ReadFault rc) := by
  unfold ReadFault
  infer_instance

namespace PacketParser

/-- What the callbacks of the client and the parser itself can stop a call with. -/
def Stop (e : Int) : Prop :=
  e = 0 ∨ e = 1 ∨ e = Code.invalidSequenceId.toInt ∨ e = Code.typeOverflow.toInt ∨
    e = Code.syserr.toInt

theorem stop_zero : Stop 0 := .inl rfl

theorem stop_one : Stop 1 := .inr (.inl rfl)

theorem stop_endOfPayload (alloc : Alloc) (p : PacketParser) (b : Buffer) (k : Nat) :
    Stop (endOfPayload (packetParserCallbacks alloc) p b k).error := by
  rw [endOfPayload_eq]
  cases p.fragment
  · exact stop_one
  · exact stop_zero

theorem stop_onPacketData (alloc : Alloc) (b : Buffer) (data : List UInt8) :
    Stop (onPacketData alloc b data).1 := by
  unfold onPacketData
  split
  · rename_i rc b' h
    rcases Buffer.expand_error h with rfl | rfl
    · exact .inr (.inr (.inr (.inl rfl)))
    · exact .inr (.inr (.inr (.inr rfl)))
  · exact stop_zero

theorem stop_turn (alloc : Alloc) (p : PacketParser) (b : Buffer) (x : UInt8) (rest : List UInt8) :
    Stop (turn (packetParserCallbacks alloc) p b x rest).error := by
  unfold turn
  cases p.state with
  | len0 | len1 => exact stop_zero
  | len2 =>
    simp only
    split
    · exact stop_zero
    · exact stop_zero
  | seq =>
    simp only
    split
    · exact .inr (.inr (.inl rfl))
    · split
      · exact stop_endOfPayload _ _ _ _
      · exact stop_zero
  | payload =>
    simp only
    split
    · exact stop_onPacketData alloc b _
    · split
      · exact stop_endOfPayload _ _ _ _
      · exact stop_zero

theorem stop_loop (alloc : Alloc) (turns : Nat) (p : PacketParser) (b : Buffer)
    (input : List UInt8) : Stop (loop (packetParserCallbacks alloc) turns p b input).error := by
  induction turns generalizing p b input with
  | zero => exact stop_zero
  | succ turns ih =>
    cases input with
    | nil => exact stop_zero
    | cons x rest =>
      rw [loop]
      split
      · exact stop_turn alloc p b x rest
      · exact ih _ _ _

theorem stop_execute (alloc : Alloc) (p : PacketParser) (b : Buffer) (input : List UInt8) :
    Stop (execute (packetParserCallbacks alloc) p b input).error := by
  unfold execute
  split
  · exact stop_one
  · exact stop_loop alloc _ _ _ _

end PacketParser

namespace Conn

variable {alloc : Alloc} {c c' : Conn} {rc : Code}

theorem execute_fault (h : execute alloc c = (.error rc, c')) : ReadFault rc := by
  have hstop := PacketParser.stop_execute alloc c.packetParser c.packet_buffer c.unread
  unfold execute at h
  simp only at h
  split at h
  · rename_i hneg
    cases h
    rcases hstop with he | he | he | he | he
    · exact absurd (he ▸ hneg) (by decide)
    · exact absurd (he ▸ hneg) (by decide)
    all_goals
      rw [he]
      decide
  · split at h
    · cases h
    · cases h
      decide

theorem sockRead_fault {n : Nat} {sock sock' : Sock} (h : Sock.read n sock = (.error rc, sock')) :
    ReadFault rc := by
  unfold Sock.read at h
  split at h
  · unfold Sock.rawRead at h
    split at h
    · cases h
      decide
    · rename_i e _ _
      cases h
      cases e <;> decide
    · cases h
  · unfold Sock.sslRead at h
    split at h
    · cases h
      decide
    · rename_i e _ _
      cases h
      rcases e with _ | _ | _ | ⟨_ | _, _ | _⟩ | _ <;> decide
    · cases h
  · cases h
    decide

theorem refill_fault (h : refill c = (.error rc, c')) : ReadFault rc := by
  rw [refill, get_bind] at h
  split at h
  · rcases bind_error.mp h with h | ⟨bytes, c₁, -, h⟩
    · rcases hread : Sock.read defaultBufSize c.socket with ⟨e | bytes, sock⟩
      · rw [onSocket, zoom_apply, hread] at h
        cases h
        exact sockRead_fault hread
      · rw [onSocket, zoom_apply, hread] at h
        cases h
    · split at h
      · cases h
        decide
      · cases h
  · cases h

theorem readPacket_fault (h : readPacket alloc c = (.error rc, c')) : ReadFault rc := by
  rcases bind_error.mp h with h | ⟨_, c₁, -, h⟩
  · exact refill_fault h
  · exact execute_fault h

/-- The bytes that were read and not parsed yet complete a packet. -/
def Buffered (alloc : Alloc) (c : Conn) : Prop :=
  c.recv_buff_pos ≠ c.recv_buff.length ∧ 0 <
    (PacketParser.execute (packetParserCallbacks alloc) c.packetParser c.packet_buffer
      c.unread).error

/-- A call to read a packet fails, on a socket that was shut down. -/
theorem readPacket_shutdown (hio : c.socket.io = .shutdown) (hb : ¬ Buffered alloc c) :
    ∃ rc c', readPacket alloc c = (.error rc, c') ∧ ReadFault rc := by
  rcases h : readPacket alloc c with ⟨rc | _, c'⟩
  · exact ⟨rc, c', rfl, readPacket_fault h⟩
  · exfalso
    obtain ⟨_, c₁, hrefill, hexecute⟩ := bind_ok.mp h
    rw [refill, get_bind] at hrefill
    split at hrefill
    · obtain ⟨bytes, c₂, hread, -⟩ := bind_ok.mp hrefill
      rw [onSocket, zoom_apply, Sock.read, hio] at hread
      cases hread
    · rename_i hpos
      cases hrefill
      unfold execute at hexecute
      simp only at hexecute
      split at hexecute
      · cases hexecute
      · split at hexecute
        · exact hb ⟨hpos, ‹_›⟩
        · cases hexecute

theorem readPacket_bind_shutdown {α : Type} {f : Unit → Proc Code Conn α}
    (hio : c.socket.io = .shutdown) (hb : ¬ Buffered alloc c) :
    ∃ rc c', (readPacket alloc >>= f) c = (.error rc, c') ∧ ReadFault rc := by
  obtain ⟨rc, c', h, hfault⟩ := readPacket_shutdown hio hb
  exact ⟨rc, c', bind_of_error h, hfault⟩

/-- Between the columns and the rows: the first part may have nothing to read. -/
theorem readRow_shutdown (hio : c.socket.io = .shutdown) (hb : ¬ Buffered alloc c) :
    ∃ rc c', readRow alloc c = (.error rc, c') ∧ ReadFault rc := by
  rcases hbegin : beginRows alloc c with ⟨rc | _, c₁⟩
  · refine ⟨rc, c₁, bind_of_error hbegin, ?_⟩
    rw [beginRows, get_bind] at hbegin
    split at hbegin
    · rcases bind_error.mp hbegin with h | ⟨_, _, -, h⟩
      · unfold Proc.when at h
        split at h
        · obtain ⟨rc', c₂, hread, hfault⟩ :=
            readPacket_bind_shutdown (f := fun _ => readEofPacket) hio hb
          rw [readEof, hread] at h
          cases h
          exact hfault
        · cases h
      · cases h
    · cases hbegin
  · have hsame : c₁.socket.io = .shutdown ∧ ¬ Buffered alloc c₁ := by
      rw [beginRows, get_bind] at hbegin
      split at hbegin
      · obtain ⟨_, c₂, hwhen, hset⟩ := bind_ok.mp hbegin
        unfold Proc.when at hwhen
        split at hwhen
        · obtain ⟨rc', c₂, hread, -⟩ :=
            readPacket_bind_shutdown (f := fun _ => readEofPacket) hio hb
          rw [readEof, hread] at hwhen
          cases hwhen
        · cases hwhen
          cases hset
          exact ⟨hio, hb⟩
      · cases hbegin
        exact ⟨hio, hb⟩
    rw [readRow, bind_of_ok hbegin]
    exact readPacket_bind_shutdown hsame.1 hsame.2

theorem drainResults_shutdown (hio : c.socket.io = .shutdown) (hb : ¬ Buffered alloc c) :
    ∃ rc c', drainResults alloc c = (.error rc, c') ∧ ReadFault rc := by
  rw [drainResults, get_bind]
  split
  · obtain ⟨rc, c', h, hfault⟩ := readPacket_bind_shutdown (f := fun _ => readEofPacket) hio hb
    exact ⟨rc, c', bind_of_error (bind_of_error h), hfault⟩
  · exact readPacket_bind_shutdown hio hb

theorem closeRecv_shutdown (hb : ¬ Buffered alloc c) :
    (closeRecv alloc c).1 = .ok () ∨ ∃ rc, (closeRecv alloc c).1 = .error rc ∧ ReadFault rc := by
  obtain ⟨rc, c', h, hfault⟩ := @readPacket_shutdown alloc
    { c with socket := { c.socket with io := .shutdown } } rfl hb
  have hshut : onSocket Sock.shutdown c =
      (.ok (), { c with socket := { c.socket with io := .shutdown } }) := rfl
  rw [closeRecv, bind_of_ok hshut, attempt_bind, h]
  cases rc with
  | closedConnection => exact .inl rfl
  | _ => exact .inr ⟨_, rfl, hfault⟩

end Conn

/-- A call that waits for a packet gets none; closing reports just that. -/
def YieldsNothing (call : Call) (r : Except Code Decoded) : Prop :=
  call.Receives → (call = .closeRecv ∧ r = .ok .done) ∨
    ∃ rc, r = .error rc ∧ ReadFault rc

/-- Nothing has crossed the wire, in either direction. -/
def Silent (sock sock' : Sock) : Prop :=
  sock.io = .shutdown → sock' = { sock with opts := sock'.opts }

instance : Std.Refl Silent := ⟨fun _ _ => rfl⟩

instance : IsTrans Sock Silent where
  trans a b d hab hbd hio := by
    have hb := hab hio
    have hd := hbd (by rw [hb]; exact hio)
    rw [hd, hb]

theorem silent : SockRel Silent where
  read n sock hio := by
    have h : Sock.read n sock = (.error .closedConnection, sock) := by simp only [Sock.read, hio]
    rw [h]
  write data nwrite sock hio := by
    have h : Sock.write data nwrite sock = (.error .closedConnection, sock) := by
      simp only [Sock.write, hio]
    rw [h]
  wait sock hio := by
    have h : Sock.wait sock = (.ok (), sock) := by simp only [Sock.wait, hio]
    rw [h]
  shutdown sock hio := by
    rw [Sock.shutdown, modify_apply, ← hio]
  password sock password _ := rfl

open Conn in
theorem Call.yieldsNothing {alloc : Alloc} {digests : Digests} {c : Conn} (call : Call)
    (hio : c.socket.io = .shutdown) (hb : call.Receives → ¬ Buffered alloc c) :
    YieldsNothing call (call.run alloc digests c).1 := by
  intro hrecv
  replace hb := hb hrecv
  have fails : ∀ {α : Type} {m : Proc Code Conn α} {f : α → Proc Code Conn Decoded},
      (∃ rc c', m c = (.error rc, c') ∧ ReadFault rc) →
      ∃ rc, ((m >>= f) c).1 = .error rc ∧ ReadFault rc := by
    rintro α m f ⟨rc, c', h, hfault⟩
    exact ⟨rc, by rw [bind_of_error h], hfault⟩
  have maps : ∀ {α : Type} {m : Proc Code Conn α} {f : α → Decoded},
      (∃ rc c', m c = (.error rc, c') ∧ ReadFault rc) →
      ∃ rc, ((f <$> m) c).1 = .error rc ∧ ReadFault rc := by
    intro α m f h
    rw [map_eq_pure_bind]
    exact fails h
  cases call with
  | flushWrites | connectSend _ _ | connectSendSocket _ | sslRequestSend | authSend _
  | authSwitchSend _ | changeDbSend _ | setOptionSend _ | pingSend | querySend _ | closeSend
  | stmtPrepareSend _ | stmtBindDataSend _ _ _ | stmtExecuteSend _ _ _ | stmtResetSend _
  | stmtCloseSend _ => exact absurd hrecv id
  | connectRecv _ | authRecv _ _ | queryRecv | readColumn | stmtPrepareRecv | stmtExecuteRecv
  | stmtReadRow _ _ _ => exact .inr (maps (readPacket_bind_shutdown hio hb))
  | changeDbRecv | setOptionRecv | pingRecv | stmtResetRecv =>
    exact .inr (fails (readPacket_bind_shutdown hio hb))
  | readRow => exact .inr (maps (readRow_shutdown hio hb))
  | drainResults => exact .inr (fails (drainResults_shutdown hio hb))
  | closeRecv =>
    rcases closeRecv_shutdown hb with h | ⟨rc, h, hfault⟩
    · exact .inl ⟨rfl, by rw [run, bind_of_ok (ends h)]; rfl⟩
    · exact .inr ⟨rc, by rw [run, bind_of_error (ends h)], hfault⟩

/-- The calls that attach no other socket and, where they wait for a packet,
are not made while one is left in `recv_buff`. -/
def Exhausted (alloc : Alloc) (c : Conn) (call : Call) : Prop :=
  ¬ call.Attaches ∧ (call.Receives → ¬ c.Buffered alloc)

theorem run_shutdown {alloc : Alloc} {digests : Digests} {c c' : Conn}
    {trace : List (Call × Except Code Decoded)} (hio : c.socket.io = .shutdown)
    (run : Run alloc digests (Exhausted alloc) c trace c') :
    (∀ step ∈ trace, YieldsNothing step.1 step.2) ∧ Silent c.socket c'.socket := by
  induction run with
  | nil c => exact ⟨by simp, fun _ => rfl⟩
  | @cons c call r c₁ trace c₂ ok h rest ih =>
    have hsilent : Silent c.socket c₁.socket := by
      have := Call.keeps (silent.callRel alloc) digests ok.1 (fun _ _ _ _ => rfl) c
      rwa [h] at this
    have hyields := @Call.yieldsNothing alloc digests c call hio ok.2
    rw [h] at hyields
    obtain ⟨htrace, hrest⟩ := ih (by rw [hsilent hio]; exact hio)
    exact ⟨List.forall_mem_cons.mpr ⟨hyields, htrace⟩, IsTrans.trans _ _ _ hsilent hrest⟩

/-- Whatever is called after a shutdown, nothing is read or written, and no
call gets a packet, provided that none was left behind in `recv_buff`. -/
theorem shutdown_final {alloc : Alloc} {digests : Digests} {c c' : Conn}
    {trace : List (Call × Except Code Decoded)}
    (run : Run alloc digests (Exhausted alloc) (Conn.onSocket Sock.shutdown c).2 trace c') :
    (∀ step ∈ trace, YieldsNothing step.1 step.2) ∧
      c'.socket = { c.socket with io := .shutdown, opts := c'.socket.opts } := by
  obtain ⟨htrace, hsilent⟩ := run_shutdown rfl run
  exact ⟨htrace, hsilent rfl⟩

/-- A connection on which a row was received in part; there is more of it to read, and
what is written is taken. -/
def cutConn : Conn :=
  { Conn.init { idleSock with net := { idleSock.net with
      raw_reads := [.data [0x62, 0x63]]
      raw_writes := [.wrote 100, .wrote 100] } } with
    capabilities := Capabilities.protocol41
    column_count := 1
    started_reading_rows := true
    recv_buff := [5, 0, 0, 0, 4, 0x61] }

def cutCalls : List Call :=
  [.readRow, .querySend (literal "SELECT 1"), .flushWrites, .queryRecv, .drainResults,
    .closeSend, .closeRecv]

theorem shutdown_final_row :
    ∃ trace c', replay (fun _ => true) noDigests cutCalls (Conn.onSocket Sock.shutdown cutConn).2 =
        (trace, c') ∧
      (∀ step ∈ trace, YieldsNothing step.1 step.2) ∧
      trace.map Prod.snd =
        .error .again :: List.replicate 5 (.error .closedConnection) ++ [.ok .done] ∧
      c'.socket = { cutConn.socket with io := .shutdown, opts := c'.socket.opts } := by
  have exhausted : Allowed (fun _ => true) noDigests (Exhausted fun _ => true) cutCalls
      (Conn.onSocket Sock.shutdown cutConn).2 := by
    simp only [cutCalls, Allowed, Exhausted, Call.Attaches, Call.Receives, Conn.Buffered,
      not_false_eq_true, true_and, and_true, forall_const, false_imp_iff]
    decide +kernel
  have hcodes : (replay (fun _ => true) noDigests cutCalls
      (Conn.onSocket Sock.shutdown cutConn).2).1.map Prod.snd =
        .error .again :: List.replicate 5 (.error .closedConnection) ++ [.ok .done] := by
    decide +kernel
  have hrun := exhausted.run
  generalize replay (fun _ => true) noDigests cutCalls (Conn.onSocket Sock.shutdown cutConn).2 = run
    at hcodes hrun
  obtain ⟨hyields, hsocket⟩ := shutdown_final hrun
  exact ⟨run.1, run.2, rfl, hyields, hcodes, hsocket⟩

/-- A connection on which a reply was received in full and not parsed yet. -/
def leftoverConn : Conn :=
  { Conn.init idleSock with
    capabilities := Capabilities.protocol41
    recv_buff := [7, 0, 0, 0, 0, 0, 0, 2, 0, 0, 0] }

/-- The reply that was left behind is taken for the one to a ping. -/
theorem shutdown_final_fails :
    ∃ trace c', Run (fun _ => true) noDigests (fun _ _ => True)
        (Conn.onSocket Sock.shutdown leftoverConn).2 trace c' ∧
      ¬ ∀ step ∈ trace, YieldsNothing step.1 step.2 := by
  have hping : (Call.pingRecv.run (fun _ => true) noDigests
      (Conn.onSocket Sock.shutdown leftoverConn).2).1 = .ok .done := by
    decide +kernel
  refine ⟨_, _, .cons trivial (Proc.ends hping) (.nil _), fun h => ?_⟩
  rcases h _ List.mem_cons_self trivial with ⟨hclose, -⟩ | ⟨rc, hrc, -⟩
  · cases hclose
  · cases hrc

end Trilogy
