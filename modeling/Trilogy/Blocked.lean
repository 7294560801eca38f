import Trilogy.Lib.Persist
import Trilogy.Patience

namespace Trilogy

open Lib Proc

namespace Sock

/-- The writes that the network still has. -/
def writes (sock : Sock) : Nat :=
  match sock.io with
  | .raw => sock.net.raw_writes.length
  | .ssl => sock.net.tls_writes.length
  | .shutdown => 0

/-- Sockets that differ in what polls will find. -/
def Polled (sock sock' : Sock) : Prop :=
  ∃ polls, sock' = { sock with net := { sock.net with polls } }

instance : Std.Refl Polled := ⟨fun sock => ⟨sock.net.polls, rfl⟩⟩

instance : IsTrans Sock Polled := ⟨by
  rintro sock _ _ ⟨polls, rfl⟩ ⟨polls', rfl⟩
  exact ⟨polls', rfl⟩⟩

theorem polled_read (n : Nat) : Blind Polled (Sock.read n) := by
  rintro ⟨opts, addr, io, net, received, sent⟩ _ ⟨polls, rfl⟩
  unfold Sock.read Sock.rawRead Sock.sslRead
  cases io with
  | raw => dsimp only; split <;> exact ⟨.rfl, polls, rfl⟩
  | ssl => dsimp only; split <;> exact ⟨.rfl, polls, rfl⟩
  | shutdown => exact ⟨.rfl, polls, rfl⟩

theorem polled_write (data : List UInt8) (nwrite : Nat) :
    Blind Polled (Sock.write data nwrite) := by
  rintro ⟨opts, addr, io, net, received, sent⟩ _ ⟨polls, rfl⟩
  unfold Sock.write Sock.rawWrite Sock.sslWrite
  cases io with
  | raw => dsimp only; split <;> exact ⟨.rfl, polls, rfl⟩
  | ssl => dsimp only; split <;> exact ⟨.rfl, polls, rfl⟩
  | shutdown => exact ⟨.rfl, polls, rfl⟩

theorem polled_shutdown : Blind Polled Sock.shutdown := by
  apply Blind.modify
  rintro sock _ ⟨polls, rfl⟩
  exact ⟨polls, rfl⟩

theorem polled_wait (sock : Sock) : Polled sock (Sock.wait sock).2 := by
  unfold Sock.wait
  split
  · exact Std.Refl.refl _
  · split
    · exact Std.Refl.refl _
    · exact ⟨_, rfl⟩

/-- A socket that was shut down does not wait; any other takes the next poll. -/
theorem wait_cases (sock : Sock) :
    (sock.io = .shutdown ∧ Sock.wait sock = (.ok (), sock)) ∨
    (∃ more, sock.io ≠ .shutdown ∧ sock.net.polls = true :: more ∧
      Sock.wait sock = (.ok (), { sock with net := { sock.net with polls := more } })) ∨
    ∃ sock', sock.io ≠ .shutdown ∧ (sock.net.polls = [] ∨ false ∈ sock.net.polls) ∧
      Sock.wait sock = (.error .syserr, sock') := by
  unfold Sock.wait
  cases hio : sock.io with
  | shutdown => exact .inl ⟨rfl, rfl⟩
  | raw | ssl =>
    right
    cases hpolls : sock.net.polls with
    | nil => exact .inr ⟨_, by simp, .inl rfl, rfl⟩
    | cons ready more =>
      cases ready with
      | true => exact .inl ⟨more, by simp, rfl, rfl⟩
      | false => exact .inr ⟨_, by simp, .inr (by simp), rfl⟩

end Sock

namespace Conn

/-- Connections that differ in what polls will find. -/
abbrev Polled : Conn → Conn → Prop := Beside Sock.Polled

instance : Std.Refl Polled := ⟨fun c => ⟨c.socket, Std.Refl.refl _, rfl⟩⟩

instance : IsTrans Conn Polled := ⟨by
  rintro c _ _ ⟨socket, h, rfl⟩ ⟨socket', h', rfl⟩
  exact ⟨socket', IsTrans.trans (r := Sock.Polled) _ _ _ h h', rfl⟩⟩

variable {alloc : Alloc} {α : Type} {recv : Proc Code Conn α} {c c' : Conn} {r : Except Code α}

theorem polled_onSocket_wait (c : Conn) : Polled c (onSocket Sock.wait c).2 :=
  ⟨_, Sock.polled_wait c.socket, rfl⟩

/-- So many waits do not fail. -/
def Budget (n : Nat) (c : Conn) : Prop :=
  (∀ ready ∈ c.socket.net.polls, ready = true) ∧
    (c.socket.io = .shutdown ∨ n ≤ c.socket.net.polls.length)

theorem Budget.wait {n : Nat} (h : Budget (n + 1) c) :
    ∃ c', onSocket Sock.wait c = (.ok (), c') ∧ Budget n c' ∧ Polled c c' := by
  obtain ⟨hready, hlength⟩ := h
  have hpolled := polled_onSocket_wait c
  obtain ⟨hio, hwait⟩ | ⟨more, hio, hpolls, hwait⟩ | ⟨sock, hio, hpolls, -⟩ :=
    c.socket.wait_cases
  · rw [onSocket, zoom_apply, hwait] at hpolled ⊢
    exact ⟨_, rfl, ⟨hready, .inl hio⟩, hpolled⟩
  · rw [onSocket, zoom_apply, hwait] at hpolled ⊢
    rw [hpolls] at hready hlength
    refine ⟨_, rfl, ⟨fun ready h => hready ready (List.mem_cons_of_mem _ h), .inr ?_⟩, hpolled⟩
    exact Nat.le_of_succ_le_succ (hlength.resolve_left hio)
  · exfalso
    have hlength := hlength.resolve_left hio
    cases hpolls with
    | inl hnil =>
      rw [hnil] at hlength
      exact absurd hlength (Nat.not_succ_le_zero n)
    | inr hfalse => exact absurd (hready _ hfalse) (by decide)

/-- There is no more to write to than before. -/
def FewerWrites (c c' : Conn) : Prop := c'.socket.writes ≤ c.socket.writes

instance : IsTrans Conn FewerWrites := ⟨fun _ _ _ h h' => Nat.le_trans h' h⟩

/-- A function that reads, as the loops of `blocking.c` use it. -/
structure Receiving {α : Type} (recv : Proc Code Conn α) : Prop where
  bounded : Bounded recv
  blind : Blind Polled recv
  polls : ∀ c, (recv c).2.socket.net.polls = c.socket.net.polls
  shut : ∀ c, c.socket.io = .shutdown → (recv c).2.socket.io = .shutdown
  writes : Keeps FewerWrites recv

theorem Receiving.budget (h : Receiving recv) (n : Nat) (c : Conn) (budget : Budget n c) :
    Budget n (recv c).2 := by
  obtain ⟨hready, hlength⟩ := budget
  rw [Budget, h.polls]
  exact ⟨hready, hlength.imp_left (h.shut c)⟩

/-- The turns that a loop can take. -/
def turnsNeeded (c : Conn) : Nat :=
  if c.socket.io = .shutdown then c.turnsLeft else c.socket.net.polls.length + 2

/-- The turns do not run out before the polls do. -/
theorem recvFull_persists (h : Receiving recv) {turns : Nat} (valid : pace.valid c)
    (enough : c.turnsNeeded < turns) :
    Persists .again (onSocket Sock.wait) recv c (recvFull (fun _ => recv) turns c).1
      (recvFull (fun _ => recv) turns c).2 := by
  induction turns generalizing c with
  | zero => exact absurd enough (Nat.not_lt_zero _)
  | succ turns ih =>
    rw [recvFull, attempt_bind]
    rcases e : recv c with ⟨rc | a, u⟩
    · dsimp only
      by_cases hrc : rc = .again
      · subst hrc
        dsimp only
        have hpolls := h.polls c
        have hshut := h.shut c
        rw [e] at hpolls hshut
        have hvalid : pace.valid u := by
          obtain ⟨_, -, paced, -⟩ := h.bounded
          have := paced.valid valid
          rwa [e] at this
        obtain ⟨hio, hwait⟩ | ⟨more, hio, hmore, hwait⟩ | ⟨sock, -, -, hwait⟩ :=
          u.socket.wait_cases
        · have hwait : onSocket Sock.wait u = (.ok (), u) := by
            rw [onSocket, zoom_apply, hwait]
          rw [bind_of_ok hwait]
          obtain ⟨-, hless⟩ := h.bounded.asks valid e hio
          refine .again e hwait (ih hvalid ?_)
          have hneed : u.turnsNeeded = u.turnsLeft := if_pos hio
          rw [hneed]
          unfold turnsNeeded at enough
          split at enough
          · omega
          · have hreads : u.turnsLeft ≤ u.socket.reads + 1 := u.turnsLeft_le
            have : u.socket.reads = 0 := by rw [Sock.reads, hio]
            omega
        · have hwait : onSocket Sock.wait u = (.ok (),
              { u with socket := { u.socket with net := { u.socket.net with polls := more } } }) := by
            rw [onSocket, zoom_apply, hwait]
          rw [bind_of_ok hwait]
          refine .again e hwait (ih hvalid ?_)
          unfold turnsNeeded at enough ⊢
          rw [if_neg hio]
          rw [if_neg (mt hshut hio), ← hpolls, hmore, List.length_cons] at enough
          change more.length + 2 < turns
          omega
        · have hwait : onSocket Sock.wait u = (.error .syserr, { u with socket := sock }) := by
            rw [onSocket, zoom_apply, hwait]
          rw [bind_of_error hwait]
          exact .failed e hwait
      · have hend : Persists .again (onSocket Sock.wait) recv c (.error rc) u :=
          .stop e (by simpa using hrc)
        cases rc with
        | again => exact absurd rfl hrc
        | _ => exact hend
    · exact .stop e (by simp)

theorem turnsNeeded_lt (c : Conn) : c.turnsNeeded < c.socket.net.polls.length + 3 := by
  unfold turnsNeeded
  split
  · rename_i hio
    have hreads : c.turnsLeft ≤ c.socket.reads + 1 := c.turnsLeft_le
    have : c.socket.reads = 0 := by rw [Sock.reads, hio]
    omega
  · omega

theorem readFull_iff (h : Receiving recv) (valid : pace.valid c) :
    readFull recv c = (r, c') ↔ Persists .again (onSocket Sock.wait) recv c r c' := by
  have hloop := recvFull_persists h valid c.turnsNeeded_lt
  have hrun : readFull recv c =
    recvFull (fun _ => recv) (c.socket.net.polls.length + 3) c := rfl
  rw [hrun]
  constructor
  · intro e
    rwa [e] at hloop
  · intro h
    obtain ⟨hr, ht⟩ := hloop.unique h
    exact Prod.ext hr ht

/-- A function that does nothing to the socket but read. -/
structure Listening {α : Type} (recv : Proc Code Conn α) : Prop where
  bounded : Bounded recv
  blind : Blind Polled recv
  onlyRead : Keeps (OnSock OnlyRead) recv

theorem Listening.receiving (h : Listening recv) : Receiving recv where
  bounded := h.bounded
  blind := h.blind
  polls c := by
    obtain ⟨_, _, hnet⟩ := (h.onlyRead c).net
    rw [hnet]
  shut c hio := (h.onlyRead c).io.trans hio
  writes c := by
    obtain ⟨_, _, hnet⟩ := (h.onlyRead c).net
    rw [FewerWrites, Sock.writes, (h.onlyRead c).io, hnet]
    exact Nat.le_refl _

theorem listening_of_replies {reply : Unit → Proc Code Conn α} (h : ∀ u, Replies (reply u)) :
    Listening (readPacket alloc >>= reply) :=
  ⟨Replies.bounded h, .bind (beside_readPacket Sock.polled_read) fun u => (h u).blind _,
    .bind (keeps_readPacket (onlyRead_readRel alloc)) fun u c =>
      (onlyRead_readRel alloc).same _ _ ((h u).same c)⟩

theorem listening_readGenericResponse : Listening (readGenericResponse alloc) :=
  listening_of_replies fun _ => replies_handleGenericResponse

theorem listening_setOptionRecv : Listening (setOptionRecv alloc) :=
  listening_of_replies fun _ => .get (fun _ _ => rfl) fun conn =>
    replies_setOptionReply conn.currentPacketType

theorem listening_queryRecv : Listening (queryRecv alloc) := by
  have reply := @replies_resultReply fun packet conn =>
    { conn with column_count := packet.column_count, started_reading_rows := false }
  exact listening_of_replies fun _ => .get (fun _ _ => rfl) fun conn =>
    reply (fun _ _ => ⟨rfl, rfl, rfl, rfl⟩) (fun _ _ _ => rfl) conn.currentPacketType

theorem listening_readColumn : Listening (readColumn alloc) :=
  listening_of_replies fun _ => .parse (raises_parseColumnPacket false)

theorem listening_stmtPrepareRecv : Listening (stmtPrepareRecv alloc) :=
  listening_of_replies fun _ => .get (fun _ _ => rfl) fun conn =>
    replies_stmtPrepareReply conn.currentPacketType

theorem listening_stmtExecuteRecv : Listening (stmtExecuteRecv alloc) := by
  have reply := @replies_resultReply fun packet conn =>
    { conn with column_count := packet.column_count }
  exact listening_of_replies fun _ => .get (fun _ _ => rfl) fun conn =>
    reply (fun _ _ => ⟨rfl, rfl, rfl, rfl⟩) (fun _ _ _ => rfl) conn.currentPacketType

theorem listening_stmtReadRow (stmt : StmtOkPacket) (columns : List Column)
    (values_out : List BinaryValue) : Listening (stmtReadRow alloc stmt columns values_out) :=
  listening_of_replies fun _ => replies_rowReply fun _ => raises_parseStmtRowPacket _ _ _

theorem beside_readEof {P : Sock → Sock → Prop} (read : ∀ n, Blind P (Sock.read n)) :
    Blind (Beside P) (readEof alloc) :=
  .bind (beside_readPacket read) fun _ => replies_readEofPacket.blind P

theorem beside_beginRows {P : Sock → Sock → Prop} (read : ∀ n, Blind P (Sock.read n)) :
    Blind (Beside P) (beginRows alloc) := by
  apply beside_get (fun _ _ _ => rfl)
  intro conn
  apply Blind.ite
  · intro _
    apply Blind.bind (.when fun _ => beside_readEof read)
    intro _
    exact beside_modify (fun _ => rfl) fun _ _ => rfl
  · intro _
    exact .pure _

theorem listening_readRow : Listening (readRow alloc) :=
  ⟨bounded_readRow,
    .bind (beside_beginRows Sock.polled_read) fun _ =>
      .bind (beside_readPacket Sock.polled_read) fun _ =>
        (replies_rowReply raises_parseRowPacket).blind _,
    keeps_readRow (onlyRead_readRel alloc)⟩

theorem closeRecv_state (alloc : Alloc) (c : Conn) : (closeRecv alloc c).2 =
    (readPacket alloc { c with socket := { c.socket with io := .shutdown } }).2 := by
  have hshut : onSocket Sock.shutdown c =
    (.ok (), { c with socket := { c.socket with io := .shutdown } }) := rfl
  rw [closeRecv, bind_of_ok hshut, attempt_bind]
  generalize readPacket alloc _ = read
  rcases read with ⟨rc | _, c'⟩
  · cases rc <;> rfl
  · rfl

/-- The socket is shut down, so nothing is read. -/
theorem receiving_closeRecv : Receiving (closeRecv alloc) where
  bounded := bounded_closeRecv
  blind := by
    apply Blind.bind (beside_onSocket Sock.polled_shutdown)
    intro _
    apply Blind.bind (.attempt (beside_readPacket Sock.polled_read))
    intro rc
    cases rc with
    | ok _ => exact .throw _
    | error rc =>
      cases rc with
      | closedConnection => exact .pure _
      | _ => exact .throw _
  polls c := by
    have hread := keeps_readPacket (onlyRead_readRel alloc)
      { c with socket := { c.socket with io := .shutdown } }
    obtain ⟨_, _, hnet⟩ := hread.net
    rw [closeRecv_state, hnet]
  shut c _ := by
    rw [closeRecv_state, (keeps_readPacket (onlyRead_readRel alloc) _).io]
  writes c := by
    rw [closeRecv_state, FewerWrites, Sock.writes, (keeps_readPacket (onlyRead_readRel alloc) _).io]
    exact Nat.zero_le _

end Conn

end Trilogy
