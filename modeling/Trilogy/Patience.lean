import Trilogy.Blocking
import Trilogy.Lib.Paced
import Trilogy.Replies

namespace Trilogy

open Lib Proc

namespace PacketParser

variable {σ : Type} {cb : Callbacks σ} {p : PacketParser} {user : σ}

theorem endOfPayload_consumed (k : Nat) : (endOfPayload cb p user k).consumed = k := by
  unfold endOfPayload
  dsimp only
  split <;> rfl

theorem endOfPayload_state (k : Nat) : (endOfPayload cb p user k).parser.state = .len0 := by
  unfold endOfPayload
  dsimp only
  split <;> rfl

theorem turn_consumed (b : UInt8) (rest : List UInt8) :
    (turn cb p user b rest).consumed ≤ (b :: rest).length := by
  unfold turn
  cases p.state with
  | len0 | len1 => simp
  | len2 =>
    dsimp only
    split <;> simp
  | seq =>
    dsimp only
    split
    · simp
    · split
      · rw [endOfPayload_consumed]
        simp
      · simp
  | payload =>
    have hchunk : ((b :: rest).take p.bytes_remaining).length ≤ (b :: rest).length :=
      List.length_take_le' _ _
    dsimp only
    split
    · exact hchunk
    · split
      · rw [endOfPayload_consumed]
        exact hchunk
      · exact hchunk

/-- A turn that goes on takes a byte, or leaves the payload. -/
theorem turn_moves {b : UInt8} {rest : List UInt8} (ok : (turn cb p user b rest).error = 0) :
    0 < (turn cb p user b rest).consumed ∨
      p.state = .payload ∧ (turn cb p user b rest).parser.state = .len0 := by
  unfold turn at ok ⊢
  cases hs : p.state with
  | len0 | len1 => exact .inl Nat.one_pos
  | len2 =>
    dsimp only
    split <;> exact .inl Nat.one_pos
  | seq =>
    simp only [hs] at ok ⊢
    split
    · rename_i hseq
      rw [if_pos hseq] at ok
      exact absurd (show Code.invalidSequenceId.toInt = 0 from ok) (by decide)
    · split
      · rw [endOfPayload_consumed]
        exact .inl Nat.one_pos
      · exact .inl Nat.one_pos
  | payload =>
    simp only [hs] at ok ⊢
    split
    · rename_i hrc
      rw [if_pos hrc] at ok
      exact absurd ok hrc
    · split
      · exact .inr ⟨trivial, endOfPayload_state _⟩
      · rename_i hleft
        left
        simp only [List.length_take, List.length_cons] at hleft ⊢
        omega

theorem loop_consumed (turns : Nat) (input : List UInt8) :
    (loop cb turns p user input).consumed ≤ input.length := by
  induction turns generalizing p user input with
  | zero => exact Nat.zero_le _
  | succ turns ih =>
    cases input with
    | nil => exact Nat.zero_le _
    | cons b rest =>
      have hturn : (turn cb p user b rest).consumed ≤ (b :: rest).length := turn_consumed b rest
      rw [loop]
      dsimp only
      split
      · exact hturn
      · have hloop := @ih (turn cb p user b rest).parser (turn cb p user b rest).user
          ((b :: rest).drop (turn cb p user b rest).consumed)
        rw [List.length_drop] at hloop
        dsimp only
        omega

/-- The turns of the loop, one more for an empty payload. -/
def turnsFor (p : PacketParser) (input : List UInt8) : Nat :=
  2 * input.length + if p.state = .payload then 1 else 0

theorem loop_takes_all {turns : Nat} {input : List UInt8} (enough : p.turnsFor input ≤ turns)
    (ok : (loop cb turns p user input).error = 0) :
    (loop cb turns p user input).consumed = input.length := by
  induction turns generalizing p user input with
  | zero =>
    have hnil : input = [] := List.length_eq_zero_iff.mp (by unfold turnsFor at enough; omega)
    rw [hnil]
    rfl
  | succ turns ih =>
    cases input with
    | nil => rfl
    | cons b rest =>
      have hbound : (turn cb p user b rest).consumed ≤ (b :: rest).length := turn_consumed b rest
      rw [loop] at ok ⊢
      dsimp only at ok ⊢
      split at ok
      · rename_i hstop
        exact absurd ok hstop
      · rename_i hgoes
        have hmoves := turn_moves (not_not.mp hgoes)
        rw [if_neg hgoes]
        have hless : (turn cb p user b rest).parser.turnsFor
            ((b :: rest).drop (turn cb p user b rest).consumed) ≤ turns := by
          unfold turnsFor at enough ⊢
          rw [List.length_drop]
          cases hmoves with
          | inl hpos => split <;> split at enough <;> omega
          | inr hleft =>
            rw [if_pos hleft.1] at enough
            rw [if_neg (by rw [hleft.2]; decide)]
            omega
        have hrest := ih hless ok
        rw [List.length_drop] at hrest
        dsimp only
        omega

theorem turnsFor_le (input : List UInt8) : p.turnsFor input ≤ 2 * input.length + 1 := by
  unfold turnsFor
  split <;> omega

theorem execute_consumed (input : List UInt8) :
    (execute cb p user input).consumed ≤ input.length := by
  unfold execute
  split
  · dsimp only
    split
    · exact Nat.zero_le _
    · exact loop_consumed _ _
  · exact loop_consumed _ _

theorem execute_takes_all {input : List UInt8} (ok : (execute cb p user input).error = 0) :
    (execute cb p user input).consumed = input.length := by
  unfold execute at ok ⊢
  split
  · rename_i hdeferred
    rw [if_pos hdeferred] at ok
    dsimp only at ok ⊢
    split
    · rename_i hrc
      rw [if_pos hrc] at ok
      exact absurd ok hrc
    · rename_i hrc
      rw [if_neg hrc] at ok
      exact loop_takes_all (turnsFor_le input) ok
  · rename_i hdeferred
    rw [if_neg hdeferred] at ok
    exact loop_takes_all (turnsFor_le input) ok

end PacketParser

namespace Sock

/-- Nothing more will be read. -/
def Silent (sock : Sock) : Prop :=
  match sock.io with
  | .raw => sock.net.raw_reads = []
  | .ssl => sock.net.tls_reads = []
  | .shutdown => False

theorem read_uses (sock : Sock) {n : Nat} (pos : 0 < n) :
    (read n sock).2.reads < sock.reads ∨
      (read n sock).2 = sock ∧ ((read n sock).1 = .error .again ∧ sock.Silent ∨
        (read n sock).1 = .error .closedConnection) := by
  cases hio : sock.io with
  | raw =>
    simp only [read, hio, rawRead]
    split
    · rename_i h
      exact .inr ⟨rfl, .inl ⟨rfl, by simpa only [Silent, hio] using h⟩⟩
    · rename_i e more h
      left
      simp [reads, hio, h, RawRead.bytes]
    · rename_i bytes more h
      left
      by_cases hle : bytes.length ≤ n
      · simp [reads, hio, h, RawRead.bytes, if_pos hle]
      · simp only [reads, hio, h, RawRead.bytes, if_neg hle, List.map_cons, List.sum_cons,
          List.length_drop]
        omega
  | ssl =>
    simp only [read, hio, sslRead]
    split
    · rename_i h
      exact .inr ⟨rfl, .inl ⟨rfl, by simpa only [Silent, hio] using h⟩⟩
    · rename_i e more h
      left
      simp [reads, hio, h, TlsRead.bytes]
    · rename_i b bytes more h
      left
      cases hrest : (b :: bytes).drop n with
      | nil => simp [reads, hio, h, TlsRead.bytes]
      | cons b' bytes' =>
        have hlen := congrArg List.length hrest
        rw [List.length_drop, List.length_cons, List.length_cons] at hlen
        simp only [reads, hio, h, TlsRead.bytes, List.map_cons, List.sum_cons, List.length_cons]
        omega
  | shutdown => exact .inr ⟨by simp only [read, hio], .inr (by simp only [read, hio])⟩

end Sock

/-- What reading has nothing to do with. -/
structure OnlyRead (sock sock' : Sock) : Prop where
  io : sock'.io = sock.io
  opts : sock'.opts = sock.opts
  sent : sock'.sent = sock.sent
  net : ∃ raw_reads tls_reads, sock'.net = { sock.net with raw_reads, tls_reads }

instance : Std.Refl OnlyRead := ⟨fun _ => ⟨rfl, rfl, rfl, _, _, rfl⟩⟩

instance : IsTrans Sock OnlyRead where
  trans _ _ _ h h' := by
    obtain ⟨raw_reads, tls_reads, hnet⟩ := h.net
    obtain ⟨raw_reads', tls_reads', hnet'⟩ := h'.net
    exact ⟨h'.io.trans h.io, h'.opts.trans h.opts, h'.sent.trans h.sent, raw_reads', tls_reads',
      by rw [hnet', hnet]⟩

theorem onlyRead_read (n : Nat) : Keeps OnlyRead (Sock.read n) := by
  intro sock
  unfold Sock.read Sock.rawRead Sock.sslRead
  split
  · split <;> exact ⟨rfl, rfl, rfl, _, _, rfl⟩
  · split <;> exact ⟨rfl, rfl, rfl, _, _, rfl⟩
  · exact ⟨rfl, rfl, rfl, _, _, rfl⟩

theorem onlyRead_readRel (alloc : Alloc) : ReadRel alloc (OnSock OnlyRead) :=
  onSock_readRel alloc onlyRead_read

namespace Conn

/-- What a call of a function that reads uses up. -/
def pace : Pace Conn where
  valid c := c.recv_buff_pos ≤ c.recv_buff.length
  left := turnsLeft
  stuck c := c.unread = [] ∧ c.recv_buff_pos = c.recv_buff.length ∧ c.socket.Silent

variable {alloc : Alloc} {c c' : Conn}

/-- One call uses up no less than another. -/
def Uses (c c' : Conn) : Prop := pace.valid c → pace.valid c' ∧ c'.turnsLeft ≤ c.turnsLeft

instance : Std.Refl Uses := ⟨fun _ h => ⟨h, Nat.le_refl _⟩⟩

instance : IsTrans Conn Uses where
  trans _ _ _ h h' valid := ⟨(h' (h valid).1).1, Nat.le_trans (h' (h valid).1).2 (h valid).2⟩

theorem turnsLeft_read (hunread : c.unread = []) : c.turnsLeft = c.socket.reads := by
  rw [turnsLeft, if_pos hunread, Nat.add_zero]

theorem turnsLeft_le (c : Conn) : c.turnsLeft ≤ c.socket.reads + 1 := by
  unfold turnsLeft
  split <;> omega

theorem refill_uses (valid : pace.valid c) :
    Uses c (refill c).2 ∧ ((refill c).1 = .ok () → (refill c).2.unread ≠ []) ∧
      ((refill c).1 = .error .again →
        (refill c).2.turnsLeft < c.turnsLeft ∨ pace.stuck (refill c).2) := by
  by_cases hpos : c.recv_buff_pos = c.recv_buff.length
  · have hunread := (unread_eq_nil valid).mpr hpos
    have huses := c.socket.read_uses (by decide : 0 < defaultBufSize)
    rw [refill, Proc.get_bind, if_pos hpos]
    rcases hread : Sock.read defaultBufSize c.socket with ⟨rc | bytes, socket⟩
    · rw [Proc.bind_of_error (onSocket_read hread)]
      rw [hread] at huses
      dsimp only at huses ⊢
      have hleft : ({ c with socket } : Conn).turnsLeft = socket.reads := turnsLeft_read hunread
      refine ⟨fun _ => ⟨valid, ?_⟩, by simp, fun hagain => ?_⟩
      · rw [hleft, turnsLeft_read hunread]
        obtain hless | ⟨hsame, -⟩ := huses
        · exact Nat.le_of_lt hless
        · rw [hsame]
      · rw [hleft, turnsLeft_read hunread]
        obtain hless | ⟨hsame, ⟨-, hsilent⟩ | hclosed⟩ := huses
        · exact .inl hless
        · exact .inr ⟨hunread, hpos, by rw [← hsame] at hsilent; exact hsilent⟩
        · cases hagain
          cases hclosed
    · have hless : socket.reads < c.socket.reads := by
        rw [hread] at huses
        obtain hless | ⟨-, ⟨hend, -⟩ | hend⟩ := huses
        · exact hless
        · cases hend
        · cases hend
      rw [Proc.bind_of_ok (onSocket_read hread)]
      by_cases hnil : bytes.length = 0
      · rw [if_pos hnil]
        refine ⟨fun _ => ⟨valid, ?_⟩, by rintro ⟨⟩, by rintro ⟨⟩⟩
        have hleft : ({ c with socket } : Conn).turnsLeft = socket.reads := turnsLeft_read hunread
        rw [throw_apply, hleft, turnsLeft_read hunread]
        exact Nat.le_of_lt hless
      · rw [if_neg hnil]
        refine ⟨fun _ => ⟨Nat.zero_le _, ?_⟩, fun _ h => ?_, by rintro ⟨⟩⟩
        · rw [turnsLeft_read hunread]
          exact Nat.le_trans (turnsLeft_le _) hless
        · exact hnil (List.length_eq_zero_iff.mpr h)
  · rw [refill, Proc.get_bind, if_neg hpos]
    refine ⟨fun _ => ⟨valid, Nat.le_refl _⟩, fun _ h => ?_, by rintro ⟨⟩⟩
    exact hpos ((unread_eq_nil valid).mp h)

theorem execute_uses (valid : pace.valid c) :
    Uses c (execute alloc c).2 ∧
      ((execute alloc c).1 = .error .again → (execute alloc c).2.unread = []) := by
  have hconsumed := @PacketParser.execute_consumed _ (packetParserCallbacks alloc)
    c.packetParser c.packet_buffer c.unread
  have hall := @PacketParser.execute_takes_all _ (packetParserCallbacks alloc)
    c.packetParser c.packet_buffer c.unread
  have hstop := PacketParser.stop_execute alloc c.packetParser c.packet_buffer c.unread
  unfold execute
  dsimp only
  generalize PacketParser.execute (packetParserCallbacks alloc) c.packetParser c.packet_buffer
    c.unread = t at hconsumed hall hstop
  have huses : Uses c (c.consume t) := by
    intro _
    constructor
    · change c.recv_buff_pos + t.consumed ≤ c.recv_buff.length
      have hlen : c.unread.length = c.recv_buff.length - c.recv_buff_pos := List.length_drop
      have : c.recv_buff_pos ≤ c.recv_buff.length := valid
      omega
    · unfold turnsLeft
      rw [consume_unread]
      change c.socket.reads + _ ≤ _
      by_cases hnil : c.unread = []
      · simp [hnil]
      · rw [if_neg hnil]
        split <;> omega
  by_cases hneg : t.error < 0
  · rw [if_pos hneg]
    refine ⟨huses, fun hagain => ?_⟩
    have hcode : Code.ofInt t.error = .again := Except.error.inj hagain
    exfalso
    rcases hstop with he | he | he | he | he <;> rw [he] at hneg hcode <;>
      first | exact absurd hneg (by decide) | exact absurd hcode (by decide)
  · rw [if_neg hneg]
    by_cases hpos : t.error > 0
    · rw [if_pos hpos]
      exact ⟨huses, by rintro ⟨⟩⟩
    · rw [if_neg hpos]
      refine ⟨huses, fun _ => ?_⟩
      rw [consume_unread, hall (by omega), List.drop_length]

theorem readPacket_asks (valid : pace.valid c) (h : readPacket alloc c = (.error .again, c')) :
    c'.turnsLeft < c.turnsLeft ∨ pace.stuck c' := by
  obtain ⟨huses, hmore, hasks⟩ := refill_uses valid
  obtain h | ⟨_, c₁, hrefill, h⟩ := Proc.bind_error.mp h
  · rw [h] at hasks
    exact hasks rfl
  · left
    rw [hrefill] at huses hmore
    obtain ⟨valid₁, hle⟩ := huses valid
    obtain ⟨-, hdone⟩ := @execute_uses alloc _ valid₁
    have hsocket := execute_socket alloc c₁
    rw [h] at hdone hsocket
    have hunread := hmore rfl
    rw [turnsLeft_read (hdone rfl), hsocket]
    have : c₁.turnsLeft = c₁.socket.reads + 1 := by rw [turnsLeft, if_neg hunread]
    dsimp only at hle
    omega

theorem readPacket_stalls : Stalls pace.stuck .again (readPacket alloc) := by
  rintro c ⟨hunread, hpos, hsilent⟩
  have hread : Sock.read defaultBufSize c.socket = (.error .again, c.socket) := by
    simp only [Sock.Silent] at hsilent
    cases hio : c.socket.io with
    | raw =>
      rw [hio] at hsilent
      simp only [Sock.read, hio, Sock.rawRead, show c.socket.net.raw_reads = [] from hsilent]
    | ssl =>
      rw [hio] at hsilent
      simp only [Sock.read, hio, Sock.sslRead, show c.socket.net.tls_reads = [] from hsilent]
    | shutdown =>
      rw [hio] at hsilent
      exact absurd hsilent id
  refine ⟨c, ?_, hunread, hpos, hsilent⟩
  rw [readPacket, Proc.bind_of_error]
  rw [refill, Proc.get_bind, if_pos hpos, Proc.bind_of_error (onSocket_read hread)]

theorem uses_socket {socket : Sock} (h : socket.reads ≤ c.socket.reads) :
    Uses c { c with socket } :=
  fun valid => ⟨valid, Nat.add_le_add_right h _⟩

theorem sockWrite_reads (data : List UInt8) (nwrite : Nat) (sock : Sock) :
    (Sock.write data nwrite sock).2.reads = sock.reads := by
  unfold Sock.write Sock.rawWrite Sock.sslWrite
  split
  · split <;> rfl
  · split <;> rfl
  · rfl

theorem sockWait_reads (sock : Sock) : (Sock.wait sock).2.reads = sock.reads := by
  unfold Sock.wait
  split
  · rfl
  · split <;> rfl

theorem uses_callRel (alloc : Alloc) : CallRel alloc Uses where
  refill _ valid := (refill_uses valid).1 valid
  execute _ valid := (execute_uses valid).1 valid
  same c c' h valid := by
    have hunread : c'.unread = c.unread := by rw [unread, unread, h.recv_buff, h.recv_buff_pos]
    have hleft : c'.turnsLeft = c.turnsLeft := by rw [turnsLeft, turnsLeft, hunread, h.socket]
    refine ⟨?_, Nat.le_of_eq hleft⟩
    change c'.recv_buff_pos ≤ c'.recv_buff.length
    rw [h.recv_buff, h.recv_buff_pos]
    exact valid
  write data nwrite c := uses_socket (Nat.le_of_eq (sockWrite_reads data nwrite c.socket))
  wait c := uses_socket (Nat.le_of_eq (sockWait_reads c.socket))
  shutdown c := uses_socket (Nat.zero_le _)
  password _ _ := uses_socket (Nat.le_refl _)

/-- The calls of `m` use up what there is to read. -/
def Bounded {α : Type} (m : Proc Code Conn α) : Prop :=
  ∃ stuck, (∀ c, stuck c → pace.stuck c) ∧ Paced { pace with stuck } .again m ∧
    Stalls stuck .again m

theorem Bounded.within {α : Type} {m : Proc Code Conn α} {r : Except Code α} (h : Bounded m)
    (valid : pace.valid c) (returns : Returns .again m c r c') :
    ∃ k, ReturnsIn .again m k c r c' ∧ pace.valid c' ∧ k + c'.turnsLeft ≤ c.turnsLeft := by
  obtain ⟨stuck, -, paced, stalls⟩ := h
  exact returns.within (P := { pace with stuck }) paced stalls valid

/-- A socket that is shut down is not stuck. -/
theorem Bounded.asks {α : Type} {m : Proc Code Conn α} (h : Bounded m) (valid : pace.valid c)
    (asks : m c = (.error .again, c')) (hio : c'.socket.io = .shutdown) :
    pace.valid c' ∧ c'.turnsLeft < c.turnsLeft := by
  obtain ⟨stuck, hstuck, paced, -⟩ := h
  have hvalid := paced.valid valid
  rw [asks] at hvalid
  refine ⟨hvalid, (paced.asks valid asks).resolve_right fun hs => ?_⟩
  have hsilent := (hstuck c' hs).2.2
  rw [Sock.Silent, hio] at hsilent
  exact hsilent

theorem paced_readPacket : Paced pace .again (readPacket alloc) where
  valid c valid := (keeps_readPacket (uses_callRel alloc).toReadRel c valid).1
  less c valid := (keeps_readPacket (uses_callRel alloc).toReadRel c valid).2
  asks _ _ valid h := readPacket_asks valid h

theorem Replies.paced {α : Type} {reply : Proc Code Conn α} (h : Replies reply) :
    Paced pace .again reply :=
  .of_fails h.fails fun c valid =>
    (uses_callRel fun _ => true).same c (reply c).2 (h.same c) valid

theorem Replies.bounded {α : Type} {reply : Unit → Proc Code Conn α} (h : ∀ u, Replies (reply u)) :
    Bounded (readPacket alloc >>= reply) :=
  ⟨pace.stuck, fun _ h => h, .bind paced_readPacket fun u => (h u).paced, readPacket_stalls.bind⟩

theorem paced_beginRows : Paced pace .again (beginRows alloc) := by
  have hread : Paced pace .again (readEof alloc) :=
    .bind paced_readPacket fun _ => replies_readEofPacket.paced
  have hskip : Paced pace .again (pure () : Proc Code Conn Unit) := (Replies.pure ()).paced
  have hstart : Replies (modify fun conn => { conn with started_reading_rows := true }) :=
    .modify (fun _ => ⟨rfl, rfl, rfl, rfl⟩) fun _ _ => rfl
  apply Paced.bind (.of_fails .get fun _ valid => ⟨valid, Nat.le_refl _⟩)
  intro conn
  split
  · apply Paced.bind
    · unfold Proc.when
      split
      · exact hread
      · exact hskip
    · intro _
      exact hstart.paced
  · exact hskip

/-- Where nothing more is read, the packet in front of the rows is not either. -/
theorem beginRows_stuck (stuck : pace.stuck c) :
    pace.stuck (beginRows alloc c).2 ∧
      ((beginRows alloc c).1 = .error .again ∨ ∃ u, (beginRows alloc c).1 = .ok u) := by
  by_cases hat : c.AtRows
  · by_cases hstarted : c.started_reading_rows
    · rw [beginRows_skip hstarted]
      exact ⟨stuck, .inr ⟨(), rfl⟩⟩
    · rw [beginRows_deprecated (hat.resolve_left hstarted) hstarted]
      exact ⟨stuck, .inr ⟨(), rfl⟩⟩
  · obtain ⟨c₁, hread, hstuck⟩ := @readPacket_stalls alloc c stuck
    have heof : readEof alloc c = (.error .again, c₁) := Proc.bind_of_error hread
    rw [beginRows_readEof hat, Proc.bind_of_error heof]
    exact ⟨hstuck, .inl rfl⟩

theorem bounded_readRow : Bounded (readRow alloc) :=
  ⟨pace.stuck, fun _ h => h,
    .bind paced_beginRows fun _ => .bind paced_readPacket fun _ =>
      (replies_rowReply raises_parseRowPacket).paced,
    .after (fun _ => beginRows_stuck) fun _ => readPacket_stalls.bind⟩

theorem closeRecv_asks (valid : pace.valid c) (h : closeRecv alloc c = (.error .again, c')) :
    c'.turnsLeft < c.turnsLeft := by
  have hshut : onSocket Sock.shutdown c =
      (.ok (), { c with socket := { c.socket with io := .shutdown } }) := rfl
  have huses : Uses c { c with socket := { c.socket with io := .shutdown } } :=
    uses_socket (Nat.zero_le _)
  have hio : ({ c with socket := { c.socket with io := .shutdown } } : Conn).socket.io =
    .shutdown := rfl
  generalize ({ c with socket := { c.socket with io := .shutdown } } : Conn) = c₀ at hshut huses hio
  obtain ⟨valid₀, hless⟩ := huses valid
  rw [closeRecv, Proc.bind_of_ok hshut, attempt_bind] at h
  rcases hread : readPacket alloc c₀ with ⟨rc | _, c₁⟩
  · simp only [hread] at h
    cases rc with
    | again =>
      cases h
      have hkeeps := keeps_readPacket (onlyRead_readRel alloc) c₀
      rw [hread] at hkeeps
      obtain hlt | hstuck := readPacket_asks valid₀ hread
      · exact Nat.lt_of_lt_of_le hlt hless
      · have hsilent := hstuck.2.2
        rw [Sock.Silent, hkeeps.io, hio] at hsilent
        exact absurd hsilent id
    | _ => cases h
  · simp only [hread] at h
    cases h

theorem bounded_closeRecv : Bounded (closeRecv alloc) :=
  ⟨fun _ => False, fun _ h => absurd h id,
    ⟨fun c valid => (keeps_closeRecv (uses_callRel alloc) c valid).1,
      fun c valid => (keeps_closeRecv (uses_callRel alloc) c valid).2,
      fun _ _ valid h => .inl (closeRecv_asks valid h)⟩,
    fun _ h => absurd h id⟩

end Conn

end Trilogy
