import Trilogy.Lib.Retry
import Trilogy.Deframing
import Trilogy.Client

namespace Trilogy

open Lib

def RawRead.bytes : RawRead → List UInt8
  | .data bytes => bytes
  | .failed _ => []

def TlsRead.bytes : TlsRead → List UInt8
  | .data b bytes => b :: bytes
  | .failed _ => []

/-- Bytes, or an error after which the call is made again. -/
def RawRead.Calm : RawRead → Prop
  | .data bytes => bytes ≠ []
  | .failed e => Sock.rawReadError e = .again

def TlsRead.Calm : TlsRead → Prop
  | .data _ _ => True
  | .failed e => Sock.sslIoReturn e = .again

namespace Sock

def Calm (sock : Sock) : Prop :=
  match sock.io with
  | .raw => ∀ read ∈ sock.net.raw_reads, read.Calm
  | .ssl => ∀ read ∈ sock.net.tls_reads, read.Calm
  | .shutdown => False

/-- What reads will return, in the long run. -/
def incoming (sock : Sock) : List UInt8 :=
  match sock.io with
  | .raw => sock.net.raw_reads.flatMap RawRead.bytes
  | .ssl => sock.net.tls_reads.flatMap TlsRead.bytes
  | .shutdown => []

/-- A bound on the number of reads that return something. -/
def reads (sock : Sock) : Nat :=
  match sock.io with
  | .raw => (sock.net.raw_reads.map fun read => read.bytes.length + 1).sum
  | .ssl => (sock.net.tls_reads.map fun read => read.bytes.length + 1).sum
  | .shutdown => 0

/-- One read: it got some of the bytes, or it asks to be called again. -/
inductive Got (sock : Sock) : Except Code (List UInt8) × Sock → Prop
  | bytes {got sock'} (nonempty : got ≠ []) (calm : Calm sock')
      (incoming : sock.incoming = got ++ sock'.incoming) (less : sock'.reads < sock.reads) :
      Got sock (.ok got, sock')
  | again {sock'} (calm : Calm sock') (incoming : sock'.incoming = sock.incoming)
      (less : sock.incoming = [] ∨ sock'.reads < sock.reads) : Got sock (.error .again, sock')

theorem rawRead_got {sock : Sock} (hio : sock.io = .raw) (calm : sock.Calm) {nread : Nat}
    (pos : 0 < nread) : Got sock (rawRead nread sock) := by
  simp only [Calm, hio] at calm
  unfold rawRead
  split
  · rename_i h
    exact .again (by simp [Calm, hio, h]) rfl (.inl (by simp [incoming, hio, h]))
  · rename_i e more h
    rw [h] at calm
    obtain ⟨he, hmore⟩ := List.forall_mem_cons.mp calm
    have he : rawReadError e = .again := he
    rw [he]
    exact .again (by simpa [Calm, hio] using hmore) (by simp [incoming, hio, h, RawRead.bytes])
      (.inr (by simp [reads, hio, h, RawRead.bytes]))
  · rename_i bytes more h
    rw [h] at calm
    obtain ⟨hne, hmore⟩ := List.forall_mem_cons.mp calm
    have hne : bytes ≠ [] := hne
    have hlen := List.length_pos_of_ne_nil hne
    have hgot : bytes.take nread ≠ [] := by
      rw [ne_eq, List.take_eq_nil_iff]
      simp [pos.ne', hne]
    by_cases hle : bytes.length ≤ nread
    · simp only [if_pos hle]
      refine .bytes hgot (by simpa [Calm, hio] using hmore) ?_ ?_
      · simp [incoming, hio, h, RawRead.bytes, List.take_of_length_le hle]
      · simp [reads, hio, h, RawRead.bytes]
    · simp only [if_neg hle]
      have hrest : bytes.drop nread ≠ [] := by
        rw [ne_eq, List.drop_eq_nil_iff]
        exact hle
      refine .bytes hgot ?_ ?_ ?_
      · simpa [Calm, hio] using ⟨hrest, hmore⟩
      · simp only [incoming, hio, h, RawRead.bytes, List.flatMap_cons]
        rw [← List.append_assoc, List.take_append_drop]
      · simp only [reads, hio, h, RawRead.bytes, List.map_cons, List.sum_cons, List.length_drop]
        omega

theorem sslRead_got {sock : Sock} (hio : sock.io = .ssl) (calm : sock.Calm) {nread : Nat}
    (pos : 0 < nread) : Got sock (sslRead nread sock) := by
  simp only [Calm, hio] at calm
  unfold sslRead
  split
  · rename_i h
    exact .again (by simp [Calm, hio, h]) rfl (.inl (by simp [incoming, hio, h]))
  · rename_i e more h
    rw [h] at calm
    obtain ⟨he, hmore⟩ := List.forall_mem_cons.mp calm
    have he : sslIoReturn e = .again := he
    rw [he]
    exact .again (by simpa [Calm, hio] using hmore) (by simp [incoming, hio, h, TlsRead.bytes])
      (.inr (by simp [reads, hio, h, TlsRead.bytes]))
  · rename_i b bytes more h
    rw [h] at calm
    obtain ⟨-, hmore⟩ := List.forall_mem_cons.mp calm
    have hgot : (b :: bytes).take nread ≠ [] := by
      rw [ne_eq, List.take_eq_nil_iff]
      simp [pos.ne']
    have hsplit := List.take_append_drop nread (b :: bytes)
    cases hrest : (b :: bytes).drop nread with
    | nil =>
      rw [hrest, List.append_nil] at hsplit
      refine .bytes hgot (by simpa [Calm, hio] using hmore) ?_ ?_
      · simp [incoming, hio, h, TlsRead.bytes, hsplit]
      · simp [reads, hio, h, TlsRead.bytes]
    | cons b' bytes' =>
      have hlen := congrArg List.length hrest
      rw [List.length_drop, List.length_cons, List.length_cons] at hlen
      rw [hrest] at hsplit
      refine .bytes hgot ?_ ?_ ?_
      · simp only [Calm, hio]
        exact List.forall_mem_cons.mpr ⟨trivial, hmore⟩
      · simp only [incoming, hio, h, TlsRead.bytes, List.flatMap_cons]
        rw [← List.append_assoc, hsplit]
      · simp only [reads, hio, h, TlsRead.bytes, List.map_cons, List.sum_cons, List.length_cons]
        omega

theorem read_got {sock : Sock} (calm : sock.Calm) {nread : Nat} (pos : 0 < nread) :
    Got sock (read nread sock) := by
  cases hio : sock.io with
  | raw =>
    have := rawRead_got hio calm pos
    simpa only [read, hio]
  | ssl =>
    have := sslRead_got hio calm pos
    simpa only [read, hio]
  | shutdown =>
    simp only [Calm, hio] at calm

end Sock

namespace Conn

/-- What the parser has still to be given. -/
def pending (conn : Conn) : List UInt8 := conn.unread ++ conn.socket.incoming

/-- What reading a packet has nothing to do with. -/
structure Untouched (c c' : Conn) : Prop where
  capabilities : c'.capabilities = c.capabilities
  server_status : c'.server_status = c.server_status
  warning_count : c'.warning_count = c.warning_count
  column_count : c'.column_count = c.column_count
  started_reading_rows : c'.started_reading_rows = c.started_reading_rows

theorem Untouched.refl (c : Conn) : Untouched c c := ⟨rfl, rfl, rfl, rfl, rfl⟩

theorem Untouched.trans {a b c : Conn} (h : Untouched a b) (h' : Untouched b c) : Untouched a c :=
  ⟨h'.1.trans h.1, h'.2.trans h.2, h'.3.trans h.3, h'.4.trans h.4, h'.5.trans h.5⟩

/-- Nothing is going to fail, as long as packets have no more than `n` bytes. -/
structure Ready (alloc : Alloc) (n : Nat) (c : Conn) : Prop where
  calm : c.socket.Calm
  pos_le : c.recv_buff_pos ≤ c.recv_buff.length
  steady : PacketParser.Steady c.packetParser
  grow : Buffer.Grows alloc c.packet_buffer.cap n

/-- The byte machine, before it reads what is pending. -/
def machine (c : Conn) : PacketParser × List UInt8 := (c.packetParser, c.packet_buffer.bytes)

/-- A run of the byte machine over all that is pending. -/
def Ends (c : Conn) (o : Option Int) (st : PacketParser × List UInt8) (rest : List UInt8) : Prop :=
  feed PacketParser.parseByte c.machine c.pending = (st, o, rest)

/-- No packet in there outgrows `n` bytes. -/
def Fits (n : Nat) (c : Conn) : Prop := PacketParser.Fits n c.machine c.pending

/-- What a call returns when the machine stops with `e`. -/
def outcome (e : Int) : Except Code Unit := if e < 0 then .error (Code.ofInt e) else .ok ()

theorem unread_eq_nil {c : Conn} (h : c.recv_buff_pos ≤ c.recv_buff.length) :
    c.unread = [] ↔ c.recv_buff_pos = c.recv_buff.length := by
  rw [unread, List.drop_eq_nil_iff]
  omega

@[simp] theorem consume_unread (c : Conn) (r : Executed Buffer) :
    (c.consume r).unread = c.unread.drop r.consumed := by
  rw [unread, unread, List.drop_drop]
  rfl

theorem consume_pending (c : Conn) (r : Executed Buffer) :
    (c.consume r).pending = c.unread.drop r.consumed ++ c.socket.incoming := by
  rw [pending, consume_unread]
  rfl

section

variable {alloc : Alloc} {n : Nat} {c : Conn} {o : Option Int} {st : PacketParser × List UInt8}
  {rest : List UInt8}

/-- The machine has stopped, and this is the connection then. -/
structure Stopped (alloc : Alloc) (n : Nat) (c : Conn) (st : PacketParser × List UInt8)
    (rest : List UInt8) (c' : Conn) : Prop where
  machine : c'.machine = st
  pending : c'.pending = rest
  ready : Ready alloc n c'
  untouched : Untouched c c'

/-- All that was read is parsed, and the machine goes on from here. -/
structure Waiting (alloc : Alloc) (n : Nat) (c : Conn) (o : Option Int)
    (st : PacketParser × List UInt8) (rest : List UInt8) (c' : Conn) : Prop where
  unread : c'.unread = []
  run : Ends c' o st rest
  fits : Fits n c'
  ready : Ready alloc n c'
  untouched : Untouched c c'

/-- The call of the parser, with something to parse. -/
theorem execute_step (ready : Ready alloc n c) (run : Ends c o st rest) (fits : Fits n c) :
    (∃ e c', o = some e ∧ execute alloc c = (outcome e, c') ∧ Stopped alloc n c st rest c') ∨
      ∃ c', execute alloc c = (.error .again, c') ∧ c'.socket = c.socket ∧
        Waiting alloc n c o st rest c' := by
  have hp := PacketParser.execute_parsed ready.steady ready.grow fits.left
  have hlen : c.unread.length = c.recv_buff.length - c.recv_buff_pos := List.length_drop
  have hbound := hp.bound
  have hpos := ready.pos_le
  rw [hlen] at hbound
  unfold execute
  simp only
  generalize PacketParser.execute (packetParserCallbacks alloc) c.packetParser
    c.packet_buffer c.unread = r at hp hbound
  have hready : Ready alloc n (c.consume r) :=
    ⟨ready.calm, by simp only [consume]; omega, hp.steady, ready.grow.mono hp.cap (Nat.le_refl _)⟩
  have huntouched : Untouched c (c.consume r) := ⟨rfl, rfl, rfl, rfl, rfl⟩
  have hmachine : (c.consume r).machine = (r.parser, r.user.bytes) := rfl
  rw [Ends, pending] at run
  rcases e : feed PacketParser.parseByte c.machine c.unread with ⟨st', _ | o', left⟩
  · have hleft := feed_none_rest e
    subst hleft
    obtain ⟨herr, hst, hdrop⟩ := hp.of_none e
    rw [feed_append_of_none e, ← hst] at run
    rw [herr, if_neg (by decide), if_neg (by decide)]
    have hpending : (c.consume r).pending = c.socket.incoming := by
      rw [consume_pending, hdrop, List.nil_append]
    refine .inr ⟨_, rfl, rfl, by rw [consume_unread, hdrop], ?_, ?_, hready, huntouched⟩
    · rw [Ends, hpending, hmachine]
      exact run
    · rw [Fits, hpending, hmachine, hst]
      exact PacketParser.Fits.append fits e
  · rw [feed_append_of_some e] at run
    simp only [Prod.mk.injEq] at run
    obtain ⟨rfl, rfl, rfl⟩ := run
    obtain ⟨herr, hst, hdrop⟩ := hp.of_stop e
    have hne : r.error ≠ 0 := by
      intro h0
      have hrun := hp.run
      rw [h0, if_pos rfl] at hrun
      rw [machine, hrun] at e
      cases e
    have hstopped : Stopped alloc n c st' (left ++ c.socket.incoming) (c.consume r) :=
      ⟨hmachine.trans hst, by rw [consume_pending, hdrop], hready, huntouched⟩
    refine .inl ⟨o', c.consume r, rfl, ?_, hstopped⟩
    rw [outcome, ← herr]
    by_cases hneg : r.error < 0
    · rw [if_pos hneg, if_pos hneg]
    · rw [if_neg hneg, if_neg hneg, if_pos (by omega)]

theorem onSocket_read {c : Conn} {r : Except Code (List UInt8)} {socket : Sock}
    (h : Sock.read defaultBufSize c.socket = (r, socket)) :
    onSocket (Sock.read defaultBufSize) c = (r, { c with socket }) := by
  rw [onSocket, Proc.zoom_apply, h]

/-- How much reading is left, before the calls stop asking to be called again. -/
def turnsLeft (c : Conn) : Nat := c.socket.reads + if c.unread = [] then 0 else 1

/-- One call. -/
theorem readPacket_step (ready : Ready alloc n c) (run : Ends c o st rest) (fits : Fits n c) :
    (∃ e c', o = some e ∧ readPacket alloc c = (outcome e, c') ∧ Stopped alloc n c st rest c') ∨
      ∃ c', readPacket alloc c = (.error .again, c') ∧
        (c.pending = [] ∨ c'.turnsLeft < c.turnsLeft) ∧ Waiting alloc n c o st rest c' := by
  by_cases hunread : c.unread = []
  · have hpos := (unread_eq_nil ready.pos_le).mp hunread
    have hgot := Sock.read_got ready.calm (by decide : 0 < defaultBufSize)
    generalize hread : Sock.read defaultBufSize c.socket = res at hgot
    have hrefill : refill c = (do
        let bytes ← onSocket (Sock.read defaultBufSize)
        if bytes.length = 0 then throw .closedConnection
        else modify fun conn => { conn with recv_buff := bytes, recv_buff_pos := 0 } :
          Proc Code Conn Unit) c := by
      rw [refill, Proc.get_bind, if_pos hpos]
    cases hgot with
    | @again socket calm hincoming less =>
      have hpending : ({ c with socket } : Conn).pending = c.pending := by
        rw [pending, pending, ← hincoming]
        rfl
      refine .inr ⟨{ c with socket }, ?_, ?_, hunread, ?_, ?_, ?_, ⟨rfl, rfl, rfl, rfl, rfl⟩⟩
      · rw [readPacket, Proc.bind_of_error]
        rw [hrefill, Proc.bind_of_error (onSocket_read hread)]
      · rcases less with hnil | less
        · exact .inl (by rw [pending, hunread, hnil]; rfl)
        · right
          simp only [turnsLeft, show ({ c with socket } : Conn).unread = c.unread from rfl]
          omega
      · rw [Ends, hpending]
        exact run
      · rw [Fits, hpending]
        exact fits
      · exact ⟨calm, ready.pos_le, ready.steady, ready.grow⟩
    | @bytes got socket nonempty calm hincoming less =>
      let c₁ : Conn := { c with socket, recv_buff := got, recv_buff_pos := 0 }
      have hc₁ : refill c = (.ok (), c₁) := by
        rw [hrefill, Proc.bind_of_ok (onSocket_read hread),
          if_neg (List.length_pos_of_ne_nil nonempty).ne']
        rfl
      have hpending : c₁.pending = c.pending := by
        rw [pending, pending, hunread, List.nil_append, hincoming]
        rfl
      have ready₁ : Ready alloc n c₁ := ⟨calm, Nat.zero_le _, ready.steady, ready.grow⟩
      have run₁ : Ends c₁ o st rest := by
        rw [Ends, hpending]
        exact run
      have fits₁ : Fits n c₁ := by
        rw [Fits, hpending]
        exact fits
      rw [readPacket, Proc.bind_of_ok hc₁]
      obtain ⟨e, c', he, hexecute, h⟩ | ⟨c', hexecute, hsocket, h⟩ :=
        execute_step ready₁ run₁ fits₁
      · exact .inl ⟨e, c', he, hexecute, { h with untouched := { h.untouched with } }⟩
      · refine .inr ⟨c', hexecute, .inr ?_, { h with untouched := { h.untouched with } }⟩
        have : c'.socket.reads = socket.reads := congrArg Sock.reads hsocket
        simp only [turnsLeft, h.unread, hunread, if_true]
        omega
  · have hpos := mt (unread_eq_nil ready.pos_le).mpr hunread
    have hrefill : refill c = (.ok (), c) := by
      rw [refill, Proc.get_bind, if_neg hpos]
      rfl
    rw [readPacket, Proc.bind_of_ok hrefill]
    obtain ⟨e, c', he, hexecute, h⟩ | ⟨c', hexecute, hsocket, h⟩ := execute_step ready run fits
    · exact .inl ⟨e, c', he, hexecute, h⟩
    · refine .inr ⟨c', hexecute, .inr ?_, h⟩
      rw [turnsLeft, turnsLeft, h.unread, hsocket, if_pos rfl, if_neg hunread]
      omega

/-- Called again for as long as it asks for it, `readPacket` gets to where the
machine stops. -/
theorem readPacket_returns {e : Int} (ready : Ready alloc n c) (run : Ends c (some e) st rest)
    (fits : Fits n c) (he : outcome e ≠ .error .again) :
    ∃ c', Returns .again (readPacket alloc) c (outcome e) c' ∧ Stopped alloc n c st rest c' := by
  generalize hturns : c.turnsLeft = turns
  induction turns using Nat.strong_induction_on generalizing c with
  | _ turns ih =>
    obtain ⟨e', c', hsome, hcall, h⟩ | ⟨c₁, hcall, hless, h⟩ := readPacket_step ready run fits
    · cases hsome
      exact ⟨c', .stop hcall he, h⟩
    · have hless := hless.resolve_left fun hnil => by
        rw [Ends, hnil] at run
        cases run
      obtain ⟨c', hreturns, h'⟩ := ih _ (hturns ▸ hless) h.ready h.run h.fits rfl
      exact ⟨c', .again hcall hreturns, { h' with untouched := h.untouched.trans h'.untouched }⟩

end

end Conn

/-- Packets one behind the other, with consecutive sequence ids. -/
def stream (s : UInt8) : List (List UInt8) → List UInt8
  | [] => []
  | p :: ps => frames s p ++ stream (s + UInt8.ofNat (extraFragments p.length) + 1) ps

theorem length_frames (s s' : UInt8) (p : List UInt8) :
    (frames s p).length = (frames s' p).length := by
  fun_induction frames s p generalizing s' with
  | case1 s p h => simp [frames_of_lt h, header]
  | case2 s p h ih =>
    have hframes : frames s' p = header maxPacketLen s' ++
        (p.take maxPacketLen ++ frames (s' + 1) (p.drop maxPacketLen)) := by
      rw [frames, if_neg h]
    rw [hframes]
    simp only [List.length_append, ih (s' + 1), header, length_leBytes, List.length_singleton]

theorem length_stream (s s' : UInt8) (packets : List (List UInt8)) :
    (stream s packets).length = (stream s' packets).length := by
  induction packets generalizing s s' with
  | nil => rfl
  | cons p ps ih =>
    simp only [stream, List.length_append, length_frames s s' p,
      ih (s + UInt8.ofNat (extraFragments p.length) + 1)
        (s' + UInt8.ofNat (extraFragments p.length) + 1)]

theorem stream_ne_nil (s : UInt8) {packets : List (List UInt8)} (h : packets ≠ []) :
    stream s packets ≠ [] := by
  obtain ⟨p, ps, rfl⟩ := List.exists_cons_of_ne_nil h
  have hframes : frames s p ≠ [] := by
    unfold frames
    split <;> simp [header]
  simp [stream, hframes]

namespace Conn

/-- At a packet boundary, with these packets to come and then `rest`. -/
structure Facing (alloc : Alloc) (n : Nat) (c : Conn) (packets : List (List UInt8))
    (rest : List UInt8) : Prop where
  ready : Ready alloc n c
  boundary : c.packetParser.state = .len0
  whole : c.packetParser.fragment = false
  pending : c.pending = stream c.packetParser.sequence_number packets ++ rest
  fits : ∀ p ∈ packets, p.length ≤ n

theorem Facing.read {alloc : Alloc} {n : Nat} {c : Conn} {p : List UInt8} {ps : List (List UInt8)}
    {rest : List UInt8} (h : Facing alloc n c (p :: ps) rest) :
    ∃ c', Returns .again (readPacket alloc) c (.ok ()) c' ∧ c'.packet_buffer.bytes = p ∧
      Facing alloc n c' ps rest ∧ Untouched c c' := by
  obtain ⟨hp, hps⟩ := List.forall_mem_cons.mp h.fits
  have run : Ends c (some 1) (c.packetParser.after p.length, p)
      (stream (c.packetParser.after p.length).sequence_number ps ++ rest) := by
    have := PacketParser.feed_frames h.boundary c.packet_buffer.bytes p
      (stream (c.packetParser.after p.length).sequence_number ps ++ rest)
    rw [h.whole, if_neg Bool.false_ne_true, List.nil_append] at this
    rw [Ends, h.pending, stream, List.append_assoc]
    exact this
  obtain ⟨fits, -⟩ := PacketParser.fits_of_stop run hp
  obtain ⟨c', hreturns, h'⟩ := readPacket_returns h.ready run fits (by decide)
  obtain ⟨hq, hbytes⟩ := Prod.mk.inj h'.machine
  refine ⟨c', hreturns, hbytes, ⟨h'.ready, by rw [hq]; rfl, by rw [hq]; rfl, ?_, hps⟩, h'.untouched⟩
  rw [h'.pending, hq]

end Conn

end Trilogy
