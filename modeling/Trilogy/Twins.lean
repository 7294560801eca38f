import Trilogy.Leftovers
import Trilogy.Calls

namespace Trilogy

open Lib Proc

theorem Sock.write_le {data : List UInt8} {nwrite n : Nat} {sock sock' : Sock}
    (h : Sock.write data nwrite sock = (.ok n, sock')) : n ≤ nwrite := by
  unfold Sock.write Sock.rawWrite Sock.sslWrite at h
  split at h
  · split at h
    · cases h
    · cases h
    · cases h
      exact Nat.min_le_right _ _
  · split at h
    · cases h
    · cases h
    · cases h
      exact Nat.min_le_right _ _
  · cases h

/-- Two connections that differ in what the packet buffer keeps; what it holds is
the same, unless it is about to be dropped and `w` does not hold. -/
def TwinConn (G : Nat → Nat → Prop) (k : Nat) (w : Prop) (c c' : Conn) : Prop :=
  ∃ buffer, Twin G k (w ∨ ¬ c.packetParser.Awaits) c.packet_buffer buffer ∧
    c' = { c with packet_buffer := buffer }

namespace Conn

variable {alloc : Alloc} {G : Nat → Nat → Prop} {k : Nat} {w : Prop} {c c' : Conn}

theorem twin_execute (grow : SameGrowth alloc G) (h : TwinConn G k w c c') :
    (execute alloc c').1 = (execute alloc c).1 ∧
      TwinConn G k (w ∨ (execute alloc c).1 = .ok ()) (execute alloc c).2 (execute alloc c').2 := by
  obtain ⟨buffer, h, rfl⟩ := h
  have hparse := PacketParser.twin_execute grow h c.unread
  unfold execute
  simp only [show ({ c with packet_buffer := buffer } : Conn).unread = c.unread from rfl]
  generalize PacketParser.execute (packetParserCallbacks alloc) c.packetParser c.packet_buffer
    c.unread = t at hparse ⊢
  generalize PacketParser.execute (packetParserCallbacks alloc) c.packetParser buffer
    c.unread = t' at hparse ⊢
  have hconsume : ∀ {w' : Prop}, (w' ∨ ¬ t.parser.Awaits → w ∨ ¬ t.parser.Awaits ∨ 0 < t.error) →
      TwinConn G k w' (c.consume t) ({ c with packet_buffer := buffer }.consume t') := by
    intro w' hw
    refine ⟨t'.user, hparse.user.weaken hw, ?_⟩
    simp only [consume, hparse.parser, hparse.consumed]
    rfl
  rw [hparse.error]
  by_cases hneg : t.error < 0
  · rw [if_pos hneg, if_pos hneg]
    refine ⟨rfl, hconsume ?_⟩
    simp only [reduceCtorEq, or_false]
    exact fun hp => hp.imp_right Or.inl
  · rw [if_neg hneg, if_neg hneg]
    by_cases hpos : t.error > 0
    · rw [if_pos hpos, if_pos hpos]
      exact ⟨rfl, hconsume fun _ => .inr (.inr hpos)⟩
    · rw [if_neg hpos, if_neg hpos]
      refine ⟨rfl, hconsume ?_⟩
      simp only [reduceCtorEq, or_false]
      exact fun hp => hp.imp_right Or.inl

theorem blind_onSocket {α : Type} (m : Proc Code Sock α) :
    Blind (TwinConn G k w) (onSocket m) := by
  rintro c _ ⟨buffer, h, rfl⟩
  exact ⟨.rfl, buffer, h, rfl⟩

theorem blind_refill : Blind (TwinConn G k w) refill := by
  apply Blind.get_bind
  · rintro c _ ⟨buffer, -, rfl⟩
    rfl
  · intro conn
    apply Blind.ite
    · intro _
      apply Blind.bind (blind_onSocket _)
      intro bytes
      apply Blind.ite
      · intro _
        exact .throw _
      · intro _
        apply Blind.modify
        rintro c _ ⟨buffer, h, rfl⟩
        exact ⟨buffer, h, rfl⟩
    · intro _
      exact .pure _

/-- A packet that was read in both runs is the same. -/
theorem twin_readPacket (grow : SameGrowth alloc G) (h : TwinConn G k w c c') :
    (readPacket alloc c').1 = (readPacket alloc c).1 ∧
      TwinConn G k (w ∨ (readPacket alloc c).1 = .ok ()) (readPacket alloc c).2
        (readPacket alloc c').2 := by
  obtain ⟨hend, hafter⟩ := blind_refill c c' h
  rw [readPacket, Proc.bind_apply, Proc.bind_apply]
  rcases e : refill c with ⟨rc | _, c₁⟩
  · rcases e' : refill c' with ⟨rc' | _, c₁'⟩
    · rw [e, e'] at hend hafter
      cases hend
      refine ⟨rfl, ?_⟩
      simpa using hafter
    · rw [e, e'] at hend
      cases hend
  · rcases e' : refill c' with ⟨rc' | _, c₁'⟩
    · rw [e, e'] at hend
      cases hend
    · rw [e, e'] at hafter
      exact twin_execute grow hafter

/-- The contents count, whatever the parser is about to do. -/
abbrev Twins (G : Nat → Nat → Prop) (k : Nat) : Conn → Conn → Prop := TwinConn G k True

theorem twins_iff : Twins G k c c' ↔
    ∃ buffer, Twin G k True c.packet_buffer buffer ∧ c' = { c with packet_buffer := buffer } := by
  simp [Twins, TwinConn]

theorem blind_readPacket (grow : SameGrowth alloc G) :
    Blind (Twins G k) (readPacket alloc) := by
  intro c c' h
  obtain ⟨hend, hafter⟩ := twin_readPacket grow h
  refine ⟨by rw [hend]; exact .rfl, ?_⟩
  simpa using hafter

theorem blind_parsePacket {α : Type} (m : Proc Code Reader α) :
    Blind (Twins G k) (parsePacket m) := by
  intro c c' h
  refine ⟨?_, h⟩
  obtain ⟨buffer, hb, rfl⟩ := twins_iff.mp h
  rw [parsePacket, parsePacket, hb.bytes trivial]
  exact .rfl

/-- An update that has nothing to do with the packet buffer. -/
theorem blind_modify {f : Conn → Conn}
    (same : ∀ c, (f c).packet_buffer = c.packet_buffer)
    (commutes : ∀ (c : Conn) packet_buffer,
      f { c with packet_buffer } = { f c with packet_buffer }) :
    Blind (Twins G k) (modify f : Proc Code Conn Unit) := by
  apply Blind.modify
  intro c c' h
  obtain ⟨buffer, hb, rfl⟩ := twins_iff.mp h
  exact twins_iff.mpr ⟨buffer, by rw [same c]; exact hb, commutes c buffer⟩

/-- A part that depends on the connection, but not on the packet buffer. -/
theorem blind_get {α : Type} {g : Conn → Proc Code Conn α}
    (same : ∀ (c : Conn) packet_buffer, g { c with packet_buffer } = g c)
    (h : ∀ c, Blind (Twins G k) (g c)) : Blind (Twins G k) (get >>= g) := by
  apply Blind.get_bind
  · intro c c' hc
    obtain ⟨buffer, -, rfl⟩ := twins_iff.mp hc
    exact same c buffer
  · exact h

theorem blind_readOkPacket : Blind (Twins G k) readOkPacket := by
  apply blind_get (fun _ _ => rfl)
  intro conn
  apply Blind.bind (blind_parsePacket _)
  intro packet
  have hset : ∀ {f : Conn → Conn}, (∀ c, (f c).packet_buffer = c.packet_buffer) →
      (∀ (c : Conn) packet_buffer, f { c with packet_buffer } = { f c with packet_buffer }) →
      Blind (Twins G k) (modify f : Proc Code Conn Unit) := blind_modify
  exact .bind (.when fun _ => hset (fun _ => rfl) fun _ _ => rfl) fun _ =>
    .bind (hset (fun _ => rfl) fun _ _ => rfl) fun _ =>
    .when fun _ => hset (fun _ => rfl) fun _ _ => rfl

theorem blind_readErrPacket {α : Type} : Blind (Twins G k) (readErrPacket : Proc Code Conn α) := by
  apply blind_get (fun _ _ => rfl)
  intro conn
  apply Blind.bind (blind_parsePacket _)
  intro packet
  exact .bind (blind_modify (fun _ => rfl) fun _ _ => rfl) fun _ => .throw _

theorem blind_readEofPacket : Blind (Twins G k) readEofPacket := by
  apply blind_get (fun _ _ => rfl)
  intro conn
  apply Blind.ite
  · intro _
    exact blind_readOkPacket
  · intro _
    apply blind_get (fun _ _ => rfl)
    intro conn
    apply Blind.bind (blind_parsePacket _)
    intro packet
    exact .when fun _ => blind_modify (fun _ => rfl) fun _ _ => rfl

/-- A part that looks at the type of the packet too, and at its length. -/
theorem blind_dispatch (front : 1 ≤ k) {α : Type} {g : UInt8 → Nat → Conn → Proc Code Conn α}
    (same : ∀ type len (c : Conn) packet_buffer,
      g type len { c with packet_buffer } = g type len c)
    (h : ∀ type len c, Blind (Twins G k) (g type len c)) :
    Blind (Twins G k) (do
      let conn ← get
      g conn.currentPacketType conn.packet_buffer.len conn) := by
  apply Blind.get_bind
  · intro c c' hc
    obtain ⟨buffer, hb, rfl⟩ := twins_iff.mp hc
    have htype : ({ c with packet_buffer := buffer } : Conn).currentPacketType =
        c.currentPacketType := hb.front 0 front
    rw [htype, hb.len]
    exact same _ _ c buffer
  · intro conn
    exact h _ _ conn

theorem blind_handleGenericResponse (front : 1 ≤ k) :
    Blind (Twins G k) handleGenericResponse := by
  apply blind_dispatch front (g := fun type _ _ =>
    if type = Packet.ok then readOkPacket
    else if type = Packet.err then readErrPacket
    else throw .unexpectedPacket) (fun _ _ _ _ => rfl)
  intro type len conn
  exact .ite (fun _ => blind_readOkPacket) fun _ => .ite (fun _ => blind_readErrPacket) fun _ =>
    .throw _

/-- What the buffer holds is dropped first. -/
theorem twin_beginCommandPhase (grow : SameGrowth alloc G) (seq : UInt8) {buffer : Buffer}
    (h : Twin G k True c.packet_buffer.reset buffer.reset) :
    SameEnd (TwinBuilder G k) (beginCommandPhase alloc seq c).1
        (beginCommandPhase alloc seq { c with packet_buffer := buffer }).1 ∧
      Twins G k (beginCommandPhase alloc seq c).2
        (beginCommandPhase alloc seq { c with packet_buffer := buffer }).2 := by
  obtain ⟨hend, hafter⟩ := Builder.blind_writeHeader (k := k) grow
    { buffer := c.packet_buffer.reset
      header_offset := 0
      packet_length := 0
      packet_max_length := sizeMax
      fragment_length := 0
      seq := seq } _ ⟨_, h, rfl⟩
  unfold beginCommandPhase Builder.init
  generalize Builder.writeHeader alloc
    { buffer := c.packet_buffer.reset
      header_offset := 0
      packet_length := 0
      packet_max_length := sizeMax
      fragment_length := 0
      seq := seq } = r at hend hafter ⊢
  generalize Builder.writeHeader alloc
    { buffer := buffer.reset
      header_offset := 0
      packet_length := 0
      packet_max_length := sizeMax
      fragment_length := 0
      seq := seq } = r' at hend hafter ⊢
  rcases r with ⟨rc | _, b⟩
  · rcases r' with ⟨rc' | _, b'⟩
    · cases hend
      obtain ⟨buffer', hb, rfl⟩ := hafter
      exact ⟨.error rc, twins_iff.mpr ⟨buffer', hb, rfl⟩⟩
    · cases hend
  · rcases r' with ⟨rc' | _, b'⟩
    · cases hend
    · obtain ⟨buffer', hb, rfl⟩ := hafter
      have hmax : TwinBuilder G k
          (if c.socket.opts.max_allowed_packet > 0
            then (Builder.setMaxPacketLength c.socket.opts.max_allowed_packet b).2 else b)
          (if c.socket.opts.max_allowed_packet > 0
            then (Builder.setMaxPacketLength c.socket.opts.max_allowed_packet
              { b with buffer := buffer' }).2
            else { b with buffer := buffer' }) := by
        by_cases hpos : c.socket.opts.max_allowed_packet > 0
        · rw [if_pos hpos, if_pos hpos]
          exact (Builder.blind_setMaxPacketLength _ b _ ⟨buffer', hb, rfl⟩).2
        · rw [if_neg hpos, if_neg hpos]
          exact ⟨buffer', hb, rfl⟩
      refine ⟨.ok hmax, ?_⟩
      obtain ⟨buffer'', hb, heq⟩ := hmax
      exact twins_iff.mpr ⟨_, by rw [heq]; exact hb, rfl⟩

theorem alike_beginCommandPhase (grow : SameGrowth alloc G) (seq : UInt8) :
    Alike (Twins G k) (TwinBuilder G k) (beginCommandPhase alloc seq)
      (beginCommandPhase alloc seq) := by
  intro c c' h
  obtain ⟨buffer, hb, rfl⟩ := twins_iff.mp h
  exact twin_beginCommandPhase grow seq hb.reset

theorem alike_build {m : Proc Code Builder Unit} (hm : Blind (TwinBuilder G k) m)
    {builder builder' : Builder} (hb : TwinBuilder G k builder builder') :
    Alike (Twins G k) (TwinBuilder G k) (build builder m) (build builder' m) := by
  intro c c' h
  obtain ⟨_, -, rfl⟩ := twins_iff.mp h
  obtain ⟨hend, hafter⟩ := hm builder builder' hb
  unfold build
  rcases e : m builder with ⟨rc | _, b⟩
  · rcases e' : m builder' with ⟨rc' | _, b'⟩
    · rw [e, e'] at hend hafter
      cases hend
      obtain ⟨buffer, hb, rfl⟩ := hafter
      exact ⟨.error rc, twins_iff.mpr ⟨buffer, hb, rfl⟩⟩
    · rw [e, e'] at hend
      cases hend
  · rcases e' : m builder' with ⟨rc' | _, b'⟩
    · rw [e, e'] at hend
      cases hend
    · rw [e, e'] at hafter
      refine ⟨.ok hafter, ?_⟩
      obtain ⟨buffer, hb, rfl⟩ := hafter
      exact twins_iff.mpr ⟨buffer, hb, rfl⟩

/-- No more was written than the packet buffer holds; it may be about a shorter packet
that was read since. -/
def Within (c : Conn) : Prop := c.packet_buffer_written ≤ c.packet_buffer.len

/-- Twins of which a flush writes nothing but contents. -/
def Flushable (G : Nat → Nat → Prop) (k : Nat) (c c' : Conn) : Prop := Twins G k c c' ∧ c.Within

theorem blind_flushWrites : Blind (Flushable G k) flushWrites := by
  rintro c c' ⟨h, within⟩
  obtain ⟨buffer, hb, rfl⟩ := twins_iff.mp h
  have within' : ({ c with packet_buffer := buffer } : Conn).packet_buffer_written ≤
      ({ c with packet_buffer := buffer } : Conn).packet_buffer.len := by
    dsimp only
    rw [hb.len]
    exact within
  have hdrop := write_unwritten within
  have hdrop' := write_unwritten within'
  dsimp only at hdrop'
  rw [hb.bytes trivial, hb.len] at hdrop'
  rw [flushWrites, get_bind, get_bind]
  dsimp only
  rw [hb.len, hdrop, hdrop']
  generalize hdata : c.packet_buffer.bytes.drop c.packet_buffer_written = data
  rcases hwrite : Sock.write data data.length c.socket with ⟨rc | n, socket⟩
  · have herror : ∀ conn : Conn, conn.socket = c.socket →
        onSocket (Sock.write data data.length) conn = (.error rc, { conn with socket }) := by
      intro conn hsame
      rw [onSocket, zoom_apply, hsame, hwrite]
    rw [bind_of_error (herror c rfl), bind_of_error (herror { c with packet_buffer := buffer } rfl)]
    exact ⟨.error rc, twins_iff.mpr ⟨buffer, hb, rfl⟩, within⟩
  · have hok : ∀ conn : Conn, conn.socket = c.socket →
        onSocket (Sock.write data data.length) conn = (.ok n, { conn with socket }) := by
      intro conn hsame
      rw [onSocket, zoom_apply, hsame, hwrite]
    rw [bind_of_ok (hok c rfl), bind_of_ok (hok { c with packet_buffer := buffer } rfl),
      modify_bind, modify_bind, get_bind, get_bind]
    dsimp only
    rw [hb.len]
    have hlen : c.packet_buffer_written + n ≤ c.packet_buffer.len := by
      have hn := Sock.write_le hwrite
      rw [← hdata, List.length_drop] at hn
      unfold Within at within
      unfold Buffer.len at within ⊢
      omega
    have hafter : Flushable G k
        { c with socket, packet_buffer_written := c.packet_buffer_written + n }
        { c with socket, packet_buffer_written := c.packet_buffer_written + n,
                 packet_buffer := buffer } := ⟨twins_iff.mpr ⟨buffer, hb, rfl⟩, hlen⟩
    by_cases hmore : c.packet_buffer_written + n < c.packet_buffer.len
    · rw [if_pos hmore]
      exact ⟨.error _, hafter⟩
    · rw [if_neg hmore]
      exact ⟨.rfl, hafter⟩

/-- From the start of a packet on nothing else is written. -/
theorem twins_beginWrite (h : Twins G k c c') :
    SameEnd Eq (beginWrite c).1 (beginWrite c').1 ∧
      Flushable G k (beginWrite c).2 (beginWrite c').2 := by
  rw [beginWrite, modify_bind, modify_bind]
  apply blind_flushWrites
  obtain ⟨buffer, hb, rfl⟩ := twins_iff.mp h
  exact ⟨twins_iff.mpr ⟨buffer, hb, rfl⟩, Nat.zero_le _⟩

theorem blind_beginWrite : Blind (Twins G k) beginWrite := by
  intro c c' h
  obtain ⟨hend, hafter, -⟩ := twins_beginWrite h
  exact ⟨hend, hafter⟩

theorem blind_sendPacket (grow : SameGrowth alloc G) (seq : UInt8) {m : Proc Code Builder Unit}
    (hm : Blind (TwinBuilder G k) m) : Blind (Twins G k) (sendPacket alloc seq m) := by
  apply Alike.bind (alike_beginCommandPhase grow seq)
  intro builder builder' hb
  apply Alike.bind (alike_build hm hb)
  intro _ _ _
  exact blind_beginWrite

theorem blind_sendPacketInSequence (grow : SameGrowth alloc G) {m : Proc Code Builder Unit}
    (hm : Blind (TwinBuilder G k) m) : Blind (Twins G k) (sendPacketInSequence alloc m) := by
  apply Alike.bind (alike_beginCommandPhase grow 0)
  intro builder builder' hb
  apply Alike.bind (alike_build hm hb)
  rintro builder _ ⟨buffer, -, rfl⟩
  exact Blind.bind (blind_modify (fun _ => rfl) fun _ _ => rfl) fun _ => blind_beginWrite

theorem blind_flushPassword (turns : Nat) (rc : Except Code Unit) :
    Blind (Flushable G k) (flushPassword turns rc) := by
  have wait : Blind (Flushable G k) (onSocket Sock.wait) := by
    rintro c c' ⟨h, within⟩
    obtain ⟨hend, hafter⟩ := blind_onSocket Sock.wait c c' h
    exact ⟨hend, hafter, within⟩
  induction turns generalizing rc with
  | zero =>
    cases rc with
    | ok _ => exact .pure _
    | error rc => exact .throw _
  | succ turns ih =>
    cases rc with
    | ok _ => exact .pure _
    | error rc =>
      cases rc with
      | again => exact .bind wait fun _ => .bind blind_flushWrites.attempt ih
      | _ => exact .throw _

theorem blind_sendClearPassword (grow : SameGrowth alloc G) :
    Blind (Twins G k) (sendClearPassword alloc) := by
  apply blind_get (fun _ _ => rfl)
  intro conn
  apply Alike.bind (alike_beginCommandPhase grow _)
  intro builder builder' hb
  apply Alike.bind (alike_build (blind_buildAuthClearPassword grow _) hb)
  intro _ _ _ c c' h
  obtain ⟨hend, hafter⟩ := twins_beginWrite h
  rw [attempt_bind, attempt_bind, ← hend.eq, get_bind, get_bind]
  obtain ⟨_, -, hsame⟩ := twins_iff.mp hafter.1
  have hpolls : (beginWrite c').2.socket = (beginWrite c).2.socket := by rw [hsame]
  obtain ⟨hend', hafter', -⟩ := blind_flushPassword _ (beginWrite c).1 _ _ hafter
  rw [hpolls]
  exact ⟨hend', hafter'⟩

theorem blind_awaitPacket (grow : SameGrowth alloc G) (turns : Nat) :
    Blind (Twins G k) (awaitPacket alloc turns) := by
  induction turns with
  | zero => exact .throw _
  | succ turns ih =>
    apply Blind.bind (blind_readPacket grow).attempt
    intro rc
    cases rc with
    | ok _ => exact .pure _
    | error rc =>
      cases rc with
      | again => exact .bind (blind_onSocket _) fun _ => ih
      | _ => exact .throw _

theorem blind_authClearPassword : Blind (Twins G k) authClearPassword :=
  blind_modify (fun _ => rfl) fun _ _ => rfl

theorem blind_readAuthSwitchPacket (packet : AuthSwitchRequestPacket) (handshake : Handshake) :
    Blind (Twins G k) (readAuthSwitchPacket packet handshake) := by
  apply blind_get (fun _ _ => rfl)
  intro conn
  apply Blind.bind (blind_parsePacket _)
  intro packet
  exact .ite (fun _ => .throw _) fun _ => .pure _

/-- The rest of `authRecv`, once it has a packet with these first two bytes. -/
def authReply (alloc : Alloc) (packet : AuthSwitchRequestPacket) (handshake : Handshake)
    (type byte : UInt8) (conn : Conn) : Proc Code Conn (Option Handshake) :=
  if type = Packet.authMoreData then do
    let use_ssl := has conn.socket.opts.flags Capabilities.ssl
    let has_unix_socket := conn.socket.opts.path.isSome
    if !use_ssl && !has_unix_socket then throw .unsupported
    else do
      (if byte = 3 then pure ()
       else if byte = 4 then sendClearPassword alloc
       else throw .unexpectedPacket)
      let conn ← get
      awaitPacket alloc (conn.socket.net.polls.length + 1)
      authClearPassword
      handleGenericResponse
      pure none
  else if type = Packet.eof then do
    let handshake ← readAuthSwitchPacket packet handshake
    pure (some handshake)
  else do
    authClearPassword
    handleGenericResponse
    pure none

def authDispatch (alloc : Alloc) (packet : AuthSwitchRequestPacket) (handshake : Handshake) :
    Proc Code Conn (Option Handshake) := do
  let conn ← get
  authReply alloc packet handshake conn.currentPacketType (conn.packet_buffer.byteAt 1) conn

theorem blind_authReply (grow : SameGrowth alloc G) (front : 1 ≤ k)
    (packet : AuthSwitchRequestPacket) (handshake : Handshake) (type byte : UInt8) (conn : Conn) :
    Blind (Twins G k) (authReply alloc packet handshake type byte conn) := by
  have hgeneric : Blind (Twins G k) (do
      authClearPassword
      handleGenericResponse
      pure none : Proc Code Conn (Option Handshake)) :=
    .bind blind_authClearPassword fun _ => .bind (blind_handleGenericResponse front) fun _ =>
      .pure _
  apply Blind.ite
  · intro _
    apply Blind.ite
    · intro _
      exact .throw _
    · intro _
      apply Blind.bind (.ite (fun _ => .pure _) fun _ =>
        .ite (fun _ => blind_sendClearPassword grow) fun _ => .throw _)
      intro _
      apply blind_get (fun _ _ => rfl)
      intro conn
      exact .bind (blind_awaitPacket grow _) fun _ => hgeneric
  · intro _
    exact .ite (fun _ => .bind (blind_readAuthSwitchPacket _ _) fun _ => .pure _) fun _ => hgeneric

theorem blind_authDispatch (grow : SameGrowth alloc G) (front : 2 ≤ k)
    (packet : AuthSwitchRequestPacket) (handshake : Handshake) :
    Blind (Twins G k) (authDispatch alloc packet handshake) := by
  apply Blind.get_bind
  · intro c c' h
    obtain ⟨buffer, hb, rfl⟩ := twins_iff.mp h
    have htype : ({ c with packet_buffer := buffer } : Conn).currentPacketType =
        c.currentPacketType := hb.front 0 (by omega)
    rw [htype, hb.front 1 (by omega)]
    rfl
  · intro conn
    exact blind_authReply grow (by omega) packet handshake _ _ conn

theorem blind_authRecv (grow : SameGrowth alloc G) (front : 2 ≤ k)
    (packet : AuthSwitchRequestPacket) (handshake : Handshake) :
    Blind (Twins G k) (authRecv alloc packet handshake) :=
  .bind (blind_readPacket grow) fun _ => blind_authDispatch grow front packet handshake

theorem blind_readEof (grow : SameGrowth alloc G) : Blind (Twins G k) (readEof alloc) :=
  .bind (blind_readPacket grow) fun _ => blind_readEofPacket

theorem blind_beginRows (grow : SameGrowth alloc G) : Blind (Twins G k) (beginRows alloc) := by
  apply blind_get (fun _ _ => rfl)
  intro conn
  apply Blind.ite
  · intro _
    exact .bind (.when fun _ => blind_readEof grow) fun _ =>
      blind_modify (fun _ => rfl) fun _ _ => rfl
  · intro _
    exact .pure _

/-- The rest of a function that reads a row, once it has a packet of this type
and length. -/
def rowDispatch {α : Type} (m : Conn → Proc Code Reader α) (type : UInt8) (len : Nat)
    (conn : Conn) : Proc Code Conn α :=
  if type = Packet.eof ∧ len < 9 then do
    readEofPacket
    throw .eof
  else if type = Packet.err then readErrPacket
  else parsePacket (m conn)

theorem blind_rowDispatch {α : Type} (front : 1 ≤ k) {m : Conn → Proc Code Reader α}
    (same : ∀ (c : Conn) packet_buffer, m { c with packet_buffer } = m c) :
    Blind (Twins G k) (do
      let conn ← get
      rowDispatch m conn.currentPacketType conn.packet_buffer.len conn) := by
  apply blind_dispatch front (g := rowDispatch m)
  · intro type len c packet_buffer
    rw [rowDispatch, rowDispatch, same]
  · intro type len conn
    exact .ite (fun _ => .bind blind_readEofPacket fun _ => .throw _) fun _ =>
      .ite (fun _ => blind_readErrPacket) fun _ => blind_parsePacket _

theorem blind_readRow (grow : SameGrowth alloc G) (front : 1 ≤ k) :
    Blind (Twins G k) (readRow alloc) :=
  .bind (blind_beginRows grow) fun _ => .bind (blind_readPacket grow) fun _ =>
    blind_rowDispatch front fun _ _ => rfl

theorem blind_stmtReadRow (grow : SameGrowth alloc G) (front : 1 ≤ k) (stmt : StmtOkPacket)
    (columns : List Column) (values_out : List BinaryValue) :
    Blind (Twins G k) (stmtReadRow alloc stmt columns values_out) :=
  .bind (blind_readPacket grow) fun _ => blind_rowDispatch front fun _ _ => rfl

theorem blind_drainRows (grow : SameGrowth alloc G) (front : 1 ≤ k) (turns : Nat) :
    Blind (Twins G k) (drainRows alloc turns) := by
  induction turns with
  | zero => exact .throw _
  | succ turns ih =>
    apply Blind.bind (blind_readPacket grow)
    intro _
    apply blind_dispatch front (g := fun type len _ =>
      if type = Packet.eof ∧ len < 9 then pure () else drainRows alloc turns) (fun _ _ _ _ => rfl)
    intro type len conn
    exact .ite (fun _ => .pure _) fun _ => ih

theorem blind_drainResults (grow : SameGrowth alloc G) (front : 1 ≤ k) :
    Blind (Twins G k) (drainResults alloc) := by
  apply blind_get (fun _ _ => rfl)
  intro conn
  apply Blind.bind
  · apply Blind.ite
    · intro _
      exact .bind (blind_readEof grow) fun _ => blind_modify (fun _ => rfl) fun _ _ => rfl
    · intro _
      exact .pure _
  · intro _
    apply blind_get (fun _ _ => rfl)
    intro conn
    exact blind_drainRows grow front _

theorem blind_closeRecv (grow : SameGrowth alloc G) : Blind (Twins G k) (closeRecv alloc) := by
  apply Blind.bind (blind_onSocket _)
  intro _
  apply Blind.bind (blind_readPacket grow).attempt
  intro rc
  cases rc with
  | ok _ => exact .throw _
  | error rc =>
    cases rc with
    | closedConnection => exact .pure _
    | _ => exact .throw _

def connectReply (handshake : Handshake) (type : UInt8) : Proc Code Conn Handshake :=
  if type = Packet.err then readErrPacket
  else do
    let handshake ← parsePacket (parseHandshakePacket handshake)
    modify fun conn =>
      { conn with
        capabilities := handshake.capabilities
        server_status := handshake.server_status }
    pure handshake

def setOptionReply (type : UInt8) : Proc Code Conn Unit :=
  if type = Packet.ok ∨ type = Packet.eof then readOkPacket
  else if type = Packet.err then readErrPacket
  else throw .unexpectedPacket

/-- What `queryRecv` and `stmtExecuteRecv` share. -/
def resultReply (note : ResultPacket → Conn → Conn) (type : UInt8) :
    Proc Code Conn (Option UInt64) :=
  if type = Packet.ok then do
    readOkPacket
    pure none
  else if type = Packet.err then readErrPacket
  else do
    let result_packet ← parsePacket parseResultPacket
    modify (note result_packet)
    pure (some result_packet.column_count)

def stmtPrepareReply (type : UInt8) : Proc Code Conn StmtOkPacket :=
  if type = Packet.ok then do
    let stmt ← parsePacket parseStmtOkPacket
    modify fun conn => { conn with warning_count := stmt.warning_count }
    pure stmt
  else if type = Packet.err then readErrPacket
  else throw .unexpectedPacket

theorem blind_connectReply (handshake : Handshake) (type : UInt8) :
    Blind (Twins G k) (connectReply handshake type) := by
  apply Blind.ite
  · intro _
    exact blind_readErrPacket
  · intro _
    apply Blind.bind (blind_parsePacket _)
    intro handshake
    exact .bind (blind_modify (fun _ => rfl) fun _ _ => rfl) fun _ => .pure _

theorem blind_setOptionReply (type : UInt8) : Blind (Twins G k) (setOptionReply type) :=
  .ite (fun _ => blind_readOkPacket) fun _ => .ite (fun _ => blind_readErrPacket) fun _ => .throw _

theorem blind_resultReply (note : ResultPacket → Conn → Conn)
    (same : ∀ packet c, (note packet c).packet_buffer = c.packet_buffer)
    (commutes : ∀ packet (c : Conn) packet_buffer,
      note packet { c with packet_buffer } = { note packet c with packet_buffer })
    (type : UInt8) : Blind (Twins G k) (resultReply note type) := by
  apply Blind.ite
  · intro _
    exact .bind blind_readOkPacket fun _ => .pure _
  · intro _
    apply Blind.ite
    · intro _
      exact blind_readErrPacket
    · intro _
      apply Blind.bind (blind_parsePacket _)
      intro packet
      exact .bind (blind_modify (same packet) (commutes packet)) fun _ => .pure _

theorem blind_stmtPrepareReply (type : UInt8) : Blind (Twins G k) (stmtPrepareReply type) := by
  apply Blind.ite
  · intro _
    apply Blind.bind (blind_parsePacket _)
    intro packet
    exact .bind (blind_modify (fun _ => rfl) fun _ _ => rfl) fun _ => .pure _
  · intro _
    exact .ite (fun _ => blind_readErrPacket) fun _ => .throw _

/-- A function that reads a packet and looks at its type. -/
theorem blind_recv {α : Type} (grow : SameGrowth alloc G) (front : 1 ≤ k)
    {reply : UInt8 → Proc Code Conn α} (h : ∀ type, Blind (Twins G k) (reply type)) :
    Blind (Twins G k) (do
      readPacket alloc
      let conn ← get
      reply conn.currentPacketType) :=
  .bind (blind_readPacket grow) fun _ =>
    blind_dispatch front (g := fun type _ _ => reply type) (fun _ _ _ _ => rfl) fun type _ _ =>
      h type

theorem blind_connectSendSocket (sock : Sock) :
    Blind (TwinConn G k w) (connectSendSocket sock) := by
  rintro c _ ⟨buffer, h, rfl⟩
  unfold connectSendSocket
  split
  · exact ⟨.rfl, buffer, h, rfl⟩
  · exact ⟨.rfl, buffer, h, rfl⟩

theorem blind_connectSend (opts : SockOpt) (net : Net) :
    Blind (TwinConn G k w) (connectSend opts net) := by
  intro c c' h
  unfold connectSend
  split
  · exact ⟨.rfl, h⟩
  · exact blind_connectSendSocket _ c c' h

theorem blind_sslRequestSend (grow : SameGrowth alloc G) :
    Blind (Twins G k) (sslRequestSend alloc) := by
  apply blind_get (fun _ _ => rfl)
  intro conn
  apply Alike.bind (alike_beginCommandPhase grow _)
  intro builder builder' hb
  apply Alike.bind (R := Eq)
  · exact blind_modify (fun _ => rfl) fun _ _ => rfl
  · intro _ _ _
    apply Alike.bind (R := fun conn conn' => conn'.socket = conn.socket)
    · intro c c' h
      obtain ⟨_, -, rfl⟩ := twins_iff.mp h
      exact ⟨.ok rfl, h⟩
    · intro conn conn' hsocket
      rw [hsocket]
      apply Alike.bind (alike_build (blind_buildSslRequestPacket grow _ _) hb)
      intro _ _ _
      exact blind_beginWrite

end Conn

open Conn in
/-- No call that is not a flush tells twins apart, as long as the first two bytes of
the storage are the same. -/
theorem Call.blind {alloc : Alloc} {G : Nat → Nat → Prop} {k : Nat} (grow : SameGrowth alloc G)
    (front : 2 ≤ k) (digests : Digests) {call : Call} (other : call ≠ flushWrites) :
    Blind (Twins G k) (call.run alloc digests) := by
  have front₁ : 1 ≤ k := by omega
  have done : ∀ {m : Proc Code Conn Unit}, Blind (Twins G k) m →
      Blind (Twins G k) (do m; pure Decoded.done) :=
    fun hm => .bind hm fun _ => .pure _
  have map : ∀ {α : Type} {m : Proc Code Conn α} {f : α → Decoded}, Blind (Twins G k) m →
      Blind (Twins G k) (f <$> m) := by
    intro α m f hm
    rw [map_eq_pure_bind]
    exact .bind hm fun _ => .pure _
  have byte := Builder.blind_writeUint8 (k := k) grow
  have buffer := Builder.blind_writeBuffer (k := k) grow
  have stmt := Builder.blind_writeUint32 (k := k) grow
  have command := fun (cmd : UInt8) {m : Proc Code Builder Unit}
    (hm : Blind (TwinBuilder G k) m) => done (blind_sendPacket grow 0 (blind_command grow cmd hm))
  have alone := fun (cmd : UInt8) => done (blind_sendPacket grow 0
    (.bind (byte cmd) fun _ => Builder.blind_finalize))
  cases call with
  | flushWrites => exact absurd rfl other
  | connectSend opts net => exact done (blind_connectSend opts net)
  | connectSendSocket sock => exact done (blind_connectSendSocket sock)
  | connectRecv handshake => exact map (blind_recv grow front₁ (blind_connectReply handshake))
  | sslRequestSend => exact done (blind_sslRequestSend grow)
  | authSend handshake =>
    exact done (blind_get (fun _ _ => rfl) fun conn =>
      blind_sendPacket grow _ (blind_buildAuthPacket grow _ _ _ _ _ _ _ _))
  | authSwitchSend handshake =>
    exact done (blind_get (fun _ _ => rfl) fun conn =>
      blind_sendPacket grow _ (blind_buildAuthSwitchResponsePacket grow _ _ _ _ _))
  | authRecv packet handshake => exact map (blind_authRecv grow front packet handshake)
  | changeDbSend name => exact command _ (buffer name)
  | setOptionSend option => exact command _ (Builder.blind_writeUint16 grow option)
  | pingSend => exact alone _
  | closeSend => exact alone _
  | stmtPrepareSend sql => exact command _ (buffer sql)
  | stmtResetSend s => exact command _ (stmt s.id)
  | stmtCloseSend s => exact command _ (stmt s.id)
  | stmtBindDataSend s param_num data =>
    exact done (blind_sendPacket grow 0 (.bind (byte _) fun _ => .bind (stmt _) fun _ =>
      .bind (Builder.blind_writeUint16 grow _) fun _ => .bind (buffer _) fun _ =>
      Builder.blind_finalize))
  | querySend query =>
    exact done (blind_sendPacketInSequence grow (blind_command grow _ (buffer query)))
  | stmtExecuteSend s flags binds =>
    exact done (blind_sendPacketInSequence grow (blind_buildStmtExecutePacket grow _ _ _ _))
  | changeDbRecv | pingRecv | stmtResetRecv =>
    exact done (.bind (blind_readPacket grow) fun _ => blind_handleGenericResponse front₁)
  | setOptionRecv => exact done (blind_recv grow front₁ blind_setOptionReply)
  | queryRecv =>
    exact map (blind_recv grow front₁ (blind_resultReply (fun packet conn =>
      { conn with column_count := packet.column_count, started_reading_rows := false })
      (fun _ _ => rfl) fun _ _ _ => rfl))
  | stmtExecuteRecv =>
    exact map (blind_recv grow front₁ (blind_resultReply (fun packet conn =>
      { conn with column_count := packet.column_count }) (fun _ _ => rfl) fun _ _ _ => rfl))
  | readColumn => exact map (.bind (blind_readPacket grow) fun _ => blind_parsePacket _)
  | readRow => exact map (blind_readRow grow front₁)
  | drainResults => exact done (blind_drainResults grow front₁)
  | closeRecv => exact done (blind_closeRecv grow)
  | stmtPrepareRecv => exact map (blind_recv grow front₁ blind_stmtPrepareReply)
  | stmtReadRow s columns values_out =>
    exact map (blind_stmtReadRow grow front₁ s columns values_out)

/-- A flush has to be made of what is still to be written. -/
def Call.Flushes (c : Conn) : Call → Prop
  | flushWrites => c.Within
  | _ => True

open Conn in
theorem Call.twins {alloc : Alloc} {G : Nat → Nat → Prop} {k : Nat} {c c' : Conn}
    (grow : SameGrowth alloc G) (front : 2 ≤ k) (digests : Digests) {call : Call}
    (flushes : call.Flushes c) (h : Twins G k c c') :
    SameEnd Eq (call.run alloc digests c).1 (call.run alloc digests c').1 ∧
      Twins G k (call.run alloc digests c).2 (call.run alloc digests c').2 := by
  by_cases hflush : call = Call.flushWrites
  · subst hflush
    have hdone : Blind (Flushable G k) (do Conn.flushWrites; pure Decoded.done) :=
      .bind blind_flushWrites fun _ => .pure _
    obtain ⟨hend, hafter, -⟩ := hdone c c' ⟨h, flushes⟩
    exact ⟨hend, hafter⟩
  · exact Call.blind grow front digests hflush c c' h

end Trilogy
