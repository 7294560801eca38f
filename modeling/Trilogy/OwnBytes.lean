import Trilogy.Cleartext
import Trilogy.Storage
import Trilogy.Twins

/-! The first byte of the packet buffer is taken for the type of a packet whatever the
packet's length, and `authRecv` looks at the second byte too. On a packet that is
too short for that a call goes by what an earlier packet left there. -/
namespace Trilogy

open Lib Proc

namespace Conn

variable {alloc : Alloc} {c c' c₁ : Conn}

/-- Connections that are equal but for what the packet buffer keeps. -/
abbrev SameButStale : Conn → Conn → Prop := TwinConn Eq 0 False

theorem sameButStale_iff : SameButStale c c' ↔ ∃ packet_buffer,
    packet_buffer.cap = c.packet_buffer.cap ∧ packet_buffer.len = c.packet_buffer.len ∧
      (¬ c.packetParser.Awaits → packet_buffer.bytes = c.packet_buffer.bytes) ∧
      c' = { c with packet_buffer } := by
  constructor
  · rintro ⟨buffer, h, rfl⟩
    exact ⟨buffer, h.cap.symm, h.len, fun held => h.bytes (.inr held), rfl⟩
  · rintro ⟨buffer, hcap, hlen, hbytes, rfl⟩
    exact ⟨buffer, ⟨hcap.symm, hlen, fun _ hi => absurd hi (Nat.not_lt_zero _),
      fun held => hbytes (held.resolve_left id)⟩, rfl⟩

theorem SameButStale.refl (c : Conn) : SameButStale c c :=
  sameButStale_iff.mpr ⟨_, rfl, rfl, fun _ => rfl, rfl⟩

/-- `m` does on `c` what it does on any other connection that differs in leftovers. -/
def OwnBytes {α : Type} (m : Proc Code Conn α) (c : Conn) : Prop :=
  ∀ c', SameButStale c c' → (m c').1 = (m c).1 ∧ SameButStale (m c).2 (m c').2

theorem TwinConn.stale {k : Nat} {w : Prop} (h : TwinConn Eq k w c c') : SameButStale c c' := by
  obtain ⟨buffer, h, rfl⟩ := h
  refine sameButStale_iff.mpr ⟨buffer, h.cap.symm, h.len, fun held => h.bytes (.inr held), rfl⟩

theorem OwnBytes.congr {α : Type} {m m' : Proc Code Conn α}
    (h : ∀ c', SameButStale c c' → m c' = m' c') : OwnBytes m c ↔ OwnBytes m' c := by
  have hself := h c (.refl c)
  constructor
  · intro own c' hc
    rw [← h c' hc, ← hself]
    exact own c' hc
  · intro own c' hc
    rw [h c' hc, hself]
    exact own c' hc

variable {α : Type} {reply : Proc Code Conn α}

/-- What follows a packet has to do the same on twins. -/
theorem own_readPacket
    (h : ∀ c₁ c₁', readPacket alloc c = (.ok (), c₁) → Twins Eq 0 c₁ c₁' →
      (reply c₁').1 = (reply c₁).1 ∧ SameButStale (reply c₁).2 (reply c₁').2) :
    OwnBytes (do readPacket alloc; reply) c := by
  intro c' hc
  obtain ⟨hend, hafter⟩ := twin_readPacket (sameGrowth_eq alloc) hc
  rw [bind_apply, bind_apply]
  rcases e : readPacket alloc c with ⟨rc | _, c₁⟩
  · rcases e' : readPacket alloc c' with ⟨rc' | _, c₁'⟩
    · rw [e, e'] at hend hafter
      cases hend
      exact ⟨rfl, TwinConn.stale hafter⟩
    · rw [e, e'] at hend
      cases hend
  · rcases e' : readPacket alloc c' with ⟨rc' | _, c₁'⟩
    · rw [e, e'] at hend
      cases hend
    · rw [e, e'] at hafter
      exact h c₁ c₁' e (by simpa using hafter)

/-- A packet of some length decides, and a shorter one ends the call. -/
theorem own_of_blind (k : Nat) (hblind : Blind (Twins Eq k) reply)
    (hshort : ∀ c₁, readPacket alloc c = (.ok (), c₁) → c₁.packet_buffer.len < k →
      ∃ rc, ∀ c₁', Twins Eq 0 c₁ c₁' → reply c₁' = (.error rc, c₁')) :
    OwnBytes (do readPacket alloc; reply) c := by
  apply own_readPacket
  intro c₁ c₁' hread hc
  by_cases hlong : k ≤ c₁.packet_buffer.len
  · obtain ⟨buffer, hb, rfl⟩ := twins_iff.mp hc
    obtain ⟨hend, hafter⟩ := hblind _ _ (twins_iff.mpr ⟨buffer, hb.front_len hlong, rfl⟩)
    exact ⟨hend.eq.symm, TwinConn.stale hafter⟩
  · obtain ⟨rc, hreply⟩ := hshort c₁ hread (Nat.not_le.mp hlong)
    have hself : Twins Eq 0 c₁ c₁ := twins_iff.mpr ⟨_, ⟨rfl, rfl, fun _ _ => rfl, fun _ => rfl⟩, rfl⟩
    rw [hreply c₁ hself, hreply c₁' hc]
    exact ⟨rfl, TwinConn.stale hc⟩

/-- Behind a packet that was read there can be anything. -/
theorem readPacket_plants (h : readPacket alloc c = (.ok (), c₁)) {i : Nat}
    (short : c₁.packet_buffer.len ≤ i) (v : UInt8) :
    ∃ c' c₁', SameButStale c c' ∧ readPacket alloc c' = (.ok (), c₁') ∧ Twins Eq 0 c₁ c₁' ∧
      c₁'.packet_buffer.byteAt i = v := by
  have hback : c.packetParser.Awaits ∨ c.packet_buffer.len ≤ i := by
    by_contra hno
    obtain ⟨hawaits, hlen⟩ := not_or.mp hno
    have hbyte : ∀ v, c₁.packet_buffer.byteAt i = v := by
      intro v
      have hholds := readPacket_holds (v := v) (.inr ⟨hawaits, Nat.not_le.mp hlen⟩) h
      exact hholds.resolve_right (Nat.not_lt.mpr short)
    exact absurd ((hbyte 0).symm.trans (hbyte 1)) (by decide)
  have hc : SameButStale c { c with packet_buffer := c.packet_buffer.plant i v } :=
    sameButStale_iff.mpr ⟨_, Buffer.cap_plant, Buffer.len_plant,
      fun held => Buffer.bytes_plant (hback.resolve_left held), rfl⟩
  obtain ⟨hend, hafter⟩ := twin_readPacket (sameGrowth_eq alloc) hc
  rw [h] at hend hafter
  have hread := ends hend
  have htwins : Twins Eq 0 c₁ (readPacket alloc
      { c with packet_buffer := c.packet_buffer.plant i v }).2 := by
    simpa using hafter
  refine ⟨_, _, hc, hread, htwins, ?_⟩
  have hholds := readPacket_holds (.inl Buffer.byteAt_plant) hread
  refine hholds.resolve_right (Nat.not_lt.mpr ?_)
  obtain ⟨buffer, hb, heq⟩ := twins_iff.mp htwins
  rw [heq]
  exact hb.len ▸ short

/-- So the call has to come to the same for any byte there. -/
theorem OwnBytes.planted (own : OwnBytes (do readPacket alloc; reply) c)
    (h : readPacket alloc c = (.ok (), c₁)) {i : Nat} (short : c₁.packet_buffer.len ≤ i)
    (v : UInt8) : ∃ c₁', Twins Eq 0 c₁ c₁' ∧ c₁'.packet_buffer.byteAt i = v ∧
      (reply c₁').1 = (reply c₁).1 ∧ SameButStale (reply c₁).2 (reply c₁').2 := by
  obtain ⟨c', c₁', hc, hread, htwins, hbyte⟩ := readPacket_plants h short v
  have hsame := own c' hc
  rw [bind_of_ok h, bind_of_ok hread] at hsame
  exact ⟨c₁', htwins, hbyte, hsame⟩

theorem OwnBytes.differs (own : OwnBytes (do readPacket alloc; reply) c)
    (h : readPacket alloc c = (.ok (), c₁)) {i : Nat} (short : c₁.packet_buffer.len ≤ i)
    {v v' : UInt8} {r r' : Except Code α}
    (hv : ∀ c₂, Twins Eq 0 c₁ c₂ → c₂.packet_buffer.byteAt i = v → (reply c₂).1 = r)
    (hv' : ∀ c₂, Twins Eq 0 c₁ c₂ → c₂.packet_buffer.byteAt i = v' → (reply c₂).1 = r') :
    r = r' := by
  obtain ⟨c₂, htwins, hbyte, hend, -⟩ := own.planted h short v
  obtain ⟨c₂', htwins', hbyte', hend', -⟩ := own.planted h short v'
  calc
    r = (reply c₂).1 := (hv c₂ htwins hbyte).symm
    _ = (reply c₂').1 := hend.trans hend'.symm
    _ = r' := hv' c₂' htwins' hbyte'

theorem Twins.bytes_eq {k : Nat} (h : Twins Eq k c c') :
    c'.packet_buffer.bytes = c.packet_buffer.bytes := by
  obtain ⟨buffer, hb, rfl⟩ := twins_iff.mp h
  exact hb.bytes trivial

theorem parsePacket_nil {m : Proc Code Reader α} (h : parse m [] = .error .truncatedPacket)
    (nil : c.packet_buffer.bytes = []) : parsePacket m c = (.error .truncatedPacket, c) := by
  rw [parsePacket, nil, h]

theorem readOkPacket_nil (nil : c.packet_buffer.bytes = []) :
    readOkPacket c = (.error .truncatedPacket, c) :=
  readOkPacket_error (by rw [nil]; rfl)

theorem readErrPacket_nil (nil : c.packet_buffer.bytes = []) :
    (readErrPacket c : Except Code α × Conn) = (.error .truncatedPacket, c) := by
  rw [readErrPacket, get_bind, bind_of_error (parsePacket_nil rfl nil)]

theorem readEofPacket_nil (nil : c.packet_buffer.bytes = []) :
    readEofPacket c = (.error .truncatedPacket, c) := by
  rw [readEofPacket, get_bind]
  split
  · exact readOkPacket_nil nil
  · rw [readDeprecatedEofPacket, get_bind, bind_of_error (parsePacket_nil rfl nil)]

theorem parseRowPacket_nil {n : UInt64} (h : n ≠ 0) :
    parse (parseRowPacket n) [] = .error .truncatedPacket := by
  obtain ⟨columns, hcolumns⟩ : ∃ k, n.toNat = k + 1 := by
    apply Nat.exists_eq_add_one.mpr
    apply Nat.pos_of_ne_zero
    intro hzero
    exact h (UInt64.toNat_inj.mp hzero)
  rw [parse, parseRowPacket, hcolumns]
  rfl

/-- The packet that the next `readPacket` returns. -/
def Delivers (alloc : Alloc) (c : Conn) (packet : List UInt8) : Prop :=
  ∃ c₁, readPacket alloc c = (.ok (), c₁) ∧ c₁.packet_buffer.bytes = packet

/-- The rest of a call, which goes by the type of the packet. -/
def dispatch (g : UInt8 → Proc Code Conn α) : Proc Code Conn α := do
  let conn ← get
  g conn.currentPacketType

variable {g : UInt8 → Proc Code Conn α}

theorem len_lt_one {b : Buffer} (h : b.len < 1) : b.bytes = [] :=
  List.length_eq_zero_iff.mp (Nat.lt_one_iff.mp h)

theorem own_dispatch (hg : ∀ type, Blind (Twins Eq 1) (g type))
    (hshort : ∀ c₁, readPacket alloc c = (.ok (), c₁) → c₁.packet_buffer.bytes = [] →
      ∃ rc, ∀ type c₁', Twins Eq 0 c₁ c₁' → g type c₁' = (.error rc, c₁')) :
    OwnBytes (do readPacket alloc; dispatch g) c := by
  apply own_of_blind 1
  · exact blind_dispatch (Nat.le_refl 1) (g := fun type _ _ => g type) (fun _ _ _ _ => rfl)
      fun type _ _ => hg type
  · intro c₁ hread hlen
    obtain ⟨rc, hrc⟩ := hshort c₁ hread (len_lt_one hlen)
    exact ⟨rc, fun c₁' hc => hrc c₁'.currentPacketType c₁' hc⟩

/-- On an empty packet such a call may do one thing or the other. -/
theorem own_dispatch_iff (hg : ∀ type, Blind (Twins Eq 1) (g type)) (v v' : UInt8)
    (rc rc' : Code) (hne : rc ≠ rc')
    (hv : ∀ c₁ : Conn, c₁.packet_buffer.bytes = [] → g v c₁ = (.error rc, c₁))
    (hv' : ∀ c₁ : Conn, c₁.packet_buffer.bytes = [] → g v' c₁ = (.error rc', c₁)) :
    OwnBytes (do readPacket alloc; dispatch g) c ↔
      ∀ packet, Delivers alloc c packet → packet ≠ [] := by
  constructor
  · rintro own packet ⟨c₁, hread, hpacket⟩ rfl
    have hshort : c₁.packet_buffer.len ≤ 0 := by rw [Buffer.len, hpacket]; exact Nat.le_refl 0
    have hend : ∀ {w : UInt8} {e : Code},
        (∀ c₁ : Conn, c₁.packet_buffer.bytes = [] → g w c₁ = (.error e, c₁)) →
        ∀ c₂, Twins Eq 0 c₁ c₂ → c₂.packet_buffer.byteAt 0 = w →
          (dispatch g c₂).1 = .error e := by
      intro w e hw c₂ htwins hbyte
      have htype : c₂.currentPacketType = w := hbyte
      rw [dispatch, get_bind, htype, hw c₂ ((Twins.bytes_eq htwins).trans hpacket)]
    have hsame := own.differs hread hshort (hend hv) (hend hv')
    cases hsame
    exact hne rfl
  · intro legible
    apply own_dispatch hg
    intro c₁ hread hpacket
    exact absurd hpacket (legible _ ⟨c₁, hread, rfl⟩)

def genericReply (type : UInt8) : Proc Code Conn Unit :=
  if type = Packet.ok then readOkPacket
  else if type = Packet.err then readErrPacket
  else throw .unexpectedPacket

theorem blind_genericReply (type : UInt8) : Blind (Twins Eq 1) (genericReply type) :=
  .ite (fun _ => blind_readOkPacket) fun _ => .ite (fun _ => blind_readErrPacket) fun _ => .throw _

theorem own_readGenericResponse : OwnBytes (readGenericResponse alloc) c ↔
    ∀ packet, Delivers alloc c packet → packet ≠ [] := by
  change OwnBytes (do readPacket alloc; dispatch genericReply) c ↔ _
  exact own_dispatch_iff blind_genericReply Packet.ok 2 .truncatedPacket .unexpectedPacket
    (by decide) (fun _ nil => readOkPacket_nil nil) fun _ _ => rfl

theorem own_setOptionRecv : OwnBytes (setOptionRecv alloc) c ↔
    ∀ packet, Delivers alloc c packet → packet ≠ [] := by
  change OwnBytes (do readPacket alloc; dispatch setOptionReply) c ↔ _
  exact own_dispatch_iff blind_setOptionReply Packet.ok 2 .truncatedPacket .unexpectedPacket
    (by decide) (fun _ nil => readOkPacket_nil nil) fun _ _ => rfl

theorem own_stmtPrepareRecv : OwnBytes (stmtPrepareRecv alloc) c ↔
    ∀ packet, Delivers alloc c packet → packet ≠ [] := by
  change OwnBytes (do readPacket alloc; dispatch stmtPrepareReply) c ↔ _
  exact own_dispatch_iff blind_stmtPrepareReply Packet.err 2 .truncatedPacket .unexpectedPacket
    (by decide) (fun _ nil => readErrPacket_nil nil) fun _ _ => rfl

/-- Here all branches find the packet too short. -/
theorem own_connectRecv (handshake : Handshake) : OwnBytes (connectRecv alloc handshake) c := by
  change OwnBytes (do readPacket alloc; dispatch (connectReply handshake)) c
  apply own_dispatch (blind_connectReply handshake)
  intro c₁ _ nil
  refine ⟨.truncatedPacket, fun type c₁' htwins => ?_⟩
  have hnil := (Twins.bytes_eq htwins).trans nil
  rw [connectReply]
  split
  · exact readErrPacket_nil hnil
  · rw [bind_of_error (parsePacket_nil rfl hnil)]

theorem own_resultReply {note : ResultPacket → Conn → Conn}
    (hg : ∀ type, Blind (Twins Eq 1) (resultReply note type)) :
    OwnBytes (do readPacket alloc; dispatch (resultReply note)) c := by
  apply own_dispatch hg
  intro c₁ _ nil
  refine ⟨.truncatedPacket, fun type c₁' htwins => ?_⟩
  have hnil := (Twins.bytes_eq htwins).trans nil
  rw [resultReply]
  split
  · rw [bind_of_error (readOkPacket_nil hnil)]
  · split
    · exact readErrPacket_nil hnil
    · rw [bind_of_error (parsePacket_nil rfl hnil)]

theorem own_queryRecv : OwnBytes (queryRecv alloc) c :=
  own_resultReply (blind_resultReply (fun packet conn =>
    { conn with column_count := packet.column_count, started_reading_rows := false })
    (fun _ _ => rfl) fun _ _ _ => rfl)

theorem own_stmtExecuteRecv : OwnBytes (stmtExecuteRecv alloc) c :=
  own_resultReply (blind_resultReply (fun packet conn =>
    { conn with column_count := packet.column_count }) (fun _ _ => rfl) fun _ _ _ => rfl)

theorem own_readColumn : OwnBytes (readColumn alloc) c :=
  own_of_blind 0 (blind_parsePacket _) fun _ _ h => absurd h (Nat.not_lt_zero _)

theorem own_closeRecv : OwnBytes (closeRecv alloc) c := by
  intro c' hc
  have hshut := (blind_onSocket Sock.shutdown c c' hc).2
  obtain ⟨hend, hafter⟩ := twin_readPacket (sameGrowth_eq alloc) hshut
  have hshutdown : ∀ d : Conn, onSocket Sock.shutdown d = (.ok (), (onSocket Sock.shutdown d).2) :=
    fun _ => rfl
  rw [closeRecv, bind_of_ok (hshutdown c), bind_of_ok (hshutdown c'), attempt_bind, attempt_bind,
    hend]
  generalize (readPacket alloc (onSocket Sock.shutdown c).2).1 = rc
  cases rc with
  | ok _ => exact ⟨rfl, TwinConn.stale hafter⟩
  | error rc =>
    cases rc with
    | closedConnection => exact ⟨rfl, TwinConn.stale hafter⟩
    | _ => exact ⟨rfl, TwinConn.stale hafter⟩

theorem blind_rowReply (row : UInt64 → Proc Code Reader α) :
    Blind (Twins Eq 1) (rowReply row) :=
  blind_rowDispatch (Nat.le_refl 1) (m := fun conn => row conn.column_count) fun _ _ => rfl

theorem rowReply_nil {row : UInt64 → Proc Code Reader α}
    (h : parse (row c.column_count) [] = .error .truncatedPacket)
    (nil : c.packet_buffer.bytes = []) : rowReply row c = (.error .truncatedPacket, c) := by
  rw [rowReply, get_bind]
  split
  · rw [bind_of_error (readEofPacket_nil nil)]
  · split
    · exact readErrPacket_nil nil
    · exact parsePacket_nil h nil

theorem own_rowReply {row : UInt64 → Proc Code Reader α}
    (h : ∀ c₁, readPacket alloc c = (.ok (), c₁) → c₁.packet_buffer.bytes = [] →
      parse (row c₁.column_count) [] = .error .truncatedPacket) :
    OwnBytes (do readPacket alloc; rowReply row) c := by
  apply own_of_blind 1 (blind_rowReply row)
  intro c₁ hread hlen
  refine ⟨.truncatedPacket, fun c₁' htwins => ?_⟩
  have nil := len_lt_one hlen
  obtain ⟨buffer, hb, rfl⟩ := twins_iff.mp htwins
  exact rowReply_nil (h c₁ hread nil) ((hb.bytes trivial).trans nil)

theorem own_stmtReadRow (stmt : StmtOkPacket) (columns : List Column)
    (values_out : List BinaryValue) : OwnBytes (stmtReadRow alloc stmt columns values_out) c := by
  change OwnBytes (do
    readPacket alloc
    rowReply fun _ => parseStmtRowPacket columns stmt.column_count.toUInt64 values_out) c
  exact own_rowReply fun _ _ _ => rfl

theorem column_count_readPacket (h : readPacket alloc c = (.ok (), c₁)) :
    c₁.column_count = c.column_count := by
  have huntouched := untouched_readPacket alloc c
  rw [h] at huntouched
  exact huntouched.column_count

/-- An empty packet is a row of no columns, or an EOF packet that is too short. -/
theorem own_rowReply_iff : OwnBytes (do readPacket alloc; rowReply parseRowPacket) c ↔
    ∀ packet, Delivers alloc c packet → packet = [] → c.column_count ≠ 0 := by
  constructor
  · rintro own _ ⟨c₁, hread, hpacket⟩ rfl hzero
    have hshort : c₁.packet_buffer.len ≤ 0 := by rw [Buffer.len, hpacket]; exact Nat.le_refl 0
    have heof : ∀ c₂, Twins Eq 0 c₁ c₂ → c₂.packet_buffer.byteAt 0 = Packet.eof →
        (rowReply parseRowPacket c₂).1 = .error .truncatedPacket := by
      intro c₂ htwins hbyte
      have hnil := (Twins.bytes_eq htwins).trans hpacket
      have hlen : c₂.packet_buffer.len < 9 := by rw [Buffer.len, hnil]; decide
      rw [rowReply, get_bind, if_pos ⟨hbyte, hlen⟩, bind_of_error (readEofPacket_nil hnil)]
    have hrow : ∀ c₂, Twins Eq 0 c₁ c₂ → c₂.packet_buffer.byteAt 0 = 0 →
        (rowReply parseRowPacket c₂).1 = .ok [] := by
      intro c₂ htwins hbyte
      have hnil := (Twins.bytes_eq htwins).trans hpacket
      have htype : c₂.currentPacketType = 0 := hbyte
      have hcount : c₂.column_count = 0 := by
        obtain ⟨buffer, -, rfl⟩ := twins_iff.mp htwins
        exact (column_count_readPacket hread).trans hzero
      rw [rowReply, get_bind, htype, if_neg (by simp [Packet.eof]), if_neg (by decide), parsePacket,
        hnil, hcount]
      rfl
    have hsame := own.differs hread hshort heof hrow
    cases hsame
  · intro legible
    apply own_rowReply
    intro c₁ hread hpacket
    apply parseRowPacket_nil
    rw [column_count_readPacket hread]
    exact legible _ ⟨c₁, hread, rfl⟩ hpacket

/-- What `readRow` does to `started_reading_rows` first. -/
def starting (c : Conn) : Conn := { c with started_reading_rows := true }

theorem readPacket_starting (c : Conn) :
    readPacket alloc c.starting = ((readPacket alloc c).1, (readPacket alloc c).2.starting) := by
  have hrefill : Blind (fun c c' : Conn => c' = c.starting) refill := by
    apply Blind.get_bind
    · rintro c _ rfl
      rfl
    · intro conn
      apply Blind.ite
      · intro _
        apply Blind.bind
        · rintro c _ rfl
          exact ⟨.rfl, rfl⟩
        · intro bytes
          exact .ite (fun _ => .throw _) fun _ => .modify fun _ _ h => by rw [h]; rfl
      · intro _
        exact .pure _
  have hexecute : Blind (fun c c' : Conn => c' = c.starting) (execute alloc) := by
    rintro c _ rfl
    have hsame : execute alloc c.starting = ((execute alloc c).1, (execute alloc c).2.starting) := by
      unfold execute
      simp only [show c.starting.packetParser = c.packetParser from rfl,
        show c.starting.packet_buffer = c.packet_buffer from rfl,
        show c.starting.unread = c.unread from rfl]
      generalize PacketParser.execute (packetParserCallbacks alloc) c.packetParser c.packet_buffer
        c.unread = t
      by_cases hneg : t.error < 0
      · rw [if_pos hneg, if_pos hneg]
        rfl
      · rw [if_neg hneg, if_neg hneg]
        by_cases hpos : t.error > 0
        · rw [if_pos hpos, if_pos hpos]
          rfl
        · rw [if_neg hpos, if_neg hpos]
          rfl
    rw [hsame]
    exact ⟨.rfl, rfl⟩
  obtain ⟨hend, hafter⟩ := (hrefill.bind fun _ => hexecute) c _ rfl
  exact Prod.ext hend.eq.symm hafter

theorem own_starting {m m' : Proc Code Conn α}
    (h : ∀ c', SameButStale c c' → m c' = m' c'.starting) :
    OwnBytes m c ↔ OwnBytes m' c.starting := by
  rw [OwnBytes, OwnBytes, h c (.refl c)]
  constructor
  · intro own c' hc
    obtain ⟨buffer, hcap, hlen, hbytes, rfl⟩ := sameButStale_iff.mp hc
    have hback : SameButStale c { c with packet_buffer := buffer } :=
      sameButStale_iff.mpr ⟨buffer, hcap, hlen, hbytes, rfl⟩
    have hown := own _ hback
    rw [h _ hback] at hown
    exact hown
  · intro own c' hc
    rw [h c' hc]
    apply own
    obtain ⟨buffer, hcap, hlen, hbytes, rfl⟩ := sameButStale_iff.mp hc
    exact sameButStale_iff.mpr ⟨buffer, hcap, hlen, hbytes, rfl⟩

theorem delivers_starting {packet : List UInt8} :
    Delivers alloc c.starting packet ↔ Delivers alloc c packet := by
  rw [Delivers, Delivers, readPacket_starting]
  constructor
  · rintro ⟨_, hread, hpacket⟩
    obtain ⟨hend, rfl⟩ := Prod.mk.inj hread
    exact ⟨_, ends hend, hpacket⟩
  · rintro ⟨c₁, hread, hpacket⟩
    rw [hread]
    exact ⟨_, rfl, hpacket⟩

theorem SameButStale.frame (h : SameButStale c c') :
    c'.started_reading_rows = c.started_reading_rows ∧ c'.capabilities = c.capabilities := by
  obtain ⟨_, -, rfl⟩ := h
  exact ⟨rfl, rfl⟩

theorem SameButStale.atRows (h : SameButStale c c') : c'.AtRows ↔ c.AtRows := by
  rw [AtRows, AtRows, h.frame.1, h.frame.2]

theorem beginRows_atRows (h : c.AtRows) : beginRows alloc c = (.ok (), c.starting) := by
  by_cases hstarted : c.started_reading_rows = true
  · have hsame : c.starting = c := by rw [starting, ← hstarted]
    rw [beginRows_skip hstarted, hsame]
  · exact beginRows_deprecated (h.resolve_left hstarted) hstarted

theorem own_readRow : OwnBytes (readRow alloc) c ↔
    ∀ packet, Delivers alloc c packet → packet = [] → c.column_count = 0 → ¬ c.AtRows := by
  by_cases hat : c.AtRows
  · have hrow : ∀ c', SameButStale c c' → readRow alloc c' =
        (do readPacket alloc; rowReply parseRowPacket) c'.starting := by
      intro c' hc
      exact bind_of_ok (beginRows_atRows (hc.atRows.mpr hat))
    rw [own_starting hrow, own_rowReply_iff]
    constructor
    · intro own packet hpacket hnil hzero
      exact absurd hzero (own packet (delivers_starting.mpr hpacket) hnil)
    · intro legible packet hpacket hnil hzero
      exact legible packet (delivers_starting.mp hpacket) hnil hzero hat
  · have hrow : ∀ c', SameButStale c c' → readRow alloc c' = (do
        readPacket alloc
        readEofPacket
        modify starting
        readPacket alloc
        rowReply parseRowPacket) c' := by
      intro c' hc
      rw [readRow, bind_congr_left (beginRows_readEof (mt hc.atRows.mp hat))]
      simp only [readEof, bind_assoc]
      rfl
    rw [OwnBytes.congr hrow]
    refine ⟨fun _ _ _ _ _ => hat, fun _ => ?_⟩
    apply own_of_blind 1
    · refine Blind.bind blind_readEofPacket fun _ => ?_
      refine Blind.bind (blind_modify (fun _ => rfl) fun _ _ => rfl) fun _ => ?_
      exact Blind.bind (blind_readPacket (sameGrowth_eq alloc)) fun _ => blind_rowReply _
    · intro c₁ _ hlen
      refine ⟨.truncatedPacket, fun c₁' htwins => ?_⟩
      rw [bind_of_error (readEofPacket_nil ((Twins.bytes_eq htwins).trans (len_lt_one hlen)))]

theorem SameButStale.spare (h : SameButStale c c') : c'.spare = c.spare := by
  obtain ⟨_, -, rfl⟩ := h
  rfl

theorem drainRows_spends {turns : Nat} (h : drainRows alloc turns c = (.ok (), c')) :
    c'.spare < c.spare := by
  induction turns generalizing c with
  | zero => cases h
  | succ turns ih =>
    rw [drainRows] at h
    obtain ⟨_, c₁, hread, hrest⟩ := bind_ok.mp h
    have hless := readPacket_spends hread
    rw [get_bind] at hrest
    split at hrest
    · cases hrest
      exact hless
    · exact (ih hrest).trans hless

/-- What a turn of `drainRows` does with a packet. -/
def drainReply (alloc : Alloc) (turns : Nat) : Proc Code Conn Unit := do
  let conn ← get
  if conn.currentPacketType = Packet.eof ∧ conn.packet_buffer.len < 9 then pure ()
  else drainRows alloc turns

theorem blind_drainReply (turns : Nat) : Blind (Twins Eq 1) (drainReply alloc turns) :=
  blind_dispatch (Nat.le_refl 1) (g := fun type len _ =>
    if type = Packet.eof ∧ len < 9 then pure () else drainRows alloc turns) (fun _ _ _ _ => rfl)
    fun _ _ _ => .ite (fun _ => .pure _) fun _ =>
      blind_drainRows (sameGrowth_eq alloc) (Nat.le_refl 1) turns

/-- An empty packet ends the loop, or the loop goes on to other packets. -/
theorem own_drainReply {turns : Nat} : OwnBytes (do readPacket alloc; drainReply alloc turns) c ↔
    ∀ packet, Delivers alloc c packet → packet ≠ [] := by
  constructor
  · rintro own _ ⟨c₁, hread, hpacket⟩ rfl
    have hshort : c₁.packet_buffer.len ≤ 0 := by rw [Buffer.len, hpacket]; exact Nat.le_refl 0
    obtain ⟨c₂, htwins, hbyte, hend, hafter⟩ := own.planted hread hshort Packet.eof
    obtain ⟨c₃, htwins', hbyte', hend', hafter'⟩ := own.planted hread hshort 0
    have hstop : drainReply alloc turns c₂ = (.ok (), c₂) := by
      have hlen : c₂.packet_buffer.len < 9 := by
        rw [Buffer.len, Twins.bytes_eq htwins, hpacket]
        decide
      rw [drainReply, get_bind, if_pos ⟨hbyte, hlen⟩]
      rfl
    have hgo : drainReply alloc turns c₃ = drainRows alloc turns c₃ := by
      have htype : c₃.currentPacketType = 0 := hbyte'
      rw [drainReply, get_bind, htype, if_neg (by simp [Packet.eof])]
    rw [hstop] at hend hafter
    have hless := drainRows_spends (ends (hgo ▸ hend'.trans hend.symm))
    rw [hgo] at hafter'
    have hsame := hafter.spare.symm.trans ((TwinConn.stale htwins).spare)
    have hsame' := (TwinConn.stale htwins').spare
    have := hafter'.spare
    omega
  · intro legible
    apply own_of_blind 1 (blind_drainReply turns)
    intro c₁ hread hlen
    exact absurd (len_lt_one hlen) (legible _ ⟨c₁, hread, rfl⟩)

theorem own_drainResults : OwnBytes (drainResults alloc) c ↔
    ∀ packet, Delivers alloc c packet → packet = [] → c.started_reading_rows = false := by
  by_cases hstarted : c.started_reading_rows = true
  · have hloop : ∀ c', SameButStale c c' → drainResults alloc c' =
        (do readPacket alloc; drainReply alloc (c.pendingBytes + 1)) c' := by
      intro c' hc
      have hpending : c'.pendingBytes = c.pendingBytes := by
        obtain ⟨_, -, rfl⟩ := hc
        rfl
      rw [drainResults_eq, bind_of_ok (beginDrain_skip (hc.frame.1.trans hstarted)), drainLoop,
        get_bind, hpending]
      rfl
    rw [OwnBytes.congr hloop, own_drainReply]
    constructor
    · intro own packet hpacket hnil
      exact absurd hnil (own packet hpacket)
    · intro legible packet hpacket hnil
      rw [legible packet hpacket hnil] at hstarted
      cases hstarted
  · have hloop : ∀ c', SameButStale c c' → drainResults alloc c' = (do
        readPacket alloc
        readEofPacket
        modify starting
        let conn ← get
        drainRows alloc (conn.pendingBytes + 2)) c' := by
      intro c' hc
      rw [drainResults_eq, bind_congr_left (beginDrain_readEof (by rw [hc.frame.1]; exact hstarted))]
      simp only [readEof, bind_assoc]
      rfl
    rw [OwnBytes.congr hloop]
    refine ⟨fun _ _ _ _ => by simpa using hstarted, fun _ => ?_⟩
    apply own_of_blind 1
    · refine Blind.bind blind_readEofPacket fun _ => ?_
      refine Blind.bind (blind_modify (fun _ => rfl) fun _ _ => rfl) fun _ => ?_
      apply blind_get (fun _ _ => rfl)
      intro conn
      exact blind_drainRows (sameGrowth_eq alloc) (Nat.le_refl 1) _
    · intro c₁ _ hlen
      refine ⟨.truncatedPacket, fun c₁' htwins => ?_⟩
      rw [bind_of_error (readEofPacket_nil ((Twins.bytes_eq htwins).trans (len_lt_one hlen)))]

variable {packet : AuthSwitchRequestPacket} {handshake : Handshake}

theorem authDispatch_plain {type : UInt8} (h : c.currentPacketType = type)
    (hmore : type ≠ Packet.authMoreData) (heof : type ≠ Packet.eof) :
    authDispatch alloc packet handshake c = (do
      authClearPassword
      handleGenericResponse
      pure none : Proc Code Conn (Option Handshake)) c := by
  rw [authDispatch, get_bind, authReply, h, if_neg hmore, if_neg heof]

theorem looksProtected_readPacket (h : readPacket alloc c = (.ok (), c₁)) :
    c₁.socket.opts.LooksProtected ↔ c.socket.opts.LooksProtected := by
  have hlook := keeps_readPacket (sameLook.callRel alloc).toReadRel c
  rw [h] at hlook
  rw [SockOpt.LooksProtected, SockOpt.LooksProtected, hlook.flags, hlook.path]

theorem authDispatch_unsupported (h : c.currentPacketType = Packet.authMoreData)
    (plain : ¬ c.socket.opts.LooksProtected) :
    authDispatch alloc packet handshake c = (.error .unsupported, c) := by
  simp only [SockOpt.LooksProtected, not_or] at plain
  rw [authDispatch, get_bind, authReply, if_pos h]
  simp [plain]

theorem authDispatch_protected (h : c.currentPacketType = Packet.authMoreData)
    (looks : c.socket.opts.LooksProtected) {byte : UInt8}
    (hbyte : c.packet_buffer.byteAt 1 = byte) :
    authDispatch alloc packet handshake c = (do
      (if byte = 3 then pure ()
       else if byte = 4 then sendClearPassword alloc
       else throw .unexpectedPacket)
      let conn ← get
      awaitPacket alloc (conn.socket.net.polls.length + 1)
      authClearPassword
      handleGenericResponse
      pure none : Proc Code Conn (Option Handshake)) c := by
  have hlook : (!has c.socket.opts.flags Capabilities.ssl && !c.socket.opts.path.isSome) = false := by
    rcases looks with hssl | hpath
    · simp [hssl]
    · simp [hpath]
  rw [authDispatch, get_bind, authReply, if_pos h, hbyte]
  simp only [hlook]
  rfl

/-- With the first byte, and where it counts the second, the packet decides. -/
theorem own_authDispatch_of
    (nonempty : ∀ p, Delivers alloc c p → p ≠ [])
    (alone : ∀ p, Delivers alloc c p → p = [Packet.authMoreData] → ¬ c.socket.opts.LooksProtected) :
    OwnBytes (do readPacket alloc; authDispatch alloc packet handshake) c := by
  apply own_readPacket
  intro c₁ c₁' hread htwins
  have hpacket := nonempty _ ⟨c₁, hread, rfl⟩
  have hlen : 1 ≤ c₁.packet_buffer.len := List.length_pos_of_ne_nil hpacket
  obtain ⟨buffer, hb, rfl⟩ := twins_iff.mp htwins
  have hone : Twins Eq 1 c₁ { c₁ with packet_buffer := buffer } :=
    twins_iff.mpr ⟨buffer, hb.front_len hlen, rfl⟩
  have htype : ({ c₁ with packet_buffer := buffer } : Conn).currentPacketType =
      c₁.currentPacketType := (hb.front_len hlen).front 0 Nat.one_pos
  by_cases hlong : 2 ≤ c₁.packet_buffer.len
  · obtain ⟨hend, hafter⟩ := blind_authDispatch (sameGrowth_eq alloc) (Nat.le_refl 2) packet
      handshake _ _ (twins_iff.mpr ⟨buffer, hb.front_len hlong, rfl⟩)
    exact ⟨hend.eq.symm, TwinConn.stale hafter⟩
  · by_cases hmore : c₁.currentPacketType = Packet.authMoreData
    · have hplain : ¬ c₁.socket.opts.LooksProtected := by
        rw [looksProtected_readPacket hread]
        apply alone _ ⟨c₁, hread, rfl⟩
        obtain ⟨b, hone⟩ : ∃ b, c₁.packet_buffer.bytes = [b] :=
          List.length_eq_one_iff.mp (show c₁.packet_buffer.len = 1 by omega)
        rw [hone, ← currentPacketType_of_bytes hone, hmore]
      rw [authDispatch_unsupported hmore hplain, authDispatch_unsupported (htype.trans hmore) hplain]
      exact ⟨rfl, TwinConn.stale htwins⟩
    · have hreply : authDispatch alloc packet handshake { c₁ with packet_buffer := buffer } =
          authReply alloc packet handshake c₁.currentPacketType (c₁.packet_buffer.byteAt 1) c₁
            { c₁ with packet_buffer := buffer } := by
        rw [authDispatch, get_bind, htype, authReply, authReply, if_neg hmore, if_neg hmore]
      rw [hreply]
      obtain ⟨hend, hafter⟩ := blind_authReply (sameGrowth_eq alloc) (Nat.le_refl 1) packet
        handshake c₁.currentPacketType (c₁.packet_buffer.byteAt 1) c₁ _ _ hone
      exact ⟨hend.eq.symm, TwinConn.stale hafter⟩

theorem Noted.spare (h : Noted c c') : c'.spare = c.spare := by
  rw [Conn.spare, Conn.spare, pending, pending, unread, unread, h.recv_buff, h.recv_buff_pos,
    h.socket, h.packetParser]

theorem execute_spare {r : Except Code Unit} (h : execute alloc c = (r, c'))
    (ok : r = .ok () ∨ r = .error .again) : c'.spare ≤ c.spare := by
  have hstop := PacketParser.stop_execute alloc c.packetParser c.packet_buffer c.unread
  have hspent := @PacketParser.execute_spends alloc c.packetParser c.packet_buffer c.unread
  unfold execute at h
  simp only at h hspent
  generalize PacketParser.execute (packetParserCallbacks alloc) c.packetParser c.packet_buffer
    c.unread = t at h hstop hspent
  have hlength : (c.consume t).spare =
      4 * (c.unread.length - t.consumed + c.socket.incoming.length) + t.parser.owed := by
    rw [spare, consume_pending, List.length_append, List.length_drop]
    rfl
  by_cases hneg : t.error < 0
  · rw [if_pos hneg] at h
    cases h
    exfalso
    rcases hstop with he | he | he | he | he <;> rw [he] at hneg ok <;>
      first | exact absurd hneg (by decide) | exact absurd ok (by decide)
  · have hle := (hspent (not_lt.mp hneg)).1
    have hstart : c.spare =
        4 * (c.unread.length + c.socket.incoming.length) + c.packetParser.owed := by
      rw [spare, pending, List.length_append]
    rw [if_neg hneg] at h
    split at h
    · cases h
      omega
    · cases h
      omega

theorem readPacket_spare {r : Except Code Unit} (h : readPacket alloc c = (r, c'))
    (ok : r = .ok () ∨ r = .error .again) : c'.spare ≤ c.spare := by
  rw [readPacket] at h
  rcases hrefill : refill c with ⟨rc | _, c₁⟩
  · obtain ⟨hpending, hparser⟩ := refill_pending hrefill
    rw [bind_of_error hrefill] at h
    cases h
    rw [spare, spare, hpending, hparser]
  · obtain ⟨hpending, hparser⟩ := refill_pending hrefill
    rw [bind_of_ok hrefill] at h
    have hle := execute_spare h ok
    rw [spare, spare, hpending, hparser] at hle
    exact hle

theorem wait_spare {r : Except Code Unit} (h : onSocket Sock.wait c = (r, c')) :
    c'.spare = c.spare ∧ (r = .ok () ∨ r = .error .syserr) := by
  rw [onSocket, zoom_apply] at h
  cases h
  unfold Sock.wait
  cases hio : c.socket.io with
  | shutdown => exact ⟨rfl, .inl rfl⟩
  | raw | ssl =>
    cases hpolls : c.socket.net.polls with
    | nil => exact ⟨rfl, .inr rfl⟩
    | cons ready more =>
      constructor
      · simp only [spare, pending, Sock.incoming, hio]
        rfl
      · cases ready
        · exact .inr rfl
        · exact .inl rfl

/-- Waiting for a packet gets one, or fails in a way that has nothing to do with
what it is. -/
theorem awaitPacket_ends {turns : Nat} {r : Except Code Unit}
    (h : awaitPacket alloc turns c = (r, c')) :
    r = .ok () ∧ c'.spare < c.spare ∨ ∃ rc, r = .error rc ∧ rc ≠ .unexpectedPacket := by
  induction turns generalizing c with
  | zero =>
    cases h
    exact .inr ⟨_, rfl, by decide⟩
  | succ turns ih =>
    rw [awaitPacket, attempt_bind] at h
    rcases hread : readPacket alloc c with ⟨rc | _, c₁⟩
    · rw [hread] at h
      by_cases hagain : rc = .again
      · subst hagain
        have hle := readPacket_spare hread (.inr rfl)
        change (do onSocket Sock.wait; awaitPacket alloc turns) c₁ = (r, c') at h
        rcases hwait : onSocket Sock.wait c₁ with ⟨e | _, c₂⟩
        · obtain ⟨-, hsys⟩ := wait_spare hwait
          rw [bind_of_error hwait] at h
          cases h
          exact .inr ⟨e, rfl, by rintro rfl; simp at hsys⟩
        · obtain ⟨hsame, -⟩ := wait_spare hwait
          rw [bind_of_ok hwait] at h
          exact (ih h).imp_left fun hok => ⟨hok.1, by omega⟩
      · have hfault := readPacket_fault hread
        have hthrow : (Except.error rc, c₁) = (r, c') := by
          cases rc with
          | again => exact absurd rfl hagain
          | _ => exact h
        cases hthrow
        exact .inr ⟨rc, rfl, by rintro rfl; exact absurd hfault (by decide)⟩
    · rw [hread] at h
      cases h
      exact .inl ⟨rfl, readPacket_spends hread⟩

theorem handleGenericResponse_unexpected (h : c.currentPacketType = 2) :
    handleGenericResponse c = (.error .unexpectedPacket, c) := by
  rw [handleGenericResponse, get_bind, h]
  rfl

theorem spare_clearedResponse (c : Conn) : (do
    authClearPassword
    handleGenericResponse
    pure none : Proc Code Conn (Option Handshake)) c |>.2.spare = c.spare := by
  rw [authClearPassword, modify_bind, bind_apply]
  have hnoted := (noted_handleGenericResponse { c with
    socket := { c.socket with
      opts := { c.socket.opts with
        password := List.replicate c.socket.opts.password.length 0 } } }).spare
  rcases e : handleGenericResponse _ with ⟨_ | _, c₂⟩
  · rw [e] at hnoted
    exact hnoted
  · rw [e] at hnoted
    exact hnoted

/-- Once it waits for another packet, the call ends in another way. -/
theorem authDispatch_awaits (h : c.currentPacketType = Packet.authMoreData)
    (looks : c.socket.opts.LooksProtected) (hbyte : c.packet_buffer.byteAt 1 = 3) :
    (authDispatch alloc packet handshake c).1 ≠ .error .unexpectedPacket ∨
      (authDispatch alloc packet handshake c).2.spare < c.spare := by
  rw [authDispatch_protected h looks hbyte]
  simp only [if_true, pure_bind, get_bind]
  rcases hawait : awaitPacket alloc (c.socket.net.polls.length + 1) c with ⟨r, c₁⟩
  obtain ⟨rfl, hless⟩ | ⟨rc, rfl, hrc⟩ := awaitPacket_ends hawait
  · right
    rw [bind_of_ok hawait, spare_clearedResponse]
    exact hless
  · left
    rw [bind_of_error hawait]
    simpa using hrc

theorem own_authRecv : OwnBytes (authRecv alloc packet handshake) c ↔
    ∀ p, Delivers alloc c p →
      p ≠ [] ∧ (p = [Packet.authMoreData] → ¬ c.socket.opts.LooksProtected) := by
  change OwnBytes (do readPacket alloc; authDispatch alloc packet handshake) c ↔ _
  constructor
  · rintro own p ⟨c₁, hread, rfl⟩
    constructor
    · intro hpacket
      have hshort : c₁.packet_buffer.len ≤ 0 := by rw [Buffer.len, hpacket]; exact Nat.le_refl 0
      have hswitch : ∀ c₂, Twins Eq 0 c₁ c₂ → c₂.packet_buffer.byteAt 0 = Packet.eof →
          (authDispatch alloc packet handshake c₂).1 = .error .truncatedPacket := by
        intro c₂ htwins hbyte
        have hnil := (Twins.bytes_eq htwins).trans hpacket
        have htype : c₂.currentPacketType = Packet.eof := hbyte
        rw [authDispatch, get_bind, authReply, htype, if_neg (by decide), if_pos rfl,
          readAuthSwitchPacket, bind_assoc, get_bind, bind_assoc,
          bind_of_error (parsePacket_nil rfl hnil)]
      have hother : ∀ c₂, Twins Eq 0 c₁ c₂ → c₂.packet_buffer.byteAt 0 = 2 →
          (authDispatch alloc packet handshake c₂).1 = .error .unexpectedPacket := by
        intro c₂ htwins hbyte
        have htype : c₂.currentPacketType = 2 := hbyte
        have hclear : authClearPassword c₂ = (.ok (), (authClearPassword c₂).2) := rfl
        have hgeneric : handleGenericResponse (authClearPassword c₂).2 =
            (.error .unexpectedPacket, (authClearPassword c₂).2) :=
          handleGenericResponse_unexpected htype
        rw [authDispatch_plain htype (by decide) (by decide), bind_of_ok hclear,
          bind_of_error hgeneric]
      have hsame := own.differs hread hshort hswitch hother
      cases hsame
    · intro hpacket looks
      have hshort : c₁.packet_buffer.len ≤ 1 := by rw [Buffer.len, hpacket]; exact Nat.le_refl 1
      obtain ⟨c₂, htwins, hbyte, hend, hafter⟩ := own.planted hread hshort 5
      obtain ⟨c₃, htwins', hbyte', hend', hafter'⟩ := own.planted hread hshort 3
      have hlooks : ∀ c₂, Twins Eq 0 c₁ c₂ → c₂.currentPacketType = Packet.authMoreData ∧
          c₂.socket.opts.LooksProtected := by
        intro c₂ htwins
        have hbytes := (Twins.bytes_eq htwins).trans hpacket
        refine ⟨currentPacketType_of_bytes hbytes, ?_⟩
        obtain ⟨_, -, rfl⟩ := twins_iff.mp htwins
        exact (looksProtected_readPacket hread).mpr looks
      have hstop : authDispatch alloc packet handshake c₂ = (.error .unexpectedPacket, c₂) := by
        rw [authDispatch_protected (hlooks c₂ htwins).1 (hlooks c₂ htwins).2 hbyte]
        rfl
      rw [hstop] at hend hafter
      obtain hne | hless : (authDispatch alloc packet handshake c₃).1 ≠ .error .unexpectedPacket ∨
          (authDispatch alloc packet handshake c₃).2.spare < c₃.spare :=
        authDispatch_awaits (hlooks c₃ htwins').1 (hlooks c₃ htwins').2 hbyte'
      · exact hne (hend'.trans hend.symm)
      · have hsame : c₂.spare = (authDispatch alloc packet handshake c₁).2.spare := hafter.spare
        have hsame' := hafter'.spare
        have hspare := (TwinConn.stale htwins).spare
        have hspare' := (TwinConn.stale htwins').spare
        omega
  · intro legible
    exact own_authDispatch_of (fun p hp => (legible p hp).1) fun p hp => (legible p hp).2

theorem own_map {β : Type} {m : Proc Code Conn α} {f : α → β} (hf : Function.Injective f) :
    OwnBytes (f <$> m) c ↔ OwnBytes m c := by
  have hmap : ∀ {r r' : Except Code α}, r'.map f = r.map f → r' = r := by
    rintro (rc | a) (rc' | a') h
    · simpa [Except.map] using h
    · simp [Except.map] at h
    · simp [Except.map] at h
    · simpa [Except.map, hf.eq_iff] using h
  simp only [OwnBytes, map_apply]
  constructor
  · intro own c' hc
    exact (own c' hc).imp_left hmap
  · intro own c' hc
    exact (own c' hc).imp_left fun h => by rw [h]

theorem own_done {m : Proc Code Conn Unit} :
    OwnBytes (do m; pure Decoded.done) c ↔ OwnBytes m c := by
  have hmap : (do m; pure Decoded.done) = (fun _ => Decoded.done) <$> m := by
    rw [map_eq_pure_bind]
  rw [hmap]
  exact own_map fun _ _ _ => rfl

end Conn

/-- What a call needs of the packet that it gets first, to go by that packet. -/
def Call.Legible (c : Conn) (packet : List UInt8) : Call → Prop
  | changeDbRecv | setOptionRecv | pingRecv | stmtPrepareRecv | stmtResetRecv => packet ≠ []
  | authRecv _ _ =>
    packet ≠ [] ∧ (packet = [Packet.authMoreData] → ¬ c.socket.opts.LooksProtected)
  | readRow => packet = [] → c.column_count = 0 → ¬ c.AtRows
  | drainResults => packet = [] → c.started_reading_rows = false
  | _ => True

open Conn in
/-- A call that waits for a packet goes by the bytes of that packet if and only if
it is long enough for what the call does with it. -/
theorem recv_ownBytes_iff {alloc : Alloc} {digests : Digests} {call : Call} (recv : call.Receives)
    (c : Conn) : OwnBytes (call.run alloc digests) c ↔
      ∀ packet, Delivers alloc c packet → call.Legible c packet := by
  have always : ∀ {call : Call}, (∀ packet, call.Legible c packet) →
      OwnBytes (call.run alloc digests) c → (OwnBytes (call.run alloc digests) c ↔
        ∀ packet, Delivers alloc c packet → call.Legible c packet) :=
    fun legible own => ⟨fun _ packet _ => legible packet, fun _ => own⟩
  have option : ∀ {α : Type} {f : α → Decoded}, (∀ a, f a ≠ .done) → Function.Injective f →
      Function.Injective (Option.elim · Decoded.done f) := by
    rintro α f hne hf (_ | a) (_ | b) h
    · rfl
    · exact absurd h.symm (hne b)
    · exact absurd h (hne a)
    · exact congrArg some (hf h)
  cases call with
  | changeDbRecv | pingRecv | stmtResetRecv => exact own_done.trans own_readGenericResponse
  | setOptionRecv => exact own_done.trans own_setOptionRecv
  | stmtPrepareRecv => exact (own_map fun _ _ h => by cases h; rfl).trans own_stmtPrepareRecv
  | authRecv packet handshake =>
    exact (own_map (option (fun _ h => by cases h) fun _ _ h => by cases h; rfl)).trans own_authRecv
  | readRow => exact (own_map fun _ _ h => by cases h; rfl).trans own_readRow
  | drainResults => exact own_done.trans own_drainResults
  | connectRecv handshake =>
    exact always (fun _ => trivial)
      ((own_map fun _ _ h => by cases h; rfl).mpr (own_connectRecv handshake))
  | queryRecv =>
    exact always (fun _ => trivial)
      ((own_map (option (fun _ h => by cases h) fun _ _ h => by cases h; rfl)).mpr own_queryRecv)
  | stmtExecuteRecv =>
    exact always (fun _ => trivial)
      ((own_map (option (fun _ h => by cases h) fun _ _ h => by cases h; rfl)).mpr
        own_stmtExecuteRecv)
  | readColumn =>
    exact always (fun _ => trivial) ((own_map fun _ _ h => by cases h; rfl).mpr own_readColumn)
  | closeRecv => exact always (fun _ => trivial) (own_done.mpr own_closeRecv)
  | stmtReadRow stmt columns values_out =>
    exact always (fun _ => trivial)
      ((own_map fun _ _ h => by cases h; rfl).mpr (own_stmtReadRow stmt columns values_out))
  | _ => exact absurd recv id

/-- A connection to which a packet has been sent, with a byte left in its packet
buffer. -/
def reusedConn (packet : List UInt8) (v : UInt8) : Conn :=
  { Conn.init (readingSock [.data (header packet.length 0 ++ packet)]) with
    packet_buffer := { (Conn.init idleSock).packet_buffer with stale := [v] } }

theorem recv_ownBytes_ping :
    Conn.OwnBytes (Call.pingRecv.run (fun _ => true) noDigests) (reusedConn [0, 0, 0] 0) := by
  have recv : Call.pingRecv.Receives := trivial
  apply (recv_ownBytes_iff recv _).mpr
  rintro packet ⟨c₁, hread, rfl⟩
  have hpacket : (Conn.readPacket (fun _ => true)
      (reusedConn [0, 0, 0] 0)).2.packet_buffer.bytes ≠ [] := by decide +kernel
  rw [hread] at hpacket
  exact hpacket

/-- An empty packet in answer to a ping, in front of a byte of some earlier reply,
or of the length that the ping itself began with. -/
theorem recv_ownBytes_fails :
    Conn.SameButStale (reusedConn [] 0) (reusedConn [] 1) ∧
      (Call.pingRecv.run (fun _ => true) noDigests (reusedConn [] 0)).1 =
        .error .truncatedPacket ∧
      (Call.pingRecv.run (fun _ => true) noDigests (reusedConn [] 1)).1 =
        .error .unexpectedPacket ∧
      ¬ Conn.OwnBytes (Call.pingRecv.run (fun _ => true) noDigests) (reusedConn [] 0) := by
  have hsame : Conn.SameButStale (reusedConn [] 0) (reusedConn [] 1) :=
    Conn.sameButStale_iff.mpr ⟨(reusedConn [] 1).packet_buffer, rfl, rfl, fun _ => rfl, rfl⟩
  have hzero : (Call.pingRecv.run (fun _ => true) noDigests (reusedConn [] 0)).1 =
      .error .truncatedPacket := by decide +kernel
  have hone : (Call.pingRecv.run (fun _ => true) noDigests (reusedConn [] 1)).1 =
      .error .unexpectedPacket := by decide +kernel
  refine ⟨hsame, hzero, hone, fun own => ?_⟩
  have hend := (own _ hsame).1
  rw [hzero, hone] at hend
  cases hend

end Trilogy
