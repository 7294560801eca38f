import Trilogy.Deframing
import Trilogy.StmtExecute
import Trilogy.Client

/-! After a request the packet parser should expect the number behind the one in
the last fragment header that went out. Two of the requests hand on the number
of the builder; the others go by their first fragment, which is the last one
only for payloads below 16 MB. -/
namespace Trilogy

open Lib Builder

/-- `trilogy_builder_write_string` -/
def stringBytes (s : List UInt8) : List UInt8 := s.takeWhile (· ≠ 0) ++ [0]

theorem Builder.Appends.when {c : Prop} [Decidable c] {m : Proc Code Builder Unit} {d : List UInt8}
    (h : Appends m d) : Appends (Proc.when c m) (if c then d else []) :=
  .ite (fun _ => h) fun _ => .pure

def authPayload (digests : Digests) (user : Option (List UInt8)) (pass : List UInt8)
    (database : Option (List UInt8)) (client_encoding : UInt8) (auth_plugin scramble : List UInt8)
    (flags : UInt32) : List UInt8 :=
  let capabilities := flags ||| Capabilities.client
  let capabilities :=
    if database.isSome then capabilities ||| Capabilities.connectWithDb else capabilities
  let response := authResponse digests pass auth_plugin scramble
  leBytes 4 capabilities.toNat ++ leBytes 4 maxPacketLen ++ [client_encoding] ++
    List.replicate 23 0 ++ stringBytes (user.getD (literal "root")) ++
    [UInt8.ofNat response.1.length] ++ response.1 ++
    (if database.isSome then stringBytes (database.getD []) else []) ++
    (if has capabilities Capabilities.pluginAuth then stringBytes response.2 else [])

theorem finalizes_buildAuthPacket (alloc : Alloc) (digests : Digests) (user : Option (List UInt8))
    (pass : List UInt8) (database : Option (List UInt8)) (client_encoding : UInt8)
    (auth_plugin scramble : List UInt8) (flags : UInt32) :
    Finalizes (buildAuthPacket alloc digests user pass database client_encoding auth_plugin
      scramble flags)
      (authPayload digests user pass database client_encoding auth_plugin scramble flags) := by
  refine .of_eq (.bind (appends_writeUint32 _ _) (.bind (appends_writeUint32 _ _)
    (.bind (appends_writeUint8 _ _) (.bind (appends_writeBuffer _ _)
    (.bind (appends_writeString _ _) (.bind (appends_writeUint8 _ _)
    (.bind (.when (appends_writeBuffer _ _)) (.bind (.when (appends_writeString _ _))
    (.bind (.when (appends_writeString _ _)) .finalize))))))))) ?_
  have hresponse : ∀ r : List UInt8, (if r.length > 0 then r else []) = r := by
    intro r
    split
    · rfl
    · rename_i h
      exact (List.length_eq_zero_iff.mp (Nat.eq_zero_of_not_pos h)).symm
  simp only [authPayload, hresponse, stringBytes, List.append_assoc, List.append_nil]
  rfl

def sslRequestPayload (flags : UInt32) (client_encoding : UInt8) : List UInt8 :=
  leBytes 4 (flags ||| Capabilities.client ||| Capabilities.ssl).toNat ++ leBytes 4 maxPacketLen ++
    [client_encoding] ++ List.replicate 23 0

theorem finalizes_buildSslRequestPacket (alloc : Alloc) (flags : UInt32) (client_encoding : UInt8) :
    Finalizes (buildSslRequestPacket alloc flags client_encoding)
      (sslRequestPayload flags client_encoding) := by
  refine .of_eq (.bind (appends_writeUint32 _ _) (.bind (appends_writeUint32 _ _)
    (.bind (appends_writeUint8 _ _) (.bind (appends_writeBuffer _ _) .finalize)))) ?_
  simp only [sslRequestPayload, List.append_assoc, List.append_nil]
  rfl

def authSwitchPayload (digests : Digests) (pass auth_plugin scramble : List UInt8) : List UInt8 :=
  if pass.length > 0 then
    if sameString clearPassword auth_plugin then pass
    else if sameString cachingSha2Password auth_plugin then
      packScrambleSha2Hash digests scramble pass
    else packScrambleNativeHash digests scramble pass
  else []

theorem finalizes_buildAuthSwitchResponsePacket (alloc : Alloc) (digests : Digests)
    (pass auth_plugin scramble : List UInt8) (enable : Bool) :
    Finalizes (buildAuthSwitchResponsePacket alloc digests pass auth_plugin scramble enable)
      (authSwitchPayload digests pass auth_plugin scramble) := by
  have hresponse : Appends
      (if sameString clearPassword auth_plugin then
        if enable then writeBuffer alloc pass else throw .authPluginError
      else if sameString cachingSha2Password auth_plugin then
        writeBuffer alloc (packScrambleSha2Hash digests scramble pass)
      else if sameString nativePassword auth_plugin then
        writeBuffer alloc (packScrambleNativeHash digests scramble pass)
      else throw .authPluginError)
      (if sameString clearPassword auth_plugin then pass
      else if sameString cachingSha2Password auth_plugin then
        packScrambleSha2Hash digests scramble pass
      else packScrambleNativeHash digests scramble pass) := by
    refine .ite (fun _ => ?_) fun _ => .ite (fun _ => appends_writeBuffer _ _) fun _ => ?_
    · split
      · exact appends_writeBuffer _ _
      · exact .throw _ _
    · split
      · exact appends_writeBuffer _ _
      · exact .throw _ _
  exact .of_eq (.bind (.when hresponse) .finalize) (by rw [List.append_nil]; rfl)

/-- A command byte and what it is about. -/
theorem finalizes_command (alloc : Alloc) (cmd : UInt8) {m : Proc Code Builder Unit}
    {d : List UInt8} (h : Appends m d) :
    Finalizes (do writeUint8 alloc cmd; m; modify finalize) (cmd :: d) :=
  .of_eq (.bind (appends_writeUint8 _ _) (.bind h .finalize)) (by simp)

theorem finalizes_buildStmtExecutePacket_take (alloc : Alloc) (stmt_id : UInt32) (flags : UInt8)
    {binds : List BinaryValue} {n : UInt16} (hn : n.toNat ≤ binds.length) :
    Finalizes (buildStmtExecutePacket alloc stmt_id flags (some binds) n)
      (executePrefix stmt_id flags (binds.take n.toNat) ++
        (binds.take n.toNat).flatMap valueBytes) := by
  have htake : buildStmtExecutePacket alloc stmt_id flags (some binds) n =
      buildStmtExecutePacket alloc stmt_id flags (some (binds.take n.toNat)) n := by
    simp only [buildStmtExecutePacket, List.take_take, Nat.min_self]
  rw [htake]
  exact finalizes_buildStmtExecutePacket_prefix alloc stmt_id flags (List.length_take_of_le hn)

theorem finalizes_buildStmtExecutePacket_none (alloc : Alloc) (stmt_id : UInt32) (flags : UInt8)
    (n : UInt16) :
    Finalizes (buildStmtExecutePacket alloc stmt_id flags none n) (executeHead stmt_id flags) := by
  refine .of_eq (.bind (appends_writeUint8 _ _) (.bind (appends_writeUint32 _ _)
    (.bind (appends_writeUint8 _ _) (.bind (appends_writeUint32 _ _)
    (.bind (.when (.throw _ [])) .finalize))))) ?_
  simp [executeHead]

/-- A call of one of the ten functions, with its arguments; the binds of a
statement are `NULL` or have an element for each parameter. -/
inductive Request
  | auth (handshake : Handshake)
  | sslRequest
  | authSwitch (handshake : Handshake)
  | changeDb (name : List UInt8)
  | setOption (option : UInt16)
  | ping
  | query (sql : List UInt8)
  | stmtPrepare (sql : List UInt8)
  | stmtExecute (stmt : StmtOkPacket) (flags : UInt8) (binds : Option (List BinaryValue))
      (enough : ∀ vs, binds = some vs → stmt.parameter_count.toNat ≤ vs.length)
  | stmtReset (stmt : StmtOkPacket)

namespace Request

section

variable (alloc : Alloc) (digests : Digests)

def send : Request → Proc Code Conn Unit
  | auth handshake => Conn.authSend alloc digests handshake
  | sslRequest => Conn.sslRequestSend alloc
  | authSwitch handshake => Conn.authSwitchSend alloc digests handshake
  | changeDb name => Conn.changeDbSend alloc name
  | setOption option => Conn.setOptionSend alloc option
  | ping => Conn.pingSend alloc
  | query sql => Conn.querySend alloc sql
  | stmtPrepare sql => Conn.stmtPrepareSend alloc sql
  | stmtExecute stmt flags binds _ => Conn.stmtExecuteSend alloc stmt flags binds
  | stmtReset stmt => Conn.stmtResetSend alloc stmt

/-- The sequence id of the first fragment. -/
def seq (conn : Conn) : Request → UInt8
  | auth _ | sslRequest | authSwitch _ => conn.packetParser.sequence_number
  | _ => 0

/-- How the packet is built. -/
def packet (conn : Conn) : Request → Proc Code Builder Unit
  | auth handshake =>
    buildAuthPacket alloc digests conn.socket.opts.username conn.socket.opts.password
      conn.socket.opts.database conn.socket.opts.encoding handshake.auth_plugin handshake.scramble
      conn.socket.opts.flags
  | sslRequest =>
    buildSslRequestPacket alloc (conn.socket.opts.flags ||| Capabilities.ssl)
      conn.socket.opts.encoding
  | authSwitch handshake =>
    buildAuthSwitchResponsePacket alloc digests conn.socket.opts.password handshake.auth_plugin
      handshake.scramble conn.socket.opts.enable_cleartext_plugin
  | changeDb name => buildChangeDbPacket alloc name
  | setOption option => buildSetOptionPacket alloc option
  | ping => buildPingPacket alloc
  | query sql => buildQueryPacket alloc sql
  | stmtPrepare sql => buildStmtPreparePacket alloc sql
  | stmtExecute stmt flags binds _ =>
    buildStmtExecutePacket alloc stmt.id flags binds stmt.parameter_count
  | stmtReset stmt => buildStmtResetPacket alloc stmt.id

def payload (conn : Conn) : Request → List UInt8
  | auth handshake =>
    authPayload digests conn.socket.opts.username conn.socket.opts.password
      conn.socket.opts.database conn.socket.opts.encoding handshake.auth_plugin handshake.scramble
      conn.socket.opts.flags
  | sslRequest =>
    sslRequestPayload (conn.socket.opts.flags ||| Capabilities.ssl) conn.socket.opts.encoding
  | authSwitch handshake =>
    authSwitchPayload digests conn.socket.opts.password handshake.auth_plugin handshake.scramble
  | changeDb name => Cmd.changeDb :: name
  | setOption option => Cmd.setOption :: leBytes 2 option.toNat
  | ping => [Cmd.ping]
  | query sql => Cmd.query :: sql
  | stmtPrepare sql => Cmd.stmtPrepare :: sql
  | stmtExecute stmt flags none _ => executeHead stmt.id flags
  | stmtExecute stmt flags (some binds) _ =>
    let binds := binds.take stmt.parameter_count.toNat
    executePrefix stmt.id flags binds ++ binds.flatMap valueBytes
  | stmtReset stmt => Cmd.stmtReset :: leBytes 4 stmt.id.toNat

end

/-- The functions that set the sequence number once the packet is built. -/
def HandsOn : Request → Prop
  | query _ | stmtExecute .. => True
  | _ => False

theorem finalizes_packet (alloc : Alloc) (digests : Digests) (conn : Conn) (r : Request) :
    Finalizes (r.packet alloc digests conn) (r.payload digests conn) := by
  cases r with
  | auth handshake => exact finalizes_buildAuthPacket ..
  | sslRequest => exact finalizes_buildSslRequestPacket ..
  | authSwitch handshake => exact finalizes_buildAuthSwitchResponsePacket ..
  | changeDb name => exact finalizes_command alloc _ (appends_writeBuffer alloc name)
  | setOption option => exact finalizes_command alloc _ (appends_writeUint16 alloc option)
  | ping => exact .bind (appends_writeUint8 _ _) .finalize
  | query sql => exact finalizes_command alloc _ (appends_writeBuffer alloc sql)
  | stmtPrepare sql => exact finalizes_command alloc _ (appends_writeBuffer alloc sql)
  | stmtExecute stmt flags binds enough =>
    cases binds with
    | none => exact finalizes_buildStmtExecutePacket_none ..
    | some binds => exact finalizes_buildStmtExecutePacket_take _ _ _ (enough _ rfl)
  | stmtReset stmt => exact finalizes_command alloc _ (appends_writeUint32 alloc stmt.id)

end Request

namespace Conn

theorem keeps_onSocket {α : Type} {R : Conn → Conn → Prop} (m : Proc Code Sock α)
    (h : ∀ conn socket, R conn { conn with socket }) : Proc.Keeps R (onSocket m) :=
  fun conn => h conn _

/-- The packet and the parser are as they were. -/
def SamePacket (c c' : Conn) : Prop :=
  c'.packet_buffer = c.packet_buffer ∧ c'.packetParser = c.packetParser

instance : Std.Refl SamePacket := ⟨fun _ => ⟨rfl, rfl⟩⟩

instance : IsTrans Conn SamePacket :=
  ⟨fun _ _ _ h h' => ⟨h'.1.trans h.1, h'.2.trans h.2⟩⟩

theorem samePacket_beginWrite : Proc.Keeps SamePacket beginWrite := by
  refine .bind (.modify fun _ => ⟨rfl, rfl⟩) fun _ => .bind .get fun _ =>
    .bind (keeps_onSocket _ fun _ _ => ⟨rfl, rfl⟩) fun _ =>
    .bind (.modify fun _ => ⟨rfl, rfl⟩) fun _ => .bind .get fun conn => ?_
  split
  · exact .throw _
  · exact .pure _

theorem beginCommandPhase_ok {alloc : Alloc} {seq : UInt8} {c c' : Conn} {builder : Builder}
    (h : beginCommandPhase alloc seq c = (.ok builder, c')) :
    Building seq [] builder ∧ c' = { c with
      packet_buffer := builder.buffer
      packetParser := { c.packetParser with sequence_number := seq + 1 } } := by
  unfold beginCommandPhase at h
  split at h
  · cases h
  · rename_i b hinit
    have hb := init_building hinit
    cases h
    refine ⟨?_, rfl⟩
    split
    · unfold setMaxPacketLength
      rw [Proc.get_bind]
      split
      · exact hb
      · exact hb.setMax _
    · exact hb

theorem build_of_ok {m : Proc Code Builder Unit} {builder builder' : Builder}
    (h : m builder = (.ok (), builder')) (c : Conn) :
    build builder m c = (.ok builder', { c with packet_buffer := builder'.buffer }) := by
  simp only [build, h]

/-- The packet `builder` holds is in the buffer, and `n` is expected in answer to it. -/
def Sent (builder : Builder) (n : UInt8) (c c' : Conn) : Prop :=
  c'.packet_buffer = builder.buffer ∧
    c'.packetParser = { c.packetParser with sequence_number := n }

theorem sendPacket_sent {alloc : Alloc} {seq : UInt8} {m : Proc Code Builder Unit} {c c₁ : Conn}
    {builder builder' : Builder} (hbegin : beginCommandPhase alloc seq c = (.ok builder, c₁))
    (hbuild : m builder = (.ok (), builder')) :
    Sent builder' (seq + 1) c (sendPacket alloc seq m c).2 := by
  obtain ⟨-, rfl⟩ := beginCommandPhase_ok hbegin
  rw [sendPacket, Proc.bind_of_ok hbegin, Proc.bind_of_ok (build_of_ok hbuild _)]
  exact samePacket_beginWrite _

theorem sendPacketInSequence_sent {alloc : Alloc} {m : Proc Code Builder Unit} {c c₁ : Conn}
    {builder builder' : Builder} (hbegin : beginCommandPhase alloc 0 c = (.ok builder, c₁))
    (hbuild : m builder = (.ok (), builder')) :
    Sent builder' builder'.seq c (sendPacketInSequence alloc m c).2 := by
  obtain ⟨-, rfl⟩ := beginCommandPhase_ok hbegin
  rw [sendPacketInSequence, Proc.bind_of_ok hbegin, Proc.bind_of_ok (build_of_ok hbuild _),
    Proc.modify_bind]
  exact samePacket_beginWrite _

theorem sslRequestSend_sent {alloc : Alloc} {c c₁ : Conn} {builder builder' : Builder}
    (hbegin : beginCommandPhase alloc c.packetParser.sequence_number c = (.ok builder, c₁))
    (hbuild : buildSslRequestPacket alloc (c.socket.opts.flags ||| Capabilities.ssl)
      c.socket.opts.encoding builder = (.ok (), builder')) :
    Sent builder' (c.packetParser.sequence_number + 1) c (sslRequestSend alloc c).2 := by
  obtain ⟨-, rfl⟩ := beginCommandPhase_ok hbegin
  rw [sslRequestSend, Proc.get_bind, Proc.bind_of_ok hbegin, Proc.modify_bind, Proc.get_bind,
    Proc.bind_of_ok (build_of_ok hbuild _)]
  exact samePacket_beginWrite _

end Conn

open Conn in
theorem Request.send_sent {alloc : Alloc} {digests : Digests} {r : Request} {c c₁ : Conn}
    {builder builder' : Builder}
    (hbegin : beginCommandPhase alloc (r.seq c) c = (.ok builder, c₁))
    (hbuild : r.packet alloc digests c builder = (.ok (), builder')) :
    ∃ n, Sent builder' n c (r.send alloc digests c).2 ∧
      (n = builder'.seq ∧ r.HandsOn ∨ n = r.seq c + 1 ∧ ¬ r.HandsOn) := by
  cases r with
  | query _ | stmtExecute _ _ _ _ =>
    exact ⟨_, sendPacketInSequence_sent hbegin hbuild, .inl ⟨rfl, trivial⟩⟩
  | sslRequest => exact ⟨_, sslRequestSend_sent hbegin hbuild, .inr ⟨rfl, id⟩⟩
  | auth _ | authSwitch _ | changeDb _ | setOption _ | ping | stmtPrepare _ | stmtReset _ =>
    exact ⟨_, sendPacket_sent hbegin hbuild, .inr ⟨rfl, id⟩⟩

/-- The sequence id in the last header of a framed packet. -/
def lastFragmentSeq : List UInt8 → Option UInt8
  | a :: b :: c :: seq :: rest =>
    if rest.length ≤ ofLeBytes [a, b, c] then some seq
    else lastFragmentSeq (rest.drop (ofLeBytes [a, b, c]))
  | _ => none
termination_by bytes => bytes.length
decreasing_by
  simp only [List.length_drop, List.length_cons]
  omega

theorem lastFragmentSeq_header {n : Nat} (hn : n < 2 ^ 24) (seq : UInt8) (rest : List UInt8) :
    lastFragmentSeq (header n seq ++ rest) =
      if rest.length ≤ n then some seq else lastFragmentSeq (rest.drop n) := by
  have h := ofLeBytes_leBytes_of_lt (k := 3) hn
  simp only [leBytes] at h
  rw [header]
  simp only [leBytes, List.cons_append, List.nil_append]
  rw [lastFragmentSeq, h]

theorem lastFragmentSeq_frames (s : UInt8) (p : List UInt8) :
    lastFragmentSeq (frames s p) = some (s + UInt8.ofNat (extraFragments p.length)) := by
  induction s, p using frames.induct with
  | case1 s p hlt =>
    have hextra : extraFragments p.length = 0 := Nat.div_eq_of_lt hlt
    rw [frames_of_lt hlt, lastFragmentSeq_header (by unfold maxPacketLen at hlt; omega),
      if_pos (Nat.le_refl _), hextra]
    simp
  | case2 s p hge ih =>
    obtain ⟨full, q, hfull, rfl⟩ : ∃ full q, full.length = maxPacketLen ∧ p = full ++ q :=
      ⟨p.take maxPacketLen, p.drop maxPacketLen,
        by rw [List.length_take]; omega, (List.take_append_drop _ _).symm⟩
    have hpos : 0 < (frames (s + 1) q).length := by
      rw [frames]
      split <;> simp [header_length]
    rw [List.drop_left' hfull] at ih
    rw [frames_full hfull, lastFragmentSeq_header (by decide),
      if_neg (by rw [List.length_append]; omega), List.drop_left' hfull, ih]
    have hextra : extraFragments (full ++ q).length = extraFragments q.length + 1 := by
      rw [extraFragments, List.length_append, hfull, Nat.add_div_left _ (by decide)]
      rfl
    rw [hextra, ofNat_succ, UInt8.add_assoc, UInt8.add_comm 1]

namespace PacketParser

theorem feed_header_refused {p : PacketParser} (hs : p.state = .len0) (acc : List UInt8) {n : Nat}
    {seq : UInt8} (h : seq ≠ p.sequence_number) :
    ∃ st, feed parseByte (p, acc) (header n seq) =
      (st, some Code.invalidSequenceId.toInt, [seq]) := by
  have e0 : parseByte (p, acc) (UInt8.ofNat n) =
      .next ({ p with bytes_remaining := (UInt8.ofNat n).toNat, state := .len1 }, acc) := by
    simp only [parseByte, hs]
  rw [header_eq, feed_next e0, feed_next rfl, feed_next rfl, feed_refuse]
  · exact ⟨_, rfl⟩
  · simp [parseByte, h]

/-- At a packet boundary, the header of a reply with `n` bytes. -/
theorem execute_header (alloc : Alloc) {p : PacketParser} (hs : p.state = .len0)
    (hd : p.deferred_end_callback = false) (b : Buffer) {n : Nat} (hn : n < 2 ^ 24)
    (seq : UInt8) :
    (execute (packetParserCallbacks alloc) p b (header n seq)).error =
      if seq = p.sequence_number then (if n = 0 then 1 else 0)
      else Code.invalidSequenceId.toInt := by
  have steady : Steady p := ⟨by simp [hs], hd⟩
  have grow : Buffer.Grows alloc b.cap 0 := by
    intro b' needed _ hl
    have hadd : sizeAdd b'.len needed = 0 := by
      rw [sizeAdd_of_lt (by omega)]
      omega
    simp [Buffer.expand, hadd]
  have fits : Fits 0 (p, b.bytes) (header n seq) := by
    rw [header_eq]
    refine ⟨by simp [hs], ?_⟩
    simp only [parseByte, hs]
    refine ⟨by simp, by simp, by simp, ?_⟩
    split <;> trivial
  have hp := execute_parsed steady grow fits
  by_cases h : seq = p.sequence_number
  · subst h
    have hfeed := feed_header hs b.bytes hn []
    rw [List.append_nil] at hfeed
    rw [if_pos rfl]
    by_cases hz : n = 0
    · rw [if_pos hz]
      simp only [if_pos hz] at hfeed
      exact (hp.of_stop hfeed).1
    · rw [if_neg hz]
      simp only [if_neg hz] at hfeed
      exact (hp.of_none hfeed).1
  · obtain ⟨st, hfeed⟩ := @feed_header_refused p hs b.bytes n seq h
    rw [if_neg h]
    exact (hp.of_stop hfeed).1

end PacketParser

/-- The parser expects the number behind the last fragment's, and at a packet
boundary it takes a reply with that number and no other. -/
def InSequence (alloc : Alloc) (conn : Conn) : Prop :=
  ∃ last, lastFragmentSeq conn.packet_buffer.bytes = some last ∧
    conn.packetParser.sequence_number = last + 1 ∧
    (conn.packetParser.state = .len0 → conn.packetParser.deferred_end_callback = false →
      ∀ n < 2 ^ 24, ∀ seq,
        (PacketParser.execute (packetParserCallbacks alloc) conn.packetParser conn.packet_buffer
          (header n seq)).error =
        if seq = last + 1 then (if n = 0 then 1 else 0) else Code.invalidSequenceId.toInt)

theorem inSequence_iff (alloc : Alloc) {conn : Conn} {s : UInt8} {p : List UInt8}
    (h : conn.packet_buffer.bytes = frames s p) :
    InSequence alloc conn ↔
      conn.packetParser.sequence_number = s + UInt8.ofNat (extraFragments p.length) + 1 := by
  have hlast := lastFragmentSeq_frames s p
  rw [← h] at hlast
  constructor
  · rintro ⟨last, he, hseq, -⟩
    rw [hlast] at he
    cases he
    exact hseq
  · intro hseq
    refine ⟨_, hlast, hseq, fun hs hd n hn seq => ?_⟩
    rw [PacketParser.execute_header alloc hs hd _ hn, hseq]

theorem add_ofNat_eq {s : UInt8} {n : Nat} : s + 1 = s + UInt8.ofNat n + 1 ↔ n % 256 = 0 := by
  rw [UInt8.add_left_inj, ← UInt8.toNat_inj, UInt8.toNat_add, UInt8.toNat_ofNat']
  have := s.toNat_lt
  omega

open Conn in
/-- What a request leaves behind, once its packet is built. -/
theorem send_framed {alloc : Alloc} {digests : Digests} {r : Request} {c c₁ : Conn}
    {builder builder' : Builder}
    (hbegin : beginCommandPhase alloc (r.seq c) c = (.ok builder, c₁))
    (hbuild : r.packet alloc digests c builder = (.ok (), builder')) :
    let c' := (r.send alloc digests c).2
    c'.packet_buffer.bytes = frames (r.seq c) (r.payload digests c) ∧
      (r.HandsOn → c'.packetParser.sequence_number =
        r.seq c + UInt8.ofNat (extraFragments (r.payload digests c).length) + 1) ∧
      (¬ r.HandsOn → c'.packetParser.sequence_number = r.seq c + 1) := by
  obtain ⟨hb, -⟩ := beginCommandPhase_ok hbegin
  obtain ⟨hbytes, hseq⟩ := r.finalizes_packet alloc digests c hb hbuild
  rw [List.nil_append] at hbytes hseq
  obtain ⟨n, ⟨hbuf, hparser⟩, hn⟩ := Request.send_sent hbegin hbuild
  intro c'
  refine ⟨by rw [hbuf, hbytes], fun hands => ?_, fun hands => ?_⟩ <;>
    obtain ⟨rfl, hands'⟩ | ⟨rfl, hands'⟩ := hn
  · rw [hparser, ← hseq]
  · exact absurd hands hands'
  · exact absurd hands' hands
  · rw [hparser]

open Conn in
/-- The reply to a request is in sequence for the two functions that hand the
number on, and for the others exactly when the packet has a single fragment, or
256 more for each time the number comes round. -/
theorem send_inSequence {alloc : Alloc} {digests : Digests} {r : Request} {c c₁ : Conn}
    {builder builder' : Builder}
    (hbegin : beginCommandPhase alloc (r.seq c) c = (.ok builder, c₁))
    (hbuild : r.packet alloc digests c builder = (.ok (), builder')) :
    InSequence alloc (r.send alloc digests c).2 ↔
      r.HandsOn ∨ extraFragments (r.payload digests c).length % 256 = 0 := by
  obtain ⟨hbytes, hyes, hno⟩ := send_framed hbegin hbuild
  rw [inSequence_iff alloc hbytes]
  by_cases hands : r.HandsOn
  · simp [hands, hyes hands]
  · rw [hno hands, add_ofNat_eq]
    simp [hands]

/-- A socket on which nothing arrives and nothing can be written. -/
def idleSock : Sock where
  opts :=
    { hostname := none
      path := some (literal "/tmp/mysql.sock")
      database := none
      username := none
      password := []
      encoding := 0
      ssl_mode := .disabled
      enable_cleartext_plugin := false
      flags := 0
      max_allowed_packet := 0 }
  addr := some (.unix (literal "/tmp/mysql.sock"))
  io := .raw
  net :=
    { lookup := none
      unix_connect := true
      raw_reads := []
      raw_writes := []
      tls_reads := []
      tls_writes := []
      polls := []
      ssl_setups := []
      ssl_connects := [] }
  received := []
  sent := []

/-- A socket on which these reads return. -/
def readingSock (raw_reads : List RawRead) : Sock :=
  { idleSock with net := { idleSock.net with raw_reads } }

def noDigests : Digests :=
  ⟨fun _ => List.replicate 20 0, fun _ => List.replicate 32 0, fun _ => List.length_replicate,
    fun _ => List.length_replicate⟩

open Conn in
theorem send_inSequence_query :
    InSequence (fun _ => true)
      ((Request.query [0x31]).send (fun _ => true) noDigests (Conn.init idleSock)).2 := by
  let c := Conn.init idleSock
  have hbegin : beginCommandPhase (fun _ => true) 0 c =
      (.ok ((Builder.init (fun _ => true) c.packet_buffer 0).2),
        (beginCommandPhase (fun _ => true) 0 c).2) := by
    decide +kernel
  have hbuild := Proc.ends (m := buildQueryPacket (fun _ => true) [0x31])
    (s := (Builder.init (fun _ => true) c.packet_buffer 0).2) (r := .ok ()) (by decide +kernel)
  exact (@send_inSequence _ noDigests (.query [0x31]) _ _ _ _ hbegin hbuild).mpr (.inl trivial)

open Conn in
/-- A statement that fills a fragment with its command byte: the parser is left
to expect 1, which is the number of the empty fragment behind it. -/
theorem send_inSequence_fails :
    let r : Request := .stmtPrepare (List.replicate (maxPacketLen - 1) 0)
    (∃ builder c₁ builder', beginCommandPhase (fun _ => true) 0 (Conn.init idleSock) =
        (.ok builder, c₁) ∧
      r.packet (fun _ => true) noDigests (Conn.init idleSock) builder = (.ok (), builder')) ∧
    ¬ InSequence (fun _ => true) (r.send (fun _ => true) noDigests (Conn.init idleSock)).2 := by
  intro r
  let c := Conn.init idleSock
  have hbegin : beginCommandPhase (fun _ => true) 0 c =
      (.ok ((Builder.init (fun _ => true) c.packet_buffer 0).2),
        (beginCommandPhase (fun _ => true) 0 c).2) := by
    decide +kernel
  have hcmd := Proc.ends (m := writeUint8 (fun _ => true) Cmd.stmtPrepare)
    (s := (Builder.init (fun _ => true) c.packet_buffer 0).2) (r := .ok ()) (by decide +kernel)
  generalize hb₁ : (writeUint8 (fun _ => true) Cmd.stmtPrepare
    (Builder.init (fun _ => true) c.packet_buffer 0).2).2 = b₁ at hcmd
  have hsmall : b₁.fragment_length = 1 ∧ b₁.packet_length = 1 ∧
      b₁.packet_max_length = sizeMax ∧ b₁.buffer.len = 5 := by
    rw [← hb₁]
    decide +kernel
  obtain ⟨hfrag, hpacket, hmax, hlen⟩ := hsmall
  have hn : (List.replicate (maxPacketLen - 1) (0 : UInt8)).length = 16777214 :=
    List.length_replicate
  obtain ⟨b₂, hsql⟩ := @writeBuffer_succeeds (fun _ => true) (fun _ => rfl)
    (List.replicate (maxPacketLen - 1) 0) b₁ (by rw [hfrag]; decide)
    (by rw [hpacket, hmax, hn]; decide) (by rw [hmax]; decide) (by rw [hlen, hn]; decide)
  have hbuild : r.packet (fun _ => true) noDigests c
      (Builder.init (fun _ => true) c.packet_buffer 0).2 = (.ok (), b₂.finalize) := by
    change buildStmtPreparePacket _ _ _ = _
    rw [buildStmtPreparePacket, Proc.bind_of_ok hcmd, Proc.bind_of_ok hsql]
    rfl
  refine ⟨⟨_, _, _, hbegin, hbuild⟩, fun h => ?_⟩
  obtain ⟨hbytes, -, hno⟩ := @send_framed _ noDigests r _ _ _ _ hbegin hbuild
  have hone : extraFragments (r.payload noDigests c).length = 1 := by
    change extraFragments (_ :: List.replicate _ _).length = 1
    rw [List.length_cons, hn]
    decide
  rw [inSequence_iff _ hbytes, hno id, hone] at h
  revert h
  decide

end Trilogy
