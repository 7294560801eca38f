import Mathlib.Data.List.TakeWhile
import Trilogy.Cleartext

namespace Trilogy

open Lib Builder Reader Proc

/-- `TRILOGY_CAPABILITIES_CONNECT_ATTRS`, which is not implemented. -/
def Capabilities.connectAttrs : UInt32 := 0x00100000

/-- What a server reads. -/
structure HandshakeResponse where
  capabilities : UInt32
  max_packet_len : UInt32
  charset : UInt8
  user : List UInt8
  auth_response : List UInt8
  database : Option (List UInt8)
  auth_plugin : Option (List UInt8)
  attributes : Option (List UInt8)
  deriving DecidableEq

/-- A field that is there under a capability. -/
def announcedField (capabilities flag : UInt32) (m : Proc Code Reader (List UInt8)) :
    Proc Code Reader (Option (List UInt8)) :=
  if has capabilities flag then do
    let field ← m
    pure (some field)
  else pure none

/-- The server's side: a `HandshakeResponse41`, read by its own capability word. -/
def readHandshakeResponse : Proc Code Reader HandshakeResponse := do
  let capabilities ← getUint32
  let max_packet_len ← getUint32
  let charset ← getUint8
  let _ ← getBuffer 23
  let user ← getString
  let auth_response_len ← getUint8
  let auth_response ← getBuffer auth_response_len.toNat
  let database ← announcedField capabilities Capabilities.connectWithDb getString
  let auth_plugin ← announcedField capabilities Capabilities.pluginAuth getString
  let attributes ← announcedField capabilities Capabilities.connectAttrs getLenencBuffer
  finish
  pure { capabilities, max_packet_len, charset, user, auth_response, database, auth_plugin,
         attributes }

/-- The capability word of the response. -/
def announced (flags : UInt32) (database : Option (List UInt8)) : UInt32 :=
  if database.isSome then flags ||| Capabilities.client ||| Capabilities.connectWithDb
  else flags ||| Capabilities.client

/-- The bytes that the SSL request and the response have in common. -/
def startBytes (capabilities : UInt32) (client_encoding : UInt8) : List UInt8 :=
  leBytes 4 capabilities.toNat ++ (leBytes 4 maxPacketLen ++
    (client_encoding :: List.replicate 23 0))

theorem length_startBytes (capabilities : UInt32) (client_encoding : UInt8) :
    (startBytes capabilities client_encoding).length = 32 := by
  simp [startBytes]

theorem has_or (a b flag : UInt32) : has (a ||| b) flag = (has a flag || has b flag) := by
  have hand : (a ||| b) &&& flag = a &&& flag ||| b &&& flag := by
    rw [← UInt32.toBitVec_inj]
    ext i
    simp [Bool.and_or_distrib_right]
  rw [has, has, has, hand, Bool.eq_iff_iff, Bool.or_eq_true, bne_iff_ne, bne_iff_ne, bne_iff_ne,
    ← not_and_or, not_iff_not]
  exact UInt32.or_eq_zero_iff

theorem has_announced (flags : UInt32) (database : Option (List UInt8)) (flag : UInt32) :
    has (announced flags database) flag =
      (has flags flag || has Capabilities.client flag ||
        (database.isSome && has Capabilities.connectWithDb flag)) := by
  unfold announced
  split
  · rename_i h
    rw [has_or, has_or, h, Bool.true_and]
  · rename_i h
    rw [has_or, Bool.eq_false_iff.mpr h, Bool.false_and, Bool.or_false]

theorem authPayload_eq (digests : Digests) (user : Option (List UInt8)) (pass : List UInt8)
    (database : Option (List UInt8)) (client_encoding : UInt8) (auth_plugin scramble : List UInt8)
    (flags : UInt32) :
    authPayload digests user pass database client_encoding auth_plugin scramble flags =
      startBytes (announced flags database) client_encoding ++
        (stringBytes (user.getD (literal "root")) ++
        (UInt8.ofNat (authResponse digests pass auth_plugin scramble).1.length ::
        ((authResponse digests pass auth_plugin scramble).1 ++
        ((if database.isSome then stringBytes (database.getD []) else []) ++
        stringBytes (authResponse digests pass auth_plugin scramble).2)))) := by
  have hplugin : has (announced flags database) Capabilities.pluginAuth = true := by
    rw [has_announced]
    simp [show has Capabilities.client Capabilities.pluginAuth = true by decide]
  unfold announced at *
  simp only [authPayload, hplugin, if_true, startBytes, List.append_assoc, List.cons_append,
    List.nil_append]

/-- The strings that can be handed over as C strings. -/
def NulFree (s : List UInt8) : Prop := ∀ b ∈ s, b ≠ 0

instance (s : List UInt8) : Decidable (NulFree s) := List.decidableBAll (· ≠ 0) s

theorem stringBytes_nulFree {s : List UInt8} (h : NulFree s) : stringBytes s = s ++ [0] := by
  rw [stringBytes, List.takeWhile_eq_self_iff.mpr fun b hb => decide_eq_true (h b hb)]

theorem reads_string {s : List UInt8} (h : NulFree s) (left : List UInt8) :
    Cursor.Reads getString (stringBytes s ++ left) (.ok s) left := by
  rw [stringBytes_nulFree h, List.append_assoc]
  exact reads_getString h left

theorem reads_announcedField {capabilities flag : UInt32} {m : Proc Code Reader (List UInt8)}
    {input left field : List UInt8} (h : has capabilities flag)
    (hm : Cursor.Reads m input (.ok field) left) :
    Cursor.Reads (announcedField capabilities flag m) input (.ok (some field)) left := by
  rw [announcedField, if_pos h]
  exact .bind hm (.pure _ _)

theorem reads_absentField {capabilities flag : UInt32} {m : Proc Code Reader (List UInt8)}
    (h : has capabilities flag = false) (input : List UInt8) :
    Cursor.Reads (announcedField capabilities flag m) input (.ok none) input := by
  rw [announcedField, if_neg (by simp [h])]
  exact .pure _ _

theorem length_authResponse (digests : Digests) (pass auth_plugin scramble : List UInt8) :
    (authResponse digests pass auth_plugin scramble).1.length < 256 := by
  unfold authResponse
  split
  · split
    · simp [packScrambleSha2Hash, xorBytes, digests.sha256_length]
    · simp [packScrambleNativeHash, xorBytes, digests.sha1_length]
  · simp

theorem nulFree_authResponse {digests : Digests} {pass auth_plugin scramble : List UInt8}
    (h : NulFree auth_plugin) : NulFree (authResponse digests pass auth_plugin scramble).2 := by
  unfold authResponse
  split
  · split
    · exact h
    · show NulFree nativePassword
      decide
  · exact h

/-- What the caller asks for with its flags. Attributes are not implemented, and
a database is announced by giving one. -/
structure Announceable (flags : UInt32) (database : Option (List UInt8)) : Prop where
  attrs : has flags Capabilities.connectAttrs = false
  database : has flags Capabilities.connectWithDb → database.isSome

/-- The server gets back what the response was built from. -/
theorem reads_authPayload (digests : Digests) {user database : Option (List UInt8)}
    {auth_plugin : List UInt8} {flags : UInt32} (pass : List UInt8) (client_encoding : UInt8)
    (scramble : List UInt8) (announceable : Announceable flags database)
    (huser : ∀ s, user = some s → NulFree s) (hdatabase : ∀ s, database = some s → NulFree s)
    (hplugin : NulFree auth_plugin) :
    Cursor.Reads readHandshakeResponse
      (authPayload digests user pass database client_encoding auth_plugin scramble flags)
      (.ok {
        capabilities := announced flags database
        max_packet_len := UInt32.ofNat maxPacketLen
        charset := client_encoding
        user := user.getD (literal "root")
        auth_response := (authResponse digests pass auth_plugin scramble).1
        database
        auth_plugin := some (authResponse digests pass auth_plugin scramble).2
        attributes := none }) [] := by
  have huser' : NulFree (user.getD (literal "root")) := by
    cases user with
    | none => decide
    | some s => exact huser s rfl
  have hfiller : (List.replicate 23 (0 : UInt8)).length = 23 := List.length_replicate
  have hfield : has (announced flags database) Capabilities.pluginAuth := by
    rw [has_announced]
    simp [show has Capabilities.client Capabilities.pluginAuth = true by decide]
  have hattrs : has (announced flags database) Capabilities.connectAttrs = false := by
    rw [has_announced, announceable.attrs]
    simp [show has Capabilities.client Capabilities.connectAttrs = false by decide,
      show has Capabilities.connectWithDb Capabilities.connectAttrs = false by decide]
  have hread : ∀ left, Cursor.Reads
      (announcedField (announced flags database) Capabilities.connectWithDb getString)
      ((if database.isSome then stringBytes (database.getD []) else []) ++ left) (.ok database)
      left := by
    intro left
    cases database with
    | some s =>
      refine reads_announcedField ?_ (reads_string (hdatabase s rfl) left)
      rw [has_announced]
      simp [show has Capabilities.connectWithDb Capabilities.connectWithDb = true by decide]
    | none =>
      refine reads_absentField ?_ left
      have hflags : has flags Capabilities.connectWithDb = false :=
        Bool.eq_false_iff.mpr fun h => absurd (announceable.database h) (by simp)
      rw [has_announced, hflags]
      decide
  rw [authPayload_eq, startBytes, List.append_assoc, List.append_assoc, List.cons_append]
  generalize hresponse : authResponse digests pass auth_plugin scramble = response
  have hlen := length_authResponse digests pass auth_plugin scramble
  have hname := @nulFree_authResponse digests pass auth_plugin scramble hplugin
  rw [hresponse] at hlen hname
  have hstring := reads_string hname []
  rw [List.append_nil] at hstring
  have hword := reads_getUint32 (announced flags database).toNat
  rw [UInt32.ofNat_toNat] at hword
  have hcount : (UInt8.ofNat response.1.length).toNat = response.1.length := UInt8.toNat_ofNat_of_lt' hlen
  refine .bind (hword _) (.bind (reads_getUint32 _ _) (.bind (reads_getUint8 _ _)
    (.bind (hfiller ▸ reads_getBuffer _ _) (.bind (reads_string huser' _)
    (.bind (reads_getUint8 _ _) ?_)))))
  rw [hcount]
  exact .bind (reads_getBuffer _ _) (.bind (hread _) (.bind (reads_announcedField hfield hstring)
    (.bind (reads_absentField hattrs _) (.bind reads_finish (.pure _ _)))))

/-- What `trilogy_build_auth_packet` builds is read as what it was given. -/
theorem authPacket_agrees {alloc : Alloc} {digests : Digests} {user database : Option (List UInt8)}
    {pass auth_plugin scramble : List UInt8} {client_encoding seq : UInt8} {flags : UInt32}
    {b b' : Builder} (start : Building seq [] b)
    (built : buildAuthPacket alloc digests user pass database client_encoding auth_plugin scramble
      flags b = (.ok (), b'))
    (announceable : Announceable flags database)
    (huser : ∀ s, user = some s → NulFree s) (hdatabase : ∀ s, database = some s → NulFree s)
    (hplugin : NulFree auth_plugin) :
    ∃ payload, b'.buffer.bytes = frames seq payload ∧
      parse readHandshakeResponse payload = .ok {
        capabilities := announced flags database
        max_packet_len := UInt32.ofNat maxPacketLen
        charset := client_encoding
        user := user.getD (literal "root")
        auth_response := (authResponse digests pass auth_plugin scramble).1
        database
        auth_plugin := some (authResponse digests pass auth_plugin scramble).2
        attributes := none } :=
  ⟨_, (finalizes_buildAuthPacket alloc digests user pass database client_encoding auth_plugin
    scramble flags start built).1, (reads_authPayload digests pass client_encoding scramble
    announceable huser hdatabase hplugin).run⟩

/-- The builder at the beginning of a packet with this sequence id. -/
def startedBuilder (seq : UInt8) : Builder :=
  (Builder.init (fun _ => true) (Conn.init idleSock).packet_buffer seq).2

theorem building_started (seq : UInt8) : Building seq [] (startedBuilder seq) :=
  init_building (ends (show (Builder.init (fun _ => true) _ seq).1 = .ok () from rfl))

theorem authPacket_agrees_database :
    ∃ payload, (buildAuthPacket (fun _ => true) noDigests none (literal "pw") (some (literal "test"))
        45 nativePassword (List.replicate 21 1) 0 (startedBuilder 1)).2.buffer.bytes =
        frames 1 payload ∧
      parse readHandshakeResponse payload = .ok {
        capabilities := announced 0 (some (literal "test"))
        max_packet_len := UInt32.ofNat maxPacketLen
        charset := 45
        user := literal "root"
        auth_response := List.replicate 20 0
        database := some (literal "test")
        auth_plugin := some nativePassword
        attributes := none } := by
  have hbuild : (buildAuthPacket (fun _ => true) noDigests none (literal "pw")
      (some (literal "test")) 45 nativePassword (List.replicate 21 1) 0 (startedBuilder 1)).1 =
        .ok () := by
    decide +kernel
  obtain ⟨payload, hbytes, hread⟩ := authPacket_agrees (building_started 1) (ends hbuild)
    ⟨by decide, by decide⟩ (by simp) (fun s hs => Option.some.inj hs ▸ by decide) (by decide)
  exact ⟨payload, hbytes, hread.trans (by decide +kernel)⟩

/-- With a flag for attributes the word announces a section that is not there. -/
theorem attributes_announced :
    ∃ payload b', buildAuthPacket (fun _ => true) noDigests none [] none 45 nativePassword
        (List.replicate 21 1) Capabilities.connectAttrs (startedBuilder 1) = (.ok (), b') ∧
      b'.buffer.bytes = frames 1 payload ∧
      parse readHandshakeResponse payload = .error .truncatedPacket := by
  have hbuild : (buildAuthPacket (fun _ => true) noDigests none [] none 45 nativePassword
      (List.replicate 21 1) Capabilities.connectAttrs (startedBuilder 1)).1 = .ok () := by
    decide +kernel
  refine ⟨_, _, ends hbuild, (finalizes_buildAuthPacket _ _ _ _ _ _ _ _ _ (building_started 1)
    (ends hbuild)).1, ?_⟩
  decide +kernel

/-- What the two packets are made of. -/
structure SameOpts (sock sock' : Sock) : Prop where
  database : sock'.opts.database = sock.opts.database
  encoding : sock'.opts.encoding = sock.opts.encoding
  flags : sock'.opts.flags = sock.opts.flags

instance : Std.Refl SameOpts := ⟨fun _ => ⟨rfl, rfl, rfl⟩⟩

instance : IsTrans Sock SameOpts where
  trans _ _ _ h h' := ⟨h'.database.trans h.database, h'.encoding.trans h.encoding,
    h'.flags.trans h.flags⟩

theorem SameOpts.of_opts (sock sock' : Sock) (opts : sock'.opts = sock.opts)
    (_ : sock'.addr = sock.addr) : SameOpts sock sock' :=
  ⟨by rw [opts], by rw [opts], by rw [opts]⟩

theorem sameOpts : SockRel SameOpts :=
  sockRel_of_opts SameOpts.of_opts fun _ _ => ⟨rfl, rfl, rfl⟩

/-- Neither another socket nor another SSL request. -/
def Step.Continues (step : Step) : Prop := ¬ step.Attaches ∧ step ≠ .call .sslRequestSend

theorem session_sameOpts {alloc : Alloc} {digests : Digests} {c c' : Conn}
    {trace : List (Conn × Step × Conn)}
    (session : Session alloc digests (fun _ => Step.Continues) c trace c') :
    SameOpts c.socket c'.socket := by
  induction session with
  | nil c => exact Std.Refl.refl _
  | @cons c step r c₁ trace c₂ ok h rest ih =>
    have hstep : OnSock SameOpts c (step.run alloc digests c).2 :=
      Step.keeps (sameOpts.callRel alloc) ok.1 (fun hssl => absurd hssl ok.2)
        (fun _ c => keeps_upgradeSsl SameOpts.of_opts c.socket) c
    rw [h] at hstep
    exact IsTrans.trans _ _ _ hstep ih

open Conn in
theorem sendPacket_built {alloc : Alloc} {seq : UInt8} {m : Proc Code Builder Unit} {c c' : Conn}
    (h : sendPacket alloc seq m c = (.ok (), c')) :
    ∃ builder c₁ builder', beginCommandPhase alloc seq c = (.ok builder, c₁) ∧
      m builder = (.ok (), builder') := by
  obtain ⟨builder, c₁, hbegin, h⟩ := bind_ok.mp h
  obtain ⟨_, c₂, hbuild, -⟩ := bind_ok.mp h
  unfold build at hbuild
  rcases hm : m builder with ⟨_ | _, builder'⟩
  · rw [hm] at hbuild
    cases hbuild
  · exact ⟨builder, c₁, builder', hbegin, hm⟩

open Conn in
theorem sslRequestSend_built {alloc : Alloc} {c c' : Conn}
    (h : sslRequestSend alloc c = (.ok (), c')) :
    (∃ builder c₁ builder', beginCommandPhase alloc c.packetParser.sequence_number c =
        (.ok builder, c₁) ∧
      buildSslRequestPacket alloc (c.socket.opts.flags ||| Capabilities.ssl)
        c.socket.opts.encoding builder = (.ok (), builder')) ∧
    c'.socket.opts.database = c.socket.opts.database ∧
    c'.socket.opts.encoding = c.socket.opts.encoding ∧
    c'.socket.opts.flags = c.socket.opts.flags ||| Capabilities.ssl := by
  rw [sslRequestSend, get_bind] at h
  obtain ⟨builder, c₁, hbegin, h⟩ := bind_ok.mp h
  obtain ⟨-, rfl⟩ := beginCommandPhase_ok hbegin
  rw [modify_bind, get_bind] at h
  obtain ⟨_, c₂, hbuild, h⟩ := bind_ok.mp h
  have hopts : OnSock SameOpts c₂ (beginWrite c₂).2 := keeps_beginWrite (sameOpts.callRel alloc).toWriteRel c₂
  rw [h] at hopts
  unfold build at hbuild
  rcases hm : buildSslRequestPacket alloc (c.socket.opts.flags ||| Capabilities.ssl)
    c.socket.opts.encoding builder with ⟨_ | _, builder'⟩
  · rw [hm] at hbuild
    cases hbuild
  · rw [hm] at hbuild
    cases hbuild
    exact ⟨⟨builder, _, _, hbegin, hm⟩, hopts.database, hopts.encoding, hopts.flags⟩

theorem sslRequestPayload_eq (flags : UInt32) (client_encoding : UInt8) :
    sslRequestPayload (flags ||| Capabilities.ssl) client_encoding =
      startBytes (flags ||| Capabilities.ssl ||| Capabilities.client) client_encoding := by
  have hssl : flags ||| Capabilities.ssl ||| Capabilities.client ||| Capabilities.ssl =
      flags ||| Capabilities.ssl ||| Capabilities.client := by
    rw [UInt32.or_assoc flags, UInt32.or_assoc flags]
    rfl
  rw [sslRequestPayload, hssl, startBytes]
  simp only [List.append_assoc, List.cons_append, List.nil_append]

theorem startBytes_inj {a b : UInt32} {client_encoding : UInt8} :
    startBytes a client_encoding = startBytes b client_encoding ↔ a = b := by
  constructor
  · intro h
    have hbytes := (List.append_inj h (by simp)).1
    have hnat := congrArg ofLeBytes hbytes
    rw [ofLeBytes_leBytes_of_lt (k := 4) a.toNat_lt, ofLeBytes_leBytes_of_lt (k := 4) b.toNat_lt]
      at hnat
    exact UInt32.toNat_inj.mp hnat
  · rintro rfl
    rfl

/-- The bit is there already exactly when adding it changes nothing. -/
theorem or_connectWithDb_eq (w : UInt32) :
    w ||| Capabilities.connectWithDb = w ↔ has w Capabilities.connectWithDb := by
  have hbits : ∀ i, ∀ hi : i < 32, Capabilities.connectWithDb.toBitVec[i] = decide (i = 3) := by
    decide
  constructor
  · intro h
    rw [← h, has_or, show has Capabilities.connectWithDb Capabilities.connectWithDb = true by decide,
      Bool.or_true]
  · intro h
    have hthird : w.toBitVec[3] = true := by
      by_contra hclear
      refine (bne_iff_ne.mp h) (UInt32.toBitVec_inj.mp ?_)
      ext i hi
      rw [UInt32.toBitVec_and, BitVec.getElem_and, hbits i hi]
      rcases eq_or_ne i 3 with rfl | hne
      · simpa using hclear
      · simp [hne]
    rw [← UInt32.toBitVec_inj]
    ext i hi
    rw [UInt32.toBitVec_or, BitVec.getElem_or, hbits i hi]
    rcases eq_or_ne i 3 with rfl | hne
    · simp [hthird]
    · simp [hne]

open Conn in
/-- The SSL request is the beginning of the response that follows on it, but for
the bit that announces a database. -/
theorem sslRequest_prefix {alloc : Alloc} {digests : Digests} {handshake : Handshake}
    {c c₁ c₂ c₃ : Conn} {trace : List (Conn × Step × Conn)}
    (request : sslRequestSend alloc c = (.ok (), c₁))
    (between : Session alloc digests (fun _ => Step.Continues) c₁ trace c₂)
    (response : authSend alloc digests handshake c₂ = (.ok (), c₃)) :
    let opts := c.socket.opts
    let w := opts.flags ||| Capabilities.ssl ||| Capabilities.client
    ∃ s s' ssl auth, c₁.packet_buffer.bytes = frames s ssl ∧
      c₃.packet_buffer.bytes = frames s' auth ∧ ssl = startBytes w opts.encoding ∧
      auth.take 32 = startBytes
        (if opts.database.isSome then w ||| Capabilities.connectWithDb else w) opts.encoding ∧
      (ssl = auth.take 32 ↔
        (opts.database.isSome → has opts.flags Capabilities.connectWithDb)) := by
  intro opts w
  obtain ⟨⟨builder, c', builder', hbegin, hbuild⟩, hdatabase, hencoding, hflags⟩ :=
    sslRequestSend_built request
  have hssl := (@send_framed _ digests .sslRequest _ _ _ _ hbegin hbuild).1
  obtain ⟨builder₂, c₂', builder₂', hbegin₂, hbuild₂⟩ := sendPacket_built response
  have hauth := (@send_framed _ digests (.auth handshake) _ _ _ _ hbegin₂ hbuild₂).1
  have hsame := session_sameOpts between
  have hword : announced c₂.socket.opts.flags c₂.socket.opts.database =
      if opts.database.isSome then w ||| Capabilities.connectWithDb else w := by
    rw [announced, hsame.flags, hsame.database, hflags, hdatabase]
  change (sslRequestSend alloc c).2.packet_buffer.bytes =
    frames _ (sslRequestPayload (opts.flags ||| Capabilities.ssl) opts.encoding) at hssl
  change (authSend alloc digests handshake c₂).2.packet_buffer.bytes = frames _ (authPayload ..)
    at hauth
  rw [request, sslRequestPayload_eq] at hssl
  rw [response, authPayload_eq, hword, hsame.encoding, hencoding] at hauth
  have htake : ∀ rest, (startBytes
      (if opts.database.isSome then w ||| Capabilities.connectWithDb else w) opts.encoding ++
        rest).take 32 = startBytes
      (if opts.database.isSome then w ||| Capabilities.connectWithDb else w) opts.encoding :=
    fun rest => List.take_left' (length_startBytes _ _)
  refine ⟨_, _, _, _, hssl, hauth, rfl, htake _, ?_⟩
  rw [htake, startBytes_inj, eq_comm]
  split
  · rename_i h
    rw [or_connectWithDb_eq, has_or, has_or]
    simp [h, show has Capabilities.ssl Capabilities.connectWithDb = false by decide,
      show has Capabilities.client Capabilities.connectWithDb = false by decide]
  · rename_i h
    exact iff_of_true rfl fun hsome => absurd hsome h

/-- A socket to which this much can be written at once. -/
def writingSock (opts : SockOpt) (raw_writes : List RawWrite) : Sock :=
  { idleSock with opts, net := { idleSock.net with raw_writes } }

/-- A connection with these options, to which two packets can be written. -/
def writingConn (opts : SockOpt) : Conn := .init (writingSock opts [.wrote 100, .wrote 100])

def databaseOpts : SockOpt := { idleSock.opts with database := some (literal "test") }

def greetedHandshake : Handshake :=
  { (default : Handshake) with scramble := List.replicate 21 1, auth_plugin := nativePassword }

/-- A connection with a database that the application has announced itself, on a socket
that can be upgraded. -/
def announcingConn : Conn :=
  .init { idleSock with
    opts := { databaseOpts with flags := Capabilities.connectWithDb }
    net := willingNet [] [] }

open Conn in
/-- The upgrade comes between the two sends, and the response goes out over TLS. -/
theorem sslRequest_prefix_announced :
    let requested := (sslRequestSend (fun _ => true) announcingConn).2
    let upgraded := (Step.upgradeSsl.run (fun _ => true) noDigests requested).2
    let responded := (authSend (fun _ => true) noDigests greetedHandshake upgraded).2
    responded.socket.sent =
        [(.plain, requested.packet_buffer.bytes), (.tls, responded.packet_buffer.bytes)] ∧
      ∃ s s' ssl auth, requested.packet_buffer.bytes = frames s ssl ∧
        responded.packet_buffer.bytes = frames s' auth ∧ ssl = auth.take 32 := by
  intro requested upgraded responded
  have hssl : (sslRequestSend (fun _ => true) announcingConn).1 = .ok () := by
    decide +kernel
  have hauth : (authSend (fun _ => true) noDigests greetedHandshake upgraded).1 = .ok () := by
    decide +kernel
  have request : sslRequestSend (fun _ => true) announcingConn = (.ok (), requested) := ends hssl
  have between : Session (fun _ => true) noDigests (fun _ => Step.Continues) requested
      [(requested, .upgradeSsl, upgraded)] upgraded := .one ⟨id, by simp⟩ rfl
  have response : authSend (fun _ => true) noDigests greetedHandshake upgraded =
      (.ok (), responded) := ends hauth
  obtain ⟨s, s', ssl, auth, hbytes, hbytes', -, -, hiff⟩ :=
    sslRequest_prefix request between response
  exact ⟨by decide +kernel, s, s', ssl, auth, hbytes, hbytes', hiff.mpr fun _ => by decide +kernel⟩

open Conn in
/-- With a database the words differ, behind the four bytes of each header. -/
theorem sslRequest_differs :
    let c₁ := (sslRequestSend (fun _ => true) (writingConn databaseOpts)).2
    let c₃ := (authSend (fun _ => true) noDigests greetedHandshake c₁).2
    (sslRequestSend (fun _ => true) (writingConn databaseOpts)).1 = .ok () ∧
      (authSend (fun _ => true) noDigests greetedHandshake c₁).1 = .ok () ∧
      (c₁.packet_buffer.bytes.drop 4).take 32 = startBytes 0x0188aa00 0 ∧
      (c₃.packet_buffer.bytes.drop 4).take 32 = startBytes 0x0188aa08 0 ∧
      (c₁.packet_buffer.bytes.drop 4).take 32 ≠ (c₃.packet_buffer.bytes.drop 4).take 32 := by
  refine ⟨?_, ?_, ?_, ?_, ?_⟩
  all_goals decide +kernel

end Trilogy
