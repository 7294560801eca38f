import Trilogy.Accepted
import Trilogy.Challenge
import Trilogy.Rows

/-! The request brings a plugin and a challenge, which go through a record on the
stack into the handshake. The parser copies as much of a challenge as there is,
and the hash is taken of 20 bytes all the same. -/
namespace Trilogy

open Lib Builder Reader Proc

/-- An auth switch request. -/
def authSwitchRequest (plugin data : List UInt8) : List UInt8 :=
  Packet.eof :: (plugin ++ 0 :: data)

/-- What the parser leaves of a challenge in front of what the record held before. -/
def copiedOver (data scramble : List UInt8) : List UInt8 :=
  data.take 21 ++ scramble.drop (data.take 21).length

/-- Whatever is accepted is a plugin and a challenge. -/
theorem authSwitch_of_parse {capabilities : UInt32} {out packet : AuthSwitchRequestPacket}
    {b : List UInt8}
    (h : parse (parseAuthSwitchRequestPacket capabilities out) b = .ok packet) :
    ∃ header data, NulFree packet.auth_plugin ∧ b = header :: (packet.auth_plugin ++ 0 :: data) ∧
      packet.scramble = copiedOver data out.scramble := by
  have h₀ := ends h
  have p₀ : 0 ≤ b.length := Nat.zero_le _
  rw [parseAuthSwitchRequestPacket] at h₀
  obtain ⟨header, c₁, p₁, r₁, h₁⟩ := accepts_getUint8.bind_ok p₀ h₀
  split at h₁
  · obtain ⟨plugin, c₂, p₂, ⟨nulFree, r₂⟩, h₂⟩ := accepts_getString.bind_ok p₁ h₁
    split at h₂
    · cases h₂
    · obtain ⟨-, c₃, p₃, r₃, h₃⟩ := (accepts_copyString plugin 32).bind_ok p₂ h₂
      obtain ⟨data, c₄, p₄, ⟨hdata, -⟩, h₄⟩ := accepts_getEofBuffer.bind_ok p₃ h₃
      obtain ⟨-, c₅, -, -, h₅⟩ := (Cursor.Accepts.mark _).bind_ok p₄ h₄
      obtain ⟨-, c₆, -, h₆⟩ := bind_ok.mp h₅
      cases h₆
      have hb : b = header :: c₁.rest := r₁
      exact ⟨header, data, nulFree, by rw [hb, r₂, hdata, r₃], rfl⟩
  · cases h₁

theorem reads_authSwitch {capabilities : UInt32} {plugin : List UInt8}
    (plugin_auth : has capabilities Capabilities.pluginAuth) (out : AuthSwitchRequestPacket)
    (nulFree : NulFree plugin) (hlen : plugin.length ≤ 31) (header : UInt8) (data : List UInt8) :
    Cursor.Reads (parseAuthSwitchRequestPacket capabilities out)
      (header :: (plugin ++ 0 :: data)) (.ok ⟨plugin, copiedOver data out.scramble⟩) [] := by
  refine .bind (reads_getUint8 _ _) ?_
  rw [if_pos plugin_auth]
  refine .bind (reads_getString nulFree data) ?_
  rw [if_neg (Nat.not_lt_of_le hlen)]
  have hcopy : Cursor.Reads (copyString plugin 32) data (.ok ()) data :=
    (accepts_copyString plugin 32).complete rfl
  exact .bind hcopy (.bind (reads_getEofBuffer data) (.bind (.mark _ _)
    (.bind reads_finish (.pure _ _))))

theorem sameString_iff {s t : List UInt8} (hs : NulFree s) (ht : NulFree t) :
    sameString s t ↔ s = t := by
  have hcut : ∀ {u : List UInt8}, NulFree u → u.takeWhile (· ≠ 0) = u := fun hu =>
    List.takeWhile_eq_self_iff.mpr fun b hb => decide_eq_true (hu b hb)
  rw [sameString, hcut hs, hcut ht, beq_iff_eq]

namespace Conn

variable {alloc : Alloc} {packet : AuthSwitchRequestPacket} {handshake handshake' : Handshake}
  {c c' : Conn}

theorem readAuthSwitchPacket_ok
    (h : readAuthSwitchPacket packet handshake c = (.ok handshake', c')) :
    c' = c ∧ ∃ header data, NulFree handshake'.auth_plugin ∧
      handshake'.auth_plugin ∈ [nativePassword, cachingSha2Password, clearPassword] ∧
      c.packet_buffer.bytes = header :: (handshake'.auth_plugin ++ 0 :: data) ∧
      handshake' = { handshake with
        auth_plugin := handshake'.auth_plugin
        scramble := copiedOver data packet.scramble } := by
  rw [readAuthSwitchPacket, get_bind] at h
  obtain ⟨request, c₁, hparse, h⟩ := bind_ok.mp h
  obtain ⟨header, data, nulFree, hbytes, hscramble⟩ :=
    authSwitch_of_parse (congrArg Prod.fst hparse)
  cases (congrArg Prod.snd hparse : c = c₁)
  have native := @sameString_iff nativePassword request.auth_plugin (by decide) nulFree
  have sha2 := @sameString_iff cachingSha2Password request.auth_plugin (by decide) nulFree
  have clear := @sameString_iff clearPassword request.auth_plugin (by decide) nulFree
  split at h
  · cases h
  · rename_i hknown
    cases h
    refine ⟨rfl, header, data, nulFree, ?_, hbytes, by rw [← hscramble]⟩
    by_cases hn : sameString nativePassword request.auth_plugin = true
    · exact List.mem_cons.mpr (.inl (native.mp hn).symm)
    · by_cases hs : sameString cachingSha2Password request.auth_plugin = true
      · exact List.mem_cons_of_mem _ (List.mem_cons.mpr (.inl (sha2.mp hs).symm))
      · have hc : sameString clearPassword request.auth_plugin = true := by
          simpa [hn, hs] using hknown
        exact List.mem_cons_of_mem _ (List.mem_cons_of_mem _ (List.mem_singleton.mpr
          (clear.mp hc).symm))

/-- A call that returns `TRILOGY_AUTH_SWITCH` has read a request. -/
theorem authRecv_switch
    (h : authRecv alloc packet handshake c = (.ok (some handshake'), c')) :
    readPacket alloc c = (.ok (), c') ∧ ∃ data, NulFree handshake'.auth_plugin ∧
      handshake'.auth_plugin ∈ [nativePassword, cachingSha2Password, clearPassword] ∧
      c'.packet_buffer.bytes = authSwitchRequest handshake'.auth_plugin data ∧
      handshake'.scramble = copiedOver data packet.scramble := by
  obtain ⟨_, c₁, hread, h⟩ := bind_ok.mp h
  rw [get_bind] at h
  split at h
  · simp only at h
    split at h
    · cases h
    · obtain ⟨_, c₂, -, h⟩ := bind_ok.mp h
      rw [get_bind] at h
      obtain ⟨_, c₃, -, h⟩ := bind_ok.mp h
      obtain ⟨_, c₄, -, h⟩ := bind_ok.mp h
      obtain ⟨_, c₅, -, h⟩ := bind_ok.mp h
      cases h
  · split at h
    · rename_i htype
      obtain ⟨answered, c₂, hswitch, h⟩ := bind_ok.mp h
      cases h
      obtain ⟨rfl, header, data, nulFree, hplugin, hbytes, hanswered⟩ :=
        readAuthSwitchPacket_ok hswitch
      have hheader := (currentPacketType_of_bytes hbytes).symm.trans htype
      rw [hheader] at hbytes
      exact ⟨hread, data, nulFree, hplugin, hbytes, by rw [hanswered]⟩
    · obtain ⟨_, c₂, -, h⟩ := bind_ok.mp h
      obtain ⟨_, c₃, -, h⟩ := bind_ok.mp h
      cases h

theorem beginCommandPhase_fresh {seq : UInt8} {builder : Builder}
    (h : beginCommandPhase alloc seq c = (.ok builder, c')) :
    builder.packet_length = 0 ∧ builder.fragment_length = 0 ∧ builder.buffer.len = 4 ∧
      builder.packet_max_length =
        if c.socket.opts.max_allowed_packet > 0 then c.socket.opts.max_allowed_packet
        else sizeMax := by
  unfold beginCommandPhase at h
  split at h
  · cases h
  · rename_i b hinit
    obtain ⟨hbytes, -, hfragment, -, hpacket, hmax⟩ := writeHeader_ok hinit
    have hlen : b.buffer.len = 4 := by
      rw [Buffer.len, hbytes]
      rfl
    cases h
    split
    · rw [setMaxPacketLength, get_bind, if_neg (by rw [hpacket]; exact Nat.not_lt_zero _)]
      exact ⟨hpacket, hfragment, hlen, rfl⟩
    · exact ⟨hpacket, hfragment, hlen, hmax⟩

/-- Two ways of building the packet that the builder does not tell apart. -/
theorem sendPacket_congr {seq : UInt8} {m m' : Proc Code Builder Unit}
    (h : ∀ builder c', beginCommandPhase alloc seq c = (.ok builder, c') → m builder = m' builder) :
    sendPacket alloc seq m c = sendPacket alloc seq m' c := by
  refine bind_congr fun builder c₁ hbegin => bind_congr_left ?_ _
  rw [build, build, h builder c₁ hbegin]

/-- Enough for the answer to be the same whatever the records held: the challenge
is there as a whole, there is nothing to hash, or the hash is too long to be sent. -/
def Suffices (opts : SockOpt) (plugin data : List UInt8) : Prop :=
  scrambleLen ≤ data.length ∨ opts.password = [] ∨ ∀ method : Method, method.plugin = plugin →
    0 < opts.max_allowed_packet ∧ opts.max_allowed_packet ≤ method.digestLen

theorem take_copiedOver {data : List UInt8} (h : scrambleLen ≤ data.length)
    (scramble : List UInt8) : (copiedOver data scramble).take scrambleLen = data.take scrambleLen := by
  rw [copiedOver, List.take_append_of_le_length, List.take_take]
  · rfl
  · rw [List.length_take]
    exact Nat.le_min.mpr ⟨by decide, h⟩

/-- The hash as the whole of the packet. -/
theorem buildAuthSwitch_method {digests : Digests} {method : Method} {password : List UInt8}
    (hpw : password ≠ []) (scramble : List UInt8) (enable : Bool) :
    buildAuthSwitchResponsePacket alloc digests password method.plugin scramble enable = (do
      writeBuffer alloc (method.packScramble digests scramble password)
      modify finalize) := by
  have hclear : sameString clearPassword method.plugin = false := by
    cases method <;> decide
  rw [buildAuthSwitchResponsePacket, Proc.when_pos (List.length_pos_of_ne_nil hpw),
    if_neg (by rw [hclear]; exact Bool.false_ne_true)]
  cases method with
  | native =>
    rw [if_neg (show ¬ sameString cachingSha2Password Method.native.plugin = true by decide),
      if_pos (show sameString nativePassword Method.native.plugin = true by decide)]
    rfl
  | cachingSha2 =>
    rw [if_pos (show sameString cachingSha2Password Method.cachingSha2.plugin = true by decide)]
    rfl

/-- What is too long is refused before any of it is written. -/
theorem writeBuffer_refused {b : Builder} {d : List UInt8} (hpacket : b.packet_length = 0)
    (hlen : d.length < 2 ^ 64) (h : b.packet_max_length ≤ d.length) :
    writeBuffer alloc d b = (.error .maxPacketExceeded, b) := by
  have hadd : sizeAdd b.packet_length d.length = d.length := by
    rw [hpacket, sizeAdd_of_lt (by omega), Nat.zero_add]
  rw [writeBuffer, get_bind, hadd, if_pos h]
  rfl

theorem authSwitchSend_same {digests : Digests} {answered answered' : Handshake}
    {data scramble scramble' : List UInt8}
    (hplugin : answered.auth_plugin ∈ [nativePassword, cachingSha2Password, clearPassword])
    (same : answered'.auth_plugin = answered.auth_plugin)
    (hscramble : answered.scramble = copiedOver data scramble)
    (hscramble' : answered'.scramble = copiedOver data scramble')
    (enough : Suffices c.socket.opts answered.auth_plugin data) :
    authSwitchSend alloc digests answered' c = authSwitchSend alloc digests answered c := by
  rw [authSwitchSend, authSwitchSend, get_bind, get_bind, same]
  refine sendPacket_congr fun builder c₁ hbegin => ?_
  by_cases hpw : c.socket.opts.password = []
  · rw [buildAuthSwitchResponsePacket, buildAuthSwitchResponsePacket, hpw]
    rfl
  by_cases hclear : answered.auth_plugin = clearPassword
  · have hsame : sameString clearPassword clearPassword = true := by
      decide
    rw [hclear, buildAuthSwitchResponsePacket, buildAuthSwitchResponsePacket, if_pos hsame,
      if_pos hsame]
  obtain ⟨method, hmethod⟩ : ∃ method : Method, method.plugin = answered.auth_plugin := by
    simp only [List.mem_cons, List.not_mem_nil, or_false] at hplugin
    obtain h | h | h := hplugin
    · exact ⟨.native, h.symm⟩
    · exact ⟨.cachingSha2, h.symm⟩
    · exact absurd h hclear
  rw [← hmethod, buildAuthSwitch_method hpw, buildAuthSwitch_method hpw]
  obtain hdata | hnil | hmax := enough
  · rw [hscramble, hscramble', Method.packScramble_congr ((take_copiedOver hdata _).trans
      (take_copiedOver hdata _).symm)]
  · exact absurd hnil hpw
  · obtain ⟨hpos, hle⟩ := hmax method hmethod
    obtain ⟨hpacket, -, -, hlimit⟩ := beginCommandPhase_fresh hbegin
    rw [if_pos hpos] at hlimit
    have hrefused : ∀ scramble, writeBuffer alloc
        (method.packScramble digests scramble c.socket.opts.password) builder =
          (.error .maxPacketExceeded, builder) := by
      intro scramble
      have hlen : (method.packScramble digests scramble c.socket.opts.password).length =
          method.digestLen := method.length_packScramble scramble c.socket.opts.password
      have hsmall : method.digestLen ≤ 32 := by
        cases method <;> decide
      exact writeBuffer_refused hpacket (by rw [hlen]; omega) (by rw [hlen, hlimit]; exact hle)
    rw [bind_of_error (hrefused _), bind_of_error (hrefused _)]

/-- Hash functions that give away what of the challenge they are given. -/
def revealing : Digests where
  sha1 m := (m ++ List.replicate 20 0).take 20
  sha256 m := (m.reverse ++ List.replicate 32 0).take 32
  sha1_length m := by simp
  sha256_length m := by simp

theorem mask_revealing {method : Method} {challenge challenge' stored : List UInt8}
    (hlen : challenge.length = 20) (hlen' : challenge'.length = 20)
    (h : method.mask revealing challenge stored = method.mask revealing challenge' stored) :
    challenge = challenge' := by
  cases method with
  | native =>
    have hleft : ∀ c : List UInt8, c.length = 20 →
        Method.native.mask revealing c stored = c := by
      intro c hc
      change (c ++ stored ++ List.replicate 20 0).take 20 = c
      rw [List.append_assoc, List.take_left' hc]
    rwa [hleft _ hlen, hleft _ hlen'] at h
  | cachingSha2 =>
    have hleft : ∀ c : List UInt8, c.length = 20 →
        Method.cachingSha2.mask revealing c stored =
          c.reverse ++ (stored.reverse ++ List.replicate 32 0).take 12 := by
      intro c hc
      change ((stored ++ c).reverse ++ List.replicate 32 0).take 32 = _
      rw [List.reverse_append, List.append_assoc, List.take_append, List.length_reverse, hc,
        List.take_of_length_le (by rw [List.length_reverse, hc]; decide)]
    rw [hleft _ hlen, hleft _ hlen'] at h
    exact List.reverse_injective (List.append_inj_left h (by simp [hlen, hlen']))

/-- A connection that has received an auth switch request. -/
def switchedConn (opts : SockOpt) (b : List UInt8) : Conn :=
  { Conn.init (writingSock opts [.wrote 64]) with
    capabilities := Capabilities.client
    recv_buff := frames 0 b }

theorem readPacket_switchedConn (opts : SockOpt) {b : List UInt8} (h : b.length ≤ 2 ^ 63) :
    ∃ c₁, readPacket (fun _ => true) (switchedConn opts b) = (.ok (), c₁) ∧
      c₁.packet_buffer.bytes = b ∧ c₁.socket = writingSock opts [.wrote 64] ∧
      c₁.capabilities = Capabilities.client := by
  have hne : frames 0 b ≠ [] := by
    unfold frames
    split <;> simp [header]
  have ready : Ready (fun _ => true) (2 ^ 63) (switchedConn opts b) :=
    ⟨fun read hread => absurd hread (List.not_mem_nil), Nat.zero_le _,
      ⟨by simp [switchedConn, Conn.init, PacketParser.init], rfl⟩,
      Buffer.grows_of_alloc (fun _ => rfl) _ (Nat.le_refl _)⟩
  have run : Ends (switchedConn opts b) (some 1) (PacketParser.init.after b.length, b) [] := by
    have hfeed := PacketParser.feed_frames (p := PacketParser.init) rfl [] b []
    rw [Ends]
    exact hfeed
  obtain ⟨fits, -⟩ := PacketParser.fits_of_stop run h
  have hrefill : refill (switchedConn opts b) = (.ok (), switchedConn opts b) := by
    rw [refill, get_bind, if_neg]
    · rfl
    · exact fun h => hne (List.length_eq_zero_iff.mp h.symm)
  have hsocket := execute_socket (fun _ => true) (switchedConn opts b)
  obtain ⟨e, c', hsome, hcall, stopped⟩ | ⟨c', hcall, hsame, waiting⟩ := execute_step ready run fits
  · cases hsome
    rw [hcall] at hsocket
    exact ⟨c', by rw [readPacket, bind_of_ok hrefill, hcall]; rfl,
      congrArg Prod.snd stopped.machine, hsocket, stopped.untouched.capabilities⟩
  · have hnil : c'.pending = [] := by
      rw [pending, waiting.unread, hsame]
      rfl
    have hrun := waiting.run
    rw [Ends, hnil] at hrun
    cases congrArg (fun r => r.2.1) hrun

theorem authRecv_switchedConn (opts : SockOpt) {plugin data : List UInt8} (method : Method)
    (hplugin : method.plugin = plugin) (hdata : data.length < scrambleLen) :
    ∃ c₁, c₁.socket = writingSock opts [.wrote 64] ∧
      c₁.packet_buffer.bytes = authSwitchRequest plugin data ∧
      ∀ packet handshake, authRecv (fun _ => true) packet handshake
        (switchedConn opts (authSwitchRequest plugin data)) =
          (.ok (some { handshake with
            auth_plugin := plugin
            scramble := copiedOver data packet.scramble }), c₁) := by
  subst hplugin
  have hlen : method.plugin.length = 21 := by
    cases method <;> rfl
  have nulFree : NulFree method.plugin := by
    cases method <;> decide
  have hshort : (authSwitchRequest method.plugin data).length ≤ 2 ^ 63 := by
    rw [authSwitchRequest, List.length_cons, List.length_append, List.length_cons, hlen]
    unfold scrambleLen at hdata
    omega
  obtain ⟨c₁, hread, hbytes, hsocket, hcapabilities⟩ := readPacket_switchedConn opts hshort
  refine ⟨c₁, hsocket, hbytes, fun packet handshake => ?_⟩
  have htype : c₁.currentPacketType = Packet.eof := currentPacketType_of_bytes hbytes
  have hparse : parsePacket (parseAuthSwitchRequestPacket c₁.capabilities packet) c₁ =
      (.ok ⟨method.plugin, copiedOver data packet.scramble⟩, c₁) := by
    have hrun := (@reads_authSwitch c₁.capabilities method.plugin (by rw [hcapabilities]; decide)
      packet nulFree (by rw [hlen]; decide) Packet.eof data).run
    rw [parsePacket, hbytes]
    exact congrArg (·, c₁) hrun
  have hknown : (!sameString nativePassword method.plugin &&
      !sameString cachingSha2Password method.plugin &&
      !sameString clearPassword method.plugin) = false := by
    cases method <;> decide
  have hswitch : readAuthSwitchPacket packet handshake c₁ = (.ok { handshake with
      auth_plugin := method.plugin
      scramble := copiedOver data packet.scramble }, c₁) := by
    rw [readAuthSwitchPacket, get_bind, bind_of_ok hparse, if_neg (by rw [hknown]; simp)]
    rfl
  rw [authRecv, bind_of_ok hread, get_bind, htype, if_neg (by decide), if_pos rfl,
    bind_of_ok hswitch]
  rfl

theorem beginCommandPhase_grows (seq : UInt8) (c : Conn) :
    ∃ builder c', beginCommandPhase (fun _ => true) seq c = (.ok builder, c') := by
  obtain ⟨b, hinit, -⟩ : ∃ b, Builder.init (fun _ => true) c.packet_buffer seq = (.ok (), b) ∧
      b.buffer.len = 0 + 4 :=
    @writeHeader_succeeds (fun _ => true) (fun _ => rfl)
      ⟨c.packet_buffer.reset, 0, 0, sizeMax, 0, seq⟩ (show 0 + 4 ≤ 2 ^ 63 by decide)
  unfold beginCommandPhase
  rw [hinit]
  exact ⟨_, _, rfl⟩

/-- A packet that was built goes out as far as the socket takes it. -/
theorem sendPacket_writes {seq : UInt8} {m : Proc Code Builder Unit} {builder builder' : Builder}
    {n : Nat} {more : List RawWrite} (hbegin : beginCommandPhase alloc seq c = (.ok builder, c'))
    (hbuild : m builder = (.ok (), builder')) (hio : c.socket.io = .raw)
    (hwrites : c.socket.net.raw_writes = .wrote n :: more) :
    (sendPacket alloc seq m c).2.socket.sent =
      c.socket.sent ++ [(.plain, builder'.buffer.bytes.take n)] := by
  obtain ⟨-, rfl⟩ := beginCommandPhase_ok hbegin
  have hwrite : Sock.write builder'.buffer.bytes builder'.buffer.bytes.length c.socket =
      (.ok (min n builder'.buffer.bytes.length), { c.socket with
        net := { c.socket.net with raw_writes := more }
        sent := c.socket.sent ++ [(.plain, builder'.buffer.bytes.take n)] }) := by
    simp only [Sock.write, hio, Sock.rawWrite, hwrites, ← List.take_eq_take_min]
  rw [sendPacket, bind_of_ok hbegin, bind_of_ok (build_of_ok hbuild _), beginWrite, modify_bind,
    flushWrites, get_bind, bind_of_ok (by
      rw [write_unwritten (Nat.zero_le _), List.drop_zero, onSocket, zoom_apply, hwrite]),
    modify_bind, get_bind]
  split <;> rfl

theorem authSwitchSend_writes {digests : Digests} {opts : SockOpt} {method : Method}
    {answered : Handshake} (hsocket : c.socket = writingSock opts [.wrote 64])
    (hplugin : answered.auth_plugin = method.plugin) (hpw : opts.password ≠ [])
    (room : 0 < opts.max_allowed_packet → method.digestLen < opts.max_allowed_packet) :
    (authSwitchSend (fun _ => true) digests answered c).2.socket.sent =
      [(.plain, frames c.packetParser.sequence_number
        (method.packScramble digests answered.scramble opts.password))] := by
  have hopts : c.socket.opts = opts := by rw [hsocket]; rfl
  obtain ⟨builder, c₁, hbegin⟩ := beginCommandPhase_grows c.packetParser.sequence_number c
  obtain ⟨hpacket, hfragment, hbuffer, hmax⟩ := beginCommandPhase_fresh hbegin
  obtain ⟨hbuilding, -⟩ := beginCommandPhase_ok hbegin
  generalize hresponse : method.packScramble digests answered.scramble opts.password = response
  have hlen : response.length = method.digestLen := by
    rw [← hresponse]
    exact method.length_packScramble _ _
  have hsmall : method.digestLen ≤ 32 := by
    cases method <;> decide
  have hlimit : response.length < builder.packet_max_length := by
    rw [hmax, hopts, hlen]
    split
    · exact room ‹_›
    · exact Nat.lt_of_le_of_lt hsmall (by decide)
  have hadd : sizeAdd builder.packet_length response.length = response.length := by
    rw [hpacket, sizeAdd_of_lt (by omega), Nat.zero_add]
  have hfits : response.length < maxPacketLen - builder.fragment_length := by
    rw [hfragment]
    unfold maxPacketLen
    omega
  obtain ⟨buffer, -, hexpand⟩ := @expand_succeeds (fun _ => true) (fun _ => rfl) response.length
    builder (by omega)
  have hwrite : writeBuffer (fun _ => true) response builder =
      (.ok (), Builder.append response { builder with buffer }) := by
    rw [writeBuffer, get_bind, hadd, if_neg (Nat.not_le_of_lt hlimit), if_pos hfits,
      bind_of_ok hexpand]
    rfl
  have hbuild : (do
      writeBuffer (fun _ => true) response
      modify finalize : Proc Code Builder Unit) builder =
        (.ok (), (Builder.append response { builder with buffer }).finalize) := by
    rw [bind_of_ok hwrite]
    rfl
  have hbytes := (Finalizes.bind (appends_writeBuffer _ response) .finalize hbuilding hbuild).1
  rw [List.nil_append, List.append_nil] at hbytes
  rw [authSwitchSend, get_bind, hplugin, hopts, buildAuthSwitch_method hpw, hresponse,
    sendPacket_writes hbegin hbuild (by rw [hsocket]; rfl) (by rw [hsocket]; rfl), hbytes, hsocket,
    List.take_of_length_le]
  · rfl
  · rw [frames_of_lt (by unfold maxPacketLen; omega), List.length_append, header_length]
    omega

theorem take_copiedOver_short {data : List UInt8} (h : data.length < scrambleLen) (x : UInt8) :
    (copiedOver data (List.replicate 21 x)).take scrambleLen =
      data ++ List.replicate (scrambleLen - data.length) x := by
  have hall : data.take 21 = data := List.take_of_length_le (by unfold scrambleLen at h; omega)
  rw [copiedOver, hall, List.drop_replicate, List.take_append, List.take_of_length_le h.le,
    List.take_replicate, Nat.min_eq_left]
  unfold scrambleLen
  omega

theorem packScramble_revealing {method : Method} {scramble scramble' password : List UInt8}
    (hlen : (scramble.take scrambleLen).length = 20)
    (hlen' : (scramble'.take scrambleLen).length = 20)
    (h : method.packScramble revealing scramble password =
      method.packScramble revealing scramble' password) :
    scramble.take scrambleLen = scramble'.take scrambleLen := by
  rw [Method.packScramble_eq, Method.packScramble_eq, xorBytes_comm, xorBytes_comm (method.hash ..)]
    at h
  have hmask := congrArg (xorBytes · (method.hash revealing password)) h
  rw [xorBytes_cancel (Method.length_mask _ _ _).symm, xorBytes_cancel (Method.length_mask _ _ _).symm]
    at hmask
  exact mask_revealing hlen hlen' hmask

theorem opts_readPacket (alloc : Alloc) :
    Keeps (fun c c' => c'.socket.opts = c.socket.opts) (readPacket alloc) := by
  have : Std.Refl fun c c' : Conn => c'.socket.opts = c.socket.opts := ⟨fun _ => rfl⟩
  have : IsTrans Conn fun c c' : Conn => c'.socket.opts = c.socket.opts :=
    ⟨fun _ _ _ h h' => h'.trans h⟩
  have hread : Keeps (fun c c' : Conn => c'.socket.opts = c.socket.opts)
      (onSocket (Sock.read defaultBufSize)) := by
    intro c
    rw [onSocket, zoom_apply]
    simp only
    unfold Sock.read Sock.rawRead Sock.sslRead
    split
    · split <;> rfl
    · split <;> rfl
    · rfl
  exact .bind (.bind .get fun _ => .ite (fun _ => .bind hread fun _ => .ite (fun _ => .throw _)
    fun _ => .modify fun _ => rfl) fun _ => .pure _) fun _ c => by rw [execute_socket]

theorem authSwitchRequest_inj {plugin plugin' data data' : List UInt8} (h : NulFree plugin)
    (h' : NulFree plugin') (same : authSwitchRequest plugin data = authSwitchRequest plugin' data') :
    plugin = plugin' ∧ data = data' :=
  accepts_getString.unique ⟨h, rfl⟩ ⟨h', (List.cons.inj same).2⟩

/-- What is on the wire after this many flushes. -/
def sentAfter (flushes : Nat) (c : Conn) : List (Channel × List UInt8) :=
  ((fun c => (flushWrites c).2)^[flushes] c).socket.sent

/-- The answer to the packet `b` is a function of it and of the options: runs
from one connection that differ in what the records held before, the one on the
stack and the handshake, put the same bytes on the wire. -/
def Determined (opts : SockOpt) (b : List UInt8) : Prop :=
  ∀ (alloc alloc' : Alloc) (digests : Digests) (c c₁ c₁' : Conn)
    (packet packet' : AuthSwitchRequestPacket) (handshake handshake' answered answered' : Handshake),
    c.socket.opts = opts → packet.scramble.length = 21 → packet'.scramble.length = 21 →
    authRecv alloc packet handshake c = (.ok (some answered), c₁) →
    authRecv alloc packet' handshake' c = (.ok (some answered'), c₁') →
    c₁.packet_buffer.bytes = b → ∀ flushes,
    sentAfter flushes (authSwitchSend alloc' digests answered' c₁').2 =
      sentAfter flushes (authSwitchSend alloc' digests answered c₁).2

theorem Determined.suffices {opts : SockOpt} {b plugin data : List UInt8}
    (determined : Determined opts b) (hb : b = authSwitchRequest plugin data) :
    Suffices opts plugin data := by
  by_contra short
  obtain ⟨hdata, hpw, hmax⟩ : data.length < scrambleLen ∧ opts.password ≠ [] ∧
      ∃ method : Method, method.plugin = plugin ∧
        (0 < opts.max_allowed_packet → method.digestLen < opts.max_allowed_packet) := by
    simpa [Suffices] using short
  obtain ⟨method, hplugin, room⟩ := hmax
  obtain ⟨c₁, hsocket, hbytes, hrecv⟩ := authRecv_switchedConn opts method hplugin hdata
  let zeros : AuthSwitchRequestPacket := ⟨[], List.replicate 21 0⟩
  let ones : AuthSwitchRequestPacket := ⟨[], List.replicate 21 1⟩
  have hsent := determined _ (fun _ => true) revealing _ c₁ c₁ zeros ones default default _ _ rfl
    List.length_replicate List.length_replicate (hrecv zeros default) (hrecv ones default)
    (hbytes.trans hb.symm) 0
  have hzeros := @authSwitchSend_writes c₁ revealing opts method
    { (default : Handshake) with
      auth_plugin := plugin
      scramble := copiedOver data zeros.scramble } hsocket hplugin.symm hpw room
  have hones := @authSwitchSend_writes c₁ revealing opts method
    { (default : Handshake) with
      auth_plugin := plugin
      scramble := copiedOver data ones.scramble } hsocket hplugin.symm hpw room
  have hframes := hones.symm.trans (hsent.trans hzeros)
  have hhash := PacketParser.frames_injective (Prod.mk.inj (List.cons.inj hframes).1).2
  have hlen : ∀ x, ((copiedOver data (List.replicate 21 x)).take scrambleLen).length = 20 := by
    intro x
    rw [take_copiedOver_short hdata, List.length_append, List.length_replicate]
    exact Nat.add_sub_cancel' hdata.le
  have htake := packScramble_revealing (hlen 1) (hlen 0) hhash
  rw [take_copiedOver_short hdata, take_copiedOver_short hdata, List.append_cancel_left_eq,
    List.replicate_right_inj (Nat.sub_ne_zero_of_lt hdata)] at htake
  exact absurd htake (by decide)

/-- An answer is determined by the request exactly when the challenge has the 20
bytes that are hashed, or no hash is sent. -/
theorem authSwitch_determined_iff (opts : SockOpt) (b : List UInt8) :
    Determined opts b ↔ ∀ plugin data, NulFree plugin → b = authSwitchRequest plugin data →
      Suffices opts plugin data := by
  constructor
  · intro determined plugin data _ hb
    exact determined.suffices hb
  · intro enough alloc alloc' digests c c₁ c₁' packet packet' handshake handshake' answered answered'
      hopts _ _ hrun hrun' hbytes flushes
    obtain ⟨hread, data, nulFree, hplugin, hb, hscramble⟩ := authRecv_switch hrun
    obtain ⟨hread', data', nulFree', -, hb', hscramble'⟩ := authRecv_switch hrun'
    obtain rfl : c₁ = c₁' := (Prod.mk.inj (hread.symm.trans hread')).2
    obtain ⟨hname, rfl⟩ := authSwitchRequest_inj nulFree nulFree' (hb.symm.trans hb')
    have hkept := opts_readPacket alloc c
    rw [hread] at hkept
    have henough := enough _ _ nulFree (hbytes.symm.trans hb)
    rw [← hopts, ← hkept] at henough
    rw [authSwitchSend_same hplugin hname.symm hscramble hscramble' henough]

/-- A request without a challenge: the hash is taken of what was on the stack. -/
theorem authSwitch_undetermined :
    ¬ Determined { idleSock.opts with password := literal "secret" }
      (authSwitchRequest nativePassword []) := by
  intro determined
  obtain hdata | hpw | hmax := determined.suffices rfl
  · exact absurd hdata (by decide)
  · exact absurd hpw (by decide)
  · exact absurd (hmax .native rfl).1 (by decide)

end Conn

end Trilogy
