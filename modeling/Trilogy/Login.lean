import Trilogy.AuthSwitch
import Trilogy.Awaiting
import Trilogy.Greeting
import Trilogy.OwnBytes

namespace Trilogy

open Lib Proc

/-- What the server makes of a response. -/
inductive Verdict
  | accepted (reply : OkContent) (header : reply.header = Packet.ok)
  | refused (error : ErrReply)

namespace Verdict

def bytes (capabilities : UInt32) : Verdict → List UInt8
  | accepted reply _ => reply.bytes capabilities
  | refused error => error.bytes capabilities

def answer : Verdict → Answer
  | accepted reply _ => .ok reply
  | refused error => .err error

def returned : Verdict → Except Code Unit
  | accepted _ _ => .ok ()
  | refused _ => .error .err

end Verdict

/-- What a server with `caching_sha2_password` says first: nothing, that it knows the
password already, or that it has to have it. -/
inductive Inquiry
  | silent | fast | full
  deriving DecidableEq

def Inquiry.lines (password : List UInt8) : Inquiry → List Line
  | silent => []
  | fast => [.server [Packet.authMoreData, 3]]
  | full => [.server [Packet.authMoreData, 4], .client (password ++ [0])]

structure Decision where
  inquiry : Inquiry
  verdict : Verdict

def Decision.lines (capabilities : UInt32) (password : List UInt8) (d : Decision) : List Line :=
  d.inquiry.lines password ++ [.server (d.verdict.bytes capabilities)]

/-- How a login can go. -/
inductive Login
  | turnedAway (error : ErrReply)
  | decided (greeting : Greeting) (decision : Decision)
  | switched (greeting : Greeting) (plugin data : List UInt8) (decision : Decision)

/-- The response to the greeting. -/
def Greeting.response (digests : Digests) (opts : SockOpt) (g : Greeting) : List UInt8 :=
  authPayload digests opts.username opts.password opts.database opts.encoding g.plugin
    (g.scramble ++ g.more) opts.flags

namespace Login

/-- The packets, in turn. -/
def lines (digests : Digests) (capabilities : UInt32) (opts : SockOpt) : Login → List Line
  | turnedAway error => [.server (error.bytes capabilities)]
  | decided g d =>
    .server g.bytes :: .client (g.response digests opts) :: d.lines g.capabilities opts.password
  | switched g plugin data d =>
    .server g.bytes :: .client (g.response digests opts) ::
      .server (authSwitchRequest plugin data) ::
      .client (authSwitchPayload digests opts.password plugin data) ::
      d.lines g.capabilities opts.password

def returned : Login → Except Code Unit
  | turnedAway _ => .error .err
  | decided _ d | switched _ _ _ d => d.verdict.returned

def answer : Login → Answer
  | turnedAway error => .err error
  | decided _ d | switched _ _ _ d => d.verdict.answer

/-- What the greeting tells the connection. -/
def greeted (c : Conn) : Login → Conn
  | turnedAway _ => c
  | decided g _ | switched g _ _ _ =>
    { c with capabilities := g.capabilities, server_status := g.status }

def forgotten (opts : SockOpt) : SockOpt :=
  { opts with password := List.replicate opts.password.length 0 }

/-- A verdict comes with the password forgotten. -/
def optsAfter (opts : SockOpt) : Login → SockOpt
  | turnedAway _ => opts
  | decided _ _ | switched _ _ _ _ => forgotten opts

end Login

/-- The client goes along with this. -/
def Decision.Allowed (opts : SockOpt) (d : Decision) : Prop :=
  d.inquiry ≠ .silent → opts.LooksProtected

/-- There is an answer to the change of plugin, and it is not up to what was on the
stack. -/
structure Switchable (opts : SockOpt) (plugin data : List UInt8) : Prop where
  known : plugin ∈ [nativePassword, cachingSha2Password, clearPassword]
  enabled : opts.password ≠ [] → plugin = clearPassword → opts.enable_cleartext_plugin = true
  enough : opts.password ≠ [] → plugin ≠ clearPassword → scrambleLen ≤ data.length

/-- The client goes along with all of it. -/
def Login.Agreeable (opts : SockOpt) : Login → Prop
  | turnedAway _ => True
  | decided _ d => d.Allowed opts
  | switched _ plugin data d => Switchable opts plugin data ∧ d.Allowed opts

/-- Packets that can be sent, each in one fragment. -/
structure Deliverable (c : Conn) (lines : List Line) : Prop where
  passes : ∀ p, Line.client p ∈ lines → c.Passes p.length
  short : ∀ line ∈ lines, line.payload.length < maxPacketLen

/-- No packet comes near a limit. -/
theorem Deliverable.of_short {c : Conn} {lines : List Line}
    (limit : c.socket.opts.max_allowed_packet = 0)
    (short : ∀ line ∈ lines, line.payload.length < 100) : Deliverable c lines := by
  constructor
  · intro p hp
    have hlen : p.length < 100 := short _ hp
    constructor
    · rw [Conn.payloadLimit, limit]
      exact Nat.lt_trans hlen (by decide)
    · rw [limit]
      decide
    · omega
  · intro line hline
    exact Nat.lt_trans (short line hline) (by decide)

section

variable {alloc : Alloc} {digests : Digests}

theorem nulFree_of_known {plugin : List UInt8}
    (h : plugin ∈ [nativePassword, cachingSha2Password, clearPassword]) : NulFree plugin := by
  simp only [List.mem_cons, List.not_mem_nil, or_false] at h
  obtain rfl | rfl | rfl := h <;> decide

theorem fails_writeString (data : List UInt8) :
    Fails BuildFault (Builder.writeString alloc data) :=
  .bind (Builder.fails_writeBuffer _ _) fun _ => Builder.fails_writeUint8 _ _

theorem fails_buildAuthPacket (user : Option (List UInt8)) (pass : List UInt8)
    (database : Option (List UInt8)) (client_encoding : UInt8) (auth_plugin scramble : List UInt8)
    (flags : UInt32) : Fails Refusal (buildAuthPacket alloc digests user pass database
      client_encoding auth_plugin scramble flags) := by
  have hpacket : Fails BuildFault (buildAuthPacket alloc digests user pass database
      client_encoding auth_plugin scramble flags) := by
    unfold buildAuthPacket
    refine .bind (Builder.fails_writeUint32 _ _) fun _ => .bind (Builder.fails_writeUint32 _ _)
      fun _ => .bind (Builder.fails_writeUint8 _ _) fun _ => .bind (Builder.fails_writeBuffer _ _)
      fun _ => .bind (fails_writeString _) fun _ => .bind (Builder.fails_writeUint8 _ _)
      fun _ => .bind (Builder.fails_when fun _ => Builder.fails_writeBuffer _ _)
      fun _ => .bind (Builder.fails_when fun _ => fails_writeString _)
      fun _ => .bind (Builder.fails_when fun _ => fails_writeString _) fun _ => .modify _
  exact hpacket.mono fun _ h => .inl h

theorem fails_buildAuthSwitchResponsePacket (pass auth_plugin scramble : List UInt8)
    (enable : Bool) : Fails Refusal (buildAuthSwitchResponsePacket alloc digests pass auth_plugin
      scramble enable) := by
  have hwrite : ∀ data, Fails Refusal (Builder.writeBuffer alloc data) := fun data =>
    (Builder.fails_writeBuffer alloc data).mono fun _ h => .inl h
  have hrefuse : Fails Refusal (throw .authPluginError : Proc Code Builder Unit) :=
    .throw (.inr (.inr (.inr rfl)))
  refine .bind (Builder.fails_when fun _ => ?_) fun _ => .modify _
  exact .ite (fun _ => .ite (fun _ => hwrite _) fun _ => hrefuse) fun _ =>
    .ite (fun _ => hwrite _) fun _ => .ite (fun _ => hwrite _) fun _ => hrefuse

theorem authSwitchPayload_copiedOver {opts : SockOpt} {plugin data : List UInt8}
    (h : Switchable opts plugin data) (scramble : List UInt8) :
    authSwitchPayload digests opts.password plugin (copiedOver data scramble) =
      authSwitchPayload digests opts.password plugin data := by
  by_cases hpassword : opts.password = []
  · rw [authSwitchPayload, authSwitchPayload, hpassword]
    rfl
  · have htake : plugin ≠ clearPassword →
        (copiedOver data scramble).take scrambleLen = data.take scrambleLen :=
      fun hother => Conn.take_copiedOver (h.enough hpassword hother) scramble
    have hmethod : ∀ method : Method, plugin = method.plugin → plugin ≠ clearPassword →
        authSwitchPayload digests opts.password plugin (copiedOver data scramble) =
          authSwitchPayload digests opts.password plugin data := by
      intro method hplugin hother
      have hsame : sameString method.plugin plugin = true := by
        rw [hplugin, sameString]
        exact beq_self_eq_true _
      rw [Method.authSwitchPayload_eq hpassword hsame, Method.authSwitchPayload_eq hpassword hsame]
      exact Method.packScramble_congr (htake hother) _
    have hknown := h.known
    simp only [List.mem_cons, List.not_mem_nil, or_false] at hknown
    obtain rfl | rfl | rfl := hknown
    · exact hmethod .native rfl (by decide)
    · exact hmethod .cachingSha2 rfl (by decide)
    · have hclear : sameString clearPassword clearPassword = true := by decide
      rw [authSwitchPayload, authSwitchPayload, if_pos hclear, if_pos hclear]

theorem completes_authSwitch (always : ∀ c, alloc c = true) {opts : SockOpt}
    {plugin data : List UInt8} (h : Switchable opts plugin data) (scramble : List UInt8) :
    Builder.Completes (buildAuthSwitchResponsePacket alloc digests opts.password plugin scramble
        opts.enable_cleartext_plugin)
      (authSwitchPayload digests opts.password plugin scramble) := by
  apply completes_buildAuthSwitchResponsePacket always
  intro hpassword
  have hknown := h.known
  simp only [List.mem_cons, List.not_mem_nil, or_false] at hknown
  obtain rfl | rfl | rfl := hknown
  · exact .inr ⟨by decide, .inr (by decide)⟩
  · exact .inr ⟨by decide, .inl (by decide)⟩
  · exact .inl ⟨by decide, h.enabled hpassword rfl⟩

end

namespace Conn

variable {alloc : Alloc} {digests : Digests} {c c' : Conn} {scene : Scene} {lines : List Line}

theorem sendFull_congr {send send' : Proc Code Conn Unit} (h : send c = send' c) :
    sendFull send c = sendFull send' c := by
  rw [sendFull, sendFull, attempt_bind, attempt_bind, h]

theorem sendFull_of_error {send : Proc Code Conn Unit} {rc : Code} (h : send c = (.error rc, c'))
    (hrc : rc ≠ .again) : sendFull send c = (.error rc, c') := by
  rw [sendFull, attempt_bind, h]
  cases rc with
  | again => exact absurd rfl hrc
  | _ => rfl

theorem flushPassword_eq {turns : Nat} (opened : c.socket.io ≠ .shutdown)
    (enough : c.socket.net.polls.length < turns) :
    flushPassword turns (.error .again) c = flushFull turns c := by
  induction turns generalizing c with
  | zero => exact absurd enough (Nat.not_lt_zero _)
  | succ turns ih =>
    rw [flushPassword, flushFull]
    rcases hwait : onSocket Sock.wait c with ⟨rc | _, v⟩
    · rw [bind_of_error hwait, bind_of_error hwait]
    · rw [bind_of_ok hwait, bind_of_ok hwait, attempt_bind, attempt_bind]
      have hpolls := polls_flushWrites v
      have hio := (offers_flushWrites.keeps v).io
      rcases hflush : flushWrites v with ⟨rc | _, u⟩
      · by_cases hrc : rc = .again
        · subst hrc
          rw [hflush] at hpolls hio
          obtain ⟨hio', -⟩ | ⟨more, -, hmore, hsock⟩ | ⟨sock, -, -, hsock⟩ := c.socket.wait_cases
          · exact absurd hio' opened
          · rw [onSocket, zoom_apply, hsock] at hwait
            cases hwait
            apply ih
            · rw [hio]
              exact opened
            · rw [hpolls]
              rw [hmore, List.length_cons] at enough
              exact Nat.lt_of_succ_lt_succ enough
          · rw [onSocket, zoom_apply, hsock] at hwait
            cases hwait
        · dsimp only
          rw [flushPassword_throws hrc]
          cases rc with
          | again => exact absurd rfl hrc
          | _ => rfl
      · cases turns <;> rfl

/-- The loop of `trilogy_auth_recv` writes a password out as `flush_full` would. -/
theorem sendClearPassword_eq (opened : c.socket.io ≠ .shutdown) :
    sendClearPassword alloc c = sendFull (sendPacket alloc c.packetParser.sequence_number
      (buildAuthClearPassword alloc c.socket.opts.password)) c := by
  generalize hpassword : buildAuthClearPassword alloc c.socket.opts.password = m
  have built : Fails BuildFault m := hpassword ▸ fails_buildAuthClearPassword alloc _
  have offers : Offers (sendPacket alloc c.packetParser.sequence_number m) :=
    offers_sendPacket (built.mono fun _ h => .inl h) _
  rw [sendClearPassword, get_bind, hpassword]
  rcases hbegin : beginCommandPhase alloc c.packetParser.sequence_number c with
    ⟨rc | builder, c₁⟩
  · have hsend : sendPacket alloc c.packetParser.sequence_number m c = (.error rc, c₁) := by
      rw [sendPacket, bind_of_error hbegin]
    rw [bind_of_error hbegin,
      sendFull_of_error hsend (fails_beginCommandPhase alloc _ hbegin).fault.2]
  · rw [bind_of_ok hbegin]
    rcases hbuild : build builder m c₁ with ⟨rc | builder', c₂⟩
    · have hsend : sendPacket alloc c.packetParser.sequence_number m c = (.error rc, c₂) := by
        rw [sendPacket, bind_of_ok hbegin, bind_of_error hbuild]
      rw [bind_of_error hbuild, sendFull_of_error hsend (fails_build built hbuild).fault.2]
    · have hsend : sendPacket alloc c.packetParser.sequence_number m c = beginWrite c₂ := by
        rw [sendPacket, bind_of_ok hbegin, bind_of_ok hbuild]
      have hio := (offers.keeps c).io
      rw [bind_of_ok hbuild, attempt_bind, get_bind]
      rw [hsend] at hio
      rcases hwrite : beginWrite c₂ with ⟨rc | _, c₃⟩
      · by_cases hrc : rc = .again
        · subst hrc
          rw [hwrite] at hio hsend
          rw [sendFull, attempt_bind, hsend]
          apply flushPassword_eq _ (Nat.lt_succ_self _)
          rw [hio]
          exact opened
        · rw [hwrite] at hsend
          rw [sendFull_of_error hsend hrc]
          exact flushPassword_throws hrc
      · rw [hwrite] at hsend
        rw [sendFull, attempt_bind, hsend]
        rfl

def Scene.forgotten (scene : Scene) : Scene :=
  { scene with opts := Login.forgotten scene.opts }

def Scene.after (login : Login) (scene : Scene) : Scene :=
  { scene with opts := login.optsAfter scene.opts }

theorem handleGenericResponse_verdict {v : Verdict}
    (hbytes : c.packet_buffer.bytes = v.bytes c.capabilities) :
    ∃ c', handleGenericResponse c = (v.returned, c') ∧ Noted c c' ∧ Learnt c v.answer c' := by
  cases v with
  | accepted reply header =>
    have htype : c.currentPacketType = Packet.ok :=
      (currentPacketType_of_bytes (hbytes.trans rfl)).trans header
    obtain ⟨c', hread, hnoted, hlearnt⟩ := readOkPacket_content (o := reply) hbytes
    refine ⟨c', ?_, hnoted, hlearnt⟩
    rw [handleGenericResponse, get_bind, if_pos htype]
    exact hread
  | refused error =>
    have htype : c.currentPacketType = Packet.err :=
      currentPacketType_of_bytes (hbytes.trans rfl)
    obtain ⟨c', hread, hnoted, hlearnt⟩ := @readErrPacket_reported _ Unit error hbytes
    refine ⟨c', ?_, hnoted, hlearnt⟩
    rw [handleGenericResponse, get_bind, if_neg (by rw [htype]; decide), if_pos htype]
    exact hread

/-- What becomes of the connection once the server has decided. -/
structure Settled (scene : Scene) (v : Verdict) (c c' : Conn) : Prop where
  stage : Stage scene.forgotten [] c'
  learnt : Learnt c v.answer c'
  capabilities : c'.capabilities = c.capabilities

theorem Settled.of_untouched {v : Verdict} {c₁ : Conn} (h : Settled scene v c₁ c')
    (untouched : Untouched c c₁) : Settled scene v c c' :=
  ⟨h.stage, h.learnt.of_untouched untouched, h.capabilities.trans untouched.capabilities⟩

/-- The verdict is in the packet buffer. -/
theorem Stage.settled {v : Verdict} (h : Stage scene [] c)
    (hbytes : c.packet_buffer.bytes = v.bytes c.capabilities) :
    ∃ c', (do
        authClearPassword
        handleGenericResponse
        pure none : Proc Code Conn (Option Handshake)) c = ((fun _ => none) <$> v.returned, c') ∧
      Settled scene v c c' := by
  have hcleared : Stage scene.forgotten [] (authClearPassword c).2 := by
    refine h.rewritten ?_ rfl rfl rfl
    rw [← h.opts]
    rfl
  obtain ⟨c', hhandle, hnoted, hlearnt⟩ :=
    @handleGenericResponse_verdict (authClearPassword c).2 v hbytes
  refine ⟨c', ?_, hcleared.sameWire hnoted.toSameWire, hlearnt.of_untouched ⟨rfl, rfl, rfl, rfl, rfl⟩,
    hnoted.capabilities⟩
  have hclear : authClearPassword c = (.ok (), (authClearPassword c).2) := rfl
  rw [bind_of_ok hclear]
  cases v with
  | accepted _ _ => rw [bind_of_ok hhandle]; rfl
  | refused _ => rw [bind_of_error hhandle]; rfl

theorem returned_ne_again (v : Verdict) :
    ((fun _ => none) <$> v.returned : Except Code (Option Handshake)) ≠ .error .again := by
  cases v <;> simp [Verdict.returned, Functor.map, Except.map]

/-- The rest of a call once it has waited for the verdict. -/
theorem Stage.awaited (always : ∀ c, alloc c = true) {v : Verdict}
    (h : Stage scene [.server (v.bytes c.capabilities)] c) :
    ∃ c', (do
        let conn ← get
        awaitPacket alloc (conn.socket.net.polls.length + 1)
        authClearPassword
        handleGenericResponse
        pure none : Proc Code Conn (Option Handshake)) c = ((fun _ => none) <$> v.returned, c') ∧
      Settled scene v c c' := by
  obtain ⟨c₁, hpersists, hbytes, hstage, huntouched⟩ := h.read always
  rw [← huntouched.capabilities] at hbytes
  obtain ⟨c', hend, hsettled⟩ := hstage.settled hbytes
  refine ⟨c', ?_, hsettled.of_untouched huntouched⟩
  have hawait : awaitPacket alloc (c.socket.net.polls.length + 1) c = (.ok (), c₁) := by
    obtain ⟨turn, hfull⟩ := recvFull_of_persists (f := fun _ _ => pure ()) hpersists
      (fun _ => by simp) h.opened (Nat.lt_succ_self _)
    rw [awaitPacket_eq]
    rw [bind_pure] at hfull
    exact hfull
  rw [get_bind, bind_of_ok hawait]
  exact hend

theorem Passes.of_opts {n : Nat} (h : c.Passes n) (opts : c'.socket.opts = c.socket.opts) :
    c'.Passes n := by
  obtain ⟨below, size, memory⟩ := h
  rw [payloadLimit, ← opts] at below
  rw [← opts] at size
  exact ⟨below, size, memory⟩

/-- A packet is on its way with which a call comes to the verdict. -/
def Decides (alloc : Alloc) (handshake : Handshake) (scene : Scene) (v : Verdict) (c : Conn) : Prop :=
  ∃ c₁ c', Persists .again (onSocket Sock.wait) (readPacket alloc) c (.ok ()) c₁ ∧
    (∀ packet, authDispatch alloc packet handshake c₁ = ((fun _ => none) <$> v.returned, c')) ∧
    Settled scene v c c'

theorem Stage.silent (always : ∀ c, alloc c = true) {v : Verdict} {handshake : Handshake}
    (h : Stage scene [.server (v.bytes c.capabilities)] c) :
    Decides alloc handshake scene v c := by
  obtain ⟨c₁, hpersists, hbytes, hstage, huntouched⟩ := Stage.read always h
  rw [← huntouched.capabilities] at hbytes
  obtain ⟨c', hend, hsettled⟩ := hstage.settled hbytes
  refine ⟨c₁, c', hpersists, fun packet => ?_, hsettled.of_untouched huntouched⟩
  cases v with
  | accepted reply header =>
    have htype : c₁.currentPacketType = Packet.ok :=
      (currentPacketType_of_bytes (hbytes.trans rfl)).trans header
    rw [authDispatch_plain htype (by decide) (by decide)]
    exact hend
  | refused error =>
    have htype : c₁.currentPacketType = Packet.err :=
      currentPacketType_of_bytes (hbytes.trans rfl)
    rw [authDispatch_plain htype (by decide) (by decide)]
    exact hend

theorem Stage.fast (always : ∀ c, alloc c = true) {v : Verdict} {handshake : Handshake}
    (h : Stage scene (Inquiry.fast.lines scene.opts.password ++
      [.server (v.bytes c.capabilities)]) c) (looks : scene.opts.LooksProtected) :
    Decides alloc handshake scene v c := by
  obtain ⟨c₁, hpersists, hbytes, hstage, huntouched⟩ := Stage.read always h
  have hbyte : c₁.packet_buffer.byteAt 1 = 3 := by
    rw [Buffer.byteAt, hbytes]
    rfl
  have hlooks : c₁.socket.opts.LooksProtected := by
    rw [hstage.opts]
    exact looks
  rw [← huntouched.capabilities] at hstage
  obtain ⟨c', hend, hsettled⟩ := hstage.awaited always
  refine ⟨c₁, c', hpersists, fun packet => ?_, hsettled.of_untouched huntouched⟩
  rw [authDispatch_protected (currentPacketType_of_bytes hbytes) hlooks hbyte]
  exact hend

/-- The password goes out in between. -/
theorem Stage.full (always : ∀ c, alloc c = true) {v : Verdict} {handshake : Handshake}
    (h : Stage scene (Inquiry.full.lines scene.opts.password ++
      [.server (v.bytes c.capabilities)]) c) (looks : scene.opts.LooksProtected)
    (passes : c.Passes (scene.opts.password ++ [0]).length) :
    Decides alloc handshake scene v c := by
  obtain ⟨c₁, hpersists, hbytes, hstage, huntouched⟩ := Stage.read always h
  have hbyte : c₁.packet_buffer.byteAt 1 = 4 := by
    rw [Buffer.byteAt, hbytes]
    rfl
  have hlooks : c₁.socket.opts.LooksProtected := by
    rw [hstage.opts]
    exact looks
  have finalizes : Builder.Finalizes (buildAuthClearPassword alloc scene.opts.password)
      (scene.opts.password ++ [0]) := by
    rw [← hstage.opts]
    exact Outgoing.clearPassword.finalizes_packet alloc noDigests c₁
  have completes : Builder.Completes (buildAuthClearPassword alloc scene.opts.password)
      (scene.opts.password ++ [0]) := by
    have hbuilt : Builder.Completes (Outgoing.clearPassword.packet alloc noDigests c₁)
        (Outgoing.clearPassword.payload noDigests c₁) := Outgoing.completes_packet always trivial
    rw [← hstage.opts]
    exact hbuilt
  have hpasses : c₁.Passes (scene.opts.password ++ [0]).length := by
    apply passes.of_opts
    rw [hstage.opts, h.opts]
  obtain ⟨c₂, hsend, hstage₂, huntouched₂⟩ := hstage.send always finalizes completes
    ((fails_buildAuthClearPassword alloc _).mono fun _ h => .inl h) hpasses
  rw [← hstage.opts, ← sendClearPassword_eq hstage.opened] at hsend
  have huntouched' := huntouched.trans huntouched₂
  rw [← huntouched'.capabilities] at hstage₂
  obtain ⟨c', hend, hsettled⟩ := hstage₂.awaited always
  refine ⟨c₁, c', hpersists, fun packet => ?_, hsettled.of_untouched huntouched'⟩
  rw [authDispatch_protected (currentPacketType_of_bytes hbytes) hlooks hbyte, if_neg (by decide),
    if_pos rfl, bind_of_ok hsend]
  exact hend

/-- The server decides: the call that receives its packet gets the verdict. -/
theorem Stage.decided (always : ∀ c, alloc c = true) {d : Decision}
    (h : Stage scene (d.lines c.capabilities scene.opts.password) c)
    (passes : ∀ p, Line.client p ∈ d.lines c.capabilities scene.opts.password → c.Passes p.length)
    (allowed : d.Allowed scene.opts) (packets : Nat → AuthSwitchRequestPacket) (handshake : Handshake) :
    ∃ c', recvFull (fun turn => authRecv alloc (packets turn) handshake)
        (c.socket.net.polls.length + 1) c = ((fun _ => none) <$> d.verdict.returned, c') ∧
      Settled scene d.verdict c c' := by
  obtain ⟨inquiry, v⟩ := d
  have hdecides : Decides alloc handshake scene v c := by
    cases inquiry with
    | silent => exact Stage.silent always h
    | fast => exact Stage.fast always h (allowed (by simp))
    | full =>
      exact Stage.full always h (allowed (by simp))
        (passes _ (by simp [Decision.lines, Inquiry.lines]))
  obtain ⟨c₁, c', hpersists, hdispatch, hsettled⟩ := hdecides
  obtain ⟨turn, hfull⟩ := recvFull_of_persists
    (f := fun turn _ => authDispatch alloc (packets turn) handshake) hpersists
    (fun turn => by rw [hdispatch]; exact returned_ne_again v) h.opened (Nat.lt_succ_self _)
  rw [hdispatch] at hfull
  exact ⟨c', hfull, hsettled⟩

theorem readAuthSwitchPacket_known {plugin data : List UInt8}
    (known : plugin ∈ [nativePassword, cachingSha2Password, clearPassword])
    (pluginAuth : has c.capabilities Capabilities.pluginAuth)
    (hbytes : c.packet_buffer.bytes = authSwitchRequest plugin data)
    (packet : AuthSwitchRequestPacket) (handshake : Handshake) :
    readAuthSwitchPacket packet handshake c = (.ok { handshake with
      auth_plugin := plugin
      scramble := copiedOver data packet.scramble }, c) := by
  have hlen : plugin.length ≤ 31 := by
    simp only [List.mem_cons, List.not_mem_nil, or_false] at known
    obtain rfl | rfl | rfl := known <;> decide
  have hreads := (reads_authSwitch pluginAuth packet (nulFree_of_known known) hlen Packet.eof
    data).run
  have hparse : parsePacket (parseAuthSwitchRequestPacket c.capabilities packet) c =
      (.ok ⟨plugin, copiedOver data packet.scramble⟩, c) := by
    rw [parsePacket, hbytes]
    exact congrArg (·, c) hreads
  have hknown : (!sameString nativePassword plugin && !sameString cachingSha2Password plugin &&
      !sameString clearPassword plugin) = false := by
    simp only [List.mem_cons, List.not_mem_nil, or_false] at known
    obtain rfl | rfl | rfl := known <;> decide
  rw [readAuthSwitchPacket, get_bind, bind_of_ok hparse]
  simp [hknown]

/-- The server asks for another plugin. -/
theorem Stage.switched (always : ∀ c, alloc c = true) {plugin data : List UInt8}
    (known : plugin ∈ [nativePassword, cachingSha2Password, clearPassword])
    (pluginAuth : has c.capabilities Capabilities.pluginAuth)
    (h : Stage scene (.server (authSwitchRequest plugin data) :: lines) c)
    (packets : Nat → AuthSwitchRequestPacket) (handshake : Handshake) :
    ∃ scramble c', recvFull (fun turn => authRecv alloc (packets turn) handshake)
        (c.socket.net.polls.length + 1) c =
          (.ok (some { handshake with
            auth_plugin := plugin
            scramble := copiedOver data scramble }), c') ∧
      Stage scene lines c' ∧ Untouched c c' := by
  obtain ⟨c', hpersists, hbytes, hstage, huntouched⟩ := h.read always
  rw [← huntouched.capabilities] at pluginAuth
  have hdispatch : ∀ packet, authDispatch alloc packet handshake c' =
      (.ok (some { handshake with
        auth_plugin := plugin
        scramble := copiedOver data packet.scramble }), c') := by
    intro packet
    have htype : c'.currentPacketType = Packet.eof := currentPacketType_of_bytes hbytes
    rw [authDispatch, get_bind, authReply, htype, if_neg (by decide), if_pos rfl,
      bind_of_ok (readAuthSwitchPacket_known known pluginAuth hbytes packet handshake)]
    rfl
  obtain ⟨turn, hfull⟩ := recvFull_of_persists
    (f := fun turn _ => authDispatch alloc (packets turn) handshake) hpersists
    (fun turn => by rw [hdispatch]; simp) h.opened (Nat.lt_succ_self _)
  rw [hdispatch] at hfull
  exact ⟨_, c', hfull, hstage, huntouched⟩

theorem Stage.authSend (always : ∀ c, alloc c = true) {g : Greeting}
    (h : Stage scene (.client (g.response digests scene.opts) :: lines) c)
    (passes : c.Passes (g.response digests scene.opts).length) :
    ∃ c', sendFull (authSend alloc digests g.handshake) c = (.ok (), c') ∧
      Stage scene lines c' ∧ Untouched c c' := by
  obtain ⟨c', hsend, hstage, huntouched⟩ := h.send always
    (finalizes_buildAuthPacket alloc digests ..) (completes_buildAuthPacket always digests ..)
    (fails_buildAuthPacket ..) passes
  refine ⟨c', (sendFull_congr ?_).trans hsend, hstage, huntouched⟩
  rw [Conn.authSend, get_bind, h.opts]
  rfl

theorem Stage.authSwitchSend (always : ∀ c, alloc c = true) {plugin data : List UInt8}
    (switchable : Switchable scene.opts plugin data)
    (h : Stage scene
      (.client (authSwitchPayload digests scene.opts.password plugin data) :: lines) c)
    (passes : c.Passes (authSwitchPayload digests scene.opts.password plugin data).length)
    (handshake : Handshake) (scramble : List UInt8) :
    ∃ c', sendFull (authSwitchSend alloc digests { handshake with
        auth_plugin := plugin
        scramble := copiedOver data scramble }) c = (.ok (), c') ∧
      Stage scene lines c' ∧ Untouched c c' := by
  have finalizes := finalizes_buildAuthSwitchResponsePacket alloc digests scene.opts.password plugin
    (copiedOver data scramble) scene.opts.enable_cleartext_plugin
  have completes : Builder.Completes (buildAuthSwitchResponsePacket alloc digests scene.opts.password
      plugin (copiedOver data scramble) scene.opts.enable_cleartext_plugin) _ :=
    completes_authSwitch always switchable (copiedOver data scramble)
  rw [authSwitchPayload_copiedOver switchable] at finalizes completes
  obtain ⟨c', hsend, hstage, huntouched⟩ := h.send always finalizes completes
    (fails_buildAuthSwitchResponsePacket ..) passes
  refine ⟨c', (sendFull_congr ?_).trans hsend, hstage, huntouched⟩
  rw [Conn.authSwitchSend, get_bind, h.opts]

/-- The rest of `connectRecv`, once it has a packet. -/
def greetDispatch (handshake : Handshake) : Proc Code Conn Handshake := do
  let conn ← get
  if conn.currentPacketType = Packet.err then readErrPacket
  else do
    let handshake ← parsePacket (parseHandshakePacket handshake)
    modify fun conn =>
      { conn with
        capabilities := handshake.capabilities
        server_status := handshake.server_status }
    pure handshake

theorem Stage.turnedAway (always : ∀ c, alloc c = true) {e : ErrReply}
    (h : Stage scene [.server (e.bytes c.capabilities)] c) (handshake : Handshake) :
    ∃ c', recvFull (fun _ => connectRecv alloc handshake) (c.socket.net.polls.length + 1) c =
        (.error .err, c') ∧ Stage scene [] c' ∧ Reported c e c' ∧
      c'.capabilities = c.capabilities := by
  obtain ⟨c₁, hpersists, hbytes, hstage, huntouched⟩ := h.read always
  have htype : c₁.currentPacketType = Packet.err :=
    currentPacketType_of_bytes (hbytes.trans rfl)
  rw [← huntouched.capabilities] at hbytes
  obtain ⟨c', hread, hnoted, hreported⟩ := @readErrPacket_reported _ Handshake _ hbytes
  have hgreet : greetDispatch handshake c₁ = (.error .err, c') := by
    rw [greetDispatch, get_bind, if_pos htype]
    exact hread
  obtain ⟨_, hfull⟩ := recvFull_of_persists (f := fun _ _ => greetDispatch handshake) hpersists
    (fun _ => by rw [hgreet]; simp) h.opened (Nat.lt_succ_self _)
  rw [hgreet] at hfull
  exact ⟨c', hfull, hstage.sameWire hnoted.toSameWire, hreported.of_untouched huntouched,
    hnoted.capabilities.trans huntouched.capabilities⟩

theorem Stage.greeted (always : ∀ c, alloc c = true) {g : Greeting}
    (h : Stage scene (.server g.bytes :: lines) c) (handshake : Handshake) :
    ∃ c', recvFull (fun _ => connectRecv alloc handshake) (c.socket.net.polls.length + 1) c =
        (.ok g.handshake, c') ∧ Stage scene lines c' ∧
      Untouched { c with capabilities := g.capabilities, server_status := g.status } c' := by
  obtain ⟨c₁, hpersists, hbytes, hstage, huntouched⟩ := h.read always
  have htype : c₁.currentPacketType = 0x0a := currentPacketType_of_bytes (hbytes.trans rfl)
  have hparse : parsePacket (parseHandshakePacket handshake) c₁ = (.ok g.handshake, c₁) := by
    rw [parsePacket, hbytes, parse_greeting]
  have hgreet : greetDispatch handshake c₁ = (.ok g.handshake,
      { c₁ with capabilities := g.capabilities, server_status := g.status }) := by
    rw [greetDispatch, get_bind, if_neg (by rw [htype]; decide), bind_of_ok hparse]
    rfl
  obtain ⟨_, hfull⟩ := recvFull_of_persists (f := fun _ _ => greetDispatch handshake) hpersists
    (fun _ => by rw [hgreet]; simp) h.opened (Nat.lt_succ_self _)
  rw [hgreet] at hfull
  refine ⟨_, hfull, hstage.rewritten ?_ rfl rfl rfl, rfl, rfl, huntouched.warning_count,
    huntouched.column_count, huntouched.started_reading_rows⟩
  rw [← hstage.opts]

/-- What a login leaves. -/
structure Undergone (login : Login) (scene : Scene) (c c' : Conn) : Prop where
  stage : Stage (scene.after login) [] c'
  learnt : Learnt (login.greeted c) login.answer c'
  capabilities : c'.capabilities = (login.greeted c).capabilities

theorem bind_returned {m : Proc Code Conn (Option Handshake)}
    {f : Option Handshake → Proc Code Conn Unit} {v : Verdict}
    (hm : m c = ((fun _ => none) <$> v.returned, c')) (hf : f none = pure ()) :
    (m >>= f) c = (v.returned, c') := by
  cases v with
  | accepted _ _ => rw [bind_of_ok hm, hf]; rfl
  | refused _ => exact bind_of_error hm

theorem connectHandshake_runs (always : ∀ c, alloc c = true) {login : Login}
    (h : Stage scene (login.lines digests c.capabilities scene.opts) c)
    (agreeable : login.Agreeable scene.opts)
    (passes : ∀ p, Line.client p ∈ login.lines digests c.capabilities scene.opts → c.Passes p.length)
    (handshake : Handshake) (packets packets' : Nat → AuthSwitchRequestPacket) :
    ∃ c', connectHandshake alloc digests handshake packets packets' c = (login.returned, c') ∧
      Undergone login scene c c' := by
  have passes' : ∀ {c₁ : Conn} {p}, c₁.socket.opts = scene.opts →
      Line.client p ∈ login.lines digests c.capabilities scene.opts → c₁.Passes p.length :=
    fun hopts hp => (passes _ hp).of_opts (hopts.trans h.opts.symm)
  cases login with
  | turnedAway error =>
    obtain ⟨c', hfull, hstage, hreported, hcapabilities⟩ := Stage.turnedAway always h handshake
    refine ⟨c', ?_, hstage, hreported, hcapabilities⟩
    rw [connectHandshake, get_bind, bind_of_error hfull]
    rfl
  | decided g d =>
    obtain ⟨c₁, hgreeted, hstage₁, huntouched₁⟩ := Stage.greeted always h handshake
    obtain ⟨c₂, hsent, hstage₂, huntouched₂⟩ :=
      hstage₁.authSend always (passes' hstage₁.opts (by simp [Login.lines]))
    have huntouched := huntouched₁.trans huntouched₂
    have hcapabilities : c₂.capabilities = g.capabilities := huntouched.capabilities
    rw [← hcapabilities] at hstage₂
    obtain ⟨c', hdecided, hsettled⟩ := hstage₂.decided always
      (fun p hp => passes' hstage₂.opts (by rw [hcapabilities] at hp; simp [Login.lines, hp]))
      agreeable packets g.handshake
    have hsettled' := hsettled.of_untouched huntouched
    refine ⟨c', ?_, hsettled'.stage, hsettled'.learnt, hsettled'.capabilities⟩
    rw [connectHandshake, get_bind, bind_of_ok hgreeted, bind_of_ok hsent, get_bind]
    exact bind_returned hdecided rfl
  | switched g plugin data d =>
    obtain ⟨switchable, allowed⟩ := agreeable
    obtain ⟨c₁, hgreeted, hstage₁, huntouched₁⟩ := Stage.greeted always h handshake
    obtain ⟨c₂, hsent, hstage₂, huntouched₂⟩ :=
      hstage₁.authSend always (passes' hstage₁.opts (by simp [Login.lines]))
    have hgreeting := huntouched₁.trans huntouched₂
    have hpluginAuth : has c₂.capabilities Capabilities.pluginAuth := by
      rw [hgreeting.capabilities]
      exact g.pluginAuth
    obtain ⟨scramble, c₃, hswitched, hstage₃, huntouched₃⟩ :=
      hstage₂.switched always switchable.known hpluginAuth packets g.handshake
    obtain ⟨c₄, hresponded, hstage₄, huntouched₄⟩ :=
      hstage₃.authSwitchSend always switchable (passes' hstage₃.opts (by simp [Login.lines]))
        g.handshake scramble
    have huntouched := (hgreeting.trans huntouched₃).trans huntouched₄
    have hcapabilities : c₄.capabilities = g.capabilities := huntouched.capabilities
    rw [← hcapabilities] at hstage₄
    obtain ⟨c', hdecided, hsettled⟩ := hstage₄.decided always
      (fun p hp => passes' hstage₄.opts (by rw [hcapabilities] at hp; simp [Login.lines, hp]))
      allowed packets' { g.handshake with
        auth_plugin := plugin
        scramble := copiedOver data scramble }
    have hsettled' := hsettled.of_untouched huntouched
    refine ⟨c', ?_, hsettled'.stage, hsettled'.learnt, hsettled'.capabilities⟩
    rw [connectHandshake, get_bind, bind_of_ok hgreeted, bind_of_ok hsent, get_bind,
      bind_of_ok hswitched]
    dsimp only
    rw [connectAuthSwitch, bind_of_ok hresponded, get_bind]
    exact bind_returned hdecided rfl

end Conn

open Conn Line

/-- Whatever way a login goes, `trilogy_connect_handshake` returns its verdict. The
server gets the packets of the login and nothing else, what was sent after the verdict is
still there to be read, and the password is forgotten. -/
theorem login_decides {alloc : Alloc} (always : ∀ c, alloc c = true) {digests : Digests}
    {login : Login} {c : Conn} {rest : List UInt8} (agreeable : login.Agreeable c.socket.opts)
    (deliverable : Deliverable c (login.lines digests c.capabilities c.socket.opts))
    (first : c.packetParser.sequence_number = 0)
    (h : Resting c (served 0 (login.lines digests c.capabilities c.socket.opts) ++ rest))
    (room : (claimed 0 (login.lines digests c.capabilities c.socket.opts)).length ≤
      c.socket.capacity)
    (ready : ∀ ready ∈ c.socket.net.polls, ready = true)
    (enough : c.patience ≤ c.socket.net.polls.length)
    (handshake : Handshake) (packets packets' : Nat → AuthSwitchRequestPacket) :
    ∃ c', connectHandshake alloc digests handshake packets packets' c = (login.returned, c') ∧
      Resting c' rest ∧ Learnt (login.greeted c) login.answer c' ∧
      c'.capabilities = (login.greeted c).capabilities ∧
      c'.socket.opts = login.optsAfter c.socket.opts ∧
      c'.socket.sentBytes = c.socket.sentBytes ++
        claimed 0 (login.lines digests c.capabilities c.socket.opts) := by
  have hroom : (claimed 0 (login.lines digests c.capabilities c.socket.opts)).length + 0 ≤
      c.socket.capacity := room
  obtain ⟨c', hends, hundergone⟩ :=
    connectHandshake_runs always (Stage.opening first h hroom ready enough deliverable.short)
      agreeable deliverable.passes handshake packets packets'
  have hresting : Resting c' rest := hundergone.stage.resting
  have hopts : c'.socket.opts = login.optsAfter c.socket.opts := hundergone.stage.opts
  have hsent := hundergone.stage.sent
  rw [claimed, List.append_nil] at hsent
  exact ⟨c', hends, hresting, hundergone.learnt, hundergone.capabilities, hopts, hsent⟩

theorem nulFree_nativePassword : NulFree nativePassword := nulFree_of_known (.head _)

theorem exampleFlags :
    has ((0x8200 : UInt16).toUInt32 ||| (0x0008 : UInt16).toUInt32 <<< 16)
        Capabilities.protocol41 = true ∧
      has ((0x8200 : UInt16).toUInt32 ||| (0x0008 : UInt16).toUInt32 <<< 16)
        Capabilities.secureConnection = true ∧
      has ((0x8200 : UInt16).toUInt32 ||| (0x0008 : UInt16).toUInt32 <<< 16)
        Capabilities.pluginAuth = true := by
  decide

def exampleGreeting : Greeting where
  version := []
  conn_id := 7
  scramble := List.replicate 8 0x61
  lower := 0x8200
  charset := 45
  status := 2
  upper := 0x0008
  reserved := List.replicate 10 0
  more := List.replicate 13 0x62
  plugin := nativePassword
  version_text := List.forall_mem_nil _
  scramble_length := List.length_replicate
  reserved_length := List.length_replicate
  more_length := List.length_replicate
  plugin_text := nulFree_nativePassword
  plugin_length := Nat.le_of_ble_eq_true rfl
  protocol41 := exampleFlags.1
  secureConnection := exampleFlags.2.1
  pluginAuth := exampleFlags.2.2

/-- The server changes to `caching_sha2_password`, and then it has to have the password. -/
def exampleLogin : Login :=
  .switched exampleGreeting cachingSha2Password (List.replicate 21 0x63)
    ⟨.full, .accepted exampleReply exampleReply_header⟩

def exampleLoginConn : Conn :=
  Conn.init { idleSock with
    opts := pathOpts
    net := { idleSock.net with
      raw_writes := List.replicate 150 (.wrote 1)
      raw_reads := [.data (served 0 (exampleLogin.lines noDigests 0 pathOpts))]
      polls := List.replicate 320 true } }

theorem exampleLogin_agreeable : exampleLogin.Agreeable pathOpts := by
  refine ⟨⟨?_, ?_, ?_⟩, ?_⟩
  · exact List.mem_cons_of_mem _ (.head _)
  · intro _ hclear
    exact absurd hclear (by decide)
  · intro _ _
    decide
  · intro _
    exact .inr (by decide)

theorem login_decides_switched :
    (connectHandshake (fun _ => true) noDigests default (fun _ => default) (fun _ => default)
      exampleLoginConn).1 = .ok () := by
  have resting : Resting exampleLoginConn
      (served 0 (exampleLogin.lines noDigests 0 pathOpts) ++ []) := by
    refine ⟨?_, ?_, Nat.le_refl 0, ⟨by rintro ⟨⟩, rfl⟩, rfl, rfl, by decide +kernel⟩
    · exact List.forall_mem_singleton.mpr
        (by decide +kernel : served 0 (exampleLogin.lines noDigests 0 pathOpts) ≠ [])
    · intro write hwrite
      rw [List.eq_of_mem_replicate hwrite]
      simp [RawWrite.Calm]
  obtain ⟨c', hends, -⟩ := login_decides (fun _ => rfl) exampleLogin_agreeable
    (.of_short rfl (by decide +kernel)) rfl resting (by decide +kernel) (by decide +kernel)
    (by decide +kernel) default (fun _ => default) (fun _ => default)
  rw [hends]
  rfl

end Trilogy
