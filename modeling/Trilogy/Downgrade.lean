import Trilogy.ClientCalls
import Trilogy.Connecting
import Trilogy.Flushing
import Trilogy.HandshakeResponse
import Trilogy.Lib.Triple
import Trilogy.Sending
import Trilogy.Upgrade

namespace Trilogy

open Lib Proc

/-- The modes in which nothing but TLS will do. -/
def SslMode.Required (mode : SslMode) : Prop := mode ≠ .disabled ∧ mode ≠ .preferredNoverify

/-- The request for TLS, with the flags and the encoding of these options. -/
def SockOpt.sslRequest (opts : SockOpt) : List UInt8 :=
  startBytes (opts.flags ||| Capabilities.ssl ||| Capabilities.client) opts.encoding

namespace Sock

/-- A first part of the request went out, and behind all of it only what TLS covers. -/
structure Veiling (request : List UInt8) (asked covered : List (Channel × List UInt8))
    (sock : Sock) : Prop where
  sent : sock.sent = asked ++ covered
  asks : ∃ seq, asked.flatMap Prod.snd <+: frames seq request ∧
    (covered ≠ [] → asked.flatMap Prod.snd = frames seq request)
  covers : ∀ d ∈ covered, d.1 = .tls

def Veiled (request : List UInt8) (sock : Sock) : Prop :=
  ∃ asked covered, Veiling request asked covered sock

/-- All of the request went out, and the socket has TLS, or is shut down. -/
def Secured (request : List UInt8) (sock : Sock) : Prop :=
  sock.io ≠ .raw ∧ ∃ seq asked covered, sock.sent = asked ++ covered ∧
    asked.flatMap Prod.snd = frames seq request ∧ ∀ d ∈ covered, d.1 = .tls

theorem Secured.veiled {request : List UInt8} {sock : Sock} (h : Secured request sock) :
    Veiled request sock := by
  obtain ⟨-, seq, asked, covered, hsent, hasked, hcovered⟩ := h
  exact ⟨asked, covered, hsent, ⟨seq, hasked ▸ List.prefix_rfl, fun _ => hasked⟩, hcovered⟩

theorem Secured.sends {request : List UInt8} {sock sock' : Sock} (h : Secured request sock)
    (sends : Sends sock sock') : Secured request sock' := by
  obtain ⟨hio, seq, asked, covered, hsent, hasked, hcovered⟩ := h
  obtain ⟨data, hdata, hcover⟩ := sends
  obtain ⟨hio', htls⟩ := hcover hio
  refine ⟨hio', seq, asked, covered ++ data, by rw [hdata, hsent, List.append_assoc], hasked, ?_⟩
  intro d hd
  exact (List.mem_append.mp hd).elim (hcovered d) (htls d)

/-- Nothing was sent. -/
theorem Veiled.of_silent {request : List UInt8} {sock : Sock} (silent : sock.sent = []) :
    Veiled request sock :=
  ⟨[], [], silent, ⟨0, List.nil_prefix, fun h => absurd rfl h⟩, by simp⟩

end Sock

namespace Conn

variable {alloc : Alloc} {c c' : Conn} {packet : Buffer} {r : Except Code Unit}

theorem partway_shutdown (h : Partway c packet (.error .again) c') :
    Partway c packet (.error .again) (onSocket Sock.shutdown c').2 where
  packet_buffer := h.packet_buffer
  written_le := h.written_le
  pieces := h.pieces
  offers := by
    intro hr
    cases hr

theorem fails_buildSslRequestPacket (flags : UInt32) (client_encoding : UInt8) :
    Fails BuildFault (buildSslRequestPacket alloc flags client_encoding) :=
  .bind (Builder.fails_writeUint32 _ _) fun _ => .bind (Builder.fails_writeUint32 _ _) fun _ =>
    .bind (Builder.fails_writeUint8 _ _) fun _ => .bind (Builder.fails_writeBuffer _ _) fun _ =>
    .modify _

/-- Either the request is not built, and nothing is sent, or it is on its way. -/
theorem sslRequestSend_cases (c : Conn) :
    (∃ rc, (sslRequestSend alloc c).1 = .error rc ∧ rc ≠ .again ∧
      (sslRequestSend alloc c).2.socket.sent = c.socket.sent) ∨
    ∃ packet : Buffer, packet.bytes = frames c.packetParser.sequence_number c.socket.opts.sslRequest ∧
      Partway c packet (sslRequestSend alloc c).1 (sslRequestSend alloc c).2 := by
  have hfails : Fails BuildFault (beginCommandPhase alloc c.packetParser.sequence_number) :=
    fails_beginCommandPhase alloc _
  rcases hbegin : beginCommandPhase alloc c.packetParser.sequence_number c with ⟨rc | builder, c₁⟩
  · have hrun : sslRequestSend alloc c = (.error rc, c₁) := by
      rw [sslRequestSend, get_bind, bind_of_error hbegin]
    have hsame : c₁.socket = c.socket := by
      have := @socket_beginCommandPhase alloc c.packetParser.sequence_number c
      rw [hbegin] at this
      exact this.symm
    rw [hrun]
    exact .inl ⟨rc, rfl, (hfails hbegin).fault.2, by rw [hsame]⟩
  obtain ⟨hbuilding, rfl⟩ := beginCommandPhase_ok hbegin
  rcases hbuild : buildSslRequestPacket alloc (c.socket.opts.flags ||| Capabilities.ssl)
      c.socket.opts.encoding builder with ⟨rc | _, builder'⟩
  · left
    have hrc := fails_buildSslRequestPacket _ _ hbuild
    have hrun : sslRequestSend alloc c = (.error rc, { c with
        packet_buffer := builder'.buffer
        packetParser :=
          { c.packetParser with sequence_number := c.packetParser.sequence_number + 1 }
        socket := { c.socket with
          opts := { c.socket.opts with flags := c.socket.opts.flags ||| Capabilities.ssl } } }) := by
      rw [sslRequestSend, get_bind, bind_of_ok hbegin, modify_bind, get_bind]
      apply bind_of_error
      simp only [build, hbuild]
    rw [hrun]
    exact ⟨rc, rfl, hrc.fault.2, rfl⟩
  · right
    obtain ⟨hbytes, -⟩ := (Outgoing.request .sslRequest).finalizes_packet alloc noDigests c hbuilding
      hbuild
    obtain ⟨c₀, hsend, hbuffer, hsent⟩ := @send_begins alloc noDigests c _ (.request .sslRequest) _ _
      hbegin hbuild
    change sslRequestSend alloc c = beginWrite c₀ at hsend
    refine ⟨builder'.buffer, ?_, ?_⟩
    · rw [hbytes]
      exact congrArg (frames _) (sslRequestPayload_eq _ _)
    · rw [hsend, ← hbuffer]
      apply partway_beginWrite hsent
      rw [hbuffer]
      exact @built_ne_nil alloc noDigests c _ (.request .sslRequest) _ _ hbegin hbuild

end Conn

namespace Sock

/-- The request went out, and nothing else. -/
def Asked (request : List UInt8) (sock : Sock) : Prop :=
  ∃ seq, sock.sent.flatMap Prod.snd = frames seq request

theorem Asked.veiled {request : List UInt8} {sock : Sock} (h : Asked request sock) :
    Veiled request sock := by
  obtain ⟨seq, hsent⟩ := h
  exact ⟨sock.sent, [], by simp, ⟨seq, by rw [hsent], fun h => absurd rfl h⟩, by simp⟩

end Sock

/-- What was sent and the options are the same. -/
structure Untold (sock sock' : Sock) : Prop where
  sent : sock'.sent = sock.sent
  opts : sock'.opts = sock.opts

instance : Std.Refl Untold := ⟨fun _ => ⟨rfl, rfl⟩⟩

instance : IsTrans Sock Untold where
  trans _ _ _ h h' := ⟨h'.sent.trans h.sent, h'.opts.trans h.opts⟩

theorem untold_read (n : Nat) : Keeps Untold (Sock.read n) := by
  intro sock
  unfold Sock.read Sock.rawRead Sock.sslRead
  split
  · split <;> exact ⟨rfl, rfl⟩
  · split <;> exact ⟨rfl, rfl⟩
  · exact ⟨rfl, rfl⟩

theorem untold_readRel (alloc : Alloc) : ReadRel alloc (OnSock Untold) :=
  onSock_readRel alloc untold_read

theorem untold_shutdown : Keeps (OnSock Untold) (Conn.onSocket Sock.shutdown) := fun _ => ⟨rfl, rfl⟩

namespace Rb

variable {alloc : Alloc} {digests : Digests} {opts : SockOpt} {request : List UInt8} {turns : Nat}

def Veiled (request : List UInt8) (s : Rb) : Prop := s.ctx.conn.socket.Veiled request

/-- Nothing went out yet. -/
def Silent (opts : SockOpt) (s : Rb) : Prop :=
  s.ctx.conn.socket.sent = [] ∧ s.ctx.conn.socket.opts = opts

/-- What a loop has returned that sends the request. -/
def Requested (request : List UInt8) (rc : Except Code Unit) (c : Conn) : Prop :=
  c.socket.Veiled request ∧ (rc = .ok () → c.socket.Asked request)

theorem requested_of_partway {c c' : Conn} {packet : Buffer} {seq : UInt8} {rc : Except Code Unit}
    (silent : c.socket.sent = []) (bytes : packet.bytes = frames seq request)
    (h : Partway c packet rc c') : Requested request rc c' := by
  obtain ⟨-, -, ⟨pieces, hsent, htaken, hall⟩, -⟩ := h
  rw [silent, List.nil_append] at hsent
  constructor
  · refine ⟨pieces, [], by rw [hsent, List.append_nil], ⟨seq, ?_, fun h => absurd rfl h⟩, by simp⟩
    rw [htaken, ← bytes]
    exact List.take_prefix _ _
  · intro hok
    exact ⟨seq, by rw [hsent, hall.mp hok, bytes]⟩

theorem flushWrites_triple {c : Conn} {packet : Buffer} {seq : UInt8}
    (silent : c.socket.sent = []) (bytes : packet.bytes = frames seq request) :
    Triple (fun s => Partway c packet (.error .again) s.ctx.conn) (flushWrites turns)
      (fun rc s => Requested request rc s.ctx.conn) fun _ => Veiled request := by
  have veiled : ∀ {rc c'}, Partway c packet rc c' → Requested request rc c' :=
    fun h => requested_of_partway silent bytes h
  apply Triple.post
  · exact await_triple (J := Partway c packet) (fun _ h => Conn.partway_flushWrites h)
      (fun _ h => h) (fun _ h => (veiled h).1) (fun _ h => (veiled (Conn.partway_shutdown h)).1) turns
  · rintro rc s (h | ⟨⟨rc, rfl⟩, h⟩)
    · exact veiled h
    · exact ⟨(veiled h).1, fun hok => by cases hok⟩

theorem sslRequest_triple :
    Triple (Silent opts) (sendFlushed (Conn.sslRequestSend alloc) turns)
      (fun rc s => Requested opts.sslRequest rc s.ctx.conn) fun _ => Veiled opts.sslRequest := by
  have call : ∀ c : Conn, c.socket.sent = [] ∧ c.socket.opts = opts →
      Requested opts.sslRequest (Conn.sslRequestSend alloc c).1 (Conn.sslRequestSend alloc c).2 ∧
      ((Conn.sslRequestSend alloc c).1 = .error .again → ∃ packet seq,
        packet.bytes = frames seq opts.sslRequest ∧
        Partway c packet (.error .again) (Conn.sslRequestSend alloc c).2) := by
    rintro c ⟨silent, rfl⟩
    obtain ⟨rc, hrc, hne, hsent⟩ | ⟨packet, bytes, h⟩ := @Conn.sslRequestSend_cases alloc c
    · rw [hrc]
      refine ⟨⟨.of_silent (hsent.trans silent), fun hok => by cases hok⟩, ?_⟩
      rintro ⟨⟩
      exact absurd rfl hne
    · refine ⟨requested_of_partway silent bytes h, fun hagain => ⟨packet, _, bytes, ?_⟩⟩
      rwa [hagain] at h
  have first := (onBuffer_triple (m := Conn.sslRequestSend alloc) (J := fun rc c' =>
    Requested opts.sslRequest rc c' ∧ (rc = .error .again → ∃ c packet seq, c.socket.sent = [] ∧
      packet.bytes = frames seq opts.sslRequest ∧ Partway c packet (.error .again) c'))
    fun c hc => ⟨(call c hc).1, fun hagain => ?_⟩)
  · apply (first.mono_raises fun _ s hs => .of_silent hs.1).bind
    intro rc
    cases rc with
    | ok _ => exact .pure fun _ hs => hs.1
    | error rc =>
      cases rc with
      | again =>
        constructor
        · intro s rc t hs he
          obtain ⟨c, packet, seq, silent, bytes, h⟩ := hs.2 rfl
          exact (flushWrites_triple silent bytes).returns h he
        · intro s e t hs he
          obtain ⟨c, packet, seq, silent, bytes, h⟩ := hs.2 rfl
          exact (flushWrites_triple silent bytes).raises h he
      | _ => exact .pure fun _ hs => hs.1
  · obtain ⟨packet, seq, bytes, h⟩ := (call c hc).2 hagain
    exact ⟨c, packet, seq, hc.1, bytes, h⟩

theorem Silent.untold {s s' : Rb} (h : Silent opts s) (untold : OnConn (OnSock Untold) s s') :
    Silent opts s' :=
  ⟨untold.sent.trans h.1, untold.opts.trans h.2⟩

theorem untold_onSock {f : Sock → Sock} (hf : ∀ sock, Untold sock (f sock)) :
    Keeps (OnConn (OnSock Untold)) (onSock f) :=
  .modify fun s => hf s.ctx.conn.socket

theorem untold_sslConnect (results : List SslConnect) :
    Keeps (OnConn (OnSock Untold)) (sslConnect results) := by
  induction results with
  | nil => exact .pure _
  | cons result more ih =>
    refine .bind (untold_onSock fun _ => ⟨rfl, rfl⟩) fun _ => ?_
    cases result with
    | done => exact .pure _
    | failed e =>
      cases e with
      | wantRead | wantWrite =>
        apply Keeps.bind (keeps_sockWait untold_shutdown)
        intro rc
        cases rc with
        | ok _ => exact ih
        | error _ => exact .pure _
      | zeroReturn | syscall _ _ | other => exact .pure _

theorem keeps_andThen {α β : Type} {R : Rb → Rb → Prop} [Std.Refl R] [IsTrans Rb R]
    {m : Proc Exit Rb (Except Code α)} {f : α → Proc Exit Rb (Except Code β)}
    (hm : Keeps R m) (hf : ∀ a, Keeps R (f a)) : Keeps R (andThen m f) := by
  apply Keeps.bind hm
  intro rc
  cases rc with
  | ok a => exact hf a
  | error _ => exact .pure _

theorem untold_upgradeSsl : Keeps (OnConn (OnSock Untold)) upgradeSsl := by
  have setup : Keeps Untold Sock.setup := by
    intro sock
    unfold Sock.setup
    split <;> exact ⟨rfl, rfl⟩
  apply keeps_andThen (keeps_onConn fun c => setup c.socket)
  intro _
  refine .bind .get fun s => .ite (fun _ => .pure _) fun _ => .ite (fun _ => .pure _) fun _ => ?_
  apply keeps_andThen (untold_sslConnect _)
  intro _
  exact .bind (untold_onSock fun _ => ⟨rfl, rfl⟩) fun _ => .pure _

theorem andThen_ok {α β : Type} {m : Proc Exit Rb (Except Code α)}
    {f : α → Proc Exit Rb (Except Code β)} {s t : Rb} {b : β}
    (h : andThen m f s = (.ok (.ok b), t)) :
    ∃ a s', m s = (.ok (.ok a), s') ∧ f a s' = (.ok (.ok b), t) := by
  obtain ⟨rc, s', hm, hf⟩ := bind_ok.mp h
  cases rc with
  | ok a => exact ⟨a, s', hm, hf⟩
  | error _ => cases hf

theorem upgradeSsl_covered {s t : Rb} (h : upgradeSsl s = (.ok (.ok ()), t)) :
    t.ctx.conn.socket.io = .ssl := by
  obtain ⟨_, s', -, h⟩ := andThen_ok h
  rw [get_bind] at h
  split at h
  · cases h
  · split at h
    · cases h
    · obtain ⟨_, s', -, h⟩ := andThen_ok h
      cases h
      rfl

theorem upgradeSsl_triple : Triple (fun s => s.ctx.conn.socket.Asked request) upgradeSsl
    (fun rc s => Veiled request s ∧ (rc = .ok () → s.ctx.conn.socket.Secured request))
    fun _ => Veiled request := by
  have asked : ∀ {s t}, s.ctx.conn.socket.Asked request → OnConn (OnSock Untold) s t →
      t.ctx.conn.socket.Asked request := by
    rintro s t ⟨seq, hsent⟩ untold
    exact ⟨seq, by rw [untold.sent, hsent]⟩
  constructor
  · intro s rc t hs he
    have hkept := untold_upgradeSsl s
    rw [he] at hkept
    have ht := asked hs hkept
    refine ⟨ht.veiled, ?_⟩
    rintro rfl
    obtain ⟨seq, hsent⟩ := ht
    refine ⟨by rw [upgradeSsl_covered he]; decide, seq, _, [], by simp, hsent, by simp⟩
  · intro s e t hs he
    have hkept := untold_upgradeSsl s
    rw [he] at hkept
    exact (asked hs hkept).veiled

section

variable {R : Conn → Conn → Prop} [Std.Refl R] [IsTrans Conn R] (h : CallRel alloc R)
include h

theorem keeps_flushPassword (turns : Nat) (rc : Except Code Unit) :
    Keeps (OnConn R) (flushPassword turns rc) := by
  induction turns generalizing rc with
  | zero =>
    rcases rc with rc | _
    · cases rc with
      | again => exact .throw _
      | _ => exact .pure _
    · exact .pure _
  | succ turns ih =>
    rcases rc with rc | _
    · cases rc with
      | again =>
        apply keeps_andThen (keeps_sockWait h.shutdown)
        intro _
        exact .bind (keeps_onBuffer (Conn.keeps_flushWrites h.toWriteRel)) ih
      | _ => exact .pure _
    · exact .pure _

theorem keeps_sendClearPassword (turns : Nat) :
    Keeps (OnConn R) (sendClearPassword alloc turns) := by
  apply keeps_andThen
  · exact keeps_onBuffer (.bind .get fun _ =>
      .bind (Conn.keeps_beginCommandPhase h.toReadRel _) fun _ =>
      Conn.keeps_build h.toReadRel _ _)
  · intro _
    exact .bind (keeps_onBuffer (Conn.keeps_beginWrite h.toWriteRel)) fun rc =>
      keeps_flushPassword h turns rc

theorem keeps_authRecv (packet : AuthSwitchRequestPacket) (handshake : Handshake) (turns : Nat) :
    Keeps (OnConn R) (authRecv alloc packet handshake turns) := by
  have read := Conn.keeps_readPacket h.toReadRel
  have cleared : Keeps R (do
      Conn.authClearPassword
      Conn.handleGenericResponse
      pure none : Proc Code Conn (Option Handshake)) :=
    .bind (Conn.keeps_authClearPassword h) fun _ =>
      .bind (h.noted Conn.noted_handleGenericResponse) fun _ => .pure _
  apply keeps_andThen (keeps_onBuffer read)
  intro _
  refine .bind .get fun s => .ite (fun _ => .ite (fun _ => .pure _) fun _ => ?_) fun _ =>
    .ite (fun _ => ?_) fun _ => keeps_onBuffer cleared
  · apply keeps_andThen
    · exact .ite (fun _ => .pure _) fun _ =>
        .ite (fun _ => keeps_sendClearPassword h turns) fun _ => .pure _
    · intro _
      exact keeps_andThen (keeps_await h.shutdown read turns) fun _ => keeps_onBuffer cleared
  · apply keeps_onBuffer
    rw [map_eq_pure_bind]
    exact .bind (h.noted (Conn.noted_readAuthSwitchPacket packet handshake)) fun _ => .pure _

theorem keeps_authTurn (packet : AuthSwitchRequestPacket) (handshake : Handshake) (turns : Nat)
    {again : Proc Exit Rb (Option Handshake)} (ha : Keeps (OnConn R) again) :
    Keeps (OnConn R) (authTurn alloc packet handshake turns again) := by
  apply Keeps.bind (keeps_authRecv h packet handshake turns)
  intro rc
  cases rc with
  | ok _ => exact .pure _
  | error rc =>
    cases rc with
    | again => exact .bind (keeps_orHandle h (keeps_sockWait h.shutdown)) fun _ => ha
    | _ => exact keeps_handleTrilogyError h.toReadRel h.shutdown _

theorem keeps_awaitAuth (packets : Nat → AuthSwitchRequestPacket) (handshake : Handshake)
    (turns left : Nat) : Keeps (OnConn R) (awaitAuth alloc packets handshake turns left) := by
  induction left with
  | zero => exact keeps_authTurn h _ _ _ (.throw _)
  | succ left ih => exact keeps_authTurn h _ _ _ ih

theorem keeps_authSwitch (packets : Nat → AuthSwitchRequestPacket) (handshake : Handshake)
    (turns : Nat) : Keeps (OnConn R) (authSwitch alloc digests packets handshake turns) := by
  apply Keeps.bind
  · exact keeps_orHandle h (keeps_sendFlushed h (.bind .get fun _ =>
      Conn.keeps_sendPacket h.toWriteRel _ _) turns)
  intro _
  apply Keeps.bind (keeps_awaitAuth h packets handshake turns turns)
  intro switch
  cases switch with
  | none => exact .pure _
  | some _ => exact keeps_handleTrilogyError h.toReadRel h.shutdown _

/-- `authenticate`, but for its first part. -/
theorem keeps_login (packets packets' : Nat → AuthSwitchRequestPacket) (handshake : Handshake)
    (turns : Nat) : Keeps (OnConn R) (do
      orHandle (sendFlushed (Conn.authSend alloc digests handshake) turns)
      let switch ← awaitAuth alloc packets handshake turns turns
      match switch with
      | none => pure ()
      | some handshake => authSwitch alloc digests packets' handshake turns) := by
  apply Keeps.bind
  · exact keeps_orHandle h (keeps_sendFlushed h (.bind .get fun _ =>
      Conn.keeps_sendPacket h.toWriteRel _ _) turns)
  intro _
  apply Keeps.bind (keeps_awaitAuth h packets handshake turns turns)
  intro switch
  cases switch with
  | none => exact .pure _
  | some handshake => exact keeps_authSwitch h packets' handshake turns

end

theorem veiled_handleTrilogyError {α : Type} {Q : α → Rb → Prop} (rc : Code) :
    Triple (Veiled request) (handleTrilogyError rc) Q fun _ => Veiled request := by
  apply handleTrilogyError_triple
    (keeps_handleTrilogyError (untold_readRel fun _ => true) untold_shutdown rc)
  rintro s t ⟨asked, covered, hsent, hasked, hcovered⟩ untold
  exact ⟨asked, covered, untold.sent.trans hsent, hasked, hcovered⟩

variable {handshake : Handshake} {packets packets' : Nat → AuthSwitchRequestPacket}

theorem secure_triple (required : opts.ssl_mode.Required) :
    Triple (Silent opts) (secure alloc handshake opts.ssl_mode turns)
      (fun _ s => s.ctx.conn.socket.Secured opts.sslRequest) fun _ => Veiled opts.sslRequest := by
  rw [secure, if_neg required.1]
  split
  · apply Triple.bind
    · apply sslRequest_triple.bind
      intro rc
      cases rc with
      | ok _ => exact .pure fun _ hs => hs.2 rfl
      | error rc => exact (veiled_handleTrilogyError rc).pre fun _ hs => hs.1
    · intro _
      apply upgradeSsl_triple.bind
      intro rc
      cases rc with
      | ok _ => exact .pure fun _ hs => hs.2 rfl
      | error rc => exact (veiled_handleTrilogyError rc).pre fun _ hs => hs.1
  · rw [if_neg required.2]
    exact .throw fun _ hs => .of_silent hs.1

theorem authenticate_triple (required : opts.ssl_mode.Required) :
    Triple (Silent opts) (authenticate alloc digests packets packets' handshake opts.ssl_mode turns)
      (fun _ s => s.ctx.conn.socket.Secured opts.sslRequest) fun _ => Veiled opts.sslRequest := by
  apply (secure_triple required).bind
  intro _
  have login := Triple.of_keeps (@keeps_login alloc digests _ _ _ (sends.callRel alloc) packets
    packets' handshake turns) (P := fun s => s.ctx.conn.socket.Secured opts.sslRequest)
    (F := fun s => s.ctx.conn.socket.Secured opts.sslRequest) fun s t hs hsends => hs.sends hsends
  exact login.mono_raises fun _ _ hs => hs.veiled

end Rb

namespace Opening

variable {alloc : Alloc} {digests : Digests} {opts : SockOpt} {request : List UInt8} {turns : Nat}
  {handshake : Handshake} {packets packets' : Nat → AuthSwitchRequestPacket} {net : Net}
  {world : World} {α : Type}

/-- The object sends nothing, and it is not stored. -/
structure Waits (s s' : Opening) : Prop where
  untold : Untold s.sock s'.sock
  stored : s'.stored = s.stored

instance : Std.Refl Waits := ⟨fun _ => ⟨Std.Refl.refl _, rfl⟩⟩

instance : IsTrans Opening Waits where
  trans _ _ _ h h' := ⟨IsTrans.trans _ _ _ h.untold h'.untold, h'.stored.trans h.stored⟩

theorem waits_apply (a : Applied) : Keeps Waits (apply a) := fun _ => ⟨⟨rfl, rfl⟩, rfl⟩

theorem waits_sockWait (waited : Rb.Waited) : Keeps Waits (sockWait waited) := by
  refine .bind (waits_apply _) fun _ => .bind .get fun s => ?_
  split
  · exact .pure _
  · exact .pure _
  · exact .bind (waits_apply _) fun _ => .bind (.modify fun _ => ⟨⟨rfl, rfl⟩, rfl⟩) fun _ => .throw _
  · exact .pure _

theorem waits_rawConnectInternal (attempt : Attempt) : Keeps Waits (rawConnectInternal attempt) := by
  cases attempt with
  | refused => exact .pure _
  | waits waited error =>
    apply Keeps.bind (waits_sockWait waited)
    intro rc
    cases rc with
    | error _ => exact .pure _
    | ok _ => exact .pure _

theorem waits_rawConnect (attempts : List Attempt) : Keeps Waits (rawConnect attempts) := by
  induction attempts with
  | nil => exact .pure _
  | cons attempt more ih =>
    rw [rawConnect]
    apply Keeps.bind (waits_rawConnectInternal attempt)
    intro rc
    cases rc with
    | ok _ => exact .pure _
    | error _ => exact .ite (fun _ => .pure _) fun _ => ih

theorem waits_sockConnect : Keeps Waits sockConnect :=
  .bind (waits_apply _) fun _ => .bind .get fun s => waits_rawConnect s.attempts

theorem waits_sockResolve : Keeps Waits (sockResolve world) := by
  refine .bind (waits_apply _) fun _ => .get_bind fun s => ?_
  cases s.sock.opts.hostname with
  | some _ =>
    cases world.lookup with
    | none => exact Std.Refl.refl s
    | some _ => exact ⟨⟨rfl, rfl⟩, rfl⟩
  | none =>
    cases s.sock.opts.path with
    | none => exact ⟨⟨rfl, rfl⟩, rfl⟩
    | some path =>
      dsimp only
      split
      · exact ⟨⟨rfl, rfl⟩, rfl⟩
      · exact ⟨⟨rfl, rfl⟩, rfl⟩

/-- Nothing has been sent to a socket with these options. -/
structure Unsent (opts : SockOpt) (s : Opening) : Prop where
  sent : s.sock.sent = []
  opts : s.sock.opts = opts
  stored : s.stored = false

theorem Unsent.waits {s s' : Opening} (h : Unsent opts s) (waits : Waits s s') : Unsent opts s' where
  sent := waits.untold.sent.trans h.sent
  opts := waits.untold.opts.trans h.opts
  stored := waits.stored.trans h.stored

/-- A client that has its connection from here. -/
def Attached (P : Rb → Prop) (s : Opening) : Prop := s.stored = true → P s.client

theorem Unsent.attached {s : Opening} (h : Unsent opts s) (P : Rb → Prop) : Attached P s := by
  intro stored
  rw [h.stored] at stored
  cases stored

theorem onClient_triple {m : Proc Rb.Exit Rb α} {P : Rb → Prop} {Q : α → Rb → Prop}
    {F : Rb → Prop} (hm : Triple P m Q fun _ => F) :
    Triple (Attached P) (onClient m) (fun a => Attached (Q a)) fun _ => Attached F where
  returns := by
    intro s a t hs he stored
    rw [onClient, zoom_apply] at he
    have hr := congrArg Prod.fst he
    obtain rfl := congrArg Prod.snd he
    exact hm.returns (hs stored) (ends hr)
  raises := by
    intro s e t hs he stored
    rw [onClient, zoom_apply] at he
    have hr := congrArg Prod.fst he
    obtain rfl := congrArg Prod.snd he
    exact hm.raises (hs stored) (ends hr)

theorem connectSendSocket_triple :
    Triple (Unsent opts) connectSendSocket
      (fun rc s => rc = .ok () ∧ Attached (Rb.Silent opts) s ∨ Unsent opts s) fun _ => Unsent opts := by
  have connect := Triple.of_keeps waits_sockConnect (P := Unsent opts) (F := Unsent opts)
    fun s t hs hwaits => hs.waits hwaits
  apply connect.bind
  intro rc
  cases rc with
  | error rc => exact .pure fun _ hs => .inr hs
  | ok _ =>
    apply Triple.bind (Q := fun _ => Attached (Rb.Silent opts))
    · exact .modify fun s hs _ => ⟨hs.sent, hs.opts⟩
    · intro _
      exact .pure fun _ hs => .inl ⟨rfl, hs⟩

/-- However it goes, nothing is sent on the way to the handshake. -/
theorem tryConnect_triple :
    Triple (fun _ => True) (tryConnect opts net world alloc handshake turns)
      (fun _ => Attached (Rb.Silent opts)) fun _ => Attached (Rb.Silent opts) := by
  have resolve := Triple.of_keeps (@waits_sockResolve world) (P := Unsent opts)
    (F := Unsent opts) fun s t hs hwaits => hs.waits hwaits
  have closes : ∀ rc : Code, Triple (Unsent opts) (do
      apply .close
      pure (.error rc) : Proc Rb.Exit Opening (Except Code Handshake))
      (fun _ => Attached (Rb.Silent opts)) fun _ => Attached (Rb.Silent opts) := by
    intro rc
    apply Triple.bind (Q := fun _ => Unsent opts)
    · exact .modify fun s hs => ⟨hs.sent, hs.opts, hs.stored⟩
    · intro _
      exact .pure fun _ hs => hs.attached _
  apply Triple.bind (Q := fun _ => Unsent opts)
  · exact .modify fun _ _ => ⟨rfl, rfl, rfl⟩
  intro _
  apply (resolve.mono_raises fun _ _ hs => hs.attached _).bind
  intro rc
  cases rc with
  | error rc => exact closes rc
  | ok _ =>
    apply Triple.bind (Q := fun _ => Unsent opts)
    · exact .modify fun s hs => ⟨hs.sent, hs.opts, hs.stored⟩
    intro _
    apply Triple.bind (Q := fun _ => Unsent opts)
    · exact .modify fun s hs => ⟨hs.sent, hs.opts, hs.stored⟩
    intro _
    apply (connectSendSocket_triple.mono_raises fun _ _ hs => hs.attached _).bind
    intro rc
    cases rc with
    | error rc => exact (closes rc).pre fun _ hs => by simpa using hs
    | ok _ =>
      have recv : Proc.Keeps (OnSock Untold) (Conn.connectRecv alloc handshake) :=
        Conn.keeps_connectRecv (untold_readRel alloc) handshake
      have await := Triple.of_keeps (Rb.keeps_await untold_shutdown recv turns)
        (P := Rb.Silent opts) (F := Rb.Silent opts) fun s t hs untold => hs.untold untold
      apply (onClient_triple await).pre
      rintro s (⟨-, hs⟩ | hs)
      · exact hs
      · exact hs.attached _

theorem rbConnect_triple {options : Rb.Options} {charset : UInt8}
    (required : (options.sockOpt charset).ssl_mode.Required) :
    Triple (fun s => s.stored = false)
      (rbConnect alloc digests options charset net world handshake packets packets' turns)
      (fun _ => Attached fun s => s.ctx.conn.socket.Secured (options.sockOpt charset).sslRequest)
      fun _ => Attached (Rb.Veiled (options.sockOpt charset).sslRequest) := by
  have nobody : ∀ {m : Proc Rb.Exit Rb Unit}, Triple (fun s : Opening => s.stored = false)
      (onClient m) (fun _ s => s.stored = false) fun _ s => s.stored = false :=
    fun {m} => .of_keeps (K := fun s s' => s'.stored = s.stored) (fun _ => rfl)
      fun s t hs same => same.trans hs
  have free : ∀ {P : Rb → Prop} {s : Opening}, s.stored = false → Attached P s := by
    intro P s hs stored
    rw [hs] at stored
    cases stored
  apply (nobody.mono_raises fun _ _ => free).bind
  intro _
  apply (nobody.mono_raises fun _ _ => free).bind
  intro _
  have try_connect := @tryConnect_triple alloc (options.sockOpt charset) turns handshake net world
  apply ((try_connect.pre fun _ _ => trivial).mono_raises fun _ s hs stored =>
    .of_silent (hs stored).1).bind
  intro rc
  cases rc with
  | error rc =>
    apply (onClient_triple (Rb.veiled_handleTrilogyError rc)).pre
    intro s hs stored
    exact .of_silent (hs stored).1
  | ok handshake =>
    apply onClient_triple
    apply (Rb.authenticate_triple required).bind
    intro _
    have release := Triple.of_keeps (Rb.keeps_releaseBuffer (sends.callRel alloc).toReadRel)
      (P := fun s => s.ctx.conn.socket.Secured (options.sockOpt charset).sslRequest)
      (F := fun s => s.ctx.conn.socket.Secured (options.sockOpt charset).sslRequest)
      fun s t hs hsends => hs.sends hsends
    apply (release.mono_raises fun _ _ hs => hs.veiled).bind
    intro _
    exact .pure fun _ hs => hs

theorem onClient_stored {m : Proc Rb.Exit Rb α} {s s' : Opening}
    {r : Except Rb.Exit α} (h : onClient m s = (r, s')) : s'.stored = s.stored := by
  rw [onClient, zoom_apply] at h
  obtain rfl := congrArg Prod.snd h
  rfl

theorem tryConnect_stored {s s' : Opening} {handshake' : Handshake}
    (h : tryConnect opts net world alloc handshake turns s = (.ok (.ok handshake'), s')) :
    s'.stored = true := by
  obtain ⟨_, s₁, -, h⟩ := bind_ok.mp h
  obtain ⟨rc, s₂, -, h⟩ := bind_ok.mp h
  cases rc with
  | error rc =>
    obtain ⟨_, s₃, -, h⟩ := bind_ok.mp h
    cases h
  | ok _ =>
    obtain ⟨_, s₃, -, h⟩ := bind_ok.mp h
    obtain ⟨_, s₄, -, h⟩ := bind_ok.mp h
    obtain ⟨rc, s₅, hsend, h⟩ := bind_ok.mp h
    cases rc with
    | error rc =>
      obtain ⟨_, s₆, -, h⟩ := bind_ok.mp h
      cases h
    | ok _ =>
      obtain ⟨s₆, he, stored⟩ | ⟨rc, s₆, he, -⟩ | ⟨e, s₆, he, -⟩ := connectSendSocket_cases s₄
      · rw [he] at hsend
        cases hsend
        exact (onClient_stored h).trans stored
      · rw [he] at hsend
        cases hsend
      · rw [he] at hsend
        cases hsend

theorem rbConnect_stored {options : Rb.Options} {charset : UInt8} {s s' : Opening}
    {a : Rb.Returned} (h : rbConnect alloc digests options charset net world handshake packets
      packets' turns s = (.ok a, s')) : s'.stored = true := by
  obtain ⟨_, s₁, -, h⟩ := bind_ok.mp h
  obtain ⟨_, s₂, -, h⟩ := bind_ok.mp h
  obtain ⟨rc, s₃, hconnect, h⟩ := bind_ok.mp h
  cases rc with
  | error rc =>
    have hraise := (Rb.handleTrilogyError_triple (P := fun _ => True) (Q := fun _ _ => False)
      (@Rb.keeps_handleTrilogyError alloc _ Rb.Returned _ _ (sends.callRel alloc).toReadRel
        (sends.callRel alloc).shutdown rc) fun _ _ _ _ => trivial).returns
    exact (hraise trivial (ends (s := s₃.client) (congrArg Prod.fst h))).elim
  | ok handshake => exact (onClient_stored h).trans (tryConnect_stored hconnect)

end Opening

namespace Rb

variable {alloc : Alloc}

/-- A client later on: its methods were called, one after another, whatever came of
them, and in between the other clients had the pool. -/
inductive Later (alloc : Alloc) (s : Rb) : Rb → Prop
  | start : Later alloc s s
  | call {t} (later : Later alloc s t) (method : Method) (turns : Nat) (pool : Pool)
      (allocations : Nat) (waits : List Waited) (raises : List Bool) :
      Later alloc s (method.run alloc turns { t with pool, allocations, waits, raises }).2

theorem sends_check : Keeps (OnSock Sends) (Conn.onSocket Sock.check) := by
  have check : Keeps Sends Sock.check := by
    intro sock
    unfold Sock.check
    split
    · exact Std.Refl.refl sock
    · exact sends_of_same rfl id
  exact fun c => check c.socket

theorem Later.secured {request : List UInt8} {s t : Rb} (later : Later alloc s t)
    (h : s.ctx.conn.socket.Secured request) : t.ctx.conn.socket.Secured request := by
  induction later with
  | start => exact h
  | @call t later method turns pool allocations waits raises ih =>
    have hsends := Method.keeps (sends.callRel alloc) sends_check method turns
      { t with pool, allocations, waits, raises }
    exact ih.sends hsends

end Rb

open Opening in
/-- With a mode that requires TLS, whatever the server and the network do, nothing but the
request for TLS goes out without, and neither does anything later on. -/
theorem tls_required {alloc : Alloc} {digests : Digests} {options : Rb.Options} {charset : UInt8}
    {net : Net} {world : World} {handshake : Handshake}
    {packets packets' : Nat → AuthSwitchRequestPacket} {turns : Nat} {s s' : Opening}
    {r : Except Rb.Exit Rb.Returned} (required : (options.sockOpt charset).ssl_mode.Required)
    (unstored : s.stored = false)
    (h : rbConnect alloc digests options charset net world handshake packets packets' turns s =
      (r, s')) :
    (s'.stored = true →
      s'.client.ctx.conn.socket.Veiled (options.sockOpt charset).sslRequest) ∧
    ((∃ a, r = .ok a) → ∀ t, Rb.Later alloc s'.client t →
      t.ctx.conn.socket.Secured (options.sockOpt charset).sslRequest) := by
  have connect := @rbConnect_triple alloc digests turns handshake packets packets' net world options
    charset required
  cases r with
  | error e =>
    refine ⟨connect.raises unstored h, ?_⟩
    rintro ⟨a, ha⟩
    cases ha
  | ok a =>
    have secured := connect.returns unstored h (rbConnect_stored h)
    exact ⟨fun _ => secured.veiled, fun _ t later => later.secured secured⟩

def exampleOptions : Rb.Options where
  host := some (literal "db.test")
  socket := none
  username := some (literal "app")
  password := some (literal "secret")
  database := none
  ssl_mode := some .verifyIdentity
  max_allowed_packet := none
  enable_cleartext_plugin := false
  found_rows := false
  multi_result := none
  multi_statement := false

/-- A server that has TLS, and takes the client. -/
def exampleTlsNet : Net :=
  willingNet [.data (header helloBytes.length 0 ++ helloBytes)] [.data 7 [0, 0, 3, 0, 0, 0, 2, 0, 0, 0]]

open Opening in
theorem tls_required_example :
    let m := rbConnect (fun _ => true) noDigests exampleOptions 45 exampleTlsNet
      ⟨some [.waits .ready false], .refused⟩ default default default 0
    (m unconnected).1 = .ok .nil ∧
      ∀ t, Rb.Later (fun _ => true) (m unconnected).2.client t →
        t.ctx.conn.socket.Secured (exampleOptions.sockOpt 45).sslRequest := by
  intro m
  have hrun : (m unconnected).1 = .ok .nil := by decide +kernel
  have required : (exampleOptions.sockOpt 45).ssl_mode.Required := by
    constructor <;> decide
  exact ⟨hrun, (tls_required required rfl (ends hrun)).2 ⟨_, rfl⟩⟩

end Trilogy
