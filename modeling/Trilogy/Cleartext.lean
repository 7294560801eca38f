import Trilogy.Blocking
import Trilogy.Upgrade

/-! `authRecv` answers a server that asks for the password itself, on a channel that
it takes for protected: the options have the SSL flag, or a path. What protects
the channel is an upgrade, or an address that is a path; a host name has
precedence over a path, and nothing but the user calls for the upgrade. -/
namespace Trilogy

open Lib Proc

/-- Between the two the socket took `data`, with TLS unless it is a plain one. -/
structure Sending (sock sock' : Sock) (data : List (Channel × List UInt8)) : Prop where
  sent : sock'.sent = sock.sent ++ data
  covered : sock.io ≠ .raw → sock'.io ≠ .raw ∧ ∀ d ∈ data, d.1 = .tls

def Sends (sock sock' : Sock) : Prop := ∃ data, Sending sock sock' data

instance : Std.Refl Sends := ⟨fun _ => ⟨[], by simp, fun h => ⟨h, by simp⟩⟩⟩

instance : IsTrans Sock Sends where
  trans := by
    rintro a b c ⟨data, hsent, hcovered⟩ ⟨data', hsent', hcovered'⟩
    refine ⟨data ++ data', by rw [hsent', hsent, List.append_assoc], ?_⟩
    intro covered
    obtain ⟨hb, hdata⟩ := hcovered covered
    obtain ⟨hc, hdata'⟩ := hcovered' hb
    exact ⟨hc, fun d hmem => (List.mem_append.mp hmem).elim (hdata d) (hdata' d)⟩

theorem sends_of_same {sock sock' : Sock} (sent : sock'.sent = sock.sent)
    (io : sock.io ≠ .raw → sock'.io ≠ .raw) : Sends sock sock' :=
  ⟨[], by rw [sent, List.append_nil], fun covered => ⟨io covered, by simp⟩⟩

theorem sends_write (data : List UInt8) (nwrite : Nat) :
    Keeps Sends (Sock.write data nwrite) := by
  intro sock
  unfold Sock.write
  cases hio : sock.io with
  | raw =>
    simp only [Sock.rawWrite]
    split
    · exact Std.Refl.refl sock
    · exact sends_of_same rfl fun covered => absurd hio covered
    · exact ⟨_, rfl, fun covered => absurd hio covered⟩
  | ssl =>
    simp only [Sock.sslWrite]
    split
    · exact Std.Refl.refl sock
    · exact sends_of_same rfl id
    · exact ⟨_, rfl, fun covered => ⟨covered, by simp⟩⟩
  | shutdown => exact Std.Refl.refl sock

theorem sockRead_sent (n : Nat) (sock : Sock) : (Sock.read n sock).2.sent = sock.sent := by
  unfold Sock.read Sock.rawRead Sock.sslRead
  split
  · split <;> rfl
  · split <;> rfl
  · rfl

theorem sends : SockRel Sends where
  read n sock := by
    have hsent := sockRead_sent n sock
    have hio := (sockRead_received (ends (m := Sock.read n) (s := sock) rfl)).1
    exact sends_of_same hsent fun covered => hio ▸ covered
  write := sends_write
  wait sock := by
    unfold Sock.wait
    split
    · exact Std.Refl.refl sock
    · split
      · exact Std.Refl.refl sock
      · exact sends_of_same rfl id
  shutdown _ := sends_of_same rfl fun _ => by rintro ⟨⟩
  password _ _ := sends_of_same rfl id

theorem keeps_sockWait {P : Sock → Sock → Prop}
    (h : ∀ sock sock', sock'.opts = sock.opts → sock'.addr = sock.addr → P sock sock') :
    Keeps P Sock.wait := by
  intro sock
  unfold Sock.wait
  split
  · exact h _ _ rfl rfl
  · split <;> exact h _ _ rfl rfl

theorem keeps_sockRead {P : Sock → Sock → Prop}
    (h : ∀ sock sock', sock'.opts = sock.opts → sock'.addr = sock.addr → P sock sock') (n : Nat) :
    Keeps P (Sock.read n) := by
  intro sock
  unfold Sock.read Sock.rawRead Sock.sslRead
  split
  · split <;> exact h _ _ rfl rfl
  · split <;> exact h _ _ rfl rfl
  · exact h _ _ rfl rfl

theorem keeps_sockWrite {P : Sock → Sock → Prop}
    (h : ∀ sock sock', sock'.opts = sock.opts → sock'.addr = sock.addr → P sock sock')
    (data : List UInt8) (nwrite : Nat) : Keeps P (Sock.write data nwrite) := by
  intro sock
  unfold Sock.write Sock.rawWrite Sock.sslWrite
  split
  · split <;> exact h _ _ rfl rfl
  · split <;> exact h _ _ rfl rfl
  · exact h _ _ rfl rfl

/-- Apart from the password no operation of the socket changes its options, or
what it is connected to. -/
theorem sockRel_of_opts {P : Sock → Sock → Prop}
    (h : ∀ sock sock', sock'.opts = sock.opts → sock'.addr = sock.addr → P sock sock')
    (password : ∀ sock password, P sock { sock with opts := { sock.opts with password } }) :
    SockRel P where
  read := keeps_sockRead h
  write := keeps_sockWrite h
  wait := keeps_sockWait h
  shutdown _ := h _ _ rfl rfl
  password := password

section

variable {P : Sock → Sock → Prop} [Std.Refl P] [IsTrans Sock P]

theorem keeps_sslConnect
    (h : ∀ sock sock', sock'.opts = sock.opts → sock'.addr = sock.addr → P sock sock')
    (results : List SslConnect) : Keeps P (Sock.sslConnect results) := by
  induction results with
  | nil => exact .throw _
  | cons result more ih =>
    refine .bind (.modify fun _ => h _ _ rfl rfl) fun _ => ?_
    cases result with
    | done => exact .pure _
    | failed e =>
      cases e with
      | wantRead | wantWrite =>
        refine .bind (.attempt (keeps_sockWait h)) fun rc => ?_
        cases rc with
        | ok _ => exact ih
        | error _ => exact .throw _
      | zeroReturn | syscall _ _ | other => exact .throw _

theorem keeps_upgradeSsl
    (h : ∀ sock sock', sock'.opts = sock.opts → sock'.addr = sock.addr → P sock sock') :
    Keeps P Sock.upgradeSsl := by
  have hsetup : Keeps P Sock.setup := by
    intro sock
    unfold Sock.setup
    split <;> exact h _ _ rfl rfl
  exact .bind hsetup fun _ => .bind .get fun _ => .ite (fun _ => .throw _) fun _ =>
    .ite (fun _ => .throw _) fun _ => .bind (keeps_sslConnect h _) fun _ =>
    .modify fun _ => h _ _ rfl rfl

end

structure SamePlace (sock sock' : Sock) : Prop where
  hostname : sock'.opts.hostname = sock.opts.hostname
  addr : sock'.addr = sock.addr

instance : Std.Refl SamePlace := ⟨fun _ => ⟨rfl, rfl⟩⟩

instance : IsTrans Sock SamePlace where
  trans _ _ _ h h' := ⟨h'.hostname.trans h.hostname, h'.addr.trans h.addr⟩

theorem SamePlace.of_opts (sock sock' : Sock) (opts : sock'.opts = sock.opts)
    (addr : sock'.addr = sock.addr) : SamePlace sock sock' :=
  ⟨by rw [opts], addr⟩

theorem samePlace : SockRel SamePlace :=
  sockRel_of_opts SamePlace.of_opts fun _ _ => ⟨rfl, rfl⟩

theorem samePlace_upgradeSsl : Keeps SamePlace Sock.upgradeSsl :=
  keeps_upgradeSsl SamePlace.of_opts

/-- Without a host name the socket is connected to a path. -/
def Placed (c : Conn) : Prop :=
  c.socket.opts.hostname = none → ∃ path, c.socket.addr = some (.unix path)

theorem sockConnect_state (sock : Sock) : (Sock.connect sock).2 = sock := by
  rw [Sock.connect, get_bind]
  cases sock.io with
  | shutdown => rfl
  | raw | ssl =>
    rcases sock.addr with _ | ⟨connects | path⟩
    · rfl
    · simp only
      cases Sock.connectFirst connects with
      | ok _ => rfl
      | error rc => rfl
    · simp only
      split <;> rfl

theorem resolve_placed {opts : SockOpt} {net : Net} {sock : Sock}
    (h : Sock.resolve (Sock.new opts net) = (.ok (), sock)) :
    sock.opts = opts ∧ sock.io = .raw ∧
      (opts.hostname = none → ∃ path, sock.addr = some (.unix path)) := by
  rw [Sock.resolve, get_bind] at h
  simp only [Sock.new] at h
  cases hhost : opts.hostname with
  | some host =>
    simp only [hhost] at h
    cases hlookup : net.lookup with
    | none =>
      simp only [hlookup] at h
      cases h
    | some connects =>
      simp only [hlookup] at h
      cases h
      exact ⟨rfl, rfl, by rintro ⟨⟩⟩
  | none =>
    cases hpath : opts.path with
    | some path =>
      simp only [hhost, hpath] at h
      by_cases hlong : path.length + 1 > Sock.sunPathSize
      · rw [if_pos hlong] at h
        cases h
      · rw [if_neg hlong] at h
        cases h
        exact ⟨rfl, rfl, fun _ => ⟨path, rfl⟩⟩
    | none =>
      simp only [hhost, hpath] at h
      cases h

theorem connectSend_placed {opts : SockOpt} {net : Net} {c c' : Conn}
    (h : Conn.connectSend opts net c = (.ok (), c')) :
    c'.socket.opts = opts ∧ Placed c' := by
  unfold Conn.connectSend at h
  rcases hresolve : Sock.resolve (Sock.new opts net) with ⟨rc | _, sock⟩
  · rw [hresolve] at h
    cases h
  · rw [hresolve] at h
    obtain ⟨hopts, -, hplaced⟩ := resolve_placed hresolve
    unfold Conn.connectSendSocket at h
    have hstate := sockConnect_state sock
    rcases hconnect : Sock.connect sock with ⟨rc | _, sock'⟩
    · simp only [hconnect] at h
      cases h
    · simp only [hconnect] at h hstate
      cases h
      subst hstate
      exact ⟨hopts, by rw [Placed, hopts]; exact hplaced⟩

/-- What `authRecv` takes for a protected channel. -/
def SockOpt.LooksProtected (opts : SockOpt) : Prop :=
  has opts.flags Capabilities.ssl ∨ opts.path.isSome

/-- Without an upgrade the channel is protected, or does not look so. -/
def SockOpt.Honest (opts : SockOpt) : Prop := opts.hostname = none ∨ ¬ opts.LooksProtected

namespace Conn

/-- The options that decide how the channel looks. -/
structure SameLook (sock sock' : Sock) : Prop where
  hostname : sock'.opts.hostname = sock.opts.hostname
  flags : sock'.opts.flags = sock.opts.flags
  path : sock'.opts.path = sock.opts.path

instance : Std.Refl SameLook := ⟨fun _ => ⟨rfl, rfl, rfl⟩⟩

instance : IsTrans Sock SameLook where
  trans _ _ _ h h' :=
    ⟨h'.hostname.trans h.hostname, h'.flags.trans h.flags, h'.path.trans h.path⟩

theorem sameLook : SockRel SameLook :=
  sockRel_of_opts (fun _ _ opts _ => ⟨by rw [opts], by rw [opts], by rw [opts]⟩)
    fun _ _ => ⟨rfl, rfl, rfl⟩

/-- Nothing was sent. -/
def Quiet (c c' : Conn) : Prop := c'.socket.sent = c.socket.sent

instance : Std.Refl Quiet := ⟨fun _ => rfl⟩

instance : IsTrans Conn Quiet where
  trans _ _ _ h h' := Eq.trans h' h

theorem quiet_readRel (alloc : Alloc) : ReadRel alloc Quiet where
  refill := .bind .get fun _ => .ite
    (fun _ => .bind (fun c => sockRead_sent defaultBufSize c.socket) fun _ =>
      .ite (fun _ => .throw _) fun _ => .modify fun _ => rfl)
    fun _ => .pure _
  execute c := by
    unfold execute
    simp only
    split
    · rfl
    · split <;> rfl
  same c c' h := by rw [Quiet, h.socket]

theorem authRecv_unprotected {alloc : Alloc} {packet : AuthSwitchRequestPacket}
    {handshake : Handshake} {c : Conn} (h : ¬ c.socket.opts.LooksProtected) :
    Quiet c (authRecv alloc packet handshake c).2 := by
  have hrel := quiet_readRel alloc
  have hquiet := keeps_readPacket hrel c
  have hlook := keeps_readPacket (sameLook.callRel alloc).toReadRel c
  rw [authRecv]
  rcases e : readPacket alloc c with ⟨rc | _, c₁⟩
  · rw [e] at hquiet
    rw [bind_of_error e]
    exact hquiet
  · rw [e] at hquiet hlook
    rw [bind_of_ok e, get_bind]
    apply IsTrans.trans _ _ _ hquiet
    have hplain : ¬ c₁.socket.opts.LooksProtected := by
      rw [SockOpt.LooksProtected, hlook.flags, hlook.path]
      exact h
    by_cases hmore : c₁.currentPacketType = Packet.authMoreData
    · rw [if_pos hmore]
      simp only [SockOpt.LooksProtected, not_or] at hplain
      simp [hplain, Quiet]
    · rw [if_neg hmore]
      by_cases heof : c₁.currentPacketType = Packet.eof
      · rw [if_pos heof]
        have hswitch : Keeps Quiet (do
            let handshake ← readAuthSwitchPacket packet handshake
            pure (some handshake)) := .bind (hrel.noted (noted_readAuthSwitchPacket _ _)) fun _ => .pure _
        exact hswitch c₁
      · rw [if_neg heof]
        have hgeneric : Keeps Quiet (do
            authClearPassword
            handleGenericResponse
            pure none : Proc Code Conn (Option Handshake)) :=
          .bind (fun _ => rfl) fun _ => .bind (hrel.noted noted_handleGenericResponse) fun _ => .pure _
        exact hgeneric c₁

end Conn

/-- What was sent in between was sent with TLS, unless the socket is connected to
a path. -/
def Concealed (c c' : Conn) : Prop :=
  ∃ data, c'.socket.sent = c.socket.sent ++ data ∧
    ∀ d ∈ data, d.1 = .tls ∨ ∃ path, c.socket.addr = some (.unix path)

/-- The channel is protected, or does not look so. -/
def Guarded (c : Conn) : Prop := c.socket.io ≠ .raw ∨ c.socket.opts.Honest

theorem authRecv_concealed {alloc : Alloc} {packet : AuthSwitchRequestPacket}
    {handshake : Handshake} {c : Conn} (placed : Placed c) (guarded : Guarded c) :
    Concealed c (Conn.authRecv alloc packet handshake c).2 := by
  obtain ⟨data, hsent, hcovered⟩ := Conn.keeps_authRecv (sends.callRel alloc) packet handshake c
  rcases guarded with hio | hhost | hplain
  · exact ⟨data, hsent, fun d hmem => .inl ((hcovered hio).2 d hmem)⟩
  · exact ⟨data, hsent, fun _ _ => .inr (placed hhost)⟩
  · exact ⟨[], (Conn.authRecv_unprotected hplain).trans (List.append_nil _).symm, by simp⟩

def Step.ReceivesAuth : Step → Prop
  | .call (.authRecv _ _) => True
  | _ => False

/-- No step attaches another socket, and `authRecv` is called where the channel
is what it looks like. -/
def Careful (c : Conn) (step : Step) : Prop :=
  ¬ step.Attaches ∧ (step.ReceivesAuth → Guarded c)

theorem Placed.of_samePlace {c c' : Conn} (placed : Placed c)
    (same : SamePlace c.socket c'.socket) : Placed c' := by
  rw [Placed, same.hostname, same.addr]
  exact placed

theorem session_concealed {alloc : Alloc} {digests : Digests} {c c' : Conn}
    {trace : List (Conn × Step × Conn)} (placed : Placed c)
    (session : Session alloc digests Careful c trace c') :
    ∀ e ∈ trace, e.2.1.ReceivesAuth → Concealed e.1 e.2.2 := by
  induction session with
  | nil c => simp
  | @cons c step r c₁ trace c₂ ok h rest ih =>
    have hsame : OnSock SamePlace c (step.run alloc digests c).2 :=
      Step.keeps (samePlace.callRel alloc) ok.1
        (fun _ _ _ => ⟨rfl, rfl⟩) (fun _ c => samePlace_upgradeSsl c.socket) c
    rw [h] at hsame
    refine List.forall_mem_cons.mpr ⟨?_, ih (placed.of_samePlace hsame)⟩
    · intro hauth
      cases step with
      | call fn =>
        cases fn with
        | authRecv packet handshake =>
          have hstate : c₁ = (Conn.authRecv alloc packet handshake c).2 :=
            (congrArg Prod.snd h).symm.trans (map_state _ _ c)
          subst hstate
          exact authRecv_concealed placed (ok.2 hauth)
        | _ => exact absurd hauth id
      | upgradeSsl | wait => exact absurd hauth id

/-- Without TLS nothing changes how the channel looks. -/
theorem session_careful {alloc : Alloc} {digests : Digests} {c c' : Conn}
    {trace : List (Conn × Step × Conn)} (honest : c.socket.opts.Honest)
    (session : Session alloc digests (fun _ step => step.Handshakes) c trace c') :
    Session alloc digests Careful c trace c' := by
  induction session with
  | nil c => exact .nil c
  | @cons c step r c₁ trace c₂ ok h rest ih =>
    have hattach : ¬ step.Attaches := by
      cases step with
      | call fn =>
        cases fn with
        | connectSend _ _ | connectSendSocket _ => exact absurd ok id
        | _ => exact id
      | upgradeSsl | wait => exact id
    have hsame : OnSock Conn.SameLook c (step.run alloc digests c).2 :=
      Step.keeps (Conn.sameLook.callRel alloc) hattach
        (by rintro rfl; exact absurd ok id) (by rintro rfl; exact absurd ok id) c
    rw [h] at hsame
    refine .cons ⟨hattach, fun _ => .inr honest⟩ h (ih ?_)
    rw [SockOpt.Honest, SockOpt.LooksProtected, hsame.hostname, hsame.flags, hsame.path]
    exact honest

/-- However a connection was opened, and whatever the server sends: `authRecv`
sends the password with TLS or to a path, as long as the channel does not merely
look protected when it is called. `connect` has no TLS, so there the options tell. -/
theorem clearPassword_concealed {alloc : Alloc} {digests : Digests} {opts : SockOpt} {net : Net}
    {c c₁ : Conn} (connected : Conn.connectSend opts net c = (.ok (), c₁)) :
    (∀ trace c', Session alloc digests Careful c₁ trace c' →
      ∀ e ∈ trace, e.2.1.ReceivesAuth → Concealed e.1 e.2.2) ∧
    ∀ handshake packets packets', opts.Honest →
      ∃ trace, Session alloc digests (fun _ step => step.Handshakes) c₁ trace
          (Conn.connect alloc digests opts net handshake packets packets' c).2 ∧
        ∀ e ∈ trace, e.2.1.ReceivesAuth → Concealed e.1 e.2.2 := by
  obtain ⟨hopts, placed⟩ := connectSend_placed connected
  constructor
  · intro trace c' session
    exact session_concealed placed session
  · intro handshake packets packets' honest
    obtain ⟨trace, session⟩ : ∃ trace, Session alloc digests (fun _ step => step.Handshakes) c₁
        trace (Conn.connectHandshake alloc digests handshake packets packets' c₁).2 :=
      Conn.plays_connectHandshake handshake packets packets' c₁
    rw [Conn.connect, bind_of_ok connected]
    have careful := session_careful (by rw [hopts]; exact honest) session
    exact ⟨trace, session, session_concealed placed careful⟩

/-- A server that asks for the password, and a handshake response before that. -/
def askingNet : Net :=
  { willingNet [.data (header helloBytes.length 0 ++ helloBytes),
      .data (header 2 2 ++ [1, 4]), .data (header 7 4 ++ [0, 0, 0, 2, 0, 0, 0])] [] with
    lookup := some [true] }

def pathOpts : SockOpt := { idleSock.opts with password := literal "secret" }

theorem clearPassword_concealed_path :
    (Conn.connect (fun _ => true) noDigests pathOpts askingNet default (fun _ => default)
      (fun _ => default) (Conn.init idleSock)).1 = .ok () ∧
    ∃ trace, Session (fun _ => true) noDigests (fun _ step => step.Handshakes)
        (Conn.connectSend pathOpts askingNet (Conn.init idleSock)).2 trace
        (Conn.connect (fun _ => true) noDigests pathOpts askingNet default (fun _ => default)
          (fun _ => default) (Conn.init idleSock)).2 ∧
      ∀ e ∈ trace, e.2.1.ReceivesAuth → Concealed e.1 e.2.2 := by
  refine ⟨by decide +kernel, ?_⟩
  exact (clearPassword_concealed (ends (by decide +kernel))).2 _ _ _ (.inl rfl)

/-- With a host name next to the path the same server gets the password. -/
def namedOpts : SockOpt := { pathOpts with hostname := some (literal "db.example") }

def namedConn : Conn := (Conn.connectSend namedOpts askingNet (Conn.init idleSock)).2

/-- What `connect` does there, up to the request for the password. -/
def namedSteps : List Step := [.call (.connectRecv default), .call (.authSend hello)]

def namedReply : Step := .call (.authRecv default hello)

def askedConn : Conn := (play (fun _ => true) noDigests namedSteps namedConn).2

theorem clearPassword_concealed_fails :
    (Conn.connectSend namedOpts askingNet (Conn.init idleSock)).1 = .ok () ∧
    ∃ trace, Session (fun _ => true) noDigests (fun _ step => step.Handshakes) namedConn trace
        (Conn.connect (fun _ => true) noDigests namedOpts askingNet default (fun _ => default)
          (fun _ => default) (Conn.init idleSock)).2 ∧
      ¬ ∀ e ∈ trace, e.2.1.ReceivesAuth → Concealed e.1 e.2.2 := by
  have hkind : ∀ step ∈ namedSteps ++ [namedReply], step.Handshakes := by
    simp [namedSteps, namedReply, Step.Handshakes]
  have hend : (Conn.connect (fun _ => true) noDigests namedOpts askingNet default
      (fun _ => default) (fun _ => default) (Conn.init idleSock)).2 =
      (play (fun _ => true) noDigests (namedSteps ++ [namedReply]) namedConn).2 := by
    decide +kernel
  refine ⟨by decide +kernel, (play (fun _ => true) noDigests (namedSteps ++ [namedReply])
    namedConn).1, by rw [hend]; exact session_play hkind namedConn, ?_⟩
  intro concealed
  have hmem := mem_play (fun _ => true) noDigests namedSteps [] namedReply namedConn
  obtain ⟨data, hsent, hdata⟩ := concealed _ hmem trivial
  have hplain : (namedReply.run (fun _ => true) noDigests askedConn).2.socket.sent =
      askedConn.socket.sent ++ [(.plain, header 7 3 ++ literal "secret" ++ [0])] := by
    decide +kernel
  have haddr : askedConn.socket.addr = some (.inet [true]) := by decide +kernel
  have hsame := List.append_cancel_left (hplain.symm.trans hsent)
  rcases hdata (.plain, header 7 3 ++ literal "secret" ++ [0]) (by rw [← hsame]; simp) with
    htls | ⟨path, hpath⟩
  · cases htls
  · rw [← askedConn, haddr] at hpath
    cases hpath

end Trilogy
