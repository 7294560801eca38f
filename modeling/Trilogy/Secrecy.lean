import Trilogy.Replies

namespace Trilogy

open Lib Proc

namespace Sock

/-- The password does not matter to a socket: it is one of the options. -/
def OtherPassword (sock sock' : Sock) : Prop :=
  ∃ password, sock' = { sock with opts := { sock.opts with password } }

theorem blind_read (n : Nat) : Blind OtherPassword (Sock.read n) := by
  rintro ⟨opts, addr, io, net, received, sent⟩ _ ⟨password, rfl⟩
  unfold Sock.read Sock.rawRead Sock.sslRead
  cases io with
  | raw => dsimp only; split <;> exact ⟨.rfl, password, rfl⟩
  | ssl => dsimp only; split <;> exact ⟨.rfl, password, rfl⟩
  | shutdown => exact ⟨.rfl, password, rfl⟩

theorem blind_write (data : List UInt8) (nwrite : Nat) :
    Blind OtherPassword (Sock.write data nwrite) := by
  rintro ⟨opts, addr, io, net, received, sent⟩ _ ⟨password, rfl⟩
  unfold Sock.write Sock.rawWrite Sock.sslWrite
  cases io with
  | raw => dsimp only; split <;> exact ⟨.rfl, password, rfl⟩
  | ssl => dsimp only; split <;> exact ⟨.rfl, password, rfl⟩
  | shutdown => exact ⟨.rfl, password, rfl⟩

theorem blind_wait : Blind OtherPassword Sock.wait := by
  rintro ⟨opts, addr, io, net, received, sent⟩ _ ⟨password, rfl⟩
  unfold Sock.wait
  cases io with
  | raw | ssl => dsimp only; split <;> exact ⟨.rfl, password, rfl⟩
  | shutdown => exact ⟨.rfl, password, rfl⟩

theorem blind_setup : Blind OtherPassword Sock.setup := by
  rintro sock _ ⟨password, rfl⟩
  unfold Sock.setup
  dsimp only
  split <;> exact ⟨.rfl, password, rfl⟩

theorem blind_sslConnect (results : List SslConnect) :
    Blind OtherPassword (Sock.sslConnect results) := by
  induction results with
  | nil => exact .throw _
  | cons result more ih =>
    refine .bind (.modify ?_) fun _ => ?_
    · rintro sock _ ⟨password, rfl⟩
      exact ⟨password, rfl⟩
    · cases result with
      | done => exact .pure _
      | failed e =>
        cases e with
        | wantRead | wantWrite =>
          refine .bind (.attempt blind_wait) fun rc => ?_
          cases rc with
          | ok _ => exact ih
          | error _ => exact .throw _
        | zeroReturn | syscall _ _ | other => exact .throw _

theorem blind_upgradeSsl : Blind OtherPassword Sock.upgradeSsl := by
  apply Blind.bind blind_setup
  intro _
  apply Blind.get_bind
  · rintro sock _ ⟨password, rfl⟩
    rfl
  · intro sock
    refine .ite (fun _ => .throw _) fun _ => .ite (fun _ => .throw _) fun _ => ?_
    refine .bind (blind_sslConnect _) fun _ => .modify ?_
    rintro sock _ ⟨password, rfl⟩
    exact ⟨password, rfl⟩

end Sock

namespace Conn

/-- Connections that are equal but for the password. -/
def OtherPassword (c c' : Conn) : Prop :=
  ∃ password, c' = { c with socket :=
    { c.socket with opts := { c.socket.opts with password } } }

variable {alloc : Alloc} {digests : Digests} {c c' : Conn}

theorem otherPassword_eq : OtherPassword = Beside Sock.OtherPassword := by
  funext c c'
  apply propext
  constructor
  · rintro ⟨password, rfl⟩
    exact ⟨_, ⟨password, rfl⟩, rfl⟩
  · rintro ⟨_, ⟨password, rfl⟩, rfl⟩
    exact ⟨password, rfl⟩

theorem secret_onSocket {α : Type} {m : Proc Code Sock α} (hm : Blind Sock.OtherPassword m) :
    Blind OtherPassword (onSocket m) := by
  rw [otherPassword_eq]
  exact beside_onSocket hm

/-- A part that depends on the connection, but not on the password. -/
theorem secret_get {α : Type} {g : Conn → Proc Code Conn α}
    (same : ∀ (c : Conn) password,
      g { c with socket := { c.socket with opts := { c.socket.opts with password } } } = g c)
    (h : ∀ c, Blind OtherPassword (g c)) : Blind OtherPassword (get >>= g) := by
  apply Blind.get_bind
  · rintro c _ ⟨password, rfl⟩
    exact same c password
  · exact h

theorem secret_readPacket (alloc : Alloc) : Blind OtherPassword (readPacket alloc) := by
  rw [otherPassword_eq]
  exact beside_readPacket Sock.blind_read

theorem secret_handleGenericResponse : Blind OtherPassword handleGenericResponse := by
  rw [otherPassword_eq]
  exact replies_handleGenericResponse.blind _

theorem secret_readAuthSwitchPacket (packet : AuthSwitchRequestPacket) (handshake : Handshake) :
    Blind OtherPassword (readAuthSwitchPacket packet handshake) := by
  rw [otherPassword_eq]
  exact (replies_readAuthSwitchPacket packet handshake).blind _

theorem secret_flushWrites : Blind OtherPassword flushWrites := by
  rw [otherPassword_eq]
  exact beside_flushWrites Sock.blind_write

theorem secret_connectRecv (alloc : Alloc) (handshake : Handshake) :
    Blind OtherPassword (connectRecv alloc handshake) := by
  rw [otherPassword_eq]
  exact beside_connectRecv Sock.blind_read handshake

theorem secret_awaitPacket (turns : Nat) : Blind OtherPassword (awaitPacket alloc turns) := by
  rw [otherPassword_eq]
  exact beside_awaitPacket Sock.blind_read Sock.blind_wait turns

theorem secret_sslRequestSend (alloc : Alloc) : Blind OtherPassword (sslRequestSend alloc) := by
  apply secret_get (fun _ _ => rfl)
  intro conn
  have begin : Blind OtherPassword (beginCommandPhase alloc conn.packetParser.sequence_number) := by
    rw [otherPassword_eq]
    apply beside_beginCommandPhase
    rintro sock _ ⟨password, rfl⟩
    rfl
  apply Blind.bind begin
  intro builder
  apply Blind.bind
  · apply Blind.modify
    rintro c _ ⟨password, rfl⟩
    exact ⟨password, rfl⟩
  · intro _
    apply secret_get (fun _ _ => rfl)
    intro conn
    rw [otherPassword_eq]
    exact .bind (beside_build _ _) fun _ => beside_beginWrite Sock.blind_write

theorem secret_authClearPassword : Blind OtherPassword authClearPassword := by
  rintro c _ ⟨password, rfl⟩
  exact ⟨.rfl, List.replicate password.length 0, rfl⟩

theorem secret_clearedResponse : Blind OtherPassword (do
    authClearPassword
    handleGenericResponse
    pure none : Proc Code Conn (Option Handshake)) :=
  .bind secret_authClearPassword fun _ => .bind secret_handleGenericResponse fun _ => .pure _

/-- But for the fast authentication that asks for the password itself. -/
theorem secret_authReply (packet : AuthSwitchRequestPacket) (handshake : Handshake)
    {type byte : UInt8} {conn : Conn}
    (harmless : type = Packet.authMoreData → conn.socket.opts.LooksProtected → byte ≠ 4) :
    Blind OtherPassword (authReply alloc packet handshake type byte conn) := by
  refine .ite (fun htype => ?_) fun _ => .ite (fun _ => ?_) fun _ => secret_clearedResponse
  · refine .ite (fun _ => .throw _) fun hlook => ?_
    have looks : conn.socket.opts.LooksProtected := by
      simpa [SockOpt.LooksProtected, Option.isSome_iff_ne_none, or_iff_not_imp_left] using hlook
    refine .bind (.ite (fun _ => .pure _) fun _ => ?_) fun _ => ?_
    · exact .ite (fun hbyte => absurd hbyte (harmless htype looks)) fun _ => .throw _
    · refine secret_get (fun _ _ => rfl) fun _ => .bind (secret_awaitPacket _) fun _ => ?_
      exact secret_clearedResponse
  · exact .bind (secret_readAuthSwitchPacket packet handshake) fun _ => .pure _

theorem secret_authRecv (packet : AuthSwitchRequestPacket) (handshake : Handshake)
    (harmless : ∀ c₁, ¬ BuildsFrom alloc c (.call (.authRecv packet handshake)) c₁)
    (hc : OtherPassword c c') :
    SameEnd Eq (authRecv alloc packet handshake c).1 (authRecv alloc packet handshake c').1 ∧
      OtherPassword (authRecv alloc packet handshake c).2
        (authRecv alloc packet handshake c').2 := by
  apply Alike.bind_at (secret_readPacket alloc) hc
  intro _ _ c₁ c₁' hread _ hc₁
  have hreply : Blind OtherPassword (authReply alloc packet handshake c₁.currentPacketType
      (c₁.packet_buffer.byteAt 1) c₁) := by
    apply secret_authReply
    intro htype looks hbyte
    exact harmless c₁ (.clearPassword packet handshake hread htype looks hbyte)
  have hafter := hreply c₁ c₁' hc₁
  obtain ⟨password, rfl⟩ := hc₁
  exact hafter

end Conn

section

open Conn

variable {alloc : Alloc} {digests : Digests} {c c' c₁ : Conn} {step : Step}
  {trace : List (Conn × Step × Conn)}

/-- A step that builds nothing from the password. -/
theorem step_secret (digests : Digests) (kind : step.Authenticates)
    (harmless : ∀ c₁, ¬ BuildsFrom alloc c step c₁) (hc : OtherPassword c c') :
    (step.run alloc digests c').1 = (step.run alloc digests c).1 ∧
      OtherPassword (step.run alloc digests c).2 (step.run alloc digests c').2 := by
  have ended : ∀ {m : Proc Code Conn Decoded}, Blind OtherPassword m →
      (m c').1 = (m c).1 ∧ OtherPassword (m c).2 (m c').2 :=
    fun hm => ⟨(hm c c' hc).1.eq.symm, (hm c c' hc).2⟩
  have done : ∀ {m : Proc Code Conn Unit}, Blind OtherPassword m →
      Blind OtherPassword (do m; pure Decoded.done) := fun hm => .bind hm fun _ => .pure _
  cases step with
  | wait => exact ended (done (secret_onSocket Sock.blind_wait))
  | upgradeSsl => exact ended (done (secret_onSocket Sock.blind_upgradeSsl))
  | call fn =>
    cases fn with
    | flushWrites => exact ended (done secret_flushWrites)
    | sslRequestSend => exact ended (done (secret_sslRequestSend alloc))
    | connectRecv handshake =>
      apply ended
      rw [Step.run, Call.run, map_eq_pure_bind]
      exact .bind (secret_connectRecv alloc handshake) fun _ => .pure _
    | authRecv packet handshake =>
      obtain ⟨hend, hafter⟩ := secret_authRecv packet handshake harmless hc
      simp only [Step.run, Call.run, map_apply, hend.eq]
      exact ⟨trivial, hafter⟩
    | authSend handshake => exact absurd (.authSend handshake) (harmless c)
    | authSwitchSend handshake => exact absurd (.authSwitchSend handshake) (harmless c)
    | _ => exact absurd kind id

/-- Until a packet is built from it, the password is nowhere but in the options. -/
theorem session_secret (session : Session alloc digests (fun _ => Step.Authenticates) c trace c₁)
    (harmless : ∀ e ∈ trace, ∀ c₂, ¬ BuildsFrom alloc e.1 e.2.1 c₂) (hc : OtherPassword c c') :
    ∃ trace' c₁', Session alloc digests (fun _ => Step.Authenticates) c' trace' c₁' ∧
      trace'.map (·.2.1) = trace.map (·.2.1) ∧ OtherPassword c₁ c₁' := by
  induction session generalizing c' with
  | nil c => exact ⟨[], c', .nil c', rfl, hc⟩
  | @cons c step r c₁ trace c₂ kind h rest ih =>
    obtain ⟨hstep, hmore⟩ := List.forall_mem_cons.mp harmless
    have hafter := (step_secret digests kind hstep hc).2
    rw [h] at hafter
    obtain ⟨trace', c₂', session, hsteps, hc₂⟩ := ih hmore hafter
    refine ⟨_, c₂', .cons kind rfl session, ?_, hc₂⟩
    rw [List.map_cons, List.map_cons, hsteps]

end

end Trilogy
