import Trilogy.Faults
import Trilogy.OwnBytes

/-! `trilogy_auth_recv` sets the password to zeros when the answer of the server has
been read, and keeps it while another packet may have to be made from it. It
returns in other ways as well, and then the password is still there. -/
namespace Trilogy

open Lib Proc

namespace Conn

/-- All `password_len` bytes are zero. -/
def Wiped (c : Conn) : Prop := ∀ b ∈ c.socket.opts.password, b = 0

/-- The way to the two calls of `trilogy_auth_clear_password`. -/
def GetsToClear (alloc : Alloc) (c : Conn) : Prop :=
  ∃ c₁, readPacket alloc c = (.ok (), c₁) ∧ c₁.currentPacketType ≠ Packet.eof ∧
    (c₁.currentPacketType = Packet.authMoreData → c₁.socket.opts.LooksProtected ∧
      ∃ c₂ c₃, FastAuth alloc c₁ c₂ ∧
        awaitPacket alloc (c₂.socket.net.polls.length + 1) c₂ = (.ok (), c₃))

/-- The two ways on which the password is needed again: there is no packet yet, or it
asks for another method that the client has. -/
def StillNeeded (alloc : Alloc) (packet : AuthSwitchRequestPacket) (handshake : Handshake)
    (c : Conn) : Prop :=
  (readPacket alloc c).1 = .error .again ∨
    ∃ c₁ answered, readPacket alloc c = (.ok (), c₁) ∧ c₁.currentPacketType = Packet.eof ∧
      (readAuthSwitchPacket packet handshake c₁).1 = .ok answered

def SamePassword (sock sock' : Sock) : Prop := sock'.opts.password = sock.opts.password

instance : Std.Refl SamePassword := ⟨fun _ => rfl⟩

instance : IsTrans Sock SamePassword where
  trans _ _ _ h h' := Eq.trans h' h

theorem SamePassword.of_opts (sock sock' : Sock) (opts : sock'.opts = sock.opts)
    (_addr : sock'.addr = sock.addr) : SamePassword sock sock' := by
  rw [SamePassword, opts]

variable {alloc : Alloc} {digests : Digests} {c c' : Conn}

theorem samePassword (alloc : Alloc) : WriteRel alloc (OnSock SamePassword) :=
  onSock_writeRel alloc (keeps_sockRead SamePassword.of_opts) (keeps_sockWrite SamePassword.of_opts)
    (keeps_sockWait SamePassword.of_opts)

theorem Wiped.of_same (h : OnSock SamePassword c c') (wiped : c.Wiped) : c'.Wiped := by
  intro b hb
  exact wiped b (h ▸ hb)

theorem wiped_authClearPassword (c : Conn) : (authClearPassword c).2.Wiped := by
  intro b hb
  exact List.eq_of_mem_replicate hb

theorem fails_parsePacket {α : Type} {m : Proc Code Reader α}
    (hm : Cursor.Raises Reader.Malformed m) : Fails (· ≠ Code.again) (parsePacket m) := by
  intro c rc c' h
  have hparse : parse m c.packet_buffer.bytes = .error rc := congrArg Prod.fst h
  exact (parse_error hm hparse).1

theorem fails_handleGenericResponse : Fails (· ≠ Code.again) handleGenericResponse := by
  refine .bind .get fun conn => .ite (fun _ => ?_) fun _ => .ite (fun _ => ?_) fun _ =>
    .throw (by decide)
  · refine .bind .get fun _ => .bind (fails_parsePacket (raises_parseOkPacket _)) fun _ => ?_
    refine .bind (.ite (fun _ => .modify _) fun _ => .pure _) fun _ => .bind (.modify _) fun _ => ?_
    exact .ite (fun _ => .modify _) fun _ => .pure _
  · exact .bind .get fun _ => .bind (fails_parsePacket (raises_parseErrPacket _)) fun _ =>
      .bind (.modify _) fun _ => .throw (by decide)

theorem fails_readAuthSwitchPacket (packet : AuthSwitchRequestPacket) (handshake : Handshake) :
    Fails (· ≠ Code.again) (readAuthSwitchPacket packet handshake) :=
  .bind .get fun _ => .bind (fails_parsePacket (raises_parseAuthSwitchRequestPacket _ _)) fun _ =>
    .ite (fun _ => .throw (by decide)) fun _ => .pure _

/-- What a call returns when the password is needed again. -/
def AsksAgain (r : Except Code (Option Handshake)) : Prop :=
  r = .error .again ∨ ∃ handshake, r = .ok (some handshake)

/-- The end of it, from one of the two calls on. -/
theorem clearedResponse_ends (c : Conn) : ∃ r c',
    (do
      authClearPassword
      handleGenericResponse
      pure none : Proc Code Conn (Option Handshake)) c = (r, c') ∧ c'.Wiped ∧ ¬ AsksAgain r := by
  generalize hcleared : (authClearPassword c).2 = c₁
  have hrun : authClearPassword c = (.ok (), c₁) := by rw [← hcleared]; rfl
  have hwiped : c₁.Wiped := hcleared ▸ wiped_authClearPassword c
  have hsame := (samePassword fun _ => true).toReadRel.noted noted_handleGenericResponse c₁
  rw [bind_of_ok hrun]
  rcases e : handleGenericResponse c₁ with ⟨rc | _, c₂⟩
  · rw [e] at hsame
    refine ⟨.error rc, c₂, bind_of_error e, hwiped.of_same hsame, ?_⟩
    rintro (h | ⟨_, h⟩)
    · cases h
      exact fails_handleGenericResponse e rfl
    · cases h
  · rw [e] at hsame
    refine ⟨.ok none, c₂, bind_of_ok e, hwiped.of_same hsame, ?_⟩
    rintro (h | ⟨_, h⟩) <;> cases h

section

variable {packet : AuthSwitchRequestPacket} {handshake : Handshake} {c₁ : Conn}

theorem getsToClear_iff (hread : readPacket alloc c = (.ok (), c₁)) :
    GetsToClear alloc c ↔ c₁.currentPacketType ≠ Packet.eof ∧
      (c₁.currentPacketType = Packet.authMoreData → c₁.socket.opts.LooksProtected ∧
        ∃ c₂ c₃, FastAuth alloc c₁ c₂ ∧
          awaitPacket alloc (c₂.socket.net.polls.length + 1) c₂ = (.ok (), c₃)) := by
  constructor
  · rintro ⟨c₁', hread', h⟩
    rw [hread] at hread'
    cases hread'
    exact h
  · intro h
    exact ⟨c₁, hread, h⟩

theorem stillNeeded_iff (hread : readPacket alloc c = (.ok (), c₁)) :
    StillNeeded alloc packet handshake c ↔ c₁.currentPacketType = Packet.eof ∧
      ∃ answered, (readAuthSwitchPacket packet handshake c₁).1 = .ok answered := by
  constructor
  · rintro (h | ⟨c₁', answered, hread', htype, h⟩)
    · rw [hread] at h
      cases h
    · rw [hread] at hread'
      cases hread'
      exact ⟨htype, answered, h⟩
  · rintro ⟨htype, answered, h⟩
    exact .inr ⟨c₁, answered, hread, htype, h⟩

variable (packet handshake) in
/-- With a packet that asks for another method. -/
theorem authRecv_eof (hread : readPacket alloc c = (.ok (), c₁))
    (htype : c₁.currentPacketType = Packet.eof) :
    ∃ r c', authRecv alloc packet handshake c = (r, c') ∧ OnSock SamePassword c₁ c' ∧
      r ≠ .ok none ∧ (AsksAgain r ↔
        ∃ answered, (readAuthSwitchPacket packet handshake c₁).1 = .ok answered) := by
  have hsame := (samePassword alloc).toReadRel.noted (noted_readAuthSwitchPacket packet handshake) c₁
  have hrun : authRecv alloc packet handshake c = (do
      let handshake ← readAuthSwitchPacket packet handshake
      pure (some handshake) : Proc Code Conn (Option Handshake)) c₁ := by
    rw [authRecv, bind_of_ok hread, get_bind, htype, if_neg (by decide), if_pos rfl]
  rcases e : readAuthSwitchPacket packet handshake c₁ with ⟨rc | answered, c'⟩
  · rw [e] at hsame
    refine ⟨_, c', hrun.trans (bind_of_error e), hsame, by simp, ?_⟩
    simp [AsksAgain, fails_readAuthSwitchPacket packet handshake e]
  · rw [e] at hsame
    refine ⟨_, c', hrun.trans (bind_of_ok e), hsame, by simp, ?_⟩
    simp [AsksAgain]

theorem not_asksAgain_of_error {rc : Code} (h : rc ≠ .again) : ¬ AsksAgain (.error rc) := by
  rintro (he | ⟨_, he⟩)
  · cases he
    exact h rfl
  · cases he

theorem password_fastAuth (byte : UInt8) : Keeps (OnSock SamePassword) (fastAuth alloc byte) :=
  .ite (fun _ => .pure _) fun _ =>
    .ite (fun _ => keeps_sendClearPassword (samePassword alloc)) fun _ => .throw _

theorem password_awaitPacket (turns : Nat) :
    Keeps (OnSock SamePassword) (awaitPacket alloc turns) :=
  keeps_awaitPacket (keeps_readPacket (samePassword alloc).toReadRel) (samePassword alloc).wait turns

/-- The fast authentication, once its second byte is looked at. -/
theorem fastAuth_ends (alloc : Alloc) (c₁ : Conn) : ∃ r c', (do
      fastAuth alloc (c₁.packet_buffer.byteAt 1)
      let conn ← get
      awaitPacket alloc (conn.socket.net.polls.length + 1)
      authClearPassword
      handleGenericResponse
      pure none : Proc Code Conn (Option Handshake)) c₁ = (r, c') ∧ ¬ AsksAgain r ∧
    ((∃ c₂ c₃, FastAuth alloc c₁ c₂ ∧
        awaitPacket alloc (c₂.socket.net.polls.length + 1) c₂ = (.ok (), c₃)) ∧ c'.Wiped ∨
      ¬ (∃ c₂ c₃, FastAuth alloc c₁ c₂ ∧
        awaitPacket alloc (c₂.socket.net.polls.length + 1) c₂ = (.ok (), c₃)) ∧
      r ≠ .ok none ∧ OnSock SamePassword c₁ c') := by
  have hsent : OnSock SamePassword c₁ (fastAuth alloc (c₁.packet_buffer.byteAt 1) c₁).2 :=
    password_fastAuth _ c₁
  rcases hfast : fastAuth alloc (c₁.packet_buffer.byteAt 1) c₁ with ⟨rc | _, c₂⟩
  · rw [hfast] at hsent
    have hlast : ¬ AsksAgain (.error rc) :=
      not_asksAgain_of_error (fails_fastAuth _ (fun _ h => h.2) (by decide) hfast)
    refine ⟨_, c₂, bind_of_error hfast, hlast, .inr ⟨?_, by simp, hsent⟩⟩
    rintro ⟨c₂', -, hasked, -⟩
    rw [fastAuth_iff.mpr hasked] at hfast
    cases hfast
  · rw [hfast] at hsent
    have hwaited : OnSock SamePassword c₂
        (awaitPacket alloc (c₂.socket.net.polls.length + 1) c₂).2 := password_awaitPacket _ c₂
    rw [bind_of_ok hfast, get_bind]
    rcases hawait : awaitPacket alloc (c₂.socket.net.polls.length + 1) c₂ with ⟨rc | _, c₃⟩
    · rw [hawait] at hwaited
      have hlast : ¬ AsksAgain (.error rc) := not_asksAgain_of_error (fails_awaitPacket _ hawait).2
      refine ⟨_, c₃, bind_of_error hawait, hlast, .inr ⟨?_, by simp, Eq.trans hwaited hsent⟩⟩
      rintro ⟨c₂', c₃, hasked, hawait'⟩
      rw [← fastAuth_iff, hfast] at hasked
      cases hasked
      rw [hawait] at hawait'
      cases hawait'
    · obtain ⟨r, c', hend, wiped, done⟩ := clearedResponse_ends c₃
      refine ⟨r, c', (bind_of_ok hawait).trans hend, done, .inl ⟨?_, wiped⟩⟩
      exact ⟨c₂, c₃, fastAuth_iff.mp hfast, hawait⟩

variable (packet handshake) in
/-- With a packet that asks for more. -/
theorem authRecv_more (hread : readPacket alloc c = (.ok (), c₁))
    (htype : c₁.currentPacketType = Packet.authMoreData) :
    ∃ r c', authRecv alloc packet handshake c = (r, c') ∧ ¬ AsksAgain r ∧
      (GetsToClear alloc c ∧ c'.Wiped ∨
        ¬ GetsToClear alloc c ∧ r ≠ .ok none ∧ OnSock SamePassword c₁ c') := by
  have hrun : authRecv alloc packet handshake c = authDispatch alloc packet handshake c₁ :=
    bind_of_ok hread
  have hclears := getsToClear_iff hread
  simp only [htype, forall_true_left] at hclears
  by_cases looks : c₁.socket.opts.LooksProtected
  · obtain ⟨r, c', hend, hlast, hclear⟩ := fastAuth_ends alloc c₁
    refine ⟨r, c', hrun.trans ((authDispatch_protected htype looks rfl).trans hend), hlast, ?_⟩
    rw [hclears]
    rcases hclear with ⟨answered, wiped⟩ | ⟨unanswered, hsame⟩
    · exact .inl ⟨⟨by decide, looks, answered⟩, wiped⟩
    · exact .inr ⟨fun h => unanswered h.2.2, hsame⟩
  · refine ⟨_, _, hrun.trans (authDispatch_unsupported htype looks),
      not_asksAgain_of_error (by decide), .inr ⟨?_, by simp, rfl⟩⟩
    rw [hclears]
    exact fun h => looks h.2.1

/-- Each exit: the password is cleared and the call is the last one, or it is left alone. -/
theorem authRecv_exits (alloc : Alloc) (packet : AuthSwitchRequestPacket) (handshake : Handshake)
    (c : Conn) : ∃ r c', authRecv alloc packet handshake c = (r, c') ∧
      (AsksAgain r ↔ StillNeeded alloc packet handshake c) ∧
      (GetsToClear alloc c ∧ ¬ AsksAgain r ∧ c'.Wiped ∨
        ¬ GetsToClear alloc c ∧ r ≠ .ok none ∧ OnSock SamePassword c c') := by
  have hread := keeps_readPacket (samePassword alloc).toReadRel c
  rcases e : readPacket alloc c with ⟨rc | _, c₁⟩
  · rw [e] at hread
    refine ⟨.error rc, c₁, bind_of_error e, ?_, .inr ⟨?_, by simp, hread⟩⟩
    · simp [AsksAgain, StillNeeded, e]
    · rintro ⟨c₁, hok, -⟩
      rw [e] at hok
      cases hok
  · rw [e] at hread
    by_cases heof : c₁.currentPacketType = Packet.eof
    · obtain ⟨r, c', hrun, hsame, hnone, hasks⟩ := authRecv_eof packet handshake e heof
      refine ⟨r, c', hrun, ?_, .inr ⟨?_, hnone, Eq.trans hsame hread⟩⟩
      · rw [hasks, stillNeeded_iff e]
        exact (and_iff_right heof).symm
      · rw [getsToClear_iff e]
        exact fun h => h.1 heof
    · have hdone : ¬ StillNeeded alloc packet handshake c := by
        rw [stillNeeded_iff e]
        exact fun h => heof h.1
      by_cases hmore : c₁.currentPacketType = Packet.authMoreData
      · obtain ⟨r, c', hrun, hasks, hend⟩ := authRecv_more packet handshake e hmore
        refine ⟨r, c', hrun, iff_of_false hasks hdone, ?_⟩
        rcases hend with ⟨hclear, wiped⟩ | ⟨hclear, hnone, hsame⟩
        · exact .inl ⟨hclear, hasks, wiped⟩
        · exact .inr ⟨hclear, hnone, Eq.trans hsame hread⟩
      · obtain ⟨r, c', hend, wiped, hasks⟩ := clearedResponse_ends c₁
        have hrun : authRecv alloc packet handshake c = authDispatch alloc packet handshake c₁ :=
          bind_of_ok e
        refine ⟨r, c', hrun.trans ((authDispatch_plain rfl hmore heof).trans hend),
          iff_of_false hasks hdone, .inl ⟨?_, hasks, wiped⟩⟩
        rw [getsToClear_iff e]
        exact ⟨heof, fun h => absurd h hmore⟩

/-- A last call leaves no password behind just when it gets to clear it, or there is none. -/
theorem authRecv_wipes :
    (¬ AsksAgain (authRecv alloc packet handshake c).1 →
        (authRecv alloc packet handshake c).2.Wiped) ↔
      c.Wiped ∨ GetsToClear alloc c ∨ StillNeeded alloc packet handshake c := by
  obtain ⟨r, c', hrun, hasks, hend⟩ := authRecv_exits alloc packet handshake c
  rw [hrun, hasks]
  rcases hend with ⟨hclear, -, wiped⟩ | ⟨hclear, -, hsame⟩
  · exact iff_of_true (fun _ => wiped) (.inr (.inl hclear))
  · have hwiped : c'.Wiped ↔ c.Wiped := by rw [Wiped, Wiped, hsame]
    rw [hwiped]
    tauto

end

end Conn

/-- The steps up to the end of authentication. -/
def Step.Authenticates : Step → Prop
  | .wait | .upgradeSsl | .call .flushWrites | .call .sslRequestSend | .call (.connectRecv _)
  | .call (.authSend _) | .call (.authSwitchSend _) | .call (.authRecv _ _) => True
  | _ => False

/-- A step after which authentication goes on. -/
def Ongoing (alloc : Alloc) (c : Conn) (step : Step) : Prop :=
  step.Authenticates ∧ ∀ packet handshake, step = .call (.authRecv packet handshake) →
    Conn.AsksAgain (Conn.authRecv alloc packet handshake c).1

/-- A packet with the password in it, or a hash of it, is built by this step, and from
the password of `c₁`. -/
inductive BuildsFrom (alloc : Alloc) (c : Conn) : Step → Conn → Prop
  | authSend (handshake : Handshake) : BuildsFrom alloc c (.call (.authSend handshake)) c
  | authSwitchSend (handshake : Handshake) :
      BuildsFrom alloc c (.call (.authSwitchSend handshake)) c
  | clearPassword (packet : AuthSwitchRequestPacket) (handshake : Handshake) {c₁ : Conn}
      (h : Conn.readPacket alloc c = (.ok (), c₁))
      (type : c₁.currentPacketType = Packet.authMoreData)
      (looks : c₁.socket.opts.LooksProtected) (byte : c₁.packet_buffer.byteAt 1 = 4) :
      BuildsFrom alloc c (.call (.authRecv packet handshake)) c₁

section

open Conn

variable {alloc : Alloc} {digests : Digests} {c c' c₁ : Conn} {step : Step}
  {trace : List (Conn × Step × Conn)}

theorem BuildsFrom.same (h : BuildsFrom alloc c step c₁) : OnSock SamePassword c c₁ := by
  cases h with
  | authSend _ | authSwitchSend _ => rfl
  | clearPassword packet handshake h type looks byte =>
    have hread := keeps_readPacket (samePassword alloc).toReadRel c
    rwa [h] at hread

theorem Ongoing.same (digests : Digests) (ongoing : Ongoing alloc c step) :
    OnSock SamePassword c (step.run alloc digests c).2 := by
  have hw := samePassword alloc
  have done : ∀ {m : Proc Code Conn Unit}, Keeps (OnSock SamePassword) m →
      Keeps (OnSock SamePassword) (do m; pure Decoded.done) := fun hm => .bind hm fun _ => .pure _
  obtain ⟨kind, asks⟩ := ongoing
  cases step with
  | wait => exact done hw.wait c
  | upgradeSsl =>
    have hupgrade : Keeps (OnSock SamePassword) (onSocket Sock.upgradeSsl) :=
      fun c => keeps_upgradeSsl SamePassword.of_opts c.socket
    exact done hupgrade c
  | call fn =>
    cases fn with
    | flushWrites => exact done (keeps_flushWrites hw) c
    | sslRequestSend => exact done (keeps_sslRequestSend hw fun _ _ => rfl) c
    | authSend _ | authSwitchSend _ =>
      exact done (.bind .get fun _ => keeps_sendPacket hw _ _) c
    | connectRecv handshake =>
      rw [show ((Step.call (.connectRecv handshake)).run alloc digests c).2 = _ from map_state _ _ c]
      exact keeps_connectRecv hw.toReadRel handshake c
    | authRecv packet handshake =>
      rw [show ((Step.call (.authRecv packet handshake)).run alloc digests c).2 = _ from
        map_state _ _ c]
      obtain ⟨r, c', hrun, -, hend⟩ := authRecv_exits alloc packet handshake c
      have hasks := asks packet handshake rfl
      rw [hrun] at hasks ⊢
      rcases hend with ⟨-, hlast, -⟩ | ⟨-, -, hsame⟩
      · exact absurd hasks hlast
      · exact hsame
    | _ => exact absurd kind id

theorem session_same (session : Session alloc digests (Ongoing alloc) c trace c') :
    OnSock SamePassword c c' ∧ ∀ e ∈ trace, OnSock SamePassword c e.1 := by
  induction session with
  | nil c => exact ⟨rfl, by simp⟩
  | @cons c step r c₁ trace c₂ ok h rest ih =>
    have hsame := ok.same digests
    rw [h] at hsame
    constructor
    · exact Eq.trans ih.1 hsame
    · refine List.forall_mem_cons.mpr ⟨rfl, fun e he => ?_⟩
      exact Eq.trans (ih.2 e he) hsame

/-- `authRecv` was called last, in `c₁`, and its end is the end of it all. -/
def LastCall (alloc : Alloc) (c₁ : Conn) (r : Except Code Unit) (c' : Conn) : Prop :=
  ∃ packet handshake, ¬ AsksAgain (authRecv alloc packet handshake c₁).1 ∧
    (authRecv alloc packet handshake c₁).2 = c' ∧
    (r = .ok () ↔ (authRecv alloc packet handshake c₁).1 = .ok none)

/-- All that `m` does is to authenticate; it may get to the end of that. -/
def Authenticates (alloc : Alloc) (digests : Digests) (m : Proc Code Conn Unit) : Prop :=
  ∀ c, ∃ trace c₁, Session alloc digests (Ongoing alloc) c trace c₁ ∧
    ((m c).1 ≠ .ok () ∧ (m c).2 = c₁ ∨ LastCall alloc c₁ (m c).1 (m c).2)

/-- The steps before there is an answer to authentication. -/
def Step.Prepares (step : Step) : Prop := step.Authenticates ∧ ¬ step.ReceivesAuth

theorem Step.Prepares.ongoing (h : step.Prepares) : Ongoing alloc c step := by
  refine ⟨h.1, ?_⟩
  rintro packet handshake rfl
  exact absurd trivial h.2

theorem Authenticates.after {α : Type} {m : Proc Code Conn α} {f : α → Proc Code Conn Unit}
    (hm : Plays alloc digests Step.Prepares m) (hf : ∀ a, Authenticates alloc digests (f a)) :
    Authenticates alloc digests (m >>= f) := by
  intro c
  obtain ⟨trace, session⟩ := hm c
  have session : Session alloc digests (Ongoing alloc) c trace (m c).2 :=
    session.mono fun _ _ => Step.Prepares.ongoing
  rcases e : m c with ⟨rc | a, c₁⟩
  · rw [e] at session
    rw [bind_of_error e]
    exact ⟨trace, c₁, session, .inl ⟨by simp, rfl⟩⟩
  · rw [e] at session
    rw [bind_of_ok e]
    obtain ⟨trace', c₂, more, hend⟩ := hf a c₁
    exact ⟨trace ++ trace', c₂, session.append more, hend⟩

/-- The loop around `authRecv`, and what follows on a request to switch. -/
theorem authenticates_recvFull (packets : Nat → AuthSwitchRequestPacket) (handshake : Handshake)
    {f : Option Handshake → Proc Code Conn Unit} (hnone : f none = pure ())
    (hsome : ∀ handshake, Authenticates alloc digests (f (some handshake))) (turns : Nat) :
    Authenticates alloc digests
      (recvFull (fun turn => authRecv alloc (packets turn) handshake) turns >>= f) := by
  induction turns with
  | zero => exact fun c => ⟨[], c, .nil c, .inl ⟨by simp [recvFull], rfl⟩⟩
  | succ turns ih =>
    intro c
    rcases e : authRecv alloc (packets turns) handshake c with ⟨r, c₁⟩
    rw [recvFull, bind_assoc, attempt_bind, e]
    by_cases hasks : AsksAgain r
    · have hongoing : Ongoing alloc c (.call (.authRecv (packets turns) handshake)) := by
        refine ⟨trivial, ?_⟩
        rintro packet handshake h
        cases h
        rw [e]
        exact hasks
      have hstep : Session alloc digests (Ongoing alloc) c [(c, _, c₁)] c₁ :=
        .one hongoing ((map_state _ _ c).trans (congrArg Prod.snd e))
      obtain rfl | ⟨switched, rfl⟩ := hasks
      · have hwait : Plays alloc digests Step.Prepares (onSocket Sock.wait) :=
          plays_wait ⟨trivial, id⟩
        obtain ⟨trace, c₂, session, hend⟩ := Authenticates.after hwait (fun _ => ih) c₁
        rw [bind_assoc]
        exact ⟨_, c₂, hstep.append session, hend⟩
      · obtain ⟨trace, c₂, session, hend⟩ := hsome switched c₁
        exact ⟨_, c₂, hstep.append session, hend⟩
    · refine ⟨[], c, .nil c, .inr ⟨packets turns, handshake, by rwa [e], ?_⟩⟩
      rw [e]
      rcases r with rc | switch
      · cases rc with
        | again => exact absurd (.inl rfl) hasks
        | _ => simp
      · cases switch with
        | none => simp [hnone]
        | some switched => exact absurd (.inr ⟨switched, rfl⟩) hasks

theorem authenticates_throw {rc : Code} : Authenticates alloc digests (throw rc) :=
  fun c => ⟨[], c, .nil c, .inl ⟨by simp, rfl⟩⟩

theorem authenticates_connectAuthSwitch (packets : Nat → AuthSwitchRequestPacket)
    (handshake : Handshake) :
    Authenticates alloc digests (connectAuthSwitch alloc digests packets handshake) := by
  apply Authenticates.after
  · exact plays_sendFull ⟨trivial, id⟩ ⟨trivial, id⟩ (plays_authSwitchSend handshake ⟨trivial, id⟩)
  · intro _
    apply Authenticates.after .get
    intro conn
    exact authenticates_recvFull packets handshake rfl (fun _ => authenticates_throw) _

theorem authenticates_connectHandshake (handshake : Handshake)
    (packets packets' : Nat → AuthSwitchRequestPacket) :
    Authenticates alloc digests (connectHandshake alloc digests handshake packets packets') := by
  apply Authenticates.after .get
  intro conn
  apply Authenticates.after
  · exact plays_recvFull ⟨trivial, id⟩ (fun _ => plays_connectRecv handshake ⟨trivial, id⟩) _
  · intro handshake
    apply Authenticates.after
    · exact plays_sendFull ⟨trivial, id⟩ ⟨trivial, id⟩ (plays_authSend handshake ⟨trivial, id⟩)
    · intro _
      apply Authenticates.after .get
      intro conn
      exact authenticates_recvFull packets handshake rfl
        (fun handshake => authenticates_connectAuthSwitch packets' handshake) _

/-- With `TRILOGY_OK` the password is gone. -/
theorem authRecv_wiped {packet : AuthSwitchRequestPacket} {handshake : Handshake}
    (h : (authRecv alloc packet handshake c).1 = .ok none) :
    (authRecv alloc packet handshake c).2.Wiped := by
  obtain ⟨r, c', hrun, -, hclear⟩ := authRecv_exits alloc packet handshake c
  rw [hrun] at h ⊢
  rcases hclear with ⟨-, -, wiped⟩ | ⟨-, hnone, -⟩
  · exact wiped
  · exact absurd h hnone

theorem connectHandshake_wiped {handshake : Handshake}
    {packets packets' : Nat → AuthSwitchRequestPacket}
    (h : connectHandshake alloc digests handshake packets packets' c = (.ok (), c')) :
    c'.Wiped := by
  have hauth : Authenticates alloc digests
      (connectHandshake alloc digests handshake packets packets') :=
    authenticates_connectHandshake handshake packets packets'
  obtain ⟨trace, c₁, -, hend⟩ := hauth c
  rw [h] at hend
  obtain ⟨hno, -⟩ | ⟨packet, handshake, -, rfl, hok⟩ := hend
  · exact absurd rfl hno
  · exact authRecv_wiped (hok.mp rfl)

/-- A password outlives the last call of `authRecv` unless that gets to clear it, or it
is all zeros anyway. Until then no step changes it; with `TRILOGY_OK` it is gone. -/
theorem password_wiped_iff (session : Session alloc digests (Ongoing alloc) c trace c₁)
    (packet : AuthSwitchRequestPacket) (handshake : Handshake) :
    ((¬ AsksAgain (authRecv alloc packet handshake c₁).1 →
        (authRecv alloc packet handshake c₁).2.Wiped) ↔
      c.Wiped ∨ GetsToClear alloc c₁ ∨ StillNeeded alloc packet handshake c₁) ∧
    ((authRecv alloc packet handshake c₁).1 = .ok none →
      (authRecv alloc packet handshake c₁).2.Wiped ∧
      (∀ e ∈ trace, ∀ c₂, BuildsFrom alloc e.1 e.2.1 c₂ →
        c₂.socket.opts.password = c.socket.opts.password) ∧
      ∀ c₂, BuildsFrom alloc c₁ (.call (.authRecv packet handshake)) c₂ →
        c₂.socket.opts.password = c.socket.opts.password) ∧
    ∀ handshake packets packets',
      Authenticates alloc digests (connectHandshake alloc digests handshake packets packets') := by
  obtain ⟨hsame, htrace⟩ := session_same session
  have hwiped : c₁.Wiped ↔ c.Wiped := by rw [Wiped, Wiped, hsame]
  rw [← hwiped]
  refine ⟨authRecv_wipes, fun hok => ⟨authRecv_wiped hok, ?_, ?_⟩, authenticates_connectHandshake⟩
  · intro e he c₂ built
    exact Eq.trans built.same (htrace e he)
  · intro c₂ built
    exact Eq.trans built.same hsame

/-- A server that asks for the password, on a path and with TCP. -/
def pathConn : Conn := (connectSend pathOpts askingNet (Conn.init idleSock)).2

def tcpOpts : SockOpt := { namedOpts with path := none }

def tcpConn : Conn := (connectSend tcpOpts askingNet (Conn.init idleSock)).2

theorem ongoing_namedSteps (c : Conn) : Session (fun _ => true) noDigests (Ongoing fun _ => true) c
    (play (fun _ => true) noDigests namedSteps c).1 (play (fun _ => true) noDigests namedSteps c).2 := by
  have hkind : ∀ step ∈ namedSteps, step.Prepares := by
    simp [namedSteps, Step.Prepares, Step.Authenticates, Step.ReceivesAuth]
  exact (session_play hkind c).mono fun _ _ => Step.Prepares.ongoing

theorem password_wiped_iff_path :
    (authRecv (fun _ => true) default hello
      (play (fun _ => true) noDigests namedSteps pathConn).2).1 = .ok none ∧
    (authRecv (fun _ => true) default hello
      (play (fun _ => true) noDigests namedSteps pathConn).2).2.Wiped := by
  have hok : (authRecv (fun _ => true) default hello
      (play (fun _ => true) noDigests namedSteps pathConn).2).1 = .ok none := by decide +kernel
  exact ⟨hok, ((password_wiped_iff (ongoing_namedSteps pathConn) default hello).2.1 hok).1⟩

theorem password_wiped_iff_fails :
    (connect (fun _ => true) noDigests tcpOpts askingNet default (fun _ => default)
      (fun _ => default) (Conn.init idleSock)).1 = .error .unsupported ∧
    (connect (fun _ => true) noDigests tcpOpts askingNet default (fun _ => default)
      (fun _ => default) (Conn.init idleSock)).2.socket.opts.password = literal "secret" ∧
    ¬ ∀ trace c₁, Session (fun _ => true) noDigests (Ongoing fun _ => true) tcpConn trace c₁ →
      ∀ packet handshake, ¬ AsksAgain (authRecv (fun _ => true) packet handshake c₁).1 →
        (authRecv (fun _ => true) packet handshake c₁).2.Wiped := by
  refine ⟨by decide +kernel, by decide +kernel, fun wiped => ?_⟩
  have hlast : (authRecv (fun _ => true) default hello
      (play (fun _ => true) noDigests namedSteps tcpConn).2).1 = .error .unsupported := by
    decide +kernel
  have hkept : (authRecv (fun _ => true) default hello
      (play (fun _ => true) noDigests namedSteps tcpConn).2).2.socket.opts.password =
      literal "secret" := by
    decide +kernel
  have hwiped := wiped _ _ (ongoing_namedSteps tcpConn) default hello
    (by rw [hlast]; exact not_asksAgain_of_error (by decide))
  rw [Wiped, hkept] at hwiped
  exact absurd (hwiped 0x73 (by decide)) (by decide)

end

end Trilogy
