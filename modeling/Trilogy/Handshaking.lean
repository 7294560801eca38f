import Trilogy.Connecting
import Trilogy.Turns
import Trilogy.Visit

namespace Trilogy

open Lib Proc

/-- The same polls are to come, and the same callbacks are set. -/
structure SamePolls (sock sock' : Sock) : Prop where
  polls : sock'.net.polls = sock.net.polls
  io : sock'.io = sock.io

instance : Std.Refl SamePolls := ⟨fun _ => ⟨rfl, rfl⟩⟩

instance : IsTrans Sock SamePolls where
  trans _ _ _ h h' := ⟨h'.polls.trans h.polls, h'.io.trans h.io⟩

theorem OnlyRead.samePolls {sock sock' : Sock} (h : OnlyRead sock sock') :
    SamePolls sock sock' := by
  obtain ⟨_, _, hnet⟩ := h.net
  exact ⟨by rw [hnet], h.io⟩

theorem Sock.OnlyWrite.samePolls {sock sock' : Sock} (h : Sock.OnlyWrite sock sock') :
    SamePolls sock sock' := by
  obtain ⟨_, _, hnet⟩ := h.net
  exact ⟨by rw [hnet], h.io⟩

/-- Polls are only used up. -/
def FewerPolls (sock sock' : Sock) : Prop := sock'.net.polls.length ≤ sock.net.polls.length

instance : Std.Refl FewerPolls := ⟨fun _ => Nat.le_refl _⟩

instance : IsTrans Sock FewerPolls := ⟨fun _ _ _ h h' => Nat.le_trans h' h⟩

theorem fewerPolls : SockRel FewerPolls where
  read n sock := Nat.le_of_eq (congrArg List.length (onlyRead_read n sock).samePolls.polls)
  write data nwrite sock :=
    Nat.le_of_eq (congrArg List.length (Sock.onlyWrite_write data nwrite sock).samePolls.polls)
  wait sock := by
    unfold Sock.wait
    split
    · exact Nat.le_refl _
    · split
      · exact Nat.le_refl _
      · rename_i hpolls
        rw [FewerPolls, hpolls]
        exact Nat.le_succ _
  shutdown _ := Nat.le_refl _
  password _ _ := Nat.le_refl _

namespace Conn

variable {α β : Type}

/-- A part of a call in which nothing waits. -/
structure Unwaiting (m : Proc Code Conn α) : Prop where
  blind : Blind Polled m
  keeps : Keeps (OnSock SamePolls) m

namespace Unwaiting

variable {m : Proc Code Conn α} {f : α → Proc Code Conn β} {send : Proc Code Conn Unit}

theorem bind (hm : Unwaiting m) (hf : ∀ a, Unwaiting (f a)) : Unwaiting (m >>= f) :=
  ⟨.bind hm.blind fun a => (hf a).blind, .bind hm.keeps fun a => (hf a).keeps⟩

theorem pure (a : α) : Unwaiting (pure a) := ⟨.pure a, .pure a⟩

theorem of_listening (h : Listening m) : Unwaiting m :=
  ⟨h.blind, fun c => (h.onlyRead c).samePolls⟩

theorem of_offers (h : Offers send) : Unwaiting send :=
  ⟨h.blind, fun c => (h.keeps c).samePolls⟩

theorem of_replies (h : Replies m) : Unwaiting m where
  blind := h.blind _
  keeps c := by
    rw [OnSock, (h.same c).socket]
    exact Std.Refl.refl _

/-- A part that depends on the connection, but not on its polls. -/
theorem get {g : Conn → Proc Code Conn α}
    (same : ∀ (c : Conn) socket, Sock.Polled c.socket socket → g { c with socket } = g c)
    (h : ∀ c, Unwaiting (g c)) : Unwaiting (MonadState.get >>= g) :=
  ⟨beside_get same fun c => (h c).blind, .get_bind fun c => (h c).keeps c⟩

end Unwaiting

end Conn

namespace Rb

open Conn

variable {α β : Type} {turns : Nat} {c d : Conn} {s t : Rb}

/-- The client has the connection, but for its polls: it has as many waits as these. -/
structure Alongside (turns : Nat) (c : Conn) (s : Rb) : Prop where
  polled : Polled c s.ctx.conn
  polls : ∀ ready ∈ c.socket.net.polls, ready = true
  opened : c.socket.io ≠ .shutdown
  busy : Busy c.socket.net.polls.length s.ctx.conn s
  enough : c.socket.net.polls.length ≤ turns

/-- What the one returns, the other returns, up to a poll that fails. -/
def Follows (turns : Nat) (m : Proc Code Conn α) (p : Proc Exit Rb (Except Code α)) : Prop :=
  ∀ ⦃c s⦄, Alongside turns c s → (m c).1 = .error .syserr ∨
    ∃ t, p s = (.ok (m c).1, t) ∧ Alongside turns (m c).2 t

variable {m : Proc Code Conn α} {p : Proc Exit Rb (Except Code α)}

theorem Alongside.call (h : Alongside turns c s) (unwaiting : Unwaiting m) :
    ∃ t, onBuffer m s = (.ok (m c).1, t) ∧ Alongside turns (m c).2 t ∧
      (m c).2.socket.net.polls = c.socket.net.polls := by
  obtain ⟨hend, hpolled⟩ := unwaiting.blind c s.ctx.conn h.polled
  have hsame := unwaiting.keeps c
  have e : m s.ctx.conn = ((m c).1, (m s.ctx.conn).2) := by
    rw [hend.eq]
  obtain ⟨t, hcall, hbusy⟩ := h.busy.onBuffer e
  rw [← hbusy.conn] at hpolled hbusy
  refine ⟨t, hcall, ⟨hpolled, ?_, ?_, ?_, ?_⟩, hsame.polls⟩
  · rw [hsame.polls]
    exact h.polls
  · rw [hsame.io]
    exact h.opened
  · rw [hsame.polls]
    exact hbusy
  · rw [hsame.polls]
    exact h.enough

theorem Follows.of_unwaiting (unwaiting : Unwaiting m) : Follows turns m (onBuffer m) := by
  intro c s h
  obtain ⟨t, hcall, halong, -⟩ := h.call unwaiting
  exact .inr ⟨t, hcall, halong⟩

theorem Follows.pure (a : α) : Follows turns (Pure.pure a) (Pure.pure (.ok a)) :=
  fun _ s h => .inr ⟨s, rfl, h⟩

theorem Follows.throw (rc : Code) :
    Follows turns (MonadExcept.throw rc : Proc Code Conn α) (Pure.pure (.error rc)) :=
  fun _ s h => .inr ⟨s, rfl, h⟩

theorem Follows.ite {q : Prop} [Decidable q] {m' : Proc Code Conn α}
    {p' : Proc Exit Rb (Except Code α)} (hm : q → Follows turns m p)
    (hm' : ¬ q → Follows turns m' p') :
    Follows turns (if q then m else m') (if q then p else p') := by
  split
  · exact hm ‹_›
  · exact hm' ‹_›

theorem Follows.bind {f : α → Proc Code Conn β} {g : α → Proc Exit Rb (Except Code β)}
    (hm : Follows turns m p) (hf : ∀ a, Follows turns (f a) (g a)) :
    Follows turns (m >>= f) (andThen p g) := by
  intro c s h
  rcases e : m c with ⟨rc | a, u⟩
  · rw [bind_of_error e]
    obtain hfailed | ⟨t, hp, halong⟩ := hm h
    · rw [e] at hfailed
      cases hfailed
      exact .inl rfl
    · rw [e] at hp halong
      refine .inr ⟨t, ?_, halong⟩
      rw [andThen, bind_of_ok hp]
      rfl
  · rw [bind_of_ok e]
    obtain hfailed | ⟨t, hp, halong⟩ := hm h
    · rw [e] at hfailed
      cases hfailed
    · rw [e] at hp halong
      refine (hf a halong).imp_right ?_
      rintro ⟨v, hg, halong'⟩
      refine ⟨v, ?_, halong'⟩
      rw [andThen, bind_of_ok hp]
      exact hg

/-- A wait, in both or only in the one. -/
theorem Alongside.wait (h : Alongside turns c s) :
    (∃ u, onSocket Sock.wait c = (.error .syserr, u)) ∨
      ∃ v, onSocket Sock.wait c = (.ok (), v) ∧
        v.socket.net.polls.length + 1 = c.socket.net.polls.length ∧ Alongside turns v s ∧
        ∃ t, sockWait s = (.ok (.ok ()), t) ∧ Alongside turns v t := by
  obtain ⟨hio, -⟩ | ⟨more, hio, hpolls, hwait⟩ | ⟨sock, hio, -, hwait⟩ := c.socket.wait_cases
  · exact absurd hio h.opened
  · right
    obtain ⟨⟨_, ⟨polls, rfl⟩, hs⟩, hready, -, hbusy, henough⟩ := h
    rw [hpolls] at hready hbusy henough
    obtain ⟨t, hsockWait, hbusy'⟩ := hbusy.sockWait
    have hconn := hbusy'.conn
    have hready' := (List.forall_mem_cons.mp hready).2
    have henough' := Nat.le_of_succ_le henough
    refine ⟨{ c with socket := { c.socket with net := { c.socket.net with polls := more } } },
      by rw [onSocket, zoom_apply, hwait], by rw [hpolls]; rfl, ?_, t, hsockWait, ?_⟩
    · exact ⟨⟨_, ⟨polls, rfl⟩, hs⟩, hready', hio, hbusy.mono (Nat.le_succ _), henough'⟩
    · rw [← hconn] at hbusy'
      exact ⟨⟨_, ⟨polls, rfl⟩, hconn.trans hs⟩, hready', hio, hbusy', henough'⟩
  · refine .inl ⟨{ c with socket := sock }, ?_⟩
    rw [onSocket, zoom_apply, hwait]

/-- The loops of `blocking.c`: they wait where `m` asks for another call. -/
structure Persistent (m : Proc Code Conn α) (loop : Nat → Proc Code Conn α) : Prop where
  ends : ∀ n c, (m c).1 ≠ .error .again → loop (n + 1) c = m c
  goes : ∀ n c u, m c = (.error .again, u) →
    loop (n + 1) c = (onSocket Sock.wait >>= fun _ => loop n) u

theorem Alongside.turn_ends {again : Proc Exit Rb (Except Code α)} (h : Alongside turns c s)
    (unwaiting : Unwaiting m) (hr : (m c).1 ≠ .error .again) :
    ∃ t, turn m again s = (.ok (m c).1, t) ∧ Alongside turns (m c).2 t := by
  obtain ⟨t, hcall, halong, -⟩ := h.call unwaiting
  refine ⟨t, ?_, halong⟩
  rw [turn, bind_of_ok hcall]
  generalize (m c).1 = r at hr ⊢
  cases r with
  | ok _ => rfl
  | error rc =>
    cases rc with
    | again => exact absurd rfl hr
    | _ => rfl

theorem Persistent.await {loop : Nat → Proc Code Conn α} (persistent : Persistent m loop)
    (unwaiting : Unwaiting m) {n left : Nat} (h : Alongside turns c s)
    (polls : c.socket.net.polls.length < n) (le : c.socket.net.polls.length ≤ left) :
    (loop n c).1 = .error .syserr ∨
      ∃ t, Rb.await m left s = (.ok (loop n c).1, t) ∧ Alongside turns (loop n c).2 t := by
  induction n generalizing left c s with
  | zero => exact absurd polls (Nat.not_lt_zero _)
  | succ n ih =>
    by_cases hr : (m c).1 = .error .again
    · obtain ⟨t, hcall, halong, hpolls⟩ := h.call unwaiting
      rw [persistent.goes n c (m c).2 (Proc.ends hr)]
      rw [hr] at hcall
      obtain ⟨w, hwait⟩ | ⟨v, hwait, hless, -, u, hsockWait, halong'⟩ := halong.wait
      · rw [bind_of_error hwait]
        exact .inl rfl
      · rw [bind_of_ok hwait]
        rw [hpolls] at hless
        cases left with
        | zero => omega
        | succ left =>
          have hle : v.socket.net.polls.length ≤ left := by omega
          refine (ih halong' (by omega) hle).imp_right ?_
          rintro ⟨w, hawait, hafter⟩
          refine ⟨w, ?_, hafter⟩
          rw [Rb.await, turn, bind_of_ok hcall]
          exact (bind_of_ok hsockWait).trans hawait
    · rw [persistent.ends n c hr]
      right
      cases left with
      | zero => exact h.turn_ends unwaiting hr
      | succ left => exact h.turn_ends unwaiting hr

theorem persistent_recvFull : Persistent m (recvFull fun _ => m) where
  ends n c hr := by
    rw [recvFull, attempt_bind]
    rcases e : m c with ⟨rc | a, u⟩
    · rw [e] at hr
      cases rc with
      | again => exact absurd rfl hr
      | _ => rfl
    · rfl
  goes n c u e := by
    rw [recvFull, attempt_bind, e]

/-- A turn of `flush_full`, behind its wait. -/
def flushOn (n : Nat) : Proc Code Conn Unit := do
  let rc ← Proc.attempt Conn.flushWrites
  match rc with
  | .error .again => flushFull n
  | .error rc => throw rc
  | .ok () => Pure.pure ()

theorem persistent_flushOn : Persistent Conn.flushWrites flushOn where
  ends n c hr := by
    rw [flushOn, attempt_bind]
    rcases e : Conn.flushWrites c with ⟨rc | a, u⟩
    · rw [e] at hr
      cases rc with
      | again => exact absurd rfl hr
      | _ => rfl
    · rfl
  goes n c u e := by
    rw [flushOn, attempt_bind, e]
    rfl

theorem await_follows (unwaiting : Unwaiting m) :
    Follows turns (do let conn ← get; recvFull (fun _ => m) (conn.socket.net.polls.length + 1))
      (await m turns) :=
  fun _ _ h => persistent_recvFull.await unwaiting h (Nat.lt_succ_self _) h.enough

/-- `flush_full` waits before it flushes, and `flush_writes` behind. -/
theorem sendFlushed_follows {send : Proc Code Conn Unit} (unwaiting : Unwaiting send) :
    Follows turns (sendFull send) (sendFlushed send turns) := by
  intro c s h
  obtain ⟨t, hcall, halong, hpolls⟩ := h.call unwaiting
  rw [sendFull, attempt_bind, sendFlushed, bind_of_ok hcall]
  rcases e : send c with ⟨rc | _, u⟩
  · rw [e] at halong hpolls
    by_cases hrc : rc = .again
    · subst hrc
      obtain ⟨w, hwait⟩ | ⟨v, hwait, hless, halong', -⟩ := halong.wait
      · exact .inl (congrArg Prod.fst (bind_of_error hwait))
      · have hfull : flushFull (u.socket.net.polls.length + 1) u =
            flushOn u.socket.net.polls.length v := bind_of_ok hwait
        dsimp only
        rw [get_bind, hfull]
        exact persistent_flushOn.await (.of_offers offers_flushWrites) halong'
          (Nat.lt_of_lt_of_eq (Nat.lt_succ_self _) hless) halong'.enough
    · cases rc with
      | again => exact absurd rfl hrc
      | _ => exact .inr ⟨t, rfl, halong⟩
  · rw [e] at halong
    exact .inr ⟨t, rfl, halong⟩

variable {alloc : Alloc} {digests : Digests} {packet : AuthSwitchRequestPacket}
  {handshake : Handshake}

theorem unwaiting_readPacket : Unwaiting (readPacket alloc) := .of_listening listening_readPacket

theorem unwaiting_connectRecv : Unwaiting (connectRecv alloc handshake) where
  blind := beside_connectRecv Sock.polled_read handshake
  keeps c := (keeps_connectRecv (onlyRead_readRel alloc) handshake c).samePolls

/-- A packet that is made of the options, from the packet buffer on. -/
theorem unwaiting_sendPacket {seq : UInt8} {packet : Proc Code Builder Unit}
    (fails : Fails Refusal packet) : Unwaiting (sendPacket alloc seq packet) :=
  .of_offers (offers_sendPacket fails seq)

theorem unwaiting_authSend : Unwaiting (authSend alloc digests handshake) := by
  apply Unwaiting.get
  · rintro c _ ⟨polls, rfl⟩
    rfl
  · intro c
    exact unwaiting_sendPacket (fails_buildAuthPacket ..)

theorem unwaiting_authSwitchSend : Unwaiting (authSwitchSend alloc digests handshake) := by
  apply Unwaiting.get
  · rintro c _ ⟨polls, rfl⟩
    rfl
  · intro c
    exact unwaiting_sendPacket (fails_buildAuthSwitchResponsePacket ..)

theorem unwaiting_authClearPassword : Unwaiting authClearPassword where
  blind := by
    rintro c _ ⟨_, ⟨polls, rfl⟩, rfl⟩
    exact ⟨.rfl, _, ⟨polls, rfl⟩, rfl⟩
  keeps _ := ⟨rfl, rfl⟩

/-- The end of a call that has the verdict. -/
theorem unwaiting_verdict : Unwaiting (do
    authClearPassword
    handleGenericResponse
    Pure.pure none : Proc Code Conn (Option Handshake)) :=
  .bind unwaiting_authClearPassword fun _ => .bind (.of_replies replies_handleGenericResponse)
    fun _ => .pure _

theorem unwaiting_readAuthSwitchPacket : Unwaiting (readAuthSwitchPacket packet handshake) where
  blind := by
    apply beside_get (fun _ _ _ => rfl)
    intro c
    apply Blind.bind (beside_parsePacket _)
    intro packet
    exact .ite (fun _ => .throw _) fun _ => .pure _
  keeps c := by
    have hsame := noted_readAuthSwitchPacket packet handshake c
    rw [OnSock, hsame.socket]
    exact Std.Refl.refl _

/-- What `sendClearPassword` does before it writes. -/
def passwordPacket (alloc : Alloc) : Proc Code Conn Builder := do
  let conn ← get
  let builder ← Conn.beginCommandPhase alloc conn.packetParser.sequence_number
  Conn.build builder (buildAuthClearPassword alloc conn.socket.opts.password)

theorem unwaiting_passwordPacket : Unwaiting (passwordPacket alloc) := by
  apply Unwaiting.get
  · rintro c _ ⟨polls, rfl⟩
    rfl
  · intro c
    apply Unwaiting.bind
    · exact ⟨beside_beginCommandPhase polled_limit _,
        fun c => (keeps_beginCommandPhase (onlyRead_readRel alloc) _ c).samePolls⟩
    · intro builder
      exact ⟨beside_build _ _, fun c => (keeps_build (onlyRead_readRel alloc) _ _ c).samePolls⟩

theorem flushPassword_follows {n left : Nat} {rc : Except Code Unit} (h : Alongside turns c s)
    (polls : c.socket.net.polls.length < n) (le : c.socket.net.polls.length ≤ left) :
    (Conn.flushPassword n rc c).1 = .error .syserr ∨
      ∃ t, Rb.flushPassword left rc s = (.ok (Conn.flushPassword n rc c).1, t) ∧
        Alongside turns (Conn.flushPassword n rc c).2 t := by
  induction n generalizing left rc c s with
  | zero => exact absurd polls (Nat.not_lt_zero _)
  | succ n ih =>
    rcases rc with rc | _
    · by_cases hrc : rc = .again
      · subst hrc
        rw [Conn.flushPassword]
        obtain ⟨w, hwait⟩ | ⟨v, hwait, hless, -, t, hsockWait, halong⟩ := h.wait
        · rw [bind_of_error hwait]
          exact .inl rfl
        · rw [bind_of_ok hwait, attempt_bind]
          cases left with
          | zero => omega
          | succ left =>
            obtain ⟨u, hcall, halong', hpolls⟩ := halong.call (.of_offers offers_flushWrites)
            have hlt : (Conn.flushWrites v).2.socket.net.polls.length < n := by
              rw [hpolls]
              omega
            have hle : (Conn.flushWrites v).2.socket.net.polls.length ≤ left := by
              rw [hpolls]
              omega
            refine (ih halong' hlt hle).imp_right ?_
            rintro ⟨w, hflush, hafter⟩
            refine ⟨w, ?_, hafter⟩
            rw [Rb.flushPassword, andThen, bind_of_ok hsockWait]
            exact (bind_of_ok hcall).trans hflush
      · rw [flushPassword_throws hrc]
        refine .inr ⟨s, ?_, h⟩
        cases rc with
        | again => exact absurd rfl hrc
        | _ => cases left <;> rfl
    · exact .inr ⟨s, by cases left <;> rfl, h⟩

theorem sendClearPassword_follows :
    Follows turns (Conn.sendClearPassword alloc) (Rb.sendClearPassword alloc turns) := by
  have hparts : Conn.sendClearPassword alloc = (passwordPacket alloc >>= fun _ => do
      let rc ← Proc.attempt Conn.beginWrite
      let conn ← get
      Conn.flushPassword (conn.socket.net.polls.length + 1) rc) := by
    simp only [Conn.sendClearPassword, passwordPacket, bind_assoc]
  rw [hparts]
  apply Follows.bind (.of_unwaiting unwaiting_passwordPacket)
  intro _ c s h
  obtain ⟨t, hcall, halong, -⟩ := h.call (.of_offers offers_beginWrite)
  rw [attempt_bind, get_bind, bind_of_ok hcall]
  exact flushPassword_follows halong (Nat.lt_succ_self _) halong.enough

/-- What comes behind the packet that asks for the password, or accepts without. -/
theorem protected_follows (byte : UInt8) :
    Follows turns
      (do
        (if byte = 3 then Pure.pure ()
         else if byte = 4 then Conn.sendClearPassword alloc
         else throw .unexpectedPacket)
        let conn ← get
        awaitPacket alloc (conn.socket.net.polls.length + 1)
        authClearPassword
        handleGenericResponse
        Pure.pure none : Proc Code Conn (Option Handshake))
      (andThen
        (if byte = 3 then Pure.pure (.ok ())
         else if byte = 4 then Rb.sendClearPassword alloc turns
         else Pure.pure (.error .unexpectedPacket)) fun _ =>
        andThen (await (readPacket alloc) turns) fun _ =>
        onBuffer do
          authClearPassword
          handleGenericResponse
          Pure.pure none) := by
  apply Follows.bind
  · split
    · exact .pure ()
    · split
      · exact sendClearPassword_follows
      · exact .throw _
  · intro _
    have hparts : (do
        let conn ← get
        awaitPacket alloc (conn.socket.net.polls.length + 1)
        authClearPassword
        handleGenericResponse
        Pure.pure none : Proc Code Conn (Option Handshake)) = ((do
          let conn ← get
          recvFull (fun _ => readPacket alloc) (conn.socket.net.polls.length + 1)) >>= fun _ => do
        authClearPassword
        handleGenericResponse
        Pure.pure none) := by
      simp only [awaitPacket_eq, bind_assoc]
    rw [hparts]
    exact .bind (await_follows unwaiting_readPacket) fun _ => .of_unwaiting unwaiting_verdict

theorem authRecv_follows :
    Follows turns (Conn.authRecv alloc packet handshake)
      (Rb.authRecv alloc packet handshake turns) := by
  apply Follows.bind (.of_unwaiting unwaiting_readPacket)
  intro _ c s h
  have hconn : s.ctx.conn.currentPacketType = c.currentPacketType ∧
      s.ctx.conn.packet_buffer = c.packet_buffer ∧ s.ctx.conn.socket.opts = c.socket.opts := by
    obtain ⟨_, ⟨polls, rfl⟩, hs⟩ := h.polled
    rw [hs]
    exact ⟨rfl, rfl, rfl⟩
  obtain ⟨htype, hbuffer, hopts⟩ := hconn
  rw [get_bind, get_bind, htype, hbuffer, hopts]
  have switch : Follows turns
      (readAuthSwitchPacket packet handshake >>= fun handshake => Pure.pure (some handshake))
      (onBuffer (some <$> readAuthSwitchPacket packet handshake)) := by
    rw [map_eq_pure_bind]
    exact .of_unwaiting (.bind unwaiting_readAuthSwitchPacket fun _ => .pure _)
  exact Follows.ite (fun _ => .ite (fun _ => .throw _) fun _ => protected_follows _)
    (fun _ => .ite (fun _ => switch) fun _ => .of_unwaiting unwaiting_verdict) h

/-- Handling an error comes to the same exit, whatever it is in place of. -/
theorem handleTrilogyError_ends (rc : Code) (s : Rb) :
    ∃ exit t, ∀ β, (handleTrilogyError rc : Proc Exit Rb β) s = (.error exit, t) := by
  have hrelease : ∃ t, releaseBuffer s = (.ok (), t) := by
    rw [releaseBuffer, get_bind]
    cases s.ctx.buff <;> exact ⟨_, rfl⟩
  obtain ⟨t, hrelease⟩ := hrelease
  by_cases hshutdown : !errorRecoverable rc ∧ t.ctx.socket
  · refine ⟨exitBy rc (givingFrees s) (sockShutdown t).2.ctx.conn, (sockShutdown t).2, fun β => ?_⟩
    rw [handleTrilogyError, get_bind, bind_of_ok hrelease, get_bind, when_pos hshutdown]
    rfl
  · refine ⟨exitBy rc (givingFrees s) t.ctx.conn, t, fun β => ?_⟩
    rw [handleTrilogyError, get_bind, bind_of_ok hrelease, get_bind, when_neg hshutdown]
    rfl

/-- The error was handled, and raised. -/
def Raises (rc : Code) (t : Rb) (exit : Exit) (u : Rb) : Prop :=
  (handleTrilogyError rc : Proc Exit Rb Unit) t = (.error exit, u)

/-- A part of a method has come to a value, or to an error that was handled. -/
def Concluded (turns : Nat) (r : Except Code α × Conn) (e : Except Exit α × Rb) : Prop :=
  r.1 = .error .syserr ∨ (∃ a t, r.1 = .ok a ∧ e = (.ok a, t) ∧ Alongside turns r.2 t) ∨
    ∃ rc t exit u, r.1 = .error rc ∧ e = (.error exit, u) ∧ Raises rc t exit u ∧
      Alongside turns r.2 t

def Concludes (turns : Nat) (m : Proc Code Conn α) (p : Proc Exit Rb α) : Prop :=
  ∀ ⦃c s⦄, Alongside turns c s → Concluded turns (m c) (p s)

theorem Concludes.handled (rc : Code) :
    Concludes turns (throw rc : Proc Code Conn α) (handleTrilogyError rc) := by
  intro c s h
  obtain ⟨exit, t, hends⟩ := handleTrilogyError_ends rc s
  exact .inr (.inr ⟨rc, s, exit, t, rfl, hends α, hends Unit, h⟩)

theorem Concludes.pure (a : α) : Concludes turns (Pure.pure a) (Pure.pure a) :=
  fun _ s h => .inr (.inl ⟨a, s, rfl, rfl, h⟩)

theorem Follows.concludes (h : Follows turns m p) : Concludes turns m (orHandle p) := by
  intro c s halong
  refine (h halong).imp_right ?_
  rintro ⟨t, hp, hafter⟩
  rcases e : m c with ⟨rc | a, u⟩
  · rw [e] at hp hafter
    obtain ⟨exit, v, hends⟩ := handleTrilogyError_ends rc t
    refine .inr ⟨rc, t, exit, v, rfl, ?_, hends Unit, hafter⟩
    rw [orHandle, bind_of_ok hp]
    exact hends α
  · rw [e] at hp hafter
    refine .inl ⟨a, t, rfl, ?_, hafter⟩
    rw [orHandle, bind_of_ok hp]
    rfl

/-- What the rest finds on the stack may be chosen for it. -/
theorem Concluded.bind_exists {ι : Type} [Nonempty ι] {f : ι → α → Proc Code Conn β}
    {p : Proc Exit Rb α} {g : α → Proc Exit Rb β} (hm : Concluded turns (m c) (p s))
    (hf : ∀ a u t, Alongside turns u t → ∃ i, Concluded turns (f i a u) (g a t)) :
    ∃ i, Concluded turns ((m >>= f i) c) ((p >>= g) s) := by
  obtain hfailed | ⟨a, t, hend, hp, hafter⟩ |
    ⟨rc, t, exit, u, hend, hp, hraises, hafter⟩ := hm
  · refine ⟨Classical.ofNonempty, .inl ?_⟩
    rw [bind_of_error (Proc.ends hfailed)]
  · obtain ⟨i, hrest⟩ := hf a _ t hafter
    refine ⟨i, ?_⟩
    rwa [bind_of_ok (Proc.ends hend), bind_of_ok hp]
  · refine ⟨Classical.ofNonempty, .inr (.inr ⟨rc, t, exit, u, ?_, ?_, hraises, ?_⟩)⟩
    · rw [bind_of_error (Proc.ends hend)]
    · rw [bind_of_error hp]
    · rwa [bind_of_error (Proc.ends hend)]

theorem Concluded.bind {f : α → Proc Code Conn β} {p : Proc Exit Rb α} {g : α → Proc Exit Rb β}
    (hm : Concluded turns (m c) (p s))
    (hf : ∀ a, Concludes turns (f a) (g a)) :
    Concluded turns ((m >>= f) c) ((p >>= g) s) := by
  obtain ⟨-, h⟩ := hm.bind_exists (f := fun (_ : Unit) => f) fun a u t halong => ⟨(), hf a halong⟩
  exact h

/-- A turn of the loops around `trilogy_auth_recv`. -/
theorem authTurn_concludes {recv : Nat → Proc Code Conn (Option Handshake)} {n : Nat}
    {again : Proc Exit Rb (Option Handshake)} (h : Alongside turns c s)
    (hrecv : recv n = Conn.authRecv alloc packet handshake)
    (goes : ∀ ⦃v t⦄, Alongside turns v t →
      v.socket.net.polls.length < c.socket.net.polls.length →
      Concluded turns (recvFull recv n v) (again t)) :
    Concluded turns (recvFull recv (n + 1) c) (authTurn alloc packet handshake turns again s) := by
  have hfewer : FewerPolls c.socket (Conn.authRecv alloc packet handshake c).2.socket :=
    Conn.keeps_authRecv (fewerPolls.callRel alloc) packet handshake c
  rw [recvFull, hrecv, attempt_bind]
  obtain hfailed | ⟨t, hcall, halong⟩ := authRecv_follows h
  · rw [hfailed]
    exact .inl rfl
  · rw [authTurn, bind_of_ok hcall]
    rcases e : Conn.authRecv alloc packet handshake c with ⟨rc | switch, u⟩
    · rw [e] at halong hfewer
      by_cases hrc : rc = .again
      · subst hrc
        obtain ⟨w, hwait⟩ | ⟨v, hwait, hless, -, t', hsockWait, halong'⟩ := halong.wait
        · exact .inl (congrArg Prod.fst (bind_of_error hwait))
        · have hhandled : orHandle sockWait t = (.ok (), t') := by
            rw [orHandle, bind_of_ok hsockWait]
            rfl
          have hless : v.socket.net.polls.length < c.socket.net.polls.length :=
            Nat.lt_of_lt_of_le (Nat.lt_of_lt_of_eq (Nat.lt_succ_self _) hless) hfewer
          have hend := goes halong' hless
          rw [← bind_of_ok hwait (f := fun _ => recvFull recv n),
            ← bind_of_ok hhandled (f := fun _ => again)] at hend
          exact hend
      · have hend : Concluded turns ((throw rc : Proc Code Conn (Option Handshake)) u)
            (handleTrilogyError rc t) := Concludes.handled rc halong
        cases rc with
        | again => exact absurd rfl hrc
        | _ => exact hend
    · rw [e] at halong
      exact .inr (.inl ⟨switch, t, rfl, rfl, halong⟩)

/-- The records on the stack are counted from the last turn that there can be. -/
theorem awaitAuth_concludes {packets : Nat → AuthSwitchRequestPacket} {n more : Nat}
    (h : Alongside turns c s) (polls : c.socket.net.polls.length ≤ n) :
    Concluded turns
      (recvFull (fun turn => Conn.authRecv alloc (packets (turn + more)) handshake) (n + 1) c)
      (awaitAuth alloc packets handshake turns (n + more) s) := by
  induction n generalizing c s with
  | zero =>
    rw [Nat.zero_add, Nat.zero_add]
    cases more with
    | zero => exact authTurn_concludes h rfl fun v t _ hless => by omega
    | succ more =>
      refine authTurn_concludes h ?_ fun v t _ hless => by omega
      rw [Nat.zero_add]
  | succ n ih =>
    rw [Nat.add_right_comm n 1 more]
    refine authTurn_concludes h ?_ fun v t halong hless => ih halong (by omega)
    rw [Nat.add_right_comm n 1 more]

/-- From the last turn on, as many as there are polls. -/
def lastTurns (packets : Nat → AuthSwitchRequestPacket) (turns polls : Nat) :
    Nat → AuthSwitchRequestPacket := fun turn => packets (turn + (turns - polls))

theorem awaitAuth_all (packets : Nat → AuthSwitchRequestPacket) (handshake : Handshake)
    (h : Alongside turns c s) :
    Concluded turns
      (recvFull (fun turn => Conn.authRecv alloc
        (lastTurns packets turns c.socket.net.polls.length turn) handshake)
        (c.socket.net.polls.length + 1) c)
      (awaitAuth alloc packets handshake turns turns s) := by
  have hend := @awaitAuth_concludes turns c s alloc handshake packets _
    (turns - c.socket.net.polls.length) h (Nat.le_refl _)
  rw [Nat.add_sub_cancel' h.enough] at hend
  exact hend

theorem switch_concludes (packets : Nat → AuthSwitchRequestPacket) (handshake : Handshake)
    (h : Alongside turns c s) :
    ∃ records, Concluded turns (connectAuthSwitch alloc digests records handshake c)
      (authSwitch alloc digests packets handshake turns s) := by
  apply Concluded.bind_exists ((sendFlushed_follows unwaiting_authSwitchSend).concludes h)
  intro _ u t halong
  refine ⟨lastTurns packets turns u.socket.net.polls.length, ?_⟩
  rw [get_bind]
  apply (awaitAuth_all packets handshake halong).bind
  intro switch
  cases switch with
  | none => exact .pure ()
  | some _ => exact .handled _

/-- `rb_trilogy_connect` without TLS follows `trilogy_connect_handshake`. -/
theorem handshake_concludes (handshake : Handshake)
    (packets packets' : Nat → AuthSwitchRequestPacket) (h : Alongside turns c s) :
    ∃ records : (Nat → AuthSwitchRequestPacket) × (Nat → AuthSwitchRequestPacket),
      Concluded turns (connectHandshake alloc digests handshake records.1 records.2 c)
        ((do
          let handshake ← orHandle (await (connectRecv alloc handshake) turns)
          authenticate alloc digests packets packets' handshake .disabled turns) s) := by
  apply Concluded.bind_exists ((await_follows unwaiting_connectRecv).concludes h)
  intro handshake u t halong
  apply Concluded.bind_exists ((sendFlushed_follows unwaiting_authSend).concludes halong)
  intro _ u t halong
  -- the records of the first loop are those of the last turns, those of the second are free
  refine Exists.imp' (fun i => (lastTurns packets turns u.socket.net.polls.length, i))
    (fun _ h => h) ?_
  simp only [get_bind]
  apply Concluded.bind_exists (awaitAuth_all packets handshake halong)
  intro switch u t halong
  cases switch with
  | none => exact ⟨fun _ => default, Concludes.pure () halong⟩
  | some handshake => exact switch_concludes packets' handshake halong

end Rb

end Trilogy
