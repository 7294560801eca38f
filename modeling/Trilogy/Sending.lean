import Trilogy.Blocked
import Trilogy.Faults

namespace Trilogy

open Lib Proc

/-- The code for a packet that is refused. It never asks for the call to be made
again. -/
def Refusal (rc : Code) : Prop :=
  BuildFault rc ∨ rc = .protocolViolation ∨ rc = .unknownType ∨ rc = .authPluginError

theorem Refusal.ne_again {rc : Code} (h : Refusal rc) : rc ≠ .again := by
  rcases h with h | rfl | rfl | rfl
  · exact h.fault.2
  · decide
  · decide
  · decide

namespace Builder

variable (alloc : Alloc)

theorem fails_writeUint16 (val : UInt16) : Fails BuildFault (writeUint16 alloc val) :=
  .bind (fails_writeUint8 _ _) fun _ => fails_writeUint8 _ _

theorem fails_writeUint24 (val : UInt32) : Fails BuildFault (writeUint24 alloc val) :=
  .bind (fails_writeUint8 _ _) fun _ => .bind (fails_writeUint8 _ _) fun _ => fails_writeUint8 _ _

theorem fails_writeUint32 (val : UInt32) : Fails BuildFault (writeUint32 alloc val) :=
  .bind (fails_writeUint8 _ _) fun _ => .bind (fails_writeUint8 _ _) fun _ =>
    .bind (fails_writeUint8 _ _) fun _ => fails_writeUint8 _ _

theorem fails_writeUint64 (val : UInt64) : Fails BuildFault (writeUint64 alloc val) :=
  .bind (fails_writeUint8 _ _) fun _ => .bind (fails_writeUint8 _ _) fun _ =>
    .bind (fails_writeUint8 _ _) fun _ => .bind (fails_writeUint8 _ _) fun _ =>
    .bind (fails_writeUint8 _ _) fun _ => .bind (fails_writeUint8 _ _) fun _ =>
    .bind (fails_writeUint8 _ _) fun _ => fails_writeUint8 _ _

theorem fails_writeLenenc (val : UInt64) : Fails BuildFault (writeLenenc alloc val) :=
  .ite (fun _ => fails_writeUint8 _ _) fun _ =>
    .ite (fun _ => .bind (fails_writeUint8 _ _) fun _ => fails_writeUint16 _ _) fun _ =>
    .ite (fun _ => .bind (fails_writeUint8 _ _) fun _ => fails_writeUint24 _ _) fun _ =>
    .bind (fails_writeUint8 _ _) fun _ => fails_writeUint64 _ _

theorem fails_writeLenencBuffer (data : List UInt8) :
    Fails BuildFault (writeLenencBuffer alloc data) :=
  .bind (fails_writeLenenc _ _) fun _ => fails_writeBuffer _ _

theorem fails_when {P : Code → Prop} {c : Prop} [Decidable c] {m : Proc Code Builder Unit}
    (hm : c → Fails P m) : Fails P (Proc.when c m) :=
  .ite hm fun _ => .pure _

theorem fails_writeNullBitmap (i : Nat) (current_bits : UInt8) (binds : List BinaryValue) :
    Fails BuildFault (writeNullBitmap alloc i current_bits binds) := by
  induction binds generalizing i current_bits with
  | nil => exact .pure _
  | cons bind binds ih =>
    rw [writeNullBitmap]
    apply Fails.ite
    · intro _
      exact .bind (fails_writeUint8 _ _) fun _ => ih _ _
    · intro _
      exact ih _ _

theorem fails_writeTypes (binds : List BinaryValue) : Fails BuildFault (writeTypes alloc binds) := by
  induction binds with
  | nil => exact .pure _
  | cons bind binds ih =>
    rw [writeTypes]
    apply Fails.bind (fails_writeUint8 _ _)
    intro _
    apply Fails.bind (.ite (fun _ => fails_writeUint8 _ _) fun _ => fails_writeUint8 _ _)
    intro _
    exact ih

theorem fails_writeTime (time : TimeValue) : Fails BuildFault (writeTime alloc time) :=
  .bind (fails_writeUint8 _ _) fun _ => fails_when fun _ => .bind (fails_writeUint8 _ _) fun _ =>
    .bind (fails_writeUint32 _ _) fun _ => .bind (fails_writeUint8 _ _) fun _ =>
    .bind (fails_writeUint8 _ _) fun _ => .bind (fails_writeUint8 _ _) fun _ =>
    fails_when fun _ => fails_writeUint32 _ _

theorem fails_writeDate (date : DateValue) : Fails BuildFault (writeDate alloc date) :=
  .bind (fails_writeUint8 _ _) fun _ => fails_when fun _ => .bind (fails_writeUint16 _ _) fun _ =>
    .bind (fails_writeUint8 _ _) fun _ => .bind (fails_writeUint8 _ _) fun _ =>
    fails_when fun _ => .bind (fails_writeUint8 _ _) fun _ => .bind (fails_writeUint8 _ _) fun _ =>
    .bind (fails_writeUint8 _ _) fun _ => fails_when fun _ => fails_writeUint32 _ _

end Builder

section

open Builder

variable (alloc : Alloc)

theorem fails_writeValue (val : BinaryValue) : Fails Refusal (writeValue alloc val) := by
  have built : ∀ {m : Proc Code Builder Unit}, Fails BuildFault m → Fails Refusal m :=
    fun hm => hm.mono fun _ h => .inl h
  unfold writeValue
  split
  · exact built (fails_writeUint8 _ _)
  · exact built (fails_writeUint16 _ _)
  · exact built (fails_writeUint32 _ _)
  · exact built (fails_writeUint32 _ _)
  · exact built (fails_writeUint64 _ _)
  · exact built (fails_writeUint32 _ _)
  · exact built (fails_writeUint64 _ _)
  · exact built (fails_writeUint16 _ _)
  · exact built (fails_writeTime _ _)
  · exact built (fails_writeDate _ _)
  · exact built (fails_writeDate _ _)
  · exact built (fails_writeDate _ _)
  all_goals first
    | exact built (fails_writeLenencBuffer _ _)
    | exact .pure _
    | exact .throw (.inr (.inr (.inl rfl)))

theorem fails_writeValues (binds : List BinaryValue) : Fails Refusal (writeValues alloc binds) := by
  induction binds with
  | nil => exact .pure _
  | cons bind binds ih => exact .bind (fails_writeValue alloc bind) fun _ => ih

theorem fails_buildStmtExecutePacket (stmt_id : UInt32) (flags : UInt8)
    (binds : Option (List BinaryValue)) (num_binds : UInt16) :
    Fails Refusal (buildStmtExecutePacket alloc stmt_id flags binds num_binds) := by
  have built : ∀ {α : Type} {m : Proc Code Builder α}, Fails BuildFault m → Fails Refusal m :=
    fun hm => hm.mono fun _ h => .inl h
  refine .bind (built (fails_writeUint8 _ _)) fun _ => .bind (built (fails_writeUint32 _ _))
    fun _ => .bind (built (fails_writeUint8 _ _)) fun _ => .bind (built (fails_writeUint32 _ _))
    fun _ => .bind (fails_when fun _ => ?_) fun _ => .modify _
  cases binds with
  | none => exact .throw (.inr (.inl rfl))
  | some binds =>
    exact .bind (built (fails_writeNullBitmap alloc 0 0 _)) fun _ =>
      .bind (fails_when fun _ => built (fails_writeUint8 _ _)) fun _ =>
      .bind (built (fails_writeUint8 _ _)) fun _ => .bind (built (fails_writeTypes alloc _)) fun _ =>
      fails_writeValues alloc _

end

namespace Sock

/-- Nothing more will be taken. -/
def Full (sock : Sock) : Prop := sock.io ≠ .shutdown ∧ sock.writes = 0

/-- What writing has nothing to do with. -/
structure OnlyWrite (sock sock' : Sock) : Prop where
  io : sock'.io = sock.io
  opts : sock'.opts = sock.opts
  received : sock'.received = sock.received
  net : ∃ raw_writes tls_writes, sock'.net = { sock.net with raw_writes, tls_writes }

instance : Std.Refl OnlyWrite := ⟨fun _ => ⟨rfl, rfl, rfl, _, _, rfl⟩⟩

instance : IsTrans Sock OnlyWrite where
  trans _ _ _ h h' := by
    obtain ⟨raw_writes, tls_writes, hnet⟩ := h.net
    obtain ⟨raw_writes', tls_writes', hnet'⟩ := h'.net
    exact ⟨h'.io.trans h.io, h'.opts.trans h.opts, h'.received.trans h.received, raw_writes',
      tls_writes', by rw [hnet', hnet]⟩

theorem onlyWrite_write (data : List UInt8) (nwrite : Nat) :
    Keeps OnlyWrite (write data nwrite) := by
  intro sock
  unfold write rawWrite sslWrite
  split
  · split <;> exact ⟨rfl, rfl, rfl, _, _, rfl⟩
  · split <;> exact ⟨rfl, rfl, rfl, _, _, rfl⟩
  · exact ⟨rfl, rfl, rfl, _, _, rfl⟩

/-- A write takes one from the network; a socket that has none asks for another. -/
theorem write_uses (data : List UInt8) (nwrite : Nat) (sock : Sock) :
    (write data nwrite sock).2.writes < sock.writes ∨
      (write data nwrite sock).2 = sock ∧ (sock.Full ∧ (write data nwrite sock).1 = .error .again ∨
        sock.io = .shutdown ∧ (write data nwrite sock).1 = .error .closedConnection) := by
  cases hio : sock.io with
  | raw =>
    simp only [write, hio, rawWrite]
    split
    · rename_i h
      refine .inr ⟨rfl, .inl ⟨⟨by rw [hio]; decide, ?_⟩, rfl⟩⟩
      rw [writes, hio]
      exact congrArg List.length h
    · rename_i h
      left
      simp [writes, hio, h]
    · rename_i h
      left
      simp [writes, hio, h]
  | ssl =>
    simp only [write, hio, sslWrite]
    split
    · rename_i h
      refine .inr ⟨rfl, .inl ⟨⟨by rw [hio]; decide, ?_⟩, rfl⟩⟩
      rw [writes, hio]
      exact congrArg List.length h
    · rename_i h
      left
      simp [writes, hio, h]
    · rename_i h
      left
      simp [writes, hio, h]
  | shutdown => exact .inr ⟨by simp only [write, hio], .inr ⟨rfl, by simp only [write, hio]⟩⟩

end Sock

namespace Conn

/-- What becomes of a request that is flushed until it is out. -/
inductive Flushed (send : Proc Code Conn Unit) : Conn → Except Code Unit → Conn → Prop
  | atOnce {c r c'} : send c = (r, c') → r ≠ .error .again → Flushed send c r c'
  | later {c c₁ r c'} : send c = (.error .again, c₁) → Returns .again flushWrites c₁ r c' →
      Flushed send c r c'

variable {alloc : Alloc} {c c' : Conn} {send : Proc Code Conn Unit} {r : Except Code Unit}

/-- What a call of a function that sends uses up. -/
def writePace : Pace Conn where
  valid _ := True
  left c := c.socket.writes
  stuck c := c.socket.Full

theorem flushWrites_uses (c : Conn) :
    (flushWrites c).2.socket.writes < c.socket.writes ∨
      (flushWrites c).2.socket = c.socket ∧ (c.socket.Full ∧ (flushWrites c).1 = .error .again ∨
        c.socket.io = .shutdown ∧ (flushWrites c).1 = .error .closedConnection) := by
  have huses := Sock.write_uses c.unwritten
    (sizeSub c.packet_buffer.len c.packet_buffer_written) c.socket
  rw [flushWrites, get_bind, bind_apply, onSocket, zoom_apply]
  rcases e : Sock.write c.unwritten (sizeSub c.packet_buffer.len c.packet_buffer_written) c.socket
    with ⟨rc | n, sock⟩
  · rw [e] at huses
    dsimp only at huses ⊢
    refine huses.imp_right (And.imp_right (Or.imp (And.imp_right ?_) (And.imp_right ?_)))
    · rintro ⟨⟩
      rfl
    · rintro ⟨⟩
      rfl
  · rw [e] at huses
    have hless := huses.resolve_right (by simp)
    left
    simp only [modify_bind, get_bind]
    split <;> exact hless

theorem paced_flushWrites : Paced writePace .again flushWrites where
  valid _ _ := trivial
  less c _ := by
    obtain hless | ⟨hsame, -⟩ := flushWrites_uses c
    · exact Nat.le_of_lt hless
    · exact Nat.le_of_eq (congrArg Sock.writes hsame)
  asks c u _ e := by
    obtain hless | ⟨hsame, ⟨hfull, -⟩ | ⟨-, hclosed⟩⟩ := flushWrites_uses c
    · rw [e] at hless
      exact .inl hless
    · rw [e] at hsame
      right
      change u.socket.Full
      rw [hsame]
      exact hfull
    · rw [e] at hclosed
      cases hclosed

theorem stalls_flushWrites : Stalls writePace.stuck .again flushWrites := by
  intro c hfull
  have hfull : c.socket.Full := hfull
  obtain hless | ⟨hsame, ⟨-, hend⟩ | ⟨hio, -⟩⟩ := flushWrites_uses c
  · rw [hfull.2] at hless
    exact absurd hless (Nat.not_lt_zero _)
  · refine ⟨_, ends hend, ?_⟩
    change (flushWrites c).2.socket.Full
    rw [hsame]
    exact hfull
  · exact absurd hio hfull.1

/-- A function that sends, as the loops of `blocking.c` use it. -/
structure Offers (send : Proc Code Conn Unit) : Prop where
  paced : Paced writePace .again send
  blind : Blind Polled send
  keeps : Keeps (OnSock Sock.OnlyWrite) send
  uses : Keeps Uses send

theorem offers_flushWrites : Offers flushWrites where
  paced := paced_flushWrites
  blind := beside_flushWrites Sock.polled_write
  keeps := .bind .get fun _ => .bind (fun c => Sock.onlyWrite_write _ _ c.socket) fun _ =>
    .bind (.modify fun c => Std.Refl.refl c.socket) fun _ => .bind .get fun _ =>
    .ite (fun _ => .throw _) fun _ => .pure _
  uses := keeps_flushWrites (uses_callRel fun _ => true).toWriteRel

theorem socket_beginCommandPhase (seq : UInt8) : Keeps (OnSock Eq) (beginCommandPhase alloc seq) := by
  intro c
  unfold beginCommandPhase OnSock
  split <;> rfl

theorem socket_build (builder : Builder) (m : Proc Code Builder Unit) :
    Keeps (OnSock Eq) (build builder m) := by
  intro c
  unfold build OnSock
  split <;> rfl

theorem onlyWrite_of_socket {α : Type} {m : Proc Code Conn α} (h : Keeps (OnSock Eq) m) :
    Keeps (OnSock Sock.OnlyWrite) m := by
  intro c
  rw [OnSock, ← h c]
  exact Std.Refl.refl _

theorem offers_beginWrite : Offers beginWrite where
  paced := .bind (.of_fails (.modify _) fun _ _ => ⟨trivial, Nat.le_refl _⟩) fun _ =>
    paced_flushWrites
  blind := beside_beginWrite Sock.polled_write
  keeps := .bind (.modify fun c => Std.Refl.refl c.socket) fun _ => offers_flushWrites.keeps
  uses := keeps_beginWrite (uses_callRel fun _ => true).toWriteRel

/-- A part of a request in front of the write. -/
theorem Offers.after {α : Type} {m : Proc Code Conn α} {f : α → Proc Code Conn Unit}
    (socket : Keeps (OnSock Eq) m) (fails : Fails (· ≠ .again) m) (blind : Blind Polled m)
    (uses : Keeps Uses m) (hf : ∀ a, Offers (f a)) : Offers (m >>= f) where
  paced := .bind (.of_fails fails fun c _ =>
    ⟨trivial, Nat.le_of_eq (congrArg Sock.writes (socket c).symm)⟩) fun a => (hf a).paced
  blind := .bind blind fun a => (hf a).blind
  keeps := .bind (onlyWrite_of_socket socket) fun a => (hf a).keeps
  uses := .bind uses fun a => (hf a).uses

theorem polled_limit (sock sock' : Sock) (h : Sock.Polled sock sock') :
    sock'.opts.max_allowed_packet = sock.opts.max_allowed_packet := by
  obtain ⟨_, rfl⟩ := h
  rfl

theorem offers_command {m : Proc Code Builder Unit} (fails : Fails Refusal m) {seq : UInt8}
    {f : Builder → Proc Code Conn Unit} (hf : ∀ builder, Offers (f builder)) :
    Offers (beginCommandPhase alloc seq >>= fun builder => build builder m >>= f) := by
  have read := (uses_callRel alloc).toReadRel
  apply Offers.after (socket_beginCommandPhase seq)
  · exact (fails_beginCommandPhase alloc seq).mono fun _ h => h.fault.2
  · exact beside_beginCommandPhase polled_limit seq
  · exact keeps_beginCommandPhase read seq
  intro builder
  apply Offers.after (socket_build builder m)
  · exact (fails_build fails).mono fun _ h => h.ne_again
  · exact beside_build builder m
  · exact keeps_build read builder m
  exact hf

theorem offers_sendPacket {m : Proc Code Builder Unit} (fails : Fails Refusal m) (seq : UInt8) :
    Offers (sendPacket alloc seq m) :=
  offers_command fails fun _ => offers_beginWrite

theorem offers_sendPacketInSequence {m : Proc Code Builder Unit} (fails : Fails Refusal m) :
    Offers (sendPacketInSequence alloc m) := by
  apply offers_command fails
  intro builder
  apply Offers.after
  · intro c
    rfl
  · exact .modify _
  · exact beside_modify (fun _ => rfl) fun _ _ => rfl
  · exact keeps_modify (uses_callRel alloc).toReadRel fun _ => ⟨rfl, rfl, rfl, rfl⟩
  intro _
  exact offers_beginWrite

theorem Offers.budget (h : Offers send) {n : Nat} (budget : Budget n c) :
    Budget n (send c).2 := by
  obtain ⟨hready, hlength⟩ := budget
  have hkeeps := h.keeps c
  obtain ⟨_, _, hnet⟩ := hkeeps.net
  rw [Budget, hnet]
  exact ⟨hready, hlength.imp_left hkeeps.io.trans⟩

/-- The turns do not run out before the polls do. -/
theorem flushFull_persists {turns : Nat} (enough : c.socket.net.polls.length < turns) :
    (∃ v, onSocket Sock.wait c = (.ok (), v) ∧ Persists .again (onSocket Sock.wait) flushWrites v
      (flushFull turns c).1 (flushFull turns c).2) ∨
    ∃ rc, onSocket Sock.wait c = (.error rc, (flushFull turns c).2) ∧
      (flushFull turns c).1 = .error rc := by
  induction turns generalizing c with
  | zero => exact absurd enough (Nat.not_lt_zero _)
  | succ turns ih =>
    rw [flushFull]
    rcases hwait : onSocket Sock.wait c with ⟨rc | _, v⟩
    · rw [bind_of_error hwait]
      exact .inr ⟨rc, rfl, rfl⟩
    · left
      refine ⟨v, rfl, ?_⟩
      rw [bind_of_ok hwait, attempt_bind]
      rcases hflush : flushWrites v with ⟨rc | _, u⟩
      · dsimp only
        by_cases hrc : rc = .again
        · subst hrc
          dsimp only
          have hless : u.socket.net.polls.length < turns := by
            have hpolls := polls_flushWrites v
            rw [hflush] at hpolls
            dsimp only at hpolls
            rw [hpolls]
            obtain ⟨hio, hsock⟩ | ⟨more, -, hmore, hsock⟩ | ⟨sock, -, -, hsock⟩ :=
              c.socket.wait_cases
            · rw [onSocket, zoom_apply, hsock] at hwait
              cases hwait
              have hclosed := @flushWrites_shutdown c hio
              rw [hflush] at hclosed
              cases hclosed
            · rw [onSocket, zoom_apply, hsock] at hwait
              cases hwait
              rw [hmore] at enough
              exact Nat.lt_of_succ_lt_succ enough
            · rw [onSocket, zoom_apply, hsock] at hwait
              cases hwait
          obtain ⟨w, hwait', hrest⟩ | ⟨rc, hwait', hend⟩ := ih hless
          · exact .again hflush hwait' hrest
          · rw [hend]
            exact .failed hflush hwait'
        · have hend : Persists .again (onSocket Sock.wait) flushWrites v (.error rc) u :=
            .stop hflush (by simpa using hrc)
          cases rc with
          | again => exact absurd rfl hrc
          | _ => exact hend
      · exact .stop hflush (by simp)

theorem sendFull_flushed (h : Offers send) {t' : Conn} (hs : Polled c c')
    (e : sendFull send c' = (r, t')) :
    (∃ t, Flushed send c r t ∧ Polled t t') ∨ WaitFailed (onSocket Sock.wait) r t' := by
  obtain ⟨hend, hu⟩ := h.blind c c' hs
  rw [sendFull, attempt_bind] at e
  rcases hsend : send c with ⟨rc | _, u⟩
  · rw [hsend] at hend hu
    rw [← hend.eq] at e
    by_cases hrc : rc = .again
    · subst hrc
      change flushFull _ (send c').2 = _ at e
      obtain ⟨v, hwait, hflush⟩ | ⟨rc, hwait, hfail⟩ :=
        @flushFull_persists (send c').2 _ (Nat.lt_succ_self _)
      · rw [show flushFull _ (send c').2 = _ from e] at hflush
        have hv : Polled (send c').2 v := by
          have := polled_onSocket_wait (send c').2
          rwa [hwait] at this
        refine (hflush.returns offers_flushWrites.blind polled_onSocket_wait
          (IsTrans.trans _ _ _ hu hv)).imp_left ?_
        rintro ⟨t, hreturns, ht⟩
        exact ⟨t, .later hsend hreturns, ht⟩
      · rw [show flushFull _ (send c').2 = _ from e] at hwait hfail
        exact .inr ⟨_, rc, hwait, hfail⟩
    · have he : (.error rc, (send c').2) = (r, t') := by
        cases rc with
        | again => exact absurd rfl hrc
        | _ => exact e
      cases he
      exact .inl ⟨u, .atOnce hsend (by simpa using hrc), hu⟩
  · rw [hsend] at hend hu
    rw [← hend.eq] at e
    cases e
    exact .inl ⟨u, .atOnce hsend (by simp), hu⟩

theorem Budget.mono {m n : Nat} (h : Budget n c) (le : m ≤ n) : Budget m c :=
  ⟨h.1, h.2.imp_right (Nat.le_trans le)⟩

theorem Flushed.sendFull (h : Offers send) {n : Nat} {t : Conn} (flushed : Flushed send c r t)
    (hs : Polled c c') (budget : Budget (n + c.socket.writes) c') :
    ∃ t', sendFull send c' = (r, t') ∧ Polled t t' ∧ Budget (n + t.socket.writes) t' := by
  cases flushed with
  | atOnce e hr =>
    obtain ⟨hend, ht⟩ := h.blind c c' hs
    have hbudget := h.budget budget
    have hless := h.paced.less (s := c) trivial
    rw [e] at hend ht hless
    refine ⟨_, ?_, ht, hbudget.mono (Nat.add_le_add_left hless n)⟩
    rw [Conn.sendFull, attempt_bind, ← hend.eq]
    cases r with
    | ok _ => rfl
    | error rc =>
      cases rc with
      | again => exact absurd rfl hr
      | _ => rfl
  | @later u _ _ e hreturns =>
    obtain ⟨hend, hu⟩ := h.blind c c' hs
    have hbudget := h.budget budget
    rw [e] at hend hu
    have hless : u.socket.writes < c.socket.writes :=
      (h.paced.asks trivial e).resolve_right fun hfull => stalls_flushWrites.not_returns hfull hreturns
    obtain ⟨k, hk, -, hle⟩ := hreturns.within paced_flushWrites stalls_flushWrites trivial
    have hle : k + t.socket.writes ≤ u.socket.writes := hle
    obtain ⟨v, hwait, hbudget, hv⟩ := Budget.wait (n := n + t.socket.writes + k)
      (hbudget.mono (by omega))
    obtain ⟨t', hpersists, ht, hleft⟩ := hk.persists offers_flushWrites.blind
      (fun _ _ => offers_flushWrites.budget) (fun _ _ => Budget.wait) (IsTrans.trans _ _ _ hu hv)
      hbudget
    refine ⟨t', ?_, ht, hleft⟩
    rw [Conn.sendFull, attempt_bind, ← hend.eq]
    change flushFull _ (send c').2 = _
    obtain ⟨v', hwait', hflush⟩ | ⟨rc, hwait', -⟩ :=
      @flushFull_persists (send c').2 _ (Nat.lt_succ_self _)
    · rw [hwait] at hwait'
      cases hwait'
      obtain ⟨hr, ht⟩ := hflush.unique hpersists
      exact Prod.ext hr ht
    · rw [hwait] at hwait'
      cases hwait'

end Conn

end Trilogy
