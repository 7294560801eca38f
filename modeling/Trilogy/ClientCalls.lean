import Trilogy.Calls
import Trilogy.Lib.Triple
import Trilogy.RubyClient

namespace Trilogy

open Lib Proc

namespace Rb

/-- A relation of connections, on clients. -/
def OnConn (R : Conn → Conn → Prop) (s s' : Rb) : Prop := R s.ctx.conn s'.ctx.conn

section

variable {alloc : Alloc} {R : Conn → Conn → Prop} {α : Type}

instance [Std.Refl R] : Std.Refl (OnConn R) := ⟨fun s => Std.Refl.refl s.ctx.conn⟩

instance [IsTrans Conn R] : IsTrans Rb (OnConn R) :=
  ⟨fun _ _ _ h h' => @IsTrans.trans Conn R _ _ _ _ h h'⟩

theorem keeps_onConn {m : Proc Code Conn α} (hm : Keeps R m) : Keeps (OnConn R) (onConn m) :=
  fun s => hm s.ctx.conn

theorem keeps_bufferCheckout (h : ReadRel alloc R) : Keeps (OnConn R) bufferCheckout := by
  apply Keeps.modify
  intro s
  dsimp only
  split
  · exact h.same _ _ ⟨rfl, rfl, rfl, rfl⟩
  · exact h.same _ _ ⟨rfl, rfl, rfl, rfl⟩

theorem keeps_bufferCheckin (h : ReadRel alloc R) (buff : Nat) :
    Keeps (OnConn R) (bufferCheckin buff) := by
  apply Keeps.modify
  intro s
  dsimp only
  split
  · exact h.same _ _ ⟨rfl, rfl, rfl, rfl⟩
  · exact h.same _ _ ⟨rfl, rfl, rfl, rfl⟩

theorem keeps_free (h : ReadRel alloc R) : Keeps (OnConn R) free := by
  apply Keeps.modify
  intro s
  apply h.same
  split <;> exact ⟨rfl, rfl, rfl, rfl⟩

variable [Std.Refl R]

theorem keeps_mayRaise (r : Raised) : Keeps (OnConn R) (mayRaise r) := by
  intro s
  unfold mayRaise
  split <;> exact Std.Refl.refl s.ctx.conn

variable [IsTrans Conn R]

theorem keeps_getOpenCtx : Keeps (OnConn R) getOpenCtx :=
  .bind .get fun _ => .ite (fun _ => .pure _) fun _ => .throw _

theorem keeps_onBuffer {m : Proc Code Conn α} (hm : Keeps R m) : Keeps (OnConn R) (onBuffer m) := by
  refine .bind .get fun s => ?_
  cases s.ctx.buff with
  | none => exact .throw _
  | some _ => exact keeps_onConn hm

theorem keeps_acquireBuffer (h : ReadRel alloc R) : Keeps (OnConn R) acquireBuffer := by
  refine .bind .get fun s => ?_
  cases s.ctx.buff with
  | none => exact keeps_bufferCheckout h
  | some _ => exact .pure _

theorem keeps_releaseBuffer (h : ReadRel alloc R) : Keeps (OnConn R) releaseBuffer := by
  refine .bind .get fun s => ?_
  cases s.ctx.buff with
  | none => exact .pure _
  | some buff => exact keeps_bufferCheckin h buff

section

variable (shutdown : Keeps R (Conn.onSocket Sock.shutdown))
include shutdown

theorem keeps_sockShutdown : Keeps (OnConn R) sockShutdown :=
  .bind (keeps_onConn shutdown) fun _ => .pure _

omit [IsTrans Conn R] in
theorem keeps_sockWait : Keeps (OnConn R) sockWait := by
  refine .get_bind fun s => ?_
  split
  · exact Std.Refl.refl s.ctx.conn
  · cases s.waits with
    | nil => exact Std.Refl.refl s.ctx.conn
    | cons waited waits =>
      cases waited with
      | ready | timedOut | failed => exact Std.Refl.refl s.ctx.conn
      | interrupted => exact shutdown s.ctx.conn

theorem keeps_turn {m : Proc Code Conn α} (hm : Keeps R m)
    {again : Proc Exit Rb (Except Code α)} (ha : Keeps (OnConn R) again) :
    Keeps (OnConn R) (turn m again) := by
  apply Keeps.bind (keeps_onBuffer hm)
  intro rc
  cases rc with
  | ok _ => exact .pure _
  | error rc =>
    cases rc with
    | again =>
      apply Keeps.bind (keeps_sockWait shutdown)
      intro rc
      cases rc with
      | ok _ => exact ha
      | error _ => exact .pure _
    | _ => exact .pure _

theorem keeps_await {m : Proc Code Conn α} (hm : Keeps R m) (turns : Nat) :
    Keeps (OnConn R) (await m turns) := by
  induction turns with
  | zero => exact keeps_turn shutdown hm (.throw _)
  | succ turns ih => exact keeps_turn shutdown hm ih

end

theorem keeps_handleTrilogyError (h : ReadRel alloc R)
    (shutdown : Keeps R (Conn.onSocket Sock.shutdown)) (rc : Code) :
    Keeps (OnConn R) (handleTrilogyError rc : Proc Exit Rb α) :=
  .bind .get fun _ => .bind (keeps_releaseBuffer h) fun _ => .bind .get fun _ =>
    .bind (.when fun _ => keeps_sockShutdown shutdown) fun _ => .bind .get fun _ => .throw _

theorem keeps_orHandle (h : CallRel alloc R) {m : Proc Exit Rb (Except Code α)}
    (hm : Keeps (OnConn R) m) : Keeps (OnConn R) (orHandle m) := by
  apply Keeps.bind hm
  intro rc
  cases rc with
  | ok _ => exact .pure _
  | error rc => exact keeps_handleTrilogyError h.toReadRel h.shutdown rc

theorem keeps_sendFlushed (h : CallRel alloc R) {send : Proc Code Conn Unit} (hs : Keeps R send)
    (turns : Nat) : Keeps (OnConn R) (sendFlushed send turns) := by
  apply Keeps.bind (keeps_onBuffer hs)
  intro rc
  cases rc with
  | ok _ => exact .pure _
  | error rc =>
    cases rc with
    | again => exact keeps_await h.shutdown (Conn.keeps_flushWrites h.toWriteRel) turns
    | _ => exact .pure _

theorem keeps_command (h : CallRel alloc R) {send recv : Proc Code Conn Unit}
    (hs : Keeps R send) (hr : Keeps R recv) (turns : Nat) :
    Keeps (OnConn R) (command send recv turns) :=
  .bind (keeps_orHandle h (keeps_sendFlushed h hs turns)) fun _ =>
    .bind (keeps_orHandle h (keeps_await h.shutdown hr turns)) fun _ =>
    .bind (keeps_releaseBuffer h.toReadRel) fun _ => .pure _

/-- What a call of the library keeps that hands something out. -/
theorem keeps_of_call (h : CallRel alloc R) (call : Call) (same : ¬ call.Attaches)
    (flags : call ≠ .sslRequestSend) {m : Proc Code Conn α} {f : α → Decoded}
    (run : call.run alloc noDigests = f <$> m) : Keeps R m := by
  intro c
  rw [← map_state f, ← run]
  exact Call.keeps h noDigests same (fun hssl => absurd hssl flags) c

theorem keeps_recvTurn (h : CallRel alloc R) {again : Proc Exit Rb (Except Code (Option UInt64))}
    (ha : Keeps (OnConn R) again) : Keeps (OnConn R) (recvTurn alloc again) := by
  apply Keeps.bind (keeps_onBuffer (keeps_of_call h .queryRecv id (by simp) rfl))
  intro rc
  cases rc with
  | ok _ => exact .pure _
  | error rc =>
    cases rc with
    | again => exact .bind (keeps_orHandle h (keeps_sockWait h.shutdown)) fun _ => ha
    | _ => exact .pure _

theorem keeps_awaitQuery (h : CallRel alloc R) (turns : Nat) :
    Keeps (OnConn R) (awaitQuery alloc turns) := by
  induction turns with
  | zero => exact keeps_recvTurn h (.throw _)
  | succ turns ih => exact keeps_recvTurn h ih

theorem keeps_readColumns (h : CallRel alloc R) (turns more : Nat) (columns : List Column) :
    Keeps (OnConn R) (readColumns alloc turns more columns) := by
  induction more generalizing columns with
  | zero => exact .pure _
  | succ more ih =>
    have read := keeps_of_call h .readColumn id (by simp) rfl
    apply Keeps.bind (keeps_await h.shutdown read turns)
    intro rc
    cases rc with
    | ok _ => exact .bind (keeps_mayRaise _) fun _ => ih _
    | error _ => exact .pure _

theorem keeps_rowTurn (h : CallRel alloc R) {column_info : List ColumnInfo}
    {again : Rows → Proc Exit Rb (Except Code Rows)} (ha : ∀ rows, Keeps (OnConn R) (again rows))
    (rows : Rows) : Keeps (OnConn R) (rowTurn alloc column_info rows again) := by
  apply Keeps.bind (keeps_onBuffer (Conn.keeps_readRow h.toReadRel))
  intro rc
  cases rc with
  | ok _ => exact .bind (keeps_mayRaise _) fun _ => ha _
  | error rc =>
    cases rc with
    | again =>
      apply Keeps.bind (keeps_sockWait h.shutdown)
      intro rc
      cases rc with
      | ok _ => exact ha rows
      | error _ => exact .pure _
    | _ => exact .pure _

theorem keeps_readRows (h : CallRel alloc R) (column_info : List ColumnInfo) (turns : Nat)
    (rows : Rows) : Keeps (OnConn R) (readRows alloc column_info turns rows) := by
  induction turns generalizing rows with
  | zero => exact keeps_rowTurn h (fun _ => .throw _) rows
  | succ turns ih => exact keeps_rowTurn h ih rows

theorem keeps_readQueryResponse (h : CallRel alloc R) (turns : Nat) :
    Keeps (OnConn R) (readQueryResponse alloc turns) := by
  apply Keeps.bind (keeps_awaitQuery h turns)
  intro rc
  cases rc with
  | error _ => exact .pure _
  | ok columnCount =>
    apply Keeps.bind (keeps_mayRaise _)
    intro _
    cases columnCount with
    | none => exact .bind .get fun _ => .pure _
    | some columnCount =>
      apply Keeps.bind (keeps_readColumns h turns _ _)
      intro rc
      cases rc with
      | error _ => exact .pure _
      | ok columns =>
        apply Keeps.bind (keeps_mayRaise _)
        intro _
        apply Keeps.bind (keeps_readRows h _ turns _)
        intro rc
        cases rc with
        | error _ => exact .pure _
        | ok rows => exact .pure _

theorem keeps_protect (h : CallRel alloc R) {m : Proc Exit Rb α} (hm : Keeps (OnConn R) m) :
    Keeps (OnConn R) (protect m) := by
  apply Keeps.bind (Keeps.attempt hm)
  intro r
  cases r with
  | ok _ => exact .pure _
  | error e =>
    cases e with
    | raised r => exact .bind (keeps_sockShutdown h.shutdown) fun _ => .throw _
    | noBuffer | freed | unfinished => exact .throw _

theorem keeps_executeReadQueryResponse (h : CallRel alloc R) (turns : Nat) :
    Keeps (OnConn R) (executeReadQueryResponse alloc turns) :=
  .bind (keeps_orHandle h (keeps_protect h (keeps_readQueryResponse h turns))) fun _ =>
    .bind .get fun _ => .bind (.when fun _ => keeps_releaseBuffer h.toReadRel) fun _ => .pure _

theorem keeps_query (h : CallRel alloc R) (query : List UInt8) (turns : Nat) :
    Keeps (OnConn R) (Rb.query alloc query turns) :=
  .bind keeps_getOpenCtx fun _ => .bind (keeps_mayRaise _) fun _ =>
    .bind (keeps_acquireBuffer h.toReadRel) fun _ =>
    .bind (keeps_orHandle h (keeps_sendFlushed h
      (Conn.keeps_sendPacketInSequence h.toWriteRel _) turns)) fun _ =>
    keeps_executeReadQueryResponse h turns

theorem keeps_nextResult (h : CallRel alloc R) (turns : Nat) :
    Keeps (OnConn R) (nextResult alloc turns) :=
  .bind keeps_getOpenCtx fun _ => .bind .get fun _ =>
    .ite (fun _ => .pure _) fun _ => keeps_executeReadQueryResponse h turns

/-- The library escapes in the packet buffer. -/
theorem keeps_connEscape (h : ReadRel alloc R) (str : List UInt8) :
    Keeps R (Conn.escape alloc str) := by
  have onPacketBuffer : ∀ m, Keeps R (Conn.onPacketBuffer m) :=
    fun m c => h.same _ _ ⟨rfl, rfl, rfl, rfl⟩
  exact .bind .get fun _ => .bind (onPacketBuffer _) fun _ => .bind (onPacketBuffer _) fun _ =>
    .bind (.ite (fun _ => onPacketBuffer _) fun _ => onPacketBuffer _) fun _ =>
    .bind .get fun _ => .pure _

theorem keeps_escape (h : CallRel alloc R) (str : List UInt8) :
    Keeps (OnConn R) (Rb.escape alloc str) :=
  .bind keeps_getOpenCtx fun _ => .bind (keeps_mayRaise _) fun _ =>
    .bind (keeps_acquireBuffer h.toReadRel) fun _ =>
    .bind (keeps_orHandle h (keeps_onBuffer (keeps_connEscape h.toReadRel str))) fun _ =>
    .bind (keeps_mayRaise _) fun _ => .bind (keeps_releaseBuffer h.toReadRel) fun _ => .pure _

theorem keeps_close (h : CallRel alloc R) (turns : Nat) :
    Keeps (OnConn R) (Rb.close alloc turns) := by
  refine .bind .get fun s => .ite (fun _ => ?_) fun _ => .pure _
  refine .bind (keeps_acquireBuffer h.toReadRel) fun _ =>
    .bind (keeps_sendFlushed h (Conn.keeps_sendPacket h.toWriteRel _ _) turns) fun rc => ?_
  have freed : Keeps (OnConn R) (do releaseBuffer; free; pure Returned.nil) :=
    .bind (keeps_releaseBuffer h.toReadRel) fun _ => .bind (keeps_free h.toReadRel) fun _ => .pure _
  cases rc with
  | ok _ => exact .bind (keeps_await h.shutdown (Conn.keeps_closeRecv h) turns) fun _ => freed
  | error _ => exact freed

theorem keeps_check (h : CallRel alloc R) (check : Keeps R (Conn.onSocket Sock.check)) :
    Keeps (OnConn R) Rb.check := by
  refine .bind keeps_getOpenCtx fun _ => .bind (keeps_onConn check) fun rc => ?_
  cases rc with
  | ok _ => exact .pure _
  | error rc =>
    cases rc with
    | again => exact .pure _
    | _ => exact keeps_handleTrilogyError h.toReadRel h.shutdown _

theorem keeps_discard (h : CallRel alloc R) : Keeps (OnConn R) Rb.discard := by
  refine .bind .get fun s => .ite (fun _ => ?_) fun _ => .pure _
  exact .bind (keeps_sockShutdown h.shutdown) fun _ => .bind (keeps_free h.toReadRel) fun _ => .pure _

/-- What every call of the library and a look at the socket keep. -/
theorem Method.keeps (h : CallRel alloc R) (check : Keeps R (Conn.onSocket Sock.check))
    (method : Method) (turns : Nat) : Keeps (OnConn R) (method.run alloc turns) := by
  have hw := h.toWriteRel
  have hr := Conn.keeps_readGenericResponse h.toReadRel
  have setOptionRecv : Keeps R (Conn.setOptionRecv alloc) := by
    apply keeps_of_call h .setOptionRecv id (by simp) (f := fun _ => .done)
    rw [map_eq_pure_bind]
    rfl
  cases method with
  | query q => exact keeps_query h q turns
  | nextResult => exact keeps_nextResult h turns
  | moreResultsExist => exact .bind keeps_getOpenCtx fun _ => .bind .get fun _ => .pure _
  | escape str => exact keeps_escape h str
  | ping =>
    exact .bind keeps_getOpenCtx fun _ => .bind (keeps_acquireBuffer h.toReadRel) fun _ =>
      keeps_command h (Conn.keeps_sendPacket hw _ _) hr turns
  | changeDb database =>
    exact .bind keeps_getOpenCtx fun _ => .bind (keeps_mayRaise _) fun _ =>
      .bind (keeps_acquireBuffer h.toReadRel) fun _ =>
      keeps_command h (Conn.keeps_sendPacket hw _ _) hr turns
  | setServerOption option =>
    exact .bind keeps_getOpenCtx fun _ => .bind (keeps_acquireBuffer h.toReadRel) fun _ =>
      .bind (keeps_mayRaise _) fun _ =>
      keeps_command h (Conn.keeps_sendPacket hw _ _) setOptionRecv turns
  | check => exact keeps_check h check
  | close => exact keeps_close h turns
  | discard => exact keeps_discard h

end

section

variable {α : Type} {m : Proc Code Conn α} {I E : Conn → Prop} {J : Except Code α → Conn → Prop}

theorem onBuffer_triple (call : ∀ c, I c → J (m c).1 (m c).2) :
    Triple (fun s => I s.ctx.conn) (onBuffer m) (fun rc s => J rc s.ctx.conn)
      fun _ s => I s.ctx.conn := by
  apply Triple.get_bind
  intro s hs
  cases s.ctx.buff with
  | none => exact .throw fun t ht => ht ▸ hs
  | some _ =>
    constructor
    · rintro s _ t rfl he
      cases he
      exact call _ hs
    · rintro s e t rfl he
      cases he

/-- Only a wait that is interrupted does something to the connection. -/
theorem sockWait_triple (shut : ∀ c, I c → E (Conn.onSocket Sock.shutdown c).2) :
    Triple (fun s => I s.ctx.conn) sockWait (fun _ s => I s.ctx.conn) fun _ s => E s.ctx.conn := by
  apply Triple.get_bind
  intro s hs
  split
  · exact .pure fun t ht => ht ▸ hs
  · cases s.waits with
    | nil => exact .pure fun t ht => ht ▸ hs
    | cons waited waits =>
      have taken : Triple (· = s) (set { s with waits } : Proc Exit Rb PUnit)
          (fun _ t => I t.ctx.conn) fun _ t => E t.ctx.conn :=
        .modify fun _ _ => hs
      apply taken.bind
      intro _
      cases waited with
      | ready | timedOut | failed => exact .pure fun _ ht => ht
      | interrupted =>
        have closed : Triple (fun s => I s.ctx.conn) sockShutdown (fun _ t => E t.ctx.conn)
            fun _ t => E t.ctx.conn := by
          constructor
          · intro s _ t hs he
            cases he
            exact shut _ hs
          · intro s e t _ he
            cases he
        exact closed.bind fun _ => .throw fun _ ht => ht

/-- It does not return. -/
theorem handleTrilogyError_triple {R : Rb → Rb → Prop} {P F : Rb → Prop} {Q : α → Rb → Prop}
    {rc : Code} (keeps : Keeps R (handleTrilogyError rc : Proc Exit Rb α))
    (kept : ∀ s t, P s → R s t → F t) : Triple P (handleTrilogyError rc) Q fun _ => F where
  returns := by
    intro s a t _ he
    rw [handleTrilogyError, get_bind] at he
    obtain ⟨_, s₁, -, he⟩ := bind_ok.mp he
    rw [get_bind] at he
    obtain ⟨_, s₂, -, he⟩ := bind_ok.mp he
    cases he
  raises := (Triple.of_keeps keeps kept).raises

/-- `I` is what holds in front of a call, `J` what it comes to, and `E` what is left
where the loop is left in the middle. -/
theorem await_triple (call : ∀ c, I c → J (m c).1 (m c).2)
    (again : ∀ c, J (.error .again) c → I c) (left : ∀ c, I c → E c)
    (shut : ∀ c, I c → E (Conn.onSocket Sock.shutdown c).2) (turns : Nat) :
    Triple (fun s => I s.ctx.conn) (await m turns)
      (fun rc s => J rc s.ctx.conn ∨ (∃ rc', rc = .error rc') ∧ I s.ctx.conn)
      fun _ s => E s.ctx.conn := by
  have one : ∀ {next : Proc Exit Rb (Except Code α)},
      Triple (fun s => I s.ctx.conn) next
        (fun rc s => J rc s.ctx.conn ∨ (∃ rc', rc = .error rc') ∧ I s.ctx.conn)
        (fun _ s => E s.ctx.conn) →
      Triple (fun s => I s.ctx.conn) (turn m next)
        (fun rc s => J rc s.ctx.conn ∨ (∃ rc', rc = .error rc') ∧ I s.ctx.conn)
        fun _ s => E s.ctx.conn := by
    intro next hnext
    apply ((onBuffer_triple call).mono_raises fun _ s hs => left _ hs).bind
    intro rc
    cases rc with
    | ok a => exact .pure fun _ hs => .inl hs
    | error rc =>
      cases rc with
      | again =>
        apply ((sockWait_triple shut).pre fun s hs => again _ hs).bind
        intro rc
        cases rc with
        | ok _ => exact hnext
        | error rc => exact .pure fun _ hs => .inr ⟨⟨rc, rfl⟩, hs⟩
      | _ => exact .pure fun _ hs => .inl hs
  induction turns with
  | zero => exact one (.throw fun _ hs => left _ hs)
  | succ turns ih => exact one ih

end

end Rb

end Trilogy
