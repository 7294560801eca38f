import Trilogy.Sending

namespace Trilogy

open Lib Proc

/-- The functions of `blocking.h` for a connection that is established. -/
inductive BlockingCall
  | changeDb (name : List UInt8)
  | setOption (option : UInt16)
  | ping
  | query (sql : List UInt8)
  | readFullColumn
  | readFullRow
  | close
  | stmtPrepare (stmt : List UInt8)
  | stmtExecute (stmt : StmtOkPacket) (flags : UInt8) (binds : Option (List BinaryValue))
  | stmtBindData (stmt : StmtOkPacket) (param_num : UInt16) (data : List UInt8)
  | stmtReadFullRow (stmt : StmtOkPacket) (columns : List Column) (values_out : List BinaryValue)
  | stmtReset (stmt : StmtOkPacket)
  | stmtClose (stmt : StmtOkPacket)

namespace BlockingCall

section

variable (alloc : Alloc)

def run : BlockingCall → Proc Code Conn Decoded
  | changeDb name => (fun _ => .done) <$> Conn.changeDb alloc name
  | setOption option => (fun _ => .done) <$> Conn.setOption alloc option
  | ping => (fun _ => .done) <$> Conn.ping alloc
  | query sql => (Option.elim · .done .haveResults) <$> Conn.query alloc sql
  | readFullColumn => .column <$> Conn.readFullColumn alloc
  | readFullRow => .row <$> Conn.readFullRow alloc
  | close => (fun _ => .done) <$> Conn.close alloc
  | stmtPrepare stmt => .stmt <$> Conn.stmtPrepare alloc stmt
  | stmtExecute stmt flags binds =>
    (Option.elim · .done .haveResults) <$> Conn.stmtExecute alloc stmt flags binds
  | stmtBindData stmt param_num data =>
    (fun _ => .done) <$> Conn.stmtBindData alloc stmt param_num data
  | stmtReadFullRow stmt columns values_out =>
    .stmtRow <$> Conn.stmtReadFullRow alloc stmt columns values_out
  | stmtReset stmt => (fun _ => .done) <$> Conn.stmtReset alloc stmt
  | stmtClose stmt => (fun _ => .done) <$> Conn.stmtClose alloc stmt

/-- What is called first, where there is a request. -/
def request : BlockingCall → Proc Code Conn Unit
  | changeDb name => Conn.changeDbSend alloc name
  | setOption option => Conn.setOptionSend alloc option
  | ping => Conn.pingSend alloc
  | query sql => Conn.querySend alloc sql
  | close => Conn.closeSend alloc
  | stmtPrepare stmt => Conn.stmtPrepareSend alloc stmt
  | stmtExecute stmt flags binds => Conn.stmtExecuteSend alloc stmt flags binds
  | stmtBindData stmt param_num data => Conn.stmtBindDataSend alloc stmt param_num data
  | stmtReset stmt => Conn.stmtResetSend alloc stmt
  | stmtClose stmt => Conn.stmtCloseSend alloc stmt
  | readFullColumn | readFullRow | stmtReadFullRow .. => pure ()

/-- What is called then, where there is a response. -/
def response : BlockingCall → Proc Code Conn Decoded
  | changeDb _ => (fun _ => .done) <$> Conn.changeDbRecv alloc
  | setOption _ => (fun _ => .done) <$> Conn.setOptionRecv alloc
  | ping => (fun _ => .done) <$> Conn.pingRecv alloc
  | query _ => (Option.elim · .done .haveResults) <$> Conn.queryRecv alloc
  | readFullColumn => .column <$> Conn.readColumn alloc
  | readFullRow => .row <$> Conn.readRow alloc
  | close => (fun _ => .done) <$> Conn.closeRecv alloc
  | stmtPrepare _ => .stmt <$> Conn.stmtPrepareRecv alloc
  | stmtExecute .. => (Option.elim · .done .haveResults) <$> Conn.stmtExecuteRecv alloc
  | stmtReadFullRow stmt columns values_out =>
    .stmtRow <$> Conn.stmtReadRow alloc stmt columns values_out
  | stmtReset _ => (fun _ => .done) <$> Conn.stmtResetRecv alloc
  | stmtBindData .. | stmtClose _ => pure .done

/-- The functions one after the other, with what each returned. -/
def runs : List BlockingCall → Conn → List (BlockingCall × Except Code Decoded) × Conn
  | [], c => ([], c)
  | call :: calls, c =>
    let r := call.run alloc c
    let rest := runs calls r.2
    ((call, r.1) :: rest.1, rest.2)

end

end BlockingCall

namespace Conn

/-- A request that is flushed until it is out, and a response that is asked for until
it is there. -/
inductive Answered {α : Type} (send : Proc Code Conn Unit) (recv : Proc Code Conn α) :
    Conn → Except Code α → Conn → Prop
  | refused {c rc c'} : Flushed send c (.error rc) c' → Answered send recv c (.error rc) c'
  | received {c c₁ r c'} : Flushed send c (.ok ()) c₁ → Returns .again recv c₁ r c' →
      Answered send recv c r c'

end Conn

/-- The same functions, called without blocking; each is called again for as long as
it asks for that. -/
inductive Retries (alloc : Alloc) : Conn → List (BlockingCall × Except Code Decoded) → Conn → Prop
  | nil (c : Conn) : Retries alloc c [] c
  | cons {c call r c₁ trace c₂}
      (first : Conn.Answered (call.request alloc) (call.response alloc) c r c₁)
      (rest : Retries alloc c₁ trace c₂) : Retries alloc c ((call, r) :: trace) c₂

namespace Conn

variable {alloc : Alloc} {α β : Type} {c c' t t' : Conn} {send : Proc Code Conn Unit}
  {recv : Proc Code Conn α} {r : Except Code α}

theorem bounded_map (f : α → β) (h : Bounded recv) : Bounded (f <$> recv) := by
  obtain ⟨stuck, hstuck, paced, stalls⟩ := h
  rw [map_eq_pure_bind]
  exact ⟨stuck, hstuck, .bind paced fun a => .of_fails (.pure _) fun c valid =>
    ⟨valid, Nat.le_refl _⟩, stalls.bind⟩

theorem blind_map (f : α → β) (h : Blind Polled recv) : Blind Polled (f <$> recv) := by
  rw [map_eq_pure_bind]
  exact .bind h fun a => .pure _

theorem keeps_map {R : Conn → Conn → Prop} (f : α → β) (h : Keeps R recv) :
    Keeps R (f <$> recv) := by
  intro c
  rw [map_state]
  exact h c

theorem Receiving.map (f : α → β) (h : Receiving recv) : Receiving (f <$> recv) where
  bounded := bounded_map f h.bounded
  blind := blind_map f h.blind
  polls c := by
    rw [map_state]
    exact h.polls c
  shut c hio := by
    rw [map_state]
    exact h.shut c hio
  writes := keeps_map f h.writes

theorem Listening.map (f : α → β) (h : Listening recv) : Listening (f <$> recv) :=
  ⟨bounded_map f h.bounded, blind_map f h.blind, keeps_map f h.onlyRead⟩

theorem listening_pure (a : α) : Listening (pure a) where
  bounded := ⟨fun _ => False, fun _ h => h.elim,
    .of_fails (.pure _) fun _ valid => ⟨valid, Nat.le_refl _⟩, fun _ h => h.elim⟩
  blind := .pure a
  onlyRead := .pure a

theorem offers_pure : Offers (pure ()) where
  paced := .of_fails (.pure _) fun _ _ => ⟨trivial, Nat.le_refl _⟩
  blind := .pure ()
  keeps := .pure ()
  uses := .pure ()

theorem recvFull_map (f : α → β) (turns : Nat) : recvFull (fun _ => f <$> recv) turns c =
    (f <$> recvFull (fun _ => recv) turns) c := by
  induction turns generalizing c with
  | zero => rfl
  | succ turns ih =>
    rw [map_apply, recvFull, recvFull, attempt_bind, attempt_bind, map_apply]
    rcases recv c with ⟨rc | a, u⟩
    · by_cases hrc : rc = .again
      · subst hrc
        simp only [Except.map, bind_apply]
        rcases onSocket Sock.wait u with ⟨rc | _, v⟩
        · rfl
        · exact (@ih v).trans (map_apply f _ v)
      · cases rc with
        | again => exact absurd rfl hrc
        | _ => rfl
    · rfl

theorem readFull_map (f : α → β) : readFull (f <$> recv) = f <$> readFull recv := by
  funext c
  rw [map_apply]
  exact (recvFull_map f _).trans (map_apply f _ c)

theorem command_map (f : α → β) : command send (f <$> recv) = f <$> command send recv := by
  rw [command, command, readFull_map, map_bind]

theorem command_received : command (pure ()) recv = readFull recv := rfl

theorem command_sent {a : α} : command send (pure a) = (fun _ => a) <$> sendFull send := by
  rw [map_eq_pure_bind]
  rfl

/-- What there is to read and to write bounds how often a user has to call. -/
def patience (c : Conn) : Nat := c.socket.writes + c.turnsLeft

theorem Flushed.uses (h : Offers send) {r : Except Code Unit} (flushed : Flushed send c r c') :
    Uses c c' := by
  have hsend := h.uses c
  cases flushed with
  | atOnce e _ =>
    rw [e] at hsend
    exact hsend
  | later e hreturns =>
    rw [e] at hsend
    exact IsTrans.trans _ _ _ hsend (hreturns.keeps offers_flushWrites.uses)

theorem Receiving.returns_valid (h : Receiving recv) (valid : pace.valid c)
    (returns : Returns .again recv c r c') : pace.valid c' := by
  obtain ⟨_, -, hvalid, -⟩ := h.bounded.within valid returns
  exact hvalid

theorem Answered.valid (hsend : Offers send) (hrecv : Receiving recv) (valid : pace.valid c)
    (h : Answered send recv c r c') : pace.valid c' := by
  cases h with
  | refused flushed => exact (flushed.uses hsend valid).1
  | received flushed returns => exact hrecv.returns_valid (flushed.uses hsend valid).1 returns

theorem Polled.valid (h : Polled c c') (valid : pace.valid c) : pace.valid c' := by
  obtain ⟨_, -, rfl⟩ := h
  exact valid

theorem command_answered (hsend : Offers send) (hrecv : Receiving recv) (hs : Polled c c')
    (valid : pace.valid c) (e : command send recv c' = (r, t')) :
    (∃ t, Answered send recv c r t ∧ Polled t t') ∨ WaitFailed (onSocket Sock.wait) r t' := by
  rcases hfull : sendFull send c' with ⟨rc | _, u'⟩
  · rw [command, bind_of_error hfull] at e
    cases e
    refine (sendFull_flushed hsend hs hfull).imp ?_ ?_
    · rintro ⟨t, hflushed, ht⟩
      exact ⟨t, .refused hflushed, ht⟩
    · rintro ⟨u, rc, hwait, ⟨⟩⟩
      exact ⟨u, _, hwait, rfl⟩
  · rw [command, bind_of_ok hfull] at e
    obtain ⟨u, hflushed, hu⟩ | ⟨_, _, _, ⟨⟩⟩ := sendFull_flushed hsend hs hfull
    have hvalid := hu.valid (hflushed.uses hsend valid).1
    obtain ⟨t, hreturns, ht⟩ | hfailed :=
      ((readFull_iff hrecv hvalid).mp e).returns hrecv.blind polled_onSocket_wait hu
    · exact .inl ⟨t, .received hflushed hreturns, ht⟩
    · exact .inr hfailed

theorem Answered.command (hsend : Offers send) (hrecv : Receiving recv) {n : Nat}
    (h : Answered send recv c r t) (hs : Polled c c') (valid : pace.valid c)
    (budget : Budget (n + c.patience) c') :
    ∃ t', Conn.command send recv c' = (r, t') ∧ Polled t t' ∧ Budget (n + t.patience) t' := by
  have budget : Budget (n + c.turnsLeft + c.socket.writes) c' := by
    rw [Nat.add_assoc, Nat.add_comm c.turnsLeft]
    exact budget
  cases h with
  | refused flushed =>
    obtain ⟨t', hfull, ht, hbudget⟩ := flushed.sendFull hsend hs budget
    have hless := (flushed.uses hsend valid).2
    refine ⟨t', ?_, ht, hbudget.mono ?_⟩
    · rw [Conn.command, bind_of_error hfull]
    · unfold patience
      omega
  | @received u _ _ flushed returns =>
    obtain ⟨u', hfull, hu, hbudget⟩ := flushed.sendFull hsend hs budget
    obtain ⟨hvalid, hless⟩ := flushed.uses hsend valid
    obtain ⟨k, hk, -, hle⟩ := hrecv.bounded.within hvalid returns
    have hwrites : t.socket.writes ≤ u.socket.writes := returns.keeps hrecv.writes
    obtain ⟨t', hpersists, ht, hbudget⟩ := hk.persists (n := n + t.patience) hrecv.blind
      hrecv.budget (fun _ _ => Budget.wait) hu (hbudget.mono (by unfold patience; omega))
    refine ⟨t', ?_, ht, hbudget⟩
    rw [Conn.command, bind_of_ok hfull]
    exact (readFull_iff hrecv (hu.valid hvalid)).mpr hpersists

end Conn

namespace BlockingCall

open Conn

variable {alloc : Alloc}

theorem run_eq (call : BlockingCall) :
    call.run alloc = command (call.request alloc) (call.response alloc) := by
  cases call with
  | readFullColumn | readFullRow | stmtReadFullRow stmt columns values_out =>
    exact (readFull_map _).symm.trans command_received.symm
  | stmtBindData stmt param_num data | stmtClose stmt => exact command_sent.symm
  | _ => exact (command_map _).symm

theorem offers_request (call : BlockingCall) : Offers (call.request alloc) := by
  have built : ∀ {m : Proc Code Builder Unit}, Fails BuildFault m → Fails Refusal m :=
    fun hm => hm.mono fun _ h => .inl h
  have command : ∀ {cmd : UInt8} {m : Proc Code Builder Unit}, Fails BuildFault m →
      Fails Refusal (do Builder.writeUint8 alloc cmd; m; modify Builder.finalize) :=
    fun hm => built (.bind (Builder.fails_writeUint8 _ _) fun _ => .bind hm fun _ => .modify _)
  cases call with
  | readFullColumn | readFullRow | stmtReadFullRow _ _ _ => exact offers_pure
  | changeDb name => exact offers_sendPacket (command (Builder.fails_writeBuffer _ _)) 0
  | setOption option => exact offers_sendPacket (command (Builder.fails_writeUint16 _ _)) 0
  | ping | close =>
    exact offers_sendPacket (built (.bind (Builder.fails_writeUint8 _ _) fun _ => .modify _)) 0
  | query sql => exact offers_sendPacketInSequence (command (Builder.fails_writeBuffer _ _))
  | stmtPrepare stmt => exact offers_sendPacket (command (Builder.fails_writeBuffer _ _)) 0
  | stmtExecute stmt flags binds =>
    exact offers_sendPacketInSequence (fails_buildStmtExecutePacket _ _ _ _ _)
  | stmtBindData stmt param_num data =>
    exact offers_sendPacket (built (.bind (Builder.fails_writeUint8 _ _) fun _ =>
      .bind (Builder.fails_writeUint32 _ _) fun _ => .bind (Builder.fails_writeUint16 _ _) fun _ =>
      .bind (Builder.fails_writeBuffer _ _) fun _ => .modify _)) 0
  | stmtReset stmt | stmtClose stmt =>
    exact offers_sendPacket (command (Builder.fails_writeUint32 _ _)) 0

theorem listening_response (call : BlockingCall) (stays : call ≠ .close) :
    Listening (call.response alloc) := by
  cases call with
  | changeDb _ | ping | stmtReset _ => exact listening_readGenericResponse.map _
  | setOption _ => exact listening_setOptionRecv.map _
  | query _ => exact listening_queryRecv.map _
  | readFullColumn => exact listening_readColumn.map _
  | readFullRow => exact listening_readRow.map _
  | close => exact absurd rfl stays
  | stmtPrepare _ => exact listening_stmtPrepareRecv.map _
  | stmtExecute _ _ _ => exact listening_stmtExecuteRecv.map _
  | stmtReadFullRow _ _ _ => exact (listening_stmtReadRow _ _ _).map _
  | stmtBindData _ _ _ | stmtClose _ => exact listening_pure _

theorem receiving_response (call : BlockingCall) : Receiving (call.response alloc) := by
  by_cases stays : call = .close
  · rw [stays]
    exact receiving_closeRecv.map _
  · exact (call.listening_response stays).receiving

end BlockingCall

open Conn BlockingCall

section

variable {alloc : Alloc} {calls : List BlockingCall} {c c' t : Conn}
  {trace : List (BlockingCall × Except Code Decoded)}

theorem runs_retries (hs : Polled c c') (valid : pace.valid c) :
    (∃ t, Retries alloc c (runs alloc calls c').1 t ∧ Polled t (runs alloc calls c').2) ∨
    ∃ before call after t t', (runs alloc calls c').1 = before ++ (call, .error .syserr) :: after ∧
      Retries alloc c before t ∧ Polled t t' ∧
      WaitFailed (onSocket Sock.wait) (call.run alloc t').1 (call.run alloc t').2 := by
  induction calls generalizing c c' with
  | nil => exact .inl ⟨c, .nil c, hs⟩
  | cons call calls ih =>
    have hrun : command (call.request alloc) (call.response alloc) c' =
        ((call.run alloc c').1, (call.run alloc c').2) := by
      rw [← call.run_eq]
    obtain ⟨u, first, hu⟩ | hfailed :=
      command_answered call.offers_request call.receiving_response hs valid hrun
    · have hvalid := first.valid call.offers_request call.receiving_response valid
      obtain ⟨t, rest, ht⟩ | ⟨before, call', after, t, t', htrace, rest, ht, hfailed⟩ :=
        ih hu hvalid
      · exact .inl ⟨t, .cons first rest, ht⟩
      · exact .inr ⟨(call, (call.run alloc c').1) :: before, call', after, t, t',
          congrArg _ htrace, .cons first rest, ht, hfailed⟩
    · have hsyserr : (call.run alloc c').1 = .error .syserr := by
        obtain ⟨v, rc, hwait, hend⟩ := hfailed
        rw [hend, fails_wait hwait]
      refine .inr ⟨[], call, (runs alloc calls (call.run alloc c').2).1, c, c', ?_, .nil c, hs,
        hfailed⟩
      rw [runs, hsyserr]
      rfl

theorem Retries.runs (h : Retries alloc c trace t) (hs : Polled c c') (valid : pace.valid c)
    (budget : Budget c.patience c') :
    (BlockingCall.runs alloc (trace.map Prod.fst) c').1 = trace ∧
      Polled t (BlockingCall.runs alloc (trace.map Prod.fst) c').2 := by
  induction h generalizing c' with
  | nil c => exact ⟨rfl, hs⟩
  | @cons c call r u trace t first rest ih =>
    obtain ⟨u', hrun, hu, hbudget⟩ := first.command (n := 0) call.offers_request
      call.receiving_response hs valid (by rwa [Nat.zero_add])
    have hvalid := first.valid call.offers_request call.receiving_response valid
    rw [← call.run_eq] at hrun
    rw [Nat.zero_add] at hbudget
    obtain ⟨htrace, ht⟩ := ih hu hvalid hbudget
    rw [List.map_cons, BlockingCall.runs, hrun]
    exact ⟨congrArg _ htrace, ht⟩

end

/-- What the functions of `blocking.h` return, one after the other, a user of the
non-blocking ones gets by calling again, until a wait fails; and where every poll finds
the socket ready, and there are as many as there can be calls, it is the other way
round as well. -/
theorem blocking_agrees (alloc : Alloc) (c : Conn) (valid : c.recv_buff_pos ≤ c.recv_buff.length) :
    (∀ calls, (∃ t, Retries alloc c (runs alloc calls c).1 t ∧ Polled t (runs alloc calls c).2) ∨
      ∃ before call after t t', (runs alloc calls c).1 = before ++ (call, .error .syserr) :: after ∧
        Retries alloc c before t ∧ Polled t t' ∧
        WaitFailed (onSocket Sock.wait) (call.run alloc t').1 (call.run alloc t').2) ∧
    ∀ trace t, Retries alloc c trace t → (∀ ready ∈ c.socket.net.polls, ready = true) →
      c.patience ≤ c.socket.net.polls.length →
      (runs alloc (trace.map Prod.fst) c).1 = trace ∧
        Polled t (runs alloc (trace.map Prod.fst) c).2 := by
  have hsame : Polled c c := Std.Refl.refl c
  constructor
  · intro calls
    exact runs_retries hsame valid
  · intro trace t h hready henough
    exact h.runs hsame valid ⟨hready, .inr henough⟩

/-- A ping that takes two writes, and an answer that takes three reads. -/
theorem blocking_agrees_ping :
    let c := Conn.init { idleSock with net := { idleSock.net with
      raw_writes := [.wrote 2, .wrote 8]
      raw_reads := [.failed .eagain, .data [7, 0, 0, 1, 0], .data [0, 0, 2, 0, 0, 0]]
      polls := [true, true, true, true, true] } }
    (runs (fun _ => true) [.ping] c).1.map Prod.snd = [.ok .done] ∧
      ∃ t, Retries (fun _ => true) c (runs (fun _ => true) [.ping] c).1 t := by
  intro c
  have hends : (runs (fun _ => true) [.ping] c).1.map Prod.snd = [.ok .done] := by decide +kernel
  constructor
  · exact hends
  · obtain ⟨t, h, -⟩ | ⟨before, call, after, t, t', htrace, -⟩ :=
      (blocking_agrees (fun _ => true) c (Nat.le_refl 0)).1 [.ping]
    · exact ⟨t, h⟩
    · have hmem : (.error .syserr : Except Code Decoded) ∈ [.ok .done] := by
        rw [← hends, htrace]
        simp
      simp at hmem

end Trilogy
