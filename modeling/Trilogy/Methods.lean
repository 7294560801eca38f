import Trilogy.Dialogue
import Trilogy.Turns

namespace Trilogy

open Lib Proc

namespace Answer

/-- The error that an answer is, or ends in. -/
def error : Answer → Option ErrReply
  | err error | rows _ _ _ (.failed error) | binaryRows _ _ (.failed error) => some error
  | silent | ok _ | rows _ _ _ (.terminator _) | binaryRows _ _ (.terminator _) | prepared .. =>
    none

/-- What a Ruby client makes of the answer to a query. -/
def result : Answer → Rb.Result
  | ok reply =>
    { fields := []
      rows := []
      last_insert_id := some reply.last_insert_id
      affected_rows := some reply.affected_rows }
  | rows columns _ values _ =>
    { fields := columns.map Column.name
      rows := values.map fun row => row.zip (columns.map columnInfo)
      last_insert_id := none
      affected_rows := none }
  | silent | err _ | binaryRows .. | prepared .. => ⟨[], [], none, none⟩

/-- What is left of an answer once its columns and rows are read. -/
def outcome {α : Type} (a : α) (answer : Answer) : Except Code α :=
  if answer.error = none then .ok a else .error .err

def rowCount : Answer → Nat
  | rows _ _ values _ => values.length
  | binaryRows _ values _ => values.length
  | silent | ok _ | err _ | prepared .. => 0

end Answer

/-- It is what the connection keeps of the last error. -/
theorem Conn.Learnt.error {answer : Answer} {c c' : Conn} {error : ErrReply}
    (h : Learnt c answer c') (he : answer.error = some error) :
    c'.error_code = error.code ∧ c'.error_message = error.message := by
  cases answer with
  | err _ =>
    cases he
    exact ⟨h.error_code, h.error_message⟩
  | rows _ _ _ ending | binaryRows _ _ ending =>
    cases ending with
    | terminator _ => cases he
    | failed _ =>
      cases he
      exact h
  | _ => cases he

namespace Rb

/-- The command that a method sends. -/
def Method.command : Method → Option Command
  | query sql => some (.query sql)
  | ping => some .ping
  | changeDb database => some (.changeDb database)
  | setServerOption option => some (.setOption option)
  | nextResult | moreResultsExist | escape _ | check | close | discard => none

/-- What a method returns by its answer. -/
def Method.value : Method → Answer → Returned
  | query _, answer => .result answer.result
  | _, _ => .bool true

def conclude (value : Returned) : Option ErrReply → Except Exit Returned
  | none => .ok value
  | some error => .error (.raised (.protocol error.code error.message))

/-- A method, and what is said to it. -/
structure Asking where
  method : Method
  exchange : Exchange
  asks : method.command = some exchange.command

def Asking.returned (a : Asking) : Except Exit Returned :=
  conclude (a.method.value a.exchange.answer) a.exchange.answer.error

variable {α : Type} {alloc : Alloc} {bound n turns : Nat} {c c₁ c' d : Conn} {s t : Rb}
  {rest : List UInt8} {trace : List (BlockingCall × Except Code Decoded)}

theorem Calm.getOpenCtx (h : Calm n c s) : Rb.getOpenCtx s = (.ok (), s) := by
  rw [Rb.getOpenCtx, get_bind, if_pos h.socket]
  rfl

theorem Calm.acquireBuffer (h : Calm n c s) :
    ∃ b t, Rb.acquireBuffer s = (.ok (), t) ∧ Busy n { c with packet_buffer := b } t := by
  obtain ⟨rfl, socket, ready, enough, raises, room⟩ := h
  rw [Rb.acquireBuffer, get_bind]
  cases hbuff : s.ctx.buff with
  | some buff =>
    exact ⟨s.ctx.conn.packet_buffer, s, rfl, ⟨rfl, socket, ready, enough, raises, room⟩,
      by simp [hbuff]⟩
  | none =>
    dsimp only [bufferCheckout, modify_apply]
    cases hentries : s.pool.entries with
    | nil => exact ⟨_, _, rfl, ⟨rfl, socket, ready, enough, raises, by simp [buffers, Pool.len,
        hentries, Pool.maxSize]⟩, by simp⟩
    | cons e entries =>
      have hroom : entries.length + 1 ≤ Pool.maxSize := by
        simpa [buffers, Pool.len, hentries, hbuff] using room
      exact ⟨_, _, rfl, ⟨rfl, socket, ready, enough, raises, hroom⟩, by simp⟩

theorem Calm.releaseBuffer (h : Calm n c s) :
    ∃ t, Rb.releaseBuffer s = (.ok (), t) ∧ Calm n c t := by
  obtain ⟨conn, socket, ready, enough, raises, room⟩ := h
  rw [Rb.releaseBuffer, get_bind]
  cases hbuff : s.ctx.buff with
  | none => exact ⟨s, rfl, conn, socket, ready, enough, raises, room⟩
  | some buff =>
    dsimp only [bufferCheckin, modify_apply]
    rw [buffers, hbuff] at room
    split
    · exact ⟨_, rfl, conn, socket, ready, enough, raises, Nat.le_of_succ_le room⟩
    · exact ⟨_, rfl, conn, socket, ready, enough, raises, room⟩

/-- There is room for the buffer, so that the message of the server is still there when
it is read. -/
theorem Busy.handleTrilogyError (α : Type) {error : ErrReply} (h : Busy n c s)
    (code : c.error_code = error.code) (message : c.error_message = error.message) :
    ∃ t, (Rb.handleTrilogyError .err : Proc Exit Rb α) s =
        (.error (.raised (.protocol error.code error.message)), t) ∧ Calm n c t := by
  have hkept : givingFrees s = false := by
    have hroom := h.room
    rw [buffers, if_pos (Option.isSome_iff_ne_none.mpr h.buff)] at hroom
    rw [givingFrees, decide_eq_false_iff_not]
    omega
  obtain ⟨t, hrelease, calm⟩ := h.toCalm.releaseBuffer
  refine ⟨t, ?_, calm⟩
  have hexit : exitBy .err false t.ctx.conn =
      .raised (.protocol error.code error.message) := by
    rw [exitBy, if_pos rfl, calm.conn, code, message]
    rfl
  rw [Rb.handleTrilogyError, get_bind, bind_of_ok hrelease, get_bind,
    when_neg (by simp [errorRecoverable]), hkept,
    pure_bind, get_bind, hexit]
  rfl


theorem orHandle_of_ok {m : Proc Exit Rb (Except Code α)} {a : α} (e : m s = (.ok (.ok a), t)) :
    orHandle m s = (.ok a, t) := by
  rw [orHandle, bind_of_ok e]
  rfl

theorem orHandle_of_error {m : Proc Exit Rb (Except Code α)} {rc : Code}
    (e : m s = (.ok (.error rc), t)) : orHandle m s = handleTrilogyError rc t := by
  rw [orHandle, bind_of_ok e]

theorem protect_of_ok {m : Proc Exit Rb α} {a : α} (e : m s = (.ok a, t)) :
    protect m s = (.ok a, t) := by
  rw [protect, attempt_bind, e]
  rfl

theorem flushed_pure {r : Except Code Unit} (h : Conn.Flushed (pure ()) c r c') :
    r = .ok () ∧ c' = c := by
  cases h with
  | atOnce e _ =>
    cases e
    exact ⟨rfl, rfl⟩
  | later e _ => cases e

/-- A call without a request only receives. -/
theorem retries_head {call : BlockingCall} {r : Except Code Decoded}
    (h : Retries alloc c ((call, r) :: trace) c') (silent : call.request alloc = pure ()) :
    ∃ c₁, Returns .again (call.response alloc) c r c₁ ∧ Retries alloc c₁ trace c' := by
  cases h with
  | cons first more =>
    cases first with
    | refused flushed =>
      rw [silent] at flushed
      exact absurd (flushed_pure flushed).1 (by simp)
    | received flushed returns =>
      rw [silent] at flushed
      obtain ⟨-, rfl⟩ := flushed_pure flushed
      exact ⟨_, returns, more⟩

theorem readColumns_received {columns : List Column}
    (h : Retries alloc c (readsOfColumns columns ++ trace) c') (within : Within bound c)
    (le : bound ≤ turns) (busy : Busy c.patience c s) (seen : List Column) :
    ∃ c₁ t, readColumns alloc turns columns.length seen s = (.ok (.ok (seen ++ columns)), t) ∧
      Retries alloc c₁ trace c' ∧ Busy c₁.patience c₁ t ∧ Within bound c₁ := by
  induction columns generalizing c s seen with
  | nil =>
    rw [List.append_nil]
    exact ⟨c, s, rfl, h, busy, within⟩
  | cons column columns ih =>
    obtain ⟨c₁, hresponse, hmore⟩ := retries_head h rfl
    obtain ⟨r, hreturns, hr⟩ := Returns.of_map hresponse
    cases r with
    | error rc => cases hr
    | ok a =>
      cases hr
      obtain ⟨t, hawait, hbusy, hwithin⟩ :=
        await_returns Conn.listening_readColumn.receiving hreturns within le busy
      obtain ⟨u, hraise, hbusy'⟩ := hbusy.mayRaise .ruby
      obtain ⟨c₂, v, hcolumns, hrest⟩ := ih hmore hwithin hbusy' (seen ++ [column])
      rw [List.append_assoc, List.singleton_append] at hcolumns
      refine ⟨c₂, v, ?_, hrest⟩
      rw [List.length_cons, readColumns, bind_of_ok hawait]
      exact (bind_of_ok hraise).trans hcolumns

theorem readRows_received {rows : List (List Value)} {code : Code}
    (h : Retries alloc c (rows.map (fun row => (.readFullRow, .ok (.row row))) ++
      [(.readFullRow, .error code)]) c') (within : Within bound c)
    (le : c.patience + rows.length ≤ turns) (busy : Busy c.patience c s)
    (column_info : List ColumnInfo) (seen : Rows) :
    ∃ t, readRows alloc column_info turns seen s =
        (.ok (rowsEnd (seen ++ rows.map fun row => row.zip column_info) code), t) ∧
      Busy c'.patience c' t ∧ Within bound c' := by
  induction rows generalizing c s turns seen with
  | nil =>
    obtain ⟨c₁, hresponse, hnil⟩ := retries_head h rfl
    cases hnil
    obtain ⟨r, hreturns, hr⟩ := Returns.of_map hresponse
    cases r with
    | ok a => cases hr
    | error rc =>
      cases hr
      obtain ⟨k, hk, hvalid, hpaid⟩ :=
        Conn.listening_readRow.receiving.paid within.valid hreturns
      have hle := within.le
      rw [List.length_nil] at le
      obtain ⟨t, hrows, hbusy⟩ :=
        readRows_end (n := c'.patience) hk (busy.mono (by omega)) column_info turns seen (by omega)
      rw [List.map_nil, List.append_nil]
      exact ⟨t, hrows, hbusy, hvalid, by omega⟩
  | cons row rows ih =>
    obtain ⟨c₁, hresponse, hmore⟩ := retries_head h rfl
    obtain ⟨r, hreturns, hr⟩ := Returns.of_map hresponse
    cases r with
    | error rc => cases hr
    | ok a =>
      cases hr
      obtain ⟨k, hk, hvalid, hpaid⟩ :=
        Conn.listening_readRow.receiving.paid within.valid hreturns
      have hle := within.le
      rw [List.length_cons] at le
      obtain ⟨more, rfl⟩ := Nat.exists_eq_add_of_le' (show 1 + k ≤ turns by omega)
      obtain ⟨t, hrow, hbusy⟩ :=
        readRows_row (n := c₁.patience) hk (busy.mono (by omega)) column_info more seen
      obtain ⟨u, hrows, hends⟩ := @ih more c₁ t hmore ⟨hvalid, by omega⟩ (by omega) hbusy
        (seen ++ [row.zip column_info])
      rw [List.append_assoc, List.singleton_append] at hrows
      rw [Nat.add_assoc] at hrow
      exact ⟨u, hrow.trans hrows, hends⟩

/-- The definitions and the rows, once their number is known. -/
theorem readQueryResponse_rows {sql : List UInt8} {columns : List Column} {columnEof : EofPacket}
    {rows : List (List Value)} {ending : Conn.Ending} (counted : columns.length < 2 ^ 64)
    (hawait : awaitQuery alloc turns s = (.ok (.ok (some (UInt64.ofNat columns.length))), t))
    (more : Retries alloc c ((Answer.rows columns columnEof rows ending).more (.query sql)) c')
    (within : Within bound c) (le : bound + rows.length ≤ turns) (busy : Busy c.patience c t) :
    ∃ u, readQueryResponse alloc turns s = (.ok ((Answer.rows columns columnEof rows ending).outcome
        (Answer.rows columns columnEof rows ending).result), u) ∧
      Busy c'.patience c' u ∧ Within bound c' := by
  have hlength : (UInt64.ofNat columns.length).toNat = columns.length :=
    Nat.mod_eq_of_lt counted
  obtain ⟨u, hraise, hbusy₁⟩ := busy.mayRaise .ruby
  obtain ⟨c₂, v, hcolumns, hrest, hbusy₂, hwithin₂⟩ :=
    readColumns_received more within (Nat.le_of_add_right_le le) hbusy₁ []
  obtain ⟨w, hraise', hbusy₃⟩ := hbusy₂.mayRaise .ruby
  have hle : c₂.patience + rows.length ≤ turns :=
    Nat.le_trans (Nat.add_le_add_right hwithin₂.le _) le
  obtain ⟨x, hrows, hends⟩ :=
    readRows_received hrest hwithin₂ hle hbusy₃ (columns.map columnInfo) []
  refine ⟨x, ?_, hends⟩
  rw [← hlength] at hcolumns
  calc readQueryResponse alloc turns s
    _ = _ := by rw [readQueryResponse, bind_of_ok hawait]
    _ = _ := bind_of_ok hraise
    _ = _ := bind_of_ok hcolumns
    _ = _ := bind_of_ok hraise'
    _ = _ := bind_of_ok hrows
    _ = _ := by cases ending <;> rfl

/-- `read_query_response` takes the whole answer. -/
theorem readQueryResponse_received {sql : List UInt8} {answer : Answer} {capabilities : UInt32}
    (legal : answer.Legal capabilities (.query sql)) (learnt : Conn.Learnt d answer c')
    (first : Returns .again ((BlockingCall.query sql).response alloc) c answer.first c₁)
    (more : Retries alloc c₁ (answer.more (.query sql)) c') (within : Within bound c)
    (le : bound + answer.rowCount ≤ turns) (busy : Busy c.patience c s) :
    ∃ t, readQueryResponse alloc turns s = (.ok (answer.outcome answer.result), t) ∧
      Busy c'.patience c' t ∧ Within bound c' := by
  obtain ⟨r, hreturns, hr⟩ := Returns.of_map first
  obtain ⟨t, hawait, hbusy, hwithin⟩ :=
    awaitQuery_returns hreturns within (Nat.le_of_add_right_le le) busy
  cases legal with
  | ok reply _ _ =>
    cases more
    have hnone : r = .ok none := by
      rcases r with _ | _ | _
      · cases hr
      · rfl
      · cases hr
    subst hnone
    obtain ⟨u, hraise, hbusy'⟩ := hbusy.mayRaise .ruby
    refine ⟨u, ?_, hbusy', hwithin⟩
    have hresult : Result.mk [] [] (some u.ctx.conn.last_insert_id)
        (some u.ctx.conn.affected_rows) = (Answer.ok reply).result := by
      rw [hbusy'.conn, learnt.last_insert_id, learnt.affected_rows]
      rfl
    rw [readQueryResponse, bind_of_ok hawait]
    refine (bind_of_ok hraise).trans ?_
    dsimp only
    rw [get_bind, hresult]
    rfl
  | err error _ =>
    cases more
    have herror : r = .error .err := by
      cases r with
      | error rc => cases hr; rfl
      | ok columnCount => cases hr
    subst herror
    refine ⟨t, ?_, hbusy, hwithin⟩
    rw [readQueryResponse, bind_of_ok hawait]
    rfl
  | rows _ columns columnEof rows ending nonempty counted sendable hrows ends =>
    have hcount : r = .ok (some (UInt64.ofNat columns.length)) := by
      rcases r with _ | _ | _
      · cases hr
      · cases hr
      · cases hr
        rfl
    subst hcount
    exact readQueryResponse_rows counted hawait more hwithin le hbusy

theorem executeReadQueryResponse_received {answer : Answer}
    (h : readQueryResponse alloc turns s = (.ok (answer.outcome answer.result), t))
    (busy : Busy n c' t) (learnt : Conn.Learnt d answer c') :
    ∃ u, executeReadQueryResponse alloc turns s =
        (conclude (.result answer.result) answer.error, u) ∧ Calm n c' u := by
  have hprotect := protect_of_ok h
  rw [executeReadQueryResponse]
  cases herror : answer.error with
  | some error =>
    obtain ⟨hcode, hmessage⟩ := learnt.error herror
    rw [Answer.outcome, herror] at hprotect
    obtain ⟨u, hhandle, calm⟩ := busy.handleTrilogyError Result hcode hmessage
    exact ⟨u, bind_of_error ((orHandle_of_error hprotect).trans hhandle), calm⟩
  | none =>
    rw [Answer.outcome, herror] at hprotect
    rw [bind_of_ok (orHandle_of_ok hprotect), get_bind]
    by_cases hmore : t.ctx.conn.server_status &&& moreResultsExist = 0
    · obtain ⟨u, hrelease, calm⟩ := busy.toCalm.releaseBuffer
      refine ⟨u, ?_, calm⟩
      rw [when_pos hmore, bind_of_ok hrelease]
      rfl
    · refine ⟨t, ?_, busy.toCalm⟩
      rw [when_neg hmore]
      rfl

/-- `change_db`, `set_server_option` and `ping` expect an OK or an error packet. -/
def Brief : Command → Prop
  | .changeDb _ | .setOption _ | .ping => True
  | _ => False

theorem brief_answers {command : Command} {answer : Answer} {capabilities : UInt32}
    (brief : Brief command) (legal : answer.Legal capabilities command)
    (more : Retries alloc c₁ (answer.more command) c') {r : Except Code Unit}
    (first : answer.first = r.map fun _ => .done) : r = answer.outcome () ∧ c' = c₁ := by
  cases legal with
  | ok _ _ _ | ok_setOption _ _ _ =>
    cases more
    cases r with
    | ok _ => exact ⟨rfl, rfl⟩
    | error rc => cases first
  | err _ _ =>
    cases more
    cases r with
    | ok _ => cases first
    | error rc =>
      cases first
      exact ⟨rfl, rfl⟩
  | _ => exact brief.elim

theorem command_received {x : Exchange} {recv : Proc Code Conn Unit} {capabilities : UInt32}
    (brief : Brief x.command) (legal : x.answer.Legal capabilities x.command)
    (learnt : Conn.Learnt d x.answer c')
    (response : x.command.call.response alloc = (fun _ => .done) <$> recv)
    (receiving : Conn.Receiving recv) {c₀ : Conn}
    (flushed : Conn.Flushed (x.command.call.request alloc) c (.ok ()) c₀)
    (first : Returns .again (x.command.call.response alloc) c₀ x.answer.first c₁)
    (more : Retries alloc c₁ (x.answer.more x.command) c') (within : Within bound c)
    (le : bound ≤ turns) (busy : Busy c.patience c s) :
    ∃ t, Rb.command (x.command.call.request alloc) recv turns s =
        (conclude (.bool true) x.answer.error, t) ∧
      Calm c'.patience c' t ∧ Within bound c' := by
  obtain ⟨t, hsend, hbusy, hwithin⟩ :=
    sendFlushed_flushed x.command.call.offers_request flushed within le busy
  rw [response] at first
  obtain ⟨r, hreturns, hr⟩ := first.of_map
  obtain ⟨rfl, rfl⟩ := brief_answers brief legal more hr
  obtain ⟨u, hawait, hbusy', hwithin'⟩ := await_returns receiving hreturns hwithin le hbusy
  rw [Rb.command, bind_of_ok (orHandle_of_ok hsend)]
  cases herror : x.answer.error with
  | some error =>
    obtain ⟨hcode, hmessage⟩ := learnt.error herror
    rw [Answer.outcome, herror] at hawait
    obtain ⟨v, hhandle, calm⟩ := hbusy'.handleTrilogyError Unit hcode hmessage
    exact ⟨v, bind_of_error ((orHandle_of_error hawait).trans hhandle), calm, hwithin'⟩
  | none =>
    rw [Answer.outcome, herror] at hawait
    obtain ⟨v, hrelease, calm⟩ := hbusy'.toCalm.releaseBuffer
    refine ⟨v, ?_, calm, hwithin'⟩
    rw [bind_of_ok (orHandle_of_ok hawait), bind_of_ok hrelease]
    rfl

/-- The rest of a method that sends, once it has its buffer. -/
def Method.body (alloc : Alloc) (turns : Nat) : Method → Proc Exit Rb Returned
  | query sql => do
    orHandle (sendFlushed (Conn.querySend alloc sql) turns)
    executeReadQueryResponse alloc turns
  | ping => Rb.command (Conn.pingSend alloc) (Conn.pingRecv alloc) turns
  | changeDb database =>
    Rb.command (Conn.changeDbSend alloc database) (Conn.changeDbRecv alloc) turns
  | setServerOption option =>
    Rb.command (Conn.setOptionSend alloc option) (Conn.setOptionRecv alloc) turns
  | _ => pure .nil

/-- What comes before: a buffer is in hand, and nothing was raised. -/
theorem Method.run_body (alloc : Alloc) (turns : Nat) {method : Method} {command : Command}
    (asks : method.command = some command) (calm : Calm n c s) :
    ∃ b t, method.run alloc turns s = method.body alloc turns t ∧
      Busy n { c with packet_buffer := b } t := by
  have hopen := calm.getOpenCtx
  cases method with
  | ping =>
    obtain ⟨b, t, hacquire, busy⟩ := calm.acquireBuffer
    exact ⟨b, t, (bind_of_ok hopen).trans (bind_of_ok hacquire), busy⟩
  | query sql =>
    obtain ⟨t, hraise, calm', -⟩ := calm.mayRaise .argument
    obtain ⟨b, u, hacquire, busy⟩ := calm'.acquireBuffer
    exact ⟨b, u, (bind_of_ok hopen).trans ((bind_of_ok hraise).trans (bind_of_ok hacquire)), busy⟩
  | changeDb database =>
    obtain ⟨t, hraise, calm', -⟩ := calm.mayRaise .argument
    obtain ⟨b, u, hacquire, busy⟩ := calm'.acquireBuffer
    exact ⟨b, u, (bind_of_ok hopen).trans ((bind_of_ok hraise).trans (bind_of_ok hacquire)), busy⟩
  | setServerOption option =>
    obtain ⟨b, t, hacquire, busy⟩ := calm.acquireBuffer
    obtain ⟨u, hraise, busy'⟩ := busy.mayRaise .ruby
    exact ⟨b, u, (bind_of_ok hopen).trans ((bind_of_ok hacquire).trans (bind_of_ok hraise)), busy'⟩
  | _ => cases asks

theorem Method.body_received {method : Method} {x : Exchange} {capabilities : UInt32}
    (asks : method.command = some x.command) (legal : x.answer.Legal capabilities x.command)
    (learnt : Conn.Learnt d x.answer c') {c₀ : Conn} (flushed : Conn.Flushed (x.command.call.request alloc) c (.ok ()) c₀)
    (first : Returns .again (x.command.call.response alloc) c₀ x.answer.first c₁)
    (more : Retries alloc c₁ (x.answer.more x.command) c') (within : Within bound c)
    (le : bound + x.answer.rowCount ≤ turns) (busy : Busy c.patience c s) :
    ∃ t, method.body alloc turns s = (conclude (method.value x.answer) x.answer.error, t) ∧
      Calm c'.patience c' t ∧ Within bound c' := by
  obtain ⟨command, answer⟩ := x
  have hle := Nat.le_of_add_right_le le
  cases method with
  | query sql =>
    cases asks
    obtain ⟨t, hsend, hbusy, hwithin⟩ :=
      sendFlushed_flushed (BlockingCall.query sql).offers_request flushed within hle busy
    obtain ⟨u, hread, hbusy', hwithin'⟩ :=
      readQueryResponse_received legal learnt first more hwithin le hbusy
    obtain ⟨v, hexecute, calm⟩ := executeReadQueryResponse_received hread hbusy' learnt
    exact ⟨v, (bind_of_ok (orHandle_of_ok hsend)).trans hexecute, calm, hwithin'⟩
  | ping =>
    cases asks
    exact command_received (x := ⟨.ping, answer⟩) trivial legal learnt rfl
      Conn.listening_readGenericResponse.receiving flushed first more within hle busy
  | changeDb database =>
    cases asks
    exact command_received (x := ⟨.changeDb database, answer⟩) trivial legal learnt rfl
      Conn.listening_readGenericResponse.receiving flushed first more within hle busy
  | setServerOption option =>
    cases asks
    exact command_received (x := ⟨.setOption option, answer⟩) trivial legal learnt rfl
      Conn.listening_setOptionRecv.receiving flushed first more within hle busy
  | _ => cases asks

/-- The memory of the packet buffer does not matter to an exchange. -/
theorem exchanged_attached {x : Exchange} {b : Buffer}
    (h : Exchanged x rest { c with packet_buffer := b } c') : Exchanged x rest c c' where
  learnt := h.learnt.of_untouched ⟨rfl, rfl, rfl, rfl, rfl⟩
  resting := h.resting
  sent := h.sent
  capacity := h.capacity
  capabilities := h.capabilities
  opts := h.opts

theorem Asking.answered (always : ∀ c, alloc c = true) (a : Asking)
    (proper : a.exchange.Proper c)
    (h : Conn.Resting c (a.exchange.response c.capabilities ++ rest))
    (room : a.exchange.request.length ≤ c.socket.capacity) (le : c.patience ≤ bound)
    (enough : bound + a.exchange.answer.rowCount ≤ turns) (calm : Calm c.patience c s) :
    ∃ c' t, a.method.run alloc turns s = (a.returned, t) ∧ Exchanged a.exchange rest c c' ∧
      Calm c'.patience c' t ∧ c'.patience ≤ bound := by
  obtain ⟨b, t, hrun, busy⟩ := Method.run_body alloc turns a.asks calm
  have attached : Conn.Resting { c with packet_buffer := b }
      (a.exchange.response c.capabilities ++ rest) :=
    ⟨h.calm, h.takes, h.pos_le, h.steady, h.boundary, h.whole, h.pending⟩
  have proper' : a.exchange.Proper { c with packet_buffer := b } := proper.mono rfl rfl
  obtain ⟨c₀, c₁, c', hflushed, hfirst, hmore, hexchanged⟩ :=
    exchange_parts always proper' attached room
  obtain ⟨u, hbody, calm', hwithin⟩ := Method.body_received a.asks proper'.legal
    hexchanged.learnt hflushed hfirst hmore.retries ⟨h.pos_le, le⟩ enough busy
  exact ⟨c', u, hrun.trans hbody, exchanged_attached hexchanged, calm', hwithin.le⟩

/-- One method after the other: each returns or raises by its answer, and the client
keeps what was learnt. -/
inductive Consulted (alloc : Alloc) (turns : Nat) : Rb → List Asking → Rb → Prop
  | nil (s : Rb) : Consulted alloc turns s [] s
  | cons {s a s₁ as s'} (runs : a.method.run alloc turns s = (a.returned, s₁))
      (learnt : Conn.Learnt s.ctx.conn a.exchange.answer s₁.ctx.conn)
      (rest : Consulted alloc turns s₁ as s') : Consulted alloc turns s (a :: as) s'

theorem consulted (always : ∀ c, alloc c = true) {asked : List Asking}
    (proper : ∀ a ∈ asked, a.exchange.Proper c)
    (h : Conn.Resting c (asked.flatMap (fun a => a.exchange.response c.capabilities) ++ rest))
    (room : (asked.flatMap fun a => a.exchange.request).length ≤ c.socket.capacity)
    (le : c.patience ≤ bound)
    (enough : ∀ a ∈ asked, bound + a.exchange.answer.rowCount ≤ turns)
    (calm : Calm c.patience c s) :
    ∃ s', Consulted alloc turns s asked s' ∧ s'.ctx.socket = true ∧
      Conn.Resting s'.ctx.conn rest ∧
      s'.ctx.conn.socket.sentBytes =
        c.socket.sentBytes ++ asked.flatMap fun a => a.exchange.request := by
  induction asked generalizing c s with
  | nil =>
    refine ⟨s, .nil s, calm.socket, ?_, ?_⟩
    · rw [calm.conn]
      exact h
    · rw [calm.conn]
      exact (List.append_nil _).symm
  | cons a asked ih =>
    obtain ⟨ha, hasked⟩ := List.forall_mem_cons.mp proper
    obtain ⟨henough, hall⟩ := List.forall_mem_cons.mp enough
    rw [List.flatMap_cons, List.append_assoc] at h
    rw [List.flatMap_cons, List.length_append] at room
    obtain ⟨c₁, t, hrun, hexchanged, hcalm, hle⟩ :=
      a.answered always ha h (by omega) le henough calm
    have hresting := hexchanged.resting
    have hcapacity := hexchanged.capacity
    rw [← hexchanged.capabilities] at hresting
    obtain ⟨s', hconsulted, hsocket, hresting', hsent⟩ :=
      ih (fun b hb => (hasked b hb).mono hexchanged.capabilities
        (congrArg SockOpt.max_allowed_packet hexchanged.opts)) hresting (by omega) hle hall hcalm
    have hlearnt := hexchanged.learnt
    rw [← calm.conn, ← hcalm.conn] at hlearnt
    refine ⟨s', .cons hrun hlearnt hconsulted, hsocket, hresting', ?_⟩
    rw [hsent, hexchanged.sent, List.append_assoc, List.flatMap_cons]

end Rb

open Rb

/-- A Ruby client and a server understand each other. While no wait fails and nothing
else raises, each method reads the whole of its answer and returns or raises by it, the
server gets the requests, and nothing is left over. -/
theorem methods_answered {alloc : Alloc} (always : ∀ c, alloc c = true) {turns : Nat} {s : Rb}
    {asked : List Asking} {rest : List UInt8}
    (proper : ∀ a ∈ asked, a.exchange.Proper s.ctx.conn)
    (h : Conn.Resting s.ctx.conn
      (asked.flatMap (fun a => a.exchange.response s.ctx.conn.capabilities) ++ rest))
    (room : (asked.flatMap fun a => a.exchange.request).length ≤ s.ctx.conn.socket.capacity)
    (enough : ∀ a ∈ asked, s.ctx.conn.patience + a.exchange.answer.rowCount ≤ turns)
    (calm : Calm s.ctx.conn.patience s.ctx.conn s) :
    ∃ s', Consulted alloc turns s asked s' ∧ s'.ctx.socket = true ∧
      Conn.Resting s'.ctx.conn rest ∧
      s'.ctx.conn.socket.sentBytes =
        s.ctx.conn.socket.sentBytes ++ asked.flatMap fun a => a.exchange.request :=
  consulted always proper h room (Nat.le_refl _) enough calm

/-- A client over that connection, with the pool full; the waits find the socket ready. -/
def exampleClient : Rb where
  pool := ⟨16, (List.range Pool.maxSize).map fun i => ⟨defaultBufSize, defaultBufSize_pos, i, [0xfe]⟩⟩
  allocations := 8
  ctx := { conn := exampleDialogueConn, buff := none, socket := true }
  waits := List.replicate 200 .ready
  raises := []

def exampleAsked : List Asking :=
  [⟨.ping, examplePing, rfl⟩, ⟨.query [0x61], exampleQuery, rfl⟩,
    ⟨.query [0x62], exampleRefused, rfl⟩]

theorem methods_answered_example :
    ∃ s, Consulted (fun _ => true) 200 exampleClient exampleAsked s ∧
      s.ctx.conn.pending = [] ∧
      exampleAsked.map Asking.returned =
        [.ok (.bool true),
          .ok (.result
            { fields := [Conn.exampleColumn.name]
              rows := [[(some [0x62], columnInfo Conn.exampleColumn)]]
              last_insert_id := none
              affected_rows := none }),
          .error (.raised (.protocol 1146 (literal "no table")))] := by
  have resting : Conn.Resting exampleDialogueConn
      (exampleExchanges.flatMap (Exchange.response exampleDialogueConn.capabilities) ++ []) := by
    refine ⟨?_, ?_, Nat.le_refl 0, ⟨by rintro ⟨⟩, rfl⟩, rfl, rfl, by decide +kernel⟩
    · exact List.forall_mem_singleton.mpr (by decide +kernel : List.flatMap _ _ ≠ [])
    · simp [Sock.Takes, exampleDialogueConn, Conn.init, idleSock, RawWrite.Calm]
  have proper : ∀ a ∈ exampleAsked, a.exchange.Proper exampleDialogueConn := by
    have hproper := @exampleExchanges_proper exampleDialogueConn rfl rfl
    simpa [exampleAsked, exampleExchanges] using hproper
  obtain ⟨s, hconsulted, -, hresting, -⟩ := @methods_answered _ (fun _ => rfl) 200 exampleClient
    exampleAsked [] proper resting (by decide +kernel) (by decide +kernel)
    ⟨rfl, rfl, fun _ => List.eq_of_mem_replicate, by decide +kernel, by simp [exampleClient],
      by decide +kernel⟩
  refine ⟨s, hconsulted, hresting.pending, ?_⟩
  decide +kernel

end Trilogy
