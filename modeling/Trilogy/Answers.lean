import Trilogy.Commands
import Trilogy.Drain
import Trilogy.OkCodec
import Trilogy.StmtRows

namespace Trilogy

open Lib Proc Reader

def StmtOkPacket.bytes (stmt : StmtOkPacket) : List UInt8 :=
  Packet.ok :: (leBytes 4 stmt.id.toNat ++ (leBytes 2 stmt.column_count.toNat ++
    (leBytes 2 stmt.parameter_count.toNat ++ (0x00 :: leBytes 2 stmt.warning_count.toNat))))

theorem parse_stmtOkPacket (stmt : StmtOkPacket) :
    parse parseStmtOkPacket stmt.bytes = .ok stmt := by
  have hwarnings := reads_getUint16 stmt.warning_count.toNat []
  rw [List.append_nil] at hwarnings
  have hstmt : Cursor.Reads parseStmtOkPacket stmt.bytes
      (.ok { id := UInt32.ofNat stmt.id.toNat
             column_count := UInt16.ofNat stmt.column_count.toNat
             parameter_count := UInt16.ofNat stmt.parameter_count.toNat
             warning_count := UInt16.ofNat stmt.warning_count.toNat }) [] :=
    .bind (reads_getUint8 _ _) <| .bind (reads_getUint32 _ _) <| .bind (reads_getUint16 _ _) <|
    .bind (reads_getUint16 _ _) <| .bind (reads_getUint8 _ _) <| .bind (.pure _ _) <|
    .bind hwarnings <| .bind reads_finish <| .pure _ _
  rw [parse, hstmt.run, UInt32.ofNat_toNat, UInt16.ofNat_toNat, UInt16.ofNat_toNat,
    UInt16.ofNat_toNat]

/-- What a server says to a command. -/
inductive Answer
  | silent
  | ok (reply : OkContent)
  | err (error : ErrReply)
  | rows (columns : List Column) (columnEof : EofPacket) (rows : List (List Value))
      (ending : Conn.Ending)
  | binaryRows (columns : List Column) (rows : List (BinaryRow columns)) (ending : Conn.Ending)
  | prepared (stmt : StmtOkPacket) (params columns : List Column)

namespace Conn.Ending

def code : Ending → Code
  | terminator _ => .eof
  | failed _ => .err

end Conn.Ending

namespace Answer

open Conn

def packets (capabilities : UInt32) : Answer → List (List UInt8)
  | silent => []
  | ok reply => [reply.bytes capabilities]
  | err error => [error.bytes capabilities]
  | rows columns columnEof values ending =>
    lenenc columns.length :: (columns.map columnBytes ++
      ((if has capabilities Capabilities.deprecateEof then []
        else [eofBytes capabilities columnEof.warning_count columnEof.status_flags]) ++
      (values.map textRow ++ [ending.bytes capabilities])))
  | binaryRows columns values ending =>
    lenenc columns.length :: (columns.map columnBytes ++
      (values.map BinaryRow.bytes ++ [ending.bytes capabilities]))
  | prepared stmt params columns => stmt.bytes :: (params ++ columns).map columnBytes

/-- The answers that a command can get. The functions for prepared statements read no
EOF packets behind definitions, so these answers go with `DEPRECATE_EOF`. -/
inductive Legal (capabilities : UInt32) : Command → Answer → Prop
  | silent_bindData (stmt param_num data) :
      Legal capabilities (.stmtBindData stmt param_num data) .silent
  | silent_close (stmt) : Legal capabilities (.stmtClose stmt) .silent
  | ok {command} (reply : OkContent) (header : reply.header = Packet.ok)
      (spoken : command.Generic ∨ command.HandsOn) : Legal capabilities command (.ok reply)
  | ok_setOption (option) (reply : OkContent)
      (header : reply.header = Packet.ok ∨ reply.header = Packet.eof) :
      Legal capabilities (.setOption option) (.ok reply)
  | err {command} (error : ErrReply) (spoken : ¬ command.Mute) :
      Legal capabilities command (.err error)
  | rows (sql) (columns : List Column) (columnEof : EofPacket) (rows : List (List Value))
      (ending : Ending) (nonempty : columns ≠ []) (counted : columns.length < 2 ^ 64)
      (sendable : ∀ column ∈ columns, column.Sendable) (hrows : RowsOf columns.length rows)
      (ends : ending.Sendable capabilities) :
      Legal capabilities (.query sql) (.rows columns columnEof rows ending)
  | binaryRows (stmt flags binds enough values_out room) (columns : List Column)
      (rows : List (BinaryRow columns)) (ending : Ending)
      (deprecated : has capabilities Capabilities.deprecateEof) (nonempty : columns ≠ [])
      (counted : stmt.column_count.toNat = columns.length)
      (sendable : ∀ column ∈ columns, column.Sendable) (ends : ending.Sendable capabilities) :
      Legal capabilities (.stmtExecute stmt flags binds enough values_out room)
        (.binaryRows columns rows ending)
  | prepared (sql) (stmt : StmtOkPacket) (params columns : List Column)
      (deprecated : has capabilities Capabilities.deprecateEof)
      (params_counted : params.length = stmt.parameter_count.toNat)
      (columns_counted : columns.length = stmt.column_count.toNat)
      (sendable : ∀ column ∈ params ++ columns, column.Sendable) :
      Legal capabilities (.stmtPrepare sql) (.prepared stmt params columns)

end Answer

theorem receivedRow_length {columns : List Column} {outs : List BinaryValue} {cells : List Cell}
    (hcells : cells.length = columns.length) (houts : outs.length = columns.length) :
    (receivedRow columns outs cells).length = columns.length := by
  induction columns generalizing outs cells with
  | nil => rfl
  | cons column columns ih =>
    cases outs with
    | nil => cases houts
    | cons out outs =>
      cases cells with
      | nil => cases hcells
      | cons cell cells =>
        exact congrArg Nat.succ (ih (Nat.succ.inj hcells) (Nat.succ.inj houts))

/-- The calls that read binary rows, each into what the one before left. -/
def readsOfRows (stmt : StmtOkPacket) (columns : List Column) (last : Code) :
    List BinaryValue → List (BinaryRow columns) → List (BlockingCall × Except Code Decoded)
  | outs, [] => [(.stmtReadFullRow stmt columns outs, .error last)]
  | outs, row :: rows =>
    let values := receivedRow columns outs row.cells
    (.stmtReadFullRow stmt columns outs, .ok (.stmtRow values)) ::
      readsOfRows stmt columns last values rows

def readsOfColumns (columns : List Column) : List (BlockingCall × Except Code Decoded) :=
  columns.map fun column => (.readFullColumn, .ok (.column column))

def Command.readsOfRows (columns : List Column) (last : Code) (rows : List (BinaryRow columns)) :
    Command → List (BlockingCall × Except Code Decoded)
  | stmtExecute stmt _ _ _ values_out _ => Trilogy.readsOfRows stmt columns last values_out rows
  | _ => []

namespace Answer

/-- What the call of the command returns. -/
def first : Answer → Except Code Decoded
  | silent | ok _ => .ok .done
  | err _ => .error .err
  | rows columns _ _ _ | binaryRows columns _ _ =>
    .ok (.haveResults (UInt64.ofNat columns.length))
  | prepared stmt _ _ => .ok (.stmt stmt)

/-- The calls that come after it, and what they return. -/
def more (command : Command) : Answer → List (BlockingCall × Except Code Decoded)
  | silent | ok _ | err _ => []
  | rows columns _ values ending =>
    readsOfColumns columns ++ (values.map (fun row => (.readFullRow, .ok (.row row))) ++
      [(.readFullRow, .error ending.code)])
  | binaryRows columns values ending =>
    readsOfColumns columns ++ command.readsOfRows columns ending.code values
  | prepared _ params columns => readsOfColumns (params ++ columns)

def trace (command : Command) (answer : Answer) : List (BlockingCall × Except Code Decoded) :=
  (command.call, answer.first) :: answer.more command

end Answer

theorem Retries.append {alloc : Alloc} {c c₁ c' : Conn}
    {trace trace' : List (BlockingCall × Except Code Decoded)} (h : Retries alloc c trace c₁)
    (h' : Retries alloc c₁ trace' c') : Retries alloc c (trace ++ trace') c' := by
  induction h with
  | nil c => exact h'
  | cons first _ ih => exact .cons first (ih h')

namespace Conn

/-- Calls that only read. -/
structure Receives (alloc : Alloc) (c : Conn) (trace : List (BlockingCall × Except Code Decoded))
    (c' : Conn) : Prop where
  retries : Retries alloc c trace c'
  onlyRead : OnSock OnlyRead c c'

namespace Receives

variable {alloc : Alloc} {c c₁ c' : Conn} {call : BlockingCall}
  {trace trace' : List (BlockingCall × Except Code Decoded)}

theorem nil (c : Conn) : Receives alloc c [] c := ⟨.nil c, Std.Refl.refl c⟩

theorem append (h : Receives alloc c trace c₁) (h' : Receives alloc c₁ trace' c') :
    Receives alloc c (trace ++ trace') c' :=
  ⟨h.retries.append h'.retries, IsTrans.trans _ _ _ h.onlyRead h'.onlyRead⟩

theorem single {r : Except Code Decoded} (silent : call.request alloc = pure ())
    (stays : call ≠ .close) (h : Returns .again (call.response alloc) c r c') :
    Receives alloc c [(call, r)] c' := by
  constructor
  · have hanswered : Answered (call.request alloc) (call.response alloc) c r c' := by
      rw [silent]
      exact .received (.atOnce rfl (by simp)) h
    exact .cons hanswered (.nil c')
  · exact h.keeps (call.listening_response stays).onlyRead

theorem all {α : Type} {recv : Proc Code Conn α} {f : α → Decoded} {as : List α}
    (silent : call.request alloc = pure ()) (stays : call ≠ .close)
    (response : call.response alloc = f <$> recv) (h : Yields .again recv c as c') :
    Receives alloc c (as.map fun a => (call, .ok (f a))) c' := by
  induction h with
  | nil c => exact nil c
  | cons first _ ih =>
    have hfirst := first.map f
    rw [← response] at hfirst
    exact (Receives.single silent stays hfirst).append ih

end Receives

/-- What an OK packet leaves. -/
structure Acknowledged (c : Conn) (o : OkContent) (c' : Conn) : Prop where
  affected_rows : c'.affected_rows = o.affected_rows
  last_insert_id : c'.last_insert_id = o.last_insert_id
  standing : c'.standing = c.noting o.status o.warnings

/-- What an error packet leaves. -/
structure Reported (c : Conn) (e : ErrReply) (c' : Conn) : Prop where
  error_code : c'.error_code = e.code
  error_message : c'.error_message = e.message
  standing : c'.standing = c.standing

variable {alloc : Alloc} {n : Nat} {c c' : Conn} {ps : List (List UInt8)} {rest : List UInt8}

theorem readOkPacket_rows {packet : OkPacket}
    (h : parse (parseOkPacket c.capabilities) c.packet_buffer.bytes = .ok packet) :
    (readOkPacket c).2.affected_rows = packet.affected_rows ∧
      (readOkPacket c).2.last_insert_id = packet.last_insert_id := by
  have hparse : parsePacket (parseOkPacket c.capabilities) c = (.ok packet, c) := by
    rw [parsePacket, h]
  rw [readOkPacket, get_bind, bind_of_ok hparse]
  unfold Proc.when
  split
  · rw [modify_bind, modify_bind]
    split <;> exact ⟨rfl, rfl⟩
  · rw [pure_bind, modify_bind]
    split <;> exact ⟨rfl, rfl⟩

theorem readOkPacket_content {o : OkContent}
    (hbytes : c.packet_buffer.bytes = o.bytes c.capabilities) :
    ∃ c', readOkPacket c = (.ok (), c') ∧ Noted c c' ∧ Acknowledged c o c' := by
  have hparse := o.parse_okContent c.capabilities
  rw [← hbytes] at hparse
  obtain ⟨c', hread, hnoted, hstanding⟩ := readOkPacket_ok hparse
  obtain ⟨hrows, hid⟩ := readOkPacket_rows hparse
  have hpacket : (o.packet c.capabilities).affected_rows = o.affected_rows ∧
      (o.packet c.capabilities).last_insert_id = o.last_insert_id ∧
      (o.packet c.capabilities).status_flags = (o.reply.head c.capabilities).status_flags ∧
      (o.packet c.capabilities).warning_count = (o.reply.head c.capabilities).warning_count := by
    unfold OkContent.packet
    split
    · split <;> exact ⟨rfl, rfl, rfl, rfl⟩
    · exact ⟨rfl, rfl, rfl, rfl⟩
  obtain ⟨hpacketRows, hpacketId, hstatus, hwarnings⟩ := hpacket
  rw [hread] at hrows hid
  refine ⟨c', hread, hnoted, hrows.trans hpacketRows, hid.trans hpacketId, hstanding.trans ?_⟩
  rw [hstatus, hwarnings]
  unfold noting OkReply.head
  split <;> rfl

theorem readErrPacket_reported {α : Type} {e : ErrReply}
    (hbytes : c.packet_buffer.bytes = e.bytes c.capabilities) :
    ∃ c', (readErrPacket : Proc Code Conn α) c = (.error .err, c') ∧ Noted c c' ∧
      Reported c e c' := by
  have hparse := e.parse_bytes c.capabilities
  have hpacket : (e.packet c.capabilities).error_code = e.code ∧
      (e.packet c.capabilities).error_message = e.message := by
    unfold ErrReply.packet
    split <;> exact ⟨rfl, rfl⟩
  have hread : parsePacket (parseErrPacket c.capabilities) c =
      (.ok (e.packet c.capabilities), c) := by
    rw [parsePacket, hbytes, hparse]
  rw [readErrPacket, get_bind, bind_of_ok hread]
  exact ⟨_, rfl, { Noted.refl c with }, hpacket.1, hpacket.2, rfl⟩

theorem Acknowledged.of_untouched {o : OkContent} {c₁ : Conn} (h : Acknowledged c₁ o c')
    (untouched : Untouched c c₁) : Acknowledged c o c' := by
  refine ⟨h.affected_rows, h.last_insert_id, h.standing.trans ?_⟩
  unfold noting
  rw [untouched.capabilities, untouched.standing]

theorem Reported.of_untouched {e : ErrReply} {c₁ : Conn} (h : Reported c₁ e c')
    (untouched : Untouched c c₁) : Reported c e c' :=
  ⟨h.error_code, h.error_message, h.standing.trans untouched.standing⟩

section

variable {α β : Type} {f : Unit → Proc Code Conn α} {g : α → β}

theorem Facing.acknowledged {o : OkContent} {a : α}
    (h : Facing alloc n c (o.bytes c.capabilities :: ps) rest)
    (hf : ∀ c₁ : Conn, c₁.currentPacketType = o.header →
      f () c₁ = (readOkPacket >>= fun _ => pure a) c₁) :
    ∃ c', Returns .again (g <$> (readPacket alloc >>= f)) c (.ok (g a)) c' ∧
      Facing alloc n c' ps rest ∧ Acknowledged c o c' ∧ c'.capabilities = c.capabilities := by
  obtain ⟨c₁, hbytes, hfacing, huntouched, hreturns⟩ := h.receive
  have htype : c₁.currentPacketType = o.header := currentPacketType_of_bytes (hbytes.trans rfl)
  rw [← huntouched.capabilities] at hbytes
  obtain ⟨c', hread, hnoted, hreply⟩ := readOkPacket_content hbytes
  refine ⟨c', (hreturns (.ok a) c' ?_ (by simp)).map g, hfacing.sameWire hnoted.toSameWire,
    hreply.of_untouched huntouched, hnoted.capabilities.trans huntouched.capabilities⟩
  rw [hf c₁ htype, bind_of_ok hread]
  rfl

theorem Facing.reported {e : ErrReply}
    (h : Facing alloc n c (e.bytes c.capabilities :: ps) rest)
    (hf : ∀ c₁ : Conn, c₁.currentPacketType = Packet.err → f () c₁ = readErrPacket c₁) :
    ∃ c', Returns .again (g <$> (readPacket alloc >>= f)) c (.error .err) c' ∧
      Facing alloc n c' ps rest ∧ Reported c e c' ∧ c'.capabilities = c.capabilities := by
  obtain ⟨c₁, hbytes, hfacing, huntouched, hreturns⟩ := h.receive
  have htype : c₁.currentPacketType = Packet.err := currentPacketType_of_bytes (hbytes.trans rfl)
  rw [← huntouched.capabilities] at hbytes
  obtain ⟨c', hread, hnoted, hreply⟩ := @readErrPacket_reported _ α _ hbytes
  refine ⟨c', (hreturns (.error .err) c' ?_ (by simp)).map g, hfacing.sameWire hnoted.toSameWire,
    hreply.of_untouched huntouched, hnoted.capabilities.trans huntouched.capabilities⟩
  rw [hf c₁ htype, hread]

end

theorem response_ok {command : Command} {o : OkContent}
    (h : Facing alloc n c (o.bytes c.capabilities :: ps) rest)
    (legal : Answer.Legal c.capabilities command (.ok o)) :
    ∃ c', Returns .again (command.call.response alloc) c (.ok .done) c' ∧
      Facing alloc n c' ps rest ∧ Acknowledged c o c' ∧ c'.capabilities = c.capabilities := by
  have generic : o.header = Packet.ok → ∀ c₁ : Conn, c₁.currentPacketType = o.header →
      handleGenericResponse c₁ = (readOkPacket >>= fun _ => pure ()) c₁ := by
    intro header c₁ htype
    rw [handleGenericResponse, get_bind, if_pos (htype.trans header), bind_pure_unit]
  cases legal with
  | ok _ header spoken =>
    cases command with
    | changeDb name => exact h.acknowledged (generic header)
    | ping => exact h.acknowledged (generic header)
    | stmtReset stmt => exact h.acknowledged (generic header)
    | query sql =>
      apply h.acknowledged (a := none)
      intro c₁ htype
      rw [get_bind, if_pos (htype.trans header)]
    | stmtExecute stmt flags binds enough values_out room =>
      apply h.acknowledged (a := none)
      intro c₁ htype
      rw [get_bind, if_pos (htype.trans header)]
    | _ => exact absurd spoken (by simp [Command.Generic, Command.HandsOn])
  | ok_setOption option _ header =>
    apply h.acknowledged
    intro c₁ htype
    rw [get_bind, htype, if_pos header, bind_pure_unit]

theorem response_err {command : Command} {e : ErrReply}
    (h : Facing alloc n c (e.bytes c.capabilities :: ps) rest) (spoken : ¬ command.Mute) :
    ∃ c', Returns .again (command.call.response alloc) c (.error .err) c' ∧
      Facing alloc n c' ps rest ∧ Reported c e c' ∧ c'.capabilities = c.capabilities := by
  have generic : ∀ c₁ : Conn, c₁.currentPacketType = Packet.err →
      handleGenericResponse c₁ = (readErrPacket : Proc Code Conn Unit) c₁ := by
    intro c₁ htype
    rw [handleGenericResponse, get_bind, htype, if_neg (by decide), if_pos rfl]
  cases command with
  | changeDb name => exact h.reported generic
  | ping => exact h.reported generic
  | stmtReset stmt => exact h.reported generic
  | setOption option =>
    apply h.reported
    intro c₁ htype
    rw [get_bind, htype, if_neg (by decide), if_pos rfl]
  | query sql =>
    apply h.reported
    intro c₁ htype
    rw [get_bind, htype, if_neg (by decide), if_pos rfl]
  | stmtPrepare sql =>
    apply h.reported
    intro c₁ htype
    rw [get_bind, htype, if_neg (by decide), if_pos rfl]
  | stmtExecute stmt flags binds enough values_out room =>
    apply h.reported
    intro c₁ htype
    rw [get_bind, htype, if_neg (by decide), if_pos rfl]
  | stmtBindData stmt param_num data => exact absurd trivial spoken
  | stmtClose stmt => exact absurd trivial spoken

/-- What the end of the rows leaves. -/
def Ended (c : Conn) : Ending → Conn → Prop
  | .terminator reply, c' => has c.capabilities Capabilities.protocol41 →
      c'.standing = (reply.status, reply.warnings)
  | .failed error, c' => c'.error_code = error.code ∧ c'.error_message = error.message

/-- The last of the packets that a call which reads rows gets. -/
theorem rowReply_ending {α : Type} {row : UInt64 → Proc Code Reader α} {ending : Ending}
    (hbytes : c.packet_buffer.bytes = ending.bytes c.capabilities)
    (ends : ending.Sendable c.capabilities) :
    ∃ c', rowReply row c = (.error ending.code, c') ∧ Noted c c' ∧ Ended c ending c' := by
  cases ending with
  | terminator reply =>
    obtain ⟨c', hreply, hnoted, hstanding⟩ := rowReply_terminator ends hbytes
    refine ⟨c', hreply row, hnoted, fun p41 => ?_⟩
    rw [hstanding, noting, if_pos p41]
  | failed error =>
    have htype : c.currentPacketType = Packet.err := currentPacketType_of_bytes (hbytes.trans rfl)
    obtain ⟨c', hread, hnoted, hreported⟩ := @readErrPacket_reported _ α _ hbytes
    refine ⟨c', ?_, hnoted, hreported.error_code, hreported.error_message⟩
    rw [rowReply, get_bind, htype, if_neg (fun h => absurd h.1 (by decide)), if_pos rfl]
    exact hread

theorem Ended.of_capabilities {ending : Ending} {c₁ : Conn} (h : Ended c₁ ending c')
    (same : c₁.capabilities = c.capabilities) : Ended c ending c' := by
  cases ending with
  | terminator reply =>
    intro p41
    exact h (by rwa [same])
  | failed error => exact h

section

variable {columns : List Column} {ending : Ending}

theorem receives_rows {columnEof : EofPacket} {rows : List (List Value)}
    (h : Facing alloc n c (c.beforeRow columnEof ++
      (rows.map textRow ++ ending.bytes c.capabilities :: ps)) rest)
    (nonempty : columns ≠ []) (counted : c.column_count.toNat = columns.length)
    (hrows : RowsOf columns.length rows) (ends : ending.Sendable c.capabilities) :
    ∃ c', Receives alloc c (rows.map (fun row => (.readFullRow, .ok (.row row))) ++
        [(.readFullRow, .error ending.code)]) c' ∧
      Facing alloc n c' ps rest ∧ Ended c ending c' ∧ c'.capabilities = c.capabilities := by
  obtain ⟨c₁, hyields, hfacing, hend⟩ :=
    readRows h hrows (List.length_pos_of_ne_nil nonempty) counted
  have hcapabilities : c₁.capabilities = c.capabilities := by
    rcases hend with rfl | hend
    · rfl
    · exact hend.capabilities
  obtain ⟨c₂, hbytes, hfacing₂, hreach, hreturns⟩ := readRow_returns hfacing
  have hcapabilities₂ := hreach.capabilities.trans hcapabilities
  rw [← hcapabilities₂] at hbytes ends
  obtain ⟨c', hreply, hnoted, hended⟩ := rowReply_ending hbytes ends
  have hlast := (hreturns (.error ending.code) c' hreply (by cases ending <;> simp [Ending.code])).map
    Decoded.row
  have hreads : Receives alloc c (rows.map fun row => (.readFullRow, .ok (.row row))) c₁ :=
    .all rfl (by simp) rfl hyields
  exact ⟨c', hreads.append (.single rfl (by simp) hlast), hfacing₂.sameWire hnoted.toSameWire,
    hended.of_capabilities hcapabilities₂, hnoted.capabilities.trans hcapabilities₂⟩

theorem receives_binaryRows {stmt : StmtOkPacket} {rows : List (BinaryRow columns)}
    {values_out : List BinaryValue}
    (h : Facing alloc n c (rows.map BinaryRow.bytes ++ ending.bytes c.capabilities :: ps) rest)
    (counted : stmt.column_count.toNat = columns.length) (ends : ending.Sendable c.capabilities)
    (room : values_out.length = columns.length) :
    ∃ c', Receives alloc c (readsOfRows stmt columns ending.code values_out rows) c' ∧
      Facing alloc n c' ps rest ∧ Ended c ending c' ∧ c'.capabilities = c.capabilities := by
  induction rows generalizing c values_out with
  | nil =>
    obtain ⟨c₁, hbytes, hfacing, huntouched, hreturns⟩ :=
      @stmtReadRow_returns alloc n c ps rest stmt columns _ h
    rw [← huntouched.capabilities] at hbytes ends
    obtain ⟨c', hreply, hnoted, hended⟩ := rowReply_ending hbytes ends
    have hlast := (hreturns values_out (.error ending.code) c' hreply
      (by cases ending <;> simp [Ending.code])).map Decoded.stmtRow
    exact ⟨c', .single rfl (by simp) hlast, hfacing.sameWire hnoted.toSameWire,
      hended.of_capabilities huntouched.capabilities,
      hnoted.capabilities.trans huntouched.capabilities⟩
  | cons row rows ih =>
    obtain ⟨c₁, hread, hfacing, huntouched⟩ := stmtReadRow_row h counted
    rw [← huntouched.capabilities] at hfacing ends
    obtain ⟨c', hreads, hfacing', hended, hcapabilities⟩ :=
      ih hfacing ends (receivedRow_length row.row.length room)
    have hfirst : Receives alloc c [(.stmtReadFullRow stmt columns values_out,
        .ok (.stmtRow (receivedRow columns values_out row.cells)))] c₁ :=
      .single rfl (by simp) ((hread values_out room).map Decoded.stmtRow)
    exact ⟨c', hfirst.append hreads, hfacing',
      hended.of_capabilities huntouched.capabilities, hcapabilities.trans huntouched.capabilities⟩

end

theorem stmtPrepareRecv_stmt {stmt : StmtOkPacket} (h : Facing alloc n c (stmt.bytes :: ps) rest) :
    ∃ c', Returns .again (stmtPrepareRecv alloc) c (.ok stmt) c' ∧ Facing alloc n c' ps rest ∧
      c'.warning_count = stmt.warning_count ∧ c'.capabilities = c.capabilities := by
  obtain ⟨c₁, hbytes, hfacing, huntouched, hreturns⟩ := h.receive
  have htype : c₁.currentPacketType = Packet.ok := currentPacketType_of_bytes (hbytes.trans rfl)
  have hparse : parsePacket parseStmtOkPacket c₁ = (.ok stmt, c₁) := by
    rw [parsePacket, hbytes, parse_stmtOkPacket]
  refine ⟨{ c₁ with warning_count := stmt.warning_count }, hreturns _ _ ?_ (by simp),
    hfacing.sameWire ⟨rfl, rfl, rfl, rfl, rfl⟩, rfl, huntouched.capabilities⟩
  rw [get_bind, if_pos htype, bind_of_ok hparse]
  rfl

theorem receives_columns {columns : List Column}
    (h : Facing alloc n c (columns.map columnBytes ++ ps) rest)
    (sendable : ∀ column ∈ columns, column.Sendable) :
    ∃ c', Receives alloc c (readsOfColumns columns) c' ∧ Facing alloc n c' ps rest ∧
      Untouched c c' := by
  obtain ⟨c', hyields, hfacing, huntouched⟩ := readColumns h sendable
  exact ⟨c', .all rfl (by simp) rfl hyields, hfacing, huntouched⟩

/-- What an answer leaves. -/
def Learnt (c : Conn) : Answer → Conn → Prop
  | .silent, c' => c'.standing = c.standing
  | .ok reply, c' => Acknowledged c reply c'
  | .err error, c' => Reported c error c'
  | .rows _ _ _ ending, c' | .binaryRows _ _ ending, c' => Ended c ending c'
  | .prepared stmt _ _, c' => c'.warning_count = stmt.warning_count

theorem Learnt.of_untouched {answer : Answer} {c₁ : Conn} (h : Learnt c₁ answer c')
    (untouched : Untouched c c₁) : Learnt c answer c' := by
  cases answer with
  | silent => exact h.trans untouched.standing
  | ok reply => exact Acknowledged.of_untouched h untouched
  | err error => exact Reported.of_untouched h untouched
  | rows _ _ _ ending | binaryRows _ _ ending =>
    exact Ended.of_capabilities h untouched.capabilities
  | prepared stmt params columns => exact h

/-- The call of the command and the calls that come after it get the answer. -/
theorem answer_received {command : Command} {answer : Answer}
    (legal : answer.Legal c.capabilities command)
    (h : Facing alloc n c (answer.packets c.capabilities) rest) :
    ∃ c₁ c', Returns .again (command.call.response alloc) c answer.first c₁ ∧
      Receives alloc c₁ (answer.more command) c' ∧ Facing alloc n c' [] rest ∧ Learnt c answer c' ∧
      c'.capabilities = c.capabilities := by
  have hlegal := legal
  cases legal with
  | silent_bindData stmt param_num data | silent_close stmt =>
    exact ⟨c, c, .stop rfl (by simp [Answer.first]), .nil c, h, rfl, rfl⟩
  | ok reply _ _ | ok_setOption option reply _ =>
    obtain ⟨c', hreturns, hfacing, hlearnt, hcapabilities⟩ := response_ok h hlegal
    exact ⟨c', c', hreturns, .nil c', hfacing, hlearnt, hcapabilities⟩
  | err error spoken =>
    obtain ⟨c', hreturns, hfacing, hlearnt, hcapabilities⟩ := response_err h spoken
    exact ⟨c', c', hreturns, .nil c', hfacing, hlearnt, hcapabilities⟩
  | rows sql columns columnEof rows ending nonempty counted sendable hrows ends =>
    obtain ⟨c₁, c₂, hquery, hyields, hfacing₂, hcount, hcapabilities₂, -⟩ :=
      readDefinitions h nonempty counted sendable
    rw [← hcapabilities₂] at hfacing₂ ends
    obtain ⟨c', hreads, hfacing, hended, hcapabilities⟩ :=
      receives_rows hfacing₂ nonempty hcount hrows ends
    have hcolumns : Receives alloc c₁ (readsOfColumns columns) c₂ := .all rfl (by simp) rfl hyields
    exact ⟨c₁, c', hquery.map _, hcolumns.append hreads, hfacing,
      hended.of_capabilities hcapabilities₂, hcapabilities.trans hcapabilities₂⟩
  | binaryRows stmt flags binds enough values_out room columns rows ending deprecated nonempty
      counted sendable ends =>
    have hlt := stmt.column_count.toNat_lt
    obtain ⟨c₁, hexecute, hfacing₁, hcapabilities₁⟩ :=
      stmtExecuteRecv_count h (List.length_pos_of_ne_nil nonempty) (by omega)
    obtain ⟨c₂, hcolumns, hfacing₂, huntouched⟩ := receives_columns hfacing₁ sendable
    have hcapabilities₂ := huntouched.capabilities.trans hcapabilities₁
    rw [← hcapabilities₂] at hfacing₂ ends
    obtain ⟨c', hreads, hfacing, hended, hcapabilities⟩ :=
      receives_binaryRows hfacing₂ counted ends (room.trans counted)
    exact ⟨c₁, c', hexecute.map _, hcolumns.append hreads, hfacing,
      hended.of_capabilities hcapabilities₂, hcapabilities.trans hcapabilities₂⟩
  | prepared sql stmt params columns deprecated params_counted columns_counted sendable =>
    obtain ⟨c₁, hprepare, hfacing₁, hwarnings, hcapabilities₁⟩ := stmtPrepareRecv_stmt h
    rw [← List.append_nil (List.map columnBytes _)] at hfacing₁
    obtain ⟨c', hcolumns, hfacing, huntouched⟩ := receives_columns hfacing₁ sendable
    exact ⟨c₁, c', hprepare.map _, hcolumns, hfacing, huntouched.warning_count.trans hwarnings,
      huntouched.capabilities.trans hcapabilities₁⟩

end Conn

end Trilogy
