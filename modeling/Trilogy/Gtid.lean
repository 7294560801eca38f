import Trilogy.BinaryRow
import Trilogy.OkCodec
import Trilogy.Rows
import Trilogy.Shutdown

/-! What becomes of the id in an OK packet. The parser takes ids of up to
`maxLastGtidLen` bytes, the length the field of the connection is made for, but
`read_ok_packet` keeps only shorter ones. -/
namespace Trilogy

open Lib Proc Reader

/-- An OK packet of a session-tracking client, with these entries. -/
inductive Carries (entries : List Entry) : List UInt8 → Prop
  | intro {header : UInt8} {rows id : UInt64} {status warnings : UInt16}
      {r i info s block w : List UInt8} (hrows : LenencForm rows.toNat r)
      (hid : LenencForm id.toNat i) (hs : LenencString info s) (hw : LenencString block w)
      (hentries : BlockForm entries block) (changed : status &&& sessionStateChanged ≠ 0) :
      Carries entries (header :: (r ++ (i ++
        ((leBytes 2 status.toNat ++ leBytes 2 warnings.toNat) ++ (s ++ w)))))

section

variable {capabilities : UInt32} {b : List UInt8}

theorem Carries.parse_ok {entries : List Entry} (h : Carries entries b)
    (p41 : has capabilities Capabilities.protocol41)
    (track : has capabilities Capabilities.sessionTrack) :
    ∃ packet, parse (parseOkPacket capabilities) b = .ok packet ∧
      packet.last_gtid = (lastGtid entries).getD [] := by
  cases h with
  | intro hrows hid hs hw hentries changed =>
    exact ⟨_, parseOkPacket_ok_iff.mpr
      (.intro hrows hid (.full _ _ p41) (.changes track hs hw hentries changed)), rfl⟩

/-- Where the parser finds an id, there are entries. -/
theorem carries_of_parse {packet : OkPacket} (p41 : has capabilities Capabilities.protocol41)
    (hparse : parse (parseOkPacket capabilities) b = .ok packet) :
    packet.last_gtid = [] ∨
      ∃ entries, Carries entries b ∧ packet.last_gtid = (lastGtid entries).getD [] := by
  cases parseOkPacket_ok_iff.mp hparse with
  | intro hrows hid hstatus hinfo =>
    cases hstatus with
    | full status warnings _ =>
      cases hinfo with
      | plain | absent | status => exact .inl rfl
      | changes _ hs hw hentries changed =>
        exact .inr ⟨_, .intro hrows hid hs hw hentries changed, rfl⟩
    | transactions _ h | absent h => exact absurd p41 h

end

namespace Call

/-- The calls with an answer that can be an OK packet. -/
def AnsweredByOk : Call → Prop
  | changeDbRecv | pingRecv | stmtResetRecv | setOptionRecv | queryRecv | stmtExecuteRecv
  | authRecv .. => True
  | _ => False

def ReadsRow : Call → Prop
  | readRow | stmtReadRow .. => True
  | _ => False

end Call

namespace Conn

/-- What decides on the id to be kept. -/
structure SameTracking (c c' : Conn) : Prop where
  last_gtid : c'.last_gtid = c.last_gtid
  capabilities : c'.capabilities = c.capabilities

instance : Std.Refl SameTracking := ⟨fun _ => ⟨rfl, rfl⟩⟩

instance : IsTrans Conn SameTracking :=
  ⟨fun _ _ _ h h' =>
    ⟨h'.last_gtid.trans h.last_gtid, h'.capabilities.trans h.capabilities⟩⟩

theorem SameTracking.trans {c c₁ c' : Conn} (h : SameTracking c c₁) (h' : SameTracking c₁ c') :
    SameTracking c c' :=
  IsTrans.trans _ _ _ h h'

theorem tracking_onSocket {α : Type} (m : Proc Code Sock α) : Keeps SameTracking (onSocket m) :=
  fun _ => ⟨rfl, rfl⟩

theorem tracking_readPacket (alloc : Alloc) : Keeps SameTracking (readPacket alloc) := by
  have refills : Keeps SameTracking refill :=
    .bind .get fun _ => .ite (fun _ => .bind (tracking_onSocket _) fun _ =>
      .ite (fun _ => .throw _) fun _ => .modify fun _ => ⟨rfl, rfl⟩) fun _ => .pure _
  refine .bind refills fun _ c => ?_
  unfold execute
  simp only
  split
  · exact ⟨rfl, rfl⟩
  · split <;> exact ⟨rfl, rfl⟩

theorem tracking_flushWrites : Keeps SameTracking flushWrites :=
  .bind .get fun _ => .bind (tracking_onSocket _) fun _ => .bind (.modify fun _ => ⟨rfl, rfl⟩)
    fun _ => .bind .get fun _ => .ite (fun _ => .throw _) fun _ => .pure _

theorem tracking_sendClearPassword (alloc : Alloc) :
    Keeps SameTracking (sendClearPassword alloc) := by
  have begins : ∀ seq, Keeps SameTracking (beginCommandPhase alloc seq) := by
    intro seq c
    unfold beginCommandPhase
    split <;> exact ⟨rfl, rfl⟩
  have builds : ∀ builder m, Keeps SameTracking (build builder m) := by
    intro builder m c
    unfold build
    split <;> exact ⟨rfl, rfl⟩
  exact .bind .get fun _ => .bind (begins _) fun _ => .bind (builds _ _) fun _ =>
    .bind (.attempt (.bind (.modify fun _ => ⟨rfl, rfl⟩) fun _ => tracking_flushWrites)) fun _ =>
    .bind .get fun _ => keeps_flushPassword tracking_flushWrites (tracking_onSocket _) _ _

theorem tracking_authClearPassword : Keeps SameTracking authClearPassword :=
  .modify fun _ => ⟨rfl, rfl⟩

/-- What is done about the byte of an `AUTH_MORE_DATA` packet. -/
theorem tracking_fastAuth (alloc : Alloc) (byte : UInt8) :
    Keeps SameTracking (if byte = 3 then pure () else if byte = 4 then sendClearPassword alloc
      else throw .unexpectedPacket : Proc Code Conn Unit) :=
  .ite (fun _ => .pure _) fun _ => .ite (fun _ => tracking_sendClearPassword alloc)
    fun _ => .throw _

variable {alloc : Alloc} {c c' : Conn}

/-- What `read_ok_packet` makes of the id that the parser has found. -/
theorem readOkPacket_tracks {packet : OkPacket}
    (h : parse (parseOkPacket c.capabilities) c.packet_buffer.bytes = .ok packet) :
    (readOkPacket c).2.last_gtid =
      if packet.last_gtid.length > 0 ∧ packet.last_gtid.length < maxLastGtidLen then
        packet.last_gtid
      else c.last_gtid := by
  have hparse : parsePacket (parseOkPacket c.capabilities) c = (.ok packet, c) := by
    rw [parsePacket, h]
  rw [readOkPacket, get_bind, bind_of_ok hparse]
  by_cases p41 : has c.capabilities Capabilities.protocol41
  · rw [when_pos p41, modify_bind, modify_bind, Proc.when]
    split <;> rfl
  · rw [when_neg p41, pure_bind, modify_bind, Proc.when]
    split <;> rfl

/-- `read_ok_packet` is run on the packet, and all else leaves the id alone. -/
def ReadsOk (c : Conn) (b : List UInt8) (c' : Conn) : Prop :=
  ∃ c₁ c₂ r, SameTracking c c₁ ∧ c₁.packet_buffer.bytes = b ∧ readOkPacket c₁ = (r, c₂) ∧
    SameTracking c₂ c'

theorem ReadsOk.of_ok {c₁ : Conn} {r : Except Code Unit} (same : SameTracking c c₁)
    (h : readOkPacket c₁ = (r, c')) : ReadsOk c c'.packet_buffer.bytes c' := by
  have hnoted := noted_readOkPacket c₁
  rw [h] at hnoted
  exact ⟨c₁, c', r, same, by rw [hnoted.packet_buffer], h, Std.Refl.refl _⟩

theorem readErrPacket_error {α : Type} {rc : Code}
    (h : (readErrPacket : Proc Code Conn α) c = (.error rc, c')) : rc ≠ .eof := by
  rw [readErrPacket, get_bind] at h
  obtain h | ⟨_, c₁, -, h⟩ := bind_error.mp h
  · exact (raises_parseErrPacket _ (ends (congrArg Prod.fst h))).2.1
  · cases h
    decide

theorem readErrPacket_ne_ok {α : Type} {a : α}
    (h : (readErrPacket : Proc Code Conn α) c = (.ok a, c')) : False := by
  obtain ⟨_, c₁, -, h⟩ := bind_ok.mp h
  obtain ⟨_, c₂, -, h⟩ := bind_ok.mp h
  cases h

theorem handleGenericResponse_ok (h : handleGenericResponse c = (.ok (), c')) :
    readOkPacket c = (.ok (), c') := by
  rw [handleGenericResponse, get_bind] at h
  split at h
  · exact h
  · split at h
    · exact (readErrPacket_ne_ok h).elim
    · cases h

theorem rowReply_eof {α : Type} {row : UInt64 → Proc Code Reader α}
    (raises : ∀ n, Cursor.Raises Malformed (row n))
    (deprecates : has c.capabilities Capabilities.deprecateEof)
    (h : rowReply row c = (.error .eof, c')) : ∃ r, readOkPacket c = (r, c') := by
  rw [rowReply, get_bind] at h
  split at h
  · rw [readEofPacket, bind_apply, get_bind, if_pos deprecates] at h
    rcases hread : readOkPacket c with ⟨_ | _, c₁⟩
    · rw [hread] at h
      cases h
      exact ⟨_, rfl⟩
    · rw [hread] at h
      cases h
      exact ⟨_, rfl⟩
  · split at h
    · exact absurd rfl (readErrPacket_error h)
    · exact absurd rfl (raises _ (ends (congrArg Prod.fst h))).2.1

theorem readPacket_not_eof {α : Type} {f : Unit → Proc Code Conn α}
    (h : (readPacket alloc >>= f) c = (.error .eof, c')) :
    ∃ c₁, SameTracking c c₁ ∧ f () c₁ = (.error .eof, c') := by
  have hsame := tracking_readPacket alloc c
  obtain h | ⟨_, c₁, hread, h⟩ := bind_error.mp h
  · exact absurd (readPacket_fault h) (by decide)
  · rw [hread] at hsame
    exact ⟨c₁, hsame, h⟩

theorem readPacket_then {α : Type} {f : Unit → Proc Code Conn α} {a : α}
    (h : (readPacket alloc >>= f) c = (.ok a, c')) :
    ∃ c₁, SameTracking c c₁ ∧ f () c₁ = (.ok a, c') := by
  have hsame := tracking_readPacket alloc c
  obtain ⟨_, c₁, hread, h⟩ := bind_ok.mp h
  rw [hread] at hsame
  exact ⟨c₁, hsame, h⟩

theorem readGenericResponse_readsOk (h : readGenericResponse alloc c = (.ok (), c')) :
    ReadsOk c c'.packet_buffer.bytes c' := by
  obtain ⟨c₁, same, h⟩ := readPacket_then h
  exact .of_ok same (handleGenericResponse_ok h)

theorem setOptionRecv_readsOk (h : setOptionRecv alloc c = (.ok (), c')) :
    ReadsOk c c'.packet_buffer.bytes c' := by
  obtain ⟨c₁, same, h⟩ := readPacket_then h
  rw [get_bind] at h
  split at h
  · exact .of_ok same h
  · split at h
    · exact (readErrPacket_ne_ok h).elim
    · cases h

/-- The shape of the two calls that a statement is answered to. -/
theorem statement_readsOk {set : Proc Code Conn (Option UInt64)}
    (counts : ∀ {c c' : Conn}, set c ≠ (.ok none, c'))
    (h : (do
      readPacket alloc
      let conn ← get
      if conn.currentPacketType = Packet.ok then do
        readOkPacket
        pure none
      else if conn.currentPacketType = Packet.err then readErrPacket
      else set : Proc Code Conn (Option UInt64)) c = (.ok none, c')) :
    ReadsOk c c'.packet_buffer.bytes c' := by
  obtain ⟨c₁, same, h⟩ := readPacket_then h
  rw [get_bind] at h
  split at h
  · obtain ⟨_, c₂, hread, h⟩ := bind_ok.mp h
    cases h
    exact .of_ok same hread
  · split at h
    · exact (readErrPacket_ne_ok h).elim
    · exact absurd h counts

theorem queryRecv_readsOk (h : queryRecv alloc c = (.ok none, c')) :
    ReadsOk c c'.packet_buffer.bytes c' := by
  apply statement_readsOk _ h
  intro c c' h
  obtain ⟨_, c₁, -, h⟩ := bind_ok.mp h
  cases h

theorem stmtExecuteRecv_readsOk (h : stmtExecuteRecv alloc c = (.ok none, c')) :
    ReadsOk c c'.packet_buffer.bytes c' := by
  apply statement_readsOk _ h
  intro c c' h
  obtain ⟨_, c₁, -, h⟩ := bind_ok.mp h
  cases h

theorem authRecv_readsOk {packet : AuthSwitchRequestPacket} {handshake : Handshake}
    (h : authRecv alloc packet handshake c = (.ok none, c')) :
    ReadsOk c c'.packet_buffer.bytes c' := by
  have answers : ∀ {c₁}, SameTracking c c₁ → (do
      authClearPassword
      handleGenericResponse
      pure none : Proc Code Conn (Option Handshake)) c₁ = (.ok none, c') →
        ReadsOk c c'.packet_buffer.bytes c' := by
    intro c₁ same h
    rw [authClearPassword, modify_bind] at h
    obtain ⟨_, c₂, hread, h⟩ := bind_ok.mp h
    cases h
    exact .of_ok (same.trans (tracking_authClearPassword c₁)) (handleGenericResponse_ok hread)
  obtain ⟨c₁, same, h⟩ := readPacket_then h
  rw [get_bind] at h
  split at h
  · simp only at h
    split at h
    · cases h
    · obtain ⟨_, c₂, hbyte, h⟩ := bind_ok.mp h
      rw [get_bind] at h
      obtain ⟨_, c₃, hawait, h⟩ := bind_ok.mp h
      have hanswered := tracking_fastAuth alloc (c₁.packet_buffer.byteAt 1) c₁
      rw [hbyte] at hanswered
      have hawaited := keeps_awaitPacket (tracking_readPacket alloc) (tracking_onSocket _)
        (c₂.socket.net.polls.length + 1) c₂
      rw [hawait] at hawaited
      exact answers ((same.trans hanswered).trans hawaited) h
  · split at h
    · obtain ⟨_, c₂, -, h⟩ := bind_ok.mp h
      cases h
    · exact answers same h

theorem readRow_readsOk (deprecates : has c.capabilities Capabilities.deprecateEof)
    (h : readRow alloc c = (.error .eof, c')) : ReadsOk c c'.packet_buffer.bytes c' := by
  have hbegin : ∃ c₀, beginRows alloc c = (.ok (), c₀) ∧ SameTracking c c₀ := by
    by_cases hstarted : c.started_reading_rows
    · exact ⟨c, beginRows_skip hstarted, Std.Refl.refl c⟩
    · exact ⟨_, beginRows_deprecated deprecates hstarted, ⟨rfl, rfl⟩⟩
  obtain ⟨c₀, hbegin, same₀⟩ := hbegin
  rw [readRow, bind_of_ok hbegin] at h
  obtain ⟨c₁, same₁, h⟩ := readPacket_not_eof h
  have same := same₀.trans same₁
  rw [← same.capabilities] at deprecates
  obtain ⟨r, hread⟩ := rowReply_eof raises_parseRowPacket deprecates h
  exact .of_ok same hread

theorem stmtReadRow_readsOk {stmt : StmtOkPacket} {columns : List Column}
    {values_out : List BinaryValue} (deprecates : has c.capabilities Capabilities.deprecateEof)
    (h : stmtReadRow alloc stmt columns values_out c = (.error .eof, c')) :
    ReadsOk c c'.packet_buffer.bytes c' := by
  obtain ⟨c₁, same, h⟩ := readPacket_not_eof h
  rw [← same.capabilities] at deprecates
  have hrow := @rowReply_eof c₁ c' _
    (fun _ => parseStmtRowPacket columns stmt.column_count.toUInt64 values_out)
    (fun _ => raises_parseStmtRowPacket _ _ _) deprecates h
  obtain ⟨r, hread⟩ := hrow
  exact .of_ok same hread

/-- The call goes on to the rows behind the packet. -/
theorem drainResults_readsOk {c₁ : Conn} {r : Except Code Unit}
    (deprecates : has c.capabilities Capabilities.deprecateEof)
    (hstarted : ¬ c.started_reading_rows) (hread : readPacket alloc c = (.ok (), c₁))
    (h : drainResults alloc c = (r, c')) : ReadsOk c c₁.packet_buffer.bytes c' := by
  have same := tracking_readPacket alloc c
  rw [hread] at same
  have deprecates₁ := deprecates
  rw [← same.capabilities] at deprecates₁
  rcases hok : readOkPacket c₁ with ⟨rc, c₂⟩
  refine ⟨c₁, c₂, rc, same, rfl, hok, ?_⟩
  have heof : readEof alloc c = (rc, c₂) := by
    rw [readEof, bind_of_ok hread, readEofPacket, get_bind, if_pos deprecates₁, hok]
  rw [drainResults, get_bind, if_pos (by simpa using hstarted)] at h
  rcases rc with rc | _
  · rw [bind_apply, bind_of_error heof] at h
    cases h
    exact Std.Refl.refl _
  · have hfirst : (do
        readEof alloc
        modify fun conn => { conn with started_reading_rows := true } : Proc Code Conn Unit) c =
          (.ok (), { c₂ with started_reading_rows := true }) := by
      rw [bind_of_ok heof]
      rfl
    rw [bind_of_ok hfirst, get_bind] at h
    have hrows := keeps_drainRows (tracking_readPacket alloc)
      (({ c₂ with started_reading_rows := true } : Conn).pendingBytes + 2)
      { c₂ with started_reading_rows := true }
    rw [h] at hrows
    exact ⟨hrows.last_gtid, hrows.capabilities⟩

/-- A call has processed an OK packet. `Decoded.done` comes with `TRILOGY_OK`; an
OK packet that ends rows comes with `TRILOGY_EOF`, and the one in front of them
is not the last packet that a call to drain them reads. -/
inductive Processes (alloc : Alloc) (digests : Digests) :
    Call → Conn → List UInt8 → Conn → Prop
  | answer {call : Call} {c c' : Conn} (answers : call.AnsweredByOk)
      (h : call.run alloc digests c = (.ok .done, c')) :
      Processes alloc digests call c c'.packet_buffer.bytes c'
  | endOfRows {call : Call} {c c' : Conn} (reads : call.ReadsRow)
      (deprecates : has c.capabilities Capabilities.deprecateEof)
      (h : call.run alloc digests c = (.error .eof, c')) :
      Processes alloc digests call c c'.packet_buffer.bytes c'
  | drained {c c₁ c' : Conn} {r : Except Code Decoded}
      (deprecates : has c.capabilities Capabilities.deprecateEof)
      (first : ¬ c.started_reading_rows) (hread : readPacket alloc c = (.ok (), c₁))
      (h : Call.drainResults.run alloc digests c = (r, c')) :
      Processes alloc digests .drainResults c c₁.packet_buffer.bytes c'

variable {digests : Digests} {call : Call} {b : List UInt8}

theorem Processes.readsOk (h : Processes alloc digests call c b c') : ReadsOk c b c' := by
  have done : ∀ {m : Proc Code Conn Unit} {c : Conn} {d : Decoded},
      (do m; pure .done : Proc Code Conn Decoded) c = (.ok d, c') → m c = (.ok (), c') := by
    intro m c d h
    obtain ⟨_, c₁, hm, h⟩ := bind_ok.mp h
    cases h
    exact hm
  have none : ∀ {α : Type} {m : Proc Code Conn (Option α)} {f : α → Decoded} {c : Conn},
      (∀ a, f a ≠ .done) → ((Option.elim · .done f) <$> m) c = (.ok .done, c') →
        m c = (.ok none, c') := by
    intro α m f c other h
    obtain ⟨_ | a, hm, ha⟩ := map_ok.mp h
    · exact hm
    · exact absurd ha (other a)
  cases h with
  | answer answers h =>
    cases call with
    | changeDbRecv | pingRecv | stmtResetRecv => exact readGenericResponse_readsOk (done h)
    | setOptionRecv => exact setOptionRecv_readsOk (done h)
    | queryRecv => exact queryRecv_readsOk (none (by simp) h)
    | stmtExecuteRecv => exact stmtExecuteRecv_readsOk (none (by simp) h)
    | authRecv packet handshake => exact authRecv_readsOk (none (by simp) h)
    | _ => exact answers.elim
  | endOfRows reads deprecates h =>
    cases call with
    | readRow => exact readRow_readsOk deprecates (map_error.mp h)
    | stmtReadRow stmt columns values_out => exact stmtReadRow_readsOk deprecates (map_error.mp h)
    | _ => exact reads.elim
  | drained deprecates first hread h =>
    rcases hdrain : drainResults alloc c with ⟨rc, c₂⟩
    have hstate := drainResults_readsOk deprecates first hread hdrain
    rw [Call.run, bind_apply, hdrain] at h
    rcases rc with rc | _
    · cases h
      exact hstate
    · cases h
      exact hstate

/-- The last id of a packet reaches the connection exactly when it is shorter
than the field; a packet without an id changes nothing. -/
theorem last_gtid_kept_iff (h : Processes alloc digests call c b c')
    (p41 : has c.capabilities Capabilities.protocol41)
    (track : has c.capabilities Capabilities.sessionTrack) :
    (∀ entries id, Carries entries b → lastGtid entries = some id → id ≠ [] →
      (c'.last_gtid = id ↔ id.length < maxLastGtidLen ∨ c.last_gtid = id)) ∧
    ((∀ entries, Carries entries b → lastGtid entries = none) → c'.last_gtid = c.last_gtid) := by
  obtain ⟨c₁, c₂, r, same, rfl, hread, same'⟩ := h.readsOk
  rw [← same.capabilities] at p41 track
  rw [same'.last_gtid, ← same.last_gtid]
  constructor
  · intro entries id hcarries hid hne
    obtain ⟨packet, hparse, hlast⟩ := hcarries.parse_ok p41 track
    have htracks := readOkPacket_tracks hparse
    have hpos := List.length_pos_of_ne_nil hne
    rw [hid, Option.getD_some] at hlast
    rw [hread, hlast] at htracks
    by_cases hshort : id.length < maxLastGtidLen
    · rw [if_pos ⟨hpos, hshort⟩] at htracks
      exact iff_of_true htracks (.inl hshort)
    · rw [if_neg fun h => hshort h.2] at htracks
      have hkept : c₂.last_gtid = c₁.last_gtid := htracks
      rw [hkept]
      simp [hshort]
  · intro hnone
    rcases hparse : parse (parseOkPacket c₁.capabilities) c₁.packet_buffer.bytes with rc | packet
    · rw [readOkPacket_error hparse] at hread
      cases hread
      rfl
    · have htracks := readOkPacket_tracks hparse
      have hlast : packet.last_gtid = [] := by
        obtain hlast | ⟨entries, hcarries, hlast⟩ := carries_of_parse p41 hparse
        · exact hlast
        · rw [hlast, hnone entries hcarries]
          rfl
      rw [hread, hlast, if_neg (by simp)] at htracks
      exact htracks

/-- An OK packet that reports this id and nothing else. -/
def gtidPacket (id : List UInt8) : List UInt8 :=
  0x00 :: (lenenc (0 : UInt64).toNat ++ (lenenc (0 : UInt64).toNat ++
    ((leBytes 2 sessionStateChanged.toNat ++ leBytes 2 (0 : UInt16).toNat) ++
      (lenencBytes [] ++ lenencBytes (Entry.gtids 0 id).bytes))))

theorem carries_gtidPacket {id : List UInt8} (h : id.length ≤ maxLastGtidLen) :
    Carries [.gtids 0 id] (gtidPacket id) := by
  have hid : (lenencBytes id).length ≤ 58 := by
    have hone : (lenenc id.length).length = 1 := by
      rw [lenenc, if_pos (Nat.lt_of_le_of_lt h (by decide)), length_leBytes]
    rw [lenencBytes, List.length_append, hone]
    exact Nat.add_le_add_left h 1
  have hdata : (Entry.gtids 0 id).data.length ≤ 59 := Nat.succ_le_succ hid
  have hbytes : (Entry.gtids 0 id).bytes.length < 2 ^ 64 := by
    have hone : (lenenc (Entry.gtids 0 id).data.length).length = 1 := by
      rw [lenenc, if_pos (Nat.lt_of_le_of_lt hdata (by decide)), length_leBytes]
    rw [Entry.bytes, lenencBytes, List.length_cons, List.length_append, hone]
    omega
  have hentry : EntryForm (.gtids 0 id) (Entry.gtids 0 id).bytes :=
    OkContent.entryForm (.gtids 0 h) (Nat.lt_of_le_of_lt hdata (by decide))
  exact .intro (lenencForm_lenenc (by decide)) (lenencForm_lenenc (by decide))
    (lenencString_lenencBytes (by decide)) (lenencString_lenencBytes hbytes)
    ⟨_, .cons hentry .nil, List.append_nil _⟩ (by decide)

/-- A transaction number of 19 digits fits. -/
theorem last_gtid_kept_iff_fits :
    let id : List UInt8 := List.replicate 56 0x61
    let c := answeringConn Capabilities.client [gtidPacket id]
    (Call.pingRecv.run (fun _ => true) noDigests c).2.last_gtid = id := by
  intro id c
  have hrun : (Call.pingRecv.run (fun _ => true) noDigests c).1 = .ok .done := by
    decide +kernel
  have hbytes : (Call.pingRecv.run (fun _ => true) noDigests c).2.packet_buffer.bytes =
      gtidPacket id := by
    decide +kernel
  have h := @Processes.answer _ _ .pingRecv _ _ trivial (ends hrun)
  rw [hbytes] at h
  exact ((last_gtid_kept_iff h (by decide) (by decide)).1 _ id
    (carries_gtidPacket (by decide)) rfl (by decide)).mpr (.inl (by decide))

/-- One of 20 digits does not, although the field has room for it. -/
theorem last_gtid_dropped :
    let id : List UInt8 := List.replicate 57 0x61
    let c := answeringConn Capabilities.client [gtidPacket id]
    ∃ c', Processes (fun _ => true) noDigests .pingRecv c (gtidPacket id) c' ∧
      Carries [.gtids 0 id] (gtidPacket id) ∧ lastGtid [.gtids 0 id] = some id ∧
      c'.last_gtid = [] := by
  intro id c
  have hrun : (Call.pingRecv.run (fun _ => true) noDigests c).1 = .ok .done := by
    decide +kernel
  have hbytes : (Call.pingRecv.run (fun _ => true) noDigests c).2.packet_buffer.bytes =
      gtidPacket id := by
    decide +kernel
  have h := @Processes.answer _ _ .pingRecv _ _ trivial (ends hrun)
  rw [hbytes] at h
  exact ⟨_, h, carries_gtidPacket (by decide), rfl, by decide +kernel⟩

end Conn

end Trilogy
