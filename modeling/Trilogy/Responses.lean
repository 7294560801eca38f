import Trilogy.OkGrammar

namespace Trilogy

open Lib Reader

def valueText : Value → List UInt8
  | none => [0xfb]
  | some data => lenencBytes data

/-- A text row, every length in its shortest form. -/
def textRow (values : List Value) : List UInt8 := values.flatMap valueText

/-- The lengths are those of a `size_t`. -/
def Sized (values : List Value) : Prop := ∀ data, some data ∈ values → data.length < 2 ^ 64

theorem reads_parseValues {values : List Value} (sized : Sized values) (tail : List UInt8) :
    Cursor.Reads (parseValues values.length) (textRow values ++ tail) (.ok values) tail := by
  induction values with
  | nil => exact .pure _ _
  | cons value values ih =>
    have hvalues := ih fun data h => sized data (List.mem_cons_of_mem _ h)
    rw [textRow, List.flatMap_cons, List.append_assoc]
    cases value with
    | none =>
      exact .bind (.attempt (reads_getLenencBuffer_null _)) (.bind hvalues (.pure _ _))
    | some data =>
      have hdata := sized data List.mem_cons_self
      exact .bind (.attempt (reads_getLenencBuffer hdata _)) (.bind hvalues (.pure _ _))

theorem parse_textRow {values : List Value} (sized : Sized values) {n : UInt64}
    (hn : n.toNat = values.length) : parse (parseRowPacket n) (textRow values) = .ok values := by
  have h := reads_parseValues sized []
  rw [List.append_nil] at h
  have hrow : Cursor.Reads (parseRowPacket n) (textRow values) (.ok values) [] := by
    rw [parseRowPacket, hn]
    exact .bind h (.bind reads_finish (.pure _ _))
  exact hrow.run

theorem lenenc_head (n : Nat) : ∃ b bs, lenenc n = b :: bs ∧ b ≠ 0xff ∧ b ≠ 0xfb ∧
    (b = 0xfe → 0xffffff < n) ∧ (b = 0 → n = 0) := by
  unfold lenenc
  split
  · rename_i h
    have hb : (UInt8.ofNat n).toNat = n := by
      rw [UInt8.toNat_ofNat']
      omega
    refine ⟨UInt8.ofNat n, [], rfl, ?_, ?_, ?_, ?_⟩
    · intro he
      have : n = 255 := by rw [← hb, he]; rfl
      omega
    · intro he
      have : n = 251 := by rw [← hb, he]; rfl
      omega
    · intro he
      have : n = 254 := by rw [← hb, he]; rfl
      omega
    · intro he
      rw [← hb, he]
      rfl
  · split
    · exact ⟨_, _, rfl, by decide, by decide, fun h => absurd h (by decide),
        fun h => absurd h (by decide)⟩
    · split
      · exact ⟨_, _, rfl, by decide, by decide, fun h => absurd h (by decide),
          fun h => absurd h (by decide)⟩
      · exact ⟨_, _, rfl, by decide, by decide, fun _ => by omega, fun h => absurd h (by decide)⟩

/-- A row is not empty, it does not start like an error packet, and where it
starts like a terminator it is longer than 16 MB. -/
theorem textRow_head {values : List Value} (h : values ≠ []) :
    ∃ b bs, textRow values = b :: bs ∧ b ≠ 0xff ∧ (b = 0xfe → 0xffffff < (b :: bs).length) := by
  obtain ⟨value, values, rfl⟩ := List.exists_cons_of_ne_nil h
  rw [textRow, List.flatMap_cons]
  cases value with
  | none => exact ⟨0xfb, _, rfl, by decide, fun h => absurd h (by decide)⟩
  | some data =>
    obtain ⟨b, bs, hb, hff, -, hfe, -⟩ := lenenc_head data.length
    refine ⟨b, bs ++ (data ++ values.flatMap valueText), ?_, hff, fun h => ?_⟩
    · simp [valueText, lenencBytes, hb]
    · have := hfe h
      simp only [List.length_cons, List.length_append]
      omega

theorem parse_resultPacket {n : Nat} (h : n < 2 ^ 64) :
    parse parseResultPacket (lenenc n) = .ok ⟨UInt64.ofNat n⟩ := by
  have hlen := reads_getLenenc h []
  rw [List.append_nil] at hlen
  have hresult : Cursor.Reads parseResultPacket (lenenc n) (.ok ⟨UInt64.ofNat n⟩) [] :=
    .bind hlen (.bind reads_finish (.pure _ _))
  exact hresult.run

/-- A column definition; 0x0c is the length of the fields that follow it. -/
def columnBytes (c : Column) : List UInt8 :=
  lenencBytes c.catalog ++ (lenencBytes c.schema ++ (lenencBytes c.table ++
    (lenencBytes c.original_table ++ (lenencBytes c.name ++ (lenencBytes c.original_name ++
    (lenenc 0x0c ++ (leBytes 2 c.charset.toNat ++ (leBytes 4 c.len.toNat ++ (c.type ::
    (leBytes 2 c.flags.toNat ++ (c.decimals :: leBytes 2 0)))))))))))

/-- A definition that can be sent; defaults only come with `COM_FIELD_LIST`. -/
structure Column.Sendable (c : Column) : Prop where
  catalog : c.catalog.length < 2 ^ 64
  schema : c.schema.length < 2 ^ 64
  table : c.table.length < 2 ^ 64
  original_table : c.original_table.length < 2 ^ 64
  name : c.name.length < 2 ^ 64
  original_name : c.original_name.length < 2 ^ 64
  default_value : c.default_value = []

theorem parse_columnPacket {c : Column} (h : c.Sendable) :
    parse (parseColumnPacket false) (columnBytes c) = .ok c := by
  have hfiller := reads_getUint16 0 []
  rw [List.append_nil] at hfiller
  have hcolumn : Cursor.Reads (parseColumnPacket false) (columnBytes c)
      (.ok { c with
        charset := UInt16.ofNat c.charset.toNat
        len := UInt32.ofNat c.len.toNat
        flags := UInt16.ofNat c.flags.toNat
        default_value := [] }) [] :=
    .bind (reads_getLenencBuffer h.catalog _) <| .bind (reads_getLenencBuffer h.schema _) <|
    .bind (reads_getLenencBuffer h.table _) <| .bind (reads_getLenencBuffer h.original_table _) <|
    .bind (reads_getLenencBuffer h.name _) <| .bind (reads_getLenencBuffer h.original_name _) <|
    .bind (reads_getLenenc (by decide) _) <| .bind (reads_getUint16 _ _) <|
    .bind (reads_getUint32 _ _) <| .bind (reads_getUint8 _ _) <| .bind (reads_getUint16 _ _) <|
    .bind (reads_getUint8 _ _) <| .bind hfiller <| .bind (.pure _ _) <| .bind reads_finish <|
    .pure _ _
  rw [parse, hcolumn.run, UInt16.ofNat_toNat, UInt32.ofNat_toNat, UInt16.ofNat_toNat, ← h.default_value]

/-- What an OK packet reports. A server may leave an empty `info` out. -/
structure OkReply where
  affected_rows : UInt64
  last_insert_id : UInt64
  status : UInt16
  warnings : UInt16
  info : Option (List UInt8)
  changes : List (UInt8 × List UInt8)

namespace OkReply

/-- Whether the packet ends with session-state changes. -/
def Changed (capabilities : UInt32) (o : OkReply) : Prop :=
  has capabilities Capabilities.protocol41 ∧ o.status &&& sessionStateChanged ≠ 0

instance (capabilities : UInt32) (o : OkReply) : Decidable (o.Changed capabilities) :=
  inferInstanceAs (Decidable (_ ∧ _))

def statusBytes (capabilities : UInt32) (o : OkReply) : List UInt8 :=
  if has capabilities Capabilities.protocol41 then
    leBytes 2 o.status.toNat ++ leBytes 2 o.warnings.toNat
  else if has capabilities Capabilities.transactions then leBytes 2 o.status.toNat
  else []

/-- Each change is a type and its data. -/
def changeBytes (o : OkReply) : List UInt8 :=
  o.changes.flatMap fun change => change.1 :: lenencBytes change.2

def infoBytes (capabilities : UInt32) (o : OkReply) : List UInt8 :=
  if has capabilities Capabilities.sessionTrack then
    match o.info with
    | none => []
    | some info =>
      lenencBytes info ++ if o.Changed capabilities then lenencBytes o.changeBytes else []
  else o.info.getD []

def bytes (header : UInt8) (capabilities : UInt32) (o : OkReply) : List UInt8 :=
  header :: (lenenc o.affected_rows.toNat ++ (lenenc o.last_insert_id.toNat ++
    (o.statusBytes capabilities ++ o.infoBytes capabilities)))

/-- The `info` is there when something follows it. -/
structure Sendable (capabilities : UInt32) (o : OkReply) : Prop where
  info : o.Changed capabilities → o.info ≠ none
  length : ∀ info, o.info = some info → info.length < 2 ^ 64

theorem lenenc_pos (n : Nat) : 0 < (lenenc n).length := by
  obtain ⟨b, bs, h, -⟩ := lenenc_head n
  simp [h]

/-- Session-state changes make a packet of nine bytes at least. -/
theorem not_changed_of_short {header : UInt8} {capabilities : UInt32} {o : OkReply}
    (h : o.Sendable capabilities) (track : has capabilities Capabilities.sessionTrack)
    (short : (o.bytes header capabilities).length < 9) : ¬ o.Changed capabilities := by
  intro hchanged
  obtain ⟨info, hinfo⟩ := Option.ne_none_iff_exists'.mp (h.info hchanged)
  have h1 := lenenc_pos o.affected_rows.toNat
  have h2 := lenenc_pos o.last_insert_id.toNat
  have h3 := lenenc_pos info.length
  have h4 := lenenc_pos o.changeBytes.length
  simp only [bytes, statusBytes, infoBytes, hchanged.1, track, hinfo, hchanged, if_true,
    lenencBytes, List.length_cons, List.length_append, length_leBytes] at short
  omega

/-- The record up to the status flags and warnings. -/
def head (capabilities : UInt32) (o : OkReply) : OkPacket where
  affected_rows := o.affected_rows
  last_insert_id := o.last_insert_id
  status_flags := if has capabilities Capabilities.protocol41 then o.status else 0
  warning_count := if has capabilities Capabilities.protocol41 then o.warnings else 0
  txn_status_flags :=
    if has capabilities Capabilities.protocol41 then 0
    else if has capabilities Capabilities.transactions then o.status
    else 0
  session_status := []
  session_state_changes := []
  info := []
  last_gtid := []

/-- The record of a packet without session-state changes. -/
def packet (capabilities : UInt32) (o : OkReply) : OkPacket :=
  if has capabilities Capabilities.sessionTrack then
    { o.head capabilities with session_status := o.info.getD [] }
  else { o.head capabilities with info := o.info.getD [] }

theorem packet_head (capabilities : UInt32) (o : OkReply) :
    (o.packet capabilities).status_flags = (o.head capabilities).status_flags ∧
      (o.packet capabilities).warning_count = (o.head capabilities).warning_count ∧
      (o.packet capabilities).last_gtid = [] := by
  unfold packet
  split <;> exact ⟨rfl, rfl, rfl⟩

theorem statusForm (capabilities : UInt32) (o : OkReply) :
    StatusForm capabilities (.start o.affected_rows o.last_insert_id) (o.statusBytes capabilities)
      (o.head capabilities) := by
  unfold statusBytes head
  by_cases h41 : has capabilities Capabilities.protocol41
  · simp only [h41, if_true]
    exact .full _ _ h41
  · by_cases ht : has capabilities Capabilities.transactions
    · simp only [h41, ht, if_true]
      exact .transactions _ h41 ht
    · simp only [h41, ht]
      exact .absent h41 ht

theorem infoForm {capabilities : UInt32} {o : OkReply} (h : o.Sendable capabilities)
    (unchanged : has capabilities Capabilities.sessionTrack → ¬ o.Changed capabilities) :
    InfoForm capabilities (o.head capabilities) (o.infoBytes capabilities)
      (o.packet capabilities) := by
  by_cases track : has capabilities Capabilities.sessionTrack
  · have same : (o.head capabilities).status_flags &&& sessionStateChanged = 0 := by
      have := unchanged track
      by_cases h41 : has capabilities Capabilities.protocol41
      · simpa [Changed, head, h41] using this
      · simp [head, h41]
    rw [packet, if_pos track]
    cases hinfo : o.info with
    | none =>
      have he : o.infoBytes capabilities = [] := by simp [infoBytes, track, hinfo]
      rw [he]
      exact .absent track
    | some info =>
      have he : o.infoBytes capabilities = lenencBytes info := by
        simp [infoBytes, track, hinfo, unchanged track]
      rw [he]
      exact .status track (lenencString_lenencBytes (h.length info hinfo)) same
  · have he : o.infoBytes capabilities = o.info.getD [] := by simp [infoBytes, track]
    rw [packet, if_neg track, he]
    exact .plain _ track

/-- An OK packet without session-state changes, whatever its header. -/
theorem parse_bytes (header : UInt8) {capabilities : UInt32} {o : OkReply}
    (h : o.Sendable capabilities)
    (unchanged : has capabilities Capabilities.sessionTrack → ¬ o.Changed capabilities) :
    parse (parseOkPacket capabilities) (o.bytes header capabilities) =
      .ok (o.packet capabilities) :=
  parseOkPacket_ok_iff.mpr (.intro (lenencForm_lenenc o.affected_rows.toNat_lt)
    (lenencForm_lenenc o.last_insert_id.toNat_lt) (o.statusForm capabilities)
    (infoForm h unchanged))

/-- Changes a client can keep: an id comes behind a tag, and fits into its field. -/
structure Trackable (o : OkReply) : Prop where
  data : ∀ change ∈ o.changes, change.2.length < 2 ^ 64
  gtid : ∀ change ∈ o.changes, change.1 = sessionTrackGtids →
    ∃ tag gtid, change.2 = tag :: lenencBytes gtid ∧ gtid.length ≤ maxLastGtidLen
  length : o.changeBytes.length < 2 ^ 64

theorem exists_blockForm {changes : List (UInt8 × List UInt8)}
    (data : ∀ change ∈ changes, change.2.length < 2 ^ 64)
    (gtid : ∀ change ∈ changes, change.1 = sessionTrackGtids →
      ∃ tag gtid, change.2 = tag :: lenencBytes gtid ∧ gtid.length ≤ maxLastGtidLen) :
    ∃ entries, BlockForm entries
      (changes.flatMap fun change => change.1 :: lenencBytes change.2) := by
  induction changes with
  | nil => exact ⟨[], [], .nil, rfl⟩
  | cons change changes ih =>
    obtain ⟨hdata, data⟩ := List.forall_mem_cons.mp data
    obtain ⟨hgtid, gtid⟩ := List.forall_mem_cons.mp gtid
    obtain ⟨entries, words, hwords, hflatten⟩ := ih data gtid
    have hchange := lenencString_lenencBytes hdata
    obtain ⟨entry, hentry⟩ :
        ∃ entry, EntryForm entry (change.1 :: lenencBytes change.2) := by
      by_cases htype : change.1 = sessionTrackGtids
      · obtain ⟨tag, id, hid, fits⟩ := hgtid htype
        have hs := lenencString_lenencBytes (Nat.lt_of_le_of_lt fits (by decide))
        rw [← List.append_nil (lenencBytes id)] at hid
        rw [hid] at hchange
        rw [htype, hid]
        exact ⟨_, .gtids hs fits hchange⟩
      · exact ⟨_, .other htype hchange⟩
    refine ⟨entry :: entries, _ :: words, .cons hentry hwords, ?_⟩
    rw [List.flatten_cons, hflatten, List.flatMap_cons]

theorem infoForm_changed {capabilities : UInt32} {o : OkReply}
    (h : o.Sendable capabilities) (trackable : o.Trackable)
    (track : has capabilities Capabilities.sessionTrack) (changed : o.Changed capabilities) :
    ∃ packet : OkPacket, packet.status_flags = (o.head capabilities).status_flags ∧
      packet.warning_count = (o.head capabilities).warning_count ∧
      InfoForm capabilities (o.head capabilities) (o.infoBytes capabilities) packet := by
  obtain ⟨info, hinfo⟩ := Option.ne_none_iff_exists'.mp (h.info changed)
  obtain ⟨entries, hentries⟩ := exists_blockForm trackable.data trackable.gtid
  have he : o.infoBytes capabilities = lenencBytes info ++ lenencBytes o.changeBytes := by
    simp [infoBytes, track, hinfo, changed]
  have hstatus : (o.head capabilities).status_flags &&& sessionStateChanged ≠ 0 := by
    simpa [head, changed.1] using changed.2
  rw [he]
  refine ⟨_, ?_, ?_, .changes track (lenencString_lenencBytes (h.length info hinfo))
    (lenencString_lenencBytes trackable.length) hentries hstatus⟩
  · rfl
  · rfl

/-- Any OK packet, as far as the status is concerned. -/
theorem parse_reply (header : UInt8) {capabilities : UInt32} {o : OkReply}
    (h : o.Sendable capabilities) (trackable : o.Trackable) :
    ∃ packet, parse (parseOkPacket capabilities) (o.bytes header capabilities) = .ok packet ∧
      packet.status_flags = (o.head capabilities).status_flags ∧
      packet.warning_count = (o.head capabilities).warning_count := by
  by_cases hchanged : has capabilities Capabilities.sessionTrack ∧ o.Changed capabilities
  · obtain ⟨packet, hstatus, hwarnings, hinfo⟩ :=
      infoForm_changed h trackable hchanged.1 hchanged.2
    exact ⟨packet, parseOkPacket_ok_iff.mpr (.intro (lenencForm_lenenc o.affected_rows.toNat_lt)
      (lenencForm_lenenc o.last_insert_id.toNat_lt) (o.statusForm capabilities) hinfo),
      hstatus, hwarnings⟩
  · obtain ⟨hstatus, hwarnings, -⟩ := o.packet_head capabilities
    exact ⟨_, parse_bytes header h fun track hc => hchanged ⟨track, hc⟩, hstatus, hwarnings⟩

end OkReply

def eofBytes (capabilities : UInt32) (warnings status : UInt16) : List UInt8 :=
  0xfe :: if has capabilities Capabilities.protocol41 then
    leBytes 2 warnings.toNat ++ leBytes 2 status.toNat else []

theorem length_eofBytes (capabilities : UInt32) (warnings status : UInt16) :
    (eofBytes capabilities warnings status).length < 9 := by
  unfold eofBytes
  split <;> simp

theorem parse_eofPacket (capabilities : UInt32) (warnings status : UInt16) :
    parse (parseEofPacket capabilities) (eofBytes capabilities warnings status) =
      .ok (if has capabilities Capabilities.protocol41 then ⟨warnings, status⟩ else ⟨0, 0⟩) := by
  have heof : Cursor.Reads (parseEofPacket capabilities) (eofBytes capabilities warnings status)
      (.ok (if has capabilities Capabilities.protocol41 then ⟨warnings, status⟩ else ⟨0, 0⟩))
      [] := by
    unfold parseEofPacket eofBytes
    refine .bind (reads_getUint8 _ _) ?_
    split
    · have hwarnings := reads_getUint16 warnings.toNat (leBytes 2 status.toNat)
      have hstatus := reads_getUint16 status.toNat []
      rw [UInt16.ofNat_toNat] at hwarnings hstatus
      rw [List.append_nil] at hstatus
      exact .bind hwarnings (.bind hstatus (.bind reads_finish (.pure _ _)))
    · exact .bind reads_finish (.pure _ _)
  exact heof.run

structure ErrReply where
  code : UInt16
  marker : UInt8
  state : List UInt8
  message : List UInt8
  state_length : state.length = 5

def ErrReply.bytes (capabilities : UInt32) (e : ErrReply) : List UInt8 :=
  0xff :: (leBytes 2 e.code.toNat ++
    ((if has capabilities Capabilities.protocol41 then e.marker :: e.state else []) ++ e.message))

def ErrReply.packet (capabilities : UInt32) (e : ErrReply) : ErrPacket :=
  if has capabilities Capabilities.protocol41 then ⟨e.code, [e.marker], e.state, e.message⟩
  else ⟨e.code, [0], [0, 0, 0, 0, 0], e.message⟩

theorem ErrReply.parse_bytes (capabilities : UInt32) (e : ErrReply) :
    parse (parseErrPacket capabilities) (e.bytes capabilities) = .ok (e.packet capabilities) := by
  have herr : Cursor.Reads (parseErrPacket capabilities) (e.bytes capabilities)
      (.ok (e.packet capabilities)) [] := by
    unfold parseErrPacket bytes packet
    have hcode := fun tail => reads_getUint16 e.code.toNat tail
    rw [UInt16.ofNat_toNat] at hcode
    refine .bind (reads_getUint8 _ _) (.bind (hcode _) ?_)
    split
    · exact .bind (reads_getUint8 _ _) (.bind (.mark _ _)
        (.bind (reads_copyBuffer e.state_length _ _ _) (.bind (reads_getEofBuffer _)
        (.bind reads_finish (.pure _ _)))))
    · exact .bind (reads_getEofBuffer _) (.bind reads_finish (.pure _ _))
  exact herr.run

end Trilogy
