import Trilogy.Notes
import Trilogy.Sequence

namespace Trilogy

open Lib Proc

namespace Conn

theorem currentPacketType_of_bytes {c : Conn} {b : UInt8} {bs : List UInt8}
    (h : c.packet_buffer.bytes = b :: bs) : c.currentPacketType = b := by
  rw [currentPacketType, Buffer.byteAt, h]
  rfl

instance : Std.Refl Untouched := ⟨Untouched.refl⟩

instance : IsTrans Conn Untouched := ⟨fun _ _ _ h h' => h.trans h'⟩

theorem untouched_readPacket (alloc : Alloc) : Keeps Untouched (readPacket alloc) := by
  have refills : Keeps Untouched refill :=
    .bind .get fun _ => .ite (fun _ => .bind (fun _ => ⟨rfl, rfl, rfl, rfl, rfl⟩) fun _ =>
      .ite (fun _ => .throw _) fun _ => .modify fun _ => ⟨rfl, rfl, rfl, rfl, rfl⟩) fun _ => .pure _
  refine .bind refills fun _ c => ?_
  unfold execute
  simp only
  split
  · exact ⟨rfl, rfl, rfl, rfl, rfl⟩
  · split <;> exact ⟨rfl, rfl, rfl, rfl, rfl⟩

variable {alloc : Alloc} {n : Nat} {c : Conn} {p : List UInt8} {ps : List (List UInt8)}
  {rest : List UInt8}

/-- A call that reads a packet and goes on from there. -/
theorem Facing.receive {α : Type} {f : Unit → Proc Code Conn α}
    (h : Facing alloc n c (p :: ps) rest) :
    ∃ c₁, c₁.packet_buffer.bytes = p ∧ Facing alloc n c₁ ps rest ∧ Untouched c c₁ ∧
      ∀ r c', f () c₁ = (r, c') → r ≠ .error .again →
        Returns .again (readPacket alloc >>= f) c r c' := by
  obtain ⟨c₁, hreturns, hbytes, hfacing, huntouched⟩ := h.read
  exact ⟨c₁, hbytes, hfacing, huntouched, fun r c' hf hr => hreturns.bind_ok hf hr⟩

theorem queryRecv_count {count : Nat} (h : Facing alloc n c (lenenc count :: ps) rest)
    (pos : 0 < count) (hcount : count < 2 ^ 64) :
    ∃ c', Returns .again (queryRecv alloc) c (.ok (some (UInt64.ofNat count))) c' ∧
      Facing alloc n c' ps rest ∧ c'.column_count = UInt64.ofNat count ∧
      c'.started_reading_rows = false ∧ c'.capabilities = c.capabilities ∧
      c'.standing = c.standing := by
  obtain ⟨c₁, hbytes, hfacing, huntouched, hreturns⟩ := h.receive
  refine ⟨{ c₁ with column_count := UInt64.ofNat count, started_reading_rows := false },
    hreturns _ _ ?_ (by simp), hfacing.sameWire ⟨rfl, rfl, rfl, rfl, rfl⟩, rfl, rfl,
    huntouched.capabilities, ?_⟩
  · obtain ⟨b, bs, hb, hff, -, -, hzero⟩ := lenenc_head count
    have htype := currentPacketType_of_bytes (hbytes.trans hb)
    have hparse : parsePacket parseResultPacket c₁ = (.ok ⟨UInt64.ofNat count⟩, c₁) := by
      rw [parsePacket, hbytes, parse_resultPacket hcount]
    have hok : b ≠ Packet.ok := fun hb => pos.ne' (hzero hb)
    have herr : b ≠ Packet.err := hff
    rw [Proc.get_bind, htype, if_neg hok, if_neg herr, Proc.bind_of_ok hparse]
    rfl
  · rw [standing, standing, ← huntouched.server_status, ← huntouched.warning_count]

theorem readColumn_column {column : Column} (h : Facing alloc n c (columnBytes column :: ps) rest)
    (sendable : column.Sendable) :
    ∃ c', Returns .again (readColumn alloc) c (.ok column) c' ∧ Facing alloc n c' ps rest ∧
      Untouched c c' := by
  obtain ⟨c₁, hbytes, hfacing, huntouched, hreturns⟩ := h.receive
  refine ⟨c₁, hreturns _ _ ?_ (by simp), hfacing, huntouched⟩
  rw [parsePacket, hbytes, parse_columnPacket sendable]

theorem readColumns {columns : List Column}
    (h : Facing alloc n c (columns.map columnBytes ++ ps) rest)
    (sendable : ∀ column ∈ columns, column.Sendable) :
    ∃ c', Yields .again (readColumn alloc) c columns c' ∧ Facing alloc n c' ps rest ∧
      Untouched c c' := by
  induction columns generalizing c with
  | nil => exact ⟨c, .nil c, h, .refl c⟩
  | cons column columns ih =>
    obtain ⟨hcolumn, hcolumns⟩ := List.forall_mem_cons.mp sendable
    obtain ⟨c₁, hread, hfacing, huntouched⟩ := readColumn_column h hcolumn
    obtain ⟨c', hyields, hfacing', huntouched'⟩ := ih hfacing hcolumns
    exact ⟨c', .cons hread hyields, hfacing', huntouched.trans huntouched'⟩

/-- Nothing stands between here and the rows. -/
def AtRows (c : Conn) : Prop :=
  c.started_reading_rows ∨ has c.capabilities Capabilities.deprecateEof

instance (c : Conn) : Decidable c.AtRows := inferInstanceAs (Decidable (_ ∨ _))

/-- What `readRow` has to read in front of the next row. -/
def beforeRow (c : Conn) (columnEof : EofPacket) : List (List UInt8) :=
  if c.AtRows then []
  else [eofBytes c.capabilities columnEof.warning_count columnEof.status_flags]

/-- The status by the time the next row is reached. -/
def rowStanding (c : Conn) (columnEof : EofPacket) : UInt16 × UInt16 :=
  if c.AtRows then c.standing else c.noting columnEof.status_flags columnEof.warning_count

/-- What the calls that read a row make of a packet; `row` is given the column
count. -/
def rowReply {α : Type} (row : UInt64 → Proc Code Reader α) : Proc Code Conn α := do
  let conn ← get
  if conn.currentPacketType = Packet.eof ∧ conn.packet_buffer.len < 9 then do
    readEofPacket
    throw .eof
  else if conn.currentPacketType = Packet.err then readErrPacket
  else parsePacket (row conn.column_count)

/-- The connection at a row, with the status it has then. -/
structure Reaches (c : Conn) (columnEof : EofPacket) (c' : Conn) : Prop where
  capabilities : c'.capabilities = c.capabilities
  column_count : c'.column_count = c.column_count
  started : c'.started_reading_rows = true
  standing : c'.standing = c.rowStanding columnEof

theorem Untouched.standing {c c' : Conn} (h : Untouched c c') : c'.standing = c.standing := by
  rw [Conn.standing, Conn.standing, h.server_status, h.warning_count]

theorem readEof_eof {status warnings : UInt16}
    (h : Facing alloc n c (eofBytes c.capabilities warnings status :: ps) rest)
    (noDe : ¬ has c.capabilities Capabilities.deprecateEof) :
    ∃ c', Returns .again (readEof alloc) c (.ok ()) c' ∧ Facing alloc n c' ps rest ∧
      c'.capabilities = c.capabilities ∧ c'.column_count = c.column_count ∧
      c'.standing = c.noting status warnings := by
  obtain ⟨c₁, hbytes, hfacing, huntouched, hreturns⟩ := h.receive
  have hparse := parse_eofPacket c₁.capabilities warnings status
  rw [huntouched.capabilities, ← hbytes, ← huntouched.capabilities] at hparse
  obtain ⟨c', hread, hnoted, hstanding⟩ := readDeprecatedEofPacket_ok hparse
  refine ⟨c', hreturns _ _ ?_ (by simp), hfacing.sameWire hnoted.toSameWire,
    hnoted.capabilities.trans huntouched.capabilities,
    hnoted.column_count.trans huntouched.column_count, hstanding.trans ?_⟩
  · rw [readEofPacket, Proc.get_bind, if_neg (by rw [huntouched.capabilities]; exact noDe), hread]
  · unfold noting
    rw [huntouched.capabilities, huntouched.standing]
    split <;> rfl

/-- What decides whether the EOF packet behind the definitions is read. -/
def SameMode (c c' : Conn) : Prop :=
  c'.capabilities = c.capabilities ∧ c'.started_reading_rows = c.started_reading_rows

instance : Std.Refl SameMode := ⟨fun _ => ⟨rfl, rfl⟩⟩

instance : IsTrans Conn SameMode := ⟨fun _ _ _ h h' => ⟨h'.1.trans h.1, h'.2.trans h.2⟩⟩

theorem sameMode_readPacket (alloc : Alloc) : Keeps SameMode (readPacket alloc) := fun c =>
  ⟨(untouched_readPacket alloc c).capabilities, (untouched_readPacket alloc c).started_reading_rows⟩

theorem sameMode_noted {α : Type} {m : Proc Code Conn α} (h : Keeps Noted m) : Keeps SameMode m :=
  fun c => ⟨(h c).capabilities, (h c).started_reading_rows⟩

theorem sameMode_readEof (alloc : Alloc) : Keeps SameMode (readEof alloc) :=
  .bind (sameMode_readPacket alloc) fun _ => sameMode_noted noted_readEofPacket

theorem beginRows_skip {c : Conn} (h : c.started_reading_rows = true) :
    beginRows alloc c = (.ok (), c) := by
  rw [beginRows, Proc.get_bind, h]
  rfl

theorem beginRows_readEof {c : Conn} (h : ¬ c.AtRows) :
    beginRows alloc c = (do
      readEof alloc
      modify fun conn => { conn with started_reading_rows := true } : Proc Code Conn Unit) c := by
  obtain ⟨hstarted, hde⟩ := not_or.mp h
  rw [beginRows, Proc.get_bind, if_pos (by simpa using hstarted), Proc.when_pos (by simpa using hde)]

theorem beginRows_deprecated {c : Conn} (h : has c.capabilities Capabilities.deprecateEof)
    (hstarted : ¬ c.started_reading_rows) :
    beginRows alloc c = (.ok (), { c with started_reading_rows := true }) := by
  rw [beginRows, Proc.get_bind, if_pos (by simpa using hstarted), Proc.when_neg (by simpa using h),
    pure_bind]
  rfl

theorem beginRows_returns {columnEof : EofPacket}
    (h : Facing alloc n c (c.beforeRow columnEof ++ ps) rest) :
    ∃ c', Returns .again (beginRows alloc) c (.ok ()) c' ∧ Facing alloc n c' ps rest ∧
      Reaches c columnEof c' := by
  unfold beforeRow at h
  by_cases hat : c.AtRows
  · rw [if_pos hat] at h
    by_cases hstarted : c.started_reading_rows
    · exact ⟨c, .stop (beginRows_skip hstarted) (by simp), h,
        ⟨rfl, rfl, hstarted, by rw [rowStanding, if_pos hat]⟩⟩
    · exact ⟨{ c with started_reading_rows := true },
        .stop (beginRows_deprecated (hat.resolve_left hstarted) hstarted) (by simp),
        h.sameWire ⟨rfl, rfl, rfl, rfl, rfl⟩, ⟨rfl, rfl, rfl, by rw [rowStanding, if_pos hat]; rfl⟩⟩
  · rw [if_neg hat] at h
    obtain ⟨c₁, hread, hfacing, hcapabilities, hcount, hstanding⟩ :=
      readEof_eof h fun de => hat (.inr de)
    refine ⟨{ c₁ with started_reading_rows := true }, ?_,
      hfacing.sameWire ⟨rfl, rfl, rfl, rfl, rfl⟩,
      ⟨hcapabilities, hcount, rfl, by rw [rowStanding, if_neg hat, ← hstanding]; rfl⟩⟩
    refine (hread.bind_ok rfl (by simp)).congr hat (fun _ => beginRows_readEof) fun s u hs he => ?_
    have hmode := sameMode_readEof alloc s
    rcases Proc.bind_error.mp he with he | ⟨_, _, _, he⟩
    · rw [he] at hmode
      rwa [AtRows, hmode.1, hmode.2]
    · cases he

theorem noted_rowReply {α : Type} (row : UInt64 → Proc Code Reader α) :
    Keeps Noted (rowReply row) :=
  .bind .get fun _ => .ite (fun _ => .bind noted_readEofPacket fun _ => .throw _) fun _ =>
    .ite (fun _ => noted_readErrPacket) fun _ => noted_parsePacket _

/-- A call of `readRow` gets to the next packet behind the column EOF, and ends
as `rowReply` does. -/
theorem readRow_returns {columnEof : EofPacket}
    (h : Facing alloc n c (c.beforeRow columnEof ++ p :: ps) rest) :
    ∃ c₁, c₁.packet_buffer.bytes = p ∧ Facing alloc n c₁ ps rest ∧ Reaches c columnEof c₁ ∧
      ∀ r c', rowReply parseRowPacket c₁ = (r, c') → r ≠ .error .again →
        Returns .again (readRow alloc) c r c' := by
  obtain ⟨c₀, hbegin, hfacing, hreach⟩ := beginRows_returns h
  obtain ⟨c₁, hbytes, hfacing₁, huntouched, hreturns⟩ := hfacing.receive
  refine ⟨c₁, hbytes, hfacing₁, ⟨huntouched.capabilities.trans hreach.capabilities,
    huntouched.column_count.trans hreach.column_count,
    huntouched.started_reading_rows.trans hreach.started,
    huntouched.standing.trans hreach.standing⟩, fun r c' hf hr => ?_⟩
  refine hbegin.bind_skip (hreturns r c' hf hr) hreach.started (fun u hu => beginRows_skip hu)
    fun u v hu he => ?_
  have hmode : SameMode u v := by
    have hkeeps : Keeps SameMode (readPacket alloc >>= fun _ => rowReply parseRowPacket) :=
      .bind (sameMode_readPacket alloc) fun _ => sameMode_noted (noted_rowReply _)
    have := hkeeps u
    rwa [show (readPacket alloc >>= fun _ => rowReply parseRowPacket) u = _ from he] at this
  exact hmode.2.trans hu

section

variable {α : Type} {row : UInt64 → Proc Code Reader α}

theorem rowReply_parses {b : UInt8} {bs : List UInt8} (hbytes : c.packet_buffer.bytes = b :: bs)
    (hfe : b = Packet.eof → ¬ c.packet_buffer.len < 9) (hff : b ≠ Packet.err) :
    rowReply row c = parsePacket (row c.column_count) c := by
  rw [rowReply, Proc.get_bind, currentPacketType_of_bytes hbytes, if_neg fun h => hfe h.1 h.2,
    if_neg hff]

theorem rowReply_terminator {o : OkReply} (h : Terminates c.capabilities o)
    (hbytes : c.packet_buffer.bytes = terminatorBytes c.capabilities o) :
    ∃ c', (∀ {α : Type} (row : UInt64 → Proc Code Reader α),
        rowReply row c = (.error .eof, c')) ∧
      Noted c c' ∧ c'.standing = c.noting o.status o.warnings := by
  obtain ⟨c', hread, hnoted, hstanding⟩ := readEofPacket_terminator h hbytes
  obtain ⟨bs, hhead⟩ := terminatorBytes_head c.capabilities o
  have htype := currentPacketType_of_bytes (hbytes.trans hhead)
  have hshort : c.packet_buffer.len < 9 := by
    rw [Buffer.len, hbytes]
    exact h.length
  refine ⟨c', fun row => ?_, hnoted, hstanding⟩
  rw [rowReply, Proc.get_bind, if_pos ⟨htype, hshort⟩, Proc.bind_of_ok hread]
  rfl

theorem rowReply_err {e : ErrReply} (hbytes : c.packet_buffer.bytes = e.bytes c.capabilities) :
    ∃ c', rowReply row c = (.error .err, c') ∧ Noted c c' ∧ c'.standing = c.standing := by
  have hparse := e.parse_bytes c.capabilities
  rw [← hbytes] at hparse
  obtain ⟨c', hread, hnoted, hstanding⟩ := @readErrPacket_err _ α _ hparse
  have htype : c.currentPacketType = Packet.err := currentPacketType_of_bytes (hbytes.trans rfl)
  refine ⟨c', ?_, hnoted, hstanding⟩
  rw [rowReply, Proc.get_bind, htype, if_neg (fun h => absurd h.1 (by decide)), if_pos rfl, hread]

end

theorem rowReply_row {values : List Value} (hbytes : c.packet_buffer.bytes = textRow values)
    (nonempty : values ≠ []) (sized : Sized values)
    (hcount : c.column_count.toNat = values.length) :
    rowReply parseRowPacket c = (.ok values, c) := by
  obtain ⟨b, bs, hrow, hff, hfe⟩ := textRow_head nonempty
  have hlong : b = Packet.eof → ¬ c.packet_buffer.len < 9 := by
    intro hb hshort
    have := hfe hb
    rw [Buffer.len, hbytes, hrow] at hshort
    omega
  rw [rowReply_parses (hbytes.trans hrow) hlong hff, parsePacket, hbytes, parse_textRow sized hcount]

/-- The rows that can be sent for so many columns. -/
def RowsOf (count : Nat) (rows : List (List Value)) : Prop :=
  ∀ row ∈ rows, row.length = count ∧ Sized row

theorem Reaches.atRows {columnEof : EofPacket} {c' : Conn} (h : Reaches c columnEof c') :
    c'.AtRows := .inl h.started

theorem Reaches.trans {columnEof : EofPacket} {c₁ c₂ : Conn} (h : Reaches c columnEof c₁)
    (h' : Reaches c₁ columnEof c₂) : Reaches c columnEof c₂ :=
  ⟨h'.capabilities.trans h.capabilities, h'.column_count.trans h.column_count, h'.started, by
    rw [h'.standing, rowStanding, if_pos h.atRows, h.standing]⟩

theorem Reaches.beforeRow {columnEof : EofPacket} {c' : Conn} (h : Reaches c columnEof c') :
    c'.beforeRow columnEof = [] := if_pos h.atRows

theorem readRow_row {columnEof : EofPacket} {values : List Value} {count : Nat}
    (h : Facing alloc n c (c.beforeRow columnEof ++ textRow values :: ps) rest)
    (hrow : values.length = count ∧ Sized values) (pos : 0 < count)
    (hcount : c.column_count.toNat = count) :
    ∃ c', Returns .again (readRow alloc) c (.ok values) c' ∧ Facing alloc n c' ps rest ∧
      Reaches c columnEof c' := by
  obtain ⟨c₁, hbytes, hfacing, hreach, hreturns⟩ := readRow_returns h
  have hne : values ≠ [] := List.ne_nil_of_length_pos (by omega)
  have hreply := rowReply_row hbytes hne hrow.2 (by rw [hreach.column_count, hcount, hrow.1])
  exact ⟨c₁, hreturns _ _ hreply (by simp), hfacing, hreach⟩

/-- Where the rows end: `c` itself, or the connection behind the last of them. -/
theorem readRows {columnEof : EofPacket} {rows : List (List Value)} {count : Nat}
    (h : Facing alloc n c (c.beforeRow columnEof ++ (rows.map textRow ++ ps)) rest)
    (hrows : RowsOf count rows) (pos : 0 < count) (hcount : c.column_count.toNat = count) :
    ∃ c', Yields .again (readRow alloc) c rows c' ∧
      Facing alloc n c' (c'.beforeRow columnEof ++ ps) rest ∧ (c' = c ∨ Reaches c columnEof c') := by
  induction rows generalizing c with
  | nil => exact ⟨c, .nil c, h, .inl rfl⟩
  | cons row rows ih =>
    obtain ⟨hrow, hrows⟩ := List.forall_mem_cons.mp hrows
    obtain ⟨c₁, hread, hfacing, hreach⟩ := readRow_row h hrow pos hcount
    obtain ⟨c', hyields, hfacing', hend⟩ := ih (by rw [hreach.beforeRow]; exact hfacing) hrows
      (by rw [hreach.column_count, hcount])
    refine ⟨c', .cons hread hyields, hfacing', .inr ?_⟩
    rcases hend with rfl | hend
    · exact hreach
    · exact hreach.trans hend

theorem Reaches.noting {columnEof : EofPacket} {c' : Conn} (h : Reaches c columnEof c')
    (p41 : has c.capabilities Capabilities.protocol41) (status warnings : UInt16) :
    c'.noting status warnings = (status, warnings) := by
  rw [Conn.noting, h.capabilities, if_pos p41]

theorem readRow_terminator {columnEof : EofPacket} {o : OkReply}
    (h : Facing alloc n c
      (c.beforeRow columnEof ++ terminatorBytes c.capabilities o :: ps) rest)
    (ends : Terminates c.capabilities o) :
    ∃ c₁ c', Returns .again (readRow alloc) c (.error .eof) c' ∧ Facing alloc n c' ps rest ∧
      Reaches c columnEof c₁ ∧ Noted c₁ c' ∧ c'.standing = c₁.noting o.status o.warnings := by
  obtain ⟨c₁, hbytes, hfacing, hreach, hreturns⟩ := readRow_returns h
  rw [← hreach.capabilities] at hbytes ends
  obtain ⟨c', hreply, hnoted, hstanding⟩ := rowReply_terminator ends hbytes
  exact ⟨c₁, c', hreturns _ _ (hreply _) (by simp), hfacing.sameWire hnoted.toSameWire, hreach,
    hnoted, hstanding⟩

theorem readRow_err {columnEof : EofPacket} {e : ErrReply}
    (h : Facing alloc n c (c.beforeRow columnEof ++ e.bytes c.capabilities :: ps) rest) :
    ∃ c₁ c', Returns .again (readRow alloc) c (.error .err) c' ∧ Facing alloc n c' ps rest ∧
      Reaches c columnEof c₁ ∧ Noted c₁ c' ∧ c'.standing = c₁.standing := by
  obtain ⟨c₁, hbytes, hfacing, hreach, hreturns⟩ := readRow_returns h
  rw [← hreach.capabilities] at hbytes
  obtain ⟨c', hreply, hnoted, hstanding⟩ := rowReply_err hbytes
  exact ⟨c₁, c', hreturns _ _ hreply (by simp), hfacing.sameWire hnoted.toSameWire, hreach, hnoted,
    hstanding⟩

/-- A result set in the format of these capabilities, for any kind of rows. -/
def resultSet (capabilities : UInt32) (columns : List Column) (columnEof : EofPacket)
    (rows : List (List UInt8)) (terminator : OkReply) : List (List UInt8) :=
  lenenc columns.length :: (columns.map columnBytes ++
    ((if has capabilities Capabilities.deprecateEof then []
      else [eofBytes capabilities columnEof.warning_count columnEof.status_flags]) ++
    (rows ++ [terminatorBytes capabilities terminator])))

/-- The part in front of the rows, with anything behind it. -/
theorem readDefinitions {columns : List Column} {columnEof : EofPacket}
    (h : Facing alloc n c (lenenc columns.length :: (columns.map columnBytes ++
      ((if has c.capabilities Capabilities.deprecateEof then []
        else [eofBytes c.capabilities columnEof.warning_count columnEof.status_flags]) ++ ps)))
      rest)
    (nonempty : columns ≠ []) (hcount : columns.length < 2 ^ 64)
    (sendable : ∀ column ∈ columns, column.Sendable) :
    ∃ c₁ c₂, Returns .again (queryRecv alloc) c (.ok (some (UInt64.ofNat columns.length))) c₁ ∧
      Yields .again (readColumn alloc) c₁ columns c₂ ∧
      Facing alloc n c₂ (c₂.beforeRow columnEof ++ ps) rest ∧
      c₂.column_count.toNat = columns.length ∧ c₂.capabilities = c.capabilities ∧
      c₂.started_reading_rows = false ∧ c₂.standing = c.standing := by
  obtain ⟨c₁, hquery, hfacing₁, hcolumns, hstarted, hcapabilities, hstanding⟩ :=
    queryRecv_count h (List.length_pos_of_ne_nil nonempty) hcount
  obtain ⟨c₂, hyields, hfacing₂, huntouched⟩ := readColumns hfacing₁ sendable
  have hstarted₂ : c₂.started_reading_rows = false :=
    huntouched.started_reading_rows.trans hstarted
  have hcapabilities₂ := huntouched.capabilities.trans hcapabilities
  refine ⟨c₁, c₂, hquery, hyields, ?_, ?_, hcapabilities₂, hstarted₂,
    huntouched.standing.trans hstanding⟩
  · have hat : c₂.AtRows ↔ has c.capabilities Capabilities.deprecateEof := by
      rw [AtRows, hstarted₂, hcapabilities₂]
      simp
    unfold beforeRow
    rw [hcapabilities₂]
    simpa only [hat] using hfacing₂
  · rw [huntouched.column_count, hcolumns, UInt64.toNat_ofNat_of_lt' hcount]

/-- A text result set is read back, in both modes and however the bytes arrive. -/
theorem resultSet_read {columns : List Column} {columnEof : EofPacket} {rows : List (List Value)}
    {terminator : OkReply}
    (h : Facing alloc n c (resultSet c.capabilities columns columnEof (rows.map textRow) terminator) rest)
    (p41 : has c.capabilities Capabilities.protocol41) (nonempty : columns ≠ [])
    (hcount : columns.length < 2 ^ 64) (sendable : ∀ column ∈ columns, column.Sendable)
    (hrows : RowsOf columns.length rows) (ends : Terminates c.capabilities terminator) :
    ∃ c₁ c₂ c₃ c', Returns .again (queryRecv alloc) c
        (.ok (some (UInt64.ofNat columns.length))) c₁ ∧
      Yields .again (readColumn alloc) c₁ columns c₂ ∧ Yields .again (readRow alloc) c₂ rows c₃ ∧
      Returns .again (readRow alloc) c₃ (.error .eof) c' ∧
      c'.server_status = terminator.status ∧ Facing alloc n c' [] rest := by
  obtain ⟨c₁, c₂, hquery, hcolumns, hfacing₂, hcount₂, hcapabilities₂, -, -⟩ :=
    readDefinitions h nonempty hcount sendable
  obtain ⟨c₃, hyields, hfacing₃, hend⟩ :=
    readRows hfacing₂ hrows (List.length_pos_of_ne_nil nonempty) hcount₂
  have hcapabilities₃ : c₃.capabilities = c.capabilities := by
    rcases hend with rfl | hend
    · exact hcapabilities₂
    · exact hend.capabilities.trans hcapabilities₂
  rw [← hcapabilities₃] at hfacing₃ ends p41
  obtain ⟨c₄, c', hread, hfacing, hreach, -, hstanding⟩ := readRow_terminator hfacing₃ ends
  rw [hreach.noting p41] at hstanding
  exact ⟨c₁, c₂, c₃, c', hquery, hcolumns, hyields, hread, congrArg Prod.fst hstanding, hfacing⟩

/-- A connection to which these packets have been sent. -/
def answeringConn (capabilities : UInt32) (packets : List (List UInt8)) : Conn :=
  { Conn.init (readingSock [.data (stream 0 packets)]) with capabilities }

theorem facing_answering (capabilities : UInt32) {packets : List (List UInt8)} {n : Nat}
    (nonempty : packets ≠ []) (hn : n ≤ 2 ^ 63) (fits : ∀ p ∈ packets, p.length ≤ n) :
    Facing (fun _ => true) n (answeringConn capabilities packets) packets [] := by
  refine ⟨⟨?_, Nat.zero_le _, ⟨by simp [answeringConn, Conn.init, PacketParser.init], rfl⟩,
    Buffer.grows_of_alloc (fun _ => rfl) _ hn⟩, rfl, rfl, ?_, fits⟩
  · intro read hread
    rw [List.mem_singleton.mp hread]
    exact stream_ne_nil 0 nonempty
  · change [] ++ ([RawRead.data (stream 0 packets)].flatMap RawRead.bytes) = _
    simp [RawRead.bytes]
    rfl

/-- A column of type LONG. -/
def exampleColumn : Column where
  catalog := []
  schema := []
  table := []
  original_table := []
  name := [0x61]
  original_name := []
  charset := 63
  len := 11
  type := TypeT.long.code
  flags := 0
  decimals := 0
  default_value := []

theorem exampleColumn_sendable : exampleColumn.Sendable :=
  ⟨by decide, by decide, by decide, by decide, by decide, by decide, rfl⟩

/-- An OK packet with nothing but a status. -/
def plainReply (status : UInt16) : OkReply := ⟨0, 0, status, 0, none, []⟩

theorem plainReply_terminates (status : UInt16) (h : status &&& sessionStateChanged = 0)
    (capabilities : UInt32) : Terminates capabilities (plainReply status) := by
  refine fun _ => ⟨⟨fun hchanged => absurd h hchanged.2, by simp [plainReply]⟩, ?_⟩
  have hinfo : (plainReply status).infoBytes capabilities = [] := by
    simp [OkReply.infoBytes, plainReply]
  have hstatus : ((plainReply status).statusBytes capabilities).length ≤ 4 := by
    unfold OkReply.statusBytes
    split
    · simp
    · split <;> simp
  have hrows : (lenenc (plainReply status).affected_rows.toNat).length = 1 := rfl
  have hid : (lenenc (plainReply status).last_insert_id.toNat).length = 1 := rfl
  rw [OkReply.bytes, hinfo]
  simp only [List.length_cons, List.length_append, List.length_nil]
  omega

theorem resultSet_read_two :
    let capabilities := Capabilities.protocol41
    let rows : List (List Value) := [[some [0x31]], [none]]
    let c := answeringConn capabilities
      (resultSet capabilities [exampleColumn] ⟨0, 2⟩ (rows.map textRow) (plainReply 2))
    ∃ c₁ c₂ c₃ c', Returns .again (queryRecv fun _ => true) c (.ok (some 1)) c₁ ∧
      Yields .again (readColumn fun _ => true) c₁ [exampleColumn] c₂ ∧
      Yields .again (readRow fun _ => true) c₂ rows c₃ ∧
      Returns .again (readRow fun _ => true) c₃ (.error .eof) c' ∧
      c'.server_status = 2 ∧ Facing (fun _ => true) 100 c' [] [] := by
  intro capabilities rows c
  have h : Facing (fun _ => true) 100 c
      (resultSet c.capabilities [exampleColumn] ⟨0, 2⟩ (rows.map textRow) (plainReply 2)) [] :=
    facing_answering capabilities (by simp [resultSet]) (by decide) (by decide +kernel)
  exact resultSet_read h (by decide) (by simp) (by decide) (by simpa using exampleColumn_sendable)
    (by simp [rows, RowsOf, Sized]) (plainReply_terminates 2 (by decide) _)

end Conn

end Trilogy
