import Trilogy.BinaryRow
import Trilogy.Rows

/-! The binary protocol sends a result set in the same order as the text protocol.
`stmtReadRow` has no part that reads the EOF packet behind the definitions, so
it takes it for the end of the rows. -/
namespace Trilogy

open Lib Proc

/-- A row packet: its header, the null bitmap and the values. -/
structure BinaryRow (columns : List Column) where
  cells : List Cell
  bitmap : List UInt8
  values : List UInt8
  row : RowBytes columns cells values
  bitmap_length : bitmap.length = (columns.length + 9) / 8
  bits : ∀ j < cells.length, (bitmap.getD ((j + 2) / 8) 0).toNat.testBit ((j + 2) % 8) =
    (cells.getD j none).isNone

def BinaryRow.bytes {columns : List Column} (row : BinaryRow columns) : List UInt8 :=
  0x00 :: row.bitmap ++ row.values

namespace Conn

variable {alloc : Alloc} {n : Nat} {c : Conn} {ps : List (List UInt8)} {rest : List UInt8}
  {stmt : StmtOkPacket} {columns : List Column}

theorem stmtExecuteRecv_count {count : Nat} (h : Facing alloc n c (lenenc count :: ps) rest)
    (pos : 0 < count) (hcount : count < 2 ^ 64) :
    ∃ c', Returns .again (stmtExecuteRecv alloc) c (.ok (some (UInt64.ofNat count))) c' ∧
      Facing alloc n c' ps rest ∧ c'.capabilities = c.capabilities := by
  obtain ⟨c₁, hbytes, hfacing, huntouched, hreturns⟩ := h.receive
  refine ⟨{ c₁ with column_count := UInt64.ofNat count },
    hreturns _ _ ?_ (by simp), hfacing.sameWire ⟨rfl, rfl, rfl, rfl, rfl⟩,
    huntouched.capabilities⟩
  obtain ⟨b, bs, hb, hff, -, -, hzero⟩ := lenenc_head count
  have htype := currentPacketType_of_bytes (hbytes.trans hb)
  have hparse : parsePacket parseResultPacket c₁ = (.ok ⟨UInt64.ofNat count⟩, c₁) := by
    rw [parsePacket, hbytes, parse_resultPacket hcount]
  have hok : b ≠ Packet.ok := fun hb => pos.ne' (hzero hb)
  have herr : b ≠ Packet.err := hff
  rw [Proc.get_bind, htype, if_neg hok, if_neg herr, Proc.bind_of_ok hparse]
  rfl

/-- Rows read one by one, each into whatever array of the right length. -/
inductive ReadsRows (alloc : Alloc) (stmt : StmtOkPacket) (columns : List Column) :
    Conn → List (List Cell) → Conn → Prop
  | nil (c : Conn) : ReadsRows alloc stmt columns c [] c
  | cons {c c₁ c' : Conn} {cells : List Cell} {rows : List (List Cell)}
      (first : ∀ outs, outs.length = columns.length →
        Returns .again (stmtReadRow alloc stmt columns outs) c
          (.ok (receivedRow columns outs cells)) c₁)
      (more : ReadsRows alloc stmt columns c₁ rows c') :
      ReadsRows alloc stmt columns c (cells :: rows) c'

/-- The whole result set is read, and nothing of it is left. -/
def ReadBack (alloc : Alloc) (stmt : StmtOkPacket) (columns : List Column)
    (rows : List (List Cell)) (rest : List UInt8) (c : Conn) : Prop :=
  ∃ c₁ c₂ c₃ c', Returns .again (stmtExecuteRecv alloc) c
      (.ok (some (UInt64.ofNat columns.length))) c₁ ∧
    Yields .again (readColumn alloc) c₁ columns c₂ ∧ ReadsRows alloc stmt columns c₂ rows c₃ ∧
    (∀ outs, outs.length = columns.length →
      Returns .again (stmtReadRow alloc stmt columns outs) c₃ (.error .eof) c') ∧
    c'.packetParser.state = .len0 ∧ c'.pending = rest

theorem stmtReadRow_returns {p : List UInt8} (h : Facing alloc n c (p :: ps) rest) :
    ∃ c₁, c₁.packet_buffer.bytes = p ∧ Facing alloc n c₁ ps rest ∧ Untouched c c₁ ∧
      ∀ outs r c', rowReply (fun _ => parseStmtRowPacket columns stmt.column_count.toUInt64 outs)
        c₁ = (r, c') → r ≠ .error .again →
        Returns .again (stmtReadRow alloc stmt columns outs) c r c' := by
  obtain ⟨c₁, hread, hbytes, hfacing, huntouched⟩ := h.read
  exact ⟨c₁, hbytes, hfacing, huntouched, fun outs r c' hf hr => hread.bind_ok hf hr⟩

theorem stmtReadRow_row {row : BinaryRow columns} (h : Facing alloc n c (row.bytes :: ps) rest)
    (hcount : stmt.column_count.toNat = columns.length) :
    ∃ c', (∀ outs, outs.length = columns.length →
        Returns .again (stmtReadRow alloc stmt columns outs) c
          (.ok (receivedRow columns outs row.cells)) c') ∧
      Facing alloc n c' ps rest ∧ Untouched c c' := by
  obtain ⟨c₁, hbytes, hfacing, huntouched, hreturns⟩ := stmtReadRow_returns h
  have hlt := stmt.column_count.toNat_lt
  have hcolumns : stmt.column_count.toUInt64.toNat = columns.length := by
    rw [UInt16.toNat_toUInt64, hcount]
  refine ⟨c₁, fun outs houts => hreturns outs _ _ ?_ (by simp), hfacing, huntouched⟩
  rw [rowReply_parses (hbytes.trans rfl) (fun h => absurd h (by decide)) (by decide), parsePacket, hbytes,
    BinaryRow.bytes, parse_stmtRow row.row hcolumns (by omega) row.bitmap_length row.bits houts]

theorem stmtReadRow_terminator {o : OkReply}
    (h : Facing alloc n c (terminatorBytes c.capabilities o :: ps) rest)
    (ends : Terminates c.capabilities o) :
    ∃ c', (∀ outs, Returns .again (stmtReadRow alloc stmt columns outs) c (.error .eof) c') ∧
      Facing alloc n c' ps rest := by
  obtain ⟨c₁, hbytes, hfacing, huntouched, hreturns⟩ := stmtReadRow_returns h
  rw [← huntouched.capabilities] at hbytes ends
  obtain ⟨c', hreply, hnoted, -⟩ := rowReply_terminator ends hbytes
  exact ⟨c', fun outs => hreturns outs _ _ (hreply _) (by simp),
    hfacing.sameWire hnoted.toSameWire⟩

theorem readsRows {rows : List (BinaryRow columns)}
    (h : Facing alloc n c (rows.map BinaryRow.bytes ++ ps) rest)
    (hcount : stmt.column_count.toNat = columns.length) :
    ∃ c', ReadsRows alloc stmt columns c (rows.map BinaryRow.cells) c' ∧
      Facing alloc n c' ps rest ∧ Untouched c c' := by
  induction rows generalizing c with
  | nil => exact ⟨c, .nil c, h, .refl c⟩
  | cons row rows ih =>
    obtain ⟨c₁, hread, hfacing, huntouched⟩ := stmtReadRow_row h hcount
    obtain ⟨c', hreads, hfacing', huntouched'⟩ := ih hfacing
    exact ⟨c', .cons hread hreads, hfacing', huntouched.trans huntouched'⟩

/-- An EOF packet ends the rows for `stmtReadRow`, wherever it stands. -/
theorem stmtReadRow_eof {status warnings : UInt16}
    (h : Facing alloc n c (eofBytes c.capabilities warnings status :: ps) rest)
    (noDe : ¬ has c.capabilities Capabilities.deprecateEof) :
    ∃ c', (∀ outs, Returns .again (stmtReadRow alloc stmt columns outs) c (.error .eof) c') ∧
      Facing alloc n c' ps rest := by
  let o : OkReply := ⟨0, 0, status, warnings, none, []⟩
  have hbytes : terminatorBytes c.capabilities o = eofBytes c.capabilities warnings status :=
    if_neg noDe
  rw [← hbytes] at h
  exact stmtReadRow_terminator h fun de => absurd de noDe

/-- With an EOF packet in front of them, not even the empty list of rows is
read to the end. -/
theorem not_readsRows {rows : List (List Cell)} {c₃ c' cEof : Conn}
    (ends : ∀ outs, Returns .again (stmtReadRow alloc stmt columns outs) c (.error .eof) cEof)
    (left : cEof.pending ≠ rest) (reads : ReadsRows alloc stmt columns c rows c₃)
    (last : ∀ outs, outs.length = columns.length →
      Returns .again (stmtReadRow alloc stmt columns outs) c₃ (.error .eof) c') :
    c'.pending ≠ rest := by
  have houts : ∃ outs : List BinaryValue, outs.length = columns.length :=
    ⟨List.replicate columns.length default, List.length_replicate⟩
  obtain ⟨outs, houts⟩ := houts
  cases reads with
  | nil =>
    obtain ⟨-, rfl⟩ := (ends outs).unique (last outs houts)
    exact left
  | cons first more =>
    have := ((ends outs).unique (first outs houts)).1
    cases this

section

variable {columnEof : EofPacket} {rows : List (BinaryRow columns)} {terminator : OkReply}

/-- The part of the result set in front of the rows. -/
theorem readsDefinitions
    (h : Facing alloc n c
      (resultSet c.capabilities columns columnEof (rows.map BinaryRow.bytes) terminator) rest)
    (nonempty : columns ≠ []) (sendable : ∀ column ∈ columns, column.Sendable)
    (hcount : columns.length < 2 ^ 64) :
    ∃ c₁ c₂, Returns .again (stmtExecuteRecv alloc) c
        (.ok (some (UInt64.ofNat columns.length))) c₁ ∧
      Yields .again (readColumn alloc) c₁ columns c₂ ∧ c₂.capabilities = c.capabilities ∧
      Facing alloc n c₂ ((if has c.capabilities Capabilities.deprecateEof then []
        else [eofBytes c.capabilities columnEof.warning_count columnEof.status_flags]) ++
        (rows.map BinaryRow.bytes ++ [terminatorBytes c.capabilities terminator])) rest := by
  obtain ⟨c₁, hexecute, hfacing₁, hcapabilities⟩ :=
    stmtExecuteRecv_count h (List.length_pos_of_ne_nil nonempty) hcount
  obtain ⟨c₂, hcolumns, hfacing₂, huntouched⟩ := readColumns hfacing₁ sendable
  exact ⟨c₁, c₂, hexecute, hcolumns, huntouched.capabilities.trans hcapabilities, hfacing₂⟩

theorem readBack_deprecated
    (h : Facing alloc n c
      (resultSet c.capabilities columns columnEof (rows.map BinaryRow.bytes) terminator) rest)
    (nonempty : columns ≠ []) (sendable : ∀ column ∈ columns, column.Sendable)
    (hcount : stmt.column_count.toNat = columns.length)
    (ends : Terminates c.capabilities terminator)
    (de : has c.capabilities Capabilities.deprecateEof) :
    ReadBack alloc stmt columns (rows.map BinaryRow.cells) rest c := by
  have hlt := stmt.column_count.toNat_lt
  obtain ⟨c₁, c₂, hexecute, hcolumns, hcapabilities, hfacing₂⟩ :=
    readsDefinitions h nonempty sendable (by omega)
  rw [if_pos de, List.nil_append] at hfacing₂
  obtain ⟨c₃, hrows, hfacing₃, huntouched₃⟩ := readsRows hfacing₂ hcount
  rw [← hcapabilities, ← huntouched₃.capabilities] at hfacing₃ ends
  obtain ⟨c', hend, hfacing⟩ := stmtReadRow_terminator hfacing₃ ends
  exact ⟨c₁, c₂, c₃, c', hexecute, hcolumns, hrows, fun outs _ => hend outs, hfacing.boundary,
    hfacing.pending⟩

theorem not_readBack
    (h : Facing alloc n c
      (resultSet c.capabilities columns columnEof (rows.map BinaryRow.bytes) terminator) rest)
    (nonempty : columns ≠ []) (sendable : ∀ column ∈ columns, column.Sendable)
    (hcount : columns.length < 2 ^ 64)
    (noDe : ¬ has c.capabilities Capabilities.deprecateEof) (cells : List (List Cell)) :
    ¬ ReadBack alloc stmt columns cells rest c := by
  obtain ⟨c₁, c₂, hexecute, hcolumns, hcapabilities, hfacing₂⟩ :=
    readsDefinitions h nonempty sendable hcount
  rw [if_neg noDe, ← hcapabilities] at hfacing₂
  obtain ⟨cEof, hend, hfacing⟩ : ∃ cEof,
      (∀ outs, Returns .again (stmtReadRow alloc stmt columns outs) c₂ (.error .eof) cEof) ∧
        Facing alloc n cEof
          (rows.map BinaryRow.bytes ++ [terminatorBytes c₂.capabilities terminator]) rest :=
    stmtReadRow_eof hfacing₂ (hcapabilities ▸ noDe)
  have left : cEof.pending ≠ rest := by
    rw [hfacing.pending]
    intro he
    exact stream_ne_nil _ (by simp) (List.append_left_eq_self.mp he)
  rintro ⟨d₁, d₂, d₃, d', hexecute', hcolumns', hrows', hlast, -, hpending⟩
  obtain ⟨-, rfl⟩ := hexecute.unique hexecute'
  obtain rfl := hcolumns.unique hcolumns'
  exact not_readsRows hend left hrows' hlast hpending

/-- The rows are read back exactly when no EOF packet stands in front of them. -/
theorem readBack_iff
    (h : Facing alloc n c
      (resultSet c.capabilities columns columnEof (rows.map BinaryRow.bytes) terminator) rest)
    (nonempty : columns ≠ []) (sendable : ∀ column ∈ columns, column.Sendable)
    (hcount : stmt.column_count.toNat = columns.length)
    (ends : Terminates c.capabilities terminator) :
    ReadBack alloc stmt columns (rows.map BinaryRow.cells) rest c ↔
      has c.capabilities Capabilities.deprecateEof := by
  have hlt := stmt.column_count.toNat_lt
  constructor
  · intro hback
    by_contra noDe
    exact not_readBack h nonempty sendable (by omega) noDe _ hback
  · exact readBack_deprecated h nonempty sendable hcount ends

end

/-- A row of one LONG, 7. -/
def exampleRow : BinaryRow [exampleColumn] where
  cells := [some { (default : BinaryValue) with uint32 := 7 }]
  bitmap := [0]
  values := [7, 0, 0, 0]
  row := .value (b := [7, 0, 0, 0]) (show Kind.Encodes _ _ _ from rfl) .nil
  bitmap_length := rfl
  bits := by decide

/-- A connection to which that row is sent. -/
def exampleRowConn (capabilities : UInt32) : Conn :=
  answeringConn capabilities
    (resultSet capabilities [exampleColumn] ⟨0, 2⟩ ([exampleRow].map BinaryRow.bytes)
      (plainReply 2))

theorem readBack_iff_long :
    ReadBack (fun _ => true) ⟨1, 1, 0, 0⟩ [exampleColumn] [exampleRow.cells] []
        (exampleRowConn Capabilities.client) ↔
      has Capabilities.client Capabilities.deprecateEof := by
  have h : Facing (fun _ => true) 100 (exampleRowConn Capabilities.client)
      (resultSet Capabilities.client [exampleColumn] ⟨0, 2⟩ ([exampleRow].map BinaryRow.bytes)
        (plainReply 2)) [] :=
    facing_answering Capabilities.client (by simp [resultSet]) (by decide) (by decide +kernel)
  have hcount : (⟨1, 1, 0, 0⟩ : StmtOkPacket).column_count.toNat = [exampleColumn].length := rfl
  exact readBack_iff h (by simp) (by simpa using exampleColumn_sendable) hcount
    (plainReply_terminates 2 (by decide) _)

/-- Without `DEPRECATE_EOF` the row is dropped. -/
theorem readBack_iff_fails :
    ¬ ReadBack (fun _ => true) ⟨1, 1, 0, 0⟩ [exampleColumn] [exampleRow.cells] []
      (exampleRowConn Capabilities.protocol41) := by
  have h : Facing (fun _ => true) 100 (exampleRowConn Capabilities.protocol41)
      (resultSet Capabilities.protocol41 [exampleColumn] ⟨0, 2⟩ ([exampleRow].map BinaryRow.bytes)
        (plainReply 2)) [] :=
    facing_answering Capabilities.protocol41 (by simp [resultSet]) (by decide) (by decide +kernel)
  exact not_readBack h (by simp) (by simpa using exampleColumn_sendable) (by decide) (by decide) _

end Conn

end Trilogy
