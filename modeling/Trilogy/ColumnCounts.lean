import Trilogy.Accepted
import Trilogy.Gtid
import Trilogy.OwnBytes
import Trilogy.StmtRows

/-! There are three: the one of the prepare reply, in `trilogy_stmt_t`, the one of
the execute reply, in the connection, and the one the caller is told. The rows
are read with the first, so a server that announces another number when the
statement is executed does not change how they are decoded. -/
namespace Trilogy

open Lib Proc

theorem accepts_parseResultPacket : Cursor.Accepts parseResultPacket fun input packet left =>
    LenencForm packet.column_count.toNat input ∧ left = [] := by
  refine (Reader.accepts_getLenenc.bind fun _ => Reader.accepts_finish.bind fun _ =>
    .pure _).of_iff fun input packet left => ?_
  constructor
  · rintro ⟨count, _, ⟨w, h, rfl⟩, _, _, ⟨rfl, rfl⟩, rfl, rfl⟩
    rw [List.append_nil]
    exact ⟨h, rfl⟩
  · rintro ⟨h, rfl⟩
    exact ⟨packet.column_count, [], ⟨input, h, (List.append_nil _).symm⟩, (), [], ⟨rfl, rfl⟩, rfl,
      rfl⟩

theorem parse_resultPacket_iff {reply : List UInt8} {packet : ResultPacket} :
    parse parseResultPacket reply = .ok packet ↔ LenencForm packet.column_count.toNat reply := by
  refine accepts_parseResultPacket.run.trans ?_
  simp

/-- A reply announces one number at most. -/
theorem LenencForm.unique {n m : UInt64} {reply : List UInt8} (hn : LenencForm n.toNat reply)
    (hm : LenencForm m.toNat reply) : n = m := by
  have h₁ : parse parseResultPacket reply = .ok ⟨n⟩ := parse_resultPacket_iff.mpr hn
  have h₂ : parse parseResultPacket reply = .ok ⟨m⟩ := parse_resultPacket_iff.mpr hm
  cases h₁.symm.trans h₂
  rfl

theorem parseBinaryValues_length {bitmap : List UInt8} {len i : Nat}
    {slots : List (Column × BinaryValue)} {r r' : Reader} {values : List BinaryValue}
    (h : parseBinaryValues bitmap len i slots r = (.ok values, r')) :
    values.length = slots.length := by
  induction slots generalizing i r values with
  | nil =>
    cases h
    rfl
  | cons slot slots ih =>
    obtain ⟨value, r₁, -, h⟩ := bind_ok.mp h
    obtain ⟨values', r₂, hrest, h⟩ := bind_ok.mp h
    cases h
    rw [List.length_cons, List.length_cons, ih hrest]

/-- What a row of `n` columns is to the parser: a bitmap of their number and two
bits more, and a value for each. -/
def RowOf (n : Nat) (packet : List UInt8) (values : List BinaryValue) : Prop :=
  values.length = n ∧ ∃ b bitmap rest, bitmap.length = (n + 9) / 8 ∧ packet = b :: (bitmap ++ rest)

theorem rowOf_parse {columns : List Column} {n : UInt16} {values_out values : List BinaryValue}
    {packet : List UInt8} (hcolumns : columns.length = n.toNat)
    (hvalues : values_out.length = n.toNat)
    (h : parse (parseStmtRowPacket columns n.toUInt64 values_out) packet = .ok values) :
    RowOf n.toNat packet values := by
  have hlt := n.toNat_lt
  have hbitmap : ((n.toUInt64 + 7 + 2) / 8).toNat = (n.toNat + 9) / 8 := by
    simp only [UInt64.toNat_div, UInt64.toNat_add, UInt16.toNat_toUInt64]
    change ((n.toNat + 7) % 2 ^ 64 + 2) % 2 ^ 64 / 8 = _
    omega
  obtain ⟨b, r₁, p₁, hb, h⟩ := Reader.accepts_getUint8.bind_ok (Nat.zero_le _) (ends h)
  obtain ⟨bitmap, r₂, p₂, ⟨hlen, hrest⟩, h⟩ := (Reader.accepts_getBuffer _).bind_ok p₁ h
  obtain ⟨values', r₃, hparse, h⟩ := bind_ok.mp h
  obtain ⟨_, r₄, -, h⟩ := bind_ok.mp h
  cases h
  constructor
  · rw [parseBinaryValues_length hparse, List.length_take, List.length_zip, hcolumns, hvalues,
      UInt16.toNat_toUInt64]
    omega
  · have hpacket : packet = b :: r₁.rest := hb
    exact ⟨b, bitmap, r₂.rest, hlen.trans hbitmap, by rw [hpacket, hrest]⟩

namespace Conn

variable {alloc : Alloc} {c c' c₁ : Conn} {packet reply : List UInt8}

/-- `*column_count_out` behind a call, with what it held before. -/
def columnCountOut (prior : UInt64) (out : Option UInt64) : UInt64 := out.getD prior

/-- What the result of a statement is announced with. -/
theorem stmtExecuteRecv_announced {out : Option UInt64}
    (h : stmtExecuteRecv alloc c = (.ok out, c')) (hreply : Delivers alloc c reply)
    (resultSet : reply.head? ≠ some Packet.ok) :
    ∃ count : UInt64, LenencForm count.toNat reply ∧ out = some count ∧
      c'.column_count = count := by
  obtain ⟨c₁, hread, rfl⟩ := hreply
  rw [stmtExecuteRecv, bind_of_ok hread, get_bind] at h
  split at h
  · rename_i type
    obtain ⟨_, _, hok, -⟩ := bind_ok.mp h
    cases hbytes : c₁.packet_buffer.bytes with
    | nil =>
      cases (readOkPacket_nil hbytes).symm.trans hok
    | cons b bs =>
      rw [currentPacketType_of_bytes hbytes] at type
      rw [hbytes, type] at resultSet
      exact absurd rfl resultSet
  · split at h
    · exact absurd h readErrPacket_ne_ok
    · obtain ⟨packet, c₂, hparse, hrest⟩ := bind_ok.mp h
      cases hrest
      have announced : parse parseResultPacket c₁.packet_buffer.bytes = .ok packet :=
        congrArg Prod.fst hparse
      exact ⟨packet.column_count, parse_resultPacket_iff.mp announced, rfl, rfl⟩

/-- A packet that the calls that read a row take for one. -/
def IsRow (packet : List UInt8) : Prop :=
  ∃ b bs, packet = b :: bs ∧ (b = Packet.eof → 9 ≤ packet.length) ∧ b ≠ Packet.err

theorem stmtReadRow_isRow {stmt : StmtOkPacket} {columns : List Column}
    {values_out : List BinaryValue} (hpacket : Delivers alloc c packet) (row : IsRow packet) :
    (stmtReadRow alloc stmt columns values_out c).1 =
      parse (parseStmtRowPacket columns stmt.column_count.toUInt64 values_out) packet := by
  obtain ⟨c₁, hread, rfl⟩ := hpacket
  obtain ⟨b, bs, hbytes, long, noErr⟩ := row
  have hreply : rowReply (fun _ => parseStmtRowPacket columns stmt.column_count.toUInt64 values_out)
      c₁ = parsePacket (parseStmtRowPacket columns stmt.column_count.toUInt64 values_out) c₁ :=
    rowReply_parses hbytes (fun hfe => Nat.not_lt.mpr (long hfe)) noErr
  have hcall : stmtReadRow alloc stmt columns values_out c = rowReply
      (fun _ => parseStmtRowPacket columns stmt.column_count.toUInt64 values_out) c₁ :=
    bind_of_ok hread
  rw [hcall, hreply]
  rfl

/-- A result set is announced to the caller and to the connection with the number
in the reply; its rows are read with the number of the statement, whatever was
announced, one by one and in sequence. -/
theorem stmtExecute_counts {out : Option UInt64} (h : stmtExecuteRecv alloc c = (.ok out, c'))
    (hreply : Delivers alloc c reply) (resultSet : reply.head? ≠ some Packet.ok) :
    ∃ count : UInt64, LenencForm count.toNat reply ∧
      (∀ m : UInt64, LenencForm m.toNat reply → m = count) ∧
      (∀ prior, columnCountOut prior out = count) ∧ c'.column_count = count ∧
      ∀ d stmt columns,
        (∀ packet values_out, Delivers alloc d packet → IsRow packet →
          (stmtReadRow alloc stmt columns values_out d).1 =
              parse (parseStmtRowPacket columns stmt.column_count.toUInt64 values_out) packet ∧
            ∀ values, columns.length = stmt.column_count.toNat →
              values_out.length = stmt.column_count.toNat →
              (stmtReadRow alloc stmt columns values_out d).1 = .ok values →
              RowOf stmt.column_count.toNat packet values) ∧
        ∀ n (rows : List (BinaryRow columns)) ps rest,
          stmt.column_count.toNat = columns.length →
          Facing alloc n d (rows.map BinaryRow.bytes ++ ps) rest →
          ∃ d', ReadsRows alloc stmt columns d (rows.map BinaryRow.cells) d' := by
  obtain ⟨count, hcount, rfl, hconn⟩ := stmtExecuteRecv_announced h hreply resultSet
  refine ⟨count, hcount, fun m hm => hm.unique hcount, fun _ => rfl, hconn, ?_⟩
  intro d stmt columns
  constructor
  · intro packet values_out hpacket row
    have hread : (stmtReadRow alloc stmt columns values_out d).1 =
        parse (parseStmtRowPacket columns stmt.column_count.toUInt64 values_out) packet :=
      stmtReadRow_isRow hpacket row
    refine ⟨hread, fun values hcolumns hvalues hok => ?_⟩
    exact rowOf_parse hcolumns hvalues (hread.symm.trans hok)
  · intro n rows ps rest hcolumns hfacing
    obtain ⟨d', hreads, -, -⟩ := readsRows hfacing hcolumns
    exact ⟨d', hreads⟩

/-- A connection to which an OK packet has been sent. -/
def okConn : Conn :=
  { reusedConn [0, 0, 0, 2, 0, 0, 0] 0 with capabilities := Capabilities.client }

/-- A row of two LONGs, 7 and 8. -/
def twoColumnsRow : List UInt8 := [0, 0, 7, 0, 0, 0, 8, 0, 0, 0]

/-- A connection to which two columns and such a row have been sent. -/
def twoColumnsConn : Conn :=
  { Conn.init (readingSock [.data (header 1 0 ++ [2] ++ (header 10 1 ++ twoColumnsRow))]) with
    capabilities := Capabilities.client }

theorem stmtExecute_counts_two :
    let c := twoColumnsConn
    let c' := (stmtExecuteRecv (fun _ => true) c).2
    ∃ count : UInt64, LenencForm count.toNat [2] ∧
      (∀ m : UInt64, LenencForm m.toNat [2] → m = count) ∧
      (∀ prior, columnCountOut prior (some 2) = count) ∧ c'.column_count = count ∧
      ∀ d stmt columns,
        (∀ packet values_out, Delivers (fun _ => true) d packet → IsRow packet →
          (stmtReadRow (fun _ => true) stmt columns values_out d).1 =
              parse (parseStmtRowPacket columns stmt.column_count.toUInt64 values_out) packet ∧
            ∀ values, columns.length = stmt.column_count.toNat →
              values_out.length = stmt.column_count.toNat →
              (stmtReadRow (fun _ => true) stmt columns values_out d).1 = .ok values →
              RowOf stmt.column_count.toNat packet values) ∧
        ∀ n (rows : List (BinaryRow columns)) ps rest,
          stmt.column_count.toNat = columns.length →
          Facing (fun _ => true) n d (rows.map BinaryRow.bytes ++ ps) rest →
          ∃ d', ReadsRows (fun _ => true) stmt columns d (rows.map BinaryRow.cells) d' := by
  intro c c'
  have hexecute : (stmtExecuteRecv (fun _ => true) c).1 = .ok (some 2) := by decide +kernel
  have hread : (readPacket (fun _ => true) c).1 = .ok () := by decide +kernel
  have hbytes : (readPacket (fun _ => true) c).2.packet_buffer.bytes = [2] := by decide +kernel
  exact stmtExecute_counts (ends hexecute) ⟨_, ends hread, hbytes⟩ (by decide)

/-- The column count that the caller had is still there behind an OK packet, and
a row of the two columns announced is read as one of the statement's single
column. -/
theorem counts_differ :
    (∃ out c', stmtExecuteRecv (fun _ => true) okConn = (.ok out, c') ∧
      columnCountOut 7 out ≠ 0) ∧
    ∃ c', stmtExecuteRecv (fun _ => true) twoColumnsConn = (.ok (some 2), c') ∧
      (stmtReadRow (fun _ => true) ⟨1, 1, 0, 0⟩ [exampleColumn, exampleColumn] [default, default]
          c').1 = .error .extraDataInPacket ∧
      ∃ values, parse (parseStmtRowPacket [exampleColumn, exampleColumn] 2 [default, default])
        twoColumnsRow = .ok values := by
  have hok : (stmtExecuteRecv (fun _ => true) okConn).1 = .ok none := by decide +kernel
  have htwo : (stmtExecuteRecv (fun _ => true) twoColumnsConn).1 = .ok (some 2) := by
    decide +kernel
  have hrow : (stmtReadRow (fun _ => true) ⟨1, 1, 0, 0⟩ [exampleColumn, exampleColumn]
      [default, default] (stmtExecuteRecv (fun _ => true) twoColumnsConn).2).1 =
      .error .extraDataInPacket := by
    decide +kernel
  have hvalues : (parse (parseStmtRowPacket [exampleColumn, exampleColumn] 2 [default, default])
      twoColumnsRow).isOk := by
    decide +kernel
  refine ⟨⟨none, _, ends hok, by decide⟩, _, ends htwo, hrow, ?_⟩
  cases hparse : parse (parseStmtRowPacket [exampleColumn, exampleColumn] 2 [default, default])
      twoColumnsRow with
  | ok values => exact ⟨values, rfl⟩
  | error rc =>
    rw [hparse] at hvalues
    cases hvalues

end Conn

end Trilogy
