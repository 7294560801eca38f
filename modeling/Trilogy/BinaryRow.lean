import Trilogy.BinaryValue

namespace Trilogy

open Lib

def kindOf (type : UInt8) : Kind :=
  match TypeT.ofCode type with
  | some t => t.kind
  | none => .null

/-- A cell is a value or NULL. -/
abbrev Cell := Option BinaryValue

/-- The part of a row behind its null bitmap. -/
inductive RowBytes : List Column → List Cell → List UInt8 → Prop
  | nil : RowBytes [] [] []
  | null {column columns cells bs} (h : RowBytes columns cells bs) :
      RowBytes (column :: columns) (none :: cells) bs
  | value {column columns v cells b bs} (hb : (kindOf column.type).Encodes v b)
      (h : RowBytes columns cells bs) :
      RowBytes (column :: columns) (some v :: cells) (b ++ bs)

theorem RowBytes.length {columns : List Column} {cells : List Cell} {bs : List UInt8}
    (h : RowBytes columns cells bs) : cells.length = columns.length := by
  induction h with
  | nil => rfl
  | null _ ih => simp [ih]
  | value _ _ ih => simp [ih]

def received (column : Column) (out : BinaryValue) : Cell → BinaryValue
  | none => { out with is_null := true, type := TypeT.null.code }
  | some v =>
    (kindOf column.type).store v
      { out with
        is_null := false
        type := column.type
        is_unsigned := column.flags &&& columnFlagUnsigned != 0 || out.is_unsigned }

def receivedRow : List Column → List BinaryValue → List Cell → List BinaryValue
  | column :: columns, out :: outs, cell :: cells =>
    received column out cell :: receivedRow columns outs cells
  | _, _, _ => []

/-- What a value holds, for a cell of this column. -/
def Holds (column : Column) (value : BinaryValue) : Cell → Prop
  | none => value.is_null = true
  | some v =>
    value.is_null = false ∧ value.type = column.type ∧ (kindOf column.type).Same v value

theorem received_holds (column : Column) (out : BinaryValue) (cell : Cell) :
    Holds column (received column out cell) cell := by
  cases cell with
  | none => rfl
  | some v =>
    obtain ⟨hnull, htype, -⟩ := (kindOf column.type).store_frame v
      { out with
        is_null := false
        type := column.type
        is_unsigned := column.flags &&& columnFlagUnsigned != 0 || out.is_unsigned }
    exact ⟨hnull, htype, Kind.same_store _ _ _⟩

theorem reads_isNull {bitmap : List UInt8} {len i : Nat} (h : i < len * 8) (input : List UInt8) :
    Cursor.Reads (isNull bitmap len i) input
      (.ok ((bitmap.getD ((i + 2) / 8) 0).toNat.testBit ((i + 2) % 8))) input := by
  rw [isNull, if_neg (by omega), ← and_shift_ne_zero _ (Nat.mod_lt _ (by decide))]
  exact .bind (.mark _ _) (.pure _ _)

theorem Kind.Encodes.type {type : UInt8} {v : BinaryValue} {b : List UInt8}
    (h : (kindOf type).Encodes v b) : ∃ t, TypeT.ofCode type = some t ∧ kindOf type = t.kind := by
  unfold kindOf at h ⊢
  cases ht : TypeT.ofCode type with
  | none =>
    rw [ht] at h
    exact absurd h id
  | some t => exact ⟨t, rfl, rfl⟩

theorem reads_parseBinaryValue {bitmap : List UInt8} {len i : Nat} {column : Column} {cell : Cell}
    {b : List UInt8} (hcell : RowBytes [column] [cell] b)
    (hbit : ∀ input, Cursor.Reads (isNull bitmap len i) input (.ok cell.isNone) input) (out : BinaryValue) (tail : List UInt8) :
    Cursor.Reads (parseBinaryValue bitmap len i column out) (b ++ tail)
      (.ok (received column out cell)) tail := by
  cases hcell with
  | null h =>
    cases h
    exact .bind (hbit _) (.pure _ _)
  | value hb h =>
    cases h
    obtain ⟨t, ht, hk⟩ := hb.type
    rw [List.append_nil, received, hk]
    rw [hk] at hb
    refine .bind (hbit _) ?_
    rw [if_neg (by simp), parseMember_kind ht]
    exact Kind.reads_parse hb tail

theorem reads_parseBinaryValues {bitmap : List UInt8} {len i : Nat} {columns : List Column}
    {cells : List Cell} {bs : List UInt8} (h : RowBytes columns cells bs)
    (hbits : ∀ j < cells.length, ∀ input, Cursor.Reads (isNull bitmap len (i + j)) input
      (.ok (cells.getD j none).isNone) input)
    {outs : List BinaryValue} (houts : outs.length = columns.length) (tail : List UInt8) :
    Cursor.Reads (parseBinaryValues bitmap len i (columns.zip outs)) (bs ++ tail)
      (.ok (receivedRow columns outs cells)) tail := by
  induction h generalizing i outs with
  | nil => exact .pure _ _
  | @null column columns cells bs h ih =>
    obtain ⟨out, outs, rfl⟩ : ∃ o os, outs = o :: os :=
      List.exists_cons_of_length_eq_add_one houts
    have hfirst := hbits 0 (by simp)
    simp only [List.zip_cons_cons, parseBinaryValues, receivedRow]
    refine .bind (reads_parseBinaryValue (.null .nil) hfirst out _) (.bind (ih ?_ ?_) (.pure _ _))
    · intro j hj
      have := hbits (j + 1) (by simpa using hj)
      rwa [List.getD_cons_succ, ← Nat.add_assoc, Nat.add_right_comm] at this
    · simpa using houts
  | @value column columns v cells b bs hb h ih =>
    obtain ⟨out, outs, rfl⟩ : ∃ o os, outs = o :: os :=
      List.exists_cons_of_length_eq_add_one houts
    have hfirst := hbits 0 (by simp)
    have hcell : RowBytes [column] [some v] b := List.append_nil b ▸ .value hb .nil
    simp only [List.zip_cons_cons, parseBinaryValues, receivedRow, List.append_assoc]
    refine .bind (reads_parseBinaryValue hcell hfirst out _) (.bind (ih ?_ ?_) (.pure _ _))
    · intro j hj
      have := hbits (j + 1) (by simpa using hj)
      rwa [List.getD_cons_succ, ← Nat.add_assoc, Nat.add_right_comm] at this
    · simpa using houts

/-- A row of any column count below 2^64 - 9, with its bits in the bitmap, two
places up. -/
theorem parse_stmtRow {columns : List Column} {cells : List Cell} {bs bitmap : List UInt8}
    (h : RowBytes columns cells bs) {n : UInt64} (hn : n.toNat = columns.length)
    (hsmall : columns.length + 9 < 2 ^ 64) (hlen : bitmap.length = (columns.length + 9) / 8)
    (hbits : ∀ j < cells.length, (bitmap.getD ((j + 2) / 8) 0).toNat.testBit ((j + 2) % 8) =
      (cells.getD j none).isNone)
    {outs : List BinaryValue} (houts : outs.length = columns.length) (header : UInt8) :
    parse (parseStmtRowPacket columns n outs) (header :: bitmap ++ bs) =
      .ok (receivedRow columns outs cells) := by
  have hcells := h.length
  have hbitmap : ((n + 7 + 2) / 8).toNat = bitmap.length := by
    simp only [UInt64.toNat_div, UInt64.toNat_add, hn, hlen]
    change ((columns.length + 7) % 2 ^ 64 + 2) % 2 ^ 64 / 8 = _
    omega
  have htake : (columns.zip outs).take n.toNat = columns.zip outs :=
    List.take_of_length_le (by rw [List.length_zip]; omega)
  have hvalues := @reads_parseBinaryValues bitmap bitmap.length 0 _ _ _ h
    (fun j hj => by rw [Nat.zero_add, ← hbits j hj]; exact reads_isNull (by omega)) _ houts []
  rw [List.append_nil] at hvalues
  have hrow : Cursor.Reads (parseStmtRowPacket columns n outs) (header :: bitmap ++ bs)
      (.ok (receivedRow columns outs cells)) [] := by
    unfold parseStmtRowPacket
    rw [hbitmap, htake]
    exact .bind (Reader.reads_getUint8 _ _) (.bind (Reader.reads_getBuffer _ _)
      (.bind hvalues (.bind Reader.reads_finish (.pure _ _))))
  exact hrow.run

theorem raises_parseMember (type : UInt8) (out : BinaryValue) :
    Cursor.Raises Reader.Malformed (parseMember type out) := by
  cases ht : TypeT.ofCode type with
  | none =>
    simp only [parseMember, ht]
    exact .throw (by decide)
  | some t =>
    rw [parseMember_kind ht]
    cases t.kind with
    | tiny => exact .bind Reader.raises_getUint8 fun _ => .pure _
    | short | year => exact .bind Reader.raises_getUint16 fun _ => .pure _
    | long => exact .bind Reader.raises_getUint32 fun _ => .pure _
    | longlong => exact .bind Reader.raises_getUint64 fun _ => .pure _
    | float =>
      exact .bind (.bind (Reader.raises_check 4) fun _ => Reader.raises_getUint32) fun _ => .pure _
    | double =>
      exact .bind (.bind (Reader.raises_check 8) fun _ => Reader.raises_getUint64) fun _ => .pure _
    | time => exact .bind raises_parseTime fun _ => .pure _
    | date => exact .bind raises_parseDate fun _ => .pure _
    | str => exact .bind Reader.raises_getLenencBuffer fun _ => .pure _
    | null => exact .throw (by decide)

theorem raises_parseBinaryValues (bitmap : List UInt8) (len i : Nat)
    (slots : List (Column × BinaryValue)) :
    Cursor.Raises Reader.Malformed (parseBinaryValues bitmap len i slots) := by
  induction slots generalizing i with
  | nil => exact .pure _
  | cons slot slots ih =>
    refine .bind ?_ fun _ => .bind (ih (i + 1)) fun _ => .pure _
    exact .bind (.ite (.throw (by decide)) (.bind (.mark _) fun _ => .pure _)) fun _ =>
      .ite (.pure _) (raises_parseMember _ _)

theorem raises_parseStmtRowPacket (columns : List Column) (n : UInt64)
    (outs : List BinaryValue) : Cursor.Raises Reader.Malformed (parseStmtRowPacket columns n outs) :=
  .bind Reader.raises_getUint8 fun _ => .bind (Reader.raises_getBuffer _) fun _ =>
    .bind (raises_parseBinaryValues _ _ _ _) fun _ => .bind Reader.raises_finish fun _ => .pure _

end Trilogy
