import Trilogy.Lib.Relate
import Trilogy.BinaryRow

/-! `trilogy_parse_stmt_row_packet` fills an array of its caller, which holds
whatever an earlier row left there. The parser sets `is_unsigned` for a column
with the flag and leaves it alone for one without. -/
namespace Trilogy

open Lib

/-- `columns[i].flags & TRILOGY_COLUMN_FLAG_UNSIGNED` -/
def Column.isUnsigned (column : Column) : Bool := column.flags &&& columnFlagUnsigned != 0

/-- What two runs have in common in the value of one column. -/
structure ValueAgrees (column : Column) (v v' : BinaryValue) : Prop where
  is_null : v.is_null = v'.is_null
  type : v.type = v'.type
  is_unsigned : v.is_null = false →
    v.is_unsigned = column.isUnsigned ∧ v'.is_unsigned = column.isUnsigned
  member : v.is_null = false → (kindOf column.type).Same v v'

/-- The values of two runs, from the values that were there before. -/
structure Refilled (null : Bool) (column : Column) (out out' v v' : BinaryValue) : Prop where
  is_null : v.is_null = null ∧ v'.is_null = null
  type : v.type = v'.type
  is_unsigned : null = false → v.is_unsigned = (column.isUnsigned || out.is_unsigned) ∧
    v'.is_unsigned = (column.isUnsigned || out'.is_unsigned)
  member : null = false → (kindOf column.type).Same v v'

/-- A value is the same in both runs unless a flag of an earlier row shows in it. -/
theorem Refilled.valueAgrees_iff {null : Bool} {column : Column} {out out' v v' : BinaryValue}
    (h : Refilled null column out out' v v') :
    ValueAgrees column v v' ↔ (null = false → column.isUnsigned = false →
      out.is_unsigned = false ∧ out'.is_unsigned = false) := by
  constructor
  · intro hsame hnull hcolumn
    obtain ⟨hv, hv'⟩ := hsame.is_unsigned (h.is_null.1.trans hnull)
    obtain ⟨ho, ho'⟩ := h.is_unsigned hnull
    rw [hcolumn, Bool.false_or] at ho ho'
    rw [hcolumn] at hv hv'
    exact ⟨ho ▸ hv, ho' ▸ hv'⟩
  · intro hclean
    refine ⟨h.is_null.1.trans h.is_null.2.symm, h.type, fun hnull => ?_, fun hnull => ?_⟩
    · rw [h.is_null.1] at hnull
      obtain ⟨ho, ho'⟩ := h.is_unsigned hnull
      rw [ho, ho']
      cases hcolumn : column.isUnsigned with
      | true => exact ⟨rfl, rfl⟩
      | false =>
        obtain ⟨hout, hout'⟩ := hclean hnull hcolumn
        rw [hout, hout']
        exact ⟨rfl, rfl⟩
    · exact h.member (h.is_null.1 ▸ hnull)

/-- The bit of column `i` in the bitmap. -/
def nullAt (bitmap : List UInt8) (i : Nat) : Bool :=
  bitmap.getD ((i + 2) / 8) 0 &&& (1 <<< UInt8.ofNat ((i + 2) % 8)) != 0

inductive RowRefilled (bitmap : List UInt8) :
    Nat → List Column → List BinaryValue → List BinaryValue → List BinaryValue →
      List BinaryValue → Prop
  | nil (i : Nat) : RowRefilled bitmap i [] [] [] [] []
  | cons {i column columns out outs out' outs' v values v' values'}
      (head : Refilled (nullAt bitmap i) column out out' v v')
      (tail : RowRefilled bitmap (i + 1) columns outs outs' values values') :
      RowRefilled bitmap i (column :: columns) (out :: outs) (out' :: outs') (v :: values)
        (v' :: values')

/-- The values from index `i` on that will not be NULL, for columns without the
flag, do not have it either. -/
def CleanFrom (bitmap : List UInt8) (i : Nat) (columns : List Column) (outs : List BinaryValue) :
    Prop :=
  ∀ j column out, columns[j]? = some column → outs[j]? = some out →
    nullAt bitmap (i + j) = false → column.isUnsigned = false → out.is_unsigned = false

theorem cleanFrom_cons {bitmap : List UInt8} {i : Nat} {column : Column} {columns : List Column}
    {out : BinaryValue} {outs : List BinaryValue} :
    CleanFrom bitmap i (column :: columns) (out :: outs) ↔
      (nullAt bitmap i = false → column.isUnsigned = false → out.is_unsigned = false) ∧
        CleanFrom bitmap (i + 1) columns outs := by
  constructor
  · intro h
    refine ⟨h 0 column out rfl rfl, fun j c o hc ho => ?_⟩
    rw [Nat.add_right_comm]
    exact h (j + 1) c o hc ho
  · rintro ⟨hhead, htail⟩ j c o hc ho
    cases j with
    | zero =>
      cases hc
      cases ho
      exact hhead
    | succ j =>
      rw [Nat.add_comm j 1, ← Nat.add_assoc]
      exact htail j c o hc ho

/-- All the columns of a row in both runs. -/
def RowAgrees (columns : List Column) (values values' : List BinaryValue) : Prop :=
  ∀ t ∈ columns.zip (values.zip values'), ValueAgrees t.1 t.2.1 t.2.2

theorem RowRefilled.rowAgrees_iff {bitmap : List UInt8} {i : Nat} {columns : List Column}
    {outs outs' values values' : List BinaryValue}
    (h : RowRefilled bitmap i columns outs outs' values values') :
    RowAgrees columns values values' ↔
      CleanFrom bitmap i columns outs ∧ CleanFrom bitmap i columns outs' := by
  induction h with
  | nil i => exact iff_of_true (by simp [RowAgrees]) ⟨by simp [CleanFrom], by simp [CleanFrom]⟩
  | cons head tail ih =>
    rw [RowAgrees, List.zip_cons_cons, List.zip_cons_cons, List.forall_mem_cons,
      head.valueAgrees_iff, ← RowAgrees, ih, cleanFrom_cons, cleanFrom_cons]
    constructor
    · rintro ⟨hhead, htail, htail'⟩
      exact ⟨⟨fun hn hc => (hhead hn hc).1, htail⟩, fun hn hc => (hhead hn hc).2, htail'⟩
    · rintro ⟨⟨hhead, htail⟩, hhead', htail'⟩
      exact ⟨fun hn hc => ⟨hhead hn hc, hhead' hn hc⟩, htail, htail'⟩

/-- One branch of the switch: its member is read, the rest is as it was. -/
structure Filled (k : Kind) (out out' v v' : BinaryValue) : Prop where
  left : v.is_null = out.is_null ∧ v.type = out.type ∧ v.is_unsigned = out.is_unsigned
  right : v'.is_null = out'.is_null ∧ v'.type = out'.type ∧ v'.is_unsigned = out'.is_unsigned
  member : k.Same v v'

theorem Kind.parse_alike (k : Kind) (out out' : BinaryValue) :
    Alike Eq (Filled k out out') (k.parse out) (k.parse out') := by
  cases k with
  | null => exact .throw _
  | _ => exact .bind (.same _) fun _ _ h => .pure ⟨⟨rfl, rfl, rfl⟩, ⟨rfl, rfl, rfl⟩, h⟩

theorem parseMember_alike (type : UInt8) (out out' : BinaryValue) :
    Alike Eq (Filled (kindOf type) out out') (parseMember type out) (parseMember type out') := by
  cases ht : TypeT.ofCode type with
  | none =>
    simp only [parseMember, ht]
    exact .throw _
  | some t =>
    rw [parseMember_kind ht, parseMember_kind ht, kindOf, ht]
    exact t.kind.parse_alike out out'

theorem isNull_alike (bitmap : List UInt8) (len i : Nat) :
    Alike Eq (fun b b' => b = nullAt bitmap i ∧ b' = nullAt bitmap i) (isNull bitmap len i)
      (isNull bitmap len i) :=
  .ite .rfl (fun _ => .throw _) fun _ => .bind (.same _) fun _ _ _ => .pure ⟨rfl, rfl⟩

theorem parseBinaryValue_alike (bitmap : List UInt8) (len i : Nat) (column : Column)
    (out out' : BinaryValue) :
    Alike Eq (Refilled (nullAt bitmap i) column out out')
      (parseBinaryValue bitmap len i column out) (parseBinaryValue bitmap len i column out') := by
  refine .bind (isNull_alike bitmap len i) ?_
  rintro _ _ ⟨rfl, rfl⟩
  refine .ite .rfl (fun hnull => .pure ?_) fun hnull => ?_
  · exact ⟨⟨hnull.symm, hnull.symm⟩, rfl, by simp [hnull], by simp [hnull]⟩
  · have hnull := Bool.not_eq_true _ ▸ hnull
    refine (parseMember_alike _ _ _).weaken fun v v' h => ?_
    exact ⟨⟨h.left.1.trans hnull.symm, h.right.1.trans hnull.symm⟩,
      h.left.2.1.trans h.right.2.1.symm, fun _ => ⟨h.left.2.2, h.right.2.2⟩, fun _ => h.member⟩

theorem parseBinaryValues_alike (bitmap : List UInt8) (len i : Nat) {columns : List Column}
    {outs outs' : List BinaryValue} (h : outs.length = columns.length)
    (h' : outs'.length = columns.length) :
    Alike Eq (RowRefilled bitmap i columns outs outs')
      (parseBinaryValues bitmap len i (columns.zip outs))
      (parseBinaryValues bitmap len i (columns.zip outs')) := by
  induction columns generalizing i outs outs' with
  | nil =>
    rw [List.length_eq_zero_iff.mp h, List.length_eq_zero_iff.mp h']
    exact .pure (.nil i)
  | cons column columns ih =>
    obtain ⟨out, outs, rfl⟩ := List.exists_cons_of_length_eq_add_one h
    obtain ⟨out', outs', rfl⟩ := List.exists_cons_of_length_eq_add_one h'
    simp only [List.length_cons, Nat.add_right_cancel_iff] at h h'
    exact .bind (parseBinaryValue_alike bitmap len i column out out') fun v v' hv =>
      .bind (ih (i + 1) h h') fun values values' hvalues => .pure (.cons hv hvalues)

/-- The bitmap of a row packet. -/
def rowBitmap (buff : List UInt8) (n : UInt64) : List UInt8 :=
  (buff.drop 1).take ((n + 7 + 2) / 8).toNat

theorem getUint8_rest {c c' : Reader} {b : UInt8} (h : Reader.getUint8 c = (.ok b, c')) :
    c'.rest = c.rest.drop 1 := by
  obtain ⟨_, c₁, hcheck, hnext⟩ := Proc.bind_ok.mp h
  obtain ⟨_, c₂, hmark, hroom⟩ := Proc.bind_ok.mp hcheck
  cases hmark
  rw [Proc.get_bind] at hroom
  split at hroom
  · cases hroom
  · cases hroom
    cases hnext
    rw [Cursor.rest, Cursor.rest, List.drop_drop]
    rfl

theorem getBuffer_ok {c c' : Reader} {len : Nat} {s : List UInt8}
    (h : Reader.getBuffer len c = (.ok s, c')) : s = c.rest.take len := by
  obtain ⟨_, c₁, hcheck, hget⟩ := Proc.bind_ok.mp h
  obtain ⟨_, c₂, hmark, hroom⟩ := Proc.bind_ok.mp hcheck
  cases hmark
  rw [Proc.get_bind] at hroom
  split at hroom
  · cases hroom
  · cases hroom
    cases hget
    rfl

theorem parse_alike {columns : List Column} {n : UInt64} {outs outs' : List BinaryValue}
    (hn : n.toNat = columns.length) (h : outs.length = columns.length)
    (h' : outs'.length = columns.length) (buff : List UInt8) :
    SameEnd (RowRefilled (rowBitmap buff n) 0 columns outs outs')
      (parse (parseStmtRowPacket columns n outs) buff)
      (parse (parseStmtRowPacket columns n outs') buff) := by
  have htake : ∀ os : List BinaryValue, os.length = columns.length →
      (columns.zip os).take n.toNat = columns.zip os := fun os hos =>
    List.take_of_length_le (by rw [List.length_zip]; omega)
  rw [parse, parse, parseStmtRowPacket, parseStmtRowPacket, htake outs h, htake outs' h']
  rcases hb : Reader.getUint8 (Cursor.ofList buff) with ⟨rc | b, c⟩
  · rw [Proc.bind_of_error hb, Proc.bind_of_error hb]
    exact .error rc
  · rw [Proc.bind_of_ok hb, Proc.bind_of_ok hb]
    rcases hbitmap : Reader.getBuffer ((n + 7 + 2) / 8).toNat c with ⟨rc | bitmap, c'⟩
    · rw [Proc.bind_of_error hbitmap, Proc.bind_of_error hbitmap]
      exact .error rc
    · rw [Proc.bind_of_ok hbitmap, Proc.bind_of_ok hbitmap]
      have hsame : bitmap = rowBitmap buff n := by
        rw [getBuffer_ok hbitmap, getUint8_rest hb]
        rfl
      rw [← hsame]
      have hrun : Alike Eq (RowRefilled bitmap 0 columns outs outs')
          (do
            let values ← parseBinaryValues bitmap ((n + 7 + 2) / 8).toNat 0 (columns.zip outs)
            Reader.finish
            pure values)
          (do
            let values ← parseBinaryValues bitmap ((n + 7 + 2) / 8).toNat 0 (columns.zip outs')
            Reader.finish
            pure values) :=
        .bind (parseBinaryValues_alike _ _ _ h h') fun _ _ hvalues =>
          .bind (.same _) fun _ _ _ => .pure hvalues
      exact (hrun c' c' rfl).1

/-- Whatever the arrays held, the code is the same; the values of a row that is
accepted are if no stale flag is among them, and only then. -/
theorem stmtRow_determined (buff : List UInt8) {columns : List Column} {n : UInt64}
    {outs outs' : List BinaryValue} (hn : n.toNat = columns.length)
    (h : outs.length = columns.length) (h' : outs'.length = columns.length) :
    SameEnd (fun _ _ => True) (parse (parseStmtRowPacket columns n outs) buff)
        (parse (parseStmtRowPacket columns n outs') buff) ∧
      ∀ values values', parse (parseStmtRowPacket columns n outs) buff = .ok values →
        parse (parseStmtRowPacket columns n outs') buff = .ok values' →
        (RowAgrees columns values values' ↔
          CleanFrom (rowBitmap buff n) 0 columns outs ∧
            CleanFrom (rowBitmap buff n) 0 columns outs') := by
  have hrun := parse_alike hn h h' buff
  refine ⟨hrun.weaken fun _ _ _ => trivial, fun values values' hok hok' => ?_⟩
  rw [hok, hok'] at hrun
  cases hrun with
  | ok hvalues => exact hvalues.rowAgrees_iff

/-- A column of type LONG, with these flags. -/
def longColumn (flags : UInt16) : Column where
  catalog := []
  schema := []
  table := []
  original_table := []
  name := []
  original_name := []
  charset := 0
  len := 4
  type := TypeT.long.code
  flags := flags
  decimals := 0
  default_value := []

/-- A value that is all zero but for the flag. -/
def staleValue (is_unsigned : Bool) : BinaryValue where
  is_null := false
  is_unsigned := is_unsigned
  type := 0
  dbl := 0
  uint64 := 0
  flt := 0
  uint32 := 0
  uint16 := 0
  uint8 := 0
  str := []
  year := 0
  date := ⟨0, 0, 0, 0, 0, 0, 0⟩
  time := ⟨false, 0, 0, 0, 0, 0⟩

/-- The row of one LONG, 7. -/
def longRow : List UInt8 := [0x00, 0x00, 7, 0, 0, 0]

theorem stmtRow_determined_long :
    SameEnd (fun _ _ => True)
        (parse (parseStmtRowPacket [longColumn 0] 1 [staleValue false]) longRow)
        (parse (parseStmtRowPacket [longColumn 0] 1 [staleValue true]) longRow) ∧
      ∀ values values',
        parse (parseStmtRowPacket [longColumn 0] 1 [staleValue false]) longRow = .ok values →
        parse (parseStmtRowPacket [longColumn 0] 1 [staleValue true]) longRow = .ok values' →
        (RowAgrees [longColumn 0] values values' ↔
          CleanFrom (rowBitmap longRow 1) 0 [longColumn 0] [staleValue false] ∧
            CleanFrom (rowBitmap longRow 1) 0 [longColumn 0] [staleValue true]) :=
  stmtRow_determined longRow (by decide) rfl rfl

/-- The value of a signed column is taken for an unsigned one. -/
theorem stmtRow_determined_fails :
    ¬ ∀ values values',
      parse (parseStmtRowPacket [longColumn 0] 1 [staleValue false]) longRow = .ok values →
      parse (parseStmtRowPacket [longColumn 0] 1 [staleValue true]) longRow = .ok values' →
      RowAgrees [longColumn 0] values values' := by
  intro h
  have hsame := h [{ staleValue false with type := TypeT.long.code, uint32 := 7 }]
    [{ staleValue true with type := TypeT.long.code, uint32 := 7 }] rfl rfl
  have hflag := (hsame _ List.mem_cons_self).is_unsigned rfl
  exact absurd hflag.2 (by decide)

end Trilogy
