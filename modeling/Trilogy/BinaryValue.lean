import Trilogy.Lib.Bits
import Trilogy.Build

/-! Both switches over the MySQL types fall into the same eleven kinds. `Encodes`
is the wire format of a kind: what a reader takes for a value, in whichever of
the forms that leave trailing zero fields out. `valueBytes` is what the value
loop of the builder writes. -/
namespace Trilogy

open Lib Builder

/-- How many of the fields of a date are sent; the rest are zero. -/
inductive DateForm
  | empty | day | second | micro

namespace DateForm

def Fits : DateForm → DateValue → Prop
  | empty, d => d = ⟨0, 0, 0, 0, 0, 0, 0⟩
  | day, d => d = { d with hour := 0, minute := 0, second := 0, micro_seconds := 0 }
  | second, d => d.micro_seconds = 0
  | micro, _ => True

def bytes : DateForm → DateValue → List UInt8
  | empty, _ => [0]
  | day, d => 4 :: leBytes 2 d.year.toNat ++ [d.month, d.day]
  | second, d => 7 :: leBytes 2 d.year.toNat ++ [d.month, d.day, d.hour, d.minute, d.second]
  | micro, d =>
    11 :: leBytes 2 d.year.toNat ++ [d.month, d.day, d.hour, d.minute, d.second] ++
      leBytes 4 d.micro_seconds.toNat

end DateForm

inductive TimeForm
  | empty | second | micro

namespace TimeForm

def Fits : TimeForm → TimeValue → Prop
  | empty, t => t = ⟨false, 0, 0, 0, 0, 0⟩
  | second, t => t.micro_seconds = 0
  | micro, _ => True

def bytes : TimeForm → TimeValue → List UInt8
  | empty, _ => [0]
  | second, t =>
    8 :: t.is_negative.toUInt8 :: leBytes 4 t.days.toNat ++ [t.hour, t.minute, t.second]
  | micro, t =>
    12 :: t.is_negative.toUInt8 :: leBytes 4 t.days.toNat ++ [t.hour, t.minute, t.second] ++
      leBytes 4 t.micro_seconds.toNat

end TimeForm

theorem reads_parseDate {form : DateForm} {d : DateValue} (h : form.Fits d) (tail : List UInt8) :
    Cursor.Reads parseDate (form.bytes d ++ tail) (.ok d) tail := by
  have hy : UInt16.ofNat d.year.toNat = d.year := UInt16.ofNat_toNat
  have hm : UInt32.ofNat d.micro_seconds.toNat = d.micro_seconds := UInt32.ofNat_toNat
  cases form with
  | empty =>
    cases h
    exact .bind (Reader.reads_getUint8 _ _) (.pure _ _)
  | day =>
    simp only [DateForm.bytes, List.cons_append, List.append_assoc]
    refine .bind (Reader.reads_getUint8 _ _) (.bind (Reader.reads_getUint16 _ _)
      (.bind (Reader.reads_getUint8 _ _) (.bind (Reader.reads_getUint8 _ _) ?_)))
    rw [hy, h]
    exact .pure _ _
  | second =>
    simp only [DateForm.bytes, List.cons_append, List.append_assoc]
    refine .bind (Reader.reads_getUint8 _ _) (.bind (Reader.reads_getUint16 _ _)
      (.bind (Reader.reads_getUint8 _ _) (.bind (Reader.reads_getUint8 _ _)
      (.bind (Reader.reads_getUint8 _ _) (.bind (Reader.reads_getUint8 _ _)
      (.bind (Reader.reads_getUint8 _ _) ?_))))))
    rw [hy, ← show d.micro_seconds = 0 from h]
    exact .pure _ _
  | micro =>
    simp only [DateForm.bytes, List.cons_append, List.append_assoc]
    refine .bind (Reader.reads_getUint8 _ _) (.bind (Reader.reads_getUint16 _ _)
      (.bind (Reader.reads_getUint8 _ _) (.bind (Reader.reads_getUint8 _ _)
      (.bind (Reader.reads_getUint8 _ _) (.bind (Reader.reads_getUint8 _ _)
      (.bind (Reader.reads_getUint8 _ _) (.bind (Reader.reads_getUint32 _ _) ?_)))))))
    rw [hy, hm]
    exact .pure _ _

theorem toUInt8_eq_one (b : Bool) : (b.toUInt8 == 1) = b := by
  cases b <;> rfl

theorem reads_parseTime {form : TimeForm} {t : TimeValue} (h : form.Fits t) (tail : List UInt8) :
    Cursor.Reads parseTime (form.bytes t ++ tail) (.ok t) tail := by
  have hd : UInt32.ofNat t.days.toNat = t.days := UInt32.ofNat_toNat
  have hm : UInt32.ofNat t.micro_seconds.toNat = t.micro_seconds := UInt32.ofNat_toNat
  cases form with
  | empty =>
    cases h
    exact .bind (Reader.reads_getUint8 _ _) (.pure _ _)
  | second =>
    simp only [TimeForm.bytes, List.cons_append, List.append_assoc]
    refine .bind (Reader.reads_getUint8 _ _) (.bind (Reader.reads_getUint8 _ _)
      (.bind (Reader.reads_getUint32 _ _) (.bind (Reader.reads_getUint8 _ _)
      (.bind (Reader.reads_getUint8 _ _) (.bind (Reader.reads_getUint8 _ _) ?_)))))
    rw [hd, toUInt8_eq_one, ← show t.micro_seconds = 0 from h]
    exact .pure _ _
  | micro =>
    simp only [TimeForm.bytes, List.cons_append, List.append_assoc]
    refine .bind (Reader.reads_getUint8 _ _) (.bind (Reader.reads_getUint8 _ _)
      (.bind (Reader.reads_getUint32 _ _) (.bind (Reader.reads_getUint8 _ _)
      (.bind (Reader.reads_getUint8 _ _) (.bind (Reader.reads_getUint8 _ _)
      (.bind (Reader.reads_getUint32 _ _) ?_))))))
    rw [hd, hm, toUInt8_eq_one]
    exact .pure _ _

inductive Kind
  | tiny | short | long | longlong | float | double | year | time | date | str | null
  deriving DecidableEq

def TypeT.kind : TypeT → Kind
  | tiny => .tiny
  | short => .short
  | long | int24 => .long
  | longlong => .longlong
  | float => .float
  | double => .double
  | year => .year
  | time => .time
  | date | datetime | timestamp => .date
  | null => .null
  | decimal | varchar | bit | vector | json | newdecimal | enum | set | tinyBlob | mediumBlob
  | longBlob | blob | varString | string | geometry => .str

theorem TypeT.kind_eq_null {t : TypeT} : t.kind = .null ↔ t = null := by
  cases t <;> simp [kind]

namespace Kind

/-- `v` and `w` agree on the member of the union this kind stands for. -/
def Same : Kind → BinaryValue → BinaryValue → Prop
  | tiny, v, w => v.uint8 = w.uint8
  | short, v, w => v.uint16 = w.uint16
  | long, v, w => v.uint32 = w.uint32
  | longlong, v, w => v.uint64 = w.uint64
  | float, v, w => v.flt = w.flt
  | double, v, w => v.dbl = w.dbl
  | year, v, w => v.year = w.year
  | time, v, w => v.time = w.time
  | date, v, w => v.date = w.date
  | str, v, w => v.str = w.str
  | null, _, _ => True

/-- `out`, with that member taken from `v`. -/
def store (v out : BinaryValue) : Kind → BinaryValue
  | tiny => { out with uint8 := v.uint8 }
  | short => { out with uint16 := v.uint16 }
  | long => { out with uint32 := v.uint32 }
  | longlong => { out with uint64 := v.uint64 }
  | float => { out with flt := v.flt }
  | double => { out with dbl := v.dbl }
  | year => { out with year := v.year }
  | time => { out with time := v.time }
  | date => { out with date := v.date }
  | str => { out with str := v.str }
  | null => out

theorem same_store (k : Kind) (v out : BinaryValue) : k.Same v (k.store v out) := by
  cases k <;> first | rfl | trivial

theorem store_frame (k : Kind) (v out : BinaryValue) :
    (k.store v out).is_null = out.is_null ∧ (k.store v out).type = out.type ∧
      (k.store v out).is_unsigned = out.is_unsigned := by
  cases k <;> exact ⟨rfl, rfl, rfl⟩

/-- The bytes a server may send for the member of `v`. -/
def Encodes : Kind → BinaryValue → List UInt8 → Prop
  | tiny, v, bs => bs = [v.uint8]
  | short, v, bs => bs = leBytes 2 v.uint16.toNat
  | long, v, bs => bs = leBytes 4 v.uint32.toNat
  | longlong, v, bs => bs = leBytes 8 v.uint64.toNat
  | float, v, bs => bs = leBytes 4 v.flt.toNat
  | double, v, bs => bs = leBytes 8 v.dbl.toNat
  | year, v, bs => bs = leBytes 2 v.year.toNat
  | time, v, bs => ∃ form : TimeForm, form.Fits v.time ∧ bs = form.bytes v.time
  | date, v, bs => ∃ form : DateForm, form.Fits v.date ∧ bs = form.bytes v.date
  | str, v, bs => v.str.length < 2 ^ 64 ∧ bs = lenencBytes v.str
  | null, _, _ => False

/-- The branch of the parser's switch. -/
def parse (out : BinaryValue) : Kind → Proc Code Reader BinaryValue
  | tiny => do let uint8 ← Reader.getUint8; pure { out with uint8 }
  | short => do let uint16 ← Reader.getUint16; pure { out with uint16 }
  | long => do let uint32 ← Reader.getUint32; pure { out with uint32 }
  | longlong => do let uint64 ← Reader.getUint64; pure { out with uint64 }
  | float => do let flt ← Reader.getFloat; pure { out with flt }
  | double => do let dbl ← Reader.getDouble; pure { out with dbl }
  | year => do let year ← Reader.getUint16; pure { out with year }
  | time => do let time ← parseTime; pure { out with time }
  | date => do let date ← parseDate; pure { out with date }
  | str => do let str ← Reader.getLenencBuffer; pure { out with str }
  | null => throw .unknownType

/-- The branch of the builder's switch. -/
def write (alloc : Alloc) (v : BinaryValue) : Kind → Proc Code Builder Unit
  | tiny => writeUint8 alloc v.uint8
  | short => writeUint16 alloc v.uint16
  | long => writeUint32 alloc v.uint32
  | longlong => writeUint64 alloc v.uint64
  | float => writeFloat alloc v.flt
  | double => writeDouble alloc v.dbl
  | year => writeUint16 alloc v.year
  | time => writeTime alloc v.time
  | date => writeDate alloc v.date
  | str => writeLenencBuffer alloc v.str
  | null => pure ()

/-- A wire form of the member is read back as it. -/
theorem reads_parse {k : Kind} {v out : BinaryValue} {bs : List UInt8} (h : k.Encodes v bs)
    (tail : List UInt8) : Cursor.Reads (k.parse out) (bs ++ tail) (.ok (k.store v out)) tail := by
  cases k with
  | tiny =>
    cases h
    exact .bind (Reader.reads_getUint8 _ _) (.pure _ _)
  | short =>
    cases h
    refine .bind (Reader.reads_getUint16 _ _) ?_
    rw [UInt16.ofNat_toNat]
    exact .pure _ _
  | long =>
    cases h
    refine .bind (Reader.reads_getUint32 _ _) ?_
    rw [UInt32.ofNat_toNat]
    exact .pure _ _
  | longlong =>
    cases h
    refine .bind (Reader.reads_getUint64 _ _) ?_
    rw [UInt64.ofNat_toNat]
    exact .pure _ _
  | float =>
    cases h
    refine .bind (Reader.reads_getFloat _ _) ?_
    rw [UInt32.ofNat_toNat]
    exact .pure _ _
  | double =>
    cases h
    refine .bind (Reader.reads_getDouble _ _) ?_
    rw [UInt64.ofNat_toNat]
    exact .pure _ _
  | year =>
    cases h
    refine .bind (Reader.reads_getUint16 _ _) ?_
    rw [UInt16.ofNat_toNat]
    exact .pure _ _
  | time =>
    obtain ⟨form, fits, rfl⟩ := h
    exact .bind (reads_parseTime fits tail) (.pure _ _)
  | date =>
    obtain ⟨form, fits, rfl⟩ := h
    exact .bind (reads_parseDate fits tail) (.pure _ _)
  | str =>
    obtain ⟨hlen, rfl⟩ := h
    exact .bind (Reader.reads_getLenencBuffer hlen tail) (.pure _ _)
  | null => exact absurd h id

end Kind

theorem parseMember_kind {type : UInt8} {t : TypeT} (h : TypeT.ofCode type = some t)
    (out : BinaryValue) : parseMember type out = t.kind.parse out := by
  unfold parseMember
  rw [h]
  cases t <;> rfl

theorem writeValue_kind (alloc : Alloc) {v : BinaryValue} {t : TypeT}
    (h : TypeT.ofCode v.type = some t) : writeValue alloc v = t.kind.write alloc v := by
  unfold writeValue
  rw [h]
  cases t <;> rfl

/-- The form the builder chooses: by the last field that is not zero. -/
def dateForm (d : DateValue) : DateForm :=
  if d.micro_seconds ≠ 0 then .micro
  else if d.hour ≠ 0 ∨ d.minute ≠ 0 ∨ d.second ≠ 0 then .second
  else if d.year ≠ 0 ∨ d.month ≠ 0 ∨ d.day ≠ 0 then .day
  else .empty

theorem dateForm_fits (d : DateValue) : (dateForm d).Fits d := by
  unfold dateForm
  split
  · trivial
  · rename_i hm
    have hm := not_not.mp hm
    split
    · exact hm
    · rename_i ht
      simp only [not_or, not_not] at ht
      obtain ⟨hh, hmin, hs⟩ := ht
      split
      · simp only [DateForm.Fits]
        rw [← hm, ← hh]
        cases d
        simp_all
      · rename_i hd
        simp only [not_or, not_not] at hd
        obtain ⟨hy, hmon, hday⟩ := hd
        cases d
        simp_all [DateForm.Fits]

/-- The builder looks at every field of a time but its days. -/
def timeForm (t : TimeValue) : TimeForm :=
  if t.micro_seconds ≠ 0 then .micro
  else if t.hour ≠ 0 ∨ t.minute ≠ 0 ∨ t.second ≠ 0 then .second
  else .empty

/-- Nothing but days: what the builder leaves out. -/
def DaysOnly (t : TimeValue) : Prop :=
  t.days ≠ 0 ∧ t.hour = 0 ∧ t.minute = 0 ∧ t.second = 0 ∧ t.micro_seconds = 0

instance (t : TimeValue) : Decidable (DaysOnly t) := by
  unfold DaysOnly
  infer_instance

/-- A zero time has no sign. -/
def Signed (t : TimeValue) : Prop :=
  t.days = 0 → t.hour = 0 → t.minute = 0 → t.second = 0 → t.micro_seconds = 0 →
    t.is_negative = false

theorem timeForm_fits {t : TimeValue} (hs : Signed t) : (timeForm t).Fits t ↔ ¬ DaysOnly t := by
  unfold timeForm
  split
  · rename_i hm
    simp only [TimeForm.Fits, DaysOnly, true_iff]
    rintro ⟨-, -, -, -, h⟩
    exact hm h
  · rename_i hm
    have hm := not_not.mp hm
    split
    · rename_i ht
      simp only [TimeForm.Fits, hm, DaysOnly, true_iff]
      rintro ⟨-, hh, hmin, hsec, -⟩
      simp [hh, hmin, hsec] at ht
    · rename_i ht
      simp only [not_or, not_not] at ht
      obtain ⟨hh, hmin, hsec⟩ := ht
      simp only [TimeForm.Fits, DaysOnly, hh, hmin, hsec, hm, and_true, not_not]
      constructor
      · rintro rfl
        rfl
      · intro hd
        have hneg := hs hd hh hmin hsec hm
        cases t
        simp_all

theorem timeForm_daysOnly {t : TimeValue} (h : DaysOnly t) : timeForm t = .empty := by
  obtain ⟨-, hh, hmin, hsec, hm⟩ := h
  simp [timeForm, hh, hmin, hsec, hm]

def kindBytes (v : BinaryValue) : Kind → List UInt8
  | .tiny => [v.uint8]
  | .short => leBytes 2 v.uint16.toNat
  | .long => leBytes 4 v.uint32.toNat
  | .longlong => leBytes 8 v.uint64.toNat
  | .float => leBytes 4 v.flt.toNat
  | .double => leBytes 8 v.dbl.toNat
  | .year => leBytes 2 v.year.toNat
  | .time => (timeForm v.time).bytes v.time
  | .date => (dateForm v.date).bytes v.date
  | .str => lenenc (v.str.length % 2 ^ 64) ++ v.str
  | .null => []

def valueBytes (v : BinaryValue) : List UInt8 :=
  match TypeT.ofCode v.type with
  | some t => kindBytes v t.kind
  | none => []

theorem valueBytes_kind {v : BinaryValue} {t : TypeT} (h : TypeT.ofCode v.type = some t) :
    valueBytes v = kindBytes v t.kind := by
  rw [valueBytes, h]

end Trilogy
