import Mathlib.Tactic.IntervalCases
import Trilogy.Accepted
import Trilogy.Charset
import Trilogy.Protocol

/-! `cast.c`. Integers are read digit by digit in 64-bit arithmetic; what is not cast
to anything else is a string in the encoding of its column. `decimalText` is
Lean's own decimal notation with zeros in front of it. -/
namespace Trilogy

open Lib

/-- `CAST_STACK_SIZE` -/
def castStackSize : Nat := 64

structure CastOptions where
  cast : Bool
  cast_booleans : Bool
  database_local_time : Bool
  cast_decimals_to_bigdecimals : Bool

structure ColumnInfo where
  type : UInt8
  charset : UInt16
  len : UInt32
  flags : UInt16
  decimals : UInt8
  deriving DecidableEq, Repr

/-- What `read_query_response` keeps of a column. -/
def columnInfo (column : Column) : ColumnInfo :=
  { type := column.type, charset := column.charset, len := column.len, flags := column.flags
    decimals := column.decimals }

/-- The libc and Ruby functions that a text is handed to. -/
inductive Conversion
  | integer | bigDecimal | strtod | date
  | timestamp (local_time : Bool)
  | time (local_time : Bool)
  deriving DecidableEq

inductive CastValue
  | null
  | bool (b : Bool)
  | integer (num : Int)
  | converted (how : Conversion) (text : List UInt8)
  | string (data : List UInt8) (encoding_index : Int)
  deriving DecidableEq

/-- `unsigned digit = c - '0'`, in `int` and from a signed `char`. -/
def digitOf (c : UInt8) : UInt32 := (c.toInt8.toInt32 - 48).toUInt32

/-- The loop of `ull_from_buf`. -/
def accumulate (val : UInt64) : List UInt8 → UInt64
  | [] => val
  | c :: digits => accumulate (val * 10 + (digitOf c).toUInt64) digits

def ullFromBuf (digits : List UInt8) : UInt64 :=
  if digits.length = 0 then 0 else accumulate 0 digits

/-- `-x`. The least number has no counterpart. -/
def negate (x : Int64) : Except CastStop Int64 :=
  if x = Int64.minValue then .error .overflow else .ok (-x)

def llFromBuf (digits : List UInt8) : Except CastStop Int64 :=
  if digits.length = 0 then .ok 0
  else if digits.getD 0 0 = 0x2d then negate (ullFromBuf (digits.drop 1)).toInt64
  else .ok (ullFromBuf digits).toInt64

/-- `cstr_from_value`, where the text fits the array on the stack. -/
def cstrFromValue (data : List UInt8) (how : Conversion) : Except CastStop CastValue :=
  if data.length > castStackSize - 1 then .error .raised else .ok (.converted how data)

/-- `*(const char *)value->data` -/
def firstByte (data : List UInt8) : Except CastStop UInt8 :=
  match data with
  | [] => .error .behindValue
  | b :: _ => .ok b

def castInteger (data : List UInt8) (column : ColumnInfo) : Except CastStop CastValue :=
  if column.flags &&& columnFlagUnsigned ≠ 0 then .ok (.integer (ullFromBuf data).toNat)
  else do
    let num ← llFromBuf data
    pure (.integer num.toInt)

/-- The switch over the column's type; `none` leaves it for the string below. -/
def castByType (data : List UInt8) (column : ColumnInfo) (options : CastOptions) :
    Except CastStop (Option CastValue) :=
  match TypeT.ofCode column.type with
  | some .bit =>
    if options.cast_booleans ∧ column.len = 1 then do
      let b ← firstByte data
      pure (some (.bool (b = 1)))
    else pure none
  | some .tiny =>
    if options.cast_booleans ∧ column.len = 1 then do
      let b ← firstByte data
      pure (some (.bool (b ≠ 0x30)))
    else some <$> castInteger data column
  | some .short | some .long | some .longlong | some .int24 | some .year =>
    some <$> castInteger data column
  | some .decimal | some .newdecimal =>
    if column.decimals = 0 ∧ ¬ options.cast_decimals_to_bigdecimals then
      pure (some (.converted .integer data))
    else pure (some (.converted .bigDecimal data))
  | some .float | some .double => some <$> cstrFromValue data .strtod
  | some .timestamp | some .datetime =>
    some <$> cstrFromValue data (.timestamp options.database_local_time)
  | some .date => some <$> cstrFromValue data .date
  | some .time => some <$> cstrFromValue data (.time options.database_local_time)
  | _ => pure none

/-- The state is the cache of `encodingForCharset`. -/
def castValue (findIndex : String → Int) (value : Value) (column : ColumnInfo)
    (options : CastOptions) : Proc CastStop (List Int) CastValue :=
  match value with
  | none => pure .null
  | some data =>
    match (if options.cast then castByType data column options else pure none) with
    | .error stop => throw stop
    | .ok (some cast) => pure cast
    | .ok none => do
      let encoding_index ← encodingForCharset findIndex column.charset.toNat
      pure (.string data encoding_index)

def asciiBytes (cs : List Char) : List UInt8 := cs.map fun c => UInt8.ofNat c.toNat

def decimalText (zeros n : Nat) : List UInt8 :=
  asciiBytes (List.replicate zeros '0' ++ Nat.toDigits 10 n)

/-- Padding stands behind the sign. -/
def signedText (zeros : Nat) (v : Int) : List UInt8 :=
  (if v < 0 then [0x2d] else []) ++ decimalText zeros v.natAbs

/-- Every product and every sum of the loop, as natural numbers. -/
def intermediates (val : UInt64) : List UInt8 → List Nat
  | [] => []
  | c :: digits =>
    val.toNat * 10 :: (val.toNat * 10 + (digitOf c).toNat) ::
      intermediates (val * 10 + (digitOf c).toUInt64) digits

theorem digitOf_digit {c : Char} (h : c.isDigit) :
    (digitOf (UInt8.ofNat c.toNat)).toNat = c.toNat - '0'.toNat ∧ c.toNat - '0'.toNat < 10 := by
  have bounds : 48 ≤ c.toNat ∧ c.toNat ≤ 57 := by
    simpa [Char.isDigit, UInt32.le_iff_toNat_le] using h
  change _ = c.toNat - 48 ∧ c.toNat - 48 < 10
  generalize c.toNat = n at bounds ⊢
  obtain ⟨low, high⟩ := bounds
  constructor
  · interval_cases n <;> rfl
  · omega

theorem le_ofDigitChars (cs : List Char) (init : Nat) : init ≤ Nat.ofDigitChars 10 cs init := by
  rw [Nat.ofDigitChars_eq_ofDigitChars_zero]
  have : 1 * init ≤ 10 ^ cs.length * init := Nat.mul_le_mul_right _ (Nat.one_le_pow _ _ (by decide))
  omega

/-- The accumulated value only grows, so it is enough that the last one fits. -/
theorem accumulate_digits {cs : List Char} (digits : ∀ c ∈ cs, c.isDigit) (val : UInt64)
    (fits : Nat.ofDigitChars 10 cs val.toNat < 2 ^ 64) :
    (accumulate val (asciiBytes cs)).toNat = Nat.ofDigitChars 10 cs val.toNat ∧
      ∀ x ∈ intermediates val (asciiBytes cs), x < 2 ^ 64 := by
  induction cs generalizing val with
  | nil =>
    constructor
    · rfl
    · intro x hx
      cases hx
  | cons c cs ih =>
    obtain ⟨hdigit, small⟩ := digitOf_digit (digits c List.mem_cons_self)
    rw [Nat.ofDigitChars_cons] at fits ⊢
    have step : 10 * val.toNat + (c.toNat - '0'.toNat) < 2 ^ 64 :=
      Nat.lt_of_le_of_lt (le_ofDigitChars cs _) fits
    have hnext : (val * 10 + (digitOf (UInt8.ofNat c.toNat)).toUInt64).toNat =
        10 * val.toNat + (c.toNat - '0'.toNat) := by
      rw [UInt64.toNat_add, UInt64.toNat_mul, UInt32.toNat_toUInt64, hdigit]
      change (val.toNat * 10 % 2 ^ 64 + _) % 2 ^ 64 = _
      omega
    rw [← hnext] at fits ⊢
    obtain ⟨value, inside⟩ := ih (fun c hc => digits c (List.mem_cons_of_mem _ hc)) _ fits
    refine ⟨value, ?_⟩
    intro x hx
    obtain rfl | hx := List.mem_cons.mp hx
    · omega
    obtain rfl | hx := List.mem_cons.mp hx
    · rw [hdigit]
      omega
    · exact inside x hx

theorem isDigit_of_mem_padded {zeros n : Nat} {c : Char}
    (h : c ∈ List.replicate zeros '0' ++ Nat.toDigits 10 n) : c.isDigit := by
  obtain h | h := List.mem_append.mp h
  · rw [List.eq_of_mem_replicate h]
    rfl
  · exact Nat.isDigit_of_mem_toDigits (by decide) (by decide) h

theorem decimalText_ne_nil (zeros n : Nat) : (decimalText zeros n).length ≠ 0 := by
  have := @Nat.length_toDigits_pos 10 n
  rw [decimalText, asciiBytes, List.length_map, List.length_append]
  omega

/-- `ull_from_buf` is exact, and exact at every step. -/
theorem ullFromBuf_decimalText (zeros : Nat) (u : UInt64) :
    ullFromBuf (decimalText zeros u.toNat) = u ∧
      ∀ x ∈ intermediates 0 (decimalText zeros u.toNat), x < 2 ^ 64 := by
  have hvalue : Nat.ofDigitChars 10 (List.replicate zeros '0' ++ Nat.toDigits 10 u.toNat)
      (0 : UInt64).toNat = u.toNat := by
    rw [Nat.ofDigitChars_append, Nat.ofDigitChars_replicate_zero]
    exact Nat.ofDigitChars_ten_toDigits
  have fits : Nat.ofDigitChars 10 (List.replicate zeros '0' ++ Nat.toDigits 10 u.toNat)
      (0 : UInt64).toNat < 2 ^ 64 := by
    rw [hvalue]
    exact u.toNat_lt
  obtain ⟨value, inside⟩ := accumulate_digits (fun c => isDigit_of_mem_padded) 0 fits
  refine ⟨?_, inside⟩
  rw [ullFromBuf, if_neg (decimalText_ne_nil zeros _)]
  exact UInt64.toNat_inj.mp (value.trans hvalue)

theorem decimalText_ne_minus {zeros n : Nat} {b : UInt8} (h : b ∈ decimalText zeros n) :
    b ≠ 0x2d := by
  obtain ⟨c, hc, rfl⟩ := List.mem_map.mp h
  have bounds : 48 ≤ c.toNat ∧ c.toNat ≤ 57 := by
    simpa [Char.isDigit, UInt32.le_iff_toNat_le] using isDigit_of_mem_padded hc
  intro minus
  have := congrArg UInt8.toNat minus
  rw [UInt8.toNat_ofNat'] at this
  change c.toNat % 256 = 45 at this
  omega

theorem ullFromBuf_natAbs (zeros : Nat) (v : Int64) :
    (ullFromBuf (decimalText zeros v.toInt.natAbs)).toInt64 = Int64.ofNat v.toInt.natAbs := by
  have low := v.le_toInt
  have high := v.toInt_lt
  have small : v.toInt.natAbs < 2 ^ 64 := by omega
  have hu : (UInt64.ofNat v.toInt.natAbs).toNat = v.toInt.natAbs := UInt64.toNat_ofNat_of_lt' small
  have exact := (ullFromBuf_decimalText zeros (UInt64.ofNat v.toInt.natAbs)).1
  rw [hu] at exact
  rw [exact, UInt64.toInt64_ofNat']

/-- The magnitude of the least number is read without loss, and its negation
is the one that overflows. -/
theorem llFromBuf_signedText (zeros : Nat) (v : Int64) :
    llFromBuf (signedText zeros v.toInt) =
      if v = Int64.minValue then .error .overflow else .ok v := by
  by_cases negative : v.toInt < 0
  · have habs : -((v.toInt.natAbs : Int)) = v.toInt := by omega
    have hneg : -Int64.ofNat v.toInt.natAbs = v := by
      rw [Int64.neg_ofNat, habs, Int64.ofInt_toInt]
    have least : Int64.ofNat v.toInt.natAbs = Int64.minValue ↔ v = Int64.minValue := by
      rw [← Int64.neg_inj, hneg]
      rfl
    rw [signedText, if_pos negative, llFromBuf]
    change negate (ullFromBuf (decimalText zeros v.toInt.natAbs)).toInt64 = _
    rw [ullFromBuf_natAbs, negate, hneg]
    simp only [least]
  · have habs : (v.toInt.natAbs : Int) = v.toInt := by omega
    have hv : Int64.ofNat v.toInt.natAbs = v := by
      rw [← Int64.ofInt_eq_ofNat, habs, Int64.ofInt_toInt]
    have more : v ≠ Int64.minValue := by
      rintro rfl
      exact negative (by decide)
    have front : (decimalText zeros v.toInt.natAbs).getD 0 0 ≠ 0x2d := by
      cases htext : decimalText zeros v.toInt.natAbs with
      | nil => exact absurd (congrArg List.length htext) (decimalText_ne_nil _ _)
      | cons b text =>
        apply decimalText_ne_minus
        rw [htext]
        exact List.mem_cons_self
    rw [signedText, if_neg negative, List.nil_append, llFromBuf,
      if_neg (decimalText_ne_nil _ _), if_neg front, ullFromBuf_natAbs, hv, if_neg more]

theorem integer_text_cast_exact (zeros : Nat) (v : Int64) (u : UInt64) :
    (llFromBuf (signedText zeros v.toInt) = .ok v ↔ v ≠ Int64.minValue) ∧
      ullFromBuf (decimalText zeros u.toNat) = u ∧
      ∀ x ∈ intermediates 0 (decimalText zeros u.toNat), x < 2 ^ 64 := by
  refine ⟨?_, ullFromBuf_decimalText zeros u⟩
  rw [llFromBuf_signedText]
  constructor
  · intro read least
    rw [if_pos least] at read
    cases read
  · intro more
    rw [if_neg more]

/-- The text of `-2^63`. -/
theorem least_integer_overflows :
    signedText 0 Int64.minValue.toInt = "-9223372036854775808".toUTF8.toList ∧
      llFromBuf (signedText 0 Int64.minValue.toInt) = .error .overflow := by
  constructor
  · decide +kernel
  · decide +kernel

/-- The integer types but `TINYINT`, which can be a boolean. -/
def integerTypes : List TypeT := [.short, .long, .longlong, .int24, .year]

/-- In an integer column every signed value but one comes out as it was sent. -/
theorem castValue_integer {column : ColumnInfo} {options : CastOptions} {type : TypeT}
    (integer : type ∈ integerTypes) (known : TypeT.ofCode column.type = some type)
    (signed : column.flags &&& columnFlagUnsigned = 0) (casts : options.cast = true)
    (findIndex : String → Int) (zeros : Nat) {v : Int64} (more : v ≠ Int64.minValue)
    (map : List Int) :
    castValue findIndex (some (signedText zeros v.toInt)) column options map =
      (.ok (.integer v.toInt), map) := by
  have hnum : castInteger (signedText zeros v.toInt) column = .ok (.integer v.toInt) := by
    rw [castInteger, if_neg (by rw [signed]; decide), llFromBuf_signedText, if_neg more]
    rfl
  have htype : castByType (signedText zeros v.toInt) column options =
      some <$> castInteger (signedText zeros v.toInt) column := by
    rw [castByType, known]
    simp only [integerTypes, List.mem_cons, List.not_mem_nil, or_false] at integer
    obtain rfl | rfl | rfl | rfl | rfl := integer <;> rfl
  rw [castValue, if_pos casts, htype, hnum]
  rfl

/-- The six strings and the length in front of the collation of a column. -/
def ColumnFront (w : List UInt8) : Prop :=
  ∃ catalog schema table original_table name original_name length : List UInt8,
    (∀ s ∈ [catalog, schema, table, original_table, name, original_name], ∃ d, LenencString d s) ∧
      (∃ n, LenencForm n length) ∧
      w = catalog ++ (schema ++ (table ++ (original_table ++ (name ++ (original_name ++ length)))))

/-- The two bytes of the collation in a column definition. -/
def CharsetBytes (buff : List UInt8) (low high : UInt8) : Prop :=
  ∃ front back, ColumnFront front ∧ buff = front ++ low :: high :: back

/-- No lookup that a column leads to leaves its table: not that of its encoding,
not that of the encoding's name, and not the cache, for any value of the column
and any contents of the cache. -/
structure LookupsInside (column : Column) : Prop where
  charset : column.charset.toNat < charsetToEncodingMap.length
  encoding : ∀ encoding, (encodingFromCharset column.charset.toNat ()).1 = .ok encoding →
    encoding.index < rubyEncodingNameMap.length
  cache : ∀ findIndex value options map, map.length = charsetMax →
    (castValue findIndex value (columnInfo column) options map).1 ≠ .error .outOfBounds

theorem firstByte_ne_outOfBounds (data : List UInt8) : firstByte data ≠ .error .outOfBounds := by
  cases data with
  | nil => decide
  | cons b data =>
    intro h
    cases h

theorem castInteger_ne_outOfBounds (data : List UInt8) (column : ColumnInfo) :
    castInteger data column ≠ .error .outOfBounds := by
  unfold castInteger llFromBuf negate
  split_ifs <;> intro h <;> cases h

theorem cstrFromValue_ne_outOfBounds (data : List UInt8) (how : Conversion) :
    cstrFromValue data how ≠ .error .outOfBounds := by
  unfold cstrFromValue
  split_ifs <;> intro h <;> cases h

theorem map_ne_error {α β : Type} {f : α → β} {m : Except CastStop α} {stop : CastStop}
    (h : m ≠ .error stop) : f <$> m ≠ .error stop := by
  cases m with
  | error e =>
    intro he
    cases he
    exact h rfl
  | ok a =>
    intro he
    cases he

/-- The switch over the types looks nothing up. -/
theorem castByType_ne_outOfBounds (data : List UInt8) (column : ColumnInfo)
    (options : CastOptions) : castByType data column options ≠ .error .outOfBounds := by
  have bool : ∀ p : UInt8 → Bool,
      (do let b ← firstByte data; pure (some (.bool (p b))) : Except CastStop (Option CastValue)) ≠
        .error .outOfBounds := by
    intro p
    exact map_ne_error (f := fun b => some (CastValue.bool (p b))) (firstByte_ne_outOfBounds data)
  have integer := map_ne_error (f := some) (castInteger_ne_outOfBounds data column)
  have text := fun how => map_ne_error (f := some) (cstrFromValue_ne_outOfBounds data how)
  unfold castByType
  split
  case h_1 =>
    split
    · exact bool fun b => b = 1
    · intro h
      cases h
  case h_2 =>
    split
    · exact bool fun b => b ≠ 0x30
    · exact integer
  case h_8 | h_9 =>
    split
    · intro h
      cases h
    · intro h
      cases h
  all_goals first | exact integer | exact text _ | (intro h; cases h)

theorem castValue_inside {column : ColumnInfo} (h : column.charset.toNat < charsetMax)
    (findIndex : String → Int) (value : Value) (options : CastOptions) {map : List Int}
    (size : map.length = charsetMax) :
    (castValue findIndex value column options map).1 ≠ .error .outOfBounds := by
  unfold castValue
  split
  · intro h
    cases h
  · rename_i data
    have switched : (if options.cast then castByType data column options else pure none) ≠
        .error .outOfBounds := by
      split
      · exact castByType_ne_outOfBounds _ _ _
      · intro h
        cases h
    generalize (if options.cast then castByType data column options else pure none) = cast
      at switched ⊢
    split
    · intro h
      cases h
      exact switched rfl
    · intro h
      cases h
    · obtain ⟨index, map', he, -⟩ := encodingForCharset_inside h findIndex size
      rw [Proc.bind_of_ok he]
      intro h
      cases h

theorem leBytes_pair (low high : UInt8) :
    leBytes 2 (low.toNat + 256 * high.toNat) = [low, high] := by
  simpa [ofLeBytes] using leBytes_ofLeBytes [low, high]

/-- A string in front of what is left, and the rest of the run. -/
theorem string_then {α : Type} {s left : List UInt8} (string : ∃ d, LenencString d s)
    {f : List UInt8 → Proc Code Reader α} {c c' : Reader} {a : α} (hp : c.pos ≤ c.buff.length)
    (hc : c.rest = s ++ left) (run : (Reader.getLenencBuffer >>= f) c = (.ok a, c')) :
    ∃ d c₁, c₁.pos ≤ c₁.buff.length ∧ c₁.rest = left ∧ f d c₁ = (.ok a, c') := by
  obtain ⟨d, hd⟩ := string
  exact ⟨d, (Reader.accepts_getLenencBuffer.complete ⟨s, hd, hc⟩).bind_ok hp rfl run⟩

/-- Behind the collation, nothing changes what was read of it. -/
theorem charset_of_tail {field_list : Bool} {column : Column} {c c' : Reader}
    {catalog schema table original_table name original_name : List UInt8} {charset : UInt16}
    (run : (do
      let len ← Reader.getUint32
      let type ← Reader.getUint8
      let flags ← Reader.getUint16
      let decimals ← Reader.getUint8
      let _ ← Reader.getUint16
      let default_value ← (if field_list then Reader.getLenencBuffer else pure [])
      Reader.finish
      pure { catalog, schema, table, original_table, name, original_name, charset, len, type, flags,
             decimals, default_value } : Proc Code Reader Column) c = (.ok column, c')) :
    column.charset = charset := by
  obtain ⟨_, _, -, run⟩ := Proc.bind_ok.mp run
  obtain ⟨_, _, -, run⟩ := Proc.bind_ok.mp run
  obtain ⟨_, _, -, run⟩ := Proc.bind_ok.mp run
  obtain ⟨_, _, -, run⟩ := Proc.bind_ok.mp run
  obtain ⟨_, _, -, run⟩ := Proc.bind_ok.mp run
  obtain ⟨_, _, -, run⟩ := Proc.bind_ok.mp run
  obtain ⟨_, _, -, run⟩ := Proc.bind_ok.mp run
  cases run
  rfl

/-- The collation is where the grammar puts it. -/
theorem charset_of_bytes {field_list : Bool} {buff : List UInt8} {column : Column}
    {low high : UInt8} (accepted : parse (parseColumnPacket field_list) buff = .ok column)
    (h : CharsetBytes buff low high) : column.charset.toNat = low.toNat + 256 * high.toNat := by
  obtain ⟨_, back, ⟨w₁, w₂, w₃, w₄, w₅, w₆, w, strings, ⟨n, length⟩, rfl⟩, hbuff⟩ := h
  simp only [List.append_assoc] at hbuff
  have hc : (Cursor.ofList buff).rest = _ := hbuff
  obtain ⟨_, _, hp, hc, run⟩ := string_then (strings w₁ (by simp)) (Nat.zero_le _) hc
    (Proc.ends accepted)
  obtain ⟨_, _, hp, hc, run⟩ := string_then (strings w₂ (by simp)) hp hc run
  obtain ⟨_, _, hp, hc, run⟩ := string_then (strings w₃ (by simp)) hp hc run
  obtain ⟨_, _, hp, hc, run⟩ := string_then (strings w₄ (by simp)) hp hc run
  obtain ⟨_, _, hp, hc, run⟩ := string_then (strings w₅ (by simp)) hp hc run
  obtain ⟨_, _, hp, hc, run⟩ := string_then (strings w₆ (by simp)) hp hc run
  have hn : (UInt64.ofNat n).toNat = n := UInt64.toNat_ofNat_of_lt' length.lt
  obtain ⟨_, hp, hc, run⟩ :=
    (Reader.accepts_getLenenc.complete ⟨w, hn.symm ▸ length, hc⟩).bind_ok hp rfl run
  have small : low.toNat + 256 * high.toNat < 2 ^ 16 := by
    have := low.toNat_lt
    have := high.toNat_lt
    omega
  have hv : (UInt16.ofNat (low.toNat + 256 * high.toNat)).toNat = low.toNat + 256 * high.toNat :=
    UInt16.toNat_ofNat_of_lt' small
  have pair : low :: high :: back =
      leBytes 2 (UInt16.ofNat (low.toNat + 256 * high.toNat)).toNat ++ back := by
    rw [hv, leBytes_pair]
    rfl
  obtain ⟨_, hp, hc, run⟩ := (Reader.accepts_getUint16.complete (hc.trans pair)).bind_ok hp rfl run
  rw [charset_of_tail run, hv]

/-- Every definition that is accepted has its two bytes of collation. -/
theorem exists_charsetBytes {field_list : Bool} {buff : List UInt8} {column : Column}
    (accepted : parse (parseColumnPacket field_list) buff = .ok column) :
    ∃ low high, CharsetBytes buff low high := by
  obtain ⟨_, _, hp, ⟨w₁, s₁, h₁⟩, run⟩ :=
    Reader.accepts_getLenencBuffer.bind_ok (Nat.zero_le _) (Proc.ends accepted)
  obtain ⟨_, _, hp, ⟨w₂, s₂, h₂⟩, run⟩ := Reader.accepts_getLenencBuffer.bind_ok hp run
  obtain ⟨_, _, hp, ⟨w₃, s₃, h₃⟩, run⟩ := Reader.accepts_getLenencBuffer.bind_ok hp run
  obtain ⟨_, _, hp, ⟨w₄, s₄, h₄⟩, run⟩ := Reader.accepts_getLenencBuffer.bind_ok hp run
  obtain ⟨_, _, hp, ⟨w₅, s₅, h₅⟩, run⟩ := Reader.accepts_getLenencBuffer.bind_ok hp run
  obtain ⟨_, _, hp, ⟨w₆, s₆, h₆⟩, run⟩ := Reader.accepts_getLenencBuffer.bind_ok hp run
  obtain ⟨_, _, hp, ⟨w, length, h⟩, run⟩ := Reader.accepts_getLenenc.bind_ok hp run
  obtain ⟨v, c, hp, hv, run⟩ := Reader.accepts_getUint16.bind_ok hp run
  refine ⟨UInt8.ofNat v.toNat, UInt8.ofNat (v.toNat / 256), _, c.rest,
    ⟨w₁, w₂, w₃, w₄, w₅, w₆, w, ?_, ⟨_, length⟩, rfl⟩, ?_⟩
  · simp only [List.mem_cons, List.not_mem_nil, or_false]
    rintro s (rfl | rfl | rfl | rfl | rfl | rfl)
    · exact ⟨_, s₁⟩
    · exact ⟨_, s₂⟩
    · exact ⟨_, s₃⟩
    · exact ⟨_, s₄⟩
    · exact ⟨_, s₅⟩
    · exact ⟨_, s₆⟩
  · change buff = _ at h₁
    rw [h₁, h₂, h₃, h₄, h₅, h₆, h, hv]
    simp only [List.append_assoc]
    rfl

theorem lookupsInside_iff (column : Column) :
    LookupsInside column ↔ column.charset.toNat < charsetMax := by
  constructor
  · intro inside
    rw [← length_charsetToEncodingMap]
    exact inside.charset
  · intro h
    constructor
    · rw [length_charsetToEncodingMap]
      exact h
    · intro encoding _
      exact encoding_has_name encoding
    · intro findIndex value options map size
      exact castValue_inside h findIndex value options size

theorem charset_lookups_inside {field_list : Bool} {buff : List UInt8} {column : Column}
    (accepted : parse (parseColumnPacket field_list) buff = .ok column) :
    (∃ low high, CharsetBytes buff low high) ∧
      ∀ low high, CharsetBytes buff low high → (LookupsInside column ↔ high = 0) := by
  refine ⟨exists_charsetBytes accepted, ?_⟩
  intro low high h
  have := low.toNat_lt
  rw [lookupsInside_iff, charset_of_bytes accepted h, ← UInt8.toNat_inj]
  change _ < 256 ↔ high.toNat = 0
  omega

/-- A column without names, of collation 8. -/
theorem charset_lookups_inside_latin1 :
    let buff : List UInt8 := [0, 0, 0, 0, 0, 0, 12, 8, 0, 1, 0, 0, 0, 0xfd, 0, 0, 0, 0, 0]
    let column : Column :=
      { catalog := [], schema := [], table := [], original_table := [], name := []
        original_name := [], charset := 8, len := 1, type := 0xfd, flags := 0, decimals := 0
        default_value := [] }
    (∃ low high, CharsetBytes buff low high) ∧
      ∀ low high, CharsetBytes buff low high → (LookupsInside column ↔ high = 0) := by
  intro buff column
  have accepted : parse (parseColumnPacket false) buff = .ok column := by decide +kernel
  exact charset_lookups_inside accepted

/-- The same column with collation 309, of a server that knows more of them. -/
theorem charset_lookup_outside :
    let buff : List UInt8 := [0, 0, 0, 0, 0, 0, 12, 0x35, 1, 1, 0, 0, 0, 0xfd, 0, 0, 0, 0, 0]
    ∃ column, parse (parseColumnPacket false) buff = .ok column ∧ column.charset = 309 ∧
      (castValue (fun _ => 1) (some [0x61]) (columnInfo column) ⟨true, false, false, false⟩
        (List.replicate charsetMax 0)).1 = .error .outOfBounds ∧ ¬ LookupsInside column := by
  refine ⟨_, rfl, rfl, rfl, ?_⟩
  rw [lookupsInside_iff]
  decide

end Trilogy
