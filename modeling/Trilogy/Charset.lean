import Trilogy.Lib.Proc

/-! `charset.c` and the lookup of `cast.c`. Both tables are C arrays with designated
initializers, so they end with the largest index that is named. -/
namespace Trilogy

open Lib

/-- `TRILOGY_CHARSET_MAX`, one more than the last collation in the list. -/
def charsetMax : Nat := 256

inductive Encoding
  | none | big5 | latin2 | dec8 | cp850 | latin1 | hp8 | koi8r | swe7 | ascii | ujis | sjis | cp1251
  | hebrew | tis620 | euckr | latin7 | koi8u | gb2312 | greek | cp1250 | gbk | cp1257 | latin5
  | armscii8 | utf8 | ucs2 | cp866 | keybcs2 | macce | macroman | cp852 | utf8mb4 | utf16 | cp1256
  | utf32 | binary | geostd8 | cp932 | eucjpms
  deriving DecidableEq, Repr

namespace Encoding

def all : List Encoding :=
  [none, big5, latin2, dec8, cp850, latin1, hp8, koi8r, swe7, ascii, ujis, sjis, cp1251, hebrew,
    tis620, euckr, latin7, koi8u, gb2312, greek, cp1250, gbk, cp1257, latin5, armscii8, utf8, ucs2,
    cp866, keybcs2, macce, macroman, cp852, utf8mb4, utf16, cp1256, utf32, binary, geostd8, cp932,
    eucjpms]

/-- The value of the enumerator. -/
def index (e : Encoding) : Nat := all.idxOf e

end Encoding

/-- `TRILOGY_ENCODING_MAX` -/
def encodingMax : Nat := Encoding.all.length

/-- `{ [i] = v, ... }`: as long as it has to be, and zero where nothing is said. -/
def designated {α : Type} (zero : α) (entries : List (Nat × α)) : List α :=
  entries.foldl (fun table entry => table.set entry.1 entry.2)
    (List.replicate (entries.foldl (fun n entry => max n (entry.1 + 1)) 0) zero)

/-- The collations of each encoding, by their numbers, in the order of the source. -/
def collations : List (Encoding × List Nat) :=
  [(.none, [0]), (.big5, [1, 84]), (.latin2, [2, 9, 21, 27, 77]), (.dec8, [3, 69]),
    (.cp850, [4, 80]), (.latin1, [5, 8, 15, 31, 47, 48, 49, 94]), (.hp8, [6, 72]),
    (.koi8r, [7, 74]), (.swe7, [10, 82]), (.ascii, [11, 65]), (.ujis, [12, 91]), (.sjis, [13, 88]),
    (.cp1251, [14, 23, 50, 51, 52]), (.hebrew, [16, 71]), (.tis620, [18, 89]), (.euckr, [19, 85]),
    (.latin7, [20, 41, 42, 79]), (.koi8u, [22, 75]), (.gb2312, [24, 86]), (.greek, [25, 70]),
    (.cp1250, [26, 34, 44, 66, 99]), (.gbk, [28, 87, 248, 249, 250]), (.cp1257, [29, 58, 59]),
    (.latin5, [30, 78]), (.armscii8, [32, 64]),
    (.utf8, [33, 83, 192, 193, 194, 195, 196, 197, 198, 199, 200, 201, 202, 203, 204, 205, 206, 207,
      208, 209, 210, 211, 223]),
    (.ucs2, [35, 90, 128, 129, 130, 131, 132, 133, 134, 135, 136, 137, 138, 139, 140, 141, 142, 143,
      144, 145, 146, 147, 159]),
    (.cp866, [36, 68]), (.keybcs2, [37, 73]), (.macce, [38, 43]), (.macroman, [39, 53]),
    (.cp852, [40, 81]),
    (.utf8mb4, [45, 46, 224, 225, 226, 227, 228, 229, 230, 231, 232, 233, 234, 235, 236, 237, 238, 239,
      240, 241, 242, 243, 244, 245, 246, 247, 255]),
    (.utf16, [54, 55, 101, 102, 103, 104, 105, 106, 107, 108, 109, 110, 111, 112, 113, 114, 115, 116,
      117, 118, 119, 120]),
    (.cp1256, [57, 67]),
    (.utf32, [60, 61, 160, 161, 162, 163, 164, 165, 166, 167, 168, 169, 170, 171, 172, 173, 174, 175,
      176, 177, 178, 179]),
    (.binary, [63]), (.geostd8, [92, 93]), (.cp932, [95, 96]), (.eucjpms, [97, 98])]

def charsetToEncodingMap : List Encoding :=
  designated .none (collations.flatMap fun row => row.2.map (·, row.1))

def rubyEncodingNames : List (Encoding × Option String) :=
  [(.armscii8, none), (.ascii, some "US-ASCII"), (.big5, some "Big5"), (.binary, some "BINARY"),
    (.cp1250, some "Windows-1250"), (.cp1251, some "Windows-1251"), (.cp1256, some "Windows-1256"),
    (.cp1257, some "Windows-1257"), (.cp850, some "CP850"), (.cp852, some "CP852"),
    (.cp866, some "IBM866"), (.cp932, some "Windows-31J"), (.dec8, none),
    (.eucjpms, some "eucJP-ms"), (.euckr, some "EUC-KR"), (.gb2312, some "GB2312"),
    (.gbk, some "GBK"), (.geostd8, none), (.greek, some "ISO-8859-7"), (.hebrew, some "ISO-8859-8"),
    (.hp8, none), (.keybcs2, none), (.koi8r, some "KOI8-R"), (.koi8u, some "KOI8-U"),
    (.latin1, some "UTF-8"), (.latin2, some "ISO-8859-2"), (.latin5, some "ISO-8859-9"),
    (.latin7, some "ISO-8859-13"), (.macce, some "macCentEuro"), (.macroman, some "macRoman"),
    (.none, none), (.sjis, some "Shift_JIS"), (.swe7, none), (.tis620, some "TIS-620"),
    (.ucs2, some "UTF-16BE"), (.ujis, some "eucJP-ms"), (.utf16, some "UTF-16BE"),
    (.utf32, some "UTF-32"), (.utf8, some "UTF-8"), (.utf8mb4, some "UTF-8")]

def rubyEncodingNameMap : List (Option String) :=
  designated none (rubyEncodingNames.map (fun row => (row.1.index, row.2)) ++ [(encodingMax, none)])

/-- What a cast can stop with. Only `raised` is an outcome that the code names. -/
inductive CastStop
  /-- An index beyond the end of a table. -/
  | outOfBounds
  /-- An operation on signed numbers whose result has no representation. -/
  | overflow
  /-- The byte behind a value that has none. -/
  | behindValue
  /-- `Trilogy_CastError` -/
  | raised
  deriving DecidableEq, Repr

/-- `table[i]` -/
def tableAt {σ α : Type} (table : List α) (i : Nat) : Proc CastStop σ α :=
  match table[i]? with
  | some a => pure a
  | none => throw .outOfBounds

def encodingFromCharset {σ : Type} (charset : Nat) : Proc CastStop σ Encoding :=
  tableAt charsetToEncodingMap charset

/-- The state is the static `map`; `findIndex` is `rb_enc_find_index`. -/
def encodingForCharset (findIndex : String → Int) (charset : Nat) : Proc CastStop (List Int) Int := do
  let map ← get
  let known ← tableAt map charset
  if known ≠ 0 then pure known
  else do
    let encoding ← encodingFromCharset charset
    let encoding_name ← tableAt rubyEncodingNameMap encoding.index
    let index := match encoding_name with
      | some name => findIndex name
      | none => -1
    set (map.set charset index)
    pure index

theorem length_designated {α : Type} (zero : α) (entries : List (Nat × α)) :
    (designated zero entries).length = entries.foldl (fun n entry => max n (entry.1 + 1)) 0 := by
  have hset : ∀ (table : List α),
      (entries.foldl (fun table entry => table.set entry.1 entry.2) table).length =
        table.length := by
    induction entries with
    | nil => exact fun _ => rfl
    | cons entry entries ih =>
      intro table
      rw [List.foldl_cons, ih, List.length_set]
  rw [designated, hset, List.length_replicate]

theorem length_charsetToEncodingMap : charsetToEncodingMap.length = charsetMax := by
  rw [charsetToEncodingMap, length_designated]
  decide +kernel

theorem length_rubyEncodingNameMap : rubyEncodingNameMap.length = encodingMax + 1 := by
  rw [rubyEncodingNameMap, length_designated]
  decide +kernel

theorem Encoding.index_lt (e : Encoding) : e.index < encodingMax :=
  List.idxOf_lt_length_of_mem (by cases e <;> decide)

/-- The table of names has one for every encoding there is. -/
theorem encoding_has_name (e : Encoding) : e.index < rubyEncodingNameMap.length := by
  have := e.index_lt
  rw [length_rubyEncodingNameMap]
  omega

theorem tableAt_of_lt {σ α : Type} {table : List α} {i : Nat} (h : i < table.length) (s : σ) :
    tableAt table i s = (.ok table[i], s) := by
  rw [tableAt, List.getElem?_eq_getElem h]
  rfl

theorem tableAt_of_le {σ α : Type} {table : List α} {i : Nat} (h : table.length ≤ i) (s : σ) :
    tableAt table i s = (.error .outOfBounds, s) := by
  rw [tableAt, List.getElem?_eq_none h]
  rfl

/-- Every collation below the maximum has an encoding, and every other none. -/
theorem encodingFromCharset_of_lt {σ : Type} {charset : Nat} (h : charset < charsetMax) (s : σ) :
    ∃ encoding, encodingFromCharset charset s = (.ok encoding, s) :=
  ⟨_, tableAt_of_lt (by rw [length_charsetToEncodingMap]; exact h) s⟩

/-- A collation below the maximum is looked up inside all three tables, and the
cache stays as long as it is. -/
theorem encodingForCharset_inside {charset : Nat} (h : charset < charsetMax)
    (findIndex : String → Int) {map : List Int} (size : map.length = charsetMax) :
    ∃ index map', encodingForCharset findIndex charset map = (.ok index, map') ∧
      map'.length = charsetMax := by
  have known : charset < map.length := by omega
  obtain ⟨encoding, he⟩ := encodingFromCharset_of_lt h map
  rw [encodingForCharset, Proc.get_bind, Proc.bind_of_ok (tableAt_of_lt known _)]
  split
  · exact ⟨_, map, rfl, size⟩
  · rw [Proc.bind_of_ok he, Proc.bind_of_ok (tableAt_of_lt (encoding_has_name encoding) _)]
    refine ⟨_, _, rfl, ?_⟩
    rw [List.length_set, size]

theorem encodingForCharset_outside {charset : Nat} (h : charsetMax ≤ charset)
    (findIndex : String → Int) {map : List Int} (size : map.length = charsetMax) :
    encodingForCharset findIndex charset map = (.error .outOfBounds, map) := by
  rw [encodingForCharset, Proc.get_bind, Proc.bind_of_error (tableAt_of_le (by omega) _)]

end Trilogy
