import Trilogy.Lib.Bytes
import Trilogy.Lib.Cursor
import Trilogy.Framing

/-! `reader.c`. A pointer into the packet is the bytes it points at. -/
namespace Trilogy

open Lib

abbrev Reader := Cursor UInt8

namespace Reader

/-- `CHECK`. The difference is one of unsigned numbers, so `pos` must not be
beyond the end. -/
def check (bytes : Nat) : Proc Code Reader Unit := do
  Cursor.mark fun r => (r.pos, r.buff.length + 1)
  let r ← get
  if bytes > r.buff.length - r.pos then throw .truncatedPacket else pure ()

/-- `next_uint8` -/
def nextUint8 : Proc Code Reader UInt8 := fun r =>
  (.ok (r.buff.getD r.pos 0), r.step)

def getUint8 : Proc Code Reader UInt8 := do
  check 1
  nextUint8

def getUint16 : Proc Code Reader UInt16 := do
  check 2
  let a ← nextUint8
  let b ← nextUint8
  pure (a.toUInt16 ||| b.toUInt16 <<< 8)

def getUint24 : Proc Code Reader UInt32 := do
  check 3
  let a ← nextUint8
  let b ← nextUint8
  let c ← nextUint8
  pure (a.toUInt32 ||| b.toUInt32 <<< 8 ||| c.toUInt32 <<< 16)

def getUint32 : Proc Code Reader UInt32 := do
  check 4
  let a ← nextUint8
  let b ← nextUint8
  let c ← nextUint8
  let d ← nextUint8
  pure (a.toUInt32 ||| b.toUInt32 <<< 8 ||| c.toUInt32 <<< 16 ||| d.toUInt32 <<< 24)

def getUint64 : Proc Code Reader UInt64 := do
  check 8
  let a ← nextUint8
  let b ← nextUint8
  let c ← nextUint8
  let d ← nextUint8
  let e ← nextUint8
  let f ← nextUint8
  let g ← nextUint8
  let h ← nextUint8
  pure (a.toUInt64 ||| b.toUInt64 <<< 8 ||| c.toUInt64 <<< 16 ||| d.toUInt64 <<< 24 |||
    e.toUInt64 <<< 32 ||| f.toUInt64 <<< 40 ||| g.toUInt64 <<< 48 ||| h.toUInt64 <<< 56)

/-- The bit pattern of the `float`. -/
def getFloat : Proc Code Reader UInt32 := do
  check 4
  getUint32

def getDouble : Proc Code Reader UInt64 := do
  check 8
  getUint64

def getLenenc : Proc Code Reader UInt64 := do
  check 1
  let leader ← nextUint8
  if leader < 0xfb then pure leader.toUInt64
  else if leader = 0xfb then throw .nullValue
  else if leader = 0xfc then do
    let u16 ← getUint16
    pure u16.toUInt64
  else if leader = 0xfd then do
    let u24 ← getUint24
    pure u24.toUInt64
  else if leader = 0xfe then getUint64
  else throw .protocolViolation

/-- The pointer and the length that are handed out stand for bytes of the packet. -/
def getBuffer (len : Nat) : Proc Code Reader (List UInt8) := do
  check len
  let r ← get
  set (r.advance len)
  pure (r.rest.take len)

/-- `memcpy` to the elements from `start` on, of an array of `size`. -/
def copyBuffer (len start size : Nat) : Proc Code Reader (List UInt8) := do
  let bytes ← getBuffer len
  Cursor.mark fun _ => (start + len, size + 1)
  pure bytes

def getLenencBuffer : Proc Code Reader (List UInt8) := do
  let len ← getLenenc
  let r ← get
  if len.toNat > r.buff.length - r.pos then throw .truncatedPacket
  else getBuffer len.toNat

/-- The bytes in front of the NUL, which is skipped. -/
def getString : Proc Code Reader (List UInt8) := do
  let r ← get
  let len := (r.rest.takeWhile (· ≠ 0)).length
  if len < r.rest.length then do
    set (r.advance (len + 1))
    pure (r.rest.take len)
  else throw .truncatedPacket

/-- `memcpy` of the string that was just read, with its NUL. -/
def copyString (s : List UInt8) (size : Nat) : Proc Code Reader Unit := do
  Cursor.mark fun r => (r.pos, r.buff.length + 1)
  Cursor.mark fun _ => (s.length + 1, size + 1)

def getEofBuffer : Proc Code Reader (List UInt8) := do
  let r ← get
  set (r.advance (r.buff.length - r.pos))
  pure r.rest

def eof : Proc Code Reader Bool := do
  let r ← get
  pure (!decide (r.pos < r.buff.length))

def finish : Proc Code Reader Unit := do
  let r ← get
  if r.pos < r.buff.length then throw .extraDataInPacket else pure ()

theorem reads_check {bytes : Nat} {input : List UInt8} (h : bytes ≤ input.length) :
    Cursor.Reads (check bytes) input (.ok ()) input := by
  refine .bind (.mark _ _) ?_
  rintro c hp rfl
  rw [Cursor.length_rest] at h
  exact ⟨c, by rw [Proc.get_bind, if_neg (by omega)]; rfl, hp, rfl⟩

theorem reads_nextUint8 (b : UInt8) (tail : List UInt8) :
    Cursor.Reads nextUint8 (b :: tail) (.ok b) tail := by
  intro c hp hc
  have hlt : c.pos < c.buff.length := by
    have := c.length_rest
    rw [hc, List.length_cons] at this
    omega
  rw [Cursor.rest, List.drop_eq_getElem_cons hlt] at hc
  obtain ⟨hb, htail⟩ := List.cons.inj hc
  refine ⟨c.step, ?_, hlt, htail⟩
  rw [nextUint8, List.getD_eq_getElem?_getD, List.getElem?_eq_getElem hlt, hb]
  rfl

theorem reads_getUint8 (b : UInt8) (tail : List UInt8) :
    Cursor.Reads getUint8 (b :: tail) (.ok b) tail :=
  .bind (reads_check (by simp)) (reads_nextUint8 b tail)

theorem word16 (a b : UInt8) :
    a.toUInt16 ||| b.toUInt16 <<< 8 = UInt16.ofNat (ofLeBytes [a, b]) := by
  apply UInt16.toNat_inj.mp
  have ha := a.toNat_lt
  have hb := b.toNat_lt
  simp only [UInt16.toNat_or, UInt16.toNat_shiftLeft, UInt8.toNat_toUInt16, UInt16.toNat_ofNat',
    ofLeBytes]
  change _ ||| b.toNat <<< 8 % 2 ^ 16 = _
  rw [or_shiftLeft_mod ha hb (by decide)]
  omega

theorem word24 (a b c : UInt8) :
    a.toUInt32 ||| b.toUInt32 <<< 8 ||| c.toUInt32 <<< 16 = UInt32.ofNat (ofLeBytes [a, b, c]) := by
  apply UInt32.toNat_inj.mp
  have ha := a.toNat_lt
  have hb := b.toNat_lt
  have hc := c.toNat_lt
  simp only [UInt32.toNat_or, UInt32.toNat_shiftLeft, UInt8.toNat_toUInt32, UInt32.toNat_ofNat',
    ofLeBytes]
  change _ ||| b.toNat <<< 8 % 2 ^ 32 ||| c.toNat <<< 16 % 2 ^ 32 = _
  rw [or_shiftLeft_mod ha hb (by decide), or_shiftLeft_mod (by omega) hc (by decide)]
  omega

theorem word32 (a b c d : UInt8) :
    a.toUInt32 ||| b.toUInt32 <<< 8 ||| c.toUInt32 <<< 16 ||| d.toUInt32 <<< 24 =
      UInt32.ofNat (ofLeBytes [a, b, c, d]) := by
  apply UInt32.toNat_inj.mp
  have hd := d.toNat_lt
  have habc := ofLeBytes_lt [a, b, c]
  rw [UInt32.toNat_or, word24, UInt32.toNat_shiftLeft, UInt32.toNat_ofNat', UInt32.toNat_ofNat',
    UInt8.toNat_toUInt32]
  change _ ||| d.toNat <<< 24 % 2 ^ 32 = _
  simp only [ofLeBytes, List.length_cons, List.length_nil] at habc ⊢
  rw [Nat.mod_eq_of_lt (by omega), or_shiftLeft_mod (by omega) hd (by decide)]
  omega

theorem word64 (a b c d e f g h : UInt8) :
    a.toUInt64 ||| b.toUInt64 <<< 8 ||| c.toUInt64 <<< 16 ||| d.toUInt64 <<< 24 |||
      e.toUInt64 <<< 32 ||| f.toUInt64 <<< 40 ||| g.toUInt64 <<< 48 ||| h.toUInt64 <<< 56 =
      UInt64.ofNat (ofLeBytes [a, b, c, d, e, f, g, h]) := by
  apply UInt64.toNat_inj.mp
  have ha := a.toNat_lt
  have hb := b.toNat_lt
  have hc := c.toNat_lt
  have hd := d.toNat_lt
  have he := e.toNat_lt
  have hf := f.toNat_lt
  have hg := g.toNat_lt
  have hh := h.toNat_lt
  simp only [UInt64.toNat_or, UInt64.toNat_shiftLeft, UInt8.toNat_toUInt64, UInt64.toNat_ofNat',
    ofLeBytes]
  change _ ||| b.toNat <<< 8 % 2 ^ 64 ||| c.toNat <<< 16 % 2 ^ 64 ||| d.toNat <<< 24 % 2 ^ 64 |||
    e.toNat <<< 32 % 2 ^ 64 ||| f.toNat <<< 40 % 2 ^ 64 ||| g.toNat <<< 48 % 2 ^ 64 |||
    h.toNat <<< 56 % 2 ^ 64 = _
  rw [or_shiftLeft_mod ha hb (by decide), or_shiftLeft_mod (by omega) hc (by decide),
    or_shiftLeft_mod (by omega) hd (by decide), or_shiftLeft_mod (by omega) he (by decide),
    or_shiftLeft_mod (by omega) hf (by decide), or_shiftLeft_mod (by omega) hg (by decide),
    or_shiftLeft_mod (by omega) hh (by decide)]
  omega

theorem reads_getUint16 (n : Nat) (tail : List UInt8) :
    Cursor.Reads getUint16 (leBytes 2 n ++ tail) (.ok (UInt16.ofNat n)) tail := by
  have hn : UInt16.ofNat (ofLeBytes (leBytes 2 n)) = UInt16.ofNat n := by
    rw [ofLeBytes_leBytes]
    exact UInt16.ofNat_mod_size
  rw [← hn]
  refine .bind (reads_check (by simp)) (.bind (reads_nextUint8 _ _) (.bind (reads_nextUint8 _ _) ?_))
  rw [word16]
  exact .pure _ _

theorem reads_getUint24 (n : Nat) (tail : List UInt8) :
    Cursor.Reads getUint24 (leBytes 3 n ++ tail) (.ok (UInt32.ofNat (n % 2 ^ 24))) tail := by
  have hn : ofLeBytes (leBytes 3 n) = n % 2 ^ 24 := ofLeBytes_leBytes 3 n
  rw [← hn]
  refine .bind (reads_check (by simp)) (.bind (reads_nextUint8 _ _) (.bind (reads_nextUint8 _ _)
    (.bind (reads_nextUint8 _ _) ?_)))
  rw [word24]
  exact .pure _ _

theorem reads_getUint32 (n : Nat) (tail : List UInt8) :
    Cursor.Reads getUint32 (leBytes 4 n ++ tail) (.ok (UInt32.ofNat n)) tail := by
  have hn : UInt32.ofNat (ofLeBytes (leBytes 4 n)) = UInt32.ofNat n := by
    rw [ofLeBytes_leBytes]
    exact UInt32.ofNat_mod_size
  rw [← hn]
  refine .bind (reads_check (by simp)) (.bind (reads_nextUint8 _ _) (.bind (reads_nextUint8 _ _)
    (.bind (reads_nextUint8 _ _) (.bind (reads_nextUint8 _ _) ?_))))
  rw [word32]
  exact .pure _ _

theorem reads_getUint64 (n : Nat) (tail : List UInt8) :
    Cursor.Reads getUint64 (leBytes 8 n ++ tail) (.ok (UInt64.ofNat n)) tail := by
  have hn : UInt64.ofNat (ofLeBytes (leBytes 8 n)) = UInt64.ofNat n := by
    rw [ofLeBytes_leBytes]
    exact UInt64.ofNat_mod_size
  rw [← hn]
  refine .bind (reads_check (by simp)) (.bind (reads_nextUint8 _ _) (.bind (reads_nextUint8 _ _)
    (.bind (reads_nextUint8 _ _) (.bind (reads_nextUint8 _ _) (.bind (reads_nextUint8 _ _)
    (.bind (reads_nextUint8 _ _) (.bind (reads_nextUint8 _ _) (.bind (reads_nextUint8 _ _)
    ?_))))))))
  rw [word64]
  exact .pure _ _

theorem reads_getFloat (n : Nat) (tail : List UInt8) :
    Cursor.Reads getFloat (leBytes 4 n ++ tail) (.ok (UInt32.ofNat n)) tail :=
  .bind (reads_check (by simp)) (reads_getUint32 n tail)

theorem reads_getDouble (n : Nat) (tail : List UInt8) :
    Cursor.Reads getDouble (leBytes 8 n ++ tail) (.ok (UInt64.ofNat n)) tail :=
  .bind (reads_check (by simp)) (reads_getUint64 n tail)

theorem reads_getLenenc_null (tail : List UInt8) :
    Cursor.Reads getLenenc (0xfb :: tail) (.error .nullValue) tail :=
  .bind (reads_check (by simp)) (.bind (reads_nextUint8 _ _) (.throw _ _))

theorem reads_wide16 {n : Nat} (h : n < 2 ^ 16) (tail : List UInt8) :
    Cursor.Reads (do let u16 ← getUint16; pure u16.toUInt64) (leBytes 2 n ++ tail)
      (.ok (UInt64.ofNat n)) tail := by
  refine .bind (reads_getUint16 n tail) ?_
  have hv : (UInt16.ofNat n).toUInt64 = UInt64.ofNat n := by
    apply UInt64.toNat_inj.mp
    rw [UInt16.toNat_toUInt64, UInt16.toNat_ofNat', UInt64.toNat_ofNat']
    omega
  rw [hv]
  exact .pure _ _

theorem reads_wide24 {n : Nat} (h : n < 2 ^ 24) (tail : List UInt8) :
    Cursor.Reads (do let u24 ← getUint24; pure u24.toUInt64) (leBytes 3 n ++ tail)
      (.ok (UInt64.ofNat n)) tail := by
  refine .bind (reads_getUint24 n tail) ?_
  have hv : (UInt32.ofNat (n % 2 ^ 24)).toUInt64 = UInt64.ofNat n := by
    apply UInt64.toNat_inj.mp
    rw [UInt32.toNat_toUInt64, UInt32.toNat_ofNat', UInt64.toNat_ofNat']
    omega
  rw [hv]
  exact .pure _ _

/-- The shortest form of a length reads back. -/
theorem reads_getLenenc {n : Nat} (h : n < 2 ^ 64) (tail : List UInt8) :
    Cursor.Reads getLenenc (lenenc n ++ tail) (.ok (UInt64.ofNat n)) tail := by
  unfold lenenc
  split
  · rename_i h1
    refine .bind (reads_check (by simp)) (.bind (reads_nextUint8 _ _) ?_)
    have hlt : UInt8.ofNat n < 0xfb := by
      rw [UInt8.lt_iff_toNat_lt, UInt8.toNat_ofNat']
      change n % 256 < 251
      omega
    have hv : (UInt8.ofNat n).toUInt64 = UInt64.ofNat n := by
      apply UInt64.toNat_inj.mp
      rw [UInt8.toNat_toUInt64, UInt8.toNat_ofNat', UInt64.toNat_ofNat']
      omega
    rw [if_pos hlt, hv]
    exact .pure _ _
  · split
    · rename_i h2
      exact .bind (reads_check (by simp)) (.bind (reads_nextUint8 _ _) (reads_wide16 (by omega) tail))
    · split
      · rename_i h3
        exact .bind (reads_check (by simp))
          (.bind (reads_nextUint8 _ _) (reads_wide24 (by omega) tail))
      · exact .bind (reads_check (by simp)) (.bind (reads_nextUint8 _ _) (reads_getUint64 n tail))

theorem reads_getBuffer (bs tail : List UInt8) :
    Cursor.Reads (getBuffer bs.length) (bs ++ tail) (.ok bs) tail := by
  refine .bind (reads_check (by simp)) ?_
  intro c hp hc
  have h : bs.length ≤ c.buff.length - c.pos := by
    rw [← c.length_rest, hc, List.length_append]
    omega
  refine ⟨c.advance bs.length, ?_, ?_, by simp [hc]⟩
  · change (Except.ok (c.rest.take bs.length), _) = _
    rw [hc, List.take_left]
  · rw [Cursor.pos_advance, Cursor.buff_advance]
    omega

theorem reads_copyBuffer {bs : List UInt8} {len : Nat} (h : bs.length = len) (start size : Nat)
    (tail : List UInt8) :
    Cursor.Reads (copyBuffer len start size) (bs ++ tail) (.ok bs) tail := by
  subst h
  exact .bind (reads_getBuffer bs tail) (.bind (.mark _ _) (.pure _ _))

theorem reads_getLenencBuffer {bs : List UInt8} (h : bs.length < 2 ^ 64) (tail : List UInt8) :
    Cursor.Reads getLenencBuffer (lenencBytes bs ++ tail) (.ok bs) tail := by
  rw [lenencBytes, List.append_assoc]
  refine .bind (reads_getLenenc h _) ?_
  have hlen : (UInt64.ofNat bs.length).toNat = bs.length := UInt64.toNat_ofNat_of_lt' h
  intro c hp hc
  have hle : ¬ (UInt64.ofNat bs.length).toNat > c.buff.length - c.pos := by
    rw [hlen, ← c.length_rest, hc, List.length_append]
    omega
  rw [Proc.get_bind, if_neg hle, hlen]
  exact reads_getBuffer bs tail c hp hc

theorem reads_getLenencBuffer_null (tail : List UInt8) :
    Cursor.Reads getLenencBuffer (0xfb :: tail) (.error .nullValue) tail :=
  .bind_error (reads_getLenenc_null tail)

theorem reads_getString {s : List UInt8} (h : ∀ b ∈ s, b ≠ 0) (tail : List UInt8) :
    Cursor.Reads getString (s ++ 0 :: tail) (.ok s) tail := by
  intro c hp hc
  have hs : ((s ++ 0 :: tail).takeWhile (· ≠ 0)) = s := by
    rw [List.takeWhile_append_of_pos (by simpa using h)]
    simp
  have hlen := c.length_rest
  rw [hc, List.length_append, List.length_cons] at hlen
  refine ⟨c.advance (s.length + 1), ?_, ?_, ?_⟩
  · simp only [getString, Proc.get_bind, hc, hs]
    rw [if_pos (by simp), List.take_left]
    rfl
  · rw [Cursor.pos_advance, Cursor.buff_advance]
    omega
  · rw [Cursor.rest_advance, hc, ← List.drop_drop, List.drop_left]
    rfl

theorem reads_getEofBuffer (input : List UInt8) :
    Cursor.Reads getEofBuffer input (.ok input) [] := by
  rintro c hp rfl
  refine ⟨_, rfl, ?_, by rw [Cursor.rest_advance, ← c.length_rest, List.drop_length]⟩
  rw [Cursor.pos_advance, Cursor.buff_advance]
  omega

theorem reads_eof (input : List UInt8) :
    Cursor.Reads eof input (.ok input.isEmpty) input := by
  rintro c hp rfl
  refine ⟨c, ?_, hp, rfl⟩
  have hb : (!decide (c.pos < c.buff.length)) = c.rest.isEmpty := by
    rw [Bool.eq_iff_iff, List.isEmpty_iff, Cursor.rest, List.drop_eq_nil_iff]
    simp
  rw [← hb]
  rfl

theorem reads_finish : Cursor.Reads finish [] (.ok ()) [] := by
  intro c hp hc
  have := c.length_rest
  rw [hc, List.length_nil] at this
  exact ⟨c, by rw [finish, Proc.get_bind, if_neg (by omega)]; rfl, hp, hc⟩

theorem reads_finish_extra {input : List UInt8} (h : input ≠ []) :
    Cursor.Reads finish input (.error .extraDataInPacket) input := by
  rintro c hp rfl
  have := c.length_rest
  have := List.length_pos_of_ne_nil h
  exact ⟨c, by rw [finish, Proc.get_bind, if_pos (by omega)]; rfl, hp, rfl⟩

/-- An error of the packet, which cannot be taken for one of the codes that say
how a call went. -/
def Malformed (rc : Code) : Prop := rc ≠ .again ∧ rc ≠ .eof ∧ rc ≠ .err

instance (rc : Code) : Decidable (Malformed rc) := inferInstanceAs (Decidable (_ ∧ _))

theorem truncates_check (bytes : Nat) :
    Cursor.Raises (· = Code.truncatedPacket) (check bytes) :=
  .bind (.mark _) fun _ => .bind .get fun _ => .ite (.throw rfl) (.pure _)

theorem truncates_nextUint8 : Cursor.Raises (· = Code.truncatedPacket) nextUint8 := by
  intro c e c' h
  cases h

theorem truncates_getUint8 : Cursor.Raises (· = Code.truncatedPacket) getUint8 :=
  .bind (truncates_check 1) fun _ => truncates_nextUint8

theorem truncates_getUint16 : Cursor.Raises (· = Code.truncatedPacket) getUint16 :=
  .bind (truncates_check 2) fun _ => .bind truncates_nextUint8 fun _ =>
    .bind truncates_nextUint8 fun _ => .pure _

theorem truncates_getUint24 : Cursor.Raises (· = Code.truncatedPacket) getUint24 :=
  .bind (truncates_check 3) fun _ => .bind truncates_nextUint8 fun _ =>
    .bind truncates_nextUint8 fun _ => .bind truncates_nextUint8 fun _ => .pure _

theorem truncates_getUint32 : Cursor.Raises (· = Code.truncatedPacket) getUint32 :=
  .bind (truncates_check 4) fun _ => .bind truncates_nextUint8 fun _ =>
    .bind truncates_nextUint8 fun _ => .bind truncates_nextUint8 fun _ =>
    .bind truncates_nextUint8 fun _ => .pure _

theorem truncates_getUint64 : Cursor.Raises (· = Code.truncatedPacket) getUint64 :=
  .bind (truncates_check 8) fun _ => .bind truncates_nextUint8 fun _ =>
    .bind truncates_nextUint8 fun _ => .bind truncates_nextUint8 fun _ =>
    .bind truncates_nextUint8 fun _ => .bind truncates_nextUint8 fun _ =>
    .bind truncates_nextUint8 fun _ => .bind truncates_nextUint8 fun _ =>
    .bind truncates_nextUint8 fun _ => .pure _

theorem truncates_getBuffer (len : Nat) :
    Cursor.Raises (· = Code.truncatedPacket) (getBuffer len) := by
  refine .bind (truncates_check len) fun _ => ?_
  intro c e c' h
  cases h

/-- What a length can be refused for. -/
def LenencRefusal (rc : Code) : Prop :=
  rc = .truncatedPacket ∨ rc = .nullValue ∨ rc = .protocolViolation

theorem refuses_getLenenc : Cursor.Raises LenencRefusal getLenenc :=
  .bind ((truncates_check 1).mono fun _ => .inl) fun _ =>
    .bind (truncates_nextUint8.mono fun _ => .inl) fun _ => .ite (.pure _) <|
    .ite (.throw (.inr (.inl rfl))) <|
    .ite (.bind (truncates_getUint16.mono fun _ => .inl) fun _ => .pure _) <|
    .ite (.bind (truncates_getUint24.mono fun _ => .inl) fun _ => .pure _) <|
    .ite (truncates_getUint64.mono fun _ => .inl) (.throw (.inr (.inr rfl)))

theorem refuses_getLenencBuffer : Cursor.Raises LenencRefusal getLenencBuffer :=
  .bind refuses_getLenenc fun len => .bind .get fun _ =>
    .ite (.throw (.inl rfl)) ((truncates_getBuffer len.toNat).mono fun _ => .inl)

theorem malformed_truncated (rc : Code) (h : rc = .truncatedPacket) : Malformed rc := by
  subst h
  decide

theorem LenencRefusal.malformed (rc : Code) (h : LenencRefusal rc) : Malformed rc := by
  obtain rfl | rfl | rfl := h <;> decide

theorem raises_check (bytes : Nat) : Cursor.Raises Malformed (check bytes) :=
  (truncates_check bytes).mono malformed_truncated

theorem raises_getUint8 : Cursor.Raises Malformed getUint8 :=
  truncates_getUint8.mono malformed_truncated

theorem raises_getUint16 : Cursor.Raises Malformed getUint16 :=
  truncates_getUint16.mono malformed_truncated

theorem raises_getUint32 : Cursor.Raises Malformed getUint32 :=
  truncates_getUint32.mono malformed_truncated

theorem raises_getUint64 : Cursor.Raises Malformed getUint64 :=
  truncates_getUint64.mono malformed_truncated

theorem raises_getBuffer (len : Nat) : Cursor.Raises Malformed (getBuffer len) :=
  (truncates_getBuffer len).mono malformed_truncated

theorem raises_getLenenc : Cursor.Raises Malformed getLenenc :=
  refuses_getLenenc.mono LenencRefusal.malformed

theorem raises_getLenencBuffer : Cursor.Raises Malformed getLenencBuffer :=
  refuses_getLenencBuffer.mono LenencRefusal.malformed

theorem raises_getEofBuffer : Cursor.Raises Malformed getEofBuffer := by
  intro c e c' h
  cases h

theorem raises_getString : Cursor.Raises Malformed getString := by
  intro c e c' h
  rw [getString, Proc.get_bind] at h
  split at h
  · cases h
  · cases h
    decide

theorem raises_copyString (s : List UInt8) (size : Nat) :
    Cursor.Raises Malformed (copyString s size) :=
  .bind (.mark _) fun _ => .mark _

theorem raises_copyBuffer (len start size : Nat) :
    Cursor.Raises Malformed (copyBuffer len start size) :=
  .bind (raises_getBuffer len) fun _ => .bind (.mark _) fun _ => .pure _

theorem raises_eof : Cursor.Raises Malformed eof := .bind .get fun _ => .pure _

theorem raises_finish : Cursor.Raises Malformed finish :=
  .bind .get fun _ => .ite (.throw (by decide)) (.pure _)

end Reader

/-- Run a parser over a packet, on a `TRILOGY_READER` of its own. -/
def parse {α : Type} (m : Proc Code Reader α) (buff : List UInt8) : Except Code α :=
  (m (Cursor.ofList buff)).1

theorem parse_error {α : Type} {P : Code → Prop} {m : Proc Code Reader α}
    (h : Cursor.Raises P m) {buff : List UInt8} {rc : Code} (he : parse m buff = .error rc) :
    P rc :=
  h (Proc.ends he)

end Trilogy
