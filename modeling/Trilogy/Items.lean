import Trilogy.Lib.Delimit
import Trilogy.Accepted
import Trilogy.Limit

namespace Trilogy

open Lib Builder

inductive Item
  | uint8 (val : UInt8) | uint16 (val : UInt16) | uint24 (val : UInt32) | uint32 (val : UInt32)
  | uint64 (val : UInt64) | lenenc (val : UInt64) | lenencBuffer (data : List UInt8)
  | string (data : List UInt8)
  deriving DecidableEq

inductive ItemKind
  | uint8 | uint16 | uint24 | uint32 | uint64 | lenenc | lenencBuffer | string
  deriving DecidableEq

/-- The reader's side, which knows what comes next but not its value. -/
def ItemKind.read : ItemKind → Proc Code Reader Item
  | uint8 => .uint8 <$> Reader.getUint8
  | uint16 => .uint16 <$> Reader.getUint16
  | uint24 => .uint24 <$> Reader.getUint24
  | uint32 => .uint32 <$> Reader.getUint32
  | uint64 => .uint64 <$> Reader.getUint64
  | lenenc => .lenenc <$> Reader.getLenenc
  | lenencBuffer => .lenencBuffer <$> Reader.getLenencBuffer
  | string => .string <$> Reader.getString

def readItems (kinds : List ItemKind) : Proc Code Reader (List Item) := do
  let items ← kinds.mapM ItemKind.read
  Reader.finish
  pure items

namespace Item

def kind : Item → ItemKind
  | uint8 _ => .uint8
  | uint16 _ => .uint16
  | uint24 _ => .uint24
  | uint32 _ => .uint32
  | uint64 _ => .uint64
  | lenenc _ => .lenenc
  | lenencBuffer _ => .lenencBuffer
  | string _ => .string

def write : Item → Write
  | uint8 val => .uint8 val
  | uint16 val => .uint16 val
  | uint24 val => .uint24 val
  | uint32 val => .uint32 val
  | uint64 val => .uint64 val
  | lenenc val => .lenenc val
  | lenencBuffer data => .lenencBuffer data
  | string data => .string data

/-- What fits its width, its `size_t` or its terminator. -/
def Writable : Item → Prop
  | uint24 val => val.toNat < 2 ^ 24
  | lenencBuffer data => data.length < 2 ^ 64
  | string data => ∀ b ∈ data, b ≠ 0
  | _ => True

end Item

namespace Reader

theorem delimits_integer {α : Type} {m : Proc Code Reader α} {k n : Nat} {v : α}
    (reads : ∀ tail, Cursor.Reads m (leBytes k n ++ tail) (.ok v) tail)
    (short : ∀ input : List UInt8, input.length < k →
      Cursor.Reads m input (.error .truncatedPacket) input) :
    Cursor.Delimits .truncatedPacket m (leBytes k n) v where
  reads := reads
  short := by
    intro front back split some
    have hlen := congrArg List.length split
    rw [length_leBytes, List.length_append] at hlen
    have := List.length_pos_of_ne_nil some
    exact ⟨front, short front (by omega)⟩

theorem delimits_getUint8 (b : UInt8) : Cursor.Delimits .truncatedPacket getUint8 [b] b := by
  have hb : [b] = leBytes 1 b.toNat := by rw [leBytes, UInt8.ofNat_toNat, leBytes]
  rw [hb]
  refine delimits_integer (fun tail => ?_) fun input h => .bind_error (reads_check_short h)
  rw [← hb]
  exact reads_getUint8 b tail

theorem delimits_getUint16 (v : UInt16) :
    Cursor.Delimits .truncatedPacket getUint16 (leBytes 2 v.toNat) v := by
  refine delimits_integer (fun tail => ?_) fun input h => .bind_error (reads_check_short h)
  simpa only [UInt16.ofNat_toNat] using reads_getUint16 v.toNat tail

theorem delimits_getUint24 {v : UInt32} (h : v.toNat < 2 ^ 24) :
    Cursor.Delimits .truncatedPacket getUint24 (leBytes 3 v.toNat) v := by
  refine delimits_integer (fun tail => ?_) fun input h => .bind_error (reads_check_short h)
  simpa only [Nat.mod_eq_of_lt h, UInt32.ofNat_toNat] using reads_getUint24 v.toNat tail

theorem delimits_getUint32 (v : UInt32) :
    Cursor.Delimits .truncatedPacket getUint32 (leBytes 4 v.toNat) v := by
  refine delimits_integer (fun tail => ?_) fun input h => .bind_error (reads_check_short h)
  simpa only [UInt32.ofNat_toNat] using reads_getUint32 v.toNat tail

theorem delimits_getUint64 (v : UInt64) :
    Cursor.Delimits .truncatedPacket getUint64 (leBytes 8 v.toNat) v := by
  refine delimits_integer (fun tail => ?_) fun input h => .bind_error (reads_check_short h)
  simpa only [UInt64.ofNat_toNat] using reads_getUint64 v.toNat tail

/-- Each of the four forms: the leader, and the integer it announces. -/
theorem delimits_getLenenc (v : UInt64) :
    Cursor.Delimits .truncatedPacket getLenenc (lenenc v.toNat) v := by
  rw [getLenenc_eq]
  unfold lenenc
  split
  · rename_i small
    have hleader : UInt8.ofNat v.toNat < 0xfb := by
      rw [UInt8.lt_iff_toNat_lt, UInt8.toNat_ofNat_of_lt' (Nat.lt_trans small (by decide))]
      exact small
    have hbody : lenencBody (UInt8.ofNat v.toNat) = pure v := by
      have hv : (UInt8.ofNat v.toNat).toUInt64 = v := by
        apply UInt64.toNat_inj.mp
        rw [UInt8.toNat_toUInt64, UInt8.toNat_ofNat_of_lt' (Nat.lt_trans small (by decide))]
      rw [lenencBody, if_pos hleader, hv]
    have body : Cursor.Delimits .truncatedPacket (lenencBody (UInt8.ofNat v.toNat)) [] v := by
      rw [hbody]
      exact .pure v
    exact (delimits_getUint8 _).bind body
  · split
    · have body : Cursor.Delimits .truncatedPacket (lenencBody 0xfc) (leBytes 2 v.toNat) v := by
        refine delimits_integer (fun tail => ?_)
          fun input h => .bind_error (.bind_error (reads_check_short h))
        have wide := reads_wide16 (n := v.toNat) (by omega) tail
        rw [UInt64.ofNat_toNat] at wide
        exact wide
      exact (delimits_getUint8 0xfc).bind body
    · split
      · have body : Cursor.Delimits .truncatedPacket (lenencBody 0xfd) (leBytes 3 v.toNat) v := by
          refine delimits_integer (fun tail => ?_)
            fun input h => .bind_error (.bind_error (reads_check_short h))
          have wide := reads_wide24 (n := v.toNat) (by omega) tail
          rw [UInt64.ofNat_toNat] at wide
          exact wide
        exact (delimits_getUint8 0xfd).bind body
      · exact (delimits_getUint8 0xfe).bind (delimits_getUint64 v)

theorem delimits_getLenencBuffer {d : List UInt8} (h : d.length < 2 ^ 64) :
    Cursor.Delimits .truncatedPacket getLenencBuffer (lenencBytes d) d where
  reads := fun tail => reads_getLenencBuffer h tail
  short := by
    intro front back split some
    have hlen : (UInt64.ofNat d.length).toNat = d.length := UInt64.toNat_ofNat_of_lt' h
    have length := delimits_getLenenc (UInt64.ofNat d.length)
    rw [hlen] at length
    obtain ⟨d', rfl, hd⟩ | ⟨back', hl, rfl⟩ := List.append_eq_append_iff.mp split
    · -- the length is there, and the data is not
      refine ⟨d', (length.reads d').bind ?_⟩
      rintro c hp rfl
      have missing := List.length_pos_of_ne_nil some
      have hsum := congrArg List.length hd
      rw [List.length_append, c.length_rest] at hsum
      have hgt : (UInt64.ofNat d.length).toNat > c.buff.length - c.pos := by omega
      exact ⟨c, by rw [Proc.get_bind, if_pos hgt]; rfl, hp, rfl⟩
    · cases back' with
      | nil =>
        rw [List.append_nil] at hl
        subst hl
        refine ⟨[], .bind (by simpa using length.reads []) ?_⟩
        intro c hp hc
        have hempty := c.length_rest
        rw [hc, List.length_nil] at hempty
        have missing := List.length_pos_of_ne_nil some
        rw [List.nil_append] at missing
        have hgt : (UInt64.ofNat d.length).toNat > c.buff.length - c.pos := by omega
        exact ⟨c, by rw [Proc.get_bind, if_pos hgt]; rfl, hp, hc⟩
      | cons b back' =>
        obtain ⟨left, hs⟩ := length.short hl (List.cons_ne_nil b back')
        exact ⟨left, hs.bind_error⟩

/-- Without its NUL a string never ends. -/
theorem reads_getString_short {s : List UInt8} (h : ∀ b ∈ s, b ≠ 0) :
    Cursor.Reads getString s (.error .truncatedPacket) s := by
  rintro c hp rfl
  have hall : c.rest.takeWhile (· ≠ 0) = c.rest :=
    List.takeWhile_eq_self_iff.mpr fun b hb => decide_eq_true (h b hb)
  exact ⟨c, by simp only [getString, Proc.get_bind, hall, lt_irrefl]; rfl, hp, rfl⟩

theorem delimits_getString {s : List UInt8} (h : ∀ b ∈ s, b ≠ 0) :
    Cursor.Delimits .truncatedPacket getString (s ++ [0]) s where
  reads := by
    intro tail
    rw [List.append_assoc]
    exact reads_getString h tail
  short := by
    intro front back split some
    refine ⟨front, reads_getString_short fun b hb => ?_⟩
    obtain ⟨d', rfl, hd⟩ | ⟨back', rfl, -⟩ := List.append_eq_append_iff.mp split
    · obtain ⟨rfl, -⟩ | ⟨-, rfl⟩ := List.singleton_eq_append_iff.mp hd
      · exact h b (by simpa using hb)
      · exact absurd rfl some
    · exact h b (List.mem_append_left _ hb)

end Reader

namespace Item

theorem write_bytes_lenencBuffer {data : List UInt8} (h : data.length < 2 ^ 64) :
    (lenencBuffer data).write.bytes = lenencBytes data := by
  change Trilogy.lenenc (data.length % 2 ^ 64) ++ data = _
  rw [Nat.mod_eq_of_lt h, lenencBytes]

theorem write_bytes_string {data : List UInt8} (h : ∀ b ∈ data, b ≠ 0) :
    (string data).write.bytes = data ++ [0] := by
  change data.takeWhile (· ≠ 0) ++ [0] = _
  rw [List.takeWhile_eq_self_iff.mpr fun b hb => decide_eq_true (h b hb)]

theorem delimits {i : Item} (h : i.Writable) :
    Cursor.Delimits .truncatedPacket i.kind.read i.write.bytes i := by
  cases i with
  | uint8 val => exact (Reader.delimits_getUint8 val).map
  | uint16 val => exact (Reader.delimits_getUint16 val).map
  | uint24 val => exact (Reader.delimits_getUint24 h).map
  | uint32 val => exact (Reader.delimits_getUint32 val).map
  | uint64 val => exact (Reader.delimits_getUint64 val).map
  | lenenc val => exact (Reader.delimits_getLenenc val).map
  | lenencBuffer data => exact (write_bytes_lenencBuffer h) ▸ (Reader.delimits_getLenencBuffer h).map
  | string data => exact (write_bytes_string h) ▸ (Reader.delimits_getString h).map

end Item

/-- The leader of a length is neither that of NULL nor the one of an error. -/
theorem lenenc_leader (n : Nat) :
    (lenenc n).head? ≠ some 0xfb ∧ (lenenc n).head? ≠ some 0xff := by
  unfold lenenc
  split
  · rename_i small
    have hn : (UInt8.ofNat n).toNat = n := UInt8.toNat_ofNat_of_lt' (Nat.lt_trans small (by decide))
    have leader : ∀ b : UInt8, 251 ≤ b.toNat → (leBytes 1 n).head? ≠ some b := by
      intro b high hb
      cases hb
      omega
    exact ⟨leader 0xfb (by decide), leader 0xff (by decide)⟩
  · split
    · exact ⟨by simp, by simp⟩
    · split
      · exact ⟨by simp, by simp⟩
      · exact ⟨by simp, by simp⟩

theorem delimits_items {items : List Item} (fits : ∀ i ∈ items, i.Writable) :
    Cursor.Delimits .truncatedPacket ((items.map Item.kind).mapM ItemKind.read)
      (payload (items.map Item.write)) items := by
  rw [payload, List.flatMap_map]
  exact .mapM fun i hi => i.delimits (fits i hi)

theorem parse_readItems {items : List Item} (fits : ∀ i ∈ items, i.Writable) :
    parse (readItems (items.map Item.kind)) (payload (items.map Item.write)) = .ok items := by
  have read := (delimits_items fits).reads []
  rw [List.append_nil] at read
  exact (read.bind (.bind Reader.reads_finish (.pure items _))).run

theorem items_delimit_themselves {alloc : Alloc} {buff : Buffer} {seq : UInt8} {b b' : Builder}
    {items : List Item} (fresh : init alloc buff seq = (.ok (), b))
    (written : writes alloc (items.map Item.write) b = (.ok (), b'))
    (fits : ∀ i ∈ items, i.Writable) :
    b'.finalize.buffer.bytes = frames seq (payload (items.map Item.write)) ∧
      parse (readItems (items.map Item.kind)) (payload (items.map Item.write)) = .ok items ∧
      (∀ i ∈ items, i.kind = .lenenc ∨ i.kind = .lenencBuffer →
        i.write.bytes.head? ≠ some 0xfb ∧ i.write.bytes.head? ≠ some 0xff) ∧
      ∀ front back, payload (items.map Item.write) = front ++ back → back ≠ [] →
        parse ((items.map Item.kind).mapM ItemKind.read) front = .error .truncatedPacket := by
  refine ⟨?_, parse_readItems fits, ?_, ?_⟩
  · exact (appends_writes alloc _ (init_building fresh) written).finalize.1
  · intro i _ length
    cases i with
    | lenenc val => exact lenenc_leader _
    | lenencBuffer data =>
      have leader := lenenc_leader (data.length % 2 ^ 64)
      have hne : lenenc (data.length % 2 ^ 64) ≠ [] := by
        unfold lenenc
        split_ifs <;> exact List.cons_ne_nil _ _
      change (lenenc _ ++ data).head? ≠ _ ∧ (lenenc _ ++ data).head? ≠ _
      rwa [List.head?_append_of_ne_nil _ hne]
    | uint8 val | uint16 val | uint24 val | uint32 val | uint64 val | string data =>
      obtain h | h := length <;> cases h
  · intro front back split some
    obtain ⟨left, short⟩ := (delimits_items fits).short split some
    exact short.run

theorem items_delimit_themselves_two :
    let b := (init (fun _ => true) ⟨[], [], 16, by decide⟩ 0).2
    let items := [Item.lenenc 300, .string [0x61]]
    let b' := (writes (fun _ => true) (items.map Item.write) b).2
    b'.finalize.buffer.bytes = frames 0 (payload (items.map Item.write)) ∧
      parse (readItems (items.map Item.kind)) (payload (items.map Item.write)) = .ok items ∧
      (∀ i ∈ items, i.kind = .lenenc ∨ i.kind = .lenencBuffer →
        i.write.bytes.head? ≠ some 0xfb ∧ i.write.bytes.head? ≠ some 0xff) ∧
      ∀ front back, payload (items.map Item.write) = front ++ back → back ≠ [] →
        parse ((items.map Item.kind).mapM ItemKind.read) front = .error .truncatedPacket := by
  intro b items b'
  have fresh : init (fun _ => true) ⟨[], [], 16, by decide⟩ 0 = (.ok (), b) := rfl
  have hwritten : (writes (fun _ => true) (items.map Item.write) b).1 = .ok () := by decide +kernel
  apply items_delimit_themselves fresh (Proc.ends hwritten)
  intro i hi
  obtain rfl | hi := List.mem_cons.mp hi
  · trivial
  · cases List.mem_singleton.mp hi
    intro b hb
    cases List.mem_singleton.mp hb
    decide

end Trilogy
