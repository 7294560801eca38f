import Mathlib.Data.List.TakeWhile
import Trilogy.Lib.Accept
import Trilogy.Reader

namespace Trilogy

open Lib

/-- MySQL's length-encoded integer. -/
inductive LenencForm : Nat → List UInt8 → Prop
  | byte {n : Nat} (h : n < 251) : LenencForm n (leBytes 1 n)
  | two {n : Nat} (h : n < 2 ^ 16) : LenencForm n (0xfc :: leBytes 2 n)
  | three {n : Nat} (h : n < 2 ^ 24) : LenencForm n (0xfd :: leBytes 3 n)
  | eight {n : Nat} (h : n < 2 ^ 64) : LenencForm n (0xfe :: leBytes 8 n)

theorem LenencForm.lt {n : Nat} {w : List UInt8} (h : LenencForm n w) : n < 2 ^ 64 := by
  cases h <;> omega

/-- A length-encoded string. -/
def LenencString (d w : List UInt8) : Prop := ∃ l, LenencForm d.length l ∧ w = l ++ d

theorem lenencForm_lenenc {n : Nat} (h : n < 2 ^ 64) : LenencForm n (lenenc n) := by
  unfold lenenc
  split
  · exact .byte ‹_›
  · split
    · exact .two (by omega)
    · split
      · exact .three (by omega)
      · exact .eight h

theorem lenencString_lenencBytes {d : List UInt8} (h : d.length < 2 ^ 64) :
    LenencString d (lenencBytes d) := ⟨_, lenencForm_lenenc h, rfl⟩

theorem exists_leBytes {k : Nat} {input : List UInt8} (h : k ≤ input.length) :
    ∃ n < 256 ^ k, ∃ left, input = leBytes k n ++ left := by
  have hlen : (input.take k).length = k := List.length_take_of_le h
  refine ⟨ofLeBytes (input.take k), ?_, input.drop k, ?_⟩
  · rw [← hlen]
    simpa only [hlen] using ofLeBytes_lt (input.take k)
  · have := leBytes_ofLeBytes (input.take k)
    rw [hlen] at this
    rw [this, List.take_append_drop]

namespace Reader

theorem reads_check_short {bytes : Nat} {input : List UInt8} (h : input.length < bytes) :
    Cursor.Reads (check bytes) input (.error .truncatedPacket) input := by
  refine .bind (.mark _ _) ?_
  rintro c hp rfl
  rw [Cursor.length_rest] at h
  exact ⟨c, by rw [Proc.get_bind, if_pos (by omega)]; rfl, hp, rfl⟩

/-- An integer of `k` bytes. -/
theorem accepts_integer {α : Type} {m : Proc Code Reader α} {k : Nat} {v : Nat → α}
    (reads : ∀ n < 256 ^ k, ∀ tail, Cursor.Reads m (leBytes k n ++ tail) (.ok (v n)) tail)
    (short : ∀ input : List UInt8, input.length < k →
      Cursor.Reads m input (.error .truncatedPacket) input) :
    Cursor.Accepts m fun input a left => ∃ n < 256 ^ k, a = v n ∧ input = leBytes k n ++ left := by
  refine .of_reads ?_ fun input h => ⟨_, _, short input (Nat.lt_of_not_le fun hle => ?_)⟩
  · rintro _ _ left ⟨n, hn, rfl, rfl⟩
    exact reads n hn left
  · obtain ⟨n, hn, left, he⟩ := exists_leBytes hle
    exact h _ _ ⟨n, hn, rfl, he⟩

theorem accepts_getUint8 :
    Cursor.Accepts getUint8 fun input b left => input = b :: left := by
  refine .of_reads ?_ fun input h => ?_
  · rintro _ b left rfl
    exact reads_getUint8 b left
  · cases input with
    | nil => exact ⟨_, _, .bind_error (reads_check_short Nat.zero_lt_one)⟩
    | cons b tail => exact absurd rfl (h b tail)

theorem accepts_getUint16 :
    Cursor.Accepts getUint16 fun input v left => input = leBytes 2 v.toNat ++ left := by
  refine (accepts_integer (fun n _ tail => reads_getUint16 n tail)
    fun _ h => .bind_error (reads_check_short h)).of_iff fun input v left => ?_
  constructor
  · rintro ⟨n, hn, rfl, rfl⟩
    rw [UInt16.toNat_ofNat_of_lt' hn]
  · intro h
    exact ⟨v.toNat, v.toNat_lt, UInt16.ofNat_toNat.symm, h⟩

theorem accepts_getUint32 :
    Cursor.Accepts getUint32 fun input v left => input = leBytes 4 v.toNat ++ left := by
  refine (accepts_integer (fun n _ tail => reads_getUint32 n tail)
    fun _ h => .bind_error (reads_check_short h)).of_iff fun input v left => ?_
  constructor
  · rintro ⟨n, hn, rfl, rfl⟩
    rw [UInt32.toNat_ofNat_of_lt' hn]
  · intro h
    exact ⟨v.toNat, v.toNat_lt, UInt32.ofNat_toNat.symm, h⟩

/-- `getLenenc` behind its leader. -/
def lenencBody (leader : UInt8) : Proc Code Reader UInt64 :=
  if leader < 0xfb then pure leader.toUInt64
  else if leader = 0xfb then throw .nullValue
  else if leader = 0xfc then do
    let u16 ← getUint16
    pure u16.toUInt64
  else if leader = 0xfd then do
    let u24 ← getUint24
    pure u24.toUInt64
  else if leader = 0xfe then getUint64
  else throw .protocolViolation

theorem getLenenc_eq : getLenenc = getUint8 >>= lenencBody := (bind_assoc _ _ _).symm

theorem lenencForm_cons {n : Nat} {b : UInt8} {w : List UInt8} : LenencForm n (b :: w) ↔
    b < 0xfb ∧ n = b.toNat ∧ w = [] ∨ b = 0xfc ∧ n < 2 ^ 16 ∧ w = leBytes 2 n ∨
      b = 0xfd ∧ n < 2 ^ 24 ∧ w = leBytes 3 n ∨ b = 0xfe ∧ n < 2 ^ 64 ∧ w = leBytes 8 n := by
  constructor
  · intro h
    cases h with
    | byte h =>
      have hn : (UInt8.ofNat n).toNat = n := UInt8.toNat_ofNat_of_lt' (Nat.lt_trans h (by decide))
      refine .inl ⟨UInt8.lt_iff_toNat_lt.mpr ?_, hn.symm, rfl⟩
      rw [hn]
      exact h
    | two h => exact .inr (.inl ⟨rfl, h, rfl⟩)
    | three h => exact .inr (.inr (.inl ⟨rfl, h, rfl⟩))
    | eight h => exact .inr (.inr (.inr ⟨rfl, h, rfl⟩))
  · rintro (⟨h, rfl, rfl⟩ | ⟨rfl, h, rfl⟩ | ⟨rfl, h, rfl⟩ | ⟨rfl, h, rfl⟩)
    · have hb : [b] = leBytes 1 b.toNat := by rw [leBytes, UInt8.ofNat_toNat, leBytes]
      rw [hb]
      exact .byte (UInt8.lt_iff_toNat_lt.mp h)
    · exact .two h
    · exact .three h
    · exact .eight h

/-- An integer of `k` bytes as the value of a length-encoded one. -/
theorem accepts_wide {m : Proc Code Reader UInt64} {k : Nat} (hk : k ≤ 8)
    (reads : ∀ n < 256 ^ k, ∀ tail,
      Cursor.Reads m (leBytes k n ++ tail) (.ok (UInt64.ofNat n)) tail)
    (short : ∀ input : List UInt8, input.length < k →
      Cursor.Reads m input (.error .truncatedPacket) input) :
    Cursor.Accepts m fun input v left =>
      ∃ w, (v.toNat < 256 ^ k ∧ w = leBytes k v.toNat) ∧ input = w ++ left := by
  refine (accepts_integer reads short).of_iff fun input v left => ?_
  constructor
  · rintro ⟨n, hn, rfl, rfl⟩
    have hlt : n < 2 ^ 64 := Nat.lt_of_lt_of_le hn (Nat.pow_le_pow_right (by decide) hk)
    rw [UInt64.toNat_ofNat_of_lt' hlt]
    exact ⟨_, ⟨hn, rfl⟩, rfl⟩
  · rintro ⟨_, ⟨hv, rfl⟩, h⟩
    exact ⟨v.toNat, hv, UInt64.ofNat_toNat.symm, h⟩

theorem accepts_lenencBody (leader : UInt8) :
    Cursor.Accepts (lenencBody leader) fun input v left =>
      ∃ w, LenencForm v.toNat (leader :: w) ∧ input = w ++ left := by
  unfold lenencBody
  by_cases small : leader < 0xfb
  · rw [if_pos small]
    refine (Cursor.Accepts.pure _).of_iff fun input v left => ?_
    have hne : leader ≠ 0xfc ∧ leader ≠ 0xfd ∧ leader ≠ 0xfe := by
      refine ⟨?_, ?_, ?_⟩ <;>
      · rintro rfl
        revert small
        decide
    simp only [lenencForm_cons, small, hne, true_and, false_and, or_false]
    constructor
    · rintro ⟨rfl, rfl⟩
      exact ⟨[], ⟨UInt8.toNat_toUInt64 leader, rfl⟩, rfl⟩
    · rintro ⟨_, ⟨hv, rfl⟩, rfl⟩
      exact ⟨UInt64.toNat_inj.mp (hv.trans (UInt8.toNat_toUInt64 leader).symm), rfl⟩
  · simp only [lenencForm_cons, small, if_false, false_and, false_or]
    by_cases null : leader = 0xfb
    · subst null
      exact (Cursor.Accepts.throw _).of_iff fun input v left => by simp
    rw [if_neg null]
    by_cases two : leader = 0xfc
    · subst two
      rw [if_pos rfl]
      exact (accepts_wide (by decide) (fun n h => reads_wide16 h)
        fun _ h => .bind_error (.bind_error (reads_check_short h))).of_iff fun _ _ _ => by simp
    rw [if_neg two]
    by_cases three : leader = 0xfd
    · subst three
      rw [if_pos rfl]
      exact (accepts_wide (by decide) (fun n h => reads_wide24 h)
        fun _ h => .bind_error (.bind_error (reads_check_short h))).of_iff fun _ _ _ => by simp
    rw [if_neg three]
    by_cases eight : leader = 0xfe
    · subst eight
      rw [if_pos rfl]
      exact (accepts_wide (by decide) (fun n _ => reads_getUint64 n)
        fun _ h => .bind_error (reads_check_short h)).of_iff fun _ _ _ => by simp
    · rw [if_neg eight]
      exact (Cursor.Accepts.throw _).of_iff fun _ _ _ => by simp [two, three, eight]

theorem accepts_getLenenc :
    Cursor.Accepts getLenenc fun input v left =>
      ∃ w, LenencForm v.toNat w ∧ input = w ++ left := by
  rw [getLenenc_eq]
  refine (accepts_getUint8.bind accepts_lenencBody).of_iff fun input v left => ?_
  constructor
  · rintro ⟨leader, _, rfl, w, h, rfl⟩
    exact ⟨_, h, rfl⟩
  · rintro ⟨w, h, rfl⟩
    obtain ⟨leader, w, rfl⟩ : ∃ leader w', w = leader :: w' := by
      cases h <;> exact ⟨_, _, rfl⟩
    exact ⟨leader, _, rfl, w, h, rfl⟩

theorem accepts_getBuffer (len : Nat) :
    Cursor.Accepts (getBuffer len) fun input d left => d.length = len ∧ input = d ++ left := by
  refine .of_reads ?_ fun input h => ⟨_, _, .bind_error (reads_check_short ?_)⟩
  · rintro _ d left ⟨rfl, rfl⟩
    exact reads_getBuffer d left
  · apply Nat.lt_of_not_le
    intro hle
    exact h _ _ ⟨List.length_take_of_le hle, (List.take_append_drop len input).symm⟩

theorem accepts_copyBuffer (len start size : Nat) :
    Cursor.Accepts (copyBuffer len start size) fun input d left =>
      d.length = len ∧ input = d ++ left := by
  refine ((accepts_getBuffer len).bind fun _ => (Cursor.Accepts.mark _).bind fun _ =>
    .pure _).of_iff fun input d left => ?_
  constructor
  · rintro ⟨_, _, h, _, _, rfl, rfl, rfl⟩
    exact h
  · intro h
    exact ⟨_, _, h, (), _, rfl, rfl, rfl⟩

theorem accepts_getLenencBuffer :
    Cursor.Accepts getLenencBuffer fun input d left =>
      ∃ w, LenencString d w ∧ input = w ++ left := by
  have tail : ∀ len : UInt64, Cursor.Accepts (do
      let r ← get
      if len.toNat > r.buff.length - r.pos then throw .truncatedPacket
      else getBuffer len.toNat : Proc Code Reader (List UInt8)) fun input d left =>
      d.length = len.toNat ∧ input = d ++ left := by
    intro len
    refine .of_reads ?_ fun input h => ⟨.truncatedPacket, input, ?_⟩
    · rintro _ d left ⟨hd, rfl⟩ c hp hc
      have hle : ¬ len.toNat > c.buff.length - c.pos := by
        rw [← hd, ← c.length_rest, hc, List.length_append]
        omega
      rw [Proc.get_bind, if_neg hle, ← hd]
      exact reads_getBuffer d left c hp hc
    · rintro c hp rfl
      have hgt : len.toNat > c.buff.length - c.pos := by
        rw [← c.length_rest]
        apply Nat.lt_of_not_le
        intro hle
        exact h _ _ ⟨List.length_take_of_le hle, (List.take_append_drop len.toNat _).symm⟩
      exact ⟨c, by rw [Proc.get_bind, if_pos hgt]; rfl, hp, rfl⟩
  refine (accepts_getLenenc.bind tail).of_iff fun input d left => ?_
  constructor
  · rintro ⟨len, _, ⟨w, h, rfl⟩, hd, rfl⟩
    exact ⟨w ++ d, ⟨w, hd ▸ h, rfl⟩, (List.append_assoc _ _ _).symm⟩
  · rintro ⟨_, ⟨w, h, rfl⟩, rfl⟩
    have hlen : (UInt64.ofNat d.length).toNat = d.length := UInt64.toNat_ofNat_of_lt' h.lt
    exact ⟨UInt64.ofNat d.length, d ++ left, ⟨w, hlen.symm ▸ h, List.append_assoc _ _ _⟩,
      hlen.symm, rfl⟩

theorem accepts_getString :
    Cursor.Accepts getString fun input s left => (∀ b ∈ s, b ≠ 0) ∧ input = s ++ 0 :: left := by
  refine .of_reads ?_ fun input h => ⟨.truncatedPacket, input, ?_⟩
  · rintro _ s left ⟨hs, rfl⟩
    exact reads_getString hs left
  · rintro c hp rfl
    have hall : c.rest.takeWhile (· ≠ 0) = c.rest := by
      have hmem : 0 ∉ c.rest := by
        intro hzero
        obtain ⟨s, left, he, hs⟩ := List.eq_append_cons_of_mem hzero
        refine h s left ⟨fun b hb => ?_, he⟩
        rintro rfl
        exact hs hb
      refine List.takeWhile_eq_self_iff.mpr fun b hb => decide_eq_true ?_
      rintro rfl
      exact hmem hb
    exact ⟨c, by simp only [getString, Proc.get_bind, hall, lt_irrefl]; rfl, hp, rfl⟩

theorem accepts_copyString (s : List UInt8) (size : Nat) :
    Cursor.Accepts (copyString s size) fun input _ left => left = input := by
  refine ((Cursor.Accepts.mark _).bind fun _ => .mark _).of_iff fun input _ left => ?_
  constructor
  · rintro ⟨_, _, rfl, rfl⟩
    rfl
  · rintro rfl
    exact ⟨(), _, rfl, rfl⟩

theorem accepts_getEofBuffer :
    Cursor.Accepts getEofBuffer fun input d left => d = input ∧ left = [] where
  sound := by
    intro c d c' hp h
    obtain ⟨c₁, h₁, hp₁, hleft⟩ := reads_getEofBuffer c.rest c hp rfl
    cases h.symm.trans h₁
    exact ⟨hp₁, rfl, hleft⟩
  complete := by
    rintro input _ _ ⟨rfl, rfl⟩
    exact reads_getEofBuffer _

theorem accepts_eof : Cursor.Accepts eof fun input done left =>
    done = input.isEmpty ∧ left = input where
  sound := by
    intro c done c' hp h
    obtain ⟨c₁, h₁, hp₁, hleft⟩ := reads_eof c.rest c hp rfl
    cases h.symm.trans h₁
    exact ⟨hp₁, rfl, hleft⟩
  complete := by
    rintro input _ _ ⟨rfl, rfl⟩
    exact reads_eof _

theorem accepts_finish : Cursor.Accepts finish fun input _ left => input = [] ∧ left = [] := by
  refine .of_reads ?_ fun input h => ⟨_, _, reads_finish_extra fun hnil => ?_⟩
  · rintro _ _ _ ⟨rfl, rfl⟩
    exact reads_finish
  · exact h () [] ⟨hnil, rfl⟩

end Reader

end Trilogy
