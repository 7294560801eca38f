import Mathlib.Data.List.Forall2
import Trilogy.Accepted
import Trilogy.Protocol

namespace Trilogy

open Lib Reader

/-- A field and the value it stands for. -/
inductive Field : Value → List UInt8 → Prop
  | null : Field none [0xfb]
  | data {d w : List UInt8} (h : LenencString d w) : Field (some d) w

/-- The fields of a row of `n` columns. -/
structure RowFields (n : Nat) (fields : List (List UInt8)) (b : List UInt8) : Prop where
  count : fields.length = n
  field : ∀ w ∈ fields, ∃ value, Field value w
  split : fields.flatten = b

/-- What a row can be refused for. -/
def RowRefusal (rc : Code) : Prop :=
  rc = .truncatedPacket ∨ rc = .protocolViolation ∨ rc = .extraDataInPacket

theorem exists_values {fields : List (List UInt8)} :
    (∃ values, List.Forall₂ Field values fields) ↔ ∀ w ∈ fields, ∃ value, Field value w := by
  induction fields with
  | nil => simp
  | cons w fields ih =>
    rw [List.forall_mem_cons, ← ih]
    constructor
    · rintro ⟨_, hvalues⟩
      cases hvalues with
      | cons h hvalues => exact ⟨⟨_, h⟩, _, hvalues⟩
    · rintro ⟨⟨value, h⟩, values, hvalues⟩
      exact ⟨value :: values, .cons h hvalues⟩

theorem lenencBody_null {leader : UInt8} {c c' : Reader}
    (h : lenencBody leader c = (.error .nullValue, c')) : leader = 0xfb ∧ c' = c := by
  by_cases null : leader = 0xfb
  · subst null
    cases h
    exact ⟨rfl, rfl⟩
  · have hraises : Cursor.Raises (· ≠ Code.nullValue) (lenencBody leader) := by
      have short : ∀ rc : Code, rc = .truncatedPacket → rc ≠ .nullValue := by
        rintro rc rfl
        decide
      unfold lenencBody
      rw [if_neg null]
      exact .ite (.pure _) <| .ite (.bind (truncates_getUint16.mono short) fun _ => .pure _) <|
        .ite (.bind (truncates_getUint24.mono short) fun _ => .pure _) <|
        .ite (truncates_getUint64.mono short) (.throw (by decide))
    exact absurd rfl (hraises h)

/-- The one byte that a NULL is. -/
theorem getLenencBuffer_null {c c' : Reader} (hp : c.pos ≤ c.buff.length)
    (h : getLenencBuffer c = (.error .nullValue, c')) :
    c'.pos ≤ c'.buff.length ∧ c.rest = 0xfb :: c'.rest := by
  obtain h | ⟨len, c₁, -, h⟩ := Proc.bind_error.mp h
  · rw [getLenenc_eq] at h
    obtain h | ⟨leader, c₁, h₁, h⟩ := Proc.bind_error.mp h
    · exact absurd (truncates_getUint8 h) (by decide)
    · obtain ⟨hp₁, hrest⟩ := accepts_getUint8.sound hp h₁
      obtain ⟨rfl, rfl⟩ := lenencBody_null h
      exact ⟨hp₁, hrest⟩
  · have hraises : Cursor.Raises (· = Code.truncatedPacket) (do
        let r ← get
        if len.toNat > r.buff.length - r.pos then throw .truncatedPacket
        else getBuffer len.toNat : Proc Code Reader (List UInt8)) :=
      .bind .get fun _ => .ite (.throw rfl) (truncates_getBuffer _)
    exact absurd (hraises h) (by decide)

theorem accepts_parseValues (n : Nat) :
    Cursor.Accepts (parseValues n) fun input values left =>
      values.length = n ∧
        ∃ fields, List.Forall₂ Field values fields ∧ input = fields.flatten ++ left := by
  induction n with
  | zero =>
    refine (Cursor.Accepts.pure _).of_iff fun input values left => ?_
    constructor
    · rintro ⟨rfl, rfl⟩
      exact ⟨rfl, [], .nil, rfl⟩
    · rintro ⟨hlen, fields, hfields, rfl⟩
      obtain rfl := List.length_eq_zero_iff.mp hlen
      cases hfields
      exact ⟨rfl, rfl⟩
  | succ n ih =>
    constructor
    · intro c values c' hp h
      rw [parseValues, Proc.attempt_bind] at h
      rcases hdata : getLenencBuffer c with ⟨rc | data, c₁⟩
      · rw [hdata] at h
        cases rc with
        | nullValue =>
          obtain ⟨hp₁, hnull⟩ := getLenencBuffer_null hp hdata
          obtain ⟨rest, c₂, h₂, h⟩ := Proc.bind_ok.mp h
          obtain ⟨hp₂, hlen, fields, hfields, hrest⟩ := ih.sound hp₁ h₂
          cases h
          refine ⟨hp₂, by rw [List.length_cons, hlen], [0xfb] :: fields, .cons .null hfields, ?_⟩
          rw [hnull, hrest]
          rfl
        | _ => cases h
      · rw [hdata] at h
        obtain ⟨hp₁, w, hw, hfirst⟩ := accepts_getLenencBuffer.sound hp hdata
        obtain ⟨rest, c₂, h₂, h⟩ := Proc.bind_ok.mp h
        obtain ⟨hp₂, hlen, fields, hfields, hrest⟩ := ih.sound hp₁ h₂
        cases h
        refine ⟨hp₂, by rw [List.length_cons, hlen], w :: fields, .cons (.data hw) hfields, ?_⟩
        rw [hfirst, hrest, List.flatten_cons, List.append_assoc]
    · rintro input values left ⟨hlen, fields, hfields, rfl⟩
      cases hfields with
      | nil => cases hlen
      | cons hfield hfields =>
        have hrest : Cursor.Reads (parseValues n) (List.flatten _ ++ left) (.ok _) left :=
          ih.complete ⟨Nat.succ.inj hlen, _, hfields, rfl⟩
        rw [List.flatten_cons, List.append_assoc]
        cases hfield with
        | null =>
          exact .bind (.attempt (reads_getLenencBuffer_null _)) (.bind hrest (.pure _ _))
        | data hw =>
          exact .bind (.attempt (accepts_getLenencBuffer.complete ⟨_, hw, rfl⟩)) (.bind hrest (.pure _ _))

theorem parseRowPacket_ok_iff {n : UInt64} {b : List UInt8} {values : List Value} :
    parse (parseRowPacket n) b = .ok values ↔
      values.length = n.toNat ∧ ∃ fields, List.Forall₂ Field values fields ∧ fields.flatten = b := by
  refine ((accepts_parseValues n.toNat).bind fun values => accepts_finish.bind fun _ =>
    .pure values).run.trans ?_
  constructor
  · rintro ⟨_, _, _, ⟨hlen, fields, hfields, rfl⟩, _, _, ⟨rfl, rfl⟩, rfl, rfl⟩
    exact ⟨hlen, fields, hfields, (List.append_nil _).symm⟩
  · rintro ⟨hlen, fields, hfields, rfl⟩
    exact ⟨[], values, [], ⟨hlen, fields, hfields, (List.append_nil _).symm⟩, (), [], ⟨rfl, rfl⟩,
      rfl, rfl⟩

theorem LenencString.head_ne {d w left tail : List UInt8} (h : LenencString d w) :
    w ++ left ≠ 0xfb :: tail := by
  obtain ⟨l, hl, rfl⟩ := h
  intro he
  obtain ⟨b, l, rfl⟩ : ∃ b l', l = b :: l' := by
    cases hl <;> exact ⟨_, _, rfl⟩
  cases he
  revert hl
  simp [lenencForm_cons]

theorem Field.cut {value value' : Value} {w w' left left' : List UInt8} (h : Field value w)
    (h' : Field value' w') (same : w ++ left = w' ++ left') : w = w' ∧ left = left' := by
  cases h with
  | null =>
    cases h' with
    | null => exact ⟨rfl, List.append_cancel_left same⟩
    | data hw' => exact absurd same.symm hw'.head_ne
  | data hw =>
    cases h' with
    | null => exact absurd same hw.head_ne
    | data hw' =>
      obtain ⟨-, rfl⟩ := accepts_getLenencBuffer.unique ⟨w, hw, rfl⟩ ⟨w', hw', same⟩
      exact ⟨List.append_cancel_right same, rfl⟩

theorem fields_unique {fields fields' : List (List UInt8)} (h : ∀ w ∈ fields, ∃ v, Field v w)
    (h' : ∀ w ∈ fields', ∃ v, Field v w) (count : fields.length = fields'.length)
    (same : fields.flatten = fields'.flatten) : fields = fields' := by
  induction fields generalizing fields' with
  | nil => exact (List.length_eq_zero_iff.mp count.symm).symm
  | cons w fields ih =>
    cases fields' with
    | nil => cases count
    | cons w' fields' =>
      obtain ⟨⟨v, hw⟩, hrest⟩ := List.forall_mem_cons.mp h
      obtain ⟨⟨v', hw'⟩, hrest'⟩ := List.forall_mem_cons.mp h'
      obtain ⟨rfl, hsame⟩ := hw.cut hw' same
      rw [ih hrest hrest' (Nat.succ.inj count) hsame]

theorem refuses_parseValues (n : Nat) : Cursor.Raises RowRefusal (parseValues n) := by
  induction n with
  | zero => exact .pure _
  | succ n ih =>
    intro c e c' h
    rw [parseValues, Proc.attempt_bind] at h
    rcases hdata : getLenencBuffer c with ⟨rc | data, c₁⟩
    · rw [hdata] at h
      have hrc := refuses_getLenencBuffer hdata
      cases rc with
      | nullValue =>
        have hrest : Cursor.Raises RowRefusal (do
            let values ← parseValues n
            pure (none :: values)) := .bind ih fun _ => .pure _
        exact hrest h
      | _ =>
        cases h
        obtain hrc | hrc | hrc := hrc
        · exact .inl hrc
        · cases hrc
        · exact .inr (.inl hrc)
    · rw [hdata] at h
      exact (Cursor.Raises.bind ih fun _ => .pure _) h

theorem parseRowPacket_error {n : UInt64} {b : List UInt8} {rc : Code}
    (h : parse (parseRowPacket n) b = .error rc) : RowRefusal rc := by
  have hfinish : Cursor.Raises RowRefusal finish :=
    .bind .get fun _ => .ite (.throw (.inr (.inr rfl))) (.pure _)
  exact parse_error (.bind (refuses_parseValues _) fun _ => .bind hfinish fun _ => .pure _) h

/-- The text row parser accepts its grammar and nothing else: the fields are
there in one way at most, and the values are theirs. -/
theorem parseRowPacket_grammar (n : UInt64) (b : List UInt8) :
    ((∃ values, parse (parseRowPacket n) b = .ok values) ↔
      ∃ fields, RowFields n.toNat fields b) ∧
    (∀ fields fields', RowFields n.toNat fields b → RowFields n.toNat fields' b →
      fields = fields') ∧
    (∀ fields values, RowFields n.toNat fields b → parse (parseRowPacket n) b = .ok values →
      List.Forall₂ Field values fields) ∧
    ∀ rc, parse (parseRowPacket n) b = .error rc → RowRefusal rc := by
  have unique : ∀ fields fields', RowFields n.toNat fields b → RowFields n.toNat fields' b →
      fields = fields' := by
    intro fields fields' h h'
    exact fields_unique h.field h'.field (h.count.trans h'.count.symm) (h.split.trans h'.split.symm)
  have accepted : ∀ values, parse (parseRowPacket n) b = .ok values →
      ∃ fields, RowFields n.toNat fields b ∧ List.Forall₂ Field values fields := by
    intro values h
    obtain ⟨hlen, fields, hfields, hsplit⟩ := parseRowPacket_ok_iff.mp h
    refine ⟨fields, ⟨hfields.length_eq ▸ hlen, fun w hw => ?_, hsplit⟩, hfields⟩
    exact exists_values.mp ⟨values, hfields⟩ w hw
  refine ⟨⟨?_, ?_⟩, unique, ?_, fun rc => parseRowPacket_error⟩
  · rintro ⟨values, h⟩
    obtain ⟨fields, hrow, -⟩ := accepted values h
    exact ⟨fields, hrow⟩
  · rintro ⟨fields, hrow⟩
    obtain ⟨values, hvalues⟩ := exists_values.mpr hrow.field
    exact ⟨values, parseRowPacket_ok_iff.mpr
      ⟨hvalues.length_eq.trans hrow.count, fields, hvalues, hrow.split⟩⟩
  · intro fields values hrow h
    obtain ⟨fields', hrow', hvalues⟩ := accepted values h
    rw [unique fields fields' hrow hrow']
    exact hvalues

end Trilogy
