import Trilogy.BinaryRow
import Trilogy.Deframing

/-! The three loops over the binds, and what a server makes of them. The value loop
does not look at `is_null`, so the payload is the documented one only when every
null bind also has the type NULL; and it leaves out a time of nothing but days. -/
namespace Trilogy

open Lib Builder

theorem appends_writeDate (alloc : Alloc) (d : DateValue) :
    Appends (writeDate alloc d) ((dateForm d).bytes d) := by
  unfold writeDate dateForm
  split
  · exact .of_eq (.bind (appends_writeUint8 _ _) (.bind (appends_writeUint16 _ _)
      (.bind (appends_writeUint8 _ _) (.bind (appends_writeUint8 _ _)
      (.bind (appends_writeUint8 _ _) (.bind (appends_writeUint8 _ _)
      (.bind (appends_writeUint8 _ _) (appends_writeUint32 _ _)))))))) (by simp [DateForm.bytes])
  · split
    · exact .of_eq (.bind (appends_writeUint8 _ _) (.bind (appends_writeUint16 _ _)
        (.bind (appends_writeUint8 _ _) (.bind (appends_writeUint8 _ _)
        (.bind (appends_writeUint8 _ _) (.bind (appends_writeUint8 _ _)
        (.bind (appends_writeUint8 _ _) .pure))))))) (by simp [DateForm.bytes])
    · split
      · exact .of_eq (.bind (appends_writeUint8 _ _) (.bind (appends_writeUint16 _ _)
          (.bind (appends_writeUint8 _ _) (.bind (appends_writeUint8 _ _) .pure))))
          (by simp [DateForm.bytes])
      · exact .of_eq (.bind (appends_writeUint8 _ _) .pure) (by simp [DateForm.bytes])

theorem appends_writeTime (alloc : Alloc) (t : TimeValue) :
    Appends (writeTime alloc t) ((timeForm t).bytes t) := by
  unfold writeTime timeForm
  split
  · exact .of_eq (.bind (appends_writeUint8 _ _) (.bind (appends_writeUint8 _ _)
      (.bind (appends_writeUint32 _ _) (.bind (appends_writeUint8 _ _)
      (.bind (appends_writeUint8 _ _) (.bind (appends_writeUint8 _ _)
      (appends_writeUint32 _ _))))))) (by simp [TimeForm.bytes])
  · split
    · exact .of_eq (.bind (appends_writeUint8 _ _) (.bind (appends_writeUint8 _ _)
        (.bind (appends_writeUint32 _ _) (.bind (appends_writeUint8 _ _)
        (.bind (appends_writeUint8 _ _) (.bind (appends_writeUint8 _ _) .pure))))))
        (by simp [TimeForm.bytes])
    · exact .of_eq (.bind (appends_writeUint8 _ _) .pure) (by simp [TimeForm.bytes])

theorem appends_writeValue (alloc : Alloc) (v : BinaryValue) :
    Appends (writeValue alloc v) (valueBytes v) := by
  cases ht : TypeT.ofCode v.type with
  | none =>
    simp only [writeValue, ht]
    exact .throw _ _
  | some t =>
    rw [writeValue_kind alloc ht, valueBytes_kind ht]
    cases t.kind with
    | tiny => exact appends_writeUint8 alloc v.uint8
    | short => exact appends_writeUint16 alloc v.uint16
    | long => exact appends_writeUint32 alloc v.uint32
    | longlong => exact appends_writeUint64 alloc v.uint64
    | float => exact appends_writeUint32 alloc v.flt
    | double => exact appends_writeUint64 alloc v.dbl
    | year => exact appends_writeUint16 alloc v.year
    | time => exact appends_writeTime alloc v.time
    | date => exact appends_writeDate alloc v.date
    | str => exact appends_writeLenencBuffer alloc v.str
    | null => exact .pure

theorem appends_writeValues (alloc : Alloc) (vs : List BinaryValue) :
    Appends (writeValues alloc vs) (vs.flatMap valueBytes) := by
  induction vs with
  | nil => exact .pure
  | cons v vs ih =>
    rw [writeValues, List.flatMap_cons]
    exact .bind (appends_writeValue alloc v) ih

def typeBytes (bind : BinaryValue) : List UInt8 :=
  [bind.type, if bind.is_unsigned then 0x80 else 0x00]

theorem appends_writeTypes (alloc : Alloc) (vs : List BinaryValue) :
    Appends (writeTypes alloc vs) (vs.flatMap typeBytes) := by
  induction vs with
  | nil => exact .pure
  | cons v vs ih =>
    rw [writeTypes, List.flatMap_cons, typeBytes]
    refine .of_eq (.bind (appends_writeUint8 alloc v.type)
      (.bind (.ite (fun _ => appends_writeUint8 alloc 0x80) fun _ => appends_writeUint8 alloc 0x00)
      ih)) ?_
    cases v.is_unsigned <;> rfl

/-- The bitmap loop with the write after it, from where `pending` bits of a
byte are still to be written. -/
theorem appends_writeNullBitmap (alloc : Alloc) {n : Nat} {rest : Proc Code Builder Unit}
    {d : List UInt8} (hrest : Appends rest d) (binds : List BinaryValue) (i : Nat)
    (pending : List Bool) (hi : pending.length = i % 8) (hn : n % 8 = (i + binds.length) % 8) :
    Appends (do
      let bits ← writeNullBitmap alloc i (UInt8.ofNat (bitsToNat pending)) binds
      Proc.when (n % 8 ≠ 0) (writeUint8 alloc bits)
      rest) (packBits (pending ++ binds.map (·.is_null)) ++ d) := by
  induction binds generalizing i pending with
  | nil =>
    rw [List.length_nil, Nat.add_zero, ← hi] at hn
    have hlt : pending.length < 8 := hi ▸ Nat.mod_lt _ (by decide)
    simp only [writeNullBitmap, pure_bind, List.map_nil, List.append_nil]
    by_cases hz : pending.length = 0
    · have := List.length_eq_zero_iff.mp hz
      subst this
      rw [Proc.when_neg (by omega)]
      exact .bind .pure hrest
    · rw [Proc.when_pos (by omega), packBits_of_le (by omega) (Nat.pos_of_ne_zero hz)]
      exact .bind (appends_writeUint8 _ _) hrest
  | cons v vs ih =>
    have hlt : pending.length < 8 := hi ▸ Nat.mod_lt _ (by decide)
    have hbits := ofNat_or_shift hlt v.is_null
    rw [List.length_cons] at hn
    simp only [writeNullBitmap, ← hi, hbits, List.map_cons]
    rw [show pending ++ v.is_null :: vs.map (·.is_null) =
      (pending ++ [v.is_null]) ++ vs.map (·.is_null) by simp]
    split
    · rw [packBits_append (by simp; omega), bind_assoc, List.cons_append]
      refine .bind (appends_writeUint8 _ _) ?_
      exact ih (i + 1) [] (by rw [List.length_nil]; omega) (by omega)
    · exact ih (i + 1) (pending ++ [v.is_null]) (by simp; omega) (by omega)

/-- Everything in front of the parameters. -/
def executeHead (stmt_id : UInt32) (flags : UInt8) : List UInt8 :=
  Cmd.stmtExecute :: leBytes 4 stmt_id.toNat ++ flags :: leBytes 4 1

/-- The payload the builder lays out, for at least one bind. -/
theorem finalizes_buildStmtExecutePacket (alloc : Alloc) (stmt_id : UInt32) (flags : UInt8)
    {binds : List BinaryValue} {n : UInt16} (hn : binds.length = n.toNat) (pos : 0 < n) :
    Finalizes (buildStmtExecutePacket alloc stmt_id flags (some binds) n)
      (executeHead stmt_id flags ++ packBits (binds.map (·.is_null)) ++
        1 :: binds.flatMap typeBytes ++ binds.flatMap valueBytes) := by
  have htake : binds.take n.toNat = binds := by rw [← hn, List.take_length]
  unfold buildStmtExecutePacket
  refine .of_eq (.bind (appends_writeUint8 _ _) (.bind (appends_writeUint32 _ _)
    (.bind (appends_writeUint8 _ _) (.bind (appends_writeUint32 _ _)
    (.bind (d := packBits (binds.map (·.is_null)) ++
      (1 :: (binds.flatMap typeBytes ++ binds.flatMap valueBytes))) ?_ .finalize))))) ?_
  · rw [Proc.when_pos pos]
    simp only [htake]
    exact appends_writeNullBitmap alloc (.bind (appends_writeUint8 _ _)
      (.bind (appends_writeTypes alloc binds) (appends_writeValues alloc binds))) binds 0 []
      rfl (by rw [Nat.zero_add, hn])
  · simp [executeHead]

/-- Everything in front of the values. -/
def executePrefix (stmt_id : UInt32) (flags : UInt8) (binds : List BinaryValue) : List UInt8 :=
  executeHead stmt_id flags ++
    if binds = [] then [] else packBits (binds.map (·.is_null)) ++ 1 :: binds.flatMap typeBytes

theorem finalizes_buildStmtExecutePacket_prefix (alloc : Alloc) (stmt_id : UInt32) (flags : UInt8)
    {binds : List BinaryValue} {n : UInt16} (hn : binds.length = n.toNat) :
    Finalizes (buildStmtExecutePacket alloc stmt_id flags (some binds) n)
      (executePrefix stmt_id flags binds ++ binds.flatMap valueBytes) := by
  by_cases pos : 0 < n
  · have hne : binds ≠ [] := by
      rintro rfl
      exact absurd (UInt16.lt_iff_toNat_lt.mp pos) (by simp [← hn])
    refine .of_eq (finalizes_buildStmtExecutePacket alloc stmt_id flags hn pos) ?_
    simp [executePrefix, hne]
  · have hzero : n.toNat = 0 := by
      have := mt UInt16.lt_iff_toNat_lt.mpr pos
      simpa using this
    have hnil : binds = [] := List.length_eq_zero_iff.mp (hn.trans hzero)
    subst hnil
    unfold buildStmtExecutePacket
    rw [Proc.when_neg pos]
    refine .of_eq (.bind (appends_writeUint8 _ _) (.bind (appends_writeUint32 _ _)
      (.bind (appends_writeUint8 _ _) (.bind (appends_writeUint32 _ _)
      (.bind .pure .finalize))))) ?_
    simp [executePrefix, executeHead]

/-- The builder has a branch for every type it accepted. -/
theorem writeValues_types {alloc : Alloc} {binds : List BinaryValue} {b b' : Builder}
    (h : writeValues alloc binds b = (.ok (), b')) :
    ∀ bind ∈ binds, ∃ t, TypeT.ofCode bind.type = some t := by
  induction binds generalizing b with
  | nil => simp
  | cons v vs ih =>
    rw [writeValues] at h
    obtain ⟨_, b₁, h₁, h₂⟩ := Proc.bind_ok.mp h
    have hv : ∃ t, TypeT.ofCode v.type = some t := by
      cases ht : TypeT.ofCode v.type with
      | some t => exact ⟨t, rfl⟩
      | none =>
        simp only [writeValue, ht] at h₁
        cases h₁
    exact List.forall_mem_cons.mpr ⟨hv, ih h₂⟩

theorem build_types {alloc : Alloc} {stmt_id : UInt32} {flags : UInt8} {binds : List BinaryValue}
    {n : UInt16} {b b' : Builder} (hn : binds.length = n.toNat) (pos : 0 < n)
    (h : buildStmtExecutePacket alloc stmt_id flags (some binds) n b = (.ok (), b')) :
    ∀ bind ∈ binds, ∃ t, TypeT.ofCode bind.type = some t := by
  have htake : binds.take n.toNat = binds := by rw [← hn, List.take_length]
  unfold buildStmtExecutePacket at h
  rw [Proc.when_pos pos] at h
  simp only [htake] at h
  obtain ⟨_, _, -, h⟩ := Proc.bind_ok.mp h
  obtain ⟨_, _, -, h⟩ := Proc.bind_ok.mp h
  obtain ⟨_, _, -, h⟩ := Proc.bind_ok.mp h
  obtain ⟨_, _, -, h⟩ := Proc.bind_ok.mp h
  obtain ⟨_, _, h, -⟩ := Proc.bind_ok.mp h
  obtain ⟨_, _, -, h⟩ := Proc.bind_ok.mp h
  obtain ⟨_, _, -, h⟩ := Proc.bind_ok.mp h
  obtain ⟨_, _, -, h⟩ := Proc.bind_ok.mp h
  obtain ⟨_, _, -, h⟩ := Proc.bind_ok.mp h
  exact writeValues_types h

def sent (bind : BinaryValue) : Bool := !bind.is_null && bind.type != TypeT.null.code

/-- The documented payload: every null parameter is marked in the bitmap, and
the values are those of the others. -/
def ExecuteLayout (stmt_id : UInt32) (flags : UInt8) (binds : List BinaryValue)
    (payload : List UInt8) : Prop :=
  ∃ bitmap : List UInt8,
    bitmap.length = (binds.length + 7) / 8 ∧
    (∀ i < 8 * bitmap.length, (bitmap.getD (i / 8) 0).toNat.testBit (i % 8) =
      (binds.map (·.is_null)).getD i false) ∧
    payload = executeHead stmt_id flags ++ bitmap ++ 1 :: binds.flatMap typeBytes ++
      (binds.filter sent).flatMap valueBytes

def builtPayload (stmt_id : UInt32) (flags : UInt8) (binds : List BinaryValue) : List UInt8 :=
  executeHead stmt_id flags ++ packBits (binds.map (·.is_null)) ++ 1 :: binds.flatMap typeBytes ++
    binds.flatMap valueBytes

theorem valueBytes_eq_nil {v : BinaryValue} {t : TypeT} (h : TypeT.ofCode v.type = some t) :
    valueBytes v = [] ↔ v.type = TypeT.null.code := by
  have hnull : v.type = TypeT.null.code ↔ t = .null := by
    rw [← TypeT.code_of_ofCode h]
    constructor
    · intro hc
      have := congrArg TypeT.ofCode hc
      rw [TypeT.ofCode_code, TypeT.ofCode_code] at this
      exact Option.some.inj this
    · rintro rfl
      rfl
  rw [hnull, valueBytes_kind h, ← TypeT.kind_eq_null]
  cases t.kind with
  | tiny | short | long | longlong | float | double | year => simp [kindBytes, leBytes]
  | time => cases hf : timeForm v.time <;> simp [kindBytes, hf, TimeForm.bytes]
  | date => cases hf : dateForm v.date <;> simp [kindBytes, hf, DateForm.bytes]
  | str =>
    simp only [kindBytes, lenenc]
    split
    · simp [leBytes]
    · split
      · simp
      · split <;> simp
  | null => simp [kindBytes]

theorem flatMap_filter_eq {α β : Type} (f : α → List β) (p : α → Bool) (xs : List α) :
    xs.flatMap f = (xs.filter p).flatMap f ↔ ∀ x ∈ xs, p x = false → f x = [] := by
  have hle : ∀ ys : List α, ((ys.filter p).flatMap f).length ≤ (ys.flatMap f).length := by
    intro ys
    induction ys with
    | nil => simp
    | cons y ys ih =>
      cases hy : p y with
      | true => simpa [hy] using ih
      | false =>
        simp only [List.filter_cons, hy, List.flatMap_cons, List.length_append]
        exact ih.trans (Nat.le_add_left _ _)
  induction xs with
  | nil => simp
  | cons x xs ih =>
    rw [List.forall_mem_cons]
    cases hx : p x with
    | true => simpa [hx] using ih
    | false =>
      simp only [List.filter_cons, hx, List.flatMap_cons, Bool.false_eq_true, if_false,
        forall_const]
      constructor
      · intro h
        have hlen := congrArg List.length h
        rw [List.length_append] at hlen
        have := hle xs
        have hnil : f x = [] := List.length_eq_zero_iff.mp (by omega)
        exact ⟨hnil, ih.mp (by rwa [hnil] at h)⟩
      · rintro ⟨hnil, h⟩
        rw [hnil, List.nil_append, ih.mpr h]

theorem executeLayout_builtPayload (stmt_id : UInt32) (flags : UInt8) {binds : List BinaryValue}
    (types : ∀ bind ∈ binds, ∃ t, TypeT.ofCode bind.type = some t) :
    ExecuteLayout stmt_id flags binds (builtPayload stmt_id flags binds) ↔
      ∀ bind ∈ binds, bind.is_null = true → bind.type = TypeT.null.code := by
  have hvalues : binds.flatMap valueBytes = (binds.filter sent).flatMap valueBytes ↔
      ∀ bind ∈ binds, bind.is_null = true → bind.type = TypeT.null.code := by
    rw [flatMap_filter_eq]
    constructor
    · intro h bind hb hnull
      obtain ⟨t, ht⟩ := types bind hb
      exact (valueBytes_eq_nil ht).mp (h bind hb (by simp [sent, hnull]))
    · intro h bind hb hsent
      obtain ⟨t, ht⟩ := types bind hb
      refine (valueBytes_eq_nil ht).mpr ?_
      by_cases hnull : bind.is_null = true
      · exact h bind hb hnull
      · simpa [sent, hnull] using hsent
  rw [← hvalues]
  constructor
  · rintro ⟨bitmap, hlen, -, heq⟩
    have hbits : (packBits (binds.map (·.is_null))).length = bitmap.length := by simp [hlen]
    simp only [builtPayload, List.append_assoc] at heq
    have heq := List.append_cancel_left heq
    obtain ⟨-, heq⟩ := List.append_inj heq hbits
    simpa using heq
  · intro h
    exact ⟨packBits (binds.map (·.is_null)), by simp, fun i _ => testBit_packBits _ i, by
      rw [builtPayload, h]⟩

/-- The packet has the documented layout exactly when every null parameter also
has the type NULL. -/
theorem stmtExecute_layout {alloc : Alloc} {buff : Buffer} {s : UInt8} {stmt_id : UInt32}
    {flags : UInt8} {binds : List BinaryValue} {n : UInt16} {max : Nat} {b b' : Builder}
    (hn : binds.length = n.toNat) (pos : 0 < n) (hinit : Builder.init alloc buff s = (.ok (), b))
    (hbuild : buildStmtExecutePacket alloc stmt_id flags (some binds) n
      { b with packet_max_length := max } = (.ok (), b')) :
    (∃ payload, b'.buffer.bytes = frames s payload ∧ ExecuteLayout stmt_id flags binds payload) ↔
      ∀ bind ∈ binds, bind.is_null = true → bind.type = TypeT.null.code := by
  rw [← executeLayout_builtPayload stmt_id flags (build_types hn pos hbuild)]
  have hb := (init_building hinit).setMax max
  obtain ⟨hbytes, -⟩ := finalizes_buildStmtExecutePacket alloc stmt_id flags hn pos hb hbuild
  rw [List.nil_append] at hbytes
  constructor
  · rintro ⟨payload, hp, hlayout⟩
    rw [hbytes] at hp
    rwa [← PacketParser.frames_injective hp] at hlayout
  · intro h
    exact ⟨_, hbytes, h⟩

/-- A 32-bit parameter. -/
def longBind (is_null : Bool) (v : UInt32) : BinaryValue :=
  { (default : BinaryValue) with is_null, type := TypeT.long.code, uint32 := v }

def nullBind : BinaryValue := { (default : BinaryValue) with is_null := true, type := TypeT.null.code }

def textBind (str : List UInt8) : BinaryValue :=
  { (default : BinaryValue) with type := TypeT.varString.code, str }

/-- The second parameter and the ninth are NULL. -/
def mixedBinds : List BinaryValue :=
  [longBind false 7, nullBind, textBind (literal "a"), textBind [], longBind false 1, textBind [],
    textBind [0x27], longBind false 2, nullBind, longBind false 3]

theorem stmtExecute_layout_mixed :
    ∃ b b', Builder.init (fun _ => true) ⟨[], [], 64, by decide⟩ 0 = (.ok (), b) ∧
      buildStmtExecutePacket (fun _ => true) 1 0 (some mixedBinds) 10
        { b with packet_max_length := 1000 } = (.ok (), b') ∧
      (b'.buffer.bytes.drop 14).take 2 = [0x02, 0x01] ∧
      ∃ payload, b'.buffer.bytes = frames 0 payload ∧ ExecuteLayout 1 0 mixedBinds payload := by
  have hinit : Builder.init (fun _ => true) ⟨[], [], 64, by decide⟩ 0 =
      (.ok (), (Builder.init (fun _ => true) ⟨[], [], 64, by decide⟩ 0).2) := by
    decide +kernel
  have hbuild := Proc.ends (m := buildStmtExecutePacket (fun _ => true) 1 0
    (some mixedBinds) 10) (s := { (Builder.init (fun _ => true)
      ⟨[], [], 64, by decide⟩ 0).2 with packet_max_length := 1000 }) (r := .ok ())
    (by decide +kernel)
  exact ⟨_, _, hinit, hbuild, by decide +kernel,
    (stmtExecute_layout rfl (by decide) hinit hbuild).mpr (by decide)⟩

/-- A null parameter of another type is marked in the bitmap and sent as well. -/
theorem stmtExecute_layout_fails :
    ∃ b b', Builder.init (fun _ => true) ⟨[], [], 64, by decide⟩ 0 = (.ok (), b) ∧
      buildStmtExecutePacket (fun _ => true) 1 0 (some [longBind true 7]) 1 b = (.ok (), b') ∧
      ¬ ∃ payload, b'.buffer.bytes = frames 0 payload ∧
        ExecuteLayout 1 0 [longBind true 7] payload := by
  have hinit : Builder.init (fun _ => true) ⟨[], [], 64, by decide⟩ 0 =
      (.ok (), (Builder.init (fun _ => true) ⟨[], [], 64, by decide⟩ 0).2) := by
    decide +kernel
  have hbuild := Proc.ends (m := buildStmtExecutePacket (fun _ => true) 1 0
    (some [longBind true 7]) 1) (s := (Builder.init (fun _ => true)
      ⟨[], [], 64, by decide⟩ 0).2) (r := .ok ()) (by decide +kernel)
  refine ⟨_, _, hinit, hbuild, ?_⟩
  rintro ⟨payload, hp, hlayout⟩
  obtain ⟨hbytes, -⟩ := finalizes_buildStmtExecutePacket (fun _ => true) 1 0 (n := 1) rfl
    (by decide) (init_building hinit) hbuild
  rw [hbytes] at hp
  rw [← PacketParser.frames_injective hp] at hlayout
  have := (executeLayout_builtPayload 1 0 (build_types rfl (by decide) hbuild)).mp hlayout
  revert this
  decide

/-- What a server reads for a time: nothing, where only its days are not zero. -/
def timeReadBack (t : TimeValue) : TimeValue :=
  if DaysOnly t then ⟨false, 0, 0, 0, 0, 0⟩ else t

def readBack (v : BinaryValue) : BinaryValue := { v with time := timeReadBack v.time }

/-- Not null, and of one of the types that have a value; a size is a `size_t`,
and a zero time has no sign. -/
structure Sendable (v : BinaryValue) : Prop where
  not_null : v.is_null = false
  type : ∃ t, TypeT.ofCode v.type = some t ∧ t ≠ .null
  length : v.str.length < 2 ^ 64
  signed : v.type = TypeT.time.code → Signed v.time

/-- `w` holds what `v` does. -/
def SameValue (v w : BinaryValue) : Prop :=
  w.is_null = false ∧ w.type = v.type ∧ (kindOf v.type).Same v w

theorem kindOf_eq_time {type : UInt8} : kindOf type = .time ↔ type = TypeT.time.code := by
  constructor
  · intro h
    unfold kindOf at h
    split at h
    · rename_i t ht
      have : t = .time := by
        cases t <;> first | rfl | cases h
      rw [← TypeT.code_of_ofCode ht, this]
    · cases h
  · rintro rfl
    rfl

/-- The bytes sent for a value are a wire form of it, or of the zero time. -/
theorem encodes_readBack {v : BinaryValue} (h : Sendable v) :
    (kindOf v.type).Encodes (readBack v) (valueBytes v) := by
  obtain ⟨t, ht, hne⟩ := h.type
  have hk : kindOf v.type = t.kind := by rw [kindOf, ht]
  have hsigned : t.kind = .time → Signed v.time :=
    fun he => h.signed (kindOf_eq_time.mp (hk.trans he))
  have hnull : t.kind ≠ .null := fun he => hne (TypeT.kind_eq_null.mp he)
  rw [hk, valueBytes_kind ht]
  generalize t.kind = k at *
  cases k with
  | tiny | short | long | longlong | float | double | year => rfl
  | time =>
    by_cases hd : DaysOnly v.time
    · refine ⟨.empty, ?_, ?_⟩
      · simp [TimeForm.Fits, readBack, timeReadBack, hd]
      · simp [kindBytes, timeForm_daysOnly hd, TimeForm.bytes]
    · refine ⟨timeForm v.time, ?_, ?_⟩
      · simpa [readBack, timeReadBack, hd] using (timeForm_fits (hsigned rfl)).mpr hd
      · simp [kindBytes, readBack, timeReadBack, hd]
  | date => exact ⟨dateForm v.date, dateForm_fits v.date, rfl⟩
  | str => exact ⟨h.length, by rw [kindBytes, Nat.mod_eq_of_lt h.length]; rfl⟩
  | null => exact absurd rfl hnull

theorem rowBytes_values {vs : List BinaryValue} (h : ∀ v ∈ vs, Sendable v) {columns : List Column}
    (hcols : columns.map (·.type) = vs.map (·.type)) :
    RowBytes columns (vs.map fun v => some (readBack v)) (vs.flatMap valueBytes) := by
  induction vs generalizing columns with
  | nil =>
    rw [List.map_nil, List.map_eq_nil_iff] at hcols
    subst hcols
    exact .nil
  | cons v vs ih =>
    cases columns with
    | nil => cases hcols
    | cons column columns =>
      simp only [List.map_cons, List.cons.injEq] at hcols
      obtain ⟨hv, hvs⟩ := List.forall_mem_cons.mp h
      exact .value (hcols.1 ▸ encodes_readBack hv) (ih hvs hcols.2)

theorem sameValue_received {v : BinaryValue} {column : Column}
    (hcol : column.type = v.type) (out : BinaryValue) :
    SameValue v (received column out (some (readBack v))) ↔
      (v.type = TypeT.time.code → ¬ DaysOnly v.time) := by
  obtain ⟨hnull, htype, hsame⟩ := received_holds column out (some (readBack v))
  rw [hcol] at htype hsame
  generalize received column out (some (readBack v)) = w at *
  simp only [SameValue, hnull, htype, true_and]
  rw [← kindOf_eq_time]
  cases hk : kindOf v.type with
  | time =>
    rw [hk] at hsame
    have htime : timeReadBack v.time = w.time := hsame
    simp only [Kind.Same, ← htime, forall_const]
    constructor
    · intro heq hd
      rw [timeReadBack, if_pos hd] at heq
      exact hd.1 (by rw [heq])
    · intro hd
      rw [timeReadBack, if_neg hd]
  | tiny | short | long | longlong | float | double | year | date | str | null =>
    rw [hk] at hsame
    exact ⟨fun _ he => (nomatch he), fun _ => hsame⟩

theorem sameValues_received {vs : List BinaryValue} {columns : List Column}
    (hcols : columns.map (·.type) = vs.map (·.type))
    {outs : List BinaryValue} (houts : outs.length = columns.length) :
    List.Forall₂ SameValue vs (receivedRow columns outs (vs.map fun v => some (readBack v))) ↔
      ∀ v ∈ vs, v.type = TypeT.time.code → ¬ DaysOnly v.time := by
  induction vs generalizing columns outs with
  | nil =>
    rw [List.map_nil, List.map_eq_nil_iff] at hcols
    subst hcols
    simp [receivedRow]
  | cons v vs ih =>
    cases columns with
    | nil => cases hcols
    | cons column columns =>
      obtain ⟨out, outs, rfl⟩ : ∃ o os, outs = o :: os :=
        List.exists_cons_of_length_eq_add_one houts
      simp only [List.map_cons, List.cons.injEq] at hcols
      simp only [List.map_cons, receivedRow, List.forall₂_cons, List.forall_mem_cons]
      rw [sameValue_received hcols.1 out, ih hcols.2 (by simpa using houts)]

/-- The values, behind a header and a bitmap without nulls, as a row. -/
def valueRow (header : UInt8) (n : UInt16) (values : List UInt8) : List UInt8 :=
  header :: List.replicate ((n.toNat + 9) / 8) 0 ++ values

theorem parse_valueRow {vs : List BinaryValue} (h : ∀ v ∈ vs, Sendable v) {columns : List Column}
    (hcols : columns.map (·.type) = vs.map (·.type)) {outs : List BinaryValue}
    (houts : outs.length = columns.length) {n : UInt16} (hn : vs.length = n.toNat)
    (header : UInt8) :
    parse (parseStmtRowPacket columns n.toUInt64 outs)
        (valueRow header n (vs.flatMap valueBytes)) =
      .ok (receivedRow columns outs (vs.map fun v => some (readBack v))) := by
  have hlen : columns.length = n.toNat := by
    have := congrArg List.length hcols
    rw [List.length_map, List.length_map] at this
    rw [this, hn]
  have hlt := n.toNat_lt
  refine parse_stmtRow (rowBytes_values h hcols) (by simp [hlen]) (by omega) (by simp [hlen]) ?_
    houts header
  intro j hj
  rw [List.length_map] at hj
  have hbyte : (List.replicate ((n.toNat + 9) / 8) (0 : UInt8)).getD ((j + 2) / 8) 0 = 0 := by
    rw [List.getD_eq_getElem?_getD, List.getElem?_replicate]
    split <;> rfl
  rw [hbyte, List.getD_eq_getElem _ _ (by simpa using hj)]
  simp

/-- The values of the packet come back as a row, all of them, exactly when none
is a time of nothing but days. -/
theorem stmtValues_roundtrip {alloc : Alloc} {buff : Buffer} {s : UInt8} {stmt_id : UInt32}
    {flags : UInt8} {vs : List BinaryValue} {n : UInt16} {max : Nat} {b b' : Builder}
    (hn : vs.length = n.toNat) (hinit : Builder.init alloc buff s = (.ok (), b))
    (hbuild : buildStmtExecutePacket alloc stmt_id flags (some vs) n
      { b with packet_max_length := max } = (.ok (), b'))
    (sendable : ∀ v ∈ vs, Sendable v) {columns : List Column}
    (hcols : columns.map (·.type) = vs.map (·.type)) {outs : List BinaryValue}
    (houts : outs.length = columns.length) (header : UInt8) :
    ∃ values,
      b'.buffer.bytes = frames s (executePrefix stmt_id flags vs ++ values) ∧
      ((∃ decoded, parse (parseStmtRowPacket columns n.toUInt64 outs) (valueRow header n values) =
          .ok decoded ∧ List.Forall₂ SameValue vs decoded) ↔
        ∀ v ∈ vs, v.type = TypeT.time.code → ¬ DaysOnly v.time) := by
  have hb := (init_building hinit).setMax max
  obtain ⟨hbytes, -⟩ := finalizes_buildStmtExecutePacket_prefix alloc stmt_id flags hn hb hbuild
  rw [List.nil_append] at hbytes
  refine ⟨_, hbytes, ?_⟩
  rw [parse_valueRow sendable hcols houts hn header, ← sameValues_received hcols houts]
  constructor
  · rintro ⟨_, ⟨⟩, hsame⟩
    exact hsame
  · exact fun hsame => ⟨_, rfl, hsame⟩

/-- A parameter of type TIME. -/
def timeBind (time : TimeValue) : BinaryValue :=
  { (default : BinaryValue) with type := TypeT.time.code, time }

/-- A column of type TIME. -/
def timeColumn : Column := { (default : Column) with type := TypeT.time.code }

theorem stmtValues_roundtrip_time :
    ∃ b b' values, Builder.init (fun _ => true) ⟨[], [], 64, by decide⟩ 0 = (.ok (), b) ∧
      buildStmtExecutePacket (fun _ => true) 1 0 (some [timeBind ⟨true, 3, 0, 5, 0, 0⟩]) 1
        { b with packet_max_length := 1000 } = (.ok (), b') ∧
      b'.buffer.bytes = frames 0 (executeHead 1 0 ++ [0] ++ [1, 0x0b, 0] ++ values) ∧
      ∃ decoded, parse (parseStmtRowPacket [timeColumn] 1 [default]) (valueRow 0 1 values) =
          .ok decoded ∧ List.Forall₂ SameValue [timeBind ⟨true, 3, 0, 5, 0, 0⟩] decoded := by
  have hinit : Builder.init (fun _ => true) ⟨[], [], 64, by decide⟩ 0 =
      (.ok (), (Builder.init (fun _ => true) ⟨[], [], 64, by decide⟩ 0).2) := by
    decide +kernel
  have hbuild := Proc.ends (m := buildStmtExecutePacket (fun _ => true) 1 0
    (some [timeBind ⟨true, 3, 0, 5, 0, 0⟩]) 1) (s := { (Builder.init (fun _ => true)
      ⟨[], [], 64, by decide⟩ 0).2 with packet_max_length := 1000 }) (r := .ok ())
    (by decide +kernel)
  have sendable : Sendable (timeBind ⟨true, 3, 0, 5, 0, 0⟩) :=
    ⟨rfl, ⟨.time, rfl, by decide⟩, by decide, fun _ h => absurd h (by decide)⟩
  have hcols : [timeColumn].map (·.type) = [timeBind ⟨true, 3, 0, 5, 0, 0⟩].map (·.type) := rfl
  have houts : [(default : BinaryValue)].length = [timeColumn].length := rfl
  obtain ⟨values, hbytes, h⟩ := stmtValues_roundtrip rfl hinit hbuild
    (by simpa using sendable) hcols houts 0
  exact ⟨_, _, values, hinit, hbuild, hbytes, h.mpr (by simp [timeBind, DaysOnly])⟩

/-- Three days come back as no time at all. -/
theorem stmtValues_roundtrip_fails :
    ∃ b b' values, Builder.init (fun _ => true) ⟨[], [], 64, by decide⟩ 0 = (.ok (), b) ∧
      buildStmtExecutePacket (fun _ => true) 1 0 (some [timeBind ⟨false, 3, 0, 0, 0, 0⟩]) 1 b =
        (.ok (), b') ∧
      b'.buffer.bytes = frames 0 (executeHead 1 0 ++ [0] ++ [1, 0x0b, 0] ++ values) ∧
      ¬ ∃ decoded, parse (parseStmtRowPacket [timeColumn] 1 [default]) (valueRow 0 1 values) =
          .ok decoded ∧ List.Forall₂ SameValue [timeBind ⟨false, 3, 0, 0, 0, 0⟩] decoded := by
  have hinit : Builder.init (fun _ => true) ⟨[], [], 64, by decide⟩ 0 =
      (.ok (), (Builder.init (fun _ => true) ⟨[], [], 64, by decide⟩ 0).2) := by
    decide +kernel
  have hbuild := Proc.ends (m := buildStmtExecutePacket (fun _ => true) 1 0
    (some [timeBind ⟨false, 3, 0, 0, 0, 0⟩]) 1) (s := (Builder.init (fun _ => true)
      ⟨[], [], 64, by decide⟩ 0).2) (r := .ok ()) (by decide +kernel)
  obtain ⟨hbytes, -⟩ := finalizes_buildStmtExecutePacket (fun _ => true) 1 0 (n := 1) rfl
    (by decide) (init_building hinit) hbuild
  refine ⟨_, _, [0], hinit, hbuild, hbytes, ?_⟩
  have hparse : parse (parseStmtRowPacket [timeColumn] 1 [default]) (valueRow 0 1 [0]) =
      .ok [timeBind ⟨false, 0, 0, 0, 0, 0⟩] := by
    decide +kernel
  rw [hparse]
  rintro ⟨_, ⟨⟩, hsame⟩
  obtain ⟨⟨-, -, htime⟩, -⟩ := List.forall₂_cons.mp hsame
  have htime : TimeValue.mk false 3 0 0 0 0 = TimeValue.mk false 0 0 0 0 0 := htime
  exact absurd htime (by decide)

end Trilogy
