import Trilogy.BinaryRow

/-! Whatever the bytes are: every parser ends, reads nothing outside the packet,
writes nothing outside the arrays of its record, and hands out slices of the
packet. Each reader checks once for all the bytes it is about to take
(`safe_check`), which pays for them one by one (`SafeFrom.next`). -/
namespace Trilogy

open Lib

namespace Reader

variable {buff : List UInt8}

/-- Safe where `k` more bytes are known to be there. -/
def SafeFrom {α : Type} (k : Nat) (buff : List UInt8) (m : Proc Code Reader α) (Q : α → Prop) :
    Prop :=
  ∀ c : Reader, Cursor.Inside buff c → c.pos + k ≤ buff.length →
    Cursor.Inside buff (m c).2 ∧ ∀ a, (m c).1 = .ok a → Q a

theorem SafeFrom.of_safe {α : Type} {k : Nat} {m : Proc Code Reader α} {Q : α → Prop}
    (h : Cursor.Safe buff m Q) : SafeFrom k buff m Q :=
  fun c hc _ => h c hc

theorem SafeFrom.next {α : Type} {k : Nat} {f : UInt8 → Proc Code Reader α} {Q : α → Prop}
    (h : ∀ b, SafeFrom k buff (f b) Q) : SafeFrom (k + 1) buff (nextUint8 >>= f) Q := by
  intro c hc hk
  have hlt : c.pos < c.buff.length := by
    rw [hc.same]
    omega
  have hin : Cursor.Inside buff c.step :=
    ⟨hc.same, by rw [← hc.same]; exact hlt, List.forall_mem_cons.mpr ⟨hlt, hc.log⟩⟩
  exact h _ c.step hin (by change c.pos + 1 + k ≤ _; omega)

theorem safe_check {α : Type} {bytes : Nat} {f : Unit → Proc Code Reader α} {Q : α → Prop}
    (h : SafeFrom bytes buff (f ()) Q) : Cursor.Safe buff (check bytes >>= f) Q := by
  intro c hc
  have hin : Cursor.Inside buff (c.touch c.pos (c.buff.length + 1)) := by
    refine ⟨hc.same, hc.pos_le, List.forall_mem_cons.mpr ⟨?_, hc.log⟩⟩
    have := hc.pos_le
    rw [← hc.same] at this
    exact Nat.lt_succ_of_le this
  by_cases hroom : bytes > c.buff.length - c.pos
  · have he : check bytes c = (.error .truncatedPacket, c.touch c.pos (c.buff.length + 1)) := by
      change (if bytes > c.buff.length - c.pos then throw .truncatedPacket else pure () :
        Proc Code Reader Unit) _ = _
      rw [if_pos hroom]
      rfl
    rw [Proc.bind_of_error he]
    exact ⟨hin, by rintro _ ⟨⟩⟩
  · have he : check bytes c = (.ok (), c.touch c.pos (c.buff.length + 1)) := by
      change (if bytes > c.buff.length - c.pos then throw .truncatedPacket else pure () :
        Proc Code Reader Unit) _ = _
      rw [if_neg hroom]
      rfl
    rw [Proc.bind_of_ok he]
    have := hc.pos_le
    rw [hc.same] at hroom
    exact h _ hin (by simp only [Cursor.pos_touch]; omega)

theorem safe_get {α : Type} {f : Reader → Proc Code Reader α} {Q : α → Prop}
    (h : ∀ c, Cursor.Inside buff c → Cursor.Inside buff (f c c).2 ∧ ∀ a, (f c c).1 = .ok a → Q a) :
    Cursor.Safe buff (get >>= f) Q :=
  h

theorem safe_getUint8 : Cursor.Safe buff getUint8 fun _ => True := by
  have h : Cursor.Safe buff (check 1 >>= fun _ => nextUint8 >>= pure) fun _ => True :=
    safe_check <| .next fun _ => .of_safe (.pure trivial)
  rwa [bind_pure] at h

theorem safe_getUint16 : Cursor.Safe buff getUint16 fun _ => True :=
  safe_check <| .next fun _ => .next fun _ => .of_safe (.pure trivial)

theorem safe_getUint24 : Cursor.Safe buff getUint24 fun _ => True :=
  safe_check <| .next fun _ => .next fun _ => .next fun _ => .of_safe (.pure trivial)

theorem safe_getUint32 : Cursor.Safe buff getUint32 fun _ => True :=
  safe_check <| .next fun _ => .next fun _ => .next fun _ => .next fun _ =>
    .of_safe (.pure trivial)

theorem safe_getUint64 : Cursor.Safe buff getUint64 fun _ => True :=
  safe_check <| .next fun _ => .next fun _ => .next fun _ => .next fun _ => .next fun _ =>
    .next fun _ => .next fun _ => .next fun _ => .of_safe (.pure trivial)

theorem safe_getFloat : Cursor.Safe buff getFloat fun _ => True :=
  safe_check (.of_safe safe_getUint32)

theorem safe_getDouble : Cursor.Safe buff getDouble fun _ => True :=
  safe_check (.of_safe safe_getUint64)

theorem safe_getLenenc : Cursor.Safe buff getLenenc fun _ => True := by
  refine safe_check <| .next fun leader => .of_safe ?_
  exact .ite (fun _ => .pure trivial) fun _ => .ite (fun _ => .throw _) fun _ =>
    .ite (fun _ => .bind safe_getUint16 fun _ _ => .pure trivial) fun _ =>
    .ite (fun _ => .bind safe_getUint24 fun _ _ => .pure trivial) fun _ =>
    .ite (fun _ => safe_getUint64) fun _ => .throw _

theorem inside_advance {c : Reader} (hc : Cursor.Inside buff c) {n : Nat}
    (h : c.pos + n ≤ buff.length) : Cursor.Inside buff (c.advance n) := by
  refine ⟨hc.same, h, List.forall_mem_cons.mpr ⟨?_, hc.log⟩⟩
  rw [← hc.same] at h
  exact Nat.lt_succ_of_le h

theorem infix_rest {c : Reader} (hc : Cursor.Inside buff c) : c.rest <:+: buff := by
  rw [Cursor.rest, hc.same]
  exact (List.drop_suffix _ _).isInfix

theorem infix_take {c : Reader} (hc : Cursor.Inside buff c) (n : Nat) : c.rest.take n <:+: buff :=
  (List.take_prefix _ _).isInfix.trans (infix_rest hc)

theorem safe_getBuffer (len : Nat) :
    Cursor.Safe buff (getBuffer len) fun s => s <:+: buff ∧ s.length = len := by
  refine safe_check fun c hc hroom => ⟨inside_advance hc hroom, ?_⟩
  rintro _ ⟨⟩
  refine ⟨infix_take hc len, ?_⟩
  rw [List.length_take, c.length_rest, hc.same]
  omega

theorem safe_copyBuffer {len start size : Nat} (h : start + len ≤ size) :
    Cursor.Safe buff (copyBuffer len start size) fun s => s <:+: buff ∧ s.length = len :=
  .bind (safe_getBuffer len) fun _ hs =>
    .bind (.mark fun _ _ => Nat.lt_succ_of_le h) fun _ _ => .pure hs

theorem safe_getLenencBuffer : Cursor.Safe buff getLenencBuffer (· <:+: buff) :=
  .bind safe_getLenenc fun len _ => safe_get fun c hc =>
    (Cursor.Safe.ite (fun _ => .throw _)
      fun _ => (safe_getBuffer len.toNat).weaken fun _ h => h.1) c hc

theorem safe_getString : Cursor.Safe buff getString (· <:+: buff) := by
  refine safe_get fun c hc => ?_
  by_cases h : (c.rest.takeWhile (· ≠ 0)).length < c.rest.length
  · rw [if_pos h]
    rw [c.length_rest, hc.same] at h
    refine ⟨inside_advance hc (by omega), ?_⟩
    rintro _ ⟨⟩
    exact infix_take hc _
  · rw [if_neg h]
    exact Cursor.Safe.throw _ c hc

theorem safe_getEofBuffer : Cursor.Safe buff getEofBuffer (· <:+: buff) := by
  refine safe_get fun c hc => ⟨inside_advance hc ?_, ?_⟩
  · have := hc.pos_le
    rw [hc.same]
    omega
  · rintro _ ⟨⟩
    exact infix_rest hc

theorem safe_copyString {s : List UInt8} {size : Nat} (h : s.length + 1 ≤ size) :
    Cursor.Safe buff (copyString s size) fun _ => True := by
  refine .bind (.mark fun c hc => ?_) fun _ _ => .mark fun _ _ => Nat.lt_succ_of_le h
  have := hc.pos_le
  rw [← hc.same] at this
  exact Nat.lt_succ_of_le this

theorem moves_nextUint8 : Cursor.Moves 1 nextUint8 := by
  intro c a c' h
  cases h
  exact ⟨rfl, Nat.le_refl _⟩

theorem moves_check (bytes : Nat) : Cursor.Moves 0 (check bytes) :=
  .bind (.mark _) fun _ => .bind .get fun _ => .ite (.throw _) (.pure _)

theorem moves_getUint8 : Cursor.Moves 1 getUint8 := .bind (moves_check 1) fun _ => moves_nextUint8

theorem moves_getUint16 : Cursor.Moves 2 getUint16 :=
  .bind (moves_check 2) fun _ => .bind moves_nextUint8 fun _ => .bind moves_nextUint8 fun _ =>
    .pure _

theorem moves_getUint24 : Cursor.Moves 3 getUint24 :=
  .bind (moves_check 3) fun _ => .bind moves_nextUint8 fun _ => .bind moves_nextUint8 fun _ =>
    .bind moves_nextUint8 fun _ => .pure _

theorem moves_getUint64 : Cursor.Moves 8 getUint64 :=
  .bind (moves_check 8) fun _ => .bind moves_nextUint8 fun _ => .bind moves_nextUint8 fun _ =>
    .bind moves_nextUint8 fun _ => .bind moves_nextUint8 fun _ => .bind moves_nextUint8 fun _ =>
    .bind moves_nextUint8 fun _ => .bind moves_nextUint8 fun _ => .bind moves_nextUint8 fun _ =>
    .pure _

theorem moves_getLenenc : Cursor.Moves 1 getLenenc :=
  .bind (moves_check 1) fun _ => .bind moves_nextUint8 fun _ => .ite (.pure _) <|
    .ite (.throw _) <| .ite (.weaken (.bind moves_getUint16 fun _ => .pure _) (Nat.zero_le _)) <|
    .ite (.weaken (.bind moves_getUint24 fun _ => .pure _) (Nat.zero_le _)) <|
    .ite (.weaken moves_getUint64 (Nat.zero_le _)) (.throw _)

theorem moves_getBuffer (len : Nat) : Cursor.Moves len (getBuffer len) := by
  have h : Cursor.Moves (0 + len) (getBuffer len) := by
    refine .bind (moves_check len) fun _ => ?_
    intro c a c' h
    cases h
    exact ⟨rfl, Nat.le_refl _⟩
  rwa [Nat.zero_add] at h

theorem moves_getLenencBuffer : Cursor.Moves 1 getLenencBuffer :=
  .bind moves_getLenenc fun _ => .bind .get fun _ =>
    .ite (.throw _) (.weaken (moves_getBuffer _) (Nat.zero_le _))

theorem safe_eof : Cursor.Safe buff eof fun _ => True :=
  safe_get fun _ hc => ⟨hc, fun _ _ => trivial⟩

theorem safe_finish : Cursor.Safe buff finish fun _ => True :=
  safe_get fun c hc => (Cursor.Safe.ite (fun _ => .throw _) fun _ => .pure trivial) c hc

end Reader

open Reader

variable {buff : List UInt8}

theorem safe_sessionStateChanges (turns : Nat) {last_gtid whole : List UInt8}
    (hwhole : buff <:+: whole) (hgtid : last_gtid <:+: whole) :
    Cursor.Safe buff (sessionStateChanges turns last_gtid) (· <:+: whole) := by
  induction turns generalizing last_gtid with
  | zero => exact .pure hgtid
  | succ turns ih =>
    refine .bind safe_eof fun _ _ => .ite (fun _ => .pure hgtid) fun _ =>
      .bind safe_getUint8 fun _ _ => .bind safe_getLenencBuffer fun info hinfo =>
      .ite (fun _ => ?_) fun _ => ih hgtid
    refine .bind (.nested (.bind safe_getUint8 fun _ _ => safe_getLenencBuffer)) fun gtid h =>
      .ite (fun _ => .throw _) fun _ => ih ?_
    exact (h.trans hinfo).trans hwhole

/-- The loop over the session-state changes ends by itself: turns beyond the
bytes that are there change nothing. -/
theorem sessionStateChanges_turns {turns : Nat} (last_gtid : List UInt8) {c : Reader}
    (h : c.buff.length ≤ c.pos + turns) (more : Nat) :
    sessionStateChanges (turns + more) last_gtid c = sessionStateChanges turns last_gtid c := by
  induction turns generalizing last_gtid c with
  | zero =>
    have hdone : eof c = (.ok true, c) := by
      rw [eof, Proc.get_bind, decide_eq_false (by omega)]
      rfl
    cases more with
    | zero => rfl
    | succ more =>
      rw [Nat.zero_add]
      exact Proc.bind_of_ok hdone
  | succ turns ih =>
    rw [Nat.add_right_comm, sessionStateChanges, sessionStateChanges]
    refine Proc.bind_congr fun done c₁ h₁ => ?_
    split
    · rfl
    · cases h₁
      refine Proc.bind_congr fun type c₂ h₂ => Proc.bind_congr fun info c₃ h₃ => ?_
      obtain ⟨hb₂, hp₂⟩ := moves_getUint8 h₂
      obtain ⟨hb₃, hp₃⟩ := moves_getLenencBuffer h₃
      have hlen : c₃.buff.length ≤ c₃.pos + turns := by
        rw [hb₃, hb₂]
        omega
      split
      · refine Proc.bind_congr fun gtid c₄ h₄ => ?_
        obtain ⟨hb₄, hp₄⟩ := Cursor.Moves.nested _ _ h₄
        split
        · rfl
        · exact ih gtid (by rw [hb₄]; omega)
      · exact ih last_gtid hlen

/-- The strings of a record are slices of the packet. -/
structure OkPacket.Slices (buff : List UInt8) (p : OkPacket) : Prop where
  session_status : p.session_status <:+: buff
  session_state_changes : p.session_state_changes <:+: buff
  info : p.info <:+: buff
  last_gtid : p.last_gtid <:+: buff

theorem safe_parseOkStatus (capabilities : UInt32) {packet : OkPacket} (h : packet.Slices buff) :
    Cursor.Safe buff (parseOkStatus capabilities packet) (·.Slices buff) :=
  .ite (fun _ => .bind safe_getUint16 fun _ _ => .bind safe_getUint16 fun _ _ =>
      .pure { h with }) fun _ =>
    .ite (fun _ => .bind safe_getUint16 fun _ _ => .pure { h with }) fun _ => .pure h

theorem safe_parseOkInfo (capabilities : UInt32) {packet : OkPacket} (h : packet.Slices buff) :
    Cursor.Safe buff (parseOkInfo capabilities packet) (·.Slices buff) :=
  .bind safe_eof fun _ _ => .ite
    (fun _ => .bind safe_getLenencBuffer fun _ hstatus => .ite
      (fun _ => .bind safe_getLenencBuffer fun _ hchanges =>
        .bind (.nested (safe_sessionStateChanges _ hchanges List.nil_infix)) fun _ hgtid =>
        .pure { h with
          session_status := hstatus, session_state_changes := hchanges, last_gtid := hgtid })
      fun _ => .pure { h with session_status := hstatus })
    fun _ => .bind safe_getEofBuffer fun _ hinfo => .pure { h with info := hinfo }

theorem safe_parseOkPacket (capabilities : UInt32) :
    Cursor.Safe buff (parseOkPacket capabilities) (·.Slices buff) :=
  .bind safe_getUint8 fun _ _ => .bind safe_getLenenc fun _ _ => .bind safe_getLenenc fun _ _ =>
    .bind (safe_parseOkStatus _ ⟨List.nil_infix, List.nil_infix, List.nil_infix, List.nil_infix⟩)
    fun _ h => .bind (safe_parseOkInfo _ h) fun _ h => .bind safe_finish fun _ _ => .pure h

theorem safe_parseEofPacket (capabilities : UInt32) :
    Cursor.Safe buff (parseEofPacket capabilities) fun _ => True :=
  .bind safe_getUint8 fun _ _ => .ite
    (fun _ => .bind safe_getUint16 fun _ _ => .bind safe_getUint16 fun _ _ =>
      .bind safe_finish fun _ _ => .pure trivial)
    fun _ => .bind safe_finish fun _ _ => .pure trivial

structure ErrPacket.Slices (buff : List UInt8) (p : ErrPacket) : Prop where
  error_message : p.error_message <:+: buff
  sql_state_marker : p.sql_state_marker.length = 1
  sql_state : p.sql_state.length = 5

theorem safe_parseErrPacket (capabilities : UInt32) :
    Cursor.Safe buff (parseErrPacket capabilities) (·.Slices buff) :=
  .bind safe_getUint8 fun _ _ => .bind safe_getUint16 fun _ _ => .ite
    (fun _ => .bind safe_getUint8 fun _ _ => .bind (.mark fun _ _ => Nat.one_pos) fun _ _ =>
      .bind (safe_copyBuffer (by decide)) fun _ hstate => .bind safe_getEofBuffer fun _ hmessage =>
      .bind safe_finish fun _ _ => .pure ⟨hmessage, rfl, hstate.2⟩)
    fun _ => .bind safe_getEofBuffer fun _ hmessage => .bind safe_finish fun _ _ =>
      .pure ⟨hmessage, rfl, rfl⟩

/-- The C string fits the array of the record, and the scramble fills its own. -/
structure AuthSwitchRequestPacket.Fits (p : AuthSwitchRequestPacket) : Prop where
  auth_plugin : p.auth_plugin.length < 32
  scramble : p.scramble.length = 21

theorem safe_parseAuthSwitchRequestPacket (capabilities : UInt32) {out : AuthSwitchRequestPacket}
    (hout : out.scramble.length = 21) :
    Cursor.Safe buff (parseAuthSwitchRequestPacket capabilities out) (·.Fits) := by
  refine .bind safe_getUint8 fun _ _ => .ite (fun _ => ?_) fun _ => .throw _
  refine .bind safe_getString fun plugin _ => .ite (fun _ => .throw _) fun hplugin => ?_
  refine .bind (safe_copyString (by omega)) fun _ _ => .bind safe_getEofBuffer fun data _ => ?_
  have hdata : (data.take 21).length ≤ 21 := List.length_take_le _ _
  refine .bind (.mark fun _ _ => Nat.lt_succ_of_le hdata) fun _ _ => .bind safe_finish fun _ _ =>
    .pure ⟨by simp only; omega, ?_⟩
  rw [List.length_append, List.length_drop, hout]
  omega

/-- A plugin name that was not written is the one of `out`. -/
structure Handshake.Fits (out h : Handshake) : Prop where
  server_version : h.server_version.length < 32
  scramble : h.scramble.length = 21
  auth_plugin : h.auth_plugin.length < 32 ∨ h.auth_plugin = out.auth_plugin

theorem safe_when_throw {c : Prop} [Decidable c] (e : Code) :
    Cursor.Safe buff (Proc.when c (throw e : Proc Code Reader Unit)) fun _ => ¬ c :=
  .ite (fun _ => .throw _) fun h => .pure h

theorem safe_parseAuthPlugin (capabilities : UInt32) (auth_plugin : List UInt8) :
    Cursor.Safe buff (parseAuthPlugin capabilities auth_plugin) fun p =>
      p.length < 32 ∨ p = auth_plugin :=
  .ite (fun _ => .bind safe_getString fun _ _ => .ite (fun _ => .throw _) fun hplugin =>
      .bind (safe_copyString (by omega)) fun _ _ => .pure (.inl (by omega)))
    fun _ => .pure (.inr rfl)

theorem safe_parseHandshakePacket (out : Handshake) :
    Cursor.Safe buff (parseHandshakePacket out) out.Fits := by
  refine .bind safe_getUint8 fun _ _ => .bind (safe_when_throw _) fun _ _ =>
    .bind safe_getString fun version _ => ?_
  have hversion : (version.take 31).length < 32 := Nat.lt_succ_of_le (List.length_take_le _ _)
  refine .bind (.mark fun _ _ => hversion) fun _ _ => .bind safe_getUint32 fun _ _ =>
    .bind (safe_copyBuffer (by decide)) fun scramble hscramble => .bind safe_getUint8 fun _ _ =>
    .bind (safe_when_throw _) fun _ _ => .bind safe_getUint16 fun _ _ =>
    .bind (safe_when_throw _) fun _ _ => .bind safe_getUint8 fun _ _ =>
    .bind safe_getUint16 fun _ _ => .bind safe_getUint16 fun _ _ =>
    .bind safe_getUint8 fun len _ => .bind (safe_when_throw _) fun _ _ =>
    .bind (safe_getBuffer 10) fun _ _ => .bind (safe_when_throw _) fun _ _ =>
    .bind (safe_when_throw _) fun _ hlen => ?_
  have hlen : len.toNat = 21 := (not_not.mp hlen).symm
  refine .bind (safe_copyBuffer (by omega)) fun more hmore =>
    .bind (safe_parseAuthPlugin _ _) fun _ hplugin => .bind safe_finish fun _ _ =>
    .pure ⟨hversion, ?_, hplugin⟩
  rw [List.length_append, hscramble.2, hmore.2, hlen]

theorem safe_parseResultPacket : Cursor.Safe buff parseResultPacket fun _ => True :=
  .bind safe_getLenenc fun _ _ => .bind safe_finish fun _ _ => .pure trivial

/-- A value for each column, NULL or a slice of the packet. -/
structure RowSlices (buff : List UInt8) (columns : Nat) (values : List Value) : Prop where
  length : values.length = columns
  data : ∀ data, some data ∈ values → data <:+: buff

theorem safe_parseValues (columns : Nat) :
    Cursor.Safe buff (parseValues columns) (RowSlices buff columns) := by
  induction columns with
  | zero => exact .pure ⟨rfl, by simp⟩
  | succ columns ih =>
    refine .bind (.attempt safe_getLenencBuffer) fun rc hrc => ?_
    cases rc with
    | ok data =>
      refine .bind ih fun values h => .pure ⟨by simp [h.length], fun data' hmem => ?_⟩
      rcases List.mem_cons.mp hmem with hmem | hmem
      · cases hmem
        exact hrc data rfl
      · exact h.data data' hmem
    | error rc =>
      cases rc with
      | nullValue =>
        exact .bind ih fun values h => .pure ⟨by simp [h.length], fun data' hmem =>
          h.data data' (by simpa using hmem)⟩
      | _ => exact .throw _

theorem safe_parseRowPacket (column_count : UInt64) :
    Cursor.Safe buff (parseRowPacket column_count) (RowSlices buff column_count.toNat) :=
  .bind (safe_parseValues _) fun _ h => .bind safe_finish fun _ _ => .pure h

structure Column.Slices (buff : List UInt8) (c : Column) : Prop where
  catalog : c.catalog <:+: buff
  schema : c.schema <:+: buff
  table : c.table <:+: buff
  original_table : c.original_table <:+: buff
  name : c.name <:+: buff
  original_name : c.original_name <:+: buff
  default_value : c.default_value <:+: buff

theorem safe_parseColumnPacket (field_list : Bool) :
    Cursor.Safe buff (parseColumnPacket field_list) (·.Slices buff) :=
  .bind safe_getLenencBuffer fun _ catalog => .bind safe_getLenencBuffer fun _ schema =>
    .bind safe_getLenencBuffer fun _ table => .bind safe_getLenencBuffer fun _ original_table =>
    .bind safe_getLenencBuffer fun _ name => .bind safe_getLenencBuffer fun _ original_name =>
    .bind safe_getLenenc fun _ _ => .bind safe_getUint16 fun _ _ => .bind safe_getUint32 fun _ _ =>
    .bind safe_getUint8 fun _ _ => .bind safe_getUint16 fun _ _ => .bind safe_getUint8 fun _ _ =>
    .bind safe_getUint16 fun _ _ =>
    .bind (.ite (fun _ => safe_getLenencBuffer) fun _ => .pure List.nil_infix) fun _ default =>
    .bind safe_finish fun _ _ =>
    .pure ⟨catalog, schema, table, original_table, name, original_name, default⟩

theorem safe_parseStmtOkPacket : Cursor.Safe buff parseStmtOkPacket fun _ => True :=
  .bind safe_getUint8 fun _ _ => .bind safe_getUint32 fun _ _ => .bind safe_getUint16 fun _ _ =>
    .bind safe_getUint16 fun _ _ => .bind safe_getUint8 fun _ _ => .bind (safe_when_throw _)
    fun _ _ => .bind safe_getUint16 fun _ _ => .bind safe_finish fun _ _ => .pure trivial

/-- A string that was read, and not one the caller left there, is a slice. -/
def BinaryValue.Sliced (buff : List UInt8) (v : BinaryValue) : Prop :=
  v.is_null = false → kindOf v.type = .str → v.str <:+: buff

theorem safe_isNull {bitmap : List UInt8} {len i : Nat} (h : (i + 2) / 8 < bitmap.length) :
    Cursor.Safe buff (isNull bitmap len i) fun _ => True :=
  .ite (fun _ => .throw _) fun _ => .bind (.mark fun _ _ => h) fun _ _ => .pure trivial

theorem safe_parseDate : Cursor.Safe buff parseDate fun _ => True :=
  .bind safe_getUint8 fun _ _ => .ite (fun _ => .pure trivial) fun _ =>
    .ite (fun _ => .bind safe_getUint16 fun _ _ => .bind safe_getUint8 fun _ _ =>
      .bind safe_getUint8 fun _ _ => .pure trivial) fun _ =>
    .ite (fun _ => .bind safe_getUint16 fun _ _ => .bind safe_getUint8 fun _ _ =>
      .bind safe_getUint8 fun _ _ => .bind safe_getUint8 fun _ _ => .bind safe_getUint8 fun _ _ =>
      .bind safe_getUint8 fun _ _ => .pure trivial) fun _ =>
    .ite (fun _ => .bind safe_getUint16 fun _ _ => .bind safe_getUint8 fun _ _ =>
      .bind safe_getUint8 fun _ _ => .bind safe_getUint8 fun _ _ => .bind safe_getUint8 fun _ _ =>
      .bind safe_getUint8 fun _ _ => .bind safe_getUint32 fun _ _ => .pure trivial) fun _ =>
    .throw _

theorem safe_parseTime : Cursor.Safe buff parseTime fun _ => True :=
  .bind safe_getUint8 fun _ _ => .ite (fun _ => .pure trivial) fun _ =>
    .ite (fun _ => .bind safe_getUint8 fun _ _ => .bind safe_getUint32 fun _ _ =>
      .bind safe_getUint8 fun _ _ => .bind safe_getUint8 fun _ _ => .bind safe_getUint8 fun _ _ =>
      .pure trivial) fun _ =>
    .ite (fun _ => .bind safe_getUint8 fun _ _ => .bind safe_getUint32 fun _ _ =>
      .bind safe_getUint8 fun _ _ => .bind safe_getUint8 fun _ _ => .bind safe_getUint8 fun _ _ =>
      .bind safe_getUint32 fun _ _ => .pure trivial) fun _ => .throw _

theorem safe_parseMember {type : UInt8} {out : BinaryValue} (hout : out.type = type) :
    Cursor.Safe buff (parseMember type out) (·.Sliced buff) := by
  cases ht : TypeT.ofCode type with
  | none =>
    simp only [parseMember, ht]
    exact .throw _
  | some t =>
    have hkind : kindOf type = t.kind := by rw [kindOf, ht]
    have other : t.kind ≠ .str → ∀ v : BinaryValue, v.type = type → v.Sliced buff :=
      fun hk v hv _ h => absurd (hkind ▸ hv ▸ h) hk
    rw [parseMember_kind ht]
    cases hk : t.kind with
    | tiny => exact .bind safe_getUint8 fun _ _ => .pure (other (by simp [hk]) _ hout)
    | short => exact .bind safe_getUint16 fun _ _ => .pure (other (by simp [hk]) _ hout)
    | long => exact .bind safe_getUint32 fun _ _ => .pure (other (by simp [hk]) _ hout)
    | longlong => exact .bind safe_getUint64 fun _ _ => .pure (other (by simp [hk]) _ hout)
    | float => exact .bind safe_getFloat fun _ _ => .pure (other (by simp [hk]) _ hout)
    | double => exact .bind safe_getDouble fun _ _ => .pure (other (by simp [hk]) _ hout)
    | year => exact .bind safe_getUint16 fun _ _ => .pure (other (by simp [hk]) _ hout)
    | time => exact .bind safe_parseTime fun _ _ => .pure (other (by simp [hk]) _ hout)
    | date => exact .bind safe_parseDate fun _ _ => .pure (other (by simp [hk]) _ hout)
    | str => exact .bind safe_getLenencBuffer fun _ hstr => .pure fun _ _ => hstr
    | null => exact .throw _

theorem safe_parseBinaryValues {bitmap : List UInt8} {len i : Nat}
    {slots : List (Column × BinaryValue)} (h : ∀ j < slots.length, (i + j + 2) / 8 < bitmap.length) :
    Cursor.Safe buff (parseBinaryValues bitmap len i slots) fun values =>
      values.length = slots.length ∧ ∀ v ∈ values, v.Sliced buff := by
  induction slots generalizing i with
  | nil => exact .pure ⟨rfl, by simp⟩
  | cons slot slots ih =>
    have hvalue : Cursor.Safe buff (parseBinaryValue bitmap len i slot.1 slot.2)
        (·.Sliced buff) :=
      .bind (safe_isNull (h 0 (by simp))) fun _ _ =>
        .ite (fun _ => .pure fun hnull => nomatch hnull) fun _ => safe_parseMember rfl
    refine .bind hvalue fun v hv => .bind (ih fun j hj => ?_) fun values hvalues => .pure ?_
    · have := h (j + 1) (by simpa using hj)
      rwa [← Nat.add_assoc, Nat.add_right_comm i] at this
    · exact ⟨by simp [hvalues.1], List.forall_mem_cons.mpr ⟨hv, hvalues.2⟩⟩

/-- No more than a value for each column. -/
structure StmtRowSlices (buff : List UInt8) (columns : Nat) (values : List BinaryValue) :
    Prop where
  length : values.length ≤ columns
  data : ∀ v ∈ values, v.Sliced buff

/-- The bitmap has a byte for every column, with the two bits in front. -/
theorem safe_parseStmtRowPacket (columns : List Column) {n : UInt64} (hn : n.toNat ≤ 2 ^ 64 - 10)
    (outs : List BinaryValue) :
    Cursor.Safe buff (parseStmtRowPacket columns n outs) (StmtRowSlices buff n.toNat) := by
  have hlen : ((n + 7 + 2) / 8).toNat = (n.toNat + 9) / 8 := by
    simp only [UInt64.toNat_div, UInt64.toNat_add]
    change ((n.toNat + 7) % 2 ^ 64 + 2) % 2 ^ 64 / 8 = _
    omega
  refine .bind safe_getUint8 fun _ _ => .bind (safe_getBuffer _) fun bitmap hbitmap =>
    .bind (safe_parseBinaryValues fun j hj => ?_) fun values hvalues =>
    .bind safe_finish fun _ _ => .pure ⟨?_, hvalues.2⟩
  · have := hbitmap.2.trans hlen
    rw [List.length_take] at hj
    omega
  · rw [hvalues.1, List.length_take]
    omega

/-- The ten parsers, over any bytes and any other argument. The tenth gets a column
and a place for a value for each of `column_count`. The loop over the session-state
changes is the one that nothing else counts. -/
theorem parsers_inBounds (buff : List UInt8) (capabilities : UInt32) (field_list : Bool)
    (switch : AuthSwitchRequestPacket) (hswitch : switch.scramble.length = 21) (hello : Handshake)
    (columns : List Column) (column_count : UInt64) (hcount : column_count.toNat ≤ 2 ^ 64 - 10)
    (out_values : List BinaryValue) (hcolumns : columns.length = column_count.toNat)
    (hvalues : out_values.length = column_count.toNat) :
    Cursor.Safe buff (parseOkPacket capabilities) (·.Slices buff) ∧
    Cursor.Safe buff (parseEofPacket capabilities) (fun _ => True) ∧
    Cursor.Safe buff (parseErrPacket capabilities) (·.Slices buff) ∧
    Cursor.Safe buff (parseAuthSwitchRequestPacket capabilities switch) (·.Fits) ∧
    Cursor.Safe buff (parseHandshakePacket hello) hello.Fits ∧
    Cursor.Safe buff parseResultPacket (fun _ => True) ∧
    Cursor.Safe buff (parseRowPacket column_count) (RowSlices buff column_count.toNat) ∧
    Cursor.Safe buff (parseColumnPacket field_list) (·.Slices buff) ∧
    Cursor.Safe buff parseStmtOkPacket (fun _ => True) ∧
    Cursor.Safe buff (parseStmtRowPacket columns column_count out_values)
      (StmtRowSlices buff column_count.toNat) ∧
    ((columns.zip out_values).take column_count.toNat).length = column_count.toNat ∧
    ∀ (changes last_gtid : List UInt8) (more : Nat),
      sessionStateChanges (changes.length + more) last_gtid (Cursor.ofList changes) =
        sessionStateChanges changes.length last_gtid (Cursor.ofList changes) := by
  refine ⟨safe_parseOkPacket _, safe_parseEofPacket _, safe_parseErrPacket _,
    safe_parseAuthSwitchRequestPacket _ hswitch, safe_parseHandshakePacket _,
    safe_parseResultPacket, safe_parseRowPacket _, safe_parseColumnPacket _,
    safe_parseStmtOkPacket, safe_parseStmtRowPacket _ hcount _, ?_, ?_⟩
  · rw [List.length_take, List.length_zip]
    omega
  · intro changes last_gtid more
    apply sessionStateChanges_turns
    simp [Cursor.ofList]

/-- An OK packet with the id of a transaction among its session-state changes. -/
def changedOkPacket : List UInt8 :=
  [0x00, 0, 0, 0x02, 0x40, 0, 0, 0, 7, 3, 5, 0, 3, 0x61, 0x62, 0x63]

/-- A number and seven strings; the second value and the last one are NULL. -/
def nullRowPacket : List UInt8 :=
  [0x00, 0x08, 0x02, 0x2a, 0, 0, 0, 2, 0x68, 0x69, 0, 1, 0x78, 1, 0x79, 1, 0x7a]

def nullRowColumns : List Column :=
  { (default : Column) with type := TypeT.long.code } ::
    List.replicate 7 { (default : Column) with type := TypeT.varString.code }

theorem parsers_inBounds_rows :
    Cursor.Safe changedOkPacket (parseOkPacket Capabilities.client) (·.Slices changedOkPacket) ∧
    (parse (parseOkPacket Capabilities.client) changedOkPacket).map OkPacket.last_gtid =
      .ok (literal "abc") ∧
    Cursor.Safe nullRowPacket (parseStmtRowPacket nullRowColumns 8 (List.replicate 8 default))
      (StmtRowSlices nullRowPacket 8) ∧
    (parse (parseStmtRowPacket nullRowColumns 8 (List.replicate 8 default)) nullRowPacket).map
        (fun values => values.map fun v => (v.is_null, v.uint32, v.str)) =
      .ok [(false, 42, []), (true, 0, []), (false, 0, literal "hi"), (false, 0, []),
        (false, 0, literal "x"), (false, 0, literal "y"), (false, 0, literal "z"),
        (true, 0, [])] := by
  have inBounds := fun buff => parsers_inBounds buff Capabilities.client false
    { auth_plugin := [], scramble := List.replicate 21 0 } rfl default nullRowColumns 8 (by decide)
    (List.replicate 8 default) rfl rfl
  refine ⟨(inBounds changedOkPacket).1, by decide +kernel, ?_, by decide +kernel⟩
  obtain ⟨-, -, -, -, -, -, -, -, -, h, -⟩ := inBounds nullRowPacket
  exact h

end Trilogy
