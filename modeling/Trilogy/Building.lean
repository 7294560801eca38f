import Trilogy.Flushing
import Trilogy.Limit

namespace Trilogy

open Lib Proc

namespace Builder

/-- The limit lets a payload of `n` bytes pass, and it can be addressed with all its
headers. -/
structure Room (b : Builder) (n : Nat) : Prop where
  below : n < b.packet_max_length
  size : b.packet_max_length ≤ sizeMax
  memory : 5 * n + 4 ≤ 2 ^ 62

theorem Room.mono {b : Builder} {m n : Nat} (h : Room b n) (le : m ≤ n) : Room b m :=
  ⟨Nat.lt_of_le_of_lt le h.below, h.size, by have := h.memory; omega⟩

/-- Where there is room for it, `m` adds `d` to the payload. -/
structure Builds (m : Proc Code Builder Unit) (d : List UInt8) : Prop where
  appends : Appends m d
  succeeds : ∀ ⦃s p b⦄, Building s p b → Room b (p.length + d.length) →
    ∃ b', m b = (.ok (), b') ∧ b'.packet_max_length = b.packet_max_length

namespace Builds

variable {m m' : Proc Code Builder Unit} {f : Unit → Proc Code Builder Unit} {d d' e : List UInt8}

theorem of_eq (h : Builds m d) (eq : d = e) : Builds m e := eq ▸ h

/-- For the bytes that `m` is known to append. -/
theorem of_appends (h : Builds m d) (appends : Appends m e) (length : d.length = e.length) :
    Builds m e :=
  ⟨appends, fun _ _ _ hb room => h.succeeds hb (length ▸ room)⟩

theorem pure : Builds (pure ()) [] :=
  ⟨.pure, fun _ _ b _ _ => ⟨b, rfl, rfl⟩⟩

theorem bind (hm : Builds m d) (hf : Builds (f ()) e) : Builds (m >>= f) (d ++ e) where
  appends := .bind hm.appends hf.appends
  succeeds := by
    intro s p b hb room
    rw [List.length_append, ← Nat.add_assoc] at room
    obtain ⟨b₁, h₁, hmax₁⟩ := hm.succeeds hb (room.mono (Nat.le_add_right _ _))
    have room₁ : Room b₁ ((p ++ d).length + e.length) := by
      rw [List.length_append]
      exact ⟨by rw [hmax₁]; exact room.below, by rw [hmax₁]; exact room.size, room.memory⟩
    obtain ⟨b₂, h₂, hmax₂⟩ := hf.succeeds (hm.appends hb h₁) room₁
    exact ⟨b₂, by rw [bind_of_ok h₁, h₂], hmax₂.trans hmax₁⟩

theorem ite {c : Prop} [Decidable c] (hm : c → Builds m d) (hm' : ¬ c → Builds m' d') :
    Builds (if c then m else m') (if c then d else d') := by
  split
  · exact hm ‹_›
  · exact hm' ‹_›

theorem when {c : Prop} [Decidable c] (hm : c → Builds m d) :
    Builds (Proc.when c m) (if c then d else []) :=
  .ite hm fun _ => .pure

end Builds

/-- A header is shorter than the fragment in front of it. -/
theorem frames_length_le (s : UInt8) (p : List UInt8) :
    (frames s p).length ≤ 5 * p.length + 4 := by
  fun_induction frames s p with
  | case1 s p h =>
    rw [List.length_append, header_length]
    omega
  | case2 s p h ih =>
    rw [List.length_drop] at ih
    simp only [List.length_append, header_length, List.length_take]
    unfold maxPacketLen at *
    omega

theorem Building.length_le {s : UInt8} {p : List UInt8} {b : Builder} (h : Building s p b) :
    b.buffer.len ≤ 5 * p.length + 4 := by
  obtain ⟨closed, tail, full, h⟩ := h
  have hframes := h.extend []
  rw [List.append_nil, List.append_nil, frames_of_lt h.room] at hframes
  have hle := frames_length_le s p
  rw [hframes, List.length_append, List.length_append, header_length] at hle
  rw [Buffer.len, h.bytes]
  simp only [List.length_append, List.length_cons]
  omega

theorem Building.packet_length {s : UInt8} {p : List UInt8} {b : Builder} (h : Building s p b)
    (lt : p.length < 2 ^ 64) : b.packet_length = p.length := by
  obtain ⟨_, _, _, h⟩ := h
  rw [h.packet, Nat.mod_eq_of_lt lt]

section

variable {alloc : Alloc} (always : ∀ c, alloc c = true)
include always

theorem builds_writeUint8 (v : UInt8) : Builds (writeUint8 alloc v) [v] where
  appends := appends_writeUint8 alloc v
  succeeds := by
    intro s p b hb room
    obtain ⟨below, size, memory⟩ := room
    have hlen := hb.length_le
    have hpacket := hb.packet_length (by omega)
    rw [List.length_singleton] at below memory
    have hok : ∃ b', writeUint8 alloc v b = (.ok (), b') := by
      have hgrows : b.buffer.len + 1 ≤ 2 ^ 63 := by omega
      obtain ⟨buffer, hbytes, hexpand⟩ := expand_succeeds always hgrows
      rw [writeUint8, get_bind, sizeSub_of_le (by omega), hpacket, if_neg (by omega),
        bind_of_ok hexpand, modify_bind, get_bind]
      split
      · have hgrown : (Builder.append [v] { b with buffer }).buffer.len = b.buffer.len + 1 := by
          simp [Builder.append, Buffer.len, hbytes]
        obtain ⟨b', hcontinue, -⟩ := writeContinuationHeader_succeeds always
          (b := Builder.append [v] { b with buffer }) (by omega)
        exact ⟨b', hcontinue⟩
      · exact ⟨_, rfl⟩
    obtain ⟨b', hok⟩ := hok
    have hspent := spends_writeUint8 alloc v (s := b)
      (show b.packet_length < b.packet_max_length by omega)
      (show b.packet_max_length < 2 ^ 64 by unfold sizeMax at size; omega)
      (show b.packet_length + 1 < 2 ^ 64 by omega)
    exact ⟨b', hok, (counted hspent hok).2.2⟩

theorem builds_writeBuffer (d : List UInt8) : Builds (writeBuffer alloc d) d where
  appends := appends_writeBuffer alloc d
  succeeds := by
    intro s p b hb room
    obtain ⟨below, size, memory⟩ := room
    have hlen := hb.length_le
    have hpacket := hb.packet_length (by omega)
    have hroom : b.fragment_length < maxPacketLen := by
      obtain ⟨_, _, _, hlayout⟩ := hb
      rw [hlayout.fragment]
      exact hlayout.room
    have hsize : b.packet_max_length < 2 ^ 64 := by
      unfold sizeMax at size
      omega
    obtain ⟨b', hok⟩ := writeBuffer_succeeds always (d := d) hroom (by omega) hsize.le (by omega)
    have hspent := spends_writeBuffer alloc d (s := b)
      (show b.packet_length < b.packet_max_length by omega) hsize
      (show b.packet_length + d.length < 2 ^ 64 by omega)
    exact ⟨b', hok, (counted hspent hok).2.2⟩

theorem builds_writeUint16 (v : UInt16) : Builds (writeUint16 alloc v) (leBytes 2 v.toNat) :=
  .of_appends (.bind (builds_writeUint8 always _) (builds_writeUint8 always _))
    (appends_writeUint16 alloc v) rfl

theorem builds_writeUint24 (v : UInt32) : Builds (writeUint24 alloc v) (leBytes 3 v.toNat) :=
  .of_appends (.bind (builds_writeUint8 always _) (.bind (builds_writeUint8 always _)
    (builds_writeUint8 always _))) (appends_writeUint24 alloc v) rfl

theorem builds_writeUint32 (v : UInt32) : Builds (writeUint32 alloc v) (leBytes 4 v.toNat) :=
  .of_appends (.bind (builds_writeUint8 always _) (.bind (builds_writeUint8 always _)
    (.bind (builds_writeUint8 always _) (builds_writeUint8 always _))))
    (appends_writeUint32 alloc v) rfl

theorem builds_writeUint64 (v : UInt64) : Builds (writeUint64 alloc v) (leBytes 8 v.toNat) :=
  .of_appends (.bind (builds_writeUint8 always _) (.bind (builds_writeUint8 always _)
    (.bind (builds_writeUint8 always _) (.bind (builds_writeUint8 always _)
    (.bind (builds_writeUint8 always _) (.bind (builds_writeUint8 always _)
    (.bind (builds_writeUint8 always _) (builds_writeUint8 always _))))))))
    (appends_writeUint64 alloc v) rfl

theorem builds_writeLenenc (v : UInt64) : Builds (writeLenenc alloc v) (lenenc v.toNat) := by
  apply Builds.of_appends (.ite (fun _ => builds_writeUint8 always _) fun _ =>
    .ite (fun _ => .bind (builds_writeUint8 always _) (builds_writeUint16 always _)) fun _ =>
    .ite (fun _ => .bind (builds_writeUint8 always _) (builds_writeUint24 always _)) fun _ =>
    .bind (builds_writeUint8 always _) (builds_writeUint64 always _)) (appends_writeLenenc alloc v)
  rw [lenenc_length]
  simp only [UInt64.lt_iff_toNat_lt, UInt64.le_iff_toNat_le, apply_ite List.length]
  simp

theorem builds_writeLenencBuffer (d : List UInt8) :
    Builds (writeLenencBuffer alloc d) (lenenc (d.length % 2 ^ 64) ++ d) :=
  .of_eq (.bind (builds_writeLenenc always _) (builds_writeBuffer always _))
    (by rw [UInt64.toNat_ofNat'])

theorem builds_writeDate (d : DateValue) : Builds (writeDate alloc d) ((dateForm d).bytes d) := by
  refine .of_appends (.bind (builds_writeUint8 always _) (.when fun _ =>
    .bind (builds_writeUint16 always _) (.bind (builds_writeUint8 always _)
    (.bind (builds_writeUint8 always _) (.when fun _ => .bind (builds_writeUint8 always _)
    (.bind (builds_writeUint8 always _) (.bind (builds_writeUint8 always _)
    (.when fun _ => builds_writeUint32 always _)))))))) (appends_writeDate alloc d) ?_
  unfold dateForm
  split_ifs <;> simp_all [DateForm.bytes]

theorem builds_writeTime (t : TimeValue) : Builds (writeTime alloc t) ((timeForm t).bytes t) := by
  refine .of_appends (.bind (builds_writeUint8 always _) (.when fun _ =>
    .bind (builds_writeUint8 always _) (.bind (builds_writeUint32 always _)
    (.bind (builds_writeUint8 always _) (.bind (builds_writeUint8 always _)
    (.bind (builds_writeUint8 always _) (.when fun _ => builds_writeUint32 always _)))))))
    (appends_writeTime alloc t) ?_
  unfold timeForm
  split_ifs <;> simp_all [TimeForm.bytes]

theorem builds_writeValue {v : BinaryValue} {t : TypeT} (h : TypeT.ofCode v.type = some t) :
    Builds (writeValue alloc v) (valueBytes v) := by
  rw [writeValue_kind alloc h, valueBytes_kind h]
  cases t.kind with
  | tiny => exact builds_writeUint8 always v.uint8
  | short => exact builds_writeUint16 always v.uint16
  | long => exact builds_writeUint32 always v.uint32
  | longlong => exact builds_writeUint64 always v.uint64
  | float => exact builds_writeUint32 always v.flt
  | double => exact builds_writeUint64 always v.dbl
  | year => exact builds_writeUint16 always v.year
  | time => exact builds_writeTime always v.time
  | date => exact builds_writeDate always v.date
  | str => exact builds_writeLenencBuffer always v.str
  | null => exact .pure

theorem builds_writeValues {vs : List BinaryValue}
    (h : ∀ v ∈ vs, ∃ t, TypeT.ofCode v.type = some t) :
    Builds (writeValues alloc vs) (vs.flatMap valueBytes) := by
  induction vs with
  | nil => exact .pure
  | cons v vs ih =>
    obtain ⟨⟨t, ht⟩, hvs⟩ := List.forall_mem_cons.mp h
    rw [writeValues, List.flatMap_cons]
    exact .bind (builds_writeValue always ht) (ih hvs)

theorem builds_writeTypes (vs : List BinaryValue) :
    Builds (writeTypes alloc vs) (vs.flatMap typeBytes) := by
  induction vs with
  | nil => exact .pure
  | cons v vs ih =>
    rw [writeTypes, List.flatMap_cons, typeBytes]
    refine .of_eq (.bind (builds_writeUint8 always v.type)
      (.bind (.ite (fun _ => builds_writeUint8 always 0x80) fun _ => builds_writeUint8 always 0x00)
      ih)) ?_
    cases v.is_unsigned <;> rfl

/-- The bitmap loop with the write after it; a byte is written for each eight binds. -/
theorem builds_writeNullBitmap {n : Nat} {rest : Proc Code Builder Unit} {d : List UInt8}
    (hrest : Builds rest d) (binds : List BinaryValue) (i : Nat) (pending : List Bool)
    (hi : pending.length = i % 8) (hn : n % 8 = (i + binds.length) % 8) :
    Builds (do
      let bits ← writeNullBitmap alloc i (UInt8.ofNat (bitsToNat pending)) binds
      Proc.when (n % 8 ≠ 0) (writeUint8 alloc bits)
      rest) (packBits (pending ++ binds.map (·.is_null)) ++ d) := by
  induction binds generalizing i pending with
  | nil =>
    rw [List.length_nil, Nat.add_zero, ← hi] at hn
    have hlt : pending.length < 8 := hi ▸ Nat.mod_lt _ (by decide)
    simp only [writeNullBitmap, pure_bind, List.map_nil, List.append_nil]
    by_cases hz : pending.length = 0
    · have := List.length_eq_zero_iff.mp hz
      subst this
      rw [Proc.when_neg (by omega)]
      exact .bind .pure hrest
    · rw [Proc.when_pos (by omega), packBits_of_le (by omega) (Nat.pos_of_ne_zero hz)]
      exact .bind (builds_writeUint8 always _) hrest
  | cons v vs ih =>
    have hlt : pending.length < 8 := hi ▸ Nat.mod_lt _ (by decide)
    have hbits := ofNat_or_shift hlt v.is_null
    rw [List.length_cons] at hn
    simp only [writeNullBitmap, ← hi, hbits, List.map_cons]
    rw [show pending ++ v.is_null :: vs.map (·.is_null) =
      (pending ++ [v.is_null]) ++ vs.map (·.is_null) by simp]
    split
    · rw [packBits_append (by simp; omega), bind_assoc, List.cons_append]
      apply Builds.bind (d := [_]) (builds_writeUint8 always _)
      exact ih (i + 1) [] (by rw [List.length_nil]; omega) (by omega)
    · exact ih (i + 1) (pending ++ [v.is_null]) (by simp; omega) (by omega)

theorem builds_writeString (d : List UInt8) :
    Builds (writeString alloc d) (d.takeWhile (· ≠ 0) ++ [0]) :=
  .of_eq (.bind (builds_writeBuffer always _) (builds_writeUint8 always _)) (by rw [take_strlen])

end

/-- Where there is room for `d`, `m` ends the packet. -/
def Completes (m : Proc Code Builder Unit) (d : List UInt8) : Prop :=
  ∀ ⦃s p b⦄, Building s p b → Room b (p.length + d.length) → ∃ b', m b = (.ok (), b')

namespace Completes

variable {m : Proc Code Builder Unit} {f : Unit → Proc Code Builder Unit} {d e : List UInt8}

theorem finalize : Completes (modify Builder.finalize) [] :=
  fun _ _ b _ _ => ⟨b.finalize, rfl⟩

theorem bind (hm : Builds m d) (hf : Completes (f ()) e) : Completes (m >>= f) (d ++ e) := by
  intro s p b hb room
  rw [List.length_append, ← Nat.add_assoc] at room
  obtain ⟨b₁, h₁, hmax₁⟩ := hm.succeeds hb (room.mono (Nat.le_add_right _ _))
  have room₁ : Room b₁ ((p ++ d).length + e.length) := by
    rw [List.length_append]
    exact ⟨by rw [hmax₁]; exact room.below, by rw [hmax₁]; exact room.size, room.memory⟩
  obtain ⟨b₂, h₂⟩ := hf (hm.appends hb h₁) room₁
  exact ⟨b₂, by rw [bind_of_ok h₁, h₂]⟩

theorem of_eq (h : Completes m d) (eq : d = e) : Completes m e := eq ▸ h

end Completes

end Builder

open Builder

section

variable {alloc : Alloc} (always : ∀ c, alloc c = true)
include always

theorem completes_command (cmd : UInt8) {m : Proc Code Builder Unit} {d : List UInt8}
    (h : Builds m d) :
    Completes (do writeUint8 alloc cmd; m; modify finalize) (cmd :: d) :=
  .of_eq (.bind (builds_writeUint8 always _) (.bind h .finalize)) (by simp)

theorem completes_buildStmtExecutePacket (stmt_id : UInt32) (flags : UInt8)
    {binds : List BinaryValue} {n : UInt16} (hn : n.toNat ≤ binds.length)
    (known : ∀ bind ∈ binds.take n.toNat, ∃ t, TypeT.ofCode bind.type = some t) :
    Completes (buildStmtExecutePacket alloc stmt_id flags (some binds) n)
      (executePrefix stmt_id flags (binds.take n.toNat) ++
        (binds.take n.toNat).flatMap valueBytes) := by
  have hlength : (binds.take n.toNat).length = n.toNat := List.length_take_of_le hn
  by_cases pos : 0 < n
  · have hne : binds.take n.toNat ≠ [] := by
      intro hnil
      rw [hnil] at hlength
      exact absurd (UInt16.lt_iff_toNat_lt.mp pos) (by simp [← hlength])
    refine .of_eq (.bind (builds_writeUint8 always _) (.bind (builds_writeUint32 always _)
      (.bind (builds_writeUint8 always _) (.bind (builds_writeUint32 always _)
      (.bind (d := packBits ((binds.take n.toNat).map (·.is_null)) ++
        (1 :: ((binds.take n.toNat).flatMap typeBytes ++ (binds.take n.toNat).flatMap valueBytes)))
        ?_ .finalize))))) ?_
    · rw [Proc.when_pos pos]
      exact builds_writeNullBitmap always (.bind (builds_writeUint8 always _)
        (.bind (builds_writeTypes always _) (builds_writeValues always known))) _ 0 []
        rfl (by rw [Nat.zero_add, hlength])
    · simp [executePrefix, executeHead, hne]
  · have hzero : n.toNat = 0 := by
      have := mt UInt16.lt_iff_toNat_lt.mpr pos
      simpa using this
    rw [hzero, List.take_zero]
    unfold buildStmtExecutePacket
    rw [Proc.when_neg pos]
    refine .of_eq (.bind (builds_writeUint8 always _) (.bind (builds_writeUint32 always _)
      (.bind (builds_writeUint8 always _) (.bind (builds_writeUint32 always _)
      (.bind .pure .finalize))))) ?_
    simp [executePrefix, executeHead]

theorem completes_buildStmtExecutePacket_none (stmt_id : UInt32) (flags : UInt8) {n : UInt16}
    (hn : n = 0) :
    Completes (buildStmtExecutePacket alloc stmt_id flags none n) (executeHead stmt_id flags) := by
  unfold buildStmtExecutePacket
  rw [Proc.when_neg (by rw [hn]; decide)]
  refine .of_eq (.bind (builds_writeUint8 always _) (.bind (builds_writeUint32 always _)
    (.bind (builds_writeUint8 always _) (.bind (builds_writeUint32 always _)
    (.bind .pure .finalize))))) ?_
  simp [executeHead]

theorem completes_buildAuthPacket (digests : Digests) (user : Option (List UInt8))
    (pass : List UInt8) (database : Option (List UInt8)) (client_encoding : UInt8)
    (auth_plugin scramble : List UInt8) (flags : UInt32) :
    Completes (buildAuthPacket alloc digests user pass database client_encoding auth_plugin
      scramble flags)
      (authPayload digests user pass database client_encoding auth_plugin scramble flags) := by
  refine .of_eq (.bind (builds_writeUint32 always _) (.bind (builds_writeUint32 always _)
    (.bind (builds_writeUint8 always _) (.bind (builds_writeBuffer always _)
    (.bind (builds_writeString always _) (.bind (builds_writeUint8 always _)
    (.bind (.when fun _ => builds_writeBuffer always _)
    (.bind (.when fun _ => builds_writeString always _)
    (.bind (.when fun _ => builds_writeString always _) .finalize))))))))) ?_
  have hresponse : ∀ r : List UInt8, (if r.length > 0 then r else []) = r := by
    intro r
    split
    · rfl
    · rename_i h
      exact (List.length_eq_zero_iff.mp (Nat.eq_zero_of_not_pos h)).symm
  simp only [authPayload, hresponse, stringBytes, List.append_assoc, List.append_nil]
  rfl

theorem completes_buildAuthSwitchResponsePacket (digests : Digests)
    {pass auth_plugin scramble : List UInt8} {enable : Bool}
    (known : pass ≠ [] → sameString clearPassword auth_plugin = true ∧ enable = true ∨
      sameString clearPassword auth_plugin = false ∧ (sameString cachingSha2Password auth_plugin ∨
        sameString nativePassword auth_plugin)) :
    Completes (buildAuthSwitchResponsePacket alloc digests pass auth_plugin scramble enable)
      (authSwitchPayload digests pass auth_plugin scramble) := by
  unfold buildAuthSwitchResponsePacket authSwitchPayload
  refine .of_eq (.bind (.when fun hpass => ?_) .finalize) (List.append_nil _)
  obtain ⟨hclear, rfl⟩ | ⟨hclear, hother⟩ := known (List.ne_nil_of_length_pos hpass)
  · rw [if_pos hclear, if_pos hclear]
    exact builds_writeBuffer always _
  · have hclear : ¬ sameString clearPassword auth_plugin = true := by simp [hclear]
    rw [if_neg hclear, if_neg hclear]
    by_cases hsha2 : sameString cachingSha2Password auth_plugin
    · rw [if_pos hsha2, if_pos hsha2]
      exact builds_writeBuffer always _
    · rw [if_neg hsha2, if_neg hsha2]
      have hnative := hother.resolve_left hsha2
      rw [if_pos hnative]
      exact builds_writeBuffer always _

end

/-- The plugin and the types of the binds are known. -/
def Outgoing.Known (conn : Conn) : Outgoing → Prop
  | .request (.authSwitch handshake) =>
    conn.socket.opts.password ≠ [] →
      sameString Trilogy.clearPassword handshake.auth_plugin = true ∧
        conn.socket.opts.enable_cleartext_plugin = true ∨
      sameString Trilogy.clearPassword handshake.auth_plugin = false ∧
        (sameString cachingSha2Password handshake.auth_plugin ∨
          sameString nativePassword handshake.auth_plugin)
  | .request (.stmtExecute stmt _ none _) => stmt.parameter_count = 0
  | .request (.stmtExecute stmt _ (some binds) _) =>
    ∀ bind ∈ binds.take stmt.parameter_count.toNat, ∃ t, TypeT.ofCode bind.type = some t
  | _ => True

theorem Outgoing.completes_packet {alloc : Alloc} (always : ∀ c, alloc c = true)
    {digests : Digests} {conn : Conn} {o : Outgoing} (known : o.Known conn) :
    Completes (o.packet alloc digests conn) (o.payload digests conn) := by
  cases o with
  | request r =>
    cases r with
    | auth handshake => exact completes_buildAuthPacket always ..
    | sslRequest =>
      refine .of_eq (.bind (builds_writeUint32 always _) (.bind (builds_writeUint32 always _)
        (.bind (builds_writeUint8 always _) (.bind (builds_writeBuffer always _) .finalize)))) ?_
      simp only [payload, Request.payload, sslRequestPayload, List.append_assoc, List.append_nil]
      rfl
    | authSwitch handshake => exact completes_buildAuthSwitchResponsePacket always digests known
    | changeDb name => exact completes_command always _ (builds_writeBuffer always name)
    | setOption option => exact completes_command always _ (builds_writeUint16 always option)
    | ping => exact .bind (builds_writeUint8 always _) .finalize
    | query sql => exact completes_command always _ (builds_writeBuffer always sql)
    | stmtPrepare sql => exact completes_command always _ (builds_writeBuffer always sql)
    | stmtExecute stmt flags binds enough =>
      cases binds with
      | none => exact completes_buildStmtExecutePacket_none always _ _ known
      | some binds => exact completes_buildStmtExecutePacket always _ _ (enough _ rfl) known
    | stmtReset stmt => exact completes_command always _ (builds_writeUint32 always stmt.id)
  | clearPassword =>
    refine .of_eq (.bind (builds_writeBuffer always _) (.bind (builds_writeUint8 always _)
      .finalize)) ?_
    simp [payload]
  | close => exact .bind (builds_writeUint8 always _) .finalize
  | stmtBindData stmt param_num data =>
    refine .of_eq (.bind (builds_writeUint8 always _) (.bind (builds_writeUint32 always _)
      (.bind (builds_writeUint16 always _) (.bind (builds_writeBuffer always _) .finalize)))) ?_
    simp [payload]
  | stmtClose stmt => exact completes_command always _ (builds_writeUint32 always stmt.id)

end Trilogy
