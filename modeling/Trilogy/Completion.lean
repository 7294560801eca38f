import Trilogy.Notes
import Trilogy.OkCodec
import Trilogy.Sequence

/-! What a server may end a command with under the header 0xfe: an EOF packet, or an
OK packet in its place where `DEPRECATE_EOF` was negotiated. The two have the
status and the warnings in opposite order, and only the capability tells them
apart. -/
namespace Trilogy

open Lib Proc Reader

/-- An entry as it is sent, with an id of any length. -/
inductive SentEntry : Entry → List UInt8 → Prop
  | gtids {tag : UInt8} {id s w : List UInt8} (hs : LenencString id s)
      (hw : LenencString (tag :: s) w) : SentEntry (.gtids tag id) (sessionTrackGtids :: w)
  | other {type : UInt8} {data w : List UInt8} (h : type ≠ sessionTrackGtids)
      (hw : LenencString data w) : SentEntry (.other type data) (type :: w)

/-- What follows the status and the warnings. -/
inductive SentInfo (capabilities : UInt32) (status : UInt16) : List Entry → List UInt8 → Prop
  | plain (info : List UInt8) (h : ¬ has capabilities Capabilities.sessionTrack) :
      SentInfo capabilities status [] info
  | absent (h : has capabilities Capabilities.sessionTrack) : SentInfo capabilities status [] []
  | status {session_status s : List UInt8} (h : has capabilities Capabilities.sessionTrack)
      (hs : LenencString session_status s) (same : status &&& sessionStateChanged = 0) :
      SentInfo capabilities status [] s
  | changes {session_status s w : List UInt8} {entries : List Entry} {words : List (List UInt8)}
      (h : has capabilities Capabilities.sessionTrack) (hs : LenencString session_status s)
      (hentries : List.Forall₂ SentEntry entries words) (hw : LenencString words.flatten w)
      (changed : status &&& sessionStateChanged ≠ 0) :
      SentInfo capabilities status entries (s ++ w)

/-- The completion packets that are legal for a capability word. -/
inductive CompletionForm (capabilities : UInt32) (status warnings : UInt16) :
    List Entry → List UInt8 → Prop
  | eof (h : ¬ has capabilities Capabilities.deprecateEof) :
      CompletionForm capabilities status warnings []
        (Packet.eof :: (leBytes 2 warnings.toNat ++ leBytes 2 status.toNat))
  | ok {rows id : UInt64} {r i info : List UInt8} {entries : List Entry}
      (h : has capabilities Capabilities.deprecateEof) (hrows : LenencForm rows.toNat r)
      (hid : LenencForm id.toNat i) (hinfo : SentInfo capabilities status entries info) :
      CompletionForm capabilities status warnings entries
        (Packet.eof ::
          (r ++ (i ++ ((leBytes 2 status.toNat ++ leBytes 2 warnings.toNat) ++ info))))

theorem SentEntry.pos {entry : Entry} {w : List UInt8} (h : SentEntry entry w) : 0 < w.length := by
  cases h <;> simp

theorem SentEntry.form {entry : Entry} {w : List UInt8} (h : SentEntry entry w)
    (valid : entry.Valid) : EntryForm entry w := by
  cases h with
  | @gtids tag id s w hs hw =>
    cases valid with
    | gtids _ fits =>
      have hentry := @EntryForm.gtids tag id s [] w hs fits
      rw [List.append_nil] at hentry
      exact hentry hw
  | other h hw => exact .other h hw

theorem SentEntry.long {entry : Entry} {w : List UInt8} (h : SentEntry entry w)
    (invalid : ¬ entry.Valid) : ∃ tag id, entry = .gtids tag id ∧ maxLastGtidLen < id.length := by
  cases h with
  | @gtids tag id s w hs hw =>
    refine ⟨tag, id, rfl, ?_⟩
    by_contra fits
    exact invalid (.gtids tag (Nat.le_of_not_lt fits))
  | other h hw => exact absurd (.other _ h) invalid

/-- The one answer to an id that does not fit. -/
theorem SentEntry.reads_long {entry : Entry} {w : List UInt8} (h : SentEntry entry w)
    (invalid : ¬ entry.Valid) (tail : List UInt8) :
    Cursor.Reads entryId (w ++ tail) (.error .protocolViolation) tail := by
  obtain ⟨tag, id, rfl, long⟩ := h.long invalid
  cases h with
  | gtids hs hw =>
    have gtid := accepts_gtid.run.mpr ⟨[], tag, _, hs, by rw [List.append_nil]⟩
    refine .bind (reads_getUint8 _ _) (.bind (accepts_getLenencBuffer.complete ⟨_, hw, rfl⟩) ?_)
    rw [if_pos rfl]
    refine .bind (.nested gtid _) ?_
    rw [if_pos long]
    exact .throw _ _

theorem length_le_flatten_sent {entries : List Entry} {words : List (List UInt8)}
    (h : List.Forall₂ SentEntry entries words) : entries.length ≤ words.flatten.length := by
  induction h with
  | nil => exact Nat.le_refl _
  | cons hentry _ ih =>
    have := hentry.pos
    rw [List.length_cons, List.flatten_cons, List.length_append]
    omega

/-- The loop gets as far as the first entry it cannot keep. -/
theorem reads_sessionStateChanges_long {entries : List Entry} {words : List (List UInt8)}
    (h : List.Forall₂ SentEntry entries words) (invalid : ∃ entry ∈ entries, ¬ entry.Valid)
    {turns : Nat} (enough : entries.length ≤ turns) (last_gtid : List UInt8) :
    ∃ left, Cursor.Reads (sessionStateChanges turns last_gtid) words.flatten
      (.error .protocolViolation) left := by
  induction h generalizing turns last_gtid with
  | nil =>
    obtain ⟨entry, mem, -⟩ := invalid
    cases mem
  | @cons entry w entries words hentry hwords ih =>
    cases turns with
    | zero => cases enough
    | succ turns =>
      have some : (w :: words).flatten.isEmpty = false := by
        have := hentry.pos
        rw [List.flatten_cons, List.isEmpty_eq_false_iff, ← List.length_pos_iff, List.length_append]
        omega
      rw [sessionStateChanges_succ, List.flatten_cons]
      by_cases valid : entry.Valid
      · have rest : ∃ entry ∈ entries, ¬ entry.Valid := by
          obtain ⟨entry', mem, hentry'⟩ := invalid
          obtain rfl | mem := List.mem_cons.mp mem
          · exact absurd valid hentry'
          · exact ⟨entry', mem, hentry'⟩
        have kept : Cursor.Reads entryId (w ++ words.flatten) (.ok entry.id?) words.flatten :=
          accepts_entryId.complete ⟨entry, w, hentry.form valid, rfl, rfl⟩
        obtain ⟨left, stops⟩ := ih rest (Nat.le_of_succ_le_succ enough) (entry.id?.getD last_gtid)
        refine ⟨left, .bind (reads_eof _) ?_⟩
        rw [← List.flatten_cons, some]
        exact .bind kept stops
      · refine ⟨words.flatten, .bind (reads_eof _) ?_⟩
        rw [← List.flatten_cons, some]
        exact .bind_error (hentry.reads_long valid _)

theorem SentInfo.form {capabilities : UInt32} {packet : OkPacket} {entries : List Entry}
    {info : List UInt8} (h : SentInfo capabilities packet.status_flags entries info)
    (valid : ∀ entry ∈ entries, entry.Valid) :
    ∃ packet', InfoForm capabilities packet info packet' ∧
      packet'.status_flags = packet.status_flags ∧
      packet'.warning_count = packet.warning_count := by
  cases h with
  | plain _ h => exact ⟨_, .plain _ h, rfl, rfl⟩
  | absent h => exact ⟨_, .absent h, rfl, rfl⟩
  | status h hs same => exact ⟨_, .status h hs same, rfl, rfl⟩
  | @changes session_status s w _ words h hs hentries hw changed =>
    have block : List.Forall₂ EntryForm entries words := by
      refine List.forall₂_iff_zip.mpr ⟨hentries.length_eq, fun {entry w} mem => ?_⟩
      exact ((List.forall₂_iff_zip.mp hentries).2 mem).form
        (valid entry (List.of_mem_zip mem).1)
    exact ⟨_, .changes h hs hw ⟨_, block, rfl⟩ changed, rfl, rfl⟩

theorem SentInfo.reads_long {capabilities : UInt32} {packet : OkPacket} {entries : List Entry}
    {info : List UInt8} (h : SentInfo capabilities packet.status_flags entries info)
    (invalid : ∃ entry ∈ entries, ¬ entry.Valid) :
    ∃ left, Cursor.Reads (parseOkInfo capabilities packet) info (.error .protocolViolation)
      left := by
  cases h with
  | plain _ _ | absent _ | status _ _ _ =>
    obtain ⟨entry, mem, -⟩ := invalid
    cases mem
  | @changes session_status s w _ words h hs hentries hw changed =>
    obtain ⟨left, stops⟩ :=
      reads_sessionStateChanges_long hentries invalid (length_le_flatten_sent hentries) []
    have hread : Cursor.Reads getLenencBuffer w (.ok words.flatten) [] :=
      accepts_getLenencBuffer.complete ⟨w, hw, (List.append_nil _).symm⟩
    refine ⟨[], .bind (reads_eof _) ?_⟩
    rw [if_pos (by simp [h, hs.ne_nil])]
    refine .bind (accepts_getLenencBuffer.complete ⟨s, hs, rfl⟩) ?_
    rw [if_pos (by simpa using changed)]
    exact .bind hread (.bind_error (.nested stops.run _))

/-- An OK packet takes two bytes more than an EOF packet has. -/
theorem OkForm.length {capabilities : UInt32} {b : List UInt8} {packet : OkPacket}
    (h : OkForm capabilities b packet) (h41 : has capabilities Capabilities.protocol41) :
    7 ≤ b.length := by
  have pos : ∀ {n : Nat} {w : List UInt8}, LenencForm n w → 1 ≤ w.length := by
    intro n w hw
    cases hw <;> simp
  cases h with
  | intro hrows hid hstatus hinfo =>
    have := pos hrows
    have := pos hid
    cases hstatus with
    | full status_flags warning_count h =>
      simp only [List.length_cons, List.length_append, length_leBytes]
      omega
    | transactions _ h _ => exact absurd h41 h
    | absent h _ => exact absurd h41 h

theorem CompletionForm.parse_ok {capabilities : UInt32} {status warnings : UInt16}
    {entries : List Entry} {b : List UInt8}
    (h : CompletionForm capabilities status warnings entries b)
    (h41 : has capabilities Capabilities.protocol41)
    (deprecates : has capabilities Capabilities.deprecateEof)
    (valid : ∀ entry ∈ entries, entry.Valid) :
    ∃ packet, parse (parseOkPacket capabilities) b = .ok packet ∧
      packet.status_flags = status ∧ packet.warning_count = warnings := by
  cases h with
  | eof h => exact absurd deprecates h
  | @ok rows id r i info _ h hrows hid hinfo =>
    let head : OkPacket :=
      { OkPacket.start rows id with status_flags := status, warning_count := warnings }
    have hhead : SentInfo capabilities head.status_flags entries info := hinfo
    obtain ⟨packet, form, hstatus, hwarnings⟩ := hhead.form valid
    exact ⟨packet, parseOkPacket_ok_iff.mpr (.intro hrows hid (.full status warnings h41) form),
      hstatus, hwarnings⟩

/-- What is refused of the legal packets: all of one layout, and of the other
those with an id that is too long. -/
theorem CompletionForm.parse_not_ok {capabilities : UInt32} {status warnings : UInt16}
    {entries : List Entry} {b : List UInt8}
    (h : CompletionForm capabilities status warnings entries b)
    (h41 : has capabilities Capabilities.protocol41)
    (broken : ¬ (has capabilities Capabilities.deprecateEof ∧ ∀ entry ∈ entries, entry.Valid))
    (packet : OkPacket) : parse (parseOkPacket capabilities) b ≠ .ok packet := by
  intro parsed
  cases h with
  | eof h =>
    have := (parseOkPacket_ok_iff.mp parsed).length h41
    simp only [List.length_cons, List.length_append, length_leBytes] at this
    omega
  | @ok rows id r i info _ h hrows hid hinfo =>
    have invalid : ∃ entry ∈ entries, ¬ entry.Valid := by
      by_contra valid
      refine broken ⟨h, fun entry mem => ?_⟩
      by_contra hentry
      exact valid ⟨entry, mem, hentry⟩
    let head : OkPacket :=
      { OkPacket.start rows id with status_flags := status, warning_count := warnings }
    have hhead : SentInfo capabilities head.status_flags entries info := hinfo
    obtain ⟨left, stops⟩ := hhead.reads_long invalid
    have refused : Cursor.Reads (parseOkPacket capabilities) _ (.error .protocolViolation) left :=
      .bind (reads_getUint8 Packet.eof _) <| .bind (accepts_getLenenc.complete ⟨_, hrows, rfl⟩) <|
      .bind (accepts_getLenenc.complete ⟨_, hid, rfl⟩) <|
      .bind ((accepts_parseOkStatus capabilities _).complete
        ⟨_, .full status warnings h41, rfl⟩) <| .bind_error stops
    rw [parse, refused.run] at parsed
    cases parsed

theorem CompletionForm.head {capabilities : UInt32} {status warnings : UInt16}
    {entries : List Entry} {b : List UInt8}
    (h : CompletionForm capabilities status warnings entries b) :
    ∃ rest, b = Packet.eof :: rest := by
  cases h <;> exact ⟨_, rfl⟩

namespace Conn

variable {alloc : Alloc} {conn conn₁ : Conn} {status warnings : UInt16}

/-- `setOptionRecv` reports what the packet says, as `readEofPacket` does. -/
def CompletesWith (alloc : Alloc) (status warnings : UInt16) (conn conn₁ : Conn) : Prop :=
  ∃ conn', setOptionRecv alloc conn = (.ok (), conn') ∧ readEofPacket conn₁ = (.ok (), conn') ∧
    conn'.server_status = status ∧ conn'.warning_count = warnings

/-- Behind the header, nothing but an OK packet is expected. -/
theorem setOptionRecv_completion (delivered : readPacket alloc conn = (.ok (), conn₁))
    {rest : List UInt8} (hbytes : conn₁.packet_buffer.bytes = Packet.eof :: rest) :
    setOptionRecv alloc conn = readOkPacket conn₁ := by
  have htype : conn₁.currentPacketType = Packet.eof := by
    unfold currentPacketType Buffer.byteAt
    rw [hbytes]
    rfl
  rw [setOptionRecv, Proc.bind_of_ok delivered, Proc.get_bind, if_pos (.inr htype)]

theorem set_option_completes (delivered : readPacket alloc conn = (.ok (), conn₁))
    (h41 : has conn₁.capabilities Capabilities.protocol41) {entries : List Entry}
    (legal : CompletionForm conn₁.capabilities status warnings entries conn₁.packet_buffer.bytes) :
    CompletesWith alloc status warnings conn conn₁ ↔
      has conn₁.capabilities Capabilities.deprecateEof ∧ ∀ entry ∈ entries, entry.Valid := by
  obtain ⟨rest, hbytes⟩ := CompletionForm.head legal
  have hrecv := setOptionRecv_completion delivered hbytes
  constructor
  · rintro ⟨conn', recv, -⟩
    by_contra broken
    rw [hrecv] at recv
    cases hparse : parse (parseOkPacket conn₁.capabilities) conn₁.packet_buffer.bytes with
    | ok packet => exact legal.parse_not_ok h41 broken packet hparse
    | error rc =>
      rw [readOkPacket_error hparse] at recv
      cases recv
  · rintro ⟨deprecates, valid⟩
    obtain ⟨packet, hparse, hstatus, hwarnings⟩ := legal.parse_ok h41 deprecates valid
    obtain ⟨conn', hread, -, hstanding⟩ := readOkPacket_ok hparse
    rw [noting, if_pos h41, hstatus, hwarnings] at hstanding
    refine ⟨conn', hrecv.trans hread, ?_, congrArg Prod.fst hstanding, congrArg Prod.snd hstanding⟩
    rw [readEofPacket, Proc.get_bind, if_pos deprecates, hread]

/-- A connection to which this packet is sent. -/
def beforeCompletion (capabilities : UInt32) (packet : List UInt8) : Conn :=
  { Conn.init (readingSock [.data (header packet.length 0 ++ packet)]) with capabilities }

theorem set_option_completes_deprecated :
    let capabilities := Capabilities.protocol41 ||| Capabilities.deprecateEof
    let conn := beforeCompletion capabilities [0xfe, 0, 0, 2, 0, 1, 0]
    let conn₁ := (readPacket (fun _ => true) conn).2
    CompletesWith (fun _ => true) 2 1 conn conn₁ ↔
      has conn₁.capabilities Capabilities.deprecateEof ∧ ∀ entry ∈ [], Entry.Valid entry := by
  intro capabilities conn conn₁
  have hread : (readPacket (fun _ => true) conn).1 = .ok () := by decide +kernel
  have hbytes : conn₁.packet_buffer.bytes = [0xfe, 0, 0, 2, 0, 1, 0] := by decide +kernel
  have hcapabilities : conn₁.capabilities = capabilities := by decide +kernel
  apply set_option_completes (Proc.ends hread)
  · rw [hcapabilities]
    decide
  · rw [hbytes, hcapabilities]
    exact @CompletionForm.ok capabilities 2 1 0 0 [0] [0] [] [] (by decide) (.byte (by decide))
      (.byte (by decide)) (.plain [] (by decide))

/-- The five bytes of an EOF packet are too few for an OK packet, and the other
reader takes them. -/
theorem set_option_refuses_eof :
    let conn := beforeCompletion Capabilities.protocol41 [0xfe, 1, 0, 2, 0]
    let conn₁ := (readPacket (fun _ => true) conn).2
    (readPacket (fun _ => true) conn).1 = .ok () ∧
      conn₁.capabilities = Capabilities.protocol41 ∧
      CompletionForm Capabilities.protocol41 2 1 [] conn₁.packet_buffer.bytes ∧
      (setOptionRecv (fun _ => true) conn).1 = .error .truncatedPacket ∧
      (readEofPacket conn₁).1 = .ok () ∧ (readEofPacket conn₁).2.standing = (2, 1) ∧
      ¬ CompletesWith (fun _ => true) 2 1 conn conn₁ := by
  intro conn conn₁
  have hread : (readPacket (fun _ => true) conn).1 = .ok () := by decide +kernel
  have hbytes : conn₁.packet_buffer.bytes = [0xfe, 1, 0, 2, 0] := by decide +kernel
  have refused : (setOptionRecv (fun _ => true) conn).1 = .error .truncatedPacket := by
    decide +kernel
  refine ⟨hread, by decide +kernel, ?_, refused, by decide +kernel, by decide +kernel, ?_⟩
  · rw [hbytes]
    exact .eof (by decide)
  · rintro ⟨conn', recv, -⟩
    rw [recv] at refused
    cases refused

end Conn

end Trilogy
