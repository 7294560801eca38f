import Trilogy.OkGrammar
import Trilogy.Responses

namespace Trilogy

open Lib Reader

namespace Entry

def type : Entry → UInt8
  | gtids _ _ => sessionTrackGtids
  | other type _ => type

def data : Entry → List UInt8
  | gtids tag id => tag :: lenencBytes id
  | other _ data => data

def bytes (entry : Entry) : List UInt8 := entry.type :: lenencBytes entry.data

theorem length_data_le (entry : Entry) : entry.data.length ≤ entry.bytes.length := by
  rw [bytes, lenencBytes, List.length_cons, List.length_append]
  omega

/-- An entry a client can keep. -/
inductive Valid : Entry → Prop
  | gtids (tag : UInt8) {id : List UInt8} (fits : id.length ≤ maxLastGtidLen) :
      Valid (.gtids tag id)
  | other {type : UInt8} (data : List UInt8) (h : type ≠ sessionTrackGtids) :
      Valid (.other type data)

end Entry

/-- The content of an OK packet; the lengths are those of a `size_t`. -/
structure OkContent where
  header : UInt8
  affected_rows : UInt64
  last_insert_id : UInt64
  status : UInt16
  warnings : UInt16
  info : List UInt8
  entries : List Entry
  valid : ∀ entry ∈ entries, entry.Valid
  info_sized : info.length < 2 ^ 64
  block_sized : (entries.flatMap Entry.bytes).length < 2 ^ 64

namespace OkContent

def reply (o : OkContent) : OkReply where
  affected_rows := o.affected_rows
  last_insert_id := o.last_insert_id
  status := o.status
  warnings := o.warnings
  info := some o.info
  changes := o.entries.map fun entry => (entry.type, entry.data)

def block (o : OkContent) : List UInt8 := o.reply.changeBytes

def bytes (capabilities : UInt32) (o : OkContent) : List UInt8 :=
  o.reply.bytes o.header capabilities

/-- The record: with session tracking the info is in `session_status`. -/
def packet (capabilities : UInt32) (o : OkContent) : OkPacket :=
  if has capabilities Capabilities.sessionTrack then
    if o.reply.Changed capabilities then
      { o.reply.head capabilities with
        session_status := o.info
        session_state_changes := o.block
        last_gtid := (lastGtid o.entries).getD [] }
    else { o.reply.head capabilities with session_status := o.info }
  else { o.reply.head capabilities with info := o.info }

theorem block_eq (o : OkContent) : o.block = o.entries.flatMap Entry.bytes :=
  List.flatMap_map ..

theorem entryForm {entry : Entry} (valid : entry.Valid) (sized : entry.data.length < 2 ^ 64) :
    EntryForm entry entry.bytes := by
  cases valid with
  | @gtids tag id fits =>
    have hid := lenencString_lenencBytes (Nat.lt_of_le_of_lt fits (by decide))
    have hentry := @EntryForm.gtids tag id _ [] (lenencBytes (tag :: lenencBytes id)) hid fits
    rw [List.append_nil] at hentry
    exact hentry (lenencString_lenencBytes sized)
  | other data h => exact .other h (lenencString_lenencBytes sized)

theorem blockForm (o : OkContent) : BlockForm o.entries o.block := by
  rw [block_eq, List.flatMap_def]
  refine ⟨_, List.forall₂_map_right_iff.mpr (List.forall₂_same.mpr fun entry hentry => ?_), rfl⟩
  have hle : entry.bytes.length ≤ (o.entries.flatMap Entry.bytes).length := by
    rw [List.flatMap_def]
    exact (List.sublist_flatten_of_mem (List.mem_map_of_mem hentry)).length_le
  have hsized := o.block_sized
  have hdata := entry.length_data_le
  exact entryForm (o.valid entry hentry) (by omega)

theorem infoForm (capabilities : UInt32) (o : OkContent) :
    InfoForm capabilities (o.reply.head capabilities) (o.reply.infoBytes capabilities)
      (o.packet capabilities) := by
  by_cases changes : has capabilities Capabilities.sessionTrack ∧ o.reply.Changed capabilities
  · obtain ⟨track, changed⟩ := changes
    have hbytes : o.reply.infoBytes capabilities = lenencBytes o.info ++ lenencBytes o.block := by
      rw [OkReply.infoBytes, if_pos track]
      exact congrArg _ (if_pos changed)
    have hblock : o.block.length < 2 ^ 64 := by
      rw [block_eq]
      exact o.block_sized
    rw [hbytes, packet, if_pos track, if_pos changed]
    apply InfoForm.changes track (lenencString_lenencBytes o.info_sized)
      (lenencString_lenencBytes hblock) o.blockForm
    rw [OkReply.head, if_pos changed.1]
    exact changed.2
  · have sendable : o.reply.Sendable capabilities :=
      ⟨fun _ => Option.some_ne_none _, fun _ h => Option.some.inj h ▸ o.info_sized⟩
    have unchanged := OkReply.infoForm sendable fun track changed => changes ⟨track, changed⟩
    have same : o.packet capabilities = o.reply.packet capabilities := by
      unfold packet OkReply.packet
      split
      · rw [if_neg fun changed => changes ⟨‹_›, changed⟩]
        rfl
      · rfl
    rw [same]
    exact unchanged

/-- An OK packet is parsed to what it was made of, whatever the capabilities. -/
theorem parse_okContent (capabilities : UInt32) (o : OkContent) :
    parse (parseOkPacket capabilities) (o.bytes capabilities) = .ok (o.packet capabilities) :=
  parseOkPacket_ok_iff.mpr (.intro (lenencForm_lenenc o.affected_rows.toNat_lt)
    (lenencForm_lenenc o.last_insert_id.toNat_lt) (o.reply.statusForm capabilities)
    (o.infoForm capabilities))

/-- Session tracking alone makes the info length-encoded. Without `PROTOCOL_41`
an info that takes up the rest of the packet is refused. -/
theorem plainInfo_refused :
    ¬ has Capabilities.sessionTrack Capabilities.protocol41 ∧
      parse (parseOkPacket Capabilities.sessionTrack) (0x00 :: (lenenc 0 ++ (lenenc 0 ++ [0x61]))) =
        .error .truncatedPacket := by
  constructor
  · decide
  · decide +kernel

end OkContent

end Trilogy
