import Trilogy.Lib.Relate
import Trilogy.Client

/-! The packet buffer is used again for every packet, sent or received: its contents
are replaced, its capacity never shrinks, and behind the contents lies what was
there before. `Twin` relates two buffers that differ in no more than that, and in
capacities that are as good as each other. -/
namespace Trilogy

open Lib

/-- What growing comes to: the outcome, and the capacity from then on. -/
def Buffer.growth (alloc : Alloc) (target cap : Nat) : Except Code Unit × Nat :=
  if target > cap then
    match growCap target 65 cap with
    | none => (.error .typeOverflow, cap)
    | some (.error rc) => (.error rc, cap)
    | some (.ok newCap) => if alloc newCap then (.ok (), newCap) else (.error .syserr, cap)
  else (.ok (), cap)

theorem Buffer.expand_growth (alloc : Alloc) (needed : Nat) (b : Buffer) :
    (expand alloc needed b).1 = (growth alloc (sizeAdd b.len needed) b.cap).1 ∧
      (expand alloc needed b).2.cap = (growth alloc (sizeAdd b.len needed) b.cap).2 := by
  suffices h : ((expand alloc needed b).1, (expand alloc needed b).2.cap) =
      growth alloc (sizeAdd b.len needed) b.cap by
    exact ⟨congrArg Prod.fst h, congrArg Prod.snd h⟩
  unfold expand growth
  by_cases htarget : sizeAdd b.len needed > b.cap
  · rw [if_pos htarget, if_pos htarget]
    split
    · rename_i h
      rw [h]
    · rename_i h
      rw [h]
    · rename_i h
      simp only [h]
      split <;> rfl
  · rw [if_neg htarget, if_neg htarget]

/-- From capacities that `G` relates buffers grow in the same way. -/
def SameGrowth (alloc : Alloc) (G : Nat → Nat → Prop) : Prop :=
  ∀ target cap cap', G cap cap' →
    (Buffer.growth alloc target cap').1 = (Buffer.growth alloc target cap).1 ∧
      G (Buffer.growth alloc target cap).2 (Buffer.growth alloc target cap').2

theorem sameGrowth_eq (alloc : Alloc) : SameGrowth alloc Eq := by
  rintro target cap _ rfl
  exact ⟨rfl, rfl⟩

/-- The same contents, where they count as such, and the same first `k` bytes of
the storage. -/
structure Twin (G : Nat → Nat → Prop) (k : Nat) (counts : Prop) (b b' : Buffer) : Prop where
  cap : G b.cap b'.cap
  len : b'.len = b.len
  front : ∀ i < k, b'.byteAt i = b.byteAt i
  bytes : counts → b'.bytes = b.bytes

namespace Twin

variable {alloc : Alloc} {G : Nat → Nat → Prop} {k : Nat} {counts : Prop} {b b' : Buffer}

theorem weaken {counts' : Prop} (h : Twin G k counts b b') (less : counts' → counts) :
    Twin G k counts' b b' :=
  ⟨h.cap, h.len, h.front, fun held => h.bytes (less held)⟩

theorem expand (grow : SameGrowth alloc G) (h : Twin G k counts b b') (needed : Nat) :
    (Buffer.expand alloc needed b').1 = (Buffer.expand alloc needed b).1 ∧
      Twin G k counts (Buffer.expand alloc needed b).2 (Buffer.expand alloc needed b').2 := by
  obtain ⟨hout, hgrown⟩ := Buffer.expand_growth alloc needed b
  obtain ⟨hout', hgrown'⟩ := Buffer.expand_growth alloc needed b'
  rw [h.len] at hout' hgrown'
  obtain ⟨hsame, hcap⟩ := grow (sizeAdd b.len needed) b.cap b'.cap h.cap
  obtain ⟨hbytes, hstale, -⟩ := Buffer.expand_frame alloc needed b
  obtain ⟨hbytes', hstale', -⟩ := Buffer.expand_frame alloc needed b'
  constructor
  · exact hout'.trans (hsame.trans hout.symm)
  · constructor
    · rw [hgrown, hgrown']
      exact hcap
    · rw [Buffer.len, Buffer.len, hbytes, hbytes']
      exact h.len
    · intro i hi
      rw [Buffer.byteAt, Buffer.byteAt, hbytes, hbytes', hstale, hstale']
      exact h.front i hi
    · intro held
      rw [hbytes, hbytes']
      exact h.bytes held

theorem reset (h : Twin G k counts b b') : Twin G k True b.reset b'.reset :=
  ⟨h.cap, rfl, h.front, fun _ => rfl⟩

theorem push (h : Twin G k True b b') (data : List UInt8) :
    Twin G k True (b.push data) (b'.push data) := by
  have hbytes : (b'.push data).bytes = (b.push data).bytes := by
    rw [Buffer.push_bytes, Buffer.push_bytes, h.bytes trivial]
  have hlen : (b'.push data).len = (b.push data).len := congrArg List.length hbytes
  constructor
  · exact h.cap
  · exact hlen
  · intro i hi
    by_cases hin : i < (b.push data).len
    · rw [Buffer.byteAt_of_lt hin, Buffer.byteAt_of_lt (hlen.symm ▸ hin), hbytes]
    · rw [Buffer.len_push] at hin
      rw [Buffer.byteAt_push (by rw [h.len]; omega), Buffer.byteAt_push (by omega)]
      exact h.front i hi
  · intro _
    exact hbytes

theorem setByte (h : Twin G k True b b') (j : Nat) (v : UInt8) :
    Twin G k True (b.setByte j v) (b'.setByte j v) := by
  have hbytes : (b'.setByte j v).bytes = (b.setByte j v).bytes := by
    rw [Buffer.setByte_bytes, Buffer.setByte_bytes, h.bytes trivial]
  have hlen : (b'.setByte j v).len = (b.setByte j v).len := congrArg List.length hbytes
  constructor
  · exact h.cap
  · exact hlen
  · intro i hi
    by_cases hin : i < (b.setByte j v).len
    · rw [Buffer.byteAt_of_lt hin, Buffer.byteAt_of_lt (hlen.symm ▸ hin), hbytes]
    · rw [Buffer.len, Buffer.setByte_bytes, List.length_set, not_lt] at hin
      rw [Buffer.byteAt_setByte_of_le (h.len ▸ hin), Buffer.byteAt_setByte_of_le hin]
      exact h.front i hi
  · intro _
    exact hbytes

/-- The contents are part of the storage. -/
theorem front_len (h : Twin G k True b b') {n : Nat} (hn : n ≤ b.len) : Twin G n True b b' := by
  refine ⟨h.cap, h.len, fun i hi => ?_, h.bytes⟩
  have hin : i < b.len := lt_of_lt_of_le hi hn
  rw [Buffer.byteAt_of_lt hin, Buffer.byteAt_of_lt (h.len.symm ▸ hin), h.bytes trivial]

end Twin

def TwinBuilder (G : Nat → Nat → Prop) (k : Nat) (b b' : Builder) : Prop :=
  ∃ buffer, Twin G k True b.buffer buffer ∧ b' = { b with buffer }

section

variable {alloc : Alloc} {G : Nat → Nat → Prop} {k : Nat}

namespace Builder

theorem blind_expand (grow : SameGrowth alloc G) (needed : Nat) :
    Blind (TwinBuilder G k) (onBuffer (Buffer.expand alloc needed)) := by
  rintro b _ ⟨buffer, h, rfl⟩
  obtain ⟨hend, hafter⟩ := h.expand grow needed
  constructor
  · rw [onBuffer, Proc.zoom_apply, Proc.zoom_apply, hend]
    exact .rfl
  · exact ⟨_, hafter, rfl⟩

theorem blind_append (data : List UInt8) :
    Blind (TwinBuilder G k) (modify (append data) : Proc Code Builder Unit) := by
  apply Blind.modify
  rintro b _ ⟨buffer, h, rfl⟩
  exact ⟨_, h.push data, rfl⟩

theorem blind_finalize :
    Blind (TwinBuilder G k) (modify finalize : Proc Code Builder Unit) := by
  apply Blind.modify
  rintro b _ ⟨buffer, h, rfl⟩
  exact ⟨_, ((h.setByte _ _).setByte _ _).setByte _ _, rfl⟩

theorem blind_writeHeader (grow : SameGrowth alloc G) :
    Blind (TwinBuilder G k) (writeHeader alloc) := by
  apply Blind.bind (blind_expand grow 4)
  intro _
  apply Blind.modify
  rintro b _ ⟨buffer, h, rfl⟩
  refine ⟨_, h.push [0, 0, 0, b.seq], ?_⟩
  simp only [h.len]

theorem blind_writeContinuationHeader (grow : SameGrowth alloc G) :
    Blind (TwinBuilder G k) (writeContinuationHeader alloc) := by
  apply Blind.bind
  · apply Blind.modify
    rintro b _ ⟨buffer, h, rfl⟩
    exact ⟨_, ((h.setByte _ _).setByte _ _).setByte _ _, rfl⟩
  · intro _
    exact blind_writeHeader grow

/-- A part that looks at the counters of the builder. -/
theorem blind_get {α : Type} {g : Builder → Proc Code Builder α}
    (same : ∀ (b : Builder) buffer, g { b with buffer } = g b)
    (h : ∀ b, Blind (TwinBuilder G k) (g b)) : Blind (TwinBuilder G k) (get >>= g) := by
  apply Blind.get_bind
  · rintro b _ ⟨buffer, -, rfl⟩
    exact same b buffer
  · exact h

theorem blind_writeUint8 (grow : SameGrowth alloc G) (val : UInt8) :
    Blind (TwinBuilder G k) (writeUint8 alloc val) := by
  apply blind_get (fun _ _ => rfl)
  intro b
  apply Blind.ite
  · intro _
    exact .throw _
  · intro _
    apply Blind.bind (blind_expand grow 1)
    intro _
    apply Blind.bind (blind_append [val])
    intro _
    apply blind_get (fun _ _ => rfl)
    intro b
    exact .ite (fun _ => blind_writeContinuationHeader grow) fun _ => .pure _

theorem blind_writeUint16 (grow : SameGrowth alloc G) (val : UInt16) :
    Blind (TwinBuilder G k) (writeUint16 alloc val) :=
  .bind (blind_writeUint8 grow _) fun _ => blind_writeUint8 grow _

theorem blind_writeUint24 (grow : SameGrowth alloc G) (val : UInt32) :
    Blind (TwinBuilder G k) (writeUint24 alloc val) :=
  .bind (blind_writeUint8 grow _) fun _ => .bind (blind_writeUint8 grow _) fun _ =>
    blind_writeUint8 grow _

theorem blind_writeUint32 (grow : SameGrowth alloc G) (val : UInt32) :
    Blind (TwinBuilder G k) (writeUint32 alloc val) :=
  .bind (blind_writeUint8 grow _) fun _ => .bind (blind_writeUint8 grow _) fun _ =>
    .bind (blind_writeUint8 grow _) fun _ => blind_writeUint8 grow _

theorem blind_writeUint64 (grow : SameGrowth alloc G) (val : UInt64) :
    Blind (TwinBuilder G k) (writeUint64 alloc val) :=
  .bind (blind_writeUint8 grow _) fun _ => .bind (blind_writeUint8 grow _) fun _ =>
    .bind (blind_writeUint8 grow _) fun _ => .bind (blind_writeUint8 grow _) fun _ =>
    .bind (blind_writeUint8 grow _) fun _ => .bind (blind_writeUint8 grow _) fun _ =>
    .bind (blind_writeUint8 grow _) fun _ => blind_writeUint8 grow _

theorem blind_writeLenenc (grow : SameGrowth alloc G) (val : UInt64) :
    Blind (TwinBuilder G k) (writeLenenc alloc val) := by
  have hlead : ∀ (b : UInt8) {m : Proc Code Builder Unit}, Blind (TwinBuilder G k) m →
      Blind (TwinBuilder G k) (do writeUint8 alloc b; m) :=
    fun b _ hm => .bind (blind_writeUint8 grow b) fun _ => hm
  exact .ite (fun _ => blind_writeUint8 grow _) fun _ =>
    .ite (fun _ => hlead _ (blind_writeUint16 grow _)) fun _ =>
    .ite (fun _ => hlead _ (blind_writeUint24 grow _)) fun _ => hlead _ (blind_writeUint64 grow _)

theorem blind_writeFragments (grow : SameGrowth alloc G) (turns : Nat) (data : List UInt8)
    (fragmentRemaining : Nat) :
    Blind (TwinBuilder G k) (writeFragments alloc turns data fragmentRemaining) := by
  induction turns generalizing data fragmentRemaining with
  | zero => exact .pure _
  | succ turns ih =>
    apply Blind.ite
    · intro _
      exact .bind (blind_expand grow _) fun _ => .bind (blind_append _) fun _ =>
        .bind (blind_writeContinuationHeader grow) fun _ => ih _ _
    · intro _
      exact .ite (fun _ => .bind (blind_expand grow _) fun _ => blind_append _) fun _ => .pure _

theorem blind_writeBuffer (grow : SameGrowth alloc G) (data : List UInt8) :
    Blind (TwinBuilder G k) (writeBuffer alloc data) := by
  apply blind_get (fun _ _ => rfl)
  intro b
  exact .ite (fun _ => .throw _) fun _ =>
    .ite (fun _ => .bind (blind_expand grow _) fun _ => blind_append _) fun _ =>
    blind_writeFragments grow _ _ _

theorem blind_writeLenencBuffer (grow : SameGrowth alloc G) (data : List UInt8) :
    Blind (TwinBuilder G k) (writeLenencBuffer alloc data) :=
  .bind (blind_writeLenenc grow _) fun _ => blind_writeBuffer grow _

theorem blind_writeString (grow : SameGrowth alloc G) (data : List UInt8) :
    Blind (TwinBuilder G k) (writeString alloc data) :=
  .bind (blind_writeBuffer grow _) fun _ => blind_writeUint8 grow _

theorem blind_setMaxPacketLength (maxLength : Nat) :
    Blind (TwinBuilder G k) (setMaxPacketLength maxLength) := by
  rintro b _ ⟨buffer, h, rfl⟩
  rw [setMaxPacketLength, Proc.get_bind, Proc.get_bind]
  by_cases hlong : b.packet_length > maxLength
  · rw [if_pos hlong, if_pos hlong]
    exact ⟨.rfl, buffer, h, rfl⟩
  · rw [if_neg hlong, if_neg hlong]
    exact ⟨.rfl, buffer, h, rfl⟩

end Builder

open Builder

variable (grow : SameGrowth alloc G)

include grow

theorem blind_command (cmd : UInt8) {m : Proc Code Builder Unit} (hm : Blind (TwinBuilder G k) m) :
    Blind (TwinBuilder G k) (do writeUint8 alloc cmd; m; modify finalize) :=
  .bind (blind_writeUint8 grow cmd) fun _ => .bind hm fun _ => blind_finalize

theorem blind_buildAuthPacket (digests : Digests) (user : Option (List UInt8)) (pass : List UInt8)
    (database : Option (List UInt8)) (client_encoding : UInt8) (auth_plugin scramble : List UInt8)
    (flags : UInt32) :
    Blind (TwinBuilder G k) (buildAuthPacket alloc digests user pass database client_encoding
      auth_plugin scramble flags) :=
  .bind (blind_writeUint32 grow _) fun _ => .bind (blind_writeUint32 grow _) fun _ =>
    .bind (blind_writeUint8 grow _) fun _ => .bind (blind_writeBuffer grow _) fun _ =>
    .bind (blind_writeString grow _) fun _ => .bind (blind_writeUint8 grow _) fun _ =>
    .bind (.when fun _ => blind_writeBuffer grow _) fun _ =>
    .bind (.when fun _ => blind_writeString grow _) fun _ =>
    .bind (.when fun _ => blind_writeString grow _) fun _ => blind_finalize

theorem blind_buildSslRequestPacket (flags : UInt32) (client_encoding : UInt8) :
    Blind (TwinBuilder G k) (buildSslRequestPacket alloc flags client_encoding) :=
  .bind (blind_writeUint32 grow _) fun _ => .bind (blind_writeUint32 grow _) fun _ =>
    .bind (blind_writeUint8 grow _) fun _ => .bind (blind_writeBuffer grow _) fun _ =>
    blind_finalize

theorem blind_buildAuthClearPassword (pass : List UInt8) :
    Blind (TwinBuilder G k) (buildAuthClearPassword alloc pass) :=
  .bind (blind_writeBuffer grow _) fun _ => .bind (blind_writeUint8 grow _) fun _ => blind_finalize

theorem blind_buildAuthSwitchResponsePacket (digests : Digests)
    (pass auth_plugin scramble : List UInt8) (enable_cleartext_plugin : Bool) :
    Blind (TwinBuilder G k) (buildAuthSwitchResponsePacket alloc digests pass auth_plugin scramble
      enable_cleartext_plugin) := by
  have hplugin := blind_writeBuffer (k := k) grow
  refine .bind (.when fun _ => ?_) fun _ => blind_finalize
  exact .ite (fun _ => .ite (fun _ => hplugin _) fun _ => .throw _) fun _ =>
    .ite (fun _ => hplugin _) fun _ => .ite (fun _ => hplugin _) fun _ => .throw _

theorem blind_writeNullBitmap (i : Nat) (bits : UInt8) (binds : List BinaryValue) :
    Blind (TwinBuilder G k) (writeNullBitmap alloc i bits binds) := by
  induction binds generalizing i bits with
  | nil => exact .pure _
  | cons bind binds ih =>
    exact .ite (fun _ => .bind (blind_writeUint8 grow _) fun _ => ih _ _) fun _ => ih _ _

theorem blind_writeTypes (binds : List BinaryValue) :
    Blind (TwinBuilder G k) (writeTypes alloc binds) := by
  induction binds with
  | nil => exact .pure _
  | cons bind binds ih =>
    exact .bind (blind_writeUint8 grow _) fun _ => .bind
      (.ite (fun _ => blind_writeUint8 grow _) fun _ => blind_writeUint8 grow _) fun _ => ih

theorem blind_writeTime (time : TimeValue) : Blind (TwinBuilder G k) (writeTime alloc time) :=
  .bind (blind_writeUint8 grow _) fun _ => .when fun _ =>
    .bind (blind_writeUint8 grow _) fun _ => .bind (blind_writeUint32 grow _) fun _ =>
    .bind (blind_writeUint8 grow _) fun _ => .bind (blind_writeUint8 grow _) fun _ =>
    .bind (blind_writeUint8 grow _) fun _ => .when fun _ => blind_writeUint32 grow _

theorem blind_writeDate (date : DateValue) : Blind (TwinBuilder G k) (writeDate alloc date) :=
  .bind (blind_writeUint8 grow _) fun _ => .when fun _ =>
    .bind (blind_writeUint16 grow _) fun _ => .bind (blind_writeUint8 grow _) fun _ =>
    .bind (blind_writeUint8 grow _) fun _ => .when fun _ =>
    .bind (blind_writeUint8 grow _) fun _ => .bind (blind_writeUint8 grow _) fun _ =>
    .bind (blind_writeUint8 grow _) fun _ => .when fun _ => blind_writeUint32 grow _

theorem blind_writeValue (val : BinaryValue) : Blind (TwinBuilder G k) (writeValue alloc val) := by
  unfold writeValue
  split
  · exact blind_writeUint8 grow _
  · exact blind_writeUint16 grow _
  · exact blind_writeUint32 grow _
  · exact blind_writeUint32 grow _
  · exact blind_writeUint64 grow _
  · exact blind_writeUint32 grow _
  · exact blind_writeUint64 grow _
  · exact blind_writeUint16 grow _
  · exact blind_writeTime grow _
  iterate 3 exact blind_writeDate grow _
  iterate 15 exact blind_writeLenencBuffer grow _
  · exact .pure _
  · exact .throw _

theorem blind_writeValues (binds : List BinaryValue) :
    Blind (TwinBuilder G k) (writeValues alloc binds) := by
  induction binds with
  | nil => exact .pure _
  | cons bind binds ih => exact .bind (blind_writeValue grow _) fun _ => ih

theorem blind_buildStmtExecutePacket (stmt_id : UInt32) (flags : UInt8)
    (binds : Option (List BinaryValue)) (num_binds : UInt16) :
    Blind (TwinBuilder G k) (buildStmtExecutePacket alloc stmt_id flags binds num_binds) := by
  refine .bind (blind_writeUint8 grow _) fun _ => .bind (blind_writeUint32 grow _) fun _ =>
    .bind (blind_writeUint8 grow _) fun _ => .bind (blind_writeUint32 grow _) fun _ =>
    .bind (.when fun _ => ?_) fun _ => blind_finalize
  cases binds with
  | none => exact .throw _
  | some binds =>
    exact .bind (blind_writeNullBitmap grow _ _ _) fun _ =>
      .bind (.when fun _ => blind_writeUint8 grow _) fun _ =>
      .bind (blind_writeUint8 grow _) fun _ => .bind (blind_writeTypes grow _) fun _ =>
      blind_writeValues grow _

end

namespace PacketParser

/-- Before a packet: the next thing to happen to the contents of the buffer is
that they are dropped. -/
def Awaits (p : PacketParser) : Prop :=
  p.fragment = false ∧ p.deferred_end_callback = false ∧
    (p.state = .len0 ∨ p.state = .len1 ∨ p.state = .len2)

/-- Two calls that did the same; a packet that was completed is the same too. -/
structure TwinExecuted (G : Nat → Nat → Prop) (k : Nat) (w : Prop) (t t' : Executed Buffer) :
    Prop where
  parser : t'.parser = t.parser
  consumed : t'.consumed = t.consumed
  error : t'.error = t.error
  user : Twin G k (w ∨ ¬ Awaits t.parser ∨ 0 < t.error) t.user t'.user

variable {alloc : Alloc} {G : Nat → Nat → Prop} {k : Nat} {w : Prop} {p : PacketParser}
  {b b' : Buffer}

theorem twin_endOfPayload (h : Twin G k True b b') (consumed : Nat) :
    TwinExecuted G k w (endOfPayload (packetParserCallbacks alloc) p b consumed)
      (endOfPayload (packetParserCallbacks alloc) p b' consumed) := by
  unfold endOfPayload
  by_cases hfragment : p.fragment
  · simp only [hfragment, if_true]
    exact ⟨rfl, rfl, rfl, h.weaken fun _ => trivial⟩
  · simp only [hfragment]
    exact ⟨rfl, rfl, rfl, h.weaken fun _ => trivial⟩

theorem twin_onPacketData (grow : SameGrowth alloc G) (h : Twin G k True b b')
    (data : List UInt8) :
    (onPacketData alloc b' data).1 = (onPacketData alloc b data).1 ∧
      Twin G k True (onPacketData alloc b data).2 (onPacketData alloc b' data).2 := by
  obtain ⟨hend, hafter⟩ := h.expand grow data.length
  unfold onPacketData
  rcases e : Buffer.expand alloc data.length b with ⟨rc | _, b₁⟩
  · rcases e' : Buffer.expand alloc data.length b' with ⟨rc' | _, b₁'⟩
    · rw [e, e'] at hend hafter
      cases hend
      exact ⟨rfl, hafter⟩
    · rw [e, e'] at hend
      cases hend
  · rcases e' : Buffer.expand alloc data.length b' with ⟨rc' | _, b₁'⟩
    · rw [e, e'] at hend
      cases hend
    · rw [e, e'] at hafter
      exact ⟨rfl, hafter.push data⟩

theorem twin_turn (grow : SameGrowth alloc G) (h : Twin G k (w ∨ ¬ Awaits p) b b') (x : UInt8)
    (rest : List UInt8) :
    TwinExecuted G k w (turn (packetParserCallbacks alloc) p b x rest)
      (turn (packetParserCallbacks alloc) p b' x rest) := by
  have held : ¬ Awaits p → Twin G k True b b' := fun hp => h.weaken fun _ => .inr hp
  unfold turn
  cases hs : p.state with
  | len0 =>
    refine ⟨rfl, rfl, rfl, h.weaken ?_⟩
    simp [Awaits, hs]
  | len1 =>
    refine ⟨rfl, rfl, rfl, h.weaken ?_⟩
    simp [Awaits, hs]
  | len2 =>
    by_cases hfragment : p.fragment
    · have hcounts := held (by simp [Awaits, hfragment])
      simp only [hfragment, if_true]
      exact ⟨rfl, rfl, rfl, hcounts.weaken fun _ => trivial⟩
    · simp only [hfragment]
      exact ⟨rfl, rfl, rfl, h.reset.weaken fun _ => trivial⟩
  | seq =>
    have hcounts := held (by simp [Awaits, hs])
    by_cases hseq : x ≠ p.sequence_number
    · simp only [if_pos hseq]
      exact ⟨rfl, rfl, rfl, hcounts.weaken fun _ => trivial⟩
    · simp only [if_neg hseq]
      by_cases hzero : p.bytes_remaining = 0
      · simp only [if_pos hzero]
        exact twin_endOfPayload hcounts 1
      · simp only [if_neg hzero]
        exact ⟨rfl, rfl, rfl, hcounts.weaken fun _ => trivial⟩
  | payload =>
    have hcounts := held (by simp [Awaits, hs])
    obtain ⟨hrc, hafter⟩ := twin_onPacketData grow hcounts ((x :: rest).take p.bytes_remaining)
    have hsame : ((packetParserCallbacks alloc).on_packet_data b'
          ((x :: rest).take p.bytes_remaining)).1 =
        ((packetParserCallbacks alloc).on_packet_data b
          ((x :: rest).take p.bytes_remaining)).1 := hrc
    dsimp only
    by_cases hstop : ((packetParserCallbacks alloc).on_packet_data b
        ((x :: rest).take p.bytes_remaining)).1 = 0
    · rw [if_neg (not_not.mpr hstop), if_neg (not_not.mpr (hsame.trans hstop))]
      by_cases hzero : p.bytes_remaining - ((x :: rest).take p.bytes_remaining).length = 0
      · rw [if_pos hzero, if_pos hzero]
        exact twin_endOfPayload hafter _
      · rw [if_neg hzero, if_neg hzero]
        exact ⟨rfl, rfl, rfl, hafter.weaken fun _ => trivial⟩
    · rw [if_pos hstop, if_pos (mt hsame.symm.trans hstop)]
      exact ⟨rfl, rfl, hrc, hafter.weaken fun _ => trivial⟩

theorem twin_loop (grow : SameGrowth alloc G) (h : Twin G k (w ∨ ¬ Awaits p) b b') (turns : Nat)
    (input : List UInt8) :
    TwinExecuted G k w (loop (packetParserCallbacks alloc) turns p b input)
      (loop (packetParserCallbacks alloc) turns p b' input) := by
  have stay : ∀ {p : PacketParser} {b b' : Buffer}, Twin G k (w ∨ ¬ Awaits p) b b' →
      TwinExecuted G k w (⟨p, b, 0, 0⟩ : Executed Buffer) ⟨p, b', 0, 0⟩ := by
    intro p b b' h
    refine ⟨rfl, rfl, rfl, h.weaken ?_⟩
    simp
  induction turns generalizing p b b' input with
  | zero => exact stay h
  | succ turns ih =>
    cases input with
    | nil => exact stay h
    | cons x rest =>
      have hturn := twin_turn grow h x rest
      rw [loop, loop]
      simp only [hturn.error, hturn.consumed, hturn.parser]
      by_cases hstop : (turn (packetParserCallbacks alloc) p b x rest).error ≠ 0
      · rw [if_pos hstop, if_pos hstop]
        exact hturn
      · rw [if_neg hstop, if_neg hstop]
        have hnext := ih (hturn.user.weaken fun hp => hp.imp_right Or.inl)
          ((x :: rest).drop (turn (packetParserCallbacks alloc) p b x rest).consumed)
        exact ⟨hnext.parser, by simp only [hnext.consumed], hnext.error, hnext.user⟩

theorem twin_execute (grow : SameGrowth alloc G) (h : Twin G k (w ∨ ¬ Awaits p) b b')
    (input : List UInt8) :
    TwinExecuted G k w (execute (packetParserCallbacks alloc) p b input)
      (execute (packetParserCallbacks alloc) p b' input) := by
  unfold execute
  by_cases hdeferred : p.deferred_end_callback
  · have hcounts : Twin G k True b b' := h.weaken fun _ => .inr (by simp [Awaits, hdeferred])
    simp only [hdeferred, if_true]
    exact ⟨rfl, rfl, rfl, hcounts.weaken fun _ => trivial⟩
  · simp only [hdeferred]
    exact twin_loop grow h _ input

end PacketParser

end Trilogy
