import Trilogy.BinaryRow
import Trilogy.Rows

/-! A packet that starts with 0xfe is a terminator to the client as long as it has
less than nine bytes. With `DEPRECATE_EOF` that is an OK packet, which can be
longer; a text row that starts so is longer than 16 MB. -/
namespace Trilogy

open Lib Proc

namespace Conn

/-- The call ends the rows, with the status of this reply. -/
def EndsRows {α : Type} (m : Proc Code Conn α) (c : Conn) (o : OkReply) : Prop :=
  ∃ c', Returns .again m c (.error .eof) c' ∧ c'.server_status = o.status ∧
    c'.warning_count = o.warnings

variable {alloc : Alloc} {n : Nat} {c : Conn} {ps : List (List UInt8)} {rest : List UInt8}

/-- A reply ends the rows when it is short; otherwise it is parsed as a row, and
no parser ends them. -/
theorem endsRows_iff {α : Type} {m : Proc Code Conn α} {row : UInt64 → Proc Code Reader α}
    {o : OkReply} {c₁ : Conn} (raises : ∀ count, Cursor.Raises Reader.Malformed (row count))
    (hbytes : c₁.packet_buffer.bytes = o.bytes Packet.eof c₁.capabilities)
    (de : has c₁.capabilities Capabilities.deprecateEof)
    (p41 : has c₁.capabilities Capabilities.protocol41) (sendable : o.Sendable c₁.capabilities)
    (hreturns : ∀ r c', rowReply row c₁ = (r, c') → r ≠ .error .again →
      Returns .again m c r c') :
    EndsRows m c o ↔ (o.bytes Packet.eof c₁.capabilities).length < 9 := by
  constructor
  · rintro ⟨c', hends, -⟩
    by_contra long
    have hparses : rowReply row c₁ = parsePacket (row c₁.column_count) c₁ :=
      rowReply_parses hbytes (fun _ => by rwa [Buffer.len, hbytes]) (by decide)
    have hmalformed : ∀ rc, parse (row c₁.column_count) c₁.packet_buffer.bytes = .error rc →
        Reader.Malformed rc := fun rc => parse_error (raises _)
    have hreturn := hreturns _ _ hparses fun he => (hmalformed _ he).1 rfl
    exact (hmalformed _ (hends.unique hreturn).1.symm).2.1 rfl
  · intro short
    have hterminator : c₁.packet_buffer.bytes = terminatorBytes c₁.capabilities o := by
      rw [hbytes, terminatorBytes, if_pos de]
    obtain ⟨c', hreply, -, hstanding⟩ :=
      rowReply_terminator (fun _ => ⟨sendable, short⟩) hterminator
    rw [noting, if_pos p41] at hstanding
    exact ⟨c', hreturns _ _ (hreply _) (by simp), congrArg Prod.fst hstanding,
      congrArg Prod.snd hstanding⟩

theorem endsRows_readRow_iff {o : OkReply}
    (h : Facing alloc n c (o.bytes Packet.eof c.capabilities :: ps) rest)
    (de : has c.capabilities Capabilities.deprecateEof)
    (p41 : has c.capabilities Capabilities.protocol41) (sendable : o.Sendable c.capabilities) :
    EndsRows (readRow alloc) c o ↔ (o.bytes Packet.eof c.capabilities).length < 9 := by
  have hrow : Facing alloc n c
      (c.beforeRow ⟨0, 0⟩ ++ o.bytes Packet.eof c.capabilities :: ps) rest := by
    rw [beforeRow, if_pos (.inr de)]
    exact h
  obtain ⟨c₁, hbytes, -, hreach, hreturns⟩ := readRow_returns hrow
  rw [← hreach.capabilities] at hbytes de p41 sendable ⊢
  exact endsRows_iff raises_parseRowPacket hbytes de p41 sendable hreturns

theorem endsRows_stmtReadRow_iff {o : OkReply} {stmt : StmtOkPacket} {columns : List Column}
    {values_out : List BinaryValue}
    (h : Facing alloc n c (o.bytes Packet.eof c.capabilities :: ps) rest)
    (de : has c.capabilities Capabilities.deprecateEof)
    (p41 : has c.capabilities Capabilities.protocol41) (sendable : o.Sendable c.capabilities) :
    EndsRows (stmtReadRow alloc stmt columns values_out) c o ↔
      (o.bytes Packet.eof c.capabilities).length < 9 := by
  obtain ⟨c₁, hbytes, -, huntouched, hreturns⟩ := h.receive
    (f := fun _ => rowReply fun _ =>
      parseStmtRowPacket columns stmt.column_count.toUInt64 values_out)
  rw [← huntouched.capabilities] at hbytes de p41 sendable ⊢
  exact endsRows_iff (fun _ => raises_parseStmtRowPacket _ _ _) hbytes de p41 sendable hreturns

/-- OK packets end the rows as long as they are short; rows are rows. -/
theorem rows_classified (de : has c.capabilities Capabilities.deprecateEof)
    (p41 : has c.capabilities Capabilities.protocol41) :
    (∀ o : OkReply, o.Sendable c.capabilities →
      Facing alloc n c (o.bytes Packet.eof c.capabilities :: ps) rest →
      ((EndsRows (readRow alloc) c o ∧
          ∀ stmt columns values_out, EndsRows (stmtReadRow alloc stmt columns values_out) c o) ↔
        (o.bytes Packet.eof c.capabilities).length < 9)) ∧
    ∀ values, values ≠ [] → Sized values → c.column_count.toNat = values.length →
      Facing alloc n c (textRow values :: ps) rest →
      ∃ c', Returns .again (readRow alloc) c (.ok values) c' := by
  refine ⟨fun o sendable h => ⟨fun hends => ?_, fun short => ⟨?_, fun stmt columns outs => ?_⟩⟩,
    fun values nonempty sized hcount h => ?_⟩
  · exact (endsRows_readRow_iff h de p41 sendable).mp hends.1
  · exact (endsRows_readRow_iff h de p41 sendable).mpr short
  · exact (endsRows_stmtReadRow_iff h de p41 sendable).mpr short
  · have hrow : Facing alloc n c (c.beforeRow ⟨0, 0⟩ ++ textRow values :: ps) rest := by
      rw [beforeRow, if_pos (.inr de)]
      exact h
    obtain ⟨c', hreturns, -, -⟩ := readRow_row hrow ⟨rfl, sized⟩
      (List.length_pos_of_ne_nil nonempty) hcount
    exact ⟨c', hreturns⟩

theorem rows_classified_short :
    let c := answeringConn Capabilities.client
      [(plainReply 2).bytes Packet.eof Capabilities.client]
    (EndsRows (readRow fun _ => true) c (plainReply 2) ∧ ∀ stmt columns values_out,
        EndsRows (stmtReadRow (fun _ => true) stmt columns values_out) c (plainReply 2)) ↔
      ((plainReply 2).bytes Packet.eof Capabilities.client).length < 9 :=
  (@rows_classified (fun _ => true) 100 _ [] [] (by decide) (by decide)).1 (plainReply 2)
    (plainReply_terminates 2 (by decide) Capabilities.client (by decide)).1
    (facing_answering Capabilities.client (by simp) (by decide) (by decide +kernel))

/-- The end of the rows with an `info` of seven bytes. -/
def longReply : OkReply := ⟨0, 0, 2, 0, some (literal "Records"), []⟩

theorem rows_classified_fails :
    longReply.Sendable Capabilities.client ∧
    ¬ EndsRows (readRow fun _ => true)
      (answeringConn Capabilities.client [longReply.bytes Packet.eof Capabilities.client])
      longReply := by
  have sendable : longReply.Sendable Capabilities.client :=
    ⟨fun _ => by decide, by rintro _ ⟨⟩; decide⟩
  refine ⟨sendable, fun hends => ?_⟩
  have h : Facing (fun _ => true) 100
      (answeringConn Capabilities.client [longReply.bytes Packet.eof Capabilities.client])
      [longReply.bytes Packet.eof Capabilities.client] [] :=
    facing_answering Capabilities.client (by simp) (by decide) (by decide +kernel)
  exact absurd ((endsRows_readRow_iff h (by decide) (by decide) sendable).mp hends)
    (by decide +kernel)

end Conn

end Trilogy
