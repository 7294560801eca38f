import Mathlib.Data.List.Infix
import Trilogy.Shutdown
import Trilogy.Rows

/-! `drainResults` reads packets until one looks like a terminator, where reading
the rows takes note of what the packets say. It reads the first packet as an EOF
packet whether or not the server sends one behind the definitions, and it knows
nothing of error packets. -/
namespace Trilogy

open Lib Proc

namespace PacketParser

variable {alloc : Alloc} {p : PacketParser} {b : Buffer}

theorem onPacketData_neg {data : List UInt8} (h : (onPacketData alloc b data).1 ≠ 0) :
    (onPacketData alloc b data).1 < 0 := by
  unfold onPacketData at h ⊢
  split
  · rename_i rc b' he
    rcases Buffer.expand_error he with rfl | rfl
    · exact (by decide : Code.typeOverflow.toInt < 0)
    · exact (by decide : Code.syserr.toInt < 0)
  · rename_i he
    rw [he] at h
    exact absurd rfl h

/-- A turn that does not fail takes a byte. -/
theorem turn_steady {x : UInt8} {rest : List UInt8} (h : Steady p)
    (ok : 0 ≤ (turn (packetParserCallbacks alloc) p b x rest).error) :
    Steady (turn (packetParserCallbacks alloc) p b x rest).parser ∧
      0 < (turn (packetParserCallbacks alloc) p b x rest).consumed := by
  unfold turn at ok ⊢
  cases hs : p.state with
  | len0 | len1 => exact ⟨⟨nofun, h.deferred⟩, Nat.one_pos⟩
  | len2 =>
    simp only
    split <;> exact ⟨⟨nofun, h.deferred⟩, Nat.one_pos⟩
  | seq =>
    simp only [hs] at ok ⊢
    split at ok
    · exact absurd (show 0 ≤ Code.invalidSequenceId.toInt from ok) (by decide)
    · rw [if_neg ‹_›]
      by_cases hzero : p.bytes_remaining = 0
      · rw [if_pos hzero, endOfPayload_eq]
        exact ⟨⟨nofun, h.deferred⟩, Nat.one_pos⟩
      · rw [if_neg hzero]
        exact ⟨⟨fun _ => Nat.pos_of_ne_zero hzero, h.deferred⟩, Nat.one_pos⟩
  | payload =>
    have hpos := h.payload hs
    have hchunk : 0 < ((x :: rest).take p.bytes_remaining).length := by
      rw [List.length_take, List.length_cons]
      omega
    simp only [hs] at ok ⊢
    generalize (x :: rest).take p.bytes_remaining = chunk at ok hchunk ⊢
    have hneg := @onPacketData_neg alloc b chunk
    change 0 ≤ Executed.error (if (onPacketData alloc b chunk).1 ≠ 0 then _ else _) at ok
    change Steady (Executed.parser (if (onPacketData alloc b chunk).1 ≠ 0 then _ else _)) ∧
      0 < Executed.consumed (if (onPacketData alloc b chunk).1 ≠ 0 then _ else _)
    by_cases hrc : (onPacketData alloc b chunk).1 = 0
    · rw [if_neg (not_not.mpr hrc)]
      split
      · rw [endOfPayload_eq]
        exact ⟨⟨nofun, h.deferred⟩, hchunk⟩
      · exact ⟨⟨fun _ => Nat.pos_of_ne_zero ‹_›, h.deferred⟩, hchunk⟩
    · rw [if_pos hrc] at ok
      exact absurd (hneg hrc) (not_lt.mpr ok)

theorem loop_steady {turns : Nat} {input : List UInt8} (h : Steady p)
    (ok : 0 ≤ (loop (packetParserCallbacks alloc) turns p b input).error) :
    Steady (loop (packetParserCallbacks alloc) turns p b input).parser ∧
      (0 < (loop (packetParserCallbacks alloc) turns p b input).error →
        input ≠ [] ∧ 0 < (loop (packetParserCallbacks alloc) turns p b input).consumed) := by
  induction turns generalizing p b input with
  | zero => exact ⟨h, fun hpos => absurd hpos (lt_irrefl (0 : Int))⟩
  | succ turns ih =>
    cases input with
    | nil => exact ⟨h, fun hpos => absurd hpos (lt_irrefl (0 : Int))⟩
    | cons x rest =>
      rw [loop] at ok ⊢
      simp only at ok ⊢
      have hturn := @turn_steady alloc p b x rest h
      split at ok
      · rw [if_pos ‹_›]
        obtain ⟨hsteady, hconsumed⟩ := hturn ok
        exact ⟨hsteady, fun _ => ⟨by simp, hconsumed⟩⟩
      · rename_i herr
        rw [if_neg herr]
        obtain ⟨hsteady, hconsumed⟩ := hturn (not_not.mp herr).ge
        exact ⟨(ih hsteady ok).1, fun _ => ⟨by simp, by simp only; omega⟩⟩

theorem execute_steady {input : List UInt8} (h : Steady p)
    (ok : 0 ≤ (execute (packetParserCallbacks alloc) p b input).error) :
    Steady (execute (packetParserCallbacks alloc) p b input).parser ∧
      (0 < (execute (packetParserCallbacks alloc) p b input).error →
        input ≠ [] ∧ 0 < (execute (packetParserCallbacks alloc) p b input).consumed) := by
  unfold execute at ok ⊢
  rw [if_neg (by simp [h.deferred])] at ok ⊢
  exact loop_steady h ok

end PacketParser

/-- The bytes a read returned. -/
def gotten : Except Code (List UInt8) → List UInt8
  | .ok bytes => bytes
  | .error _ => []

theorem sockRead_incoming {n : Nat} {sock sock' : Sock} {r : Except Code (List UInt8)}
    (h : Sock.read n sock = (r, sock')) : sock.incoming = gotten r ++ sock'.incoming := by
  unfold Sock.read at h
  cases hio : sock.io with
  | raw =>
    simp only [hio] at h
    unfold Sock.rawRead at h
    split at h
    · cases h
      rfl
    · rename_i hreads
      cases h
      simp [gotten, Sock.incoming, hio, hreads, RawRead.bytes]
    · rename_i bytes more hreads
      cases h
      by_cases hle : bytes.length ≤ n
      · simp [gotten, Sock.incoming, hio, hreads, RawRead.bytes, if_pos hle, List.take_of_length_le hle]
      · simp only [gotten, Sock.incoming, hio, hreads, RawRead.bytes, if_neg hle, List.flatMap_cons]
        rw [← List.append_assoc, List.take_append_drop]
  | ssl =>
    simp only [hio] at h
    unfold Sock.sslRead at h
    split at h
    · cases h
      rfl
    · rename_i hreads
      cases h
      simp [gotten, Sock.incoming, hio, hreads, TlsRead.bytes]
    · rename_i b bytes more hreads
      cases h
      have hsplit := List.take_append_drop n (b :: bytes)
      cases hrest : (b :: bytes).drop n with
      | nil =>
        rw [hrest, List.append_nil] at hsplit
        simp [gotten, Sock.incoming, hio, hreads, TlsRead.bytes, hsplit]
      | cons b' bytes' =>
        rw [hrest] at hsplit
        simp only [gotten, Sock.incoming, hio, hreads, TlsRead.bytes, List.flatMap_cons]
        rw [← List.append_assoc, hsplit]
  | shutdown =>
    simp only [hio] at h
    cases h
    rfl

namespace Conn

variable {alloc : Alloc} {c c' : Conn}

theorem refill_pending {r : Except Code Unit} (h : refill c = (r, c')) :
    c'.pending = c.pending ∧ c'.packetParser = c.packetParser := by
  rw [refill, Proc.get_bind] at h
  split at h
  · rename_i hpos
    have hunread : c.unread = [] := by rw [unread, hpos, List.drop_length]
    rcases hread : Sock.read defaultBufSize c.socket with ⟨rc | bytes, socket⟩
    · rw [Proc.bind_of_error (onSocket_read hread)] at h
      cases h
      exact ⟨by rw [pending, pending, sockRead_incoming hread]; rfl, rfl⟩
    · rw [Proc.bind_of_ok (onSocket_read hread)] at h
      have hincoming := sockRead_incoming hread
      split at h
      · rename_i hnil
        cases h
        rw [List.length_eq_zero_iff.mp hnil] at hincoming
        exact ⟨by rw [pending, pending, hincoming]; rfl, rfl⟩
      · cases h
        refine ⟨?_, rfl⟩
        rw [pending, pending, hunread, hincoming]
        rfl
  · cases h
    exact ⟨rfl, rfl⟩

theorem execute_pending {r : Except Code Unit} (steady : PacketParser.Steady c.packetParser)
    (h : execute alloc c = (r, c')) (ok : r = .ok () ∨ r = .error .again) :
    PacketParser.Steady c'.packetParser ∧ c'.pending.length ≤ c.pending.length ∧
      (r = .ok () → c'.pending.length < c.pending.length) := by
  have hstop := PacketParser.stop_execute alloc c.packetParser c.packet_buffer c.unread
  have hsteady := @PacketParser.execute_steady alloc c.packetParser c.packet_buffer c.unread steady
  unfold execute at h
  simp only at h
  generalize PacketParser.execute (packetParserCallbacks alloc) c.packetParser c.packet_buffer
    c.unread = t at h hstop hsteady
  have hlength : (c.consume t).pending.length =
      c.unread.length - t.consumed + c.socket.incoming.length := by
    rw [consume_pending, List.length_append, List.length_drop]
  have hpending : c.pending.length = c.unread.length + c.socket.incoming.length := by
    rw [pending, List.length_append]
  by_cases hneg : t.error < 0
  · rw [if_pos hneg] at h
    cases h
    exfalso
    rcases hstop with he | he | he | he | he <;> rw [he] at hneg ok <;>
      first | exact absurd hneg (by decide) | exact absurd ok (by decide)
  · obtain ⟨hst, hconsumed⟩ := hsteady (not_lt.mp hneg)
    rw [if_neg hneg] at h
    split at h
    · rename_i hpos
      cases h
      obtain ⟨hne, hconsumed⟩ := hconsumed hpos
      have hunread := List.length_pos_of_ne_nil hne
      exact ⟨hst, by omega, fun _ => by omega⟩
    · cases h
      exact ⟨hst, by omega, by rintro ⟨⟩⟩

/-- A call that does not fail leaves no more bytes than there were, and fewer
when it got a packet. -/
theorem readPacket_pending {r : Except Code Unit} (steady : PacketParser.Steady c.packetParser)
    (h : readPacket alloc c = (r, c')) (ok : r = .ok () ∨ r = .error .again) :
    PacketParser.Steady c'.packetParser ∧ c'.pending.length ≤ c.pending.length ∧
      (r = .ok () → c'.pending.length < c.pending.length) := by
  rw [readPacket] at h
  rcases hrefill : refill c with ⟨rc | _, c₁⟩
  · obtain ⟨hpending, hparser⟩ := refill_pending hrefill
    rw [Proc.bind_of_error hrefill] at h
    cases h
    exact ⟨by rw [hparser]; exact steady, hpending ▸ Nat.le_refl _, by rintro ⟨⟩⟩
  · obtain ⟨hpending, hparser⟩ := refill_pending hrefill
    rw [Proc.bind_of_ok hrefill] at h
    rw [← hpending]
    exact execute_pending (by rw [hparser]; exact steady) h ok

/-- The test of `drainRows`. -/
def LooksTerminal (c : Conn) : Prop :=
  c.currentPacketType = Packet.eof ∧ c.packet_buffer.len < 9

instance (c : Conn) : Decidable c.LooksTerminal := inferInstanceAs (Decidable (_ ∧ _))

theorem drainRows_succ_ok {c₁ : Conn} (turns : Nat) (h : readPacket alloc c = (.ok (), c₁)) :
    drainRows alloc (turns + 1) c =
      if c₁.LooksTerminal then (.ok (), c₁) else drainRows alloc turns c₁ := by
  rw [drainRows, Proc.bind_of_ok h, Proc.get_bind]
  by_cases hterm : c₁.LooksTerminal
  · rw [if_pos hterm, if_pos (show _ ∧ _ from hterm)]
    rfl
  · rw [if_neg hterm, if_neg (show ¬ (_ ∧ _) from hterm)]

theorem drainRows_succ_error {c₁ : Conn} {rc : Code} (turns : Nat)
    (h : readPacket alloc c = (.error rc, c₁)) :
    drainRows alloc (turns + 1) c = (.error rc, c₁) := by
  rw [drainRows, Proc.bind_of_error h]

/-- With a turn for each byte that can come the loop does not run out of them. -/
theorem drainRows_turns {turns turns' : Nat} (steady : PacketParser.Steady c.packetParser)
    (h : c.pending.length < turns) (h' : c.pending.length < turns') :
    drainRows alloc turns c = drainRows alloc turns' c := by
  induction turns generalizing c turns' with
  | zero => omega
  | succ turns ih =>
    obtain ⟨turns', rfl⟩ : ∃ k, turns' = k + 1 := Nat.exists_eq_add_one.mpr (by omega)
    rcases hread : readPacket alloc c with ⟨rc | _, c₁⟩
    · rw [drainRows_succ_error _ hread, drainRows_succ_error _ hread]
    · obtain ⟨hsteady, -, hless⟩ := readPacket_pending steady hread (.inl rfl)
      have hless := hless rfl
      rw [drainRows_succ_ok _ hread, drainRows_succ_ok _ hread,
        @ih c₁ turns' hsteady (by omega) (by omega)]

theorem pending_le_pendingBytes (c : Conn) : c.pending.length ≤ c.pendingBytes := by
  have hbytes : c.pendingBytes = c.unread.length +
      (c.socket.net.raw_reads.flatMap RawRead.bytes).length +
      (c.socket.net.tls_reads.flatMap TlsRead.bytes).length := by
    rw [pendingBytes, List.length_flatMap, List.length_flatMap]
    refine congrArg₂ (· + ·) (congrArg₂ (· + ·) rfl (congrArg List.sum
      (List.map_congr_left fun read _ => ?_))) (congrArg List.sum
      (List.map_congr_left fun read _ => ?_))
    · cases read <;> rfl
    · cases read <;> rfl
  rw [pending, List.length_append, hbytes]
  unfold Sock.incoming
  cases c.socket.io <;> simp only [List.length_nil] <;> omega

/-- The loop, from where the call has got to. -/
def drainLoop (alloc : Alloc) : Proc Code Conn Unit := do
  let conn ← get
  drainRows alloc (conn.pendingBytes + 2)

theorem drainLoop_turns (turns : Nat) (steady : PacketParser.Steady c.packetParser)
    (h : c.pending.length < turns) : drainLoop alloc c = drainRows alloc turns c := by
  have := c.pending_le_pendingBytes
  rw [drainLoop, Proc.get_bind]
  exact drainRows_turns steady (by omega) h

theorem drainLoop_ok {c₁ : Conn} (steady : PacketParser.Steady c.packetParser)
    (h : readPacket alloc c = (.ok (), c₁)) :
    drainLoop alloc c = if c₁.LooksTerminal then (.ok (), c₁) else drainLoop alloc c₁ := by
  obtain ⟨hsteady, -, hless⟩ := readPacket_pending steady h (.inl rfl)
  have hless := hless rfl
  rw [drainLoop_turns (c.pending.length + 1) steady (by omega), drainRows_succ_ok _ h,
    drainLoop_turns c.pending.length hsteady hless]

theorem drainLoop_error {c₁ : Conn} {rc : Code} (h : readPacket alloc c = (.error rc, c₁)) :
    drainLoop alloc c = (.error rc, c₁) := by
  rw [drainLoop, Proc.get_bind, drainRows_succ_error _ h]

/-- A packet that the loop passes over, or stops at. -/
theorem drainLoop_returns {c₁ : Conn} {r : Except Code Unit}
    (steady : PacketParser.Steady c.packetParser)
    (h : Returns .again (readPacket alloc) c (.ok ()) c₁)
    (hr : Returns .again (drainLoop alloc) c₁ r c' ∧ ¬ c₁.LooksTerminal ∨
      c₁.LooksTerminal ∧ r = .ok () ∧ c' = c₁) :
    Returns .again (drainLoop alloc) c r c' := by
  generalize e : (Except.ok () : Except Code Unit) = q at h
  induction h with
  | @again s u q t hread _ ih =>
    subst e
    obtain ⟨hsteady, -, -⟩ := readPacket_pending steady hread (.inr rfl)
    exact .again (drainLoop_error hread) (ih hsteady hr rfl)
  | @stop s q t hread _ =>
    subst e
    have hloop := drainLoop_ok steady hread
    rcases hr with ⟨hr, hterm⟩ | ⟨hterm, rfl, rfl⟩
    · rw [if_neg hterm] at hloop
      cases hr with
      | stop hr hne => exact .stop (hloop.trans hr) hne
      | again hr hrest => exact .again (hloop.trans hr) hrest
    · rw [if_pos hterm] at hloop
      exact .stop hloop (by simp)

theorem drainRows_pending {turns : Nat} {r : Except Code Unit}
    (steady : PacketParser.Steady c.packetParser) (h : drainRows alloc turns c = (r, c'))
    (ok : r = .ok () ∨ r = .error .again) :
    PacketParser.Steady c'.packetParser ∧ c'.pending.length ≤ c.pending.length ∧
      (r = .ok () → c'.pending.length < c.pending.length) := by
  induction turns generalizing c with
  | zero =>
    cases h
    exact ⟨steady, Nat.le_refl _, nofun⟩
  | succ turns ih =>
    rcases hread : readPacket alloc c with ⟨rc | _, c₁⟩
    · rw [drainRows_succ_error _ hread] at h
      cases h
      obtain ⟨hsteady, hle, -⟩ := readPacket_pending steady hread (ok.imp nofun (by simpa using ·))
      exact ⟨hsteady, hle, nofun⟩
    · obtain ⟨hsteady, hle, hless⟩ := readPacket_pending steady hread (.inl rfl)
      have hless := hless rfl
      rw [drainRows_succ_ok _ hread] at h
      split at h
      · cases h
        exact ⟨hsteady, hle, fun _ => hless⟩
      · obtain ⟨hsteady', hle', hless'⟩ := ih hsteady h
        exact ⟨hsteady', hle'.trans hle, fun hr => hle'.trans_lt hless⟩

/-- The loop does not end with `TRILOGY_OK` unless it has read a packet. -/
theorem drainLoop_pending (steady : PacketParser.Steady c.packetParser)
    (h : Returns .again (drainLoop alloc) c (.ok ()) c') :
    c'.pending.length < c.pending.length := by
  generalize e : (Except.ok () : Except Code Unit) = q at h
  induction h with
  | stop hloop _ =>
    subst e
    exact (drainRows_pending steady hloop (.inl rfl)).2.2 rfl
  | again hloop _ ih =>
    obtain ⟨hsteady, hle, -⟩ := drainRows_pending steady hloop (.inr rfl)
    exact (ih hsteady e).trans_le hle

/-- The part of `drainResults` in front of the loop. -/
def beginDrain (alloc : Alloc) : Proc Code Conn Unit := do
  let conn ← get
  if !conn.started_reading_rows then do
    readEof alloc
    modify fun conn => { conn with started_reading_rows := true }
  else pure ()

theorem drainResults_eq (alloc : Alloc) :
    drainResults alloc = beginDrain alloc >>= fun _ => drainLoop alloc := rfl

theorem beginDrain_skip (h : c.started_reading_rows = true) :
    beginDrain alloc c = (.ok (), c) := by
  rw [beginDrain, Proc.get_bind, h]
  rfl

theorem beginDrain_readEof (h : ¬ c.started_reading_rows) :
    beginDrain alloc c = (do
      readEof alloc
      modify fun conn => { conn with started_reading_rows := true } : Proc Code Conn Unit) c := by
  rw [beginDrain, Proc.get_bind, if_pos (by simpa using h)]

/-- Calling the first part again is calling its `readEof` again. -/
theorem beginDrain_returns {r : Except Code Unit} (hstarted : ¬ c.started_reading_rows)
    (h : Returns .again (readEof alloc >>= fun _ =>
      (modify fun conn => { conn with started_reading_rows := true } : Proc Code Conn Unit))
      c r c') : Returns .again (beginDrain alloc) c r c' := by
  refine h.congr (I := fun c => ¬ c.started_reading_rows) hstarted
    (fun _ => beginDrain_readEof) fun s u hs he => ?_
  have hmode := sameMode_readEof alloc s
  rcases Proc.bind_error.mp he with he | ⟨_, _, _, he⟩
  · rw [he] at hmode
    rwa [hmode.2]
  · cases he

theorem sameMode_drainRows (alloc : Alloc) (turns : Nat) :
    Keeps SameMode (drainRows alloc turns) := by
  induction turns with
  | zero => exact .throw _
  | succ turns ih =>
    exact .bind (sameMode_readPacket alloc) fun _ => .bind .get fun _ =>
      .ite (fun _ => .pure _) fun _ => ih

theorem drainLoop_started {v : Conn} (h : c.started_reading_rows = true)
    (he : drainLoop alloc c = (.error .again, v)) : v.started_reading_rows = true := by
  have hmode : Keeps SameMode (drainLoop alloc) := .bind .get fun _ => sameMode_drainRows alloc _
  have := (hmode c).2
  rw [he] at this
  exact this.trans h

/-- Behind the first part, draining is the loop. -/
theorem drainResults_iff {c₁ : Conn} {r : Except Code Unit}
    (h : Returns .again (beginDrain alloc) c (.ok ()) c₁)
    (hstarted : c₁.started_reading_rows = true) :
    Returns .again (drainResults alloc) c r c' ↔ Returns .again (drainLoop alloc) c₁ r c' := by
  have keep : ∀ u v, u.started_reading_rows = true →
      drainLoop alloc u = (.error .again, v) → v.started_reading_rows = true :=
    fun _ _ => drainLoop_started
  rw [drainResults_eq]
  constructor
  · exact fun hf => h.of_bind_skip (f := fun _ => drainLoop alloc) (a := ()) hf hstarted
      (fun _ => beginDrain_skip) keep
  · exact fun hf => h.bind_skip (f := fun _ => drainLoop alloc) (a := ()) hf hstarted
      (fun _ => beginDrain_skip) keep

/-- What a stream of rows ends with. -/
inductive Ending
  | terminator (reply : OkReply)
  | failed (error : ErrReply)

namespace Ending

def bytes (capabilities : UInt32) : Ending → List UInt8
  | terminator reply => terminatorBytes capabilities reply
  | failed error => error.bytes capabilities

def Sendable (capabilities : UInt32) : Ending → Prop
  | terminator reply => Terminates capabilities reply
  | failed _ => True

end Ending

/-- `readRow` called until it returns something other than `TRILOGY_OK`. -/
inductive ReadToEnd (alloc : Alloc) : Conn → Code → Conn → Prop
  | stop {c c' : Conn} {rc : Code} (h : Returns .again (readRow alloc) c (.error rc) c') :
      ReadToEnd alloc c rc c'
  | row {c c₁ c' : Conn} {values : List Value} {rc : Code}
      (h : Returns .again (readRow alloc) c (.ok values) c₁) (rest : ReadToEnd alloc c₁ rc c') :
      ReadToEnd alloc c rc c'

theorem ReadToEnd.unique {rc rc' : Code} {c'' : Conn} (h : ReadToEnd alloc c rc c')
    (h' : ReadToEnd alloc c rc' c'') : rc = rc' ∧ c' = c'' := by
  induction h with
  | stop h =>
    cases h' with
    | stop h' =>
      obtain ⟨he, rfl⟩ := h.unique h'
      cases he
      exact ⟨rfl, rfl⟩
    | row h' _ => cases (h.unique h').1
  | row h _ ih =>
    cases h' with
    | stop h' => cases (h.unique h').1
    | row h' rest' =>
      obtain ⟨-, rfl⟩ := h.unique h'
      exact ih rest'

theorem Yields.readToEnd {rows : List (List Value)} {c₁ : Conn} {rc : Code}
    (h : Yields .again (readRow alloc) c rows c₁)
    (last : Returns .again (readRow alloc) c₁ (.error rc) c') : ReadToEnd alloc c rc c' := by
  induction h with
  | nil => exact .stop last
  | cons first _ ih => exact .row first (ih last)

/-- What `drainResults` should return where `readRow` ends with this code. -/
def drained : Code → Except Code Unit
  | .eof => .ok ()
  | rc => .error rc

/-- Draining has the effect of reading the rows to their end. -/
def DrainAgrees (alloc : Alloc) (c : Conn) : Prop :=
  ∃ rc c' cd, ReadToEnd alloc c rc c' ∧ Returns .again (drainResults alloc) c (drained rc) cd ∧
    cd.pending = c'.pending ∧ cd.standing = c'.standing ∧
    cd.started_reading_rows = c'.started_reading_rows

variable {n : Nat} {ps : List (List UInt8)} {rest : List UInt8} {columnEof : EofPacket}
  {rows : List (List Value)} {count : Nat} {reply : OkReply}

theorem Reaches.noting_eq (h : Reaches c columnEof c') (status warnings : UInt16) :
    c'.noting status warnings = c.noting status warnings := by
  rw [Conn.noting, Conn.noting, h.capabilities]
  by_cases p41 : has c.capabilities Capabilities.protocol41
  · rw [if_pos p41, if_pos p41]
  · rw [if_neg p41, if_neg p41, h.standing, rowStanding, Conn.noting, if_neg p41, ite_self]

/-- The loop of `readRow`, up to a terminator. -/
theorem readToEnd_terminator
    (h : Facing alloc n c (c.beforeRow columnEof ++
      (rows.map textRow ++ terminatorBytes c.capabilities reply :: ps)) rest)
    (hrows : RowsOf count rows) (pos : 0 < count) (hcount : c.column_count.toNat = count)
    (ends : Terminates c.capabilities reply) :
    ∃ c', ReadToEnd alloc c .eof c' ∧ Facing alloc n c' ps rest ∧
      c'.standing = c.noting reply.status reply.warnings ∧ c'.started_reading_rows = true := by
  obtain ⟨c₁, hyields, hfacing, hend⟩ := readRows h hrows pos hcount
  have hcapabilities : c₁.capabilities = c.capabilities := by
    rcases hend with rfl | hend
    · rfl
    · exact hend.capabilities
  rw [← hcapabilities] at hfacing ends
  obtain ⟨c₂, c', hread, hfacing', hreach, hnoted, hstanding⟩ := readRow_terminator hfacing ends
  have hreach₂ : Reaches c columnEof c₂ := by
    rcases hend with rfl | hend
    · exact hreach
    · exact hend.trans hreach
  exact ⟨c', Yields.readToEnd hyields hread, hfacing', hstanding.trans (hreach₂.noting_eq _ _),
    hnoted.started_reading_rows.trans hreach₂.started⟩

theorem readToEnd_err {e : ErrReply}
    (h : Facing alloc n c (c.beforeRow columnEof ++
      (rows.map textRow ++ e.bytes c.capabilities :: ps)) rest)
    (hrows : RowsOf count rows) (pos : 0 < count) (hcount : c.column_count.toNat = count) :
    ∃ c', ReadToEnd alloc c .err c' := by
  obtain ⟨c₁, hyields, hfacing, hend⟩ := readRows h hrows pos hcount
  have hcapabilities : c₁.capabilities = c.capabilities := by
    rcases hend with rfl | hend
    · rfl
    · exact hend.capabilities
  rw [← hcapabilities] at hfacing
  obtain ⟨c₂, c', hread, -⟩ := readRow_err hfacing
  exact ⟨c', Yields.readToEnd hyields hread⟩

/-- The loop of `drainResults`, up to a terminator. -/
theorem drainLoop_terminator
    (h : Facing alloc n c (rows.map textRow ++ terminatorBytes c.capabilities reply :: ps) rest)
    (hrows : RowsOf count rows) (pos : 0 < count) (ends : Terminates c.capabilities reply) :
    ∃ c', Returns .again (drainLoop alloc) c (.ok ()) c' ∧ Facing alloc n c' ps rest ∧
      Untouched c c' := by
  induction rows generalizing c with
  | nil =>
    obtain ⟨c', hread, hbytes, hfacing, huntouched⟩ := h.read
    obtain ⟨bs, hhead⟩ := terminatorBytes_head c.capabilities reply
    have hterm : c'.LooksTerminal := by
      refine ⟨currentPacketType_of_bytes (hbytes.trans hhead), ?_⟩
      rw [Buffer.len, hbytes]
      exact ends.length
    exact ⟨c', drainLoop_returns h.ready.steady hread (.inr ⟨hterm, rfl, rfl⟩), hfacing,
      huntouched⟩
  | cons row rows ih =>
    obtain ⟨hrow, hrows⟩ := List.forall_mem_cons.mp hrows
    obtain ⟨c₁, hread, hbytes, hfacing, huntouched⟩ := h.read
    rw [← huntouched.capabilities] at hfacing ends
    obtain ⟨c', hloop, hfacing', huntouched'⟩ := ih hfacing hrows ends
    have hterm : ¬ c₁.LooksTerminal := by
      obtain ⟨b, bs, hb, -, hfe⟩ := textRow_head (List.ne_nil_of_length_pos (hrow.1 ▸ pos))
      rintro ⟨htype, hshort⟩
      rw [currentPacketType_of_bytes (hbytes.trans hb)] at htype
      have := hfe htype
      rw [Buffer.len, hbytes, hb] at hshort
      omega
    exact ⟨c', drainLoop_returns h.ready.steady hread (.inl ⟨hloop, hterm⟩), hfacing',
      huntouched.trans huntouched'⟩

theorem readEofPacket_malformed {rc : Code} (h : readEofPacket c = (.error rc, c')) :
    Reader.Malformed rc := by
  rw [readEofPacket, Proc.get_bind] at h
  split at h
  · rcases hparse : parse (parseOkPacket c.capabilities) c.packet_buffer.bytes with rc' | packet
    · rw [readOkPacket_error hparse] at h
      cases h
      exact parse_error (raises_parseOkPacket _) hparse
    · obtain ⟨_, hread, -⟩ := readOkPacket_ok hparse
      rw [hread] at h
      cases h
  · rcases hparse : parse (parseEofPacket c.capabilities) c.packet_buffer.bytes with rc' | packet
    · have hparsed : parsePacket (parseEofPacket c.capabilities) c = (.error rc', c) := by
        rw [parsePacket, hparse]
      rw [readDeprecatedEofPacket, Proc.get_bind, Proc.bind_of_error hparsed] at h
      cases h
      exact parse_error (raises_parseEofPacket _) hparse
    · obtain ⟨_, hread, -⟩ := readDeprecatedEofPacket_ok hparse
      rw [hread] at h
      cases h

theorem drainRows_ne_err {turns : Nat} : drainRows alloc turns c ≠ (.error .err, c') := by
  induction turns generalizing c with
  | zero => simp [drainRows]
  | succ turns ih =>
    rcases hread : readPacket alloc c with ⟨rc | _, c₁⟩
    · rw [drainRows_succ_error _ hread]
      rintro h
      cases h
      exact absurd (readPacket_fault hread) (by decide)
    · rw [drainRows_succ_ok _ hread]
      split
      · simp
      · exact ih

/-- An error packet is never reported. -/
theorem drainResults_ne_err : drainResults alloc c ≠ (.error .err, c') := by
  rw [drainResults_eq]
  intro h
  rcases bind_error.mp h with h | ⟨_, c₁, -, h⟩
  · by_cases hstarted : c.started_reading_rows
    · rw [beginDrain_skip hstarted] at h
      cases h
    · rw [beginDrain_readEof hstarted] at h
      rcases bind_error.mp h with h | ⟨_, _, -, h⟩
      · rcases bind_error.mp h with h | ⟨_, _, -, h⟩
        · exact absurd (readPacket_fault h) (by decide)
        · exact (readEofPacket_malformed h).2.2 rfl
      · cases h
  · exact drainRows_ne_err h

theorem not_drained_err : ¬ Returns .again (drainResults alloc) c (.error .err) c' := by
  intro h
  generalize e : (Except.error Code.err : Except Code Unit) = q at h
  induction h with
  | stop h _ =>
    subst e
    exact drainResults_ne_err h
  | again _ _ ih => exact ih e

/-- With `DEPRECATE_EOF` the first packet is read as an OK packet. -/
theorem readEof_deprecated {p : List UInt8} {packet : OkPacket}
    (h : Facing alloc n c (p :: ps) rest) (de : has c.capabilities Capabilities.deprecateEof)
    (hparse : parse (parseOkPacket c.capabilities) p = .ok packet) :
    ∃ c', Returns .again (readEof alloc) c (.ok ()) c' ∧ Facing alloc n c' ps rest ∧
      c'.capabilities = c.capabilities ∧
      c'.standing = c.noting packet.status_flags packet.warning_count := by
  obtain ⟨c₁, hbytes, hfacing, huntouched, hreturns⟩ := h.receive
  rw [← huntouched.capabilities, ← hbytes] at hparse
  obtain ⟨c', hread, hnoted, hstanding⟩ := readOkPacket_ok hparse
  refine ⟨c', hreturns _ _ ?_ (by simp), hfacing.sameWire hnoted.toSameWire,
    hnoted.capabilities.trans huntouched.capabilities, hstanding.trans ?_⟩
  · rw [readEofPacket, Proc.get_bind, if_pos (by rw [huntouched.capabilities]; exact de), hread]
  · rw [Conn.noting, Conn.noting, huntouched.capabilities, huntouched.standing]

theorem readEof_malformed {p : List UInt8} {rc : Code}
    (h : Facing alloc n c (p :: ps) rest) (de : has c.capabilities Capabilities.deprecateEof)
    (hparse : parse (parseOkPacket c.capabilities) p = .error rc) :
    ∃ c', Returns .again (readEof alloc) c (.error rc) c' := by
  obtain ⟨c₁, hbytes, -, huntouched, hreturns⟩ := h.receive
  have hmalformed := parse_error (raises_parseOkPacket _) hparse
  rw [← huntouched.capabilities, ← hbytes] at hparse
  refine ⟨c₁, hreturns _ _ ?_ fun he => hmalformed.1 (by simpa using he)⟩
  rw [readEofPacket, Proc.get_bind, if_pos (by rw [huntouched.capabilities]; exact de),
    readOkPacket_error hparse]

/-- Some of the bytes to come have been parsed. -/
def Consumed (c c' : Conn) : Prop := c'.pending <:+ c.pending

instance : Std.Refl Consumed := ⟨fun _ => List.suffix_rfl⟩

instance : IsTrans Conn Consumed := ⟨fun _ _ _ h h' => List.IsSuffix.trans h' h⟩

theorem consumed_readRel (alloc : Alloc) : ReadRel alloc Consumed where
  refill c := by
    rw [Consumed, (refill_pending (Prod.eta (refill c)).symm).1]
  execute c := by
    have hconsume : ∀ t : Executed Buffer, Consumed c (c.consume t) := by
      intro t
      obtain ⟨taken, htaken⟩ := List.drop_suffix t.consumed c.unread
      exact ⟨taken, by rw [consume_pending, ← List.append_assoc, htaken, pending]⟩
    unfold execute
    simp only
    split
    · exact hconsume _
    · split <;> exact hconsume _
  same c c' h := by
    rw [Consumed, pending, pending, unread, unread, h.socket, h.recv_buff, h.recv_buff_pos]

theorem consumed_drainResults (alloc : Alloc) : Keeps Consumed (drainResults alloc) := by
  have h := consumed_readRel alloc
  exact .bind .get fun _ => .bind (.ite (fun _ => .bind (keeps_readEof h) fun _ =>
    keeps_modify h fun _ => ⟨rfl, rfl, rfl, rfl⟩) fun _ => .pure _) fun _ => .bind .get fun _ =>
    keeps_drainRows (keeps_readPacket h) _

theorem ReadToEnd.consumed {rc : Code} (h : ReadToEnd alloc c rc c') : Consumed c c' := by
  induction h with
  | stop h => exact h.keeps (keeps_readRow (consumed_readRel alloc))
  | row h _ ih => exact IsTrans.trans _ _ _ (h.keeps (keeps_readRow (consumed_readRel alloc))) ih

/-- Two connections behind the same packets of one stream. -/
theorem pending_eq {d d' : Conn} (h : Consumed c d) (h' : Consumed c d')
    (hfacing : Facing alloc n d ps rest) (hfacing' : Facing alloc n d' ps rest) :
    d.pending = d'.pending := by
  have hlength : d.pending.length = d'.pending.length := by
    rw [hfacing.pending, hfacing'.pending, List.length_append, List.length_append, length_stream]
  exact (List.suffix_of_suffix_length_le h h' hlength.le).eq_of_length hlength

/-- The first row passes for an OK packet that leaves the status of `reply`. -/
def FirstReports (c : Conn) (reply : OkReply) : List (List Value) → Prop
  | [] => False
  | row :: _ => ∃ packet, parse (parseOkPacket c.capabilities) (textRow row) = .ok packet ∧
      c.noting packet.status_flags packet.warning_count = c.noting reply.status reply.warnings

/-- When draining has the effect of reading the rows. -/
def DrainMatches (c : Conn) (columnEof : EofPacket) (rows : List (List Value)) : Ending → Prop
  | .failed _ => False
  | .terminator reply =>
    if c.started_reading_rows then c.standing = c.noting reply.status reply.warnings
    else if has c.capabilities Capabilities.deprecateEof then FirstReports c reply rows
    else
      c.noting columnEof.status_flags columnEof.warning_count =
        c.noting reply.status reply.warnings

/-- What is left to compare, once the first part of `drainResults` is done. -/
theorem drainAgrees_iff_standing {c₁ : Conn} (hreads : ReadToEnd alloc c .eof c')
    (hstarted : c'.started_reading_rows = true) (hfacing : Facing alloc n c' ps rest)
    (hbegin : Returns .again (beginDrain alloc) c (.ok ()) c₁)
    (hstarted₁ : c₁.started_reading_rows = true)
    (hfacing₁ : Facing alloc n c₁
      (rows.map textRow ++ terminatorBytes c₁.capabilities reply :: ps) rest)
    (hrows : RowsOf count rows) (pos : 0 < count) (ends : Terminates c₁.capabilities reply) :
    DrainAgrees alloc c ↔ c₁.standing = c'.standing := by
  obtain ⟨cd, hloop, hfacingd, huntouched⟩ := drainLoop_terminator hfacing₁ hrows pos ends
  have hdrain := (drainResults_iff hbegin hstarted₁).mpr hloop
  constructor
  · rintro ⟨rc, c'', cd', hreads', hdrain', -, hstanding, -⟩
    obtain ⟨rfl, rfl⟩ := hreads.unique hreads'
    obtain ⟨-, rfl⟩ := hdrain.unique hdrain'
    rw [← huntouched.standing]
    exact hstanding
  · intro hstanding
    refine ⟨_, c', cd, hreads, hdrain,
      pending_eq (hdrain.keeps (consumed_drainResults alloc)) hreads.consumed hfacingd hfacing,
      huntouched.standing.trans hstanding, ?_⟩
    rw [huntouched.started_reading_rows, hstarted₁, hstarted]

/-- No rows: the terminator is taken for an EOF packet in front of them, and the
loop goes on behind it. -/
theorem not_drainAgrees_nil (hreads : ReadToEnd alloc c .eof c')
    (hfacing : Facing alloc n c' ps rest) (hstarted : ¬ c.started_reading_rows)
    (de : has c.capabilities Capabilities.deprecateEof)
    (h : Facing alloc n c (terminatorBytes c.capabilities reply :: ps) rest)
    (ends : Terminates c.capabilities reply) : ¬ DrainAgrees alloc c := by
  obtain ⟨sendable, short⟩ := ends de
  have hparse := OkReply.parse_bytes Packet.eof sendable fun track =>
    OkReply.not_changed_of_short sendable track short
  rw [terminatorBytes, if_pos de] at h
  obtain ⟨c₁, hread, hfacing₁, -, -⟩ := readEof_deprecated h de hparse
  have hbegin := beginDrain_returns hstarted (hread.bind_ok rfl (by simp))
  rintro ⟨rc, c'', cd, hreads', hdrain, hpending, -⟩
  obtain ⟨rfl, rfl⟩ := hreads.unique hreads'
  have hfacing₁ : Facing alloc n { c₁ with started_reading_rows := true } ps rest :=
    hfacing₁.sameWire ⟨rfl, rfl, rfl, rfl, rfl⟩
  have hless := drainLoop_pending hfacing₁.ready.steady ((drainResults_iff hbegin rfl).mp hdrain)
  rw [hpending, hfacing₁.pending, hfacing.pending, List.length_append, List.length_append,
    length_stream c'.packetParser.sequence_number] at hless
  exact lt_irrefl _ hless

/-- The first row is taken for an EOF packet. -/
theorem drainAgrees_iff_cons {row : List Value} (hreads : ReadToEnd alloc c .eof c')
    (hstarted : c'.started_reading_rows = true) (hfacing : Facing alloc n c' ps rest)
    (hc : ¬ c.started_reading_rows) (de : has c.capabilities Capabilities.deprecateEof)
    (h : Facing alloc n c
      (textRow row :: (rows.map textRow ++ terminatorBytes c.capabilities reply :: ps)) rest)
    (hrows : RowsOf count rows) (pos : 0 < count) (ends : Terminates c.capabilities reply) :
    DrainAgrees alloc c ↔ ∃ packet,
      parse (parseOkPacket c.capabilities) (textRow row) = .ok packet ∧
        c.noting packet.status_flags packet.warning_count = c'.standing := by
  rcases hparse : parse (parseOkPacket c.capabilities) (textRow row) with rc | packet
  · refine iff_of_false ?_ (by simp)
    obtain ⟨c₁, hread⟩ := readEof_malformed h de hparse
    have hdrain : Returns .again (drainResults alloc) c (.error rc) c₁ := by
      rw [drainResults_eq]
      exact (beginDrain_returns hc hread.bind_error).bind_error
    rintro ⟨rc', c'', cd, hreads', hdrain', -⟩
    obtain ⟨rfl, rfl⟩ := hreads.unique hreads'
    cases (hdrain.unique hdrain').1
  · obtain ⟨c₁, hread, hfacing₁, hcapabilities, hstanding₁⟩ := readEof_deprecated h de hparse
    rw [← hcapabilities] at hfacing₁ ends
    rw [drainAgrees_iff_standing hreads hstarted hfacing
      (beginDrain_returns hc (hread.bind_ok rfl (by simp))) rfl
      (hfacing₁.sameWire ⟨rfl, rfl, rfl, rfl, rfl⟩) hrows pos ends]
    have hsame : ({ c₁ with started_reading_rows := true } : Conn).standing = c₁.standing := rfl
    rw [hsame, hstanding₁]
    constructor
    · exact fun he => ⟨packet, rfl, he⟩
    · rintro ⟨_, ⟨⟩, he⟩
      exact he

/-- Draining agrees with reading the rows exactly when it takes note of the
status that ends them. -/
theorem drainAgrees_iff {ending : Ending}
    (h : Facing alloc n c (c.beforeRow columnEof ++
      (rows.map textRow ++ ending.bytes c.capabilities :: ps)) rest)
    (hrows : RowsOf count rows) (pos : 0 < count) (hcount : c.column_count.toNat = count)
    (sendable : ending.Sendable c.capabilities) :
    DrainAgrees alloc c ↔ DrainMatches c columnEof rows ending := by
  cases ending with
  | failed e =>
    obtain ⟨c', hreads⟩ := readToEnd_err h hrows pos hcount
    refine iff_of_false ?_ id
    rintro ⟨rc, c'', cd, hreads', hdrain, -⟩
    obtain ⟨rfl, rfl⟩ := hreads.unique hreads'
    exact not_drained_err hdrain
  | terminator reply =>
    have ends : Terminates c.capabilities reply := sendable
    obtain ⟨c', hreads, hfacing, hstanding, hstarted⟩ :=
      readToEnd_terminator h hrows pos hcount ends
    rw [DrainMatches]
    by_cases hc : c.started_reading_rows = true
    · rw [if_pos hc, ← hstanding]
      rw [beforeRow, if_pos (.inl hc), List.nil_append] at h
      exact drainAgrees_iff_standing hreads hstarted hfacing
        (.stop (beginDrain_skip hc) (by simp)) hc h hrows pos ends
    · rw [if_neg hc]
      by_cases de : has c.capabilities Capabilities.deprecateEof = true
      · rw [if_pos de]
        rw [beforeRow, if_pos (.inr de), List.nil_append] at h
        cases rows with
        | nil => exact iff_of_false (not_drainAgrees_nil hreads hfacing hc de h ends) id
        | cons row rows =>
          rw [FirstReports, ← hstanding]
          exact drainAgrees_iff_cons hreads hstarted hfacing hc de h
            (List.forall_mem_cons.mp hrows).2 pos ends
      · rw [if_neg de]
        have hat : ¬ c.AtRows := fun h => h.elim hc de
        rw [beforeRow, if_neg hat] at h
        obtain ⟨c₁, hread, hfacing₁, hcapabilities, -, hstanding₁⟩ := readEof_eof h de
        rw [← hcapabilities] at hfacing₁ ends
        have hsame : ({ c₁ with started_reading_rows := true } : Conn).standing = c₁.standing := rfl
        rw [← hstanding₁, ← hstanding, ← hsame]
        exact drainAgrees_iff_standing hreads hstarted hfacing
          (beginDrain_returns hc (hread.bind_ok rfl (by simp))) rfl
          (hfacing₁.sameWire ⟨rfl, rfl, rfl, rfl, rfl⟩) hrows pos ends

/-- A connection in front of the rows of a result set with one column. -/
def rowsConn (capabilities : UInt32) (started : Bool) (packets : List (List UInt8)) : Conn :=
  { answeringConn capabilities packets with
    column_count := 1, started_reading_rows := started, server_status := 2 }

theorem facing_rowsConn (capabilities : UInt32) (started : Bool) {packets : List (List UInt8)}
    (nonempty : packets ≠ []) (fits : ∀ p ∈ packets, p.length ≤ 100) :
    Facing (fun _ => true) 100 (rowsConn capabilities started packets) packets [] :=
  (facing_answering capabilities nonempty (by decide) fits).sameWire ⟨rfl, rfl, rfl, rfl, rfl⟩

theorem drainAgrees_iff_started :
    let c := rowsConn Capabilities.client true
      [textRow [none], terminatorBytes Capabilities.client (plainReply 2)]
    DrainAgrees (fun _ => true) c ↔
      DrainMatches c ⟨0, 2⟩ [[none]] (.terminator (plainReply 2)) := by
  intro c
  have h : Facing (fun _ => true) 100 c (c.beforeRow ⟨0, 2⟩ ++ ([[none]].map textRow ++
      Ending.bytes c.capabilities (.terminator (plainReply 2)) :: [])) [] :=
    facing_rowsConn Capabilities.client true (by simp) (by decide +kernel)
  have hrows : RowsOf 1 [[none]] := by simp [RowsOf, Sized]
  exact drainAgrees_iff h hrows (by decide) rfl (plainReply_terminates 2 (by decide) _)

/-- An empty result set with `DEPRECATE_EOF`. -/
theorem drainAgrees_iff_fails :
    ¬ DrainAgrees (fun _ => true) (rowsConn Capabilities.client false
      [terminatorBytes Capabilities.client (plainReply 2)]) := by
  let c := rowsConn Capabilities.client false
    [terminatorBytes Capabilities.client (plainReply 2)]
  have hfacing : Facing (fun _ => true) 100 c [terminatorBytes c.capabilities (plainReply 2)] [] :=
    facing_rowsConn Capabilities.client false (by simp) (by decide +kernel)
  have h : Facing (fun _ => true) 100 c (c.beforeRow ⟨0, 2⟩ ++
      (([] : List (List Value)).map textRow ++ [terminatorBytes c.capabilities (plainReply 2)])) [] := by
    rw [beforeRow, if_pos (.inr (by decide))]
    exact hfacing
  have hrows : RowsOf 1 [] := by simp [RowsOf]
  have ends : Terminates c.capabilities (plainReply 2) := plainReply_terminates 2 (by decide) _
  obtain ⟨c', hreads, hfacing', -, -⟩ := readToEnd_terminator h hrows (by decide) rfl ends
  exact not_drainAgrees_nil hreads hfacing' (by decide) (by decide) hfacing ends

end Conn

end Trilogy
