import Trilogy.Deframing

namespace Trilogy

open Lib

/-- A call of one of the builder's write functions. -/
inductive Write
  | uint8 (v : UInt8)
  | uint16 (v : UInt16)
  | uint24 (v : UInt32)
  | uint32 (v : UInt32)
  | uint64 (v : UInt64)
  | lenenc (v : UInt64)
  | buffer (data : List UInt8)
  | lenencBuffer (data : List UInt8)
  | string (data : List UInt8)

namespace Write

def run (alloc : Alloc) : Write → Proc Code Builder Unit
  | uint8 v => Builder.writeUint8 alloc v
  | uint16 v => Builder.writeUint16 alloc v
  | uint24 v => Builder.writeUint24 alloc v
  | uint32 v => Builder.writeUint32 alloc v
  | uint64 v => Builder.writeUint64 alloc v
  | lenenc v => Builder.writeLenenc alloc v
  | buffer data => Builder.writeBuffer alloc data
  | lenencBuffer data => Builder.writeLenencBuffer alloc data
  | string data => Builder.writeString alloc data

/-- The payload bytes a call stands for. -/
def bytes : Write → List UInt8
  | uint8 v => [v]
  | uint16 v => leBytes 2 v.toNat
  | uint24 v => leBytes 3 v.toNat
  | uint32 v => leBytes 4 v.toNat
  | uint64 v => leBytes 8 v.toNat
  | lenenc v => Trilogy.lenenc v.toNat
  | buffer data => data
  | lenencBuffer data => Trilogy.lenenc (data.length % 2 ^ 64) ++ data
  | string data => data.takeWhile (· ≠ 0) ++ [0]

theorem appends_run (alloc : Alloc) (w : Write) : Builder.Appends (w.run alloc) w.bytes := by
  cases w with
  | uint8 v => exact Builder.appends_writeUint8 alloc v
  | uint16 v => exact Builder.appends_writeUint16 alloc v
  | uint24 v => exact Builder.appends_writeUint24 alloc v
  | uint32 v => exact Builder.appends_writeUint32 alloc v
  | uint64 v => exact Builder.appends_writeUint64 alloc v
  | lenenc v => exact Builder.appends_writeLenenc alloc v
  | buffer data => exact Builder.appends_writeBuffer alloc data
  | lenencBuffer data => exact Builder.appends_writeLenencBuffer alloc data
  | string data => exact Builder.appends_writeString alloc data

def runAll (alloc : Alloc) : List Write → Proc Code Builder Unit
  | [] => pure ()
  | w :: ws => do
    w.run alloc
    runAll alloc ws

def payload (ws : List Write) : List UInt8 := ws.flatMap bytes

theorem appends_runAll (alloc : Alloc) (ws : List Write) :
    Builder.Appends (runAll alloc ws) (payload ws) := by
  induction ws with
  | nil => exact .pure
  | cons w ws ih => exact .bind (appends_run alloc w) ih

end Write

namespace PacketParser

/-- Callbacks that also count the packets that ended. -/
def tally {σ : Type} (cb : Callbacks σ) : Callbacks (σ × Nat) where
  on_packet_begin u := ((cb.on_packet_begin u.1).1, (cb.on_packet_begin u.1).2, u.2)
  on_packet_data u data := ((cb.on_packet_data u.1 data).1, (cb.on_packet_data u.1 data).2, u.2)
  on_packet_end u := ((cb.on_packet_end u.1).1, (cb.on_packet_end u.1).2, u.2 + 1)

/-- A call that ends with 1 has ended a packet, and no other call has. -/
def counted {σ : Type} (k : Nat) (r : Executed σ) : Executed (σ × Nat) :=
  ⟨r.parser, (r.user, if r.error = 1 then k + 1 else k), r.consumed, r.error⟩

theorem endOfPayload_tally (alloc : Alloc) (p : PacketParser) (b : Buffer) (k c : Nat) :
    endOfPayload (tally (packetParserCallbacks alloc)) p (b, k) c =
      counted k (endOfPayload (packetParserCallbacks alloc) p b c) := by
  unfold endOfPayload
  cases p.fragment <;> rfl

theorem onPacketData_ne_one (alloc : Alloc) (b : Buffer) (data : List UInt8) :
    (onPacketData alloc b data).1 ≠ 1 := by
  unfold onPacketData
  split
  · exact Code.toInt_ne_one _
  · exact zero_ne_one

theorem turn_tally (alloc : Alloc) (p : PacketParser) (b : Buffer) (k : Nat) (x : UInt8)
    (rest : List UInt8) :
    turn (tally (packetParserCallbacks alloc)) p (b, k) x rest =
      counted k (turn (packetParserCallbacks alloc) p b x rest) := by
  cases hs : p.state with
  | len0 => simp only [turn, hs]; rfl
  | len1 => simp only [turn, hs]; rfl
  | len2 =>
    simp only [turn, hs]
    cases p.fragment <;> rfl
  | seq =>
    simp only [turn, hs]
    split
    · rfl
    · split
      · exact endOfPayload_tally ..
      · rfl
  | payload =>
    simp only [turn, hs]
    generalize (x :: rest).take p.bytes_remaining = chunk
    have hne := onPacketData_ne_one alloc b chunk
    have h1 : (tally (packetParserCallbacks alloc)).on_packet_data (b, k) chunk =
        ((onPacketData alloc b chunk).1, (onPacketData alloc b chunk).2, k) := rfl
    have h2 : (packetParserCallbacks alloc).on_packet_data b chunk = onPacketData alloc b chunk := rfl
    simp only [h1, h2]
    split
    · simp [counted, hne]
    · split
      · exact endOfPayload_tally ..
      · rfl

theorem loop_tally (alloc : Alloc) (turns : Nat) (p : PacketParser) (b : Buffer) (k : Nat)
    (input : List UInt8) :
    loop (tally (packetParserCallbacks alloc)) turns p (b, k) input =
      counted k (loop (packetParserCallbacks alloc) turns p b input) := by
  induction turns generalizing p b input with
  | zero => rfl
  | succ turns ih =>
    cases input with
    | nil => rfl
    | cons x rest =>
      simp only [loop, turn_tally]
      generalize turn (packetParserCallbacks alloc) p b x rest = t
      by_cases ht : t.error = 0
      · have hk : (counted k t).user = (t.user, k) := by simp [counted, ht]
        have he : ¬ (counted k t).error ≠ 0 := not_not.mpr ht
        rw [if_neg he, if_neg (not_not.mpr ht), hk, show (counted k t).parser = t.parser from rfl,
          show (counted k t).consumed = t.consumed from rfl, ih]
        rfl
      · rw [if_pos ht, if_pos (show (counted k t).error ≠ 0 from ht)]

theorem execute_tally (alloc : Alloc) (p : PacketParser) (b : Buffer) (k : Nat)
    (input : List UInt8) (hd : p.deferred_end_callback = false) :
    execute (tally (packetParserCallbacks alloc)) p (b, k) input =
      counted k (execute (packetParserCallbacks alloc) p b input) := by
  simp only [execute, hd]
  exact loop_tally ..

/-- Consecutive calls, each with the next of the chunks. -/
def executeAll {σ : Type} (cb : Callbacks σ) : PacketParser → σ → List (List UInt8) →
    List (Executed σ)
  | _, _, [] => []
  | p, user, chunk :: chunks =>
    let r := execute cb p user chunk
    r :: executeAll cb r.parser r.user chunks

/-- The calls that take a stream of `total` bytes, of which `fed` are already
in: each consumes its chunk, and only the one with the last byte ends the packet. -/
def Reads {σ : Type} (total : Nat) : Nat → List (List UInt8) → List (Executed (σ × Nat)) → Prop
  | _, [], [] => True
  | fed, chunk :: chunks, call :: calls =>
    call.consumed = chunk.length ∧
      call.error = (if fed < total ∧ fed + chunk.length = total then 1 else 0) ∧
      call.user.2 = (if fed + chunk.length = total then 1 else 0) ∧
      Reads total (fed + chunk.length) chunks calls
  | _, _, _ => False

/-- Calls without bytes, after the packet. -/
theorem reads_done (alloc : Alloc) {p : PacketParser} (b : Buffer) (total : Nat)
    {chunks : List (List UInt8)} (hd : p.deferred_end_callback = false)
    (h : chunks.flatten = []) :
    Reads total total chunks
        (executeAll (tally (packetParserCallbacks alloc)) p (b, 1) chunks) ∧
      ∀ call ∈ executeAll (tally (packetParserCallbacks alloc)) p (b, 1) chunks,
        call.parser = p ∧ call.user.1 = b := by
  induction chunks with
  | nil => exact ⟨trivial, by simp [executeAll]⟩
  | cons chunk chunks ih =>
    obtain ⟨rfl, hrest⟩ := List.append_eq_nil_iff.mp (List.flatten_cons ▸ h)
    obtain ⟨hr, hc⟩ := ih hrest
    have he : execute (tally (packetParserCallbacks alloc)) p (b, 1) [] = ⟨p, (b, 1), 0, 0⟩ := by
      simp [execute, hd, loop]
    simp only [executeAll, he]
    exact ⟨⟨rfl, by simp, by simp, hr⟩, by simpa using hc⟩

theorem reads_packet {alloc : Alloc} {n total : Nat} (fed : Nat) {p q : PacketParser} {b : Buffer}
    {acc : List UInt8} {chunks : List (List UInt8)} (steady : Steady p)
    (grow : Buffer.Grows alloc b.cap n) (hn : acc.length ≤ n)
    (run : feed parseByte (p, b.bytes) chunks.flatten = ((q, acc), some 1, []))
    (htotal : fed + chunks.flatten.length = total) (hfed : fed < total) :
    Reads total fed chunks (executeAll (tally (packetParserCallbacks alloc)) p (b, 0) chunks) ∧
      ∃ call, (executeAll (tally (packetParserCallbacks alloc)) p (b, 0) chunks).getLast? =
        some call ∧ call.parser = q ∧ call.user.1.bytes = acc := by
  induction chunks generalizing p b fed with
  | nil => rw [List.flatten_nil] at run; cases run
  | cons chunk chunks ih =>
    simp only [List.flatten_cons, List.length_append] at run htotal
    obtain ⟨fits, -⟩ := fits_of_stop run hn
    have hp := execute_parsed steady grow fits.left
    simp only [executeAll, execute_tally _ _ _ _ _ steady.deferred]
    generalize hr : execute (packetParserCallbacks alloc) p b chunk = r at hp
    by_cases hlast : chunks.flatten = []
    · rw [hlast, List.append_nil] at run
      rw [hlast, List.length_nil] at htotal
      obtain ⟨herr, hfin, hrest⟩ := hp.of_stop run
      obtain ⟨hq, hacc⟩ := Prod.mk.inj hfin
      have hcount : counted 0 r = ⟨r.parser, (r.user, 1), r.consumed, r.error⟩ := by
        simp [counted, herr]
      rw [hcount]
      have hend : fed + chunk.length = total := by omega
      have hdone := reads_done alloc r.user total hp.steady.deferred hlast
      refine ⟨⟨hp.all hrest, by simp [herr, hfed, hend], by simp [hend], hend ▸ hdone.1⟩, ?_⟩
      rcases hl : (executeAll (tally (packetParserCallbacks alloc)) r.parser (r.user, 1)
          chunks).getLast? with _ | call
      · exact ⟨⟨r.parser, (r.user, 1), r.consumed, r.error⟩, by simp [List.getLast?_cons, hl],
          hq, hacc⟩
      · have := hdone.2 call (List.mem_of_getLast? hl)
        exact ⟨call, by simp [List.getLast?_cons, hl], by rw [this.1, hq], by rw [this.2, hacc]⟩
    · obtain ⟨t, hnone, hsome⟩ := feed_none_of_append run (List.length_pos_of_ne_nil hlast)
      obtain ⟨herr, rfl, hrest⟩ := hp.of_none hnone
      have hcount : counted 0 r = ⟨r.parser, (r.user, 0), r.consumed, r.error⟩ := by
        simp [counted, herr]
      have hmore : fed + chunk.length ≠ total := by
        have := List.length_pos_of_ne_nil hlast
        omega
      obtain ⟨hreads, call, hcall, hq, hacc⟩ := ih (fed + chunk.length) hp.steady
        (grow.mono hp.cap (Nat.le_refl _)) hsome (by omega) (by omega)
      rw [hcount]
      exact ⟨⟨hp.all hrest, by simp [herr, hmore], by simp [hmore], hreads⟩, call,
        by simp [List.getLast?_cons, hcall], hq, hacc⟩

end PacketParser

open PacketParser in
/-- Whatever is written between `init` and `finalize` comes back: the calls
consume every byte, end one packet, with its last byte, and leave the payload in
the packet buffer and the parser where the builder is. -/
theorem framing_roundtrip {alloc : Alloc} {buff packet : Buffer} {s : UInt8} {ws : List Write}
    {b b' : Builder} (hinit : Builder.init alloc buff s = (.ok (), b))
    (hwrites : Write.runAll alloc ws b = (.ok (), b'))
    (grow : Buffer.Grows alloc packet.cap (Write.payload ws).length)
    {chunks : List (List UInt8)} (hcut : chunks.flatten = b'.finalize.buffer.bytes) :
    let calls := executeAll (tally (packetParserCallbacks alloc))
      { init with sequence_number := s } (packet, 0) chunks
    Reads b'.finalize.buffer.len 0 chunks calls ∧
      ∃ call, calls.getLast? = some call ∧ call.user.1.bytes = Write.payload ws ∧
        call.parser.state = .len0 ∧ call.parser.fragment = false ∧
        call.parser.sequence_number = b'.finalize.seq := by
  have hb := (Write.appends_runAll alloc ws) (Builder.init_building hinit) hwrites
  rw [List.nil_append] at hb
  obtain ⟨hbytes, hseq⟩ := hb.finalize
  have hrun := feed_frames (p := { init with sequence_number := s }) rfl packet.bytes
    (Write.payload ws) []
  rw [List.append_nil, ← hbytes, ← hcut] at hrun
  have hlen : 0 + chunks.flatten.length = b'.finalize.buffer.len := by
    rw [Nat.zero_add, hcut]
    rfl
  have hpos : 0 < b'.finalize.buffer.len := by
    rw [Buffer.len, hbytes, frames]
    split <;> simp [header_length]
  obtain ⟨hreads, call, hcall, hq, hacc⟩ := reads_packet 0
    (p := { init with sequence_number := s }) ⟨by simp [init], rfl⟩ grow (Nat.le_refl _) hrun hlen
    hpos
  exact ⟨hreads, call, hcall, hacc, by rw [hq]; rfl, by rw [hq]; rfl, by rw [hq, hseq]; rfl⟩

open PacketParser in
theorem framing_roundtrip_string :
    let packet : Buffer := ⟨[], [], 16, by decide⟩
    let chunks : List (List UInt8) := [[4], [0, 0, 255, 7], [1, 2, 0]]
    let calls := executeAll (tally (packetParserCallbacks fun _ => true))
      { init with sequence_number := 255 } (packet, 0) chunks
    Reads 8 0 chunks calls ∧
      ∃ call, calls.getLast? = some call ∧ call.user.1.bytes = [7, 1, 2, 0] ∧
        call.parser.state = .len0 ∧ call.parser.fragment = false ∧
        call.parser.sequence_number = 0 := by
  obtain ⟨b, hinit, b', hwrites, hbytes, hseq⟩ : ∃ b,
      Builder.init (fun _ => true) ⟨[], [], 16, by decide⟩ 255 = (.ok (), b) ∧
      ∃ b', Write.runAll (fun _ => true) [.uint8 7, .string [1, 2, 0, 9]] b = (.ok (), b') ∧
        b'.finalize.buffer.bytes = [4, 0, 0, 255, 7, 1, 2, 0] ∧ b'.finalize.seq = 0 :=
    by with_unfolding_all exact ⟨_, rfl, _, rfl, rfl, rfl⟩
  have grow : Buffer.Grows (fun _ => true) 16 4 := Buffer.grows_of_alloc (fun _ => rfl) 16 (by decide)
  have h := @framing_roundtrip _ _ ⟨[], [], 16, by decide⟩ _ _ _ _ hinit hwrites grow
    [[4], [0, 0, 255, 7], [1, 2, 0]] hbytes.symm
  rwa [Buffer.len, hbytes, hseq] at h

end Trilogy
