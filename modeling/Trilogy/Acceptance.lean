import Trilogy.Arrival

namespace Trilogy

open Lib

/-- A fragment does not have the sequence id that is its turn. -/
inductive Misnumbered : UInt8 → List UInt8 → Prop
  | header {s x : UInt8} (a b c : UInt8) (rest : List UInt8) (wrong : x ≠ s) :
      Misnumbered s (a :: b :: c :: x :: rest)
  | fragment {s : UInt8} {full more : List UInt8} (whole : full.length = maxPacketLen)
      (later : Misnumbered (s + 1) more) : Misnumbered s (header maxPacketLen s ++ (full ++ more))

/-- The start of some frames. -/
def CutShort (s : UInt8) (input : List UInt8) : Prop :=
  ∃ p more, more ≠ [] ∧ frames s p = input ++ more

theorem header_ofLeBytes (a b c s : UInt8) : header (ofLeBytes [a, b, c]) s = [a, b, c, s] := by
  have hbytes := leBytes_ofLeBytes [a, b, c]
  simp only [List.length_cons, List.length_nil] at hbytes
  rw [header, hbytes]
  rfl

theorem ofLeBytes_le (a b c : UInt8) : ofLeBytes [a, b, c] ≤ maxPacketLen := by
  have hlt := ofLeBytes_lt [a, b, c]
  simp only [List.length_cons, List.length_nil] at hlt
  unfold maxPacketLen
  omega

theorem length_le_frames (s : UInt8) (p : List UInt8) : p.length ≤ (frames s p).length := by
  induction s, p using frames.induct with
  | case1 s p h =>
    rw [frames_of_lt h, List.length_append]
    omega
  | case2 s p h ih =>
    rw [frames, if_neg h]
    simp only [List.length_append, List.length_take, List.length_drop] at ih ⊢
    omega

theorem cutShort_chunk {s : UInt8} {n : Nat} {chunk : List UInt8} (hn : n ≤ maxPacketLen)
    (short : chunk.length < n) : CutShort s (header n s ++ chunk) := by
  let missing := List.replicate (n - chunk.length) (0 : UInt8)
  have hmissing : missing ≠ [] := by
    apply List.ne_nil_of_length_pos
    simp only [missing, List.length_replicate]
    omega
  have hlength : (chunk ++ missing).length = n := by
    simp only [missing, List.length_append, List.length_replicate]
    omega
  by_cases hfull : n = maxPacketLen
  · have hframes := frames_full (hlength.trans hfull) s []
    refine ⟨chunk ++ missing ++ [], missing ++ frames (s + 1) [], by simp [hmissing], ?_⟩
    rw [hframes, hfull]
    simp only [List.append_assoc]
  · have hframes := frames_of_lt (by omega : (chunk ++ missing).length < maxPacketLen) s
    refine ⟨chunk ++ missing, missing, hmissing, ?_⟩
    rw [hframes, hlength, List.append_assoc]

theorem CutShort.of_append {s : UInt8} {input : List UInt8} (more : List UInt8)
    (h : CutShort s (input ++ more)) : CutShort s input := by
  obtain ⟨p, missing, hmissing, hframes⟩ := h
  exact ⟨p, more ++ missing, by simp [hmissing], by rw [hframes, List.append_assoc]⟩

/-- Less than a header. -/
theorem cutShort_short (s : UInt8) {input : List UInt8} (short : input.length < 4) :
    CutShort s input := by
  have hheader : ∀ a b c : UInt8, CutShort s [a, b, c] := by
    intro a b c
    have hbytes := header_ofLeBytes a b c s
    by_cases hzero : ofLeBytes [a, b, c] = 0
    · refine ⟨[], [s], by simp, ?_⟩
      rw [frames_of_lt (by decide), List.append_nil, List.length_nil, ← hzero, hbytes]
      rfl
    · have hcut : CutShort s (header (ofLeBytes [a, b, c]) s ++ []) :=
        cutShort_chunk (ofLeBytes_le a b c) (Nat.pos_of_ne_zero hzero)
      rw [hbytes] at hcut
      exact CutShort.of_append [s] hcut
  match input, short with
  | [], _ => exact CutShort.of_append [0, 0, 0] (hheader 0 0 0)
  | [a], _ => exact CutShort.of_append [0, 0] (hheader a 0 0)
  | [a, b], _ => exact CutShort.of_append [0] (hheader a b 0)
  | [a, b, c], _ => exact hheader a b c

/-- There are no other kinds. -/
theorem framed_or (s : UInt8) (input : List UInt8) :
    (∃ p rest, input = frames s p ++ rest) ∨ Misnumbered s input ∨ CutShort s input := by
  generalize hlength : input.length = length
  induction length using Nat.strong_induction_on generalizing s input with
  | _ length ih =>
    by_cases hshort : input.length < 4
    · exact .inr (.inr (cutShort_short s hshort))
    · obtain ⟨a, b, c, x, rest, rfl⟩ : ∃ a b c x rest, input = a :: b :: c :: x :: rest := by
        match input, hshort with
        | [], h | [_], h | [_, _], h | [_, _, _], h => exact absurd (by simp) h
        | a :: b :: c :: x :: rest, _ => exact ⟨a, b, c, x, rest, rfl⟩
      by_cases hx : x = s
      · subst hx
        generalize hn : ofLeBytes [a, b, c] = n
        have hle : n ≤ maxPacketLen := hn ▸ ofLeBytes_le a b c
        have hbytes : a :: b :: c :: x :: rest = header n x ++ rest := by
          rw [← hn, header_ofLeBytes]
          rfl
        rw [hbytes]
        by_cases hrest : rest.length < n
        · exact .inr (.inr (cutShort_chunk hle hrest))
        · have hchunk : (rest.take n).length = n := by
            rw [List.length_take]
            omega
          have hsplit := List.take_append_drop n rest
          generalize rest.take n = chunk at hchunk hsplit
          generalize hmore : rest.drop n = more at hsplit
          subst hsplit
          by_cases hfull : n = maxPacketLen
          · have hwhole := hchunk.trans hfull
            rw [hfull]
            have hless : more.length < length := by
              rw [← hlength]
              simp only [List.length_cons, List.length_append]
              omega
            obtain ⟨p, tail, rfl⟩ | hwrong | ⟨p, missing, hmissing, hframes⟩ :=
              ih _ hless (x + 1) more rfl
            · refine .inl ⟨chunk ++ p, tail, ?_⟩
              rw [frames_full hwhole]
              simp only [List.append_assoc]
            · exact .inr (.inl (.fragment hwhole hwrong))
            · refine .inr (.inr ⟨chunk ++ p, missing, hmissing, ?_⟩)
              rw [frames_full hwhole, hframes]
              simp only [List.append_assoc]
          · refine .inl ⟨chunk, more, ?_⟩
            rw [frames_of_lt (by omega), hchunk, List.append_assoc]
      · exact .inr (.inl (.header a b c rest hx))

namespace PacketParser

variable {p : PacketParser} {acc input : List UInt8}

theorem feed_cutShort (hs : p.state = .len0) (h : CutShort p.sequence_number input) :
    ∃ st, feed parseByte (p, acc) input = (st, none, []) := by
  obtain ⟨payload, more, hmore, hframes⟩ := h
  have hfeed := feed_frames hs acc payload []
  rw [List.append_nil, hframes] at hfeed
  obtain ⟨st, hst, -⟩ := feed_none_of_append hfeed (List.length_pos_of_ne_nil hmore)
  exact ⟨st, hst⟩

theorem feed_misnumbered (hs : p.state = .len0) (h : Misnumbered p.sequence_number input) :
    ∃ st rest, feed parseByte (p, acc) input = (st, some Code.invalidSequenceId.toInt, rest) := by
  generalize hseq : p.sequence_number = s at h
  induction h generalizing p acc with
  | @header s x a b c rest wrong =>
    have e : parseByte (p, acc) a =
        .next ({ p with bytes_remaining := a.toNat, state := .len1 }, acc) := by
      simp only [parseByte, hs]
    rw [feed_next e, feed_next rfl, feed_next rfl]
    rw [feed_refuse]
    · exact ⟨_, _, rfl⟩
    · simp only [parseByte, hseq, if_pos wrong]
  | @fragment s full more whole _ ih =>
    rw [← hseq, feed_header hs acc (by decide)]
    simp only [if_neg (by decide : ¬ maxPacketLen = 0)]
    rw [feed_payload_end rfl _ _ _ whole (Nat.lt_of_sub_eq_succ rfl)]
    simp only [beq_self_eq_true, if_true]
    apply ih rfl
    simp only [hseq]

end PacketParser

namespace Conn

/-- Between two packets, and nothing is going to fail. -/
structure AtBoundary (alloc : Alloc) (n : Nat) (c : Conn) : Prop where
  ready : Ready alloc n c
  boundary : c.packetParser.state = .len0
  whole : c.packetParser.fragment = false
  room : c.packet_buffer.len + c.pending.length ≤ n

variable {alloc : Alloc} {n : Nat} {c : Conn}

theorem ends_framed {p rest : List UInt8} (boundary : c.packetParser.state = .len0)
    (whole : c.packetParser.fragment = false)
    (framed : c.pending = frames c.packetParser.sequence_number p ++ rest) :
    Ends c (some 1) (c.packetParser.after p.length, p) rest := by
  have hfeed := PacketParser.feed_frames boundary c.packet_buffer.bytes p rest
  rw [whole, if_neg Bool.false_ne_true, List.nil_append] at hfeed
  rw [Ends, framed]
  exact hfeed

theorem AtBoundary.fits (h : AtBoundary alloc n c) : Fits n c := PacketParser.fits_of_length h.room

theorem AtBoundary.framed (h : AtBoundary alloc n c) {p rest : List UInt8}
    (framed : c.pending = frames c.packetParser.sequence_number p ++ rest) :
    ∃ c', Returns .again (readPacket alloc) c (.ok ()) c' ∧ c'.packet_buffer.bytes = p ∧
      c'.pending = rest ∧ AtBoundary alloc n c' ∧
      c'.packetParser.sequence_number =
        c.packetParser.sequence_number + UInt8.ofNat (extraFragments p.length) + 1 := by
  obtain ⟨c', hreturns, hstopped⟩ := readPacket_returns h.ready
    (ends_framed h.boundary h.whole framed) h.fits (by decide)
  obtain ⟨hparser, hbytes⟩ := Prod.mk.inj hstopped.machine
  have hroom : p.length + rest.length ≤ n := by
    have hlength := congrArg List.length framed
    have hpayload := length_le_frames c.packetParser.sequence_number p
    have := h.room
    rw [List.length_append] at hlength
    omega
  refine ⟨c', hreturns, hbytes, hstopped.pending, ⟨hstopped.ready, ?_, ?_, ?_⟩, ?_⟩
  · rw [hparser]
    rfl
  · rw [hparser]
    rfl
  · rw [Buffer.len, hbytes, hstopped.pending]
    exact hroom
  · rw [hparser]
    rfl

theorem AtBoundary.misnumbered (h : AtBoundary alloc n c)
    (wrong : Misnumbered c.packetParser.sequence_number c.pending) :
    ∃ c', Returns .again (readPacket alloc) c (.error .invalidSequenceId) c' := by
  obtain ⟨st, rest, run⟩ := PacketParser.feed_misnumbered h.boundary wrong
  obtain ⟨c', hreturns, -⟩ := readPacket_returns h.ready run h.fits (by decide)
  exact ⟨c', hreturns⟩

theorem not_returns {st : PacketParser × List UInt8} {rest : List UInt8} {r : Except Code Unit}
    {c' : Conn} (ready : Ready alloc n c) (run : Ends c none st rest) (fits : Fits n c) :
    ¬ Returns .again (readPacket alloc) c r c' := by
  intro h
  induction h with
  | stop e hr =>
    obtain ⟨_, _, ⟨⟩, -⟩ | ⟨c₁, hcall, -⟩ := readPacket_step ready run fits
    rw [e] at hcall
    exact hr (congrArg Prod.fst hcall)
  | again e _ ih =>
    obtain ⟨_, _, ⟨⟩, -⟩ | ⟨c₁, hcall, -, hwaiting⟩ := readPacket_step ready run fits
    rw [e] at hcall
    cases hcall
    exact ih hwaiting.ready hwaiting.run hwaiting.fits

theorem AtBoundary.cutShort (h : AtBoundary alloc n c)
    (cut : CutShort c.packetParser.sequence_number c.pending) (r : Except Code Unit) (c' : Conn) :
    ¬ Returns .again (readPacket alloc) c r c' := by
  obtain ⟨st, run⟩ := PacketParser.feed_cutShort h.boundary cut
  exact not_returns h.ready run h.fits

/-- What calls of `readPacket` get, each called again for as long as it asks for it. -/
inductive Gets (alloc : Alloc) : Conn → List (List UInt8) → Conn → Prop
  | nil (c : Conn) : Gets alloc c [] c
  | cons {c c₁ c' packets} (first : Returns .again (readPacket alloc) c (.ok ()) c₁)
      (more : Gets alloc c₁ packets c') : Gets alloc c (c₁.packet_buffer.bytes :: packets) c'

theorem AtBoundary.gets_iff (h : AtBoundary alloc n c) (packets : List (List UInt8))
    (rest : List UInt8) : (∃ c', Gets alloc c packets c' ∧ c'.pending = rest) ↔
      c.pending = stream c.packetParser.sequence_number packets ++ rest := by
  induction packets generalizing c with
  | nil =>
    constructor
    · rintro ⟨c', hgets, rfl⟩
      cases hgets
      rfl
    · intro hpending
      exact ⟨c, .nil c, hpending⟩
  | cons p packets ih =>
    constructor
    · rintro ⟨c', hgets, hrest⟩
      cases hgets with
      | @cons _ c₁ _ _ first more =>
        obtain ⟨q, tail, hframed⟩ | hwrong | hcut :=
          framed_or c.packetParser.sequence_number c.pending
        · obtain ⟨c₂, hreturns, hbytes, htail, hboundary, hseq⟩ := h.framed hframed
          obtain ⟨-, rfl⟩ := first.unique hreturns
          have hmore := (ih hboundary).mp ⟨c', more, hrest⟩
          rw [htail, hseq] at hmore
          rw [hframed, hmore, hbytes, stream, List.append_assoc]
        · obtain ⟨c₂, hreturns⟩ := h.misnumbered hwrong
          cases (first.unique hreturns).1
        · exact absurd first (h.cutShort hcut _ _)
    · intro hpending
      rw [stream, List.append_assoc] at hpending
      obtain ⟨c₁, hreturns, rfl, htail, hboundary, hseq⟩ := h.framed hpending
      rw [← hseq] at htail
      obtain ⟨c', hgets, hrest⟩ := (ih hboundary).mpr htail
      exact ⟨c', .cons hreturns hgets, hrest⟩

end Conn

open Conn

/-- What is taken for packets is what they are framed as. From a packet boundary,
however the bytes arrive: a run gets a list of packets exactly when the bytes are the
stream of that list; a call fails exactly when a fragment has a wrong sequence id, and
with no other code; and it never stops asking for more exactly when the bytes are the
start of some frames. -/
theorem packets_iff {alloc : Alloc} {n : Nat} {c : Conn} (h : AtBoundary alloc n c) :
    (∀ packets rest, (∃ c', Gets alloc c packets c' ∧ c'.pending = rest) ↔
      c.pending = stream c.packetParser.sequence_number packets ++ rest) ∧
    (∀ rc, (∃ c', Returns .again (readPacket alloc) c (.error rc) c') ↔
      rc = .invalidSequenceId ∧ Misnumbered c.packetParser.sequence_number c.pending) ∧
    ((∀ r c', ¬ Returns .again (readPacket alloc) c r c') ↔
      CutShort c.packetParser.sequence_number c.pending) := by
  have kinds := framed_or c.packetParser.sequence_number c.pending
  refine ⟨h.gets_iff, ?_, ?_⟩
  · intro rc
    constructor
    · rintro ⟨c', hreturns⟩
      obtain ⟨p, rest, hframed⟩ | hwrong | hcut := kinds
      · obtain ⟨c₁, hok, -⟩ := h.framed hframed
        cases (hreturns.unique hok).1
      · obtain ⟨c₁, herror⟩ := h.misnumbered hwrong
        cases (hreturns.unique herror).1
        exact ⟨rfl, hwrong⟩
      · exact absurd hreturns (h.cutShort hcut _ _)
    · rintro ⟨rfl, hwrong⟩
      exact h.misnumbered hwrong
  · constructor
    · intro never
      obtain ⟨p, rest, hframed⟩ | hwrong | hcut := kinds
      · obtain ⟨c₁, hok, -⟩ := h.framed hframed
        exact absurd hok (never _ _)
      · obtain ⟨c₁, herror⟩ := h.misnumbered hwrong
        exact absurd herror (never _ _)
      · exact hcut
    · exact h.cutShort

/-- One packet, and the start of another. -/
theorem packets_iff_cut :
    let c := Conn.init (readingSock [.data [1, 0], .failed .eagain, .data [0, 0, 7, 2, 0, 0]])
    (∃ c', Gets (fun _ => true) c [[7]] c' ∧ c'.pending = [2, 0, 0]) ∧
      ¬ ∃ c', Gets (fun _ => true) c [[7], [7, 7]] c' ∧ c'.pending = [] := by
  intro c
  have h : AtBoundary (fun _ => true) 100 c := by
    refine ⟨⟨?_, Nat.le_refl 0, ⟨by simp [c, Conn.init, PacketParser.init], rfl⟩,
      Buffer.grows_of_alloc (fun _ => rfl) _ (by decide)⟩, rfl, rfl, by decide +kernel⟩
    simp [c, Conn.init, readingSock, idleSock, Sock.Calm, RawRead.Calm, Sock.rawReadError]
  obtain ⟨hgets, -⟩ := packets_iff h
  exact ⟨(hgets _ _).mpr (by decide +kernel), fun hall => absurd ((hgets _ _).mp hall)
    (by decide +kernel)⟩

end Trilogy
