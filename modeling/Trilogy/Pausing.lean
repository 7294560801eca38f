import Mathlib.Data.List.Infix
import Trilogy.Receive

/-! A callback that returns something other than 0 stops the call of the packet
parser, and the caller comes back with the bytes that are left. Whatever the
callbacks return, and however the bytes are cut, they are told of each packet
once, as long as none pauses on the last byte of a fragment: the parser has not
left the payload then, and tells of its end right away. -/
namespace Trilogy

open Lib

/-- An invocation of a callback. -/
inductive Event
  | packetBegin
  | packetData (bytes : List UInt8)
  | packetEnd
  deriving DecidableEq

/-- Callbacks that note their invocations; `behave` is what the last one of a
history returns. -/
def recording (behave : List Event → Int) : Callbacks (List Event) where
  on_packet_begin trace := (behave (trace ++ [.packetBegin]), trace ++ [.packetBegin])
  on_packet_data trace data := (behave (trace ++ [.packetData data]), trace ++ [.packetData data])
  on_packet_end trace := (behave (trace ++ [.packetEnd]), trace ++ [.packetEnd])

/-- The packets that a history tells of: the ones that ended, and what there is
of the one that did not. -/
abbrev Told := List (List UInt8) × Option (List UInt8)

def note : Told → Event → Option Told
  | (packets, none), .packetBegin => some (packets, some [])
  | (packets, some acc), .packetData data => some (packets, some (acc ++ data))
  | (packets, some acc), .packetEnd => some (packets ++ [acc], none)
  | _, _ => none

def told (trace : List Event) : Option Told :=
  trace.foldl (fun t e => t.bind (note · e)) (some ([], none))

@[simp] theorem told_concat (trace : List Event) (e : Event) :
    told (trace ++ [e]) = (told trace).bind (note · e) := by
  simp [told]

/-- For each packet in order: its begin, data that makes up the payload, its end. -/
def Reports (packets : List (List UInt8)) (trace : List Event) : Prop :=
  told trace = some (packets, none)

instance (packets : List (List UInt8)) (trace : List Event) : Decidable (Reports packets trace) :=
  inferInstanceAs (Decidable (_ = _))

/-- The caller: a piece of the input at a time, and again with what is left of
it each time a callback has paused. -/
inductive Fed {σ : Type} (cb : Callbacks σ) :
    PacketParser → σ → List (List UInt8) → PacketParser → σ → Prop
  | nil (p : PacketParser) (user : σ) : Fed cb p user [] p user
  | done {p user piece pieces p' user'}
      (h : (PacketParser.execute cb p user piece).error = 0)
      (rest : Fed cb (PacketParser.execute cb p user piece).parser
        (PacketParser.execute cb p user piece).user pieces p' user') :
      Fed cb p user (piece :: pieces) p' user'
  | paused {p user piece pieces p' user'}
      (h : (PacketParser.execute cb p user piece).error ≠ 0)
      (rest : Fed cb (PacketParser.execute cb p user piece).parser
        (PacketParser.execute cb p user piece).user
        (piece.drop (PacketParser.execute cb p user piece).consumed :: pieces) p' user') :
      Fed cb p user (piece :: pieces) p' user'

theorem Fed.unique {σ : Type} {cb : Callbacks σ} {p p' p'' : PacketParser} {user user' user'' : σ}
    {pieces : List (List UInt8)} (h : Fed cb p user pieces p' user')
    (h' : Fed cb p user pieces p'' user'') : p' = p'' ∧ user' = user'' := by
  induction h with
  | nil p user =>
    cases h'
    exact ⟨rfl, rfl⟩
  | done he _ ih =>
    cases h' with
    | done _ rest => exact ih rest
    | paused hne _ => exact absurd he hne
  | paused hne _ ih =>
    cases h' with
    | done he _ => exact absurd he hne
    | paused _ rest => exact ih rest

/-- The last invocation of the history has handed out the end of a fragment,
and the stream goes on behind it. -/
def AtFragmentEnd (packets : List (List UInt8)) (trace : List Event) : Prop :=
  ∃ done p rest acc, packets = done ++ p :: rest ∧ told trace = some (done, some acc) ∧
    acc <+: p ∧ acc ≠ [] ∧ (maxPacketLen ∣ acc.length ∨ acc = p ∧ rest ≠ [])

/-- No data callback pauses there. -/
def Patient (behave : List Event → Int) (packets : List (List UInt8)) : Prop :=
  ∀ trace data, AtFragmentEnd packets (trace ++ [.packetData data]) →
    behave (trace ++ [.packetData data]) = 0

namespace PacketParser

/-- A run over a whole stream: one packet after the other, up to its end. -/
inductive Delivers : PacketParser × List UInt8 → List UInt8 → List (List UInt8) → Prop
  | nil {p acc} (boundary : p.state = .len0) (whole : p.fragment = false) : Delivers (p, acc) [] []
  | cons {st q packet input rest packets}
      (run : feed parseByte st input = ((q, packet), some 1, rest))
      (more : Delivers (q, packet) rest packets) : Delivers st input (packet :: packets)

theorem delivers_stream {p : PacketParser} (hs : p.state = .len0) (hf : p.fragment = false)
    (acc : List UInt8) (packets : List (List UInt8)) :
    Delivers (p, acc) (stream p.sequence_number packets) packets := by
  induction packets generalizing p acc with
  | nil => exact .nil hs hf
  | cons packet packets ih =>
    have h := feed_frames hs acc packet
      (stream (p.after packet.length).sequence_number packets)
    rw [hf, if_neg Bool.false_ne_true, List.nil_append] at h
    exact .cons h (ih rfl rfl packet)

/-- The bytes that lead from one state of a packet to the next are read alike. -/
theorem Delivers.next {st st' : PacketParser × List UInt8} {input rest : List UInt8}
    {packets : List (List UInt8)} (h : Delivers st input packets) (hne : input ≠ [])
    (e : feed parseByte st input = feed parseByte st' rest) : Delivers st' rest packets := by
  cases h with
  | nil => exact absurd rfl hne
  | cons run more => exact .cons (e ▸ run) more

theorem Delivers.stop {st st' : PacketParser × List UInt8} {input rest : List UInt8}
    {packets : List (List UInt8)} (h : Delivers st input packets) (hne : input ≠ [])
    (e : feed parseByte st input = (st', some 1, rest)) :
    ∃ more, packets = st'.2 :: more ∧ Delivers st' rest more := by
  cases h with
  | nil => exact absurd rfl hne
  | cons run more =>
    rw [e] at run
    cases run
    exact ⟨_, rfl, more⟩

/-- Inside a packet what was read stays in front. -/
theorem parseByte_initial {st st' : PacketParser × List UInt8} {b : UInt8} (hg : Growing st.1)
    (h : parseByte st b = .next st' ∨ ∃ o, parseByte st b = .stop st' o) : st.2 <+: st'.2 := by
  obtain ⟨p, acc⟩ := st
  cases hs : p.state with
  | len0 | len1 =>
    simp only [parseByte, hs] at h
    rcases h with h | ⟨o, h⟩ <;> cases h
    exact List.prefix_rfl
  | len2 =>
    have : p.fragment = true := by simpa [Growing, hs] using hg
    simp only [parseByte, hs, this, if_true] at h
    rcases h with h | ⟨o, h⟩ <;> cases h
    exact List.prefix_rfl
  | seq =>
    simp only [parseByte, hs] at h
    split at h
    · rcases h with h | ⟨o, h⟩ <;> cases h
    · split at h
      · rcases h with h | ⟨o, h⟩
        · rw [(endByte_next h).2]
        · rw [endByte_stop h]
      · rcases h with h | ⟨o, h⟩ <;> cases h
        exact List.prefix_rfl
  | payload =>
    simp only [parseByte, hs] at h
    split at h
    · rcases h with h | ⟨o, h⟩
      · rw [(endByte_next h).2]
        exact List.prefix_append _ _
      · rw [endByte_stop h]
        exact List.prefix_append _ _
    · rcases h with h | ⟨o, h⟩ <;> cases h
      exact List.prefix_append _ _

theorem feed_initial {st st' : PacketParser × List UInt8} {input rest : List UInt8} {o : Int}
    (hg : Growing st.1) (h : feed parseByte st input = (st', some o, rest)) : st.2 <+: st'.2 := by
  induction input generalizing st with
  | nil => cases h
  | cons b bs ih =>
    cases e : parseByte st b with
    | next t =>
      rw [feed_next e] at h
      exact (parseByte_initial hg (.inl e)).trans (ih (parseByte_grows hg e).1 h)
    | stop t o' =>
      rw [feed_stop e] at h
      cases h
      exact parseByte_initial hg (.inr ⟨_, e⟩)
    | refuse o' =>
      rw [feed_refuse e] at h
      cases h
      exact List.prefix_rfl

/-- Between fragments, and at the end of a full one, the length is a multiple. -/
structure Aligned (p : PacketParser) (acc : List UInt8) : Prop where
  header : p.state ≠ .payload → Growing p → maxPacketLen ∣ acc.length
  full : p.state = .seq → p.fragment = true → p.bytes_remaining = maxPacketLen
  payload : p.state = .payload → p.fragment = true →
    maxPacketLen ∣ acc.length + p.bytes_remaining

instance (p : PacketParser) : Decidable (Growing p) :=
  inferInstanceAs (Decidable (_ ∨ _ ∨ _))

/-- Between two turns of the loop: the callbacks know of what has been read, and
the rest of the packets is still to come. -/
structure Current (packets : List (List UInt8)) (p : PacketParser) (trace : List Event)
    (input : List UInt8) : Prop where
  steady : Steady p
  known : ∃ acc done more, Aligned p acc ∧
    told trace = some (done, if Growing p then some acc else none) ∧
    Delivers (p, acc) input more ∧ packets = done ++ more

/-- At the very end a callback is owed. -/
structure Owed (packets : List (List UInt8)) (p : PacketParser) (trace : List Event)
    (input : List UInt8) : Prop where
  deferred : p.deferred_end_callback = true
  ended : input = []
  known : ∃ done acc, told trace = some (done, some acc) ∧ packets = done ++ [acc]

/-- A turn, or a call that stops, whatever its callback returned. -/
structure Moved (packets : List (List UInt8)) (input later : List UInt8)
    (t : Executed (List Event)) : Prop where
  moves : 0 < t.consumed
  bound : t.consumed ≤ input.length
  after : Current packets t.parser t.user (input.drop t.consumed ++ later) ∨
    t.error ≠ 0 ∧ Owed packets t.parser t.user (input.drop t.consumed ++ later)

theorem endOfPayload_recording (behave : List Event → Int) (p : PacketParser)
    (trace : List Event) (k : Nat) :
    endOfPayload (recording behave) p trace k =
      if p.fragment then ⟨{ p with state := .len0 }, trace, k, 0⟩
      else ⟨{ p with state := .len0 }, trace ++ [.packetEnd], k, behave (trace ++ [.packetEnd])⟩ :=
  rfl

section

variable {packets : List (List UInt8)} {p : PacketParser} {trace : List Event}
  {behave : List Event → Int}

theorem moved_header {q : PacketParser} {b : UInt8} {rest later : List UInt8}
    (h : Current packets p trace (b :: rest ++ later)) (hp : p.state = .len0 ∨ p.state = .len1)
    (hq : q.state = .len1 ∨ q.state = .len2) (hf : q.fragment = p.fragment)
    (hd : q.deferred_end_callback = p.deferred_end_callback)
    (e : ∀ acc, parseByte (p, acc) b = .next (q, acc)) :
    Moved packets (b :: rest) later ⟨q, trace, 1, 0⟩ := by
  obtain ⟨acc, done, more, haligned, htold, hdelivers, hsplit⟩ := h.known
  have hgrow : Growing q ↔ Growing p := by
    unfold Growing
    rw [hf]
    rcases hp with hp | hp <;> rcases hq with hq | hq <;> rw [hp, hq] <;> simp
  have hpay : q.state ≠ .payload := by rcases hq with hq | hq <;> simp [hq]
  have hseq : q.state ≠ .seq := by rcases hq with hq | hq <;> simp [hq]
  have hppay : p.state ≠ .payload := by rcases hp with hp | hp <;> simp [hp]
  refine ⟨Nat.one_pos, by simp, .inl ⟨⟨fun h => absurd h hpay, hd.trans h.steady.deferred⟩,
    acc, done, more, ⟨fun _ hg => haligned.header hppay (hgrow.mp hg), fun h => absurd h hseq,
      fun h => absurd h hpay⟩, by simp only [hgrow, htold], ?_, hsplit⟩⟩
  exact hdelivers.next (by simp) (feed_next (e acc) _)

/-- The third byte of a header: a packet begins, or goes on. -/
theorem moved_begin {b : UInt8} {rest later : List UInt8}
    (h : Current packets p trace (b :: rest ++ later)) (hs : p.state = .len2) :
    Moved packets (b :: rest) later (turn (recording behave) p trace b rest) := by
  obtain ⟨acc, done, more, haligned, htold, hdelivers, hsplit⟩ := h.known
  have hd := h.steady.deferred
  have hgrow : Growing p ↔ p.fragment = true := by simp [Growing, hs]
  simp only [turn, hs]
  cases hf : p.fragment with
  | true =>
    have e : parseByte (p, acc) b = .next ({ p with
        bytes_remaining := p.bytes_remaining ||| b.toNat <<< 16
        fragment := (p.bytes_remaining ||| b.toNat <<< 16) == maxPacketLen
        state := .seq }, acc) := by simp [parseByte, hs, hf]
    refine ⟨Nat.one_pos, by simp, .inl ⟨⟨by simp, hd⟩, acc, done, more,
      ⟨fun _ _ => haligned.header (by simp [hs]) (hgrow.mpr hf), fun _ hfull => eq_of_beq hfull,
        by simp⟩, ?_, hdelivers.next (by simp) (feed_next e _), hsplit⟩⟩
    rw [if_pos (hgrow.mpr hf)] at htold
    simpa [Growing] using htold
  | false =>
    have e : parseByte (p, acc) b = .next ({ p with
        bytes_remaining := p.bytes_remaining ||| b.toNat <<< 16
        fragment := (p.bytes_remaining ||| b.toNat <<< 16) == maxPacketLen
        state := .seq }, []) := by simp [parseByte, hs, hf]
    refine ⟨Nat.one_pos, by simp, .inl ⟨⟨by simp, hd⟩, [], done, more,
      ⟨fun _ _ => Nat.dvd_zero _, fun _ hfull => eq_of_beq hfull, by simp⟩, ?_,
      hdelivers.next (by simp) (feed_next e _), hsplit⟩⟩
    rw [if_neg (by simp [hgrow, hf])] at htold
    simp [recording, htold, note, Growing]

theorem moved_seq {b : UInt8} {rest later : List UInt8}
    (h : Current packets p trace (b :: rest ++ later)) (hs : p.state = .seq) :
    Moved packets (b :: rest) later (turn (recording behave) p trace b rest) := by
  obtain ⟨acc, done, more, haligned, htold, hdelivers, hsplit⟩ := h.known
  have hd := h.steady.deferred
  have hgrow : Growing p := .inr (.inl hs)
  rw [if_pos hgrow] at htold
  have hacc := haligned.header (by simp [hs]) hgrow
  have hb : b = p.sequence_number := by
    by_contra hne
    have e : parseByte (p, acc) b = .refuse Code.invalidSequenceId.toInt := by
      simp [parseByte, hs, hne]
    cases hdelivers with
    | cons run _ =>
      rw [List.cons_append, feed_refuse e] at run
      cases run
  simp only [turn, hs, endOfPayload_recording]
  rw [if_neg (not_not.mpr hb)]
  by_cases hr : p.bytes_remaining = 0
  · rw [if_pos hr]
    have hf : p.fragment = false := by
      by_contra hf
      have := haligned.full hs (by simpa using hf)
      rw [hr] at this
      exact absurd this (by decide)
    have e : parseByte (p, acc) b = .stop ({ p with
        sequence_number := p.sequence_number + 1, state := .len0 }, acc) 1 := by
      simp [parseByte, hs, hb, hr, endByte, hf]
    obtain ⟨more', rfl, hmore⟩ := hdelivers.stop (by simp) (feed_stop e _)
    rw [hf] at hmore
    simp only [hf, Bool.false_eq_true, if_false]
    refine ⟨Nat.one_pos, by simp, .inl ⟨⟨by simp, hd⟩, acc, done ++ [acc], more',
      ⟨by simp [Growing], by simp, by simp⟩, ?_, hmore, by rw [hsplit]; simp⟩⟩
    simp [htold, note, Growing]
  · rw [if_neg hr]
    have e : parseByte (p, acc) b = .next ({ p with
        sequence_number := p.sequence_number + 1, state := .payload }, acc) := by
      simp [parseByte, hs, hb, hr]
    refine ⟨Nat.one_pos, by simp, .inl ⟨⟨fun _ => Nat.pos_of_ne_zero hr, hd⟩, acc, done, more,
      ⟨by simp, by simp, fun _ hf => ?_⟩, ?_, hdelivers.next (by simp) (feed_next e _), hsplit⟩⟩
    · rw [haligned.full hs hf]
      exact (Nat.dvd_add_right hacc).mpr (Nat.dvd_refl _)
    · simpa [Growing] using htold

/-- The end of a fragment, on which the callback must not pause unless the
stream ends there too. -/
theorem fragment_end {acc chunk input : List UInt8} {done more : List (List UInt8)}
    (hs : p.state = .payload) (haligned : Aligned p acc)
    (htold : told trace = some (done, some acc)) (hdelivers : Delivers (p, acc) (chunk ++ input) more)
    (hsplit : packets = done ++ more) (hlen : chunk.length = p.bytes_remaining)
    (pos : 0 < p.bytes_remaining) :
    AtFragmentEnd packets (trace ++ [.packetData chunk]) ∨
      p.fragment = false ∧ input = [] ∧ packets = done ++ [acc ++ chunk] := by
  have hchunk : chunk ≠ [] := List.ne_nil_of_length_pos (hlen ▸ pos)
  have hnote : told (trace ++ [.packetData chunk]) = some (done, some (acc ++ chunk)) := by
    simp [htold, note]
  have hend := feed_payload_end hs acc chunk input hlen pos
  cases hf : p.fragment with
  | true =>
    rw [hf, if_pos rfl] at hend
    have hmore := hdelivers.next (by simp [hchunk]) hend
    cases hmore with
    | nil boundary whole => exact absurd whole (by simp)
    | @cons _ q packet _ rest packets' run more =>
      refine .inl ⟨done, packet, packets', acc ++ chunk, hsplit, hnote,
        feed_initial (.inl rfl) run, by simp [hchunk], .inl ?_⟩
      rw [List.length_append, hlen]
      exact haligned.payload hs hf
  | false =>
    rw [hf, if_neg Bool.false_ne_true] at hend
    obtain ⟨more', rfl, hmore⟩ := hdelivers.stop (by simp [hchunk]) hend
    cases hmore with
    | nil boundary whole => exact .inr ⟨rfl, rfl, hsplit⟩
    | cons run more =>
      exact .inl ⟨done, acc ++ chunk, _, acc ++ chunk, hsplit, hnote, List.prefix_rfl,
        by simp [hchunk], .inr ⟨rfl, by simp⟩⟩

/-- In a payload the callbacks know what was read of it, and learn of the next piece. -/
theorem Current.reading {chunk input : List UInt8} (h : Current packets p trace (chunk ++ input))
    (hs : p.state = .payload) :
    ∃ acc done more, Aligned p acc ∧ told trace = some (done, some acc) ∧
      told (trace ++ [.packetData chunk]) = some (done, some (acc ++ chunk)) ∧
      Delivers (p, acc) (chunk ++ input) more ∧ packets = done ++ more := by
  obtain ⟨acc, done, more, haligned, htold, hdelivers, hsplit⟩ := h.known
  rw [if_pos (.inr (.inr hs))] at htold
  have hnote : told (trace ++ [.packetData chunk]) = some (done, some (acc ++ chunk)) := by
    simp [htold, note]
  exact ⟨acc, done, more, haligned, htold, hnote, hdelivers, hsplit⟩

/-- A piece behind which the payload goes on, whether the callback pauses or not. -/
theorem Current.part {chunk input : List UInt8} (h : Current packets p trace (chunk ++ input))
    (hs : p.state = .payload) (hne : chunk ≠ []) (hlt : chunk.length < p.bytes_remaining) :
    Current packets { p with bytes_remaining := p.bytes_remaining - chunk.length }
      (trace ++ [.packetData chunk]) input := by
  obtain ⟨acc, done, more, haligned, -, hnote, hdelivers, hsplit⟩ := h.reading hs
  refine ⟨⟨fun _ => Nat.sub_pos_of_lt hlt, h.steady.deferred⟩, acc ++ chunk, done, more,
    ⟨fun hp => absurd hs hp, fun hp => ?_, fun _ hf => ?_⟩, ?_, ?_, hsplit⟩
  · rw [hs] at hp
    cases hp
  · rw [List.length_append]
    have := haligned.payload hs hf
    rwa [show acc.length + chunk.length + (p.bytes_remaining - chunk.length) =
      acc.length + p.bytes_remaining by omega]
  · rw [hnote, if_pos (.inr (.inr hs))]
  · exact hdelivers.next (by simp [hne]) (feed_payload hs acc chunk _ hlt)

/-- The piece that ends a fragment, where the callback lets the parser go on. -/
theorem Current.ended {chunk input : List UInt8}
    (h : Current packets p trace (chunk ++ input)) (hs : p.state = .payload)
    (hlen : chunk.length = p.bytes_remaining) (behave : List Event → Int) (k : Nat) :
    let t := endOfPayload (recording behave) { p with bytes_remaining := 0 }
      (trace ++ [.packetData chunk]) k
    t.consumed = k ∧ Current packets t.parser t.user input := by
  obtain ⟨acc, done, more, haligned, -, hnote, hdelivers, hsplit⟩ := h.reading hs
  have hd := h.steady.deferred
  have pos := h.steady.payload hs
  have hne : chunk ++ input ≠ [] :=
    List.append_ne_nil_of_left_ne_nil (List.ne_nil_of_length_pos (hlen ▸ pos)) input
  have hend := feed_payload_end hs acc chunk input hlen pos
  rw [endOfPayload_recording]
  cases hf : p.fragment with
  | true =>
    rw [hf, if_pos rfl] at hend
    have hfull := haligned.payload hs hf
    rw [← hlen, ← List.length_append] at hfull
    simp only [if_true]
    refine ⟨trivial, ⟨by simp, hd⟩, acc ++ chunk, done, more, ⟨fun _ _ => hfull, by simp, by simp⟩,
      ?_, hdelivers.next hne hend, hsplit⟩
    rw [hnote, if_pos (.inl rfl)]
  | false =>
    rw [hf, if_neg Bool.false_ne_true] at hend
    obtain ⟨more', rfl, hmore⟩ := hdelivers.stop hne hend
    simp only [Bool.false_eq_true, if_false]
    refine ⟨trivial, ⟨by simp, hd⟩, acc ++ chunk, done ++ [acc ++ chunk], more',
      ⟨by simp [Growing], by simp, by simp⟩, ?_, hmore, by rw [hsplit]; simp⟩
    rw [told_concat, hnote]
    simp [note, Growing]

/-- The piece that ends a fragment, where the callback pauses. -/
theorem Current.owed {chunk input : List UInt8} (patient : Patient behave packets)
    (h : Current packets p trace (chunk ++ input)) (hs : p.state = .payload)
    (hlen : chunk.length = p.bytes_remaining) (pauses : behave (trace ++ [.packetData chunk]) ≠ 0) :
    Owed packets { p with bytes_remaining := 0, deferred_end_callback := true }
      (trace ++ [.packetData chunk]) input := by
  obtain ⟨acc, done, more, haligned, htold, hnote, hdelivers, hsplit⟩ := h.reading hs
  have pos := h.steady.payload hs
  rcases fragment_end hs haligned htold hdelivers hsplit hlen pos with hat | ⟨-, hover, hall⟩
  · exact absurd (patient _ _ hat) pauses
  · exact ⟨rfl, hover, done, acc ++ chunk, hnote, hall⟩

theorem moved_payload {b : UInt8} {rest later : List UInt8} (patient : Patient behave packets)
    (h : Current packets p trace (b :: rest ++ later)) (hs : p.state = .payload) :
    Moved packets (b :: rest) later (turn (recording behave) p trace b rest) := by
  obtain ⟨hcut, hne, hle, hbound⟩ := chunk_split (h.steady.payload hs) b rest
  have hturn : turn (recording behave) p trace b rest =
      let chunk := (b :: rest).take p.bytes_remaining
      let q : PacketParser := { p with bytes_remaining := p.bytes_remaining - chunk.length }
      let trace' := trace ++ [.packetData chunk]
      if behave trace' ≠ 0 then
        ⟨{ q with deferred_end_callback := q.bytes_remaining == 0 || p.deferred_end_callback },
          trace', chunk.length, behave trace'⟩
      else if q.bytes_remaining = 0 then endOfPayload (recording behave) q trace' chunk.length
      else ⟨q, trace', chunk.length, 0⟩ := by
    simp only [turn, hs]
    rfl
  rw [hturn]
  generalize (b :: rest).take p.bytes_remaining = chunk at hcut hne hle hbound
  have hmoves := List.length_pos_of_ne_nil hne
  have hinput : b :: rest ++ later = chunk ++ ((b :: rest).drop chunk.length ++ later) := by
    rw [← List.append_assoc, hcut]
  rw [hinput] at h
  simp only
  rcases Nat.lt_or_ge chunk.length p.bytes_remaining with hlt | hge
  · have hleft : p.bytes_remaining - chunk.length ≠ 0 := by omega
    by_cases hrc : behave (trace ++ [.packetData chunk]) = 0
    · rw [if_neg (not_not.mpr hrc), if_neg hleft]
      exact ⟨hmoves, hbound, .inl (h.part hs hne hlt)⟩
    · have hzero : (p.bytes_remaining - chunk.length == 0 || p.deferred_end_callback) =
          p.deferred_end_callback := by simp [hleft]
      rw [if_pos hrc, hzero]
      exact ⟨hmoves, hbound, .inl (h.part hs hne hlt)⟩
  · have hlen : chunk.length = p.bytes_remaining := Nat.le_antisymm hle hge
    have hzero : p.bytes_remaining - chunk.length = 0 := by omega
    rw [hzero]
    by_cases hrc : behave (trace ++ [.packetData chunk]) = 0
    · rw [if_neg (not_not.mpr hrc), if_pos rfl]
      obtain ⟨hconsumed, hcurrent⟩ := h.ended hs hlen behave chunk.length
      refine ⟨?_, ?_, .inl ?_⟩ <;> rw [hconsumed]
      · exact hmoves
      · exact hbound
      · exact hcurrent
    · rw [if_pos hrc]
      exact ⟨hmoves, hbound, .inr ⟨hrc, h.owed patient hs hlen hrc⟩⟩

theorem moved_turn {b : UInt8} {rest later : List UInt8} (patient : Patient behave packets)
    (h : Current packets p trace (b :: rest ++ later)) :
    Moved packets (b :: rest) later (turn (recording behave) p trace b rest) := by
  cases hs : p.state with
  | len0 =>
    simp only [turn, hs]
    exact moved_header h (.inl hs) (.inl rfl) rfl rfl fun acc => by simp [parseByte, hs]
  | len1 =>
    simp only [turn, hs]
    exact moved_header h (.inr hs) (.inr rfl) rfl rfl fun acc => by simp [parseByte, hs]
  | len2 => exact moved_begin h hs
  | seq => exact moved_seq h hs
  | payload => exact moved_payload patient h hs

/-- A call of the packet parser: it gets to the end of its piece, or a callback
has paused it on the way. -/
structure Called (packets : List (List UInt8)) (input later : List UInt8)
    (r : Executed (List Event)) : Prop where
  bound : r.consumed ≤ input.length
  whole : r.error = 0 → r.consumed = input.length ∧ Current packets r.parser r.user later
  paused : r.error ≠ 0 → 0 < r.consumed ∧
    (Current packets r.parser r.user (input.drop r.consumed ++ later) ∨
      Owed packets r.parser r.user (input.drop r.consumed ++ later))

theorem called_loop {turns : Nat} {input later : List UInt8} (patient : Patient behave packets)
    (enough : input.length < turns) (h : Current packets p trace (input ++ later)) :
    Called packets input later (loop (recording behave) turns p trace input) := by
  induction turns generalizing p trace input with
  | zero => omega
  | succ turns ih =>
    cases input with
    | nil => exact ⟨Nat.le_refl _, fun _ => ⟨rfl, h⟩, fun hne => absurd rfl hne⟩
    | cons b rest =>
      have ht := moved_turn patient h
      rw [loop]
      generalize turn (recording behave) p trace b rest = t at ht
      by_cases hzero : t.error = 0
      · rw [if_neg (not_not.mpr hzero)]
        have hcurrent := ht.after.resolve_right fun hr => hr.1 hzero
        have hmoves := ht.moves
        have hbound := ht.bound
        have hr := ih (by rw [List.length_drop]; omega) hcurrent
        have hrb := hr.bound
        rw [List.length_drop] at hrb
        refine ⟨by simp only; omega, fun he => ?_, fun he => ⟨by simp only; omega, ?_⟩⟩
        · obtain ⟨hall, hlater⟩ := hr.whole he
          rw [List.length_drop] at hall
          exact ⟨by simp only; omega, hlater⟩
        · have := (hr.paused he).2
          rwa [List.drop_drop] at this
      · rw [if_pos hzero]
        exact ⟨ht.bound, fun he => absurd he hzero, fun _ => ⟨ht.moves, ht.after.imp_right (·.2)⟩⟩

theorem called_execute {input later : List UInt8} (patient : Patient behave packets)
    (h : Current packets p trace (input ++ later)) :
    Called packets input later (execute (recording behave) p trace input) := by
  rw [execute, h.steady.deferred]
  exact called_loop patient (by omega) h

end

end PacketParser

open PacketParser

variable {behave : List Event → Int} {packets : List (List UInt8)} {p : PacketParser}
  {trace : List Event} {pieces : List (List UInt8)}

/-- Pieces without bytes, and no callback owed. -/
theorem Fed.nothing (hd : p.deferred_end_callback = false) (hpieces : ∀ piece ∈ pieces, piece = []) :
    Fed (recording behave) p trace pieces p trace := by
  have he : execute (recording behave) p trace [] = ⟨p, trace, 0, 0⟩ := by
    rw [execute, hd]
    rfl
  induction pieces with
  | nil => exact .nil p trace
  | cons piece pieces ih =>
    obtain ⟨rfl, hmore⟩ := List.forall_mem_cons.mp hpieces
    have hrest := ih hmore
    exact .done (by rw [he]) (by rw [he]; exact hrest)

/-- The callback that is owed at the end of the stream is made once the caller
comes back without any bytes. -/
theorem Fed.owed {pieces : List (List UInt8)} (howed : Owed packets p trace pieces.flatten)
    (hpieces : pieces ≠ []) :
    ∃ p' trace', Fed (recording behave) p trace pieces p' trace' ∧ Reports packets trace' := by
  obtain ⟨done, acc, htold, rfl⟩ := howed.known
  have hnil : ∀ piece ∈ pieces, piece = [] := List.flatten_eq_nil_iff.mp howed.ended
  obtain ⟨piece, pieces, rfl⟩ := List.exists_cons_of_ne_nil hpieces
  obtain ⟨rfl, hmore⟩ := List.forall_mem_cons.mp hnil
  let q : PacketParser := { p with deferred_end_callback := false }
  have hreports : Reports (done ++ [acc]) (trace ++ [.packetEnd]) := by
    rw [Reports, told_concat, htold]
    rfl
  have hcall : execute (recording behave) p trace [] =
      ⟨q, trace ++ [.packetEnd], 0, behave (trace ++ [.packetEnd])⟩ := by
    rw [execute, howed.deferred, if_pos rfl]
    change (if behave (trace ++ [.packetEnd]) ≠ 0 then _ else _) = _
    by_cases hrc : behave (trace ++ [.packetEnd]) = 0
    · rw [if_neg (not_not.mpr hrc), hrc]
      rfl
    · rw [if_pos hrc]
      rfl
  refine ⟨q, trace ++ [.packetEnd], ?_, hreports⟩
  by_cases hrc : behave (trace ++ [.packetEnd]) = 0
  · exact .done (by rw [hcall]; exact hrc) (by rw [hcall]; exact .nothing rfl hmore)
  · refine .paused (by rw [hcall]; exact hrc) ?_
    rw [hcall]
    exact .nothing rfl (List.forall_mem_cons.mpr ⟨List.drop_nil, hmore⟩)

theorem Fed.current (patient : Patient behave packets)
    (h : Current packets p trace pieces.flatten) :
    ∃ p' trace', Fed (recording behave) p trace pieces p' trace' ∧ Reports packets trace' := by
  generalize hn : pieces.flatten.length + pieces.length = n
  induction n using Nat.strong_induction_on generalizing p trace pieces with
  | _ n ih =>
    cases pieces with
    | nil =>
      obtain ⟨acc, done, more, -, htold, hdelivers, hsplit⟩ := h.known
      refine ⟨p, trace, .nil p trace, ?_⟩
      cases hdelivers with
      | nil boundary whole =>
        rw [if_neg (by simp [Growing, boundary, whole])] at htold
        rw [Reports, htold, hsplit, List.append_nil]
      | cons run _ => cases run
    | cons piece pieces =>
      have hcall : Called packets piece pieces.flatten _ := called_execute patient h
      by_cases he : (execute (recording behave) p trace piece).error = 0
      · obtain ⟨-, hcurrent⟩ := hcall.whole he
        obtain ⟨p', trace', hfed, hreports⟩ := ih _ (by
          rw [← hn, List.flatten_cons, List.length_append, List.length_cons]
          omega) hcurrent rfl
        exact ⟨p', trace', .done he hfed, hreports⟩
      · obtain ⟨hmoves, hafter⟩ := hcall.paused he
        have hbound := hcall.bound
        rw [← List.flatten_cons] at hafter
        rcases hafter with hcurrent | howed
        · obtain ⟨p', trace', hfed, hreports⟩ := ih _ (by
            rw [← hn, List.flatten_cons, List.flatten_cons, List.length_append, List.length_append,
              List.length_cons, List.length_cons, List.length_drop]
            omega) hcurrent rfl
          exact ⟨p', trace', .paused he hfed, hreports⟩
        · obtain ⟨p', trace', hfed, hreports⟩ := Fed.owed howed (by simp)
          exact ⟨p', trace', .paused he hfed, hreports⟩

/-- From a packet boundary, and for any cut of the packets into calls: the
caller gets to the end, and the callbacks were told of every packet once. -/
theorem pausing_reports {behave : List Event → Int} {packets pieces : List (List UInt8)}
    {p : PacketParser} (boundary : p.state = .len0) (whole : p.fragment = false)
    (settled : p.deferred_end_callback = false)
    (cut : pieces.flatten = stream p.sequence_number packets) (patient : Patient behave packets) :
    (∃ p' trace, Fed (recording behave) p [] pieces p' trace) ∧
      ∀ p' trace, Fed (recording behave) p [] pieces p' trace → Reports packets trace := by
  have hgrow : ¬ Growing p := by simp [Growing, boundary, whole]
  have h : Current packets p [] pieces.flatten := by
    refine ⟨⟨by simp [boundary], settled⟩, [], [], packets, ⟨fun _ hg => absurd hg hgrow, ?_, ?_⟩,
      by rw [if_neg hgrow]; rfl, by rw [cut]; exact delivers_stream boundary whole [] packets, rfl⟩
    · simp [boundary]
    · simp [boundary]
  obtain ⟨p', trace, hfed, hreports⟩ := Fed.current patient h
  refine ⟨⟨p', trace, hfed⟩, fun p'' trace' hfed' => ?_⟩
  rw [← (hfed.unique hfed').2]
  exact hreports

/-- Pause at the end of every packet, as the client does. -/
def pauseAtEnd (trace : List Event) : Int :=
  match trace.getLast? with
  | some .packetEnd => 1
  | _ => 0

theorem pausing_reports_two :
    (∃ p' trace, Fed (recording pauseAtEnd) PacketParser.init [] [stream 0 [[7], [8]]] p' trace) ∧
      ∀ p' trace, Fed (recording pauseAtEnd) PacketParser.init [] [stream 0 [[7], [8]]] p' trace →
        Reports [[7], [8]] trace :=
  pausing_reports rfl rfl rfl (by simp [PacketParser.init]) fun _ _ _ => by simp [pauseAtEnd]

/-- Pause at every piece of data that is not empty. -/
def pauseAtData (trace : List Event) : Int :=
  match trace.getLast? with
  | some (.packetData (_ :: _)) => 1
  | _ => 0

/-- After the pause the end of the first packet is told, then the payload is
entered once more, without any bytes, and left with a second end. -/
theorem pausing_reports_fails :
    ∃ p' trace, Fed (recording pauseAtData) PacketParser.init [] [stream 0 [[7], [8]]] p' trace ∧
      ¬ Reports [[7], [8]] trace := by
  have hstream : stream 0 [[7], [8]] = [1, 0, 0, 0, 7, 1, 0, 0, 1, 8] := by
    rw [stream, stream, stream, frames_of_lt (by decide), frames_of_lt (by decide)]
    decide
  rw [hstream]
  refine ⟨_, _, .paused (by decide) (.paused (by decide) (.done (by decide) (.nil _ _))), ?_⟩
  decide

end Trilogy
