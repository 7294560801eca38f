import Trilogy.PacketParser
import Trilogy.Framing

namespace Trilogy

open Lib

namespace PacketParser

/-- Between calls no payload is empty and no callback is owed. -/
structure Steady (p : PacketParser) : Prop where
  payload : p.state = .payload → 0 < p.bytes_remaining
  deferred : p.deferred_end_callback = false

def endByte (p : PacketParser) (acc : List UInt8) : Outcome (PacketParser × List UInt8) Int :=
  if p.fragment then .next ({ p with state := .len0 }, acc)
  else .stop ({ p with state := .len0 }, acc) 1

/-- The parser and the contents of the packet buffer, over one byte. -/
def parseByte : PacketParser × List UInt8 → UInt8 → Outcome (PacketParser × List UInt8) Int
  | (p, acc), b =>
    match p.state with
    | .len0 => .next ({ p with bytes_remaining := b.toNat, state := .len1 }, acc)
    | .len1 =>
      .next ({ p with bytes_remaining := p.bytes_remaining ||| b.toNat <<< 8, state := .len2 }, acc)
    | .len2 =>
      let remaining := p.bytes_remaining ||| b.toNat <<< 16
      .next ({ p with
        bytes_remaining := remaining
        fragment := remaining == maxPacketLen
        state := .seq }, if p.fragment then acc else [])
    | .seq =>
      if b ≠ p.sequence_number then .refuse Code.invalidSequenceId.toInt
      else
        let p := { p with sequence_number := p.sequence_number + 1, state := .payload }
        if p.bytes_remaining = 0 then endByte p acc else .next (p, acc)
    | .payload =>
      let p := { p with bytes_remaining := p.bytes_remaining - 1 }
      if p.bytes_remaining = 0 then endByte p (acc ++ [b]) else .next (p, acc ++ [b])

/-- No packet on the way outgrows `n` bytes. -/
def Fits (n : Nat) : PacketParser × List UInt8 → List UInt8 → Prop
  | _, [] => True
  | st, b :: bs =>
    (st.1.state = .payload → st.2.length < n) ∧
      match parseByte st b with
      | .next st' => Fits n st' bs
      | _ => True

theorem Fits.next {n : Nat} {st st' : PacketParser × List UInt8} {b : UInt8} {bs : List UInt8}
    (h : Fits n st (b :: bs)) (e : parseByte st b = .next st') : Fits n st' bs := by
  have := h.2
  rwa [e] at this

theorem Fits.append {n : Nat} {st st' : PacketParser × List UInt8} {xs ys rest : List UInt8}
    (h : Fits n st (xs ++ ys)) (e : feed parseByte st xs = (st', none, rest)) : Fits n st' ys := by
  induction xs generalizing st with
  | nil => cases e; exact h
  | cons x xs ih =>
    cases es : parseByte st x with
    | next t =>
      rw [feed_next es] at e
      exact ih (h.next es) e
    | stop t o => rw [feed_stop es] at e; cases e
    | refuse o => rw [feed_refuse es] at e; cases e

theorem Fits.left {n : Nat} {st : PacketParser × List UInt8} {xs ys : List UInt8}
    (h : Fits n st (xs ++ ys)) : Fits n st xs := by
  induction xs generalizing st with
  | nil => trivial
  | cons x xs ih =>
    refine ⟨h.1, ?_⟩
    cases es : parseByte st x with
    | next t => exact ih (h.next es)
    | stop t o => trivial
    | refuse o => trivial

/-- A run of payload bytes that does not finish the payload. -/
theorem feed_payload {p : PacketParser} (hp : p.state = .payload) (acc chunk rest : List UInt8)
    (h : chunk.length < p.bytes_remaining) :
    feed parseByte (p, acc) (chunk ++ rest) =
      feed parseByte ({ p with bytes_remaining := p.bytes_remaining - chunk.length },
        acc ++ chunk) rest := by
  induction chunk generalizing p acc with
  | nil => simp
  | cons b bs ih =>
    rw [List.length_cons] at h
    have e : parseByte (p, acc) b =
        .next ({ p with bytes_remaining := p.bytes_remaining - 1 }, acc ++ [b]) := by
      simp only [parseByte, hp]
      rw [if_neg (by omega)]
    have := ih (p := { p with bytes_remaining := p.bytes_remaining - 1 }) hp (acc ++ [b])
      (Nat.lt_sub_of_add_lt h)
    rw [List.cons_append, feed_next e, this]
    simp [Nat.sub_sub, Nat.add_comm 1]

/-- The payload bytes that finish it. -/
theorem feed_payload_end {p : PacketParser} (hp : p.state = .payload) (acc chunk rest : List UInt8)
    (h : chunk.length = p.bytes_remaining) (pos : 0 < p.bytes_remaining) :
    feed parseByte (p, acc) (chunk ++ rest) =
      if p.fragment then
        feed parseByte ({ p with bytes_remaining := 0, state := .len0 }, acc ++ chunk) rest
      else (({ p with bytes_remaining := 0, state := .len0 }, acc ++ chunk), some 1, rest) := by
  obtain ⟨init, b, rfl⟩ : ∃ init b, chunk = init ++ [b] :=
    ⟨_, _, (List.dropLast_concat_getLast (List.ne_nil_of_length_pos (h ▸ pos))).symm⟩
  rw [List.length_append, List.length_singleton] at h
  rw [List.append_assoc, feed_payload hp _ _ _ (by omega)]
  have hone : p.bytes_remaining - init.length - 1 = 0 := by omega
  cases hf : p.fragment with
  | true =>
    rw [List.singleton_append, feed_next (t := ({ p with bytes_remaining := 0, state := .len0 },
      acc ++ init ++ [b]))]
    · simp [hf]
    · simp [parseByte, hp, hone, endByte, hf]
  | false =>
    rw [List.singleton_append, feed_stop (t := ({ p with bytes_remaining := 0, state := .len0 },
      acc ++ init ++ [b])) (o := 1)]
    · simp [hf]
    · simp [parseByte, hp, hone, endByte, hf]

theorem fits_payload {n : Nat} {p : PacketParser} (hp : p.state = .payload)
    {acc chunk rest : List UInt8} (h : Fits n (p, acc) (chunk ++ rest))
    (hlen : chunk.length ≤ p.bytes_remaining) (hne : chunk ≠ []) :
    acc.length + chunk.length ≤ n := by
  induction chunk generalizing p acc with
  | nil => exact absurd rfl hne
  | cons b bs ih =>
    by_cases hbs : bs = []
    · have := h.1 hp
      subst hbs
      simp only [List.length_singleton]
      exact this
    · have hpos := List.length_pos_of_ne_nil hbs
      rw [List.length_cons] at hlen
      have e : parseByte (p, acc) b =
          .next ({ p with bytes_remaining := p.bytes_remaining - 1 }, acc ++ [b]) := by
        simp only [parseByte, hp]
        rw [if_neg (by omega)]
      have := ih (p := { p with bytes_remaining := p.bytes_remaining - 1 }) hp (h.next e)
        (Nat.le_sub_of_add_le hlen) hbs
      simp only [List.length_append, List.length_cons, List.length_nil] at this ⊢
      omega

theorem onPacketData_ok {alloc : Alloc} {n : Nat} {b : Buffer} {data : List UInt8}
    (grow : Buffer.Grows alloc b.cap n) (h : b.len + data.length ≤ n) :
    ∃ b', onPacketData alloc b data = (0, b') ∧ b'.bytes = b.bytes ++ data ∧ b.cap ≤ b'.cap := by
  have hf := Buffer.expand_frame alloc data.length b
  have hg := grow b data.length (Nat.le_refl _) h
  unfold onPacketData
  rcases e : Buffer.expand alloc data.length b with ⟨_ | _, b'⟩
  · rw [e] at hg
    cases hg
  · rw [e] at hf
    exact ⟨b'.push data, rfl, by rw [Buffer.push_bytes, hf.1], hf.2.2⟩

/-- What one turn of the loop does to the run: it is a piece of it. -/
structure Turned (n : Nat) (p : PacketParser) (b : Buffer) (input : List UInt8)
    (t : Executed Buffer) : Prop where
  run : feed parseByte (p, b.bytes) input =
    if t.error = 0 then feed parseByte (t.parser, t.user.bytes) (input.drop t.consumed)
    else ((t.parser, t.user.bytes), some t.error, input.drop t.consumed)
  steady : Steady t.parser
  cap : b.cap ≤ t.user.cap
  bound : t.consumed ≤ input.length
  moves : t.error = 0 → 0 < t.consumed
  fits : t.error = 0 → Fits n (t.parser, t.user.bytes) (input.drop t.consumed)

theorem Turned.of_next {n : Nat} {p q : PacketParser} {b c : Buffer} {x : UInt8}
    {rest : List UInt8} (e : parseByte (p, b.bytes) x = .next (q, c.bytes)) (steady : Steady q)
    (cap : b.cap ≤ c.cap) (fits : Fits n (p, b.bytes) (x :: rest)) :
    Turned n p b (x :: rest) ⟨q, c, 1, 0⟩ where
  run := feed_next e rest
  steady := steady
  cap := cap
  bound := by simp
  moves := fun _ => Nat.one_pos
  fits := fun _ => fits.next e

theorem Turned.of_stop {n : Nat} {p q : PacketParser} {b c : Buffer} {x : UInt8}
    {rest : List UInt8} {o : Int} (e : parseByte (p, b.bytes) x = .stop (q, c.bytes) o)
    (ho : o ≠ 0) (steady : Steady q) (cap : b.cap ≤ c.cap) :
    Turned n p b (x :: rest) ⟨q, c, 1, o⟩ where
  run := by rw [feed_stop e, if_neg ho]; rfl
  steady := steady
  cap := cap
  bound := by simp
  moves := fun h => absurd h ho
  fits := fun h => absurd h ho

theorem endOfPayload_eq (alloc : Alloc) (p : PacketParser) (b : Buffer) (k : Nat) :
    endOfPayload (packetParserCallbacks alloc) p b k =
      ⟨{ p with state := .len0 }, b, k, if p.fragment then 0 else 1⟩ := by
  unfold endOfPayload
  cases p.fragment <;> rfl

theorem invalid_ne : Code.invalidSequenceId.toInt ≠ 0 := by
  decide

/-- The piece of the payload that a turn hands out. -/
theorem chunk_split {p : PacketParser} (pos : 0 < p.bytes_remaining) (b : UInt8)
    (rest : List UInt8) :
    let chunk := (b :: rest).take p.bytes_remaining
    chunk ++ (b :: rest).drop chunk.length = b :: rest ∧ chunk ≠ [] ∧
      chunk.length ≤ p.bytes_remaining ∧ chunk.length ≤ (b :: rest).length := by
  intro chunk
  refine ⟨?_, ?_, List.length_take_le _ _, ?_⟩
  · have : (b :: rest).drop chunk.length = (b :: rest).drop p.bytes_remaining := by
      rw [List.length_take, List.drop_eq_drop_iff]
      omega
    rw [this, List.take_append_drop]
  · intro h
    have := congrArg List.length h
    rw [List.length_take, List.length_cons, List.length_nil] at this
    omega
  · rw [List.length_take]
    exact Nat.min_le_right _ _

/-- A piece behind which the payload goes on. -/
theorem Turned.of_part {n : Nat} {p : PacketParser} {b b' : Buffer} {chunk rest : List UInt8}
    (steady : Steady p) (hs : p.state = .payload) (hlt : chunk.length < p.bytes_remaining)
    (hne : chunk ≠ []) (hbytes : b'.bytes = b.bytes ++ chunk) (cap : b.cap ≤ b'.cap)
    (fits : Fits n (p, b.bytes) (chunk ++ rest)) :
    Turned n p b (chunk ++ rest)
      ⟨{ p with bytes_remaining := p.bytes_remaining - chunk.length }, b', chunk.length, 0⟩ where
  run := by
    rw [if_pos rfl, List.drop_left, hbytes]
    exact feed_payload hs b.bytes chunk rest hlt
  steady := ⟨fun _ => Nat.sub_pos_of_lt hlt, steady.deferred⟩
  cap := cap
  bound := by simp
  moves := fun _ => List.length_pos_of_ne_nil hne
  fits := by
    intro _
    have hpart := feed_payload hs b.bytes chunk [] hlt
    rw [List.append_nil, ← hbytes] at hpart
    rw [List.drop_left]
    exact fits.append hpart

/-- The piece that ends a payload, and the packet unless more fragments follow. -/
theorem Turned.of_end {n : Nat} {p : PacketParser} {b b' : Buffer} {chunk rest : List UInt8}
    (steady : Steady p) (hs : p.state = .payload) (hlen : chunk.length = p.bytes_remaining)
    (hne : chunk ≠ []) (hbytes : b'.bytes = b.bytes ++ chunk) (cap : b.cap ≤ b'.cap)
    (fits : Fits n (p, b.bytes) (chunk ++ rest)) :
    Turned n p b (chunk ++ rest) ⟨{ p with bytes_remaining := 0, state := .len0 }, b',
      chunk.length, if p.fragment then 0 else 1⟩ where
  run := by
    rw [feed_payload_end hs b.bytes chunk rest hlen (steady.payload hs), List.drop_left, ← hbytes]
    cases p.fragment <;> rfl
  steady := ⟨by simp, steady.deferred⟩
  cap := cap
  bound := by simp
  moves := fun _ => List.length_pos_of_ne_nil hne
  fits := by
    intro herr
    have hpart := feed_payload_end hs b.bytes chunk [] hlen (steady.payload hs)
    rw [List.append_nil, ← hbytes] at hpart
    rw [List.drop_left]
    cases hf : p.fragment with
    | true =>
      rw [hf, if_pos rfl] at hpart
      exact fits.append hpart
    | false =>
      rw [hf] at herr
      cases herr

section

variable {n : Nat} {p : PacketParser} {b : Buffer} {x : UInt8} {rest : List UInt8}

theorem turned_seq (alloc : Alloc) (steady : Steady p) (hs : p.state = .seq)
    (fits : Fits n (p, b.bytes) (x :: rest)) :
    Turned n p b (x :: rest) (turn (packetParserCallbacks alloc) p b x rest) := by
  have hd := steady.deferred
  simp only [turn, hs, endOfPayload_eq]
  by_cases hx : x = p.sequence_number
  · rw [if_neg (not_not.mpr hx)]
    by_cases hr : p.bytes_remaining = 0
    · -- an empty fragment ends here
      rw [if_pos hr]
      cases hf : p.fragment with
      | true =>
        exact .of_next (by simp [parseByte, hs, hf, hx, hr, endByte]) ⟨by simp, hd⟩
          (Nat.le_refl _) fits
      | false =>
        exact .of_stop (by simp [parseByte, hs, hf, hx, hr, endByte]) (by decide) ⟨by simp, hd⟩
          (Nat.le_refl _)
    · rw [if_neg hr]
      exact .of_next (by simp [parseByte, hs, hx, hr]) ⟨fun _ => Nat.pos_of_ne_zero hr, hd⟩
        (Nat.le_refl _) fits
  · rw [if_pos hx]
    have e : parseByte (p, b.bytes) x = .refuse Code.invalidSequenceId.toInt := by
      simp [parseByte, hs, hx]
    exact ⟨by rw [feed_refuse e]; rfl, steady, Nat.le_refl _, Nat.zero_le _,
      fun h => absurd h invalid_ne, fun h => absurd h invalid_ne⟩

theorem turned_payload {alloc : Alloc} (steady : Steady p) (hs : p.state = .payload)
    (grow : Buffer.Grows alloc b.cap n) (fits : Fits n (p, b.bytes) (x :: rest)) :
    Turned n p b (x :: rest) (turn (packetParserCallbacks alloc) p b x rest) := by
  -- the whole chunk goes to one data callback
  obtain ⟨hcut, hne, hle, -⟩ := chunk_split (steady.payload hs) x rest
  have hroom := fits_payload hs (hcut ▸ fits) hle hne
  obtain ⟨b', hdata, hbytes, hcap⟩ := onPacketData_ok grow hroom
  have hcb : (packetParserCallbacks alloc).on_packet_data b ((x :: rest).take p.bytes_remaining) =
      (0, b') := hdata
  have hturn : turn (packetParserCallbacks alloc) p b x rest =
      let left := p.bytes_remaining - ((x :: rest).take p.bytes_remaining).length
      if left = 0 then
        ⟨{ p with bytes_remaining := left, state := .len0 }, b',
          ((x :: rest).take p.bytes_remaining).length, if p.fragment then 0 else 1⟩
      else
        ⟨{ p with bytes_remaining := left }, b', ((x :: rest).take p.bytes_remaining).length, 0⟩ := by
    simp only [turn, hs, hcb, endOfPayload_eq]
    rfl
  rw [hturn]
  generalize (x :: rest).take p.bytes_remaining = chunk at hcut hne hle hbytes
  rw [← hcut] at fits ⊢
  dsimp only
  rcases Nat.lt_or_ge chunk.length p.bytes_remaining with hlt | hge
  · rw [if_neg (by omega : ¬ p.bytes_remaining - chunk.length = 0)]
    exact .of_part steady hs hlt hne hbytes hcap fits
  · have hlen : chunk.length = p.bytes_remaining := Nat.le_antisymm hle hge
    have hzero : p.bytes_remaining - chunk.length = 0 := by omega
    rw [if_pos hzero, hzero]
    exact .of_end steady hs hlen hne hbytes hcap fits

theorem turn_turned (alloc : Alloc) (steady : Steady p) (grow : Buffer.Grows alloc b.cap n)
    (fits : Fits n (p, b.bytes) (x :: rest)) :
    Turned n p b (x :: rest) (turn (packetParserCallbacks alloc) p b x rest) := by
  have hd := steady.deferred
  cases hs : p.state with
  | len0 =>
    simp only [turn, hs]
    exact .of_next (by simp [parseByte, hs]) ⟨by simp, hd⟩ (Nat.le_refl _) fits
  | len1 =>
    simp only [turn, hs]
    exact .of_next (by simp [parseByte, hs]) ⟨by simp, hd⟩ (Nat.le_refl _) fits
  | len2 =>
    simp only [turn, hs]
    cases hf : p.fragment with
    | true => exact .of_next (by simp [parseByte, hs, hf]) ⟨by simp, hd⟩ (Nat.le_refl _) fits
    | false =>
      exact .of_next (c := b.reset) (by simp [parseByte, hs, hf]) ⟨by simp, hd⟩ (Nat.le_refl _) fits
  | seq => exact turned_seq alloc steady hs fits
  | payload => exact turned_payload steady hs grow fits

end

/-- A call, however it ends, is the run of `parseByte` over the bytes it was
given, up to the byte where that stops. -/
structure Parsed (n : Nat) (p : PacketParser) (b : Buffer) (input : List UInt8)
    (r : Executed Buffer) : Prop where
  run : feed parseByte (p, b.bytes) input =
    ((r.parser, r.user.bytes), if r.error = 0 then none else some r.error, input.drop r.consumed)
  steady : Steady r.parser
  cap : b.cap ≤ r.user.cap
  bound : r.consumed ≤ input.length

theorem Parsed.of_stop {n : Nat} {p : PacketParser} {b : Buffer} {input rest : List UInt8}
    {r : Executed Buffer} {st : PacketParser × List UInt8} {o : Int} (h : Parsed n p b input r)
    (e : feed parseByte (p, b.bytes) input = (st, some o, rest)) :
    r.error = o ∧ (r.parser, r.user.bytes) = st ∧ input.drop r.consumed = rest := by
  have hrun := h.run
  rw [e] at hrun
  simp only [Prod.mk.injEq] at hrun
  obtain ⟨hst, herr, hrest⟩ := hrun
  by_cases h0 : r.error = 0
  · simp [h0] at herr
  · rw [if_neg h0] at herr
    exact ⟨(Option.some.inj herr).symm, hst.symm, hrest.symm⟩

theorem Parsed.of_none {n : Nat} {p : PacketParser} {b : Buffer} {input rest : List UInt8}
    {r : Executed Buffer} {st : PacketParser × List UInt8} (h : Parsed n p b input r)
    (e : feed parseByte (p, b.bytes) input = (st, none, rest)) :
    r.error = 0 ∧ (r.parser, r.user.bytes) = st ∧ input.drop r.consumed = rest := by
  have hrun := h.run
  rw [e] at hrun
  simp only [Prod.mk.injEq] at hrun
  obtain ⟨hst, herr, hrest⟩ := hrun
  by_cases h0 : r.error = 0
  · exact ⟨h0, hst.symm, hrest.symm⟩
  · simp [h0] at herr

theorem Parsed.all {n : Nat} {p : PacketParser} {b : Buffer} {input : List UInt8}
    {r : Executed Buffer} (h : Parsed n p b input r) (e : input.drop r.consumed = []) :
    r.consumed = input.length :=
  Nat.le_antisymm h.bound (List.drop_eq_nil_iff.mp e)

theorem loop_parsed {alloc : Alloc} {n turns : Nat} {p : PacketParser} {b : Buffer}
    {input : List UInt8} (enough : input.length < turns) (steady : Steady p)
    (grow : Buffer.Grows alloc b.cap n) (fits : Fits n (p, b.bytes) input) :
    Parsed n p b input (loop (packetParserCallbacks alloc) turns p b input) := by
  induction turns generalizing p b input with
  | zero => omega
  | succ turns ih =>
    cases input with
    | nil => exact ⟨rfl, steady, Nat.le_refl _, Nat.le_refl _⟩
    | cons x rest =>
      have ht := turn_turned alloc steady grow fits
      rw [loop]
      split
      · rename_i hne
        exact ⟨by rw [ht.run, if_neg hne, if_neg hne], ht.steady, ht.cap, ht.bound⟩
      · rename_i hzero
        have hzero := not_not.mp hzero
        have hmoves := ht.moves hzero
        have hlen := ht.bound
        have hr := ih (by rw [List.length_drop]; omega) ht.steady
          (grow.mono ht.cap (Nat.le_refl _)) (ht.fits hzero)
        have hb := hr.bound
        rw [List.length_drop] at hb
        exact ⟨by rw [ht.run, if_pos hzero, hr.run, List.drop_drop], hr.steady,
          ht.cap.trans hr.cap, by simp only; omega⟩

theorem execute_parsed {alloc : Alloc} {n : Nat} {p : PacketParser} {b : Buffer}
    {input : List UInt8} (steady : Steady p) (grow : Buffer.Grows alloc b.cap n)
    (fits : Fits n (p, b.bytes) input) :
    Parsed n p b input (execute (packetParserCallbacks alloc) p b input) := by
  rw [execute, steady.deferred]
  exact loop_parsed (by omega) steady grow fits

theorem header_value {n : Nat} (h : n < 2 ^ 24) :
    (UInt8.ofNat n).toNat ||| (UInt8.ofNat (n >>> 8)).toNat <<< 8 |||
      (UInt8.ofNat (n >>> 16)).toNat <<< 16 = n := by
  have h0 : (UInt8.ofNat n).toNat < 2 ^ 8 := UInt8.toNat_lt _
  have h1 : (UInt8.ofNat (n >>> 8)).toNat < 2 ^ 8 := UInt8.toNat_lt _
  rw [or_shiftLeft h0, or_shiftLeft (by omega)]
  simp only [UInt8.toNat_ofNat', Nat.shiftRight_eq_div_pow]
  omega

/-- A header, from a packet boundary or between two fragments. -/
theorem feed_header {p : PacketParser} (hs : p.state = .len0) (acc : List UInt8) {n : Nat}
    (hn : n < 2 ^ 24) (xs : List UInt8) :
    feed parseByte (p, acc) (header n p.sequence_number ++ xs) =
      let q : PacketParser := { p with
        sequence_number := p.sequence_number + 1
        bytes_remaining := n
        fragment := n == maxPacketLen
        state := .payload }
      let acc := if p.fragment then acc else []
      if n = 0 then (({ q with state := .len0 }, acc), some 1, xs)
      else feed parseByte (q, acc) xs := by
  have hv := header_value hn
  have e0 : parseByte (p, acc) (UInt8.ofNat n) =
      .next ({ p with bytes_remaining := (UInt8.ofNat n).toNat, state := .len1 }, acc) := by
    simp only [parseByte, hs]
  rw [header_eq]
  simp only [List.cons_append, List.nil_append]
  rw [feed_next e0, feed_next rfl, feed_next rfl]
  by_cases hz : n = 0
  · subst hz
    rw [feed_stop (t := ({ p with
      sequence_number := p.sequence_number + 1
      bytes_remaining := 0
      fragment := 0 == maxPacketLen
      state := .len0 }, if p.fragment then acc else [])) (o := 1)]
    · simp
    · simp [parseByte, endByte, maxPacketLen]
  · rw [feed_next (t := ({ p with
      sequence_number := p.sequence_number + 1
      bytes_remaining := n
      fragment := n == maxPacketLen
      state := .payload }, if p.fragment then acc else []))]
    · simp only [if_neg hz]
    · simp only [parseByte, hv, if_neg hz, ne_eq, not_true, if_false]

/-- Where the parser is after a whole packet: at a boundary, expecting the
sequence id behind the last fragment's. -/
def after (p : PacketParser) (length : Nat) : PacketParser :=
  { p with
    sequence_number := p.sequence_number + UInt8.ofNat (extraFragments length) + 1
    bytes_remaining := 0
    fragment := false
    state := .len0 }

theorem feed_frames {p : PacketParser} (hs : p.state = .len0) (acc payload rest : List UInt8) :
    feed parseByte (p, acc) (frames p.sequence_number payload ++ rest) =
      ((p.after payload.length, (if p.fragment then acc else []) ++ payload), some 1, rest) := by
  generalize hseq : p.sequence_number = s
  induction s, payload using frames.induct generalizing p acc with
  | case1 s payload hlt =>
    have hextra : extraFragments payload.length = 0 := Nat.div_eq_of_lt hlt
    have hshort : (payload.length == maxPacketLen) = false := by simpa using hlt.ne
    rw [frames_of_lt hlt, List.append_assoc, ← hseq, feed_header hs _ (by unfold maxPacketLen at *; omega)]
    by_cases hz : payload.length = 0
    · have := List.length_eq_zero_iff.mp hz
      subst this
      rw [List.length_nil] at hextra
      simp [after, hextra, maxPacketLen]
    · simp only [if_neg hz]
      rw [feed_payload_end rfl _ _ _ rfl (Nat.pos_of_ne_zero hz)]
      simp [after, hextra, hshort]
  | case2 s payload hge ih =>
    obtain ⟨full, q, hfull, rfl⟩ : ∃ full q, full.length = maxPacketLen ∧ payload = full ++ q :=
      ⟨payload.take maxPacketLen, payload.drop maxPacketLen,
        by rw [List.length_take]; omega, (List.take_append_drop _ _).symm⟩
    rw [List.drop_left' hfull] at ih
    rw [frames_full hfull, List.append_assoc, ← hseq, feed_header hs _ (by decide)]
    simp only [if_neg (by decide : ¬ maxPacketLen = 0), List.append_assoc]
    rw [feed_payload_end rfl _ _ _ hfull (Nat.lt_of_sub_eq_succ rfl)]
    simp only [beq_self_eq_true, if_true]
    rw [hseq, ih rfl _ rfl]
    simp [after, extraFragments, hfull, hseq, Nat.add_div_left, maxPacketLen, UInt8.add_assoc,
      UInt8.add_comm]

/-- Framing loses nothing. -/
theorem frames_injective {s : UInt8} {p q : List UInt8} (h : frames s p = frames s q) : p = q := by
  have hp := feed_frames (p := { init with sequence_number := s }) rfl [] p []
  have hq := feed_frames (p := { init with sequence_number := s }) rfl [] q []
  change feed _ _ (frames s p ++ []) = _ at hp
  rw [h, hq] at hp
  simpa using (congrArg (fun r => r.1.2) hp).symm

/-- Inside a packet: a length header is not about to empty the packet buffer. -/
def Growing (p : PacketParser) : Prop :=
  p.fragment = true ∨ p.state = .seq ∨ p.state = .payload

theorem endByte_next {p : PacketParser} {acc : List UInt8} {st : PacketParser × List UInt8}
    (h : endByte p acc = .next st) : Growing st.1 ∧ st.2 = acc := by
  unfold endByte at h
  split at h
  · cases h
    exact ⟨.inl ‹_›, rfl⟩
  · cases h

theorem endByte_stop {p : PacketParser} {acc : List UInt8} {st : PacketParser × List UInt8} {o : Int}
    (h : endByte p acc = .stop st o) : st.2 = acc := by
  unfold endByte at h
  split at h <;> cases h
  rfl

/-- One byte inside a packet adds to the packet buffer, if it does anything. -/
theorem parseByte_grows {st st' : PacketParser × List UInt8} {b : UInt8} (hg : Growing st.1)
    (h : parseByte st b = .next st') :
    Growing st'.1 ∧ st.2.length ≤ st'.2.length ∧
      (st.1.state = .payload → st.2.length < st'.2.length) := by
  obtain ⟨p, acc⟩ := st
  cases hs : p.state with
  | len0 | len1 =>
    simp only [parseByte, hs] at h
    cases h
    have : p.fragment = true := by simpa [Growing, hs] using hg
    exact ⟨.inl this, Nat.le_refl _, by simp⟩
  | len2 =>
    have : p.fragment = true := by simpa [Growing, hs] using hg
    simp only [parseByte, hs, this, if_true] at h
    cases h
    exact ⟨.inr (.inl rfl), Nat.le_refl _, by simp⟩
  | seq =>
    simp only [parseByte, hs] at h
    split at h
    · cases h
    · split at h
      · obtain ⟨hg', he⟩ := endByte_next h
        exact ⟨hg', by rw [he], by simp⟩
      · cases h
        exact ⟨.inr (.inr rfl), Nat.le_refl _, by simp⟩
  | payload =>
    simp only [parseByte, hs] at h
    split at h
    · obtain ⟨hg', he⟩ := endByte_next h
      exact ⟨hg', by simp [he], by simp [he]⟩
    · cases h
      exact ⟨.inr (.inr rfl), by simp, by simp⟩

theorem parseByte_ne_refuse {st : PacketParser × List UInt8} {b : UInt8} {o : Int}
    (hs : st.1.state = .payload) : parseByte st b ≠ .refuse o := by
  simp only [parseByte, hs, endByte]
  split
  · split <;> simp
  · simp

theorem parseByte_stop {st st' : PacketParser × List UInt8} {b : UInt8} {o : Int}
    (h : parseByte st b = .stop st' o) :
    st.2.length ≤ st'.2.length ∧ (st.1.state = .payload → st.2.length < st'.2.length) := by
  obtain ⟨p, acc⟩ := st
  cases hs : p.state with
  | len0 | len1 | len2 => simp only [parseByte, hs] at h; cases h
  | seq =>
    simp only [parseByte, hs] at h
    split at h
    · cases h
    · split at h
      · rw [endByte_stop h]
        exact ⟨Nat.le_refl _, by simp⟩
      · cases h
  | payload =>
    simp only [parseByte, hs] at h
    split at h
    · rw [endByte_stop h]
      exact ⟨by simp, by simp⟩
    · cases h

/-- A run that ends with a packet never held more than that packet. -/
theorem fits_of_stop {n : Nat} {st st' : PacketParser × List UInt8} {input rest : List UInt8}
    {o : Int} (h : feed parseByte st input = (st', some o, rest)) (hn : st'.2.length ≤ n) :
    Fits n st input ∧ (Growing st.1 → st.2.length ≤ st'.2.length) := by
  induction input generalizing st with
  | nil => cases h
  | cons b bs ih =>
    cases e : parseByte st b with
    | next t =>
      rw [feed_next e] at h
      obtain ⟨hf, hl⟩ := ih h
      refine ⟨⟨fun hs => ?_, by rw [e]; exact hf⟩, fun hg => ?_⟩
      · obtain ⟨hg, -, hlt⟩ := parseByte_grows (.inr (.inr hs)) e
        exact (hlt hs).trans_le ((hl hg).trans hn)
      · obtain ⟨hg, hle, -⟩ := parseByte_grows hg e
        exact hle.trans (hl hg)
    | stop t o' =>
      rw [feed_stop e] at h
      cases h
      obtain ⟨hle, hlt⟩ := parseByte_stop e
      exact ⟨⟨fun hs => (hlt hs).trans_le hn, by rw [e]; trivial⟩, fun _ => hle⟩
    | refuse o' =>
      rw [feed_refuse e] at h
      cases h
      exact ⟨⟨fun hs => absurd e (parseByte_ne_refuse hs), by rw [e]; trivial⟩, fun _ => Nat.le_refl _⟩

end PacketParser

end Trilogy
