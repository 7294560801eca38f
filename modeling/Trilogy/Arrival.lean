import Trilogy.Receive
import Trilogy.Sequence

namespace Trilogy

open Lib

namespace PacketParser

/-- A byte adds no more than itself to the packet buffer. -/
theorem parseByte_length {st st' : PacketParser × List UInt8} {b : UInt8}
    (h : parseByte st b = .next st' ∨ ∃ o, parseByte st b = .stop st' o) :
    st'.2.length ≤ st.2.length + 1 := by
  obtain ⟨p, acc⟩ := st
  cases hs : p.state with
  | len0 | len1 =>
    simp only [parseByte, hs] at h
    rcases h with h | ⟨o, h⟩ <;> cases h
    exact Nat.le_succ _
  | len2 =>
    simp only [parseByte, hs] at h
    rcases h with h | ⟨o, h⟩ <;> cases h
    simp only
    split
    · exact Nat.le_succ _
    · exact Nat.zero_le _
  | seq =>
    simp only [parseByte, hs] at h
    split at h
    · rcases h with h | ⟨o, h⟩ <;> cases h
    · split at h
      · rcases h with h | ⟨o, h⟩
        · rw [(endByte_next h).2]
          exact Nat.le_succ _
        · rw [endByte_stop h]
          exact Nat.le_succ _
      · rcases h with h | ⟨o, h⟩ <;> cases h
        exact Nat.le_succ _
  | payload =>
    simp only [parseByte, hs] at h
    split at h
    · rcases h with h | ⟨o, h⟩
      · rw [(endByte_next h).2, List.length_append]
        exact Nat.le_refl _
      · rw [endByte_stop h, List.length_append]
        exact Nat.le_refl _
    · rcases h with h | ⟨o, h⟩ <;> cases h
      simp

theorem feed_length {st st' : PacketParser × List UInt8} {input rest : List UInt8}
    {o : Option Int} (h : feed parseByte st input = (st', o, rest)) :
    st'.2.length + rest.length ≤ st.2.length + input.length := by
  induction input generalizing st with
  | nil =>
    cases h
    exact Nat.le_refl _
  | cons b bs ih =>
    rw [List.length_cons]
    cases e : parseByte st b with
    | next t =>
      rw [feed_next e] at h
      have := parseByte_length (.inl e)
      have := ih h
      omega
    | stop t o' =>
      rw [feed_stop e] at h
      cases h
      have := parseByte_length (.inr ⟨_, e⟩)
      omega
    | refuse o' =>
      rw [feed_refuse e] at h
      cases h
      rw [List.length_cons]

theorem fits_of_length {n : Nat} {st : PacketParser × List UInt8} {input : List UInt8}
    (h : st.2.length + input.length ≤ n) : Fits n st input := by
  induction input generalizing st with
  | nil => trivial
  | cons b bs ih =>
    rw [List.length_cons] at h
    refine ⟨fun _ => by omega, ?_⟩
    cases e : parseByte st b with
    | next t =>
      have := parseByte_length (.inl e)
      exact ih (by omega)
    | stop t o => trivial
    | refuse o => trivial

theorem endByte_code {p : PacketParser} {acc : List UInt8} {st : PacketParser × List UInt8}
    {e : Int} (h : endByte p acc = .stop st e ∨ endByte p acc = .refuse e) : e = 1 := by
  unfold endByte at h
  split at h <;> rcases h with h | h <;> cases h
  rfl

theorem parseByte_code {st st' : PacketParser × List UInt8} {b : UInt8} {e : Int}
    (h : parseByte st b = .stop st' e ∨ parseByte st b = .refuse e) :
    e = 1 ∨ e = Code.invalidSequenceId.toInt := by
  obtain ⟨p, acc⟩ := st
  cases hs : p.state with
  | len0 | len1 | len2 =>
    simp only [parseByte, hs] at h
    rcases h with h | h <;> cases h
  | seq =>
    simp only [parseByte, hs] at h
    split at h
    · rcases h with h | h <;> cases h
      exact .inr rfl
    · split at h
      · exact .inl (endByte_code h)
      · rcases h with h | h <;> cases h
  | payload =>
    simp only [parseByte, hs] at h
    split at h
    · exact .inl (endByte_code h)
    · rcases h with h | h <;> cases h

/-- A machine stops at the end of a packet, or refuses a sequence id. -/
theorem feed_code {st st' : PacketParser × List UInt8} {input rest : List UInt8} {e : Int}
    (h : feed parseByte st input = (st', some e, rest)) :
    e = 1 ∨ e = Code.invalidSequenceId.toInt := by
  induction input generalizing st with
  | nil => cases h
  | cons b bs ih =>
    cases es : parseByte st b with
    | next t =>
      rw [feed_next es] at h
      exact ih h
    | stop t o =>
      rw [feed_stop es] at h
      cases h
      exact parseByte_code (.inl es)
    | refuse o =>
      rw [feed_refuse es] at h
      cases h
      exact @parseByte_code _ st' _ _ (.inr es)

/-- Outside a packet, what the packet buffer holds makes no difference. -/
theorem parseByte_fresh {p : PacketParser} (hp : ¬ Growing p) (acc acc' : List UInt8) (b : UInt8) :
    ∃ q a a', parseByte (p, acc) b = .next (q, a) ∧ parseByte (p, acc') b = .next (q, a') ∧
      (Growing q → a = a') := by
  simp only [Growing, not_or] at hp
  obtain ⟨hf, hseq, hpay⟩ := hp
  cases hs : p.state with
  | len0 | len1 =>
    simp only [parseByte, hs]
    refine ⟨_, acc, acc', rfl, rfl, fun hg => ?_⟩
    simp [Growing, hf] at hg
  | len2 =>
    simp only [parseByte, hs, if_neg hf]
    exact ⟨_, [], [], rfl, rfl, fun _ => rfl⟩
  | seq => exact absurd hs hseq
  | payload => exact absurd hs hpay

theorem feed_fresh {p : PacketParser} {acc acc' : List UInt8} (h : Growing p → acc = acc')
    (input : List UInt8) :
    ∃ st st' o rest, feed parseByte (p, acc) input = (st, o, rest) ∧
      feed parseByte (p, acc') input = (st', o, rest) ∧ (o ≠ none → st = st') := by
  induction input generalizing p acc acc' with
  | nil => exact ⟨_, _, none, [], rfl, rfl, fun h => absurd rfl h⟩
  | cons b bs ih =>
    by_cases hg : Growing p
    · rw [h hg]
      exact ⟨_, _, _, _, rfl, rfl, fun _ => rfl⟩
    · obtain ⟨q, a, a', e, e', ha⟩ := parseByte_fresh hg acc acc' b
      rw [feed_next e, feed_next e']
      exact ih ha

end PacketParser

namespace Conn

variable {alloc : Alloc} {n n₁ n₂ : Nat} {c c₁ c₂ : Conn} {o : Option Int}
  {st st₁ st₂ : PacketParser × List UInt8} {rest : List UInt8}

/-- What `k` calls return, other than `TRILOGY_AGAIN`, each with the contents of
the packet buffer then. -/
def results (alloc : Alloc) : Nat → Conn → List (Except Code Unit × List UInt8) × Conn
  | 0, c => ([], c)
  | k + 1, c =>
    let r := readPacket alloc c
    let more := results alloc k r.2
    if r.1 = .error .again then more else ((r.1, r.2.packet_buffer.bytes) :: more.1, more.2)

/-- Nothing fails, and the packet buffer has room for all that is pending. -/
structure Streaming (alloc : Alloc) (n : Nat) (c : Conn) (o : Option Int)
    (st : PacketParser × List UInt8) (rest : List UInt8) : Prop where
  ready : Ready alloc n c
  run : Ends c o st rest
  fits : Fits n c
  room : st.2.length + rest.length ≤ n

theorem Streaming.of_room (ready : Ready alloc n c)
    (room : c.packet_buffer.len + c.pending.length ≤ n) (run : Ends c o st rest) :
    Streaming alloc n c o st rest :=
  ⟨ready, run, PacketParser.fits_of_length room, (PacketParser.feed_length run).trans room⟩

theorem Streaming.stopped {e : Int} (h : Streaming alloc n c (some e) st rest) {c' : Conn}
    (h' : Stopped alloc n c st rest c') :
    Streaming alloc n c' (feed PacketParser.parseByte st rest).2.1
      (feed PacketParser.parseByte st rest).1 (feed PacketParser.parseByte st rest).2.2 := by
  refine .of_room h'.ready ?_ (by rw [Ends, h'.machine, h'.pending])
  have hlen : c'.packet_buffer.len = st.2.length := by rw [← h'.machine]; rfl
  rw [hlen, h'.pending]
  exact h.room

theorem outcome_ne_again {e : Int} (h : Ends c (some e) st rest) : outcome e ≠ .error .again := by
  rcases PacketParser.feed_code h with rfl | rfl <;> decide

theorem results_succ_stop {r : Except Code Unit} {c' : Conn} (h : readPacket alloc c = (r, c'))
    (hr : r ≠ .error .again) (k : Nat) : (results alloc (k + 1) c).1 =
      (r, c'.packet_buffer.bytes) :: (results alloc k c').1 := by
  rw [results]
  simp only [h, if_neg hr]

theorem results_succ_again {c' : Conn} (h : readPacket alloc c = (.error .again, c')) (k : Nat) :
    results alloc (k + 1) c = results alloc k c' := by
  rw [results]
  simp only [h, if_true]

theorem results_returns {r : Except Code Unit} {c' : Conn}
    (h : Returns .again (readPacket alloc) c r c') :
    ∃ j, ∀ k, (results alloc (k + j) c).1 =
      (r, c'.packet_buffer.bytes) :: (results alloc k c').1 := by
  induction h with
  | stop e hr => exact ⟨1, fun k => results_succ_stop e hr k⟩
  | again e _ ih =>
    obtain ⟨j, hj⟩ := ih
    exact ⟨j + 1, fun k => by rw [← Nat.add_assoc, results_succ_again e, hj k]⟩

/-- What one connection gets the other gets, sooner or later. -/
theorem results_initial (h₁ : Streaming alloc n₁ c₁ o st₁ rest)
    (h₂ : Streaming alloc n₂ c₂ o st₂ rest) (same : o ≠ none → st₁ = st₂) (k : Nat) :
    ∃ m, (results alloc k c₁).1 <+: (results alloc m c₂).1 := by
  induction k generalizing c₁ c₂ o st₁ st₂ rest with
  | zero => exact ⟨0, List.nil_prefix⟩
  | succ k ih =>
    obtain ⟨e, c₁', rfl, hcall, hstop⟩ | ⟨c₁', hcall, -, hwait⟩ :=
      readPacket_step h₁.ready h₁.run h₁.fits
    · have he := outcome_ne_again h₁.run
      have hst := same (Option.some_ne_none e)
      subst hst
      obtain ⟨c₂', hreturns, hstop'⟩ := readPacket_returns h₂.ready h₂.run h₂.fits he
      obtain ⟨m, hm⟩ := ih (h₁.stopped hstop) (h₂.stopped hstop') fun _ => rfl
      obtain ⟨j, hj⟩ := results_returns hreturns
      have hbytes : c₁'.packet_buffer.bytes = c₂'.packet_buffer.bytes :=
        congrArg Prod.snd (hstop.machine.trans hstop'.machine.symm)
      refine ⟨m + j, ?_⟩
      rw [results_succ_stop hcall he, hj, hbytes]
      exact (List.prefix_cons_inj _).mpr hm
    · rw [results_succ_again hcall]
      exact ih ⟨hwait.ready, hwait.run, hwait.fits, h₁.room⟩ h₂ same

theorem sockRead_length {n : Nat} {sock sock' : Sock} {bytes : List UInt8}
    (h : Sock.read n sock = (.ok bytes, sock')) : bytes.length ≤ n := by
  unfold Sock.read at h
  split at h
  · unfold Sock.rawRead at h
    split at h <;> cases h
    exact List.length_take_le _ _
  · unfold Sock.sslRead at h
    split at h <;> cases h
    exact List.length_take_le _ _
  · cases h

theorem readPacket_size (h : c.recv_buff.length ≤ defaultBufSize) :
    (readPacket alloc c).2.recv_buff.length ≤ defaultBufSize := by
  have hrefill : (refill c).2.recv_buff.length ≤ defaultBufSize := by
    rw [refill, Proc.get_bind]
    split
    · rcases hread : Sock.read defaultBufSize c.socket with ⟨rc | bytes, socket⟩
      · rw [Proc.bind_of_error (onSocket_read hread)]
        exact h
      · rw [Proc.bind_of_ok (onSocket_read hread)]
        split
        · exact h
        · exact sockRead_length hread
    · exact h
  have hexecute : ∀ c : Conn, (execute alloc c).2.recv_buff = c.recv_buff := by
    intro c
    unfold execute
    simp only
    split
    · rfl
    · split <;> rfl
  rw [readPacket, Proc.bind_apply]
  rcases e : refill c with ⟨rc | _, c'⟩
  · rw [e] at hrefill
    exact hrefill
  · rw [e] at hrefill
    simp only [hexecute]
    exact hrefill

theorem results_streaming (h : Streaming alloc n c o st rest)
    (size : c.recv_buff.length ≤ defaultBufSize) (k : Nat) :
    (∃ o st rest, Streaming alloc n (results alloc k c).2 o st rest) ∧
      (results alloc k c).2.recv_buff.length ≤ defaultBufSize := by
  induction k generalizing c o st rest with
  | zero => exact ⟨⟨o, st, rest, h⟩, size⟩
  | succ k ih =>
    have hsize := @readPacket_size alloc c size
    obtain ⟨e, c', rfl, hcall, hstop⟩ | ⟨c', hcall, -, hwait⟩ :=
      readPacket_step h.ready h.run h.fits
    · rw [hcall] at hsize
      have := ih (h.stopped hstop) hsize
      rw [results]
      simpa only [hcall, if_neg (outcome_ne_again h.run)] using this
    · rw [hcall] at hsize
      rw [results_succ_again hcall]
      exact ih ⟨hwait.ready, hwait.run, hwait.fits, h.room⟩ hsize

/-- Told to wait, the caller has got all there was in the buffer. -/
theorem Streaming.drained {c' : Conn} (h : Streaming alloc n c o st rest)
    (again : readPacket alloc c = (.error .again, c')) :
    c'.recv_buff_pos = c'.recv_buff.length := by
  obtain ⟨e, c₁, rfl, hcall, -⟩ | ⟨c₁, hcall, -, hwait⟩ := readPacket_step h.ready h.run h.fits
  · rw [hcall] at again
    exact absurd (congrArg Prod.fst again) (outcome_ne_again h.run)
  · rw [hcall] at again
    cases again
    exact (unread_eq_nil hwait.ready.pos_le).mp hwait.unread

/-- Nothing that was read is left over, and nothing is going to fail: reads
deliver bytes or ask to be called again, and the packet buffer can grow to hold
all of them. The parser is as it is between two calls. -/
structure Fresh (alloc : Alloc) (c : Conn) : Prop where
  calm : c.socket.Calm
  empty : c.recv_buff_pos = c.recv_buff.length
  size : c.recv_buff.length ≤ defaultBufSize
  steady : PacketParser.Steady c.packetParser
  grow : Buffer.Grows alloc c.packet_buffer.cap
    (c.packet_buffer.len + c.socket.incoming.length)

theorem Fresh.pending (h : Fresh alloc c) : c.pending = c.socket.incoming := by
  rw [Conn.pending, (unread_eq_nil h.empty.le).mpr h.empty, List.nil_append]

theorem Fresh.streaming (h : Fresh alloc c) (run : Ends c o st rest) :
    Streaming alloc (c.packet_buffer.len + c.socket.incoming.length) c o st rest :=
  .of_room ⟨h.calm, h.empty.le, h.steady, h.grow⟩ (by rw [h.pending]) run

end Conn

open Conn

/-- Two schedules for the same bytes: the results are the same, the receive
buffer stays within its bounds, and it is empty whenever the caller has to wait. -/
theorem arrival_independent {alloc : Alloc} {c₁ c₂ : Conn} (h₁ : Fresh alloc c₁)
    (h₂ : Fresh alloc c₂) (stream : c₁.socket.incoming = c₂.socket.incoming)
    (parser : c₁.packetParser = c₂.packetParser)
    (buffer : PacketParser.Growing c₁.packetParser →
      c₁.packet_buffer.bytes = c₂.packet_buffer.bytes) (k : Nat) :
    (∃ m, (results alloc k c₁).1 <+: (results alloc m c₂).1) ∧
    (∃ m, (results alloc k c₂).1 <+: (results alloc m c₁).1) ∧
    (results alloc k c₁).2.recv_buff_pos ≤ (results alloc k c₁).2.recv_buff.length ∧
    (results alloc k c₁).2.recv_buff.length ≤ defaultBufSize ∧
    ∀ c, readPacket alloc (results alloc k c₁).2 = (.error .again, c) →
      c.recv_buff_pos = c.recv_buff.length := by
  obtain ⟨st₁, st₂, o, rest, run₁, run₂, same⟩ :=
    PacketParser.feed_fresh buffer c₁.socket.incoming
  have run₁ : Ends c₁ o st₁ rest := by
    rw [Ends, h₁.pending]
    exact run₁
  have run₂ : Ends c₂ o st₂ rest := by
    rw [Ends, h₂.pending, ← stream, machine, ← parser]
    exact run₂
  obtain ⟨⟨o', st', rest', hstreaming⟩, hsize⟩ := results_streaming (h₁.streaming run₁) h₁.size k
  exact ⟨results_initial (h₁.streaming run₁) (h₂.streaming run₂) same k,
    results_initial (h₂.streaming run₂) (h₁.streaming run₁) (fun ho => (same ho).symm) k,
    hstreaming.ready.pos_le, hsize, fun c => hstreaming.drained⟩

theorem fresh_reading {reads : List RawRead} (calm : ∀ read ∈ reads, read.Calm)
    (small : (reads.flatMap RawRead.bytes).length ≤ 2 ^ 63) :
    Fresh (fun _ => true) (Conn.init (readingSock reads)) where
  calm := calm
  empty := rfl
  size := Nat.zero_le _
  steady := ⟨by simp [Conn.init, PacketParser.init], rfl⟩
  grow := Buffer.grows_of_alloc (fun _ => rfl) _ (by
    change 0 + (reads.flatMap RawRead.bytes).length ≤ _
    omega)

theorem arrival_independent_cut :
    let c₁ := Conn.init (readingSock [.data [1, 0, 0, 0, 7]])
    let c₂ := Conn.init (readingSock [.data [1], .failed .eagain, .data [0, 0, 0, 7]])
    (∃ m, (results (fun _ => true) 1 c₁).1 <+: (results (fun _ => true) m c₂).1) ∧
    (∃ m, (results (fun _ => true) 1 c₂).1 <+: (results (fun _ => true) m c₁).1) ∧
    (results (fun _ => true) 1 c₁).2.recv_buff_pos ≤
      (results (fun _ => true) 1 c₁).2.recv_buff.length ∧
    (results (fun _ => true) 1 c₁).2.recv_buff.length ≤ defaultBufSize ∧
    ∀ c, readPacket (fun _ => true) (results (fun _ => true) 1 c₁).2 = (.error .again, c) →
      c.recv_buff_pos = c.recv_buff.length :=
  arrival_independent
    (@fresh_reading [.data [1, 0, 0, 0, 7]] (by simp [RawRead.Calm]) (by decide))
    (@fresh_reading [.data [1], .failed .eagain, .data [0, 0, 0, 7]]
      (by simp [RawRead.Calm, Sock.rawReadError]) (by decide)) rfl rfl (fun _ => rfl) 1

end Trilogy
