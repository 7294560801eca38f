import Trilogy.Calls
import Trilogy.Sequence

/-! `upgradeSsl` swaps the callbacks of the socket and knows nothing of `recv_buff`,
which belongs to the connection. From then on the socket delivers what TLS reads
return; the parser gets just that, provided that nothing read before is left. -/
namespace Trilogy

open Lib Proc

/-- The entry a read leaves in the history. -/
def fetched : Io → Except Code (List UInt8) → List (Channel × List UInt8)
  | .raw, .ok got => [(.plain, got)]
  | .ssl, .ok got => [(.tls, got)]
  | _, _ => []

theorem sockRead_received {n : Nat} {sock sock' : Sock} {r : Except Code (List UInt8)}
    (h : Sock.read n sock = (r, sock')) :
    sock'.io = sock.io ∧ sock'.received = sock.received ++ fetched sock.io r := by
  unfold Sock.read at h
  cases hio : sock.io with
  | raw =>
    simp only [hio, Sock.rawRead] at h
    split at h
    · cases h
      exact ⟨hio, (List.append_nil _).symm⟩
    · cases h
      exact ⟨rfl, (List.append_nil _).symm⟩
    · cases h
      exact ⟨rfl, rfl⟩
  | ssl =>
    simp only [hio, Sock.sslRead] at h
    split at h
    · cases h
      exact ⟨hio, (List.append_nil _).symm⟩
    · cases h
      exact ⟨rfl, (List.append_nil _).symm⟩
    · cases h
      exact ⟨rfl, rfl⟩
  | shutdown =>
    simp only [hio] at h
    cases h
    exact ⟨hio, (List.append_nil _).symm⟩

/-- Between the two the socket returned `reads`, and they went where they should:
what was parsed and what is left to parse grow by the bytes in there. -/
structure Reading (c c' : Conn) (reads : List (Channel × List UInt8)) : Prop where
  received : c'.socket.received = c.socket.received ++ reads
  parsed : c.parsed <+: c'.parsed
  bytes : c'.parsed ++ c'.unread = c.parsed ++ c.unread ++ reads.flatMap (·.2)
  covered : c.socket.io ≠ .raw → c'.socket.io ≠ .raw ∧ ∀ read ∈ reads, read.1 = .tls

def Reads (c c' : Conn) : Prop := ∃ reads, Reading c c' reads

theorem Reading.refl (c : Conn) : Reading c c [] :=
  ⟨by simp, List.prefix_rfl, by simp, fun h => ⟨h, by simp⟩⟩

theorem Reading.trans {a b c : Conn} {reads reads' : List (Channel × List UInt8)}
    (h : Reading a b reads) (h' : Reading b c reads') : Reading a c (reads ++ reads') := by
  constructor
  · rw [h'.received, h.received, List.append_assoc]
  · exact h.parsed.trans h'.parsed
  · rw [h'.bytes, h.bytes, List.flatMap_append, List.append_assoc]
  · intro covered
    obtain ⟨hb, hreads⟩ := h.covered covered
    obtain ⟨hc, hreads'⟩ := h'.covered hb
    exact ⟨hc, fun read hmem => (List.mem_append.mp hmem).elim (hreads read) (hreads' read)⟩

instance : Std.Refl Reads := ⟨fun c => ⟨[], .refl c⟩⟩

instance : IsTrans Conn Reads where
  trans := by
    rintro a b c ⟨reads, h⟩ ⟨reads', h'⟩
    exact ⟨reads ++ reads', h.trans h'⟩

/-- Nothing was read. -/
theorem reads_of_same {c c' : Conn} (received : c'.socket.received = c.socket.received)
    (bytes : c'.parsed ++ c'.unread = c.parsed ++ c.unread) (parsed : c.parsed <+: c'.parsed)
    (io : c.socket.io ≠ .raw → c'.socket.io ≠ .raw) : Reads c c' := by
  refine ⟨[], ?_, parsed, ?_, ?_⟩
  · rw [received, List.append_nil]
  · rw [bytes, List.flatMap_nil, List.append_nil]
  · intro covered
    exact ⟨io covered, by simp⟩

namespace Conn

theorem reads_refill : Keeps Reads refill := by
  intro c
  rw [refill, get_bind]
  by_cases hpos : c.recv_buff_pos = c.recv_buff.length
  · rw [if_pos hpos]
    have hunread : c.unread = [] := by rw [unread, hpos, List.drop_length]
    rcases hread : Sock.read defaultBufSize c.socket with ⟨rc | bytes, socket⟩
    · have hrun : onSocket (Sock.read defaultBufSize) c = (.error rc, { c with socket }) := by
        rw [onSocket, zoom_apply, hread]
      obtain ⟨hio, hreceived⟩ := sockRead_received hread
      rw [bind_of_error hrun]
      have hnone : fetched c.socket.io (.error rc) = [] := by cases c.socket.io <;> rfl
      apply reads_of_same
      · exact hreceived.trans (by rw [hnone, List.append_nil])
      · rfl
      · exact List.prefix_rfl
      · intro covered
        exact hio ▸ covered
    · have hrun : onSocket (Sock.read defaultBufSize) c = (.ok bytes, { c with socket }) := by
        rw [onSocket, zoom_apply, hread]
      obtain ⟨hio, hreceived⟩ := sockRead_received hread
      rw [bind_of_ok hrun]
      refine ⟨fetched c.socket.io (.ok bytes), ?_⟩
      have hsocket : (fetched c.socket.io (.ok bytes)).flatMap (·.2) = bytes := by
        cases hraw : c.socket.io with
        | raw | ssl => simp [fetched]
        | shutdown => simp [Sock.read, hraw] at hread
      have hcovered : c.socket.io ≠ .raw →
          socket.io ≠ .raw ∧ ∀ read ∈ fetched c.socket.io (.ok bytes), read.1 = .tls := by
        intro covered
        refine ⟨hio ▸ covered, ?_⟩
        cases hraw : c.socket.io with
        | raw => exact absurd hraw covered
        | ssl | shutdown => simp [fetched]
      by_cases hnil : bytes.length = 0
      · rw [if_pos hnil]
        refine ⟨hreceived, List.prefix_rfl, ?_, hcovered⟩
        rw [hsocket, List.eq_nil_of_length_eq_zero hnil, List.append_nil]
        rfl
      · rw [if_neg hnil]
        refine ⟨hreceived, List.prefix_rfl, ?_, hcovered⟩
        rw [hsocket, hunread, List.append_nil]
        rfl
  · rw [if_neg hpos]
    exact Std.Refl.refl c

theorem reads_execute (alloc : Alloc) : Keeps Reads (execute alloc) := by
  intro c
  have hconsume : ∀ r : Executed Buffer, Reads c (c.consume r) := by
    intro r
    apply reads_of_same
    · rfl
    · rw [consume_unread]
      change c.parsed ++ c.unread.take r.consumed ++ c.unread.drop r.consumed = _
      rw [List.append_assoc, List.take_append_drop]
    · exact List.prefix_append _ _
    · exact id
  unfold execute
  simp only
  split
  · exact hconsume _
  · split
    · exact hconsume _
    · exact hconsume _

/-- What a call does to the socket besides reading. -/
theorem reads_onSocket {α : Type} {m : Proc Code Sock α}
    (h : ∀ sock, (m sock).2.received = sock.received ∧
      (sock.io ≠ .raw → (m sock).2.io ≠ .raw)) : Keeps Reads (onSocket m) := by
  intro c
  apply reads_of_same
  · exact (h c.socket).1
  · rfl
  · exact List.prefix_rfl
  · exact (h c.socket).2

end Conn

theorem reads_callRel (alloc : Alloc) : CallRel alloc Reads where
  refill := Conn.reads_refill
  execute := Conn.reads_execute alloc
  same c c' h := by
    apply reads_of_same
    · rw [h.socket]
    · rw [Conn.unread, Conn.unread, h.parsed, h.recv_buff, h.recv_buff_pos]
    · exact h.parsed ▸ List.prefix_rfl
    · rw [h.socket]
      exact id
  write data nwrite := by
    apply Conn.reads_onSocket
    intro sock
    unfold Sock.write Sock.rawWrite Sock.sslWrite
    split
    · split <;> exact ⟨rfl, id⟩
    · split <;> exact ⟨rfl, id⟩
    · exact ⟨rfl, id⟩
  wait := by
    apply Conn.reads_onSocket
    intro sock
    unfold Sock.wait
    split
    · exact ⟨rfl, id⟩
    · split <;> exact ⟨rfl, id⟩
  shutdown := Conn.reads_onSocket fun _ => ⟨rfl, fun _ => by rintro ⟨⟩⟩
  password c _ := reads_of_same rfl rfl List.prefix_rfl id

theorem Run.reads {alloc : Alloc} {digests : Digests} {c c' : Conn}
    {trace : List (Call × Except Code Decoded)}
    (run : Run alloc digests (fun _ call => ¬ call.Attaches) c trace c') : Reads c c' := by
  induction run with
  | nil c => exact Std.Refl.refl c
  | @cons c call r c₁ trace c₂ ok h rest ih =>
    have hstep := Call.keeps (reads_callRel alloc) digests ok
      (fun _ c _ => reads_of_same rfl rfl List.prefix_rfl id) c
    rw [h] at hstep
    exact IsTrans.trans _ _ _ hstep ih

theorem upgradeSsl_ok {sock sock' : Sock} (h : Sock.upgradeSsl sock = (.ok (), sock')) :
    sock'.io = .ssl := by
  obtain ⟨_, sock₁, -, h⟩ := bind_ok.mp h
  rw [get_bind] at h
  split at h
  · cases h
  · split at h
    · cases h
    · obtain ⟨_, sock₂, -, h⟩ := bind_ok.mp h
      cases h
      rfl

/-- All that was parsed in between came from TLS reads in between. -/
def ParsedFromTls (c c' : Conn) : Prop :=
  ∃ parsed reads, c'.parsed = c.parsed ++ parsed ∧
    c'.socket.received = c.socket.received ++ reads ∧ (∀ read ∈ reads, read.1 = .tls) ∧
    parsed <+: reads.flatMap (·.2)

/-- Whatever is called after an upgrade, and whatever came before it: the parser
gets no byte that TLS did not return, provided that all the bytes read before
were parsed before. -/
theorem parsedFromTls {alloc : Alloc} {digests : Digests} {c c₁ c' : Conn}
    {trace : List (Call × Except Code Decoded)}
    (exhausted : c.recv_buff_pos = c.recv_buff.length)
    (upgrade : Conn.onSocket Sock.upgradeSsl c = (.ok (), c₁))
    (run : Run alloc digests (fun _ call => ¬ call.Attaches) c₁ trace c') :
    ParsedFromTls c₁ c' := by
  obtain ⟨sock, hupgrade, hc₁⟩ : ∃ sock, Sock.upgradeSsl c.socket = (.ok (), sock) ∧
      c₁ = { c with socket := sock } := by
    refine ⟨_, ends (congrArg Prod.fst upgrade), ?_⟩
    exact (congrArg Prod.snd upgrade).symm
  have hio := upgradeSsl_ok hupgrade
  have hunread : c₁.unread = [] := by
    rw [hc₁]
    change c.recv_buff.drop c.recv_buff_pos = []
    rw [exhausted, List.drop_length]
  obtain ⟨reads, h⟩ := run.reads
  obtain ⟨parsed, hparsed⟩ := h.parsed
  have hbytes := h.bytes
  rw [hunread, List.append_nil, ← hparsed, List.append_assoc] at hbytes
  refine ⟨parsed, reads, hparsed.symm, h.received, ?_, c'.unread, List.append_cancel_left hbytes⟩
  exact (h.covered (by rw [hc₁]; simp [hio])).2

/-- The payload of a handshake: version 8, `caching_sha2_password`. -/
def helloBytes : List UInt8 :=
  [0x0a, 0x38, 0, 1, 0, 0, 0] ++ List.replicate 8 0x61 ++ [0, 0x00, 0xaa, 0xff, 2, 0, 0x88, 0, 21] ++
    List.replicate 10 0 ++ List.replicate 12 0x62 ++ [0] ++ cachingSha2Password ++ [0]

def hello : Handshake :=
  match parse (parseHandshakePacket default) helloBytes with
  | .ok handshake => handshake
  | .error _ => default

/-- A server that delivers these reads and accepts all that is written, with and
without TLS. -/
def willingNet (raw_reads : List RawRead) (tls_reads : List TlsRead) : Net :=
  { idleSock.net with
    unix_connect := true
    raw_reads
    tls_reads
    raw_writes := [.wrote 1000, .wrote 1000]
    tls_writes := [.wrote 1000]
    ssl_setups := [true]
    ssl_connects := [.done] }

/-- The greeting was read and parsed to its end; what answers the response comes over TLS,
in two pieces. -/
def greetedConn : Conn :=
  (replay (fun _ => true) noDigests
    [.connectSend idleSock.opts (willingNet
        [.data (header helloBytes.length 0 ++ helloBytes)]
        [.data 7 [0, 0, 3, 0], .data 0 [0, 2, 0, 0, 0]]),
      .connectRecv default, .sslRequestSend]
    (Conn.init idleSock)).2

def securedConn : Conn := (Conn.onSocket Sock.upgradeSsl greetedConn).2

theorem parsedFromTls_auth :
    securedConn.parsed = header helloBytes.length 0 ++ helloBytes ∧
      (replay (fun _ => true) noDigests
          [.authSend hello, .authRecv default default, .authRecv default default]
          securedConn).1.map Prod.snd = [.ok .done, .error .again, .ok .done] ∧
      (replay (fun _ => true) noDigests
          [.authSend hello, .authRecv default default, .authRecv default default]
          securedConn).2.parsed = securedConn.parsed ++ [7, 0, 0, 3, 0, 0, 0, 2, 0, 0, 0] ∧
      ParsedFromTls securedConn
        (replay (fun _ => true) noDigests
          [.authSend hello, .authRecv default default, .authRecv default default]
          securedConn).2 := by
  refine ⟨by decide +kernel, by decide +kernel, by decide +kernel, ?_⟩
  have hupgrade : Conn.onSocket Sock.upgradeSsl greetedConn = (.ok (), securedConn) :=
    ends (by decide +kernel)
  have hcalls : ∀ call ∈ [Call.authSend hello, .authRecv default default, .authRecv default default],
      ¬ call.Attaches := by simp [Call.Attaches]
  exact parsedFromTls (by decide +kernel) hupgrade (run_replay hcalls _)

/-- The handshake and, in the same read, the reply to a handshake response that is
yet to come. -/
def injectedReads : List RawRead :=
  [.data (header helloBytes.length 0 ++ helloBytes ++ (header 7 3 ++ [0, 0, 0, 2, 0, 0, 0]))]

/-- The calls up to the upgrade, and from then on. -/
def openingCalls : List Call :=
  [.connectSend idleSock.opts (willingNet injectedReads []), .connectRecv default, .sslRequestSend]

def authCalls : List Call := [.authSend hello, .authRecv default default]

def openedConn : Conn := (replay (fun _ => true) noDigests openingCalls (Conn.init idleSock)).2

def injectedConn : Conn := (Conn.onSocket Sock.upgradeSsl openedConn).2

/-- The reply that came in plain text is taken for the one to the handshake
response, while TLS has delivered nothing. -/
theorem parsedFromTls_fails :
    ∃ before c c₁ after c', Run (fun _ => true) noDigests (fun _ _ => True)
        (Conn.init idleSock) before c ∧
      Conn.onSocket Sock.upgradeSsl c = (.ok (), c₁) ∧
      Run (fun _ => true) noDigests (fun _ call => ¬ call.Attaches) c₁ after c' ∧
      after.map (·.2) = [.ok .done, .ok .done] ∧ c'.socket.received = c₁.socket.received ∧
      ¬ ParsedFromTls c₁ c' := by
  have hupgrade : Conn.onSocket Sock.upgradeSsl openedConn = (.ok (), injectedConn) :=
    ends (by decide +kernel)
  have hcalls : ∀ call ∈ authCalls, ¬ call.Attaches := by simp [authCalls, Call.Attaches]
  refine ⟨_, openedConn, injectedConn, _, _, @run_replay _ _ (fun _ => True)
    _ (fun _ _ => trivial) _, hupgrade, run_replay hcalls _, by decide +kernel, ?_⟩
  have hreceived : (replay (fun _ => true) noDigests authCalls injectedConn).2.socket.received =
      injectedConn.socket.received := by
    decide +kernel
  refine ⟨hreceived, ?_⟩
  rintro ⟨parsed, reads, hparsed, hreads, -, hinitial⟩
  have hnone : reads = [] := List.append_cancel_left
    ((hreads.symm.trans hreceived).trans (List.append_nil _).symm)
  rw [hnone, List.flatMap_nil, List.prefix_nil] at hinitial
  rw [hinitial, List.append_nil] at hparsed
  have hlength : (replay (fun _ => true) noDigests authCalls injectedConn).2.parsed.length ≠
      injectedConn.parsed.length := by
    decide +kernel
  exact hlength (by rw [hparsed])

end Trilogy
