import Trilogy.Answers

namespace Trilogy

open Lib Proc

/-- A command and what is said to it. -/
structure Exchange where
  command : Command
  answer : Answer

namespace Exchange

/-- What the client sends. -/
def request (x : Exchange) : List UInt8 := frames 0 x.command.payload

/-- What the server sends. -/
def response (capabilities : UInt32) (x : Exchange) : List UInt8 :=
  stream x.command.reply (x.answer.packets capabilities)

/-- The calls, with what they return. -/
def trace (x : Exchange) : List (BlockingCall × Except Code Decoded) := x.answer.trace x.command

/-- The client can ask for this, and the server can answer so. -/
structure Proper (c : Conn) (x : Exchange) : Prop where
  buildable : x.command.Buildable c
  legal : x.answer.Legal c.capabilities x.command
  fits : ∀ p ∈ x.answer.packets c.capabilities, p.length ≤ Conn.longestPacket

end Exchange

open Conn

/-- One exchange after the other: the calls return what they should, and the
connection keeps what it was learnt. -/
inductive Conversed (alloc : Alloc) : Conn → List Exchange → Conn → Prop
  | nil (c : Conn) : Conversed alloc c [] c
  | cons {c x c₁ xs c'} (calls : Retries alloc c x.trace c₁) (learnt : Learnt c x.answer c₁)
      (rest : Conversed alloc c₁ xs c') : Conversed alloc c (x :: xs) c'

theorem Conversed.retries {alloc : Alloc} {c c' : Conn} {exchanges : List Exchange}
    (h : Conversed alloc c exchanges c') :
    Retries alloc c (exchanges.flatMap Exchange.trace) c' := by
  induction h with
  | nil c => exact .nil c
  | cons calls _ _ ih => exact calls.append ih

theorem Conn.Flushed.unique {send : Proc Code Conn Unit} {c c' c'' : Conn} {r r' : Except Code Unit}
    (h : Flushed send c r c') (h' : Flushed send c r' c'') : r = r' ∧ c' = c'' := by
  cases h with
  | atOnce e hr =>
    cases h' with
    | atOnce e' _ =>
      rw [e] at e'
      cases e'
      exact ⟨rfl, rfl⟩
    | later e' _ =>
      rw [e] at e'
      cases e'
      exact absurd rfl hr
  | later e hreturns =>
    cases h' with
    | atOnce e' hr' =>
      rw [e] at e'
      cases e'
      exact absurd rfl hr'
    | later e' hreturns' =>
      rw [e] at e'
      cases e'
      exact hreturns.unique hreturns'

theorem Conn.Answered.unique {α : Type} {send : Proc Code Conn Unit} {recv : Proc Code Conn α}
    {c c' c'' : Conn} {r r' : Except Code α} (h : Answered send recv c r c')
    (h' : Answered send recv c r' c'') : r = r' ∧ c' = c'' := by
  cases h with
  | refused flushed =>
    cases h' with
    | refused flushed' =>
      obtain ⟨he, rfl⟩ := flushed.unique flushed'
      cases he
      exact ⟨rfl, rfl⟩
    | received flushed' _ => cases (flushed.unique flushed').1
  | received flushed returns =>
    cases h' with
    | refused flushed' => cases (flushed.unique flushed').1
    | received flushed' returns' =>
      obtain ⟨-, rfl⟩ := flushed.unique flushed'
      exact returns.unique returns'

theorem Retries.unique {alloc : Alloc} {c c' c'' : Conn}
    {trace trace' : List (BlockingCall × Except Code Decoded)} (h : Retries alloc c trace c')
    (h' : Retries alloc c trace' c'') (same : trace'.map Prod.fst = trace.map Prod.fst) :
    trace' = trace := by
  induction h generalizing trace' with
  | nil c => exact List.map_eq_nil_iff.mp same
  | cons first _ ih =>
    cases h' with
    | nil => cases same
    | cons first' rest' =>
      obtain ⟨hcall, hrest⟩ := List.cons.inj same
      dsimp only at hcall
      subst hcall
      obtain ⟨rfl, rfl⟩ := first.unique first'
      rw [ih rest' hrest]

namespace OnlyRead

variable {sock sock' : Sock}

theorem takes (h : OnlyRead sock sock') (takes : sock.Takes) : sock'.Takes := by
  obtain ⟨raw_reads, tls_reads, hnet⟩ := h.net
  rw [Sock.Takes] at takes ⊢
  rw [h.io, hnet]
  exact takes

theorem capacity (h : OnlyRead sock sock') : sock'.capacity = sock.capacity := by
  obtain ⟨raw_reads, tls_reads, hnet⟩ := h.net
  rw [Sock.capacity, Sock.capacity, h.io, hnet]

theorem sentBytes (h : OnlyRead sock sock') : sock'.sentBytes = sock.sentBytes := by
  rw [Sock.sentBytes, Sock.sentBytes, h.sent]

end OnlyRead

section

variable {alloc : Alloc} {c : Conn} {rest : List UInt8}

theorem Conn.Facing.resting {n : Nat} (h : Facing alloc n c [] rest) (takes : c.socket.Takes) :
    Resting c rest where
  calm := h.ready.calm
  takes := takes
  pos_le := h.ready.pos_le
  steady := h.ready.steady
  boundary := h.boundary
  whole := h.whole
  pending := h.pending

theorem Command.call_stays (command : Command) : command.call ≠ .close := by
  cases command <;> simp [Command.call]

/-- The connection at the end of an exchange. -/
structure Exchanged (x : Exchange) (rest : List UInt8) (c c' : Conn) : Prop where
  learnt : Learnt c x.answer c'
  resting : Resting c' rest
  sent : c'.socket.sentBytes = c.socket.sentBytes ++ x.request
  capacity : c.socket.capacity ≤ c'.socket.capacity + x.request.length
  capabilities : c'.capabilities = c.capabilities
  opts : c'.socket.opts = c.socket.opts

/-- The parts of an exchange: the request, the first call and the calls after it. -/
theorem exchange_parts (always : ∀ c, alloc c = true) {x : Exchange} (proper : x.Proper c)
    (h : Resting c (x.response c.capabilities ++ rest))
    (room : x.request.length ≤ c.socket.capacity) :
    ∃ c₀ c₁ c', Flushed (x.command.call.request alloc) c (.ok ()) c₀ ∧
      Returns .again (x.command.call.response alloc) c₀ x.answer.first c₁ ∧
      Receives alloc c₁ (x.answer.more x.command) c' ∧ Exchanged x rest c c' := by
  obtain ⟨c₀, hflushed, hrequested⟩ := Command.requested always proper.buildable h.takes room
  have hfacing := h.requested always hrequested proper.fits
  have hlegal := proper.legal
  rw [← hrequested.untouched.capabilities] at hfacing hlegal
  obtain ⟨c₁, c', hfirst, hmore, hfacing', hlearnt, hcapabilities⟩ :=
    answer_received hlegal hfacing
  have hread : OnlyRead c₀.socket c'.socket := IsTrans.trans _ _ _
    (hfirst.keeps (x.command.call.listening_response x.command.call_stays).onlyRead) hmore.onlyRead
  refine ⟨c₀, c₁, c', hflushed, hfirst, hmore, ?_⟩
  constructor
  · exact hlearnt.of_untouched hrequested.untouched
  · exact hfacing'.resting (hread.takes hrequested.takes)
  · rw [hread.sentBytes, hrequested.sent, Exchange.request]
  · rw [hread.capacity]
    exact hrequested.capacity
  · rw [hcapabilities, hrequested.untouched.capabilities]
  · rw [hread.opts, hrequested.onlyWrite.opts]

theorem exchanged (always : ∀ c, alloc c = true) {x : Exchange} (proper : x.Proper c)
    (h : Resting c (x.response c.capabilities ++ rest))
    (room : x.request.length ≤ c.socket.capacity) :
    ∃ c', Retries alloc c x.trace c' ∧ Exchanged x rest c c' := by
  obtain ⟨c₀, c₁, c', hflushed, hfirst, hmore, hexchanged⟩ := exchange_parts always proper h room
  exact ⟨c', .cons (.received hflushed hfirst) hmore.retries, hexchanged⟩

theorem Exchange.Proper.mono {c' : Conn} {x : Exchange} (h : x.Proper c)
    (capabilities : c'.capabilities = c.capabilities)
    (limit : c'.socket.opts.max_allowed_packet = c.socket.opts.max_allowed_packet) :
    x.Proper c' := by
  obtain ⟨⟨⟨below, size, memory⟩, counted, known⟩, legal, fits⟩ := h
  rw [← capabilities] at legal fits
  rw [payloadLimit, ← limit] at below
  rw [← limit] at size
  exact ⟨⟨⟨below, size, memory⟩, counted, known⟩, legal, fits⟩

theorem conversed (always : ∀ c, alloc c = true) {exchanges : List Exchange}
    (proper : ∀ x ∈ exchanges, x.Proper c)
    (h : Resting c (exchanges.flatMap (Exchange.response c.capabilities) ++ rest))
    (room : (exchanges.flatMap Exchange.request).length ≤ c.socket.capacity) :
    ∃ c', Conversed alloc c exchanges c' ∧ Resting c' rest ∧
      c'.socket.sentBytes = c.socket.sentBytes ++ exchanges.flatMap Exchange.request := by
  induction exchanges generalizing c with
  | nil => exact ⟨c, .nil c, h, (List.append_nil _).symm⟩
  | cons x xs ih =>
    obtain ⟨hx, hxs⟩ := List.forall_mem_cons.mp proper
    rw [List.flatMap_cons, List.append_assoc] at h
    rw [List.flatMap_cons, List.length_append] at room
    obtain ⟨c₁, hretries, hexchanged⟩ := exchanged always hx h (by omega)
    have hresting := hexchanged.resting
    have hcapacity := hexchanged.capacity
    rw [← hexchanged.capabilities] at hresting
    obtain ⟨c', hconversed, hresting', hsent⟩ :=
      ih (fun y hy => (hxs y hy).mono hexchanged.capabilities
        (congrArg SockOpt.max_allowed_packet hexchanged.opts)) hresting (by omega)
    refine ⟨c', .cons hretries hexchanged.learnt hconversed, hresting', ?_⟩
    rw [hsent, hexchanged.sent, List.append_assoc, List.flatMap_cons]

/-- Client and server understand each other. With the answers to come, and a socket
that takes the requests, every call returns its part of an answer and nothing else can
happen; the server gets the requests, and nothing is left over. The blocking functions
return the same, where the polls do not run out. -/
theorem dialogue (always : ∀ c, alloc c = true) {exchanges : List Exchange}
    (proper : ∀ x ∈ exchanges, x.Proper c)
    (h : Resting c (exchanges.flatMap (Exchange.response c.capabilities) ++ rest))
    (room : (exchanges.flatMap Exchange.request).length ≤ c.socket.capacity) :
    (∃ c', Conversed alloc c exchanges c' ∧ Resting c' rest ∧
      c'.socket.sentBytes = c.socket.sentBytes ++ exchanges.flatMap Exchange.request) ∧
    (∀ trace c', Retries alloc c trace c' →
      trace.map Prod.fst = (exchanges.flatMap Exchange.trace).map Prod.fst →
      trace = exchanges.flatMap Exchange.trace) ∧
    ((∀ ready ∈ c.socket.net.polls, ready = true) → c.patience ≤ c.socket.net.polls.length →
      (BlockingCall.runs alloc ((exchanges.flatMap Exchange.trace).map Prod.fst) c).1 =
        exchanges.flatMap Exchange.trace) := by
  obtain ⟨c', hconversed, hresting, hsent⟩ := conversed always proper h room
  have hretries := hconversed.retries
  constructor
  · exact ⟨c', hconversed, hresting, hsent⟩
  constructor
  · intro trace c'' hretries' same
    exact hretries.unique hretries' same
  · intro hready henough
    exact (hretries.runs (Std.Refl.refl c) h.pos_le ⟨hready, .inr henough⟩).1

end

def exampleReply : OkContent where
  header := Packet.ok
  affected_rows := 0
  last_insert_id := 0
  status := 2
  warnings := 0
  info := []
  entries := []
  valid := List.forall_mem_nil _
  info_sized := Nat.two_pow_pos 64
  block_sized := Nat.two_pow_pos 64

theorem exampleReply_header : exampleReply.header = Packet.ok := rfl

/-- A ping and its answer. -/
def examplePing : Exchange where
  command := .ping
  answer := .ok exampleReply

/-- A query with one row for an answer. -/
def exampleQuery : Exchange where
  command := .query [0x61]
  answer := .rows [exampleColumn] ⟨0, 2⟩ [[some [0x62]]] (.terminator (plainReply 2))

def unknownTable : ErrReply where
  code := 1146
  marker := 0x23
  state := literal "42S02"
  message := literal "no table"
  state_length := rfl

/-- A query that is refused. -/
def exampleRefused : Exchange where
  command := .query [0x62]
  answer := .err unknownTable

def exampleExchanges : List Exchange := [examplePing, exampleQuery, exampleRefused]

/-- `PROTOCOL_41`, `SECURE_CONNECTION` and `PLUGIN_AUTH`. -/
def exampleCapabilities : UInt32 := 0x00088200

theorem exampleExchanges_proper {c : Conn} (capabilities : c.capabilities = exampleCapabilities)
    (limit : c.socket.opts.max_allowed_packet = 0) :
    ∀ x ∈ exampleExchanges, x.Proper c := by
  have passes : ∀ n, n < 100 → c.Passes n := by
    intro n h
    constructor
    · rw [payloadLimit, limit]
      exact Nat.lt_trans h (by decide)
    · rw [limit]
      decide
    · omega
  have ping : examplePing.Proper c :=
    ⟨⟨passes _ (by decide), fun _ => by decide, trivial⟩, .ok _ rfl (.inl trivial),
      by rw [capabilities]; decide +kernel⟩
  have query : exampleQuery.Proper c :=
    ⟨⟨passes _ (by decide), fun _ => by decide, trivial⟩,
      .rows _ _ _ _ _ (by simp) (by decide) (by simpa using exampleColumn_sendable)
        (by simp [RowsOf, Sized])
        (by rw [capabilities]; exact plainReply_terminates 2 (by decide) _),
      by rw [capabilities]; decide +kernel⟩
  have refused : exampleRefused.Proper c :=
    ⟨⟨passes _ (by decide), fun _ => by decide, trivial⟩, .err _ id,
      by rw [capabilities]; decide +kernel⟩
  simp only [exampleExchanges, List.forall_mem_cons, List.not_mem_nil, false_imp_iff, imp_true_iff,
    ping, query, refused, and_self]

/-- All there is to read comes at once, and the socket takes a byte at a time. -/
def exampleDialogueConn : Conn :=
  { Conn.init { idleSock with net := { idleSock.net with
      raw_writes := List.replicate 17 (.wrote 1)
      raw_reads := [.data (exampleExchanges.flatMap (Exchange.response exampleCapabilities))]
      polls := List.replicate 200 true } } with
    capabilities := exampleCapabilities }

theorem dialogue_example :
    (BlockingCall.runs (fun _ => true)
        [.ping, .query [0x61], .readFullColumn, .readFullRow, .readFullRow, .query [0x62]]
        exampleDialogueConn).1.map Prod.snd =
      [.ok .done, .ok (.haveResults 1), .ok (.column exampleColumn), .ok (.row [some [0x62]]),
        .error .eof, .error .err] := by
  have resting : Resting exampleDialogueConn
      (exampleExchanges.flatMap (Exchange.response exampleDialogueConn.capabilities) ++ []) := by
    refine ⟨?_, ?_, Nat.le_refl 0, ⟨by rintro ⟨⟩, rfl⟩, rfl, rfl, by decide +kernel⟩
    · exact List.forall_mem_singleton.mpr (by decide +kernel : List.flatMap _ _ ≠ [])
    · simp [Sock.Takes, exampleDialogueConn, Conn.init, idleSock, RawWrite.Calm]
  obtain ⟨-, -, hruns⟩ := dialogue (fun _ => rfl) (exampleExchanges_proper rfl rfl) resting
    (by decide +kernel)
  have hcalls := congrArg (List.map Prod.snd) (hruns (by decide +kernel) (by decide +kernel))
  exact hcalls

end Trilogy
