import Trilogy.Acceptance
import Trilogy.Dialogue

/-! The loops of `blocking.c` around a function that reads a packet and goes on from there:
where the packet is on its way and no wait fails, the loop ends as the function does
with the packet. `Stage` is what it takes for a script of packets, back and forth, to be
gone through line by line. -/
namespace Trilogy

open Lib Proc

namespace Conn

variable {alloc : Alloc} {α : Type} {c c₁ c' : Conn}

theorem listening_readPacket : Listening (readPacket alloc) := by
  have h : Listening (readPacket alloc >>= fun u => pure u) := listening_of_replies fun u => .pure u
  rwa [bind_pure] at h

/-- A loop whose turns read a packet; what a turn does with it may depend on the turn. -/
theorem recvFull_of_persists {f : Nat → Unit → Proc Code Conn α} {turns : Nat}
    (h : Persists .again (onSocket Sock.wait) (readPacket alloc) c (.ok ()) c₁)
    (hf : ∀ turn, (f turn () c₁).1 ≠ .error .again) (opened : c.socket.io ≠ .shutdown)
    (enough : c.socket.net.polls.length < turns) :
    ∃ turn, recvFull (fun turn => readPacket alloc >>= f turn) turns c = f turn () c₁ := by
  generalize e : (Except.ok () : Except Code Unit) = q at h
  induction h generalizing turns with
  | @stop c q c₁ hread _ =>
    subst e
    cases turns with
    | zero => exact absurd enough (Nat.not_lt_zero _)
    | succ turns =>
      refine ⟨turns, ?_⟩
      rw [recvFull, attempt_bind, bind_of_ok hread]
      have hturn := hf turns
      generalize f turns () c₁ = ended at hturn ⊢
      obtain ⟨rc | a, c'⟩ := ended
      · cases rc with
        | again => exact absurd rfl hturn
        | _ => rfl
      · rfl
  | @again c u v q c₁ hread hwait _ ih =>
    cases turns with
    | zero => exact absurd enough (Nat.not_lt_zero _)
    | succ turns =>
      have hturn : (readPacket alloc >>= f turns) c = (.error .again, u) := bind_of_error hread
      have honly : OnlyRead c.socket (readPacket alloc c).2.socket :=
        listening_readPacket.onlyRead c
      rw [hread] at honly
      obtain ⟨_, _, hnet⟩ := honly.net
      have hopened : u.socket.io ≠ .shutdown := by
        rw [honly.io]
        exact opened
      rw [recvFull, attempt_bind, hturn]
      dsimp only
      rw [bind_of_ok hwait]
      obtain ⟨hio, -⟩ | ⟨more, -, hmore, hsock⟩ | ⟨sock, -, -, hsock⟩ := u.socket.wait_cases
      · exact absurd hio hopened
      · rw [onSocket, zoom_apply, hsock] at hwait
        cases hwait
        apply ih hf hopened _ e
        rw [hnet] at hmore
        rw [hmore, List.length_cons] at enough
        exact Nat.lt_of_succ_lt_succ enough
      · rw [onSocket, zoom_apply, hsock] at hwait
        cases hwait
  | failed _ _ => cases e

theorem awaitPacket_eq (turns : Nat) :
    awaitPacket alloc turns = recvFull (fun _ => readPacket alloc) turns := by
  induction turns with
  | zero => rfl
  | succ turns ih =>
    rw [awaitPacket, recvFull, ← ih]
    congr 1
    funext rc
    cases rc with
    | ok u => rfl
    | error rc => cases rc <;> rfl

end Conn

/-- A packet, and who it is from. -/
inductive Line
  | server (payload : List UInt8)
  | client (payload : List UInt8)

namespace Line

def payload : Line → List UInt8
  | server payload | client payload => payload

/-- What the server sends. The sequence ids count the lines of both. -/
def served : UInt8 → List Line → List UInt8
  | _, [] => []
  | s, server p :: lines => frames s p ++ served (s + 1) lines
  | s, client _ :: lines => served (s + 1) lines

/-- What the client sends. -/
def claimed : UInt8 → List Line → List UInt8
  | _, [] => []
  | s, server _ :: lines => claimed (s + 1) lines
  | s, client p :: lines => frames s p ++ claimed (s + 1) lines

end Line

namespace Conn

open Line

/-- What stays the same from line to line: the options, the bytes that are left to be
read, what the client will have sent, and how many polls and how much room there is to
spare. -/
structure Scene where
  opts : SockOpt
  rest : List UInt8
  sent : List UInt8
  polls : Nat
  spare : Nat

/-- The lines are to come, and nothing fails. -/
structure Stage (scene : Scene) (lines : List Line) (c : Conn) : Prop where
  resting : Resting c (served c.packetParser.sequence_number lines ++ scene.rest)
  opts : c.socket.opts = scene.opts
  sent : c.socket.sentBytes ++ claimed c.packetParser.sequence_number lines = scene.sent
  budget : Budget (scene.polls + c.patience) c
  room : (claimed c.packetParser.sequence_number lines).length + scene.spare ≤ c.socket.capacity
  short : ∀ line ∈ lines, line.payload.length < maxPacketLen

variable {scene : Scene} {opts : SockOpt} {p : List UInt8} {lines : List Line}

theorem Polled.untouched (h : Polled c c') : Untouched c c' := by
  obtain ⟨_, _, rfl⟩ := h
  constructor <;> rfl

theorem Polled.packet (h : Polled c c') : c'.packet_buffer = c.packet_buffer := by
  obtain ⟨_, _, rfl⟩ := h
  rfl

theorem Resting.polled {bytes : List UInt8} (h : Resting c bytes) (hs : Polled c c') :
    Resting c' bytes := by
  obtain ⟨_, ⟨polls, rfl⟩, rfl⟩ := hs
  exact ⟨h.calm, h.takes, h.pos_le, h.steady, h.boundary, h.whole, h.pending⟩

theorem Resting.ready {bytes : List UInt8} (always : ∀ c, alloc c = true) (h : Resting c bytes) :
    Ready alloc longestPacket c :=
  ⟨h.calm, h.pos_le, h.steady, Buffer.grows_of_alloc always _ (Nat.le_refl _)⟩

namespace Stage

theorem opened (h : Stage scene lines c) : c.socket.io ≠ .shutdown := by
  intro hio
  have htakes := h.resting.takes
  rw [Sock.Takes, hio] at htakes
  exact htakes

/-- At the beginning of a connection. -/
theorem opening {rest : List UInt8} {spare : Nat} (first : c.packetParser.sequence_number = 0)
    (h : Resting c (served 0 lines ++ rest))
    (room : (claimed 0 lines).length + spare ≤ c.socket.capacity)
    (ready : ∀ ready ∈ c.socket.net.polls, ready = true)
    (enough : c.patience ≤ c.socket.net.polls.length)
    (short : ∀ line ∈ lines, line.payload.length < maxPacketLen) :
    Stage ⟨c.socket.opts, rest, c.socket.sentBytes ++ claimed 0 lines, 0, spare⟩ lines c := by
  rw [← first] at h room ⊢
  exact ⟨h, rfl, rfl, ⟨ready, .inr (by rwa [Nat.zero_add])⟩, room, short⟩

/-- The options are the only part of the socket that is written to between packets. -/
theorem rewritten (h : Stage scene lines c)
    (socket : c'.socket = { c.socket with opts }) (buff : c'.recv_buff = c.recv_buff)
    (pos : c'.recv_buff_pos = c.recv_buff_pos) (parser : c'.packetParser = c.packetParser) :
    Stage { scene with opts } lines c' := by
  obtain ⟨⟨hcalm, htakes, hpos, hsteady, hboundary, hwhole, hpending⟩, -, hsent, hbudget, hroom,
    hshort⟩ := h
  cases c
  cases c'
  dsimp only at socket buff pos parser
  subst socket buff pos parser
  exact ⟨⟨hcalm, htakes, hpos, hsteady, hboundary, hwhole, hpending⟩, rfl, hsent, hbudget, hroom,
    hshort⟩

theorem sameWire (h : Stage scene lines c) (same : SameWire c c') :
    Stage scene lines c' := by
  apply h.rewritten _ same.recv_buff same.recv_buff_pos same.packetParser
  rw [same.socket, ← h.opts]

theorem polled (resting : Resting c (served c.packetParser.sequence_number lines ++ scene.rest))
    (opts : c.socket.opts = scene.opts)
    (claims : c.socket.sentBytes ++ claimed c.packetParser.sequence_number lines = scene.sent)
    (room : (claimed c.packetParser.sequence_number lines).length + scene.spare ≤
      c.socket.capacity)
    (short : ∀ line ∈ lines, line.payload.length < maxPacketLen) (h : Polled c c')
    (budget : Budget (scene.polls + c.patience) c') : Stage scene lines c' := by
  have hresting := resting.polled h
  obtain ⟨_, ⟨more, rfl⟩, rfl⟩ := h
  exact ⟨hresting, opts, claims, budget, room, short⟩

/-- The server's turn. -/
theorem read (always : ∀ c, alloc c = true)
    (h : Stage scene (.server p :: lines) c) :
    ∃ c₁, Persists .again (onSocket Sock.wait) (readPacket alloc) c (.ok ()) c₁ ∧
      c₁.packet_buffer.bytes = p ∧ Stage scene lines c₁ ∧ Untouched c c₁ := by
  obtain ⟨hp, hshort⟩ := List.forall_mem_cons.mp h.short
  have hpending := h.resting.pending
  rw [served, List.append_assoc] at hpending
  have run := ends_framed h.resting.boundary h.resting.whole hpending
  have hfits : p.length ≤ longestPacket := Nat.le_trans (Nat.le_of_lt hp) (by decide)
  obtain ⟨t, hreturns, hstopped⟩ := readPacket_returns (h.resting.ready always) run
    (PacketParser.fits_of_stop run hfits).1 (by decide)
  obtain ⟨hparser, hbytes⟩ := Prod.mk.inj hstopped.machine
  have hseq : t.packetParser.sequence_number = c.packetParser.sequence_number + 1 := by
    have hzero : extraFragments p.length = 0 := Nat.div_eq_of_lt hp
    rw [hparser, PacketParser.after, hzero]
    exact congrArg (· + 1) (UInt8.add_zero _)
  have honly : OnlyRead c.socket t.socket := hreturns.keeps listening_readPacket.onlyRead
  obtain ⟨k, hk, -, hle⟩ := listening_readPacket.bounded.within h.resting.pos_le hreturns
  have hbudget : Budget (scene.polls + t.patience + k) c := by
    apply h.budget.mono
    have hwrites : t.socket.writes = c.socket.writes := by
      obtain ⟨_, _, hnet⟩ := honly.net
      rw [Sock.writes, Sock.writes, honly.io, hnet]
    have hleft : k + t.turnsLeft ≤ c.turnsLeft := hle
    unfold patience
    omega
  obtain ⟨c₁, hpersists, hpolled, hbudget⟩ := hk.persists listening_readPacket.blind
    listening_readPacket.receiving.budget (fun _ _ => Budget.wait) (Std.Refl.refl c) hbudget
  have hresting : Resting t (served t.packetParser.sequence_number lines ++ scene.rest) :=
    { calm := hstopped.ready.calm
      takes := honly.takes h.resting.takes
      pos_le := hstopped.ready.pos_le
      steady := hstopped.ready.steady
      boundary := by rw [hparser]; rfl
      whole := by rw [hparser]; rfl
      pending := by rw [hseq]; exact hstopped.pending }
  have hsent : t.socket.sentBytes ++ claimed t.packetParser.sequence_number lines = scene.sent := by
    rw [hseq, honly.sentBytes]
    exact h.sent
  have hroom : (claimed t.packetParser.sequence_number lines).length + scene.spare ≤
      t.socket.capacity := by
    rw [hseq, honly.capacity]
    exact h.room
  refine ⟨c₁, hpersists, ?_, ?_, hstopped.untouched.trans hpolled.untouched⟩
  · rw [hpolled.packet]
    exact hbytes
  · exact polled hresting (honly.opts.trans h.opts) hsent hroom hshort hpolled hbudget

/-- The client's turn. -/
theorem send (always : ∀ c, alloc c = true)
    (h : Stage scene (.client p :: lines) c) {m : Proc Code Builder Unit}
    (finalizes : Builder.Finalizes m p) (completes : Builder.Completes m p)
    (fails : Fails Refusal m) (passes : c.Passes p.length) :
    ∃ c', sendFull (sendPacket alloc c.packetParser.sequence_number m) c = (.ok (), c') ∧
      Stage scene lines c' ∧ Untouched c c' := by
  obtain ⟨hp, hshort⟩ := List.forall_mem_cons.mp h.short
  have hroom := h.room
  have hsent := h.sent
  rw [claimed, List.length_append] at hroom
  rw [claimed, ← List.append_assoc] at hsent
  have offers : Offers (sendPacket alloc c.packetParser.sequence_number m) :=
    offers_sendPacket fails _
  obtain ⟨t, hflushed, hrequested⟩ := sendPacket_requested always finalizes completes offers
    passes h.resting.takes (by omega)
  obtain ⟨hvalid, hless⟩ := hflushed.uses offers h.resting.pos_le
  have hbudget : Budget (scene.polls + t.turnsLeft + c.socket.writes) c := by
    apply h.budget.mono
    unfold patience
    omega
  obtain ⟨c', hfull, hpolled, hbudget⟩ := hflushed.sendFull offers (Std.Refl.refl c) hbudget
  obtain ⟨_, _, hnet⟩ := hrequested.onlyWrite.net
  have hparser := hrequested.parser
  have hseq : t.packetParser.sequence_number = c.packetParser.sequence_number + 1 := by
    rw [hparser]
  have hincoming : t.socket.incoming = c.socket.incoming := by
    rw [Sock.incoming, Sock.incoming, hrequested.onlyWrite.io, hnet]
  have hcalm : t.socket.Calm := by
    have hcalm := h.resting.calm
    rw [Sock.Calm] at hcalm ⊢
    rw [hrequested.onlyWrite.io, hnet]
    exact hcalm
  have hresting : Resting t (served t.packetParser.sequence_number lines ++ scene.rest) :=
    { calm := hcalm
      takes := hrequested.takes
      pos_le := hvalid
      steady := by rw [hparser]; exact ⟨h.resting.steady.1, h.resting.steady.2⟩
      boundary := by rw [hparser]; exact h.resting.boundary
      whole := by rw [hparser]; exact h.resting.whole
      pending := by
        rw [Conn.pending, hrequested.unread, hincoming, hseq]
        exact h.resting.pending }
  have hroom' : (claimed t.packetParser.sequence_number lines).length + scene.spare ≤
      t.socket.capacity := by
    have hcapacity := hrequested.capacity
    rw [hseq]
    omega
  have hsent' : t.socket.sentBytes ++ claimed t.packetParser.sequence_number lines = scene.sent := by
    rw [hseq, hrequested.sent]
    exact hsent
  refine ⟨c', hfull, ?_, hrequested.untouched.trans hpolled.untouched⟩
  apply polled hresting (hrequested.onlyWrite.opts.trans h.opts) hsent' hroom' hshort hpolled
  apply hbudget.mono
  unfold patience
  omega

end Stage

end Conn

end Trilogy
