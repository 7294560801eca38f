import Trilogy.Lib.Feed
import Trilogy.Builder

/-! `packet_parser.c`, with its callbacks as procedures on a state of their own:
each returns 0 to go on, or any other value to stop the call. -/
namespace Trilogy

open Lib

/-- `S_LEN_0` to `S_PAYLOAD` -/
inductive ParserState
  | len0 | len1 | len2 | seq | payload
  deriving DecidableEq, Repr

structure PacketParser where
  sequence_number : UInt8
  bytes_remaining : Nat
  state : ParserState
  fragment : Bool
  deferred_end_callback : Bool
  deriving DecidableEq, Repr

/-- The three callbacks over their `user_data`. -/
structure Callbacks (σ : Type) where
  on_packet_begin : σ → Int × σ
  on_packet_data : σ → List UInt8 → Int × σ
  on_packet_end : σ → Int × σ

/-- What a call leaves behind: the parser, the callbacks' state, the number of
bytes it consumed, and `*error`. -/
structure Executed (σ : Type) where
  parser : PacketParser
  user : σ
  consumed : Nat
  error : Int

namespace PacketParser

def init : PacketParser :=
  { sequence_number := 0
    bytes_remaining := 0
    state := .len0
    fragment := false
    deferred_end_callback := false }

section

variable {σ : Type} (cb : Callbacks σ)

/-- The label `end_of_payload`. -/
def endOfPayload (p : PacketParser) (user : σ) (consumed : Nat) : Executed σ :=
  let p := { p with state := .len0 }
  if p.fragment then ⟨p, user, consumed, 0⟩
  else
    let (rc, user) := cb.on_packet_end user
    ⟨p, user, consumed, rc⟩

/-- One turn of the `while` loop on the bytes `curByte :: rest`; its `error`
is the value a turn returns with, or 0 when it goes on. -/
def turn (p : PacketParser) (user : σ) (curByte : UInt8) (rest : List UInt8) : Executed σ :=
  match p.state with
  | .len0 => ⟨{ p with bytes_remaining := curByte.toNat, state := .len1 }, user, 1, 0⟩
  | .len1 =>
    ⟨{ p with bytes_remaining := p.bytes_remaining ||| curByte.toNat <<< 8, state := .len2 },
      user, 1, 0⟩
  | .len2 =>
    let remaining := p.bytes_remaining ||| curByte.toNat <<< 16
    let p' := { p with
      bytes_remaining := remaining
      fragment := remaining == maxPacketLen
      state := .seq }
    if p.fragment then ⟨p', user, 1, 0⟩
    else
      let (rc, user) := cb.on_packet_begin user
      ⟨p', user, 1, rc⟩
  | .seq =>
    if curByte ≠ p.sequence_number then ⟨p, user, 0, Code.invalidSequenceId.toInt⟩
    else
      let p := { p with sequence_number := p.sequence_number + 1, state := .payload }
      if p.bytes_remaining = 0 then endOfPayload cb p user 1 else ⟨p, user, 1, 0⟩
  | .payload =>
    let chunk := (curByte :: rest).take p.bytes_remaining
    let p := { p with bytes_remaining := p.bytes_remaining - chunk.length }
    let (rc, user) := cb.on_packet_data user chunk
    if rc ≠ 0 then
      ⟨{ p with deferred_end_callback := p.bytes_remaining == 0 || p.deferred_end_callback },
        user, chunk.length, rc⟩
    else if p.bytes_remaining = 0 then endOfPayload cb p user chunk.length
    else ⟨p, user, chunk.length, 0⟩

/-- The `while` loop. A turn consumes a byte, or leaves `S_PAYLOAD`, so twice
the length of the input bounds the turns. -/
def loop : Nat → PacketParser → σ → List UInt8 → Executed σ
  | 0, p, user, _ => ⟨p, user, 0, 0⟩
  | turns + 1, p, user, input =>
    match input with
    | [] => ⟨p, user, 0, 0⟩
    | b :: rest =>
      let t := turn cb p user b rest
      if t.error ≠ 0 then t
      else
        let r := loop turns t.parser t.user (input.drop t.consumed)
        { r with consumed := t.consumed + r.consumed }

def execute (p : PacketParser) (user : σ) (buff : List UInt8) : Executed σ :=
  if p.deferred_end_callback then
    let p := { p with deferred_end_callback := false }
    let (rc, user) := cb.on_packet_end user
    if rc ≠ 0 then ⟨p, user, 0, rc⟩ else loop cb (2 * buff.length + 1) p user buff
  else loop cb (2 * buff.length + 1) p user buff

end

end PacketParser

def onPacketBegin (buff : Buffer) : Int × Buffer := (0, buff.reset)

def onPacketData (alloc : Alloc) (buff : Buffer) (data : List UInt8) : Int × Buffer :=
  match Buffer.expand alloc data.length buff with
  | (.error rc, buff) => (rc.toInt, buff)
  | (.ok (), buff) => (0, buff.push data)

/-- Pause parsing, so that the packet just read can be returned. -/
def onPacketEnd (buff : Buffer) : Int × Buffer := (1, buff)

def packetParserCallbacks (alloc : Alloc) : Callbacks Buffer where
  on_packet_begin := onPacketBegin
  on_packet_data := onPacketData alloc
  on_packet_end := onPacketEnd

end Trilogy
