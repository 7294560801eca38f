import Trilogy.Agreement
import Trilogy.Outflow

namespace Trilogy

open Lib Proc

/-- What a client asks for on a connection that is established. The binds of a
statement are `NULL` or have an element for each parameter, and the array that its rows
are read into has one for each column. -/
inductive Command
  | changeDb (name : List UInt8)
  | setOption (option : UInt16)
  | ping
  | query (sql : List UInt8)
  | stmtPrepare (sql : List UInt8)
  | stmtExecute (stmt : StmtOkPacket) (flags : UInt8) (binds : Option (List BinaryValue))
      (enough : ∀ vs, binds = some vs → stmt.parameter_count.toNat ≤ vs.length)
      (values_out : List BinaryValue) (room : values_out.length = stmt.column_count.toNat)
  | stmtBindData (stmt : StmtOkPacket) (param_num : UInt16) (data : List UInt8)
  | stmtReset (stmt : StmtOkPacket)
  | stmtClose (stmt : StmtOkPacket)

namespace Command

def call : Command → BlockingCall
  | changeDb name => .changeDb name
  | setOption option => .setOption option
  | ping => .ping
  | query sql => .query sql
  | stmtPrepare sql => .stmtPrepare sql
  | stmtExecute stmt flags binds _ _ _ => .stmtExecute stmt flags binds
  | stmtBindData stmt param_num data => .stmtBindData stmt param_num data
  | stmtReset stmt => .stmtReset stmt
  | stmtClose stmt => .stmtClose stmt

def payload : Command → List UInt8
  | changeDb name => Cmd.changeDb :: name
  | setOption option => Cmd.setOption :: leBytes 2 option.toNat
  | ping => [Cmd.ping]
  | query sql => Cmd.query :: sql
  | stmtPrepare sql => Cmd.stmtPrepare :: sql
  | stmtExecute stmt flags none _ _ _ => executeHead stmt.id flags
  | stmtExecute stmt flags (some binds) _ _ _ =>
    let binds := binds.take stmt.parameter_count.toNat
    executePrefix stmt.id flags binds ++ binds.flatMap valueBytes
  | stmtBindData stmt param_num data =>
    Cmd.stmtSendLongData :: (leBytes 4 stmt.id.toNat ++ leBytes 2 param_num.toNat ++ data)
  | stmtReset stmt => Cmd.stmtReset :: leBytes 4 stmt.id.toNat
  | stmtClose stmt => Cmd.stmtClose :: leBytes 4 stmt.id.toNat

/-- The functions that count the fragments of a request. -/
def HandsOn : Command → Prop
  | query _ | stmtExecute .. => True
  | _ => False

instance : DecidablePred HandsOn := fun command => by
  cases command <;> simp only [HandsOn] <;> infer_instance

/-- The functions that take an OK or an error packet and nothing else. -/
def Generic : Command → Prop
  | changeDb _ | ping | stmtReset _ => True
  | _ => False

/-- The commands that a server says nothing to. -/
def Mute : Command → Prop
  | stmtBindData .. | stmtClose _ => True
  | _ => False

/-- The sequence id of the answer: it goes on from the last fragment of the request. -/
def reply (command : Command) : UInt8 := UInt8.ofNat (extraFragments command.payload.length) + 1

/-- The binds have types that there are, one for each parameter. -/
def Known : Command → Prop
  | stmtExecute stmt _ none _ _ _ => stmt.parameter_count = 0
  | stmtExecute stmt _ (some binds) _ _ _ =>
    ∀ bind ∈ binds.take stmt.parameter_count.toNat, ∃ t, TypeT.ofCode bind.type = some t
  | _ => True

/-- The request can be built, and a function that does not count its fragments has only
one. -/
structure Buildable (c : Conn) (command : Command) : Prop where
  passes : c.Passes command.payload.length
  counted : ¬ command.HandsOn → command.payload.length < maxPacketLen
  known : command.Known

end Command

namespace Command

variable {alloc : Alloc} {c : Conn}

/-- The packet it is sent in. -/
def outgoing : Command → Outgoing
  | changeDb name => .request (.changeDb name)
  | setOption option => .request (.setOption option)
  | ping => .request .ping
  | query sql => .request (.query sql)
  | stmtPrepare sql => .request (.stmtPrepare sql)
  | stmtExecute stmt flags binds enough _ _ => .request (.stmtExecute stmt flags binds enough)
  | stmtBindData stmt param_num data => .stmtBindData stmt param_num data
  | stmtReset stmt => .request (.stmtReset stmt)
  | stmtClose stmt => .stmtClose stmt

theorem outgoing_payload (digests : Digests) (command : Command) :
    command.outgoing.payload digests c = command.payload := by
  cases command with
  | stmtExecute stmt flags binds enough _ _ => cases binds <;> rfl
  | _ => rfl

theorem Buildable.outgoing {command : Command} (h : command.Buildable c) :
    command.outgoing.Known c := by
  have hknown := h.known
  cases command with
  | stmtExecute stmt flags binds enough _ _ => cases binds <;> exact hknown
  | _ => trivial

theorem requested (always : ∀ c, alloc c = true) {command : Command}
    (buildable : command.Buildable c) (takes : c.socket.Takes)
    (room : (frames 0 command.payload).length ≤ c.socket.capacity) :
    ∃ c', Conn.Flushed (command.call.request alloc) c (.ok ()) c' ∧
      Conn.Requested 0 command.payload command.reply c c' := by
  have finalizes := command.outgoing.finalizes_packet alloc noDigests c
  have completes : Builder.Completes (command.outgoing.packet alloc noDigests c)
      (command.outgoing.payload noDigests c) :=
    command.outgoing.completes_packet always buildable.outgoing
  rw [outgoing_payload] at finalizes completes
  have hone : ¬ command.HandsOn → command.reply = 0 + 1 := by
    intro hands
    rw [reply, extraFragments, Nat.div_eq_of_lt (buildable.counted hands)]
    rfl
  have offers : Conn.Offers (command.call.request alloc) := command.call.offers_request
  cases command with
  | query sql =>
    exact Conn.sendPacketInSequence_requested always finalizes completes offers buildable.passes
      takes room
  | stmtExecute stmt flags binds enough _ _ =>
    exact Conn.sendPacketInSequence_requested always finalizes completes offers buildable.passes
      takes room
  | _ =>
    rw [hone id]
    exact Conn.sendPacket_requested always finalizes completes offers buildable.passes takes room

end Command

end Trilogy
