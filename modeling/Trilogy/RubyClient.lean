import Trilogy.Cast
import Trilogy.Escape
import Trilogy.MoreResults

/-! `cext.c`, as far as it has to do with packet buffers. The clients of a process
take the buffers they work with from a pool, and give them back when a method is
done. `conn.packet_buffer.buff` is a field of its own here: while it is `none`,
only the length of the packet buffer counts, and a function of the library that
is called then has no memory to work on.

What the socket waits come to and which functions of Ruby raise is in scripts. A
method goes round its loops `turns` times. -/
namespace Trilogy

open Lib

/-- `recv(2)` with `MSG_PEEK`, until it is not interrupted. -/
def peek : List RawRead → Except Code Unit × List RawRead
  | [] => (.ok (), [])
  | .failed .eintr :: more => peek more
  | .failed .eagain :: more => (.ok (), more)
  | .failed _ :: more => (.error .syserr, more)
  | .data [] :: more => (.error .closedConnection, .data [] :: more)
  | .data (b :: bytes) :: more => (.ok (), .data (b :: bytes) :: more)

/-- `trilogy_sock_check`; with TLS too it is the descriptor that is looked at. -/
def Sock.check : Proc Code Sock Unit := fun sock =>
  match sock.io with
  | .shutdown => (.error .syserr, sock)
  | _ => ((peek sock.net.raw_reads).1,
      { sock with net := { sock.net with raw_reads := (peek sock.net.raw_reads).2 } })

/-- Memory from `malloc`, by the number of its allocation. `realloc` moves it, but
nobody else ever has the old address. -/
structure BufferPoolEntry where
  cap : Nat
  cap_pos : 0 < cap
  buff : Nat
  contents : List UInt8

/-- `buffer_pool`; `entries` are the first `len` entries, the last one first. -/
structure Pool where
  capa : Nat
  entries : List BufferPoolEntry

namespace Pool

/-- `BUFFER_POOL_MAX_SIZE` -/
def maxSize : Nat := 8

def len (pool : Pool) : Nat := pool.entries.length

end Pool

/-- The packet buffer of a connection, in other memory. -/
def Buffer.attach (e : BufferPoolEntry) (b : Buffer) : Buffer where
  bytes := (e.contents ++ List.replicate b.len 0).take b.len
  stale := e.contents.drop b.len
  cap := e.cap
  cap_pos := e.cap_pos

namespace Rb

/-- `trilogy_ctx`; `socket` says whether `conn.socket` is set. -/
structure Ctx where
  conn : Conn
  buff : Option Nat
  socket : Bool
  deriving DecidableEq

/-- What `_cb_ruby_wait` comes to. -/
inductive Waited
  | ready | timedOut | failed | interrupted
  deriving DecidableEq, Repr

/-- Where an exception comes from: `get_open_ctx`, the arguments of a method,
`handle_trilogy_error`, with an error of the server's or with another code, or Ruby in the
middle of a method. -/
inductive Raised
  | closed | argument
  | protocol (error_code : UInt16) (error_message : List UInt8)
  | trilogy (rc : Code)
  | ruby
  deriving DecidableEq, Repr

/-- How a method ends other than by returning. `noBuffer` is a call of the library
without memory, and `freed` is memory that is read after it was freed. -/
inductive Exit
  | raised (r : Raised) | noBuffer | freed | unfinished
  deriving DecidableEq, Repr

/-- What `rb_trilogy_cast_value` is given for the values of each row. -/
abbrev Rows := List (List (Value × ColumnInfo))

/-- `Trilogy::Result`, before the values are cast and the rows are flattened, and without
the time that the query took. -/
structure Result where
  fields : List (List UInt8)
  rows : Rows
  last_insert_id : Option UInt64
  affected_rows : Option UInt64
  deriving DecidableEq, Repr

inductive Returned
  | nil | bool (b : Bool) | string (bytes : List UInt8) | result (result : Result)
  deriving DecidableEq, Repr

end Rb

/-- What a method of a client works on. -/
structure Rb where
  pool : Pool
  allocations : Nat
  ctx : Rb.Ctx
  waits : List Rb.Waited
  raises : List Bool

namespace Rb

theorem defaultBufSize_pos : 0 < defaultBufSize := by decide

def bufferCheckout : Proc Exit Rb Unit := modify fun s =>
  match s.pool.entries with
  | e :: entries =>
    { s with
      pool := { s.pool with entries }
      ctx := { s.ctx with
        buff := some e.buff
        conn := { s.ctx.conn with packet_buffer := s.ctx.conn.packet_buffer.attach e } } }
  | [] =>
    { s with
      allocations := s.allocations + 1
      ctx := { s.ctx with
        buff := some s.allocations
        conn := { s.ctx.conn with
          packet_buffer := s.ctx.conn.packet_buffer.attach
            ⟨defaultBufSize, defaultBufSize_pos, s.allocations, []⟩ } } }

/-- A full pool frees the buffer. -/
def bufferCheckin (buff : Nat) : Proc Exit Rb Unit := modify fun s =>
  let b := s.ctx.conn.packet_buffer
  if s.pool.len ≥ Pool.maxSize then { s with ctx := { s.ctx with buff := none } }
  else
    { s with
      pool :=
        { capa := if s.pool.capa = 0 then 16
            else if s.pool.len ≥ s.pool.capa then s.pool.capa * 2 else s.pool.capa
          entries := ⟨b.cap, b.cap_pos, buff, b.bytes ++ b.stale⟩ :: s.pool.entries }
      ctx := { s.ctx with buff := none } }

def acquireBuffer : Proc Exit Rb Unit := do
  let s ← get
  match s.ctx.buff with
  | none => bufferCheckout
  | some _ => pure ()

def releaseBuffer : Proc Exit Rb Unit := do
  let s ← get
  match s.ctx.buff with
  | some buff => bufferCheckin buff
  | none => pure ()

def onConn {α : Type} (m : Proc Code Conn α) : Proc Exit Rb (Except Code α) := fun s =>
  (.ok (m s.ctx.conn).1, { s with ctx := { s.ctx with conn := (m s.ctx.conn).2 } })

/-- A call of the library that works on the packet buffer. -/
def onBuffer {α : Type} (m : Proc Code Conn α) : Proc Exit Rb (Except Code α) := do
  let s ← get
  match s.ctx.buff with
  | none => throw .noBuffer
  | some _ => onConn m

def sockShutdown : Proc Exit Rb Unit := do
  let _ ← onConn (Conn.onSocket Sock.shutdown)
  pure ()

/-- A function of Ruby that may raise. -/
def mayRaise (r : Raised) : Proc Exit Rb Unit := fun s =>
  match s.raises with
  | true :: raises => (.error (.raised r), { s with raises })
  | false :: raises => (.ok (), { s with raises })
  | [] => (.ok (), s)

def getOpenCtx : Proc Exit Rb Unit := do
  let s ← get
  if s.ctx.socket then pure () else throw (.raised .closed)

/-- `trilogy_error_recoverable_p` -/
def errorRecoverable (rc : Code) : Bool := rc = .err ∨ rc = .maxPacketExceeded

/-- The message of the server is part of the packet buffer, and is read where it is. -/
def exitBy (rc : Code) (freed : Bool) (conn : Conn) : Exit :=
  if rc = .err then
    if freed then .freed else .raised (.protocol conn.error_code conn.error_message)
  else .raised (.trilogy rc)

/-- Whether the buffer is freed when it is given back. -/
def givingFrees (s : Rb) : Bool := s.ctx.buff.isSome ∧ s.pool.len ≥ Pool.maxSize

def handleTrilogyError {α : Type} (rc : Code) : Proc Exit Rb α := do
  let s ← get
  let freed := givingFrees s
  releaseBuffer
  let s ← get
  Proc.when (!errorRecoverable rc ∧ s.ctx.socket) sockShutdown
  let s ← get
  throw (exitBy rc freed s.ctx.conn)

/-- `trilogy_sock_wait` with `_cb_ruby_wait`, which a socket that was shut down
does not call. -/
def sockWait : Proc Exit Rb (Except Code Unit) := do
  let s ← get
  if s.ctx.conn.socket.io = .shutdown then pure (.ok ())
  else
    match s.waits with
    | [] => pure (.error .timeout)
    | waited :: waits => do
      set { s with waits }
      match waited with
      | .ready => pure (.ok ())
      | .timedOut => pure (.error .timeout)
      | .failed => pure (.error .syserr)
      | .interrupted => do
        sockShutdown
        throw (.raised .ruby)

/-- A turn of a loop that calls a function, and waits and goes on `again` while
it asks for that. -/
def turn {α : Type} (m : Proc Code Conn α) (again : Proc Exit Rb (Except Code α)) :
    Proc Exit Rb (Except Code α) := do
  let rc ← onBuffer m
  match rc with
  | .error .again => do
    let rc ← sockWait
    match rc with
    | .ok () => again
    | .error rc => pure (.error rc)
  | rc => pure rc

def await {α : Type} (m : Proc Code Conn α) : Nat → Proc Exit Rb (Except Code α)
  | 0 => turn m (throw .unfinished)
  | turns + 1 => turn m (await m turns)

def flushWrites (turns : Nat) : Proc Exit Rb (Except Code Unit) := await Conn.flushWrites turns

/-- A request, flushed to its end. -/
def sendFlushed (send : Proc Code Conn Unit) (turns : Nat) : Proc Exit Rb (Except Code Unit) := do
  let rc ← onBuffer send
  match rc with
  | .error .again => flushWrites turns
  | rc => pure rc

/-- Errors are handled, with nothing left to do but raise. -/
def orHandle {α : Type} (m : Proc Exit Rb (Except Code α)) : Proc Exit Rb α := do
  let rc ← m
  match rc with
  | .ok a => pure a
  | .error rc => handleTrilogyError rc

/-- What `change_db`, `set_server_option` and `ping` do with their buffer. -/
def command (send recv : Proc Code Conn Unit) (turns : Nat) : Proc Exit Rb Returned := do
  orHandle (sendFlushed send turns)
  orHandle (await recv turns)
  releaseBuffer
  pure (.bool true)

/-- `trilogy_free`; `free` is the end of the memory. -/
def free : Proc Exit Rb Unit := modify fun s =>
  { s with
    ctx := { s.ctx with
      socket := false
      buff := none
      conn := { s.ctx.conn with
        packet_buffer := if s.ctx.buff = none then s.ctx.conn.packet_buffer
          else s.ctx.conn.packet_buffer.reset } } }

section

variable (alloc : Alloc)

def changeDb (database : List UInt8) (turns : Nat) : Proc Exit Rb Returned := do
  getOpenCtx
  mayRaise .argument
  acquireBuffer
  command (Conn.changeDbSend alloc database) (Conn.changeDbRecv alloc) turns

/-- The option is converted with the buffer in hand. -/
def setServerOption (option : UInt16) (turns : Nat) : Proc Exit Rb Returned := do
  getOpenCtx
  acquireBuffer
  mayRaise .ruby
  command (Conn.setOptionSend alloc option) (Conn.setOptionRecv alloc) turns

def ping (turns : Nat) : Proc Exit Rb Returned := do
  getOpenCtx
  acquireBuffer
  command (Conn.pingSend alloc) (Conn.pingRecv alloc) turns

/-- The loop around `trilogy_query_recv`: a wait that fails is handled at once. -/
def recvTurn (again : Proc Exit Rb (Except Code (Option UInt64))) :
    Proc Exit Rb (Except Code (Option UInt64)) := do
  let rc ← onBuffer (Conn.queryRecv alloc)
  match rc with
  | .error .again => do
    orHandle sockWait
    again
  | rc => pure rc

def awaitQuery : Nat → Proc Exit Rb (Except Code (Option UInt64))
  | 0 => recvTurn alloc (throw .unfinished)
  | turns + 1 => recvTurn alloc (awaitQuery turns)

/-- As many columns again, behind those that were read. -/
def readColumns (turns : Nat) : Nat → List Column → Proc Exit Rb (Except Code (List Column))
  | 0, columns => pure (.ok columns)
  | more + 1, columns => do
    let rc ← await (Conn.readColumn alloc) turns
    match rc with
    | .error rc => pure (.error rc)
    | .ok column => do
      mayRaise .ruby
      readColumns turns more (columns ++ [column])

/-- The values of a row are cast, which may raise. -/
def rowTurn (column_info : List ColumnInfo) (rows : Rows)
    (again : Rows → Proc Exit Rb (Except Code Rows)) : Proc Exit Rb (Except Code Rows) := do
  let rc ← onBuffer (Conn.readRow alloc)
  match rc with
  | .error .again => do
    let rc ← sockWait
    match rc with
    | .ok () => again rows
    | .error rc => pure (.error rc)
  | .error .eof => pure (.ok rows)
  | .error rc => pure (.error rc)
  | .ok row_values => do
    mayRaise .ruby
    again (rows ++ [row_values.zip column_info])

def readRows (column_info : List ColumnInfo) : Nat → Rows → Proc Exit Rb (Except Code Rows)
  | 0, rows => rowTurn alloc column_info rows fun _ => throw .unfinished
  | turns + 1, rows => rowTurn alloc column_info rows (readRows column_info turns)

/-- An error is what `read_query_error` notes. -/
def readQueryResponse (turns : Nat) : Proc Exit Rb (Except Code Result) := do
  let rc ← awaitQuery alloc turns
  match rc with
  | .error rc => pure (.error rc)
  | .ok columnCount => do
    mayRaise .ruby
    match columnCount with
    | none => do
      let s ← get
      pure (.ok
        { fields := []
          rows := []
          last_insert_id := some s.ctx.conn.last_insert_id
          affected_rows := some s.ctx.conn.affected_rows })
    | some columnCount => do
      let rc ← readColumns alloc turns columnCount.toNat []
      match rc with
      | .error rc => pure (.error rc)
      | .ok columns => do
        mayRaise .ruby
        let rc ← readRows alloc (columns.map columnInfo) turns []
        match rc with
        | .error rc => pure (.error rc)
        | .ok rows =>
          pure (.ok
            { fields := columns.map Column.name
              rows
              last_insert_id := none
              affected_rows := none })

/-- `rb_protect`, and what is done with an exception before it is raised again. -/
def protect {α : Type} (m : Proc Exit Rb α) : Proc Exit Rb α := do
  let r ← Proc.attempt m
  match r with
  | .ok a => pure a
  | .error (.raised r) => do
    sockShutdown
    throw (.raised r)
  | .error e => throw e

def executeReadQueryResponse (turns : Nat) : Proc Exit Rb Returned := do
  let result ← orHandle (protect (readQueryResponse alloc turns))
  let s ← get
  Proc.when (s.ctx.conn.server_status &&& moreResultsExist = 0) releaseBuffer
  pure (.result result)

/-- The buffer is the one that `query` kept. -/
def nextResult (turns : Nat) : Proc Exit Rb Returned := do
  getOpenCtx
  let s ← get
  if s.ctx.conn.server_status &&& moreResultsExist = 0 then pure .nil
  else executeReadQueryResponse alloc turns

/-- `rb_trilogy_more_results_exist` -/
def moreResultsExist? : Proc Exit Rb Returned := do
  getOpenCtx
  let s ← get
  pure (.bool (s.ctx.conn.server_status &&& moreResultsExist ≠ 0))

def query (query : List UInt8) (turns : Nat) : Proc Exit Rb Returned := do
  getOpenCtx
  mayRaise .argument
  acquireBuffer
  orHandle (sendFlushed (Conn.querySend alloc query) turns)
  executeReadQueryResponse alloc turns

def escape (str : List UInt8) : Proc Exit Rb Returned := do
  getOpenCtx
  mayRaise .argument
  acquireBuffer
  let escaped ← orHandle (onBuffer (Conn.escape alloc str))
  mayRaise .ruby
  releaseBuffer
  pure (.string escaped)

/-- Neither an error nor the answer of the server keeps a connection from being
closed. -/
def close (turns : Nat) : Proc Exit Rb Returned := do
  let s ← get
  if s.ctx.socket then do
    acquireBuffer
    let rc ← sendFlushed (Conn.closeSend alloc) turns
    match rc with
    | .ok () => do
      let _ ← await (Conn.closeRecv alloc) turns
      releaseBuffer
    | .error _ => releaseBuffer
    free
    pure .nil
  else pure .nil

def check : Proc Exit Rb Returned := do
  getOpenCtx
  let rc ← onConn (Conn.onSocket Sock.check)
  match rc with
  | .ok () | .error .again => pure (.bool true)
  | .error rc => handleTrilogyError rc

def discard : Proc Exit Rb Returned := do
  let s ← get
  if s.ctx.socket then do
    sockShutdown
    free
    pure (.bool true)
  else pure (.bool true)

end

inductive Method
  | query (query : List UInt8)
  | nextResult
  | moreResultsExist
  | escape (str : List UInt8)
  | ping
  | changeDb (database : List UInt8)
  | setServerOption (option : UInt16)
  | check
  | close
  | discard
  deriving DecidableEq

def Method.run (alloc : Alloc) (turns : Nat) : Method → Proc Exit Rb Returned
  | query q => Rb.query alloc q turns
  | nextResult => Rb.nextResult alloc turns
  | moreResultsExist => Rb.moreResultsExist?
  | escape str => Rb.escape alloc str
  | ping => Rb.ping alloc turns
  | changeDb database => Rb.changeDb alloc database turns
  | setServerOption option => Rb.setServerOption alloc option turns
  | check => Rb.check
  | close => Rb.close alloc turns
  | discard => Rb.discard

end Rb

end Trilogy
