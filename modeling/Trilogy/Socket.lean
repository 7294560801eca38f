import Trilogy.Build

/-! `socket.c`. What the kernel, the peer and OpenSSL do is in scripts, one entry
for each call that returns; any behaviour is a script. Where a script is at its
end nothing more arrives: reads, writes and handshakes ask to be called again,
and a wait is cut short by an error. `received` and `sent` are the history of
what crossed the wire, and on which channel; no function reads them. -/
namespace Trilogy

open Lib

/-- `errno`, as far as the code tells it apart. -/
inductive Errno
  | eintr | eagain | epipe | other
  deriving DecidableEq, Repr

/-- What `SSL_get_error` makes of a call that failed; for `SSL_ERROR_SYSCALL`,
whether an error is queued and whether `errno` is 0. -/
inductive SslError
  | wantRead | wantWrite | zeroReturn
  | syscall (queued errnoZero : Bool)
  | other
  deriving DecidableEq, Repr

/-- `read(2)`; no bytes at all is the end of the stream. -/
inductive RawRead
  | data (bytes : List UInt8)
  | failed (e : Errno)
  deriving DecidableEq, Repr

inductive RawWrite
  | wrote (n : Nat)
  | failed (e : Errno)
  deriving DecidableEq, Repr

/-- `SSL_read`, which returns at least one byte. -/
inductive TlsRead
  | data (b : UInt8) (bytes : List UInt8)
  | failed (e : SslError)
  deriving DecidableEq, Repr

inductive TlsWrite
  | wrote (n : Nat)
  | failed (e : SslError)
  deriving DecidableEq, Repr

/-- `SSL_connect` -/
inductive SslConnect
  | done
  | failed (e : SslError)
  deriving DecidableEq, Repr

/-- The world outside. -/
structure Net where
  /-- `getaddrinfo`: whether a connection to each of the addresses succeeds. -/
  lookup : Option (List Bool)
  unix_connect : Bool
  raw_reads : List RawRead
  raw_writes : List RawWrite
  tls_reads : List TlsRead
  tls_writes : List TlsWrite
  polls : List Bool
  /-- Whether `trilogy_ssl_ctx` and the `SSL_set` functions succeed. -/
  ssl_setups : List Bool
  ssl_connects : List SslConnect
  deriving DecidableEq, Repr

inductive SslMode
  | disabled | verifyIdentity | verifyCa | requiredNoverify | preferredNoverify
  deriving DecidableEq, Repr

structure SockOpt where
  hostname : Option (List UInt8)
  path : Option (List UInt8)
  database : Option (List UInt8)
  username : Option (List UInt8)
  /-- with its length; `NULL` is the empty one -/
  password : List UInt8
  encoding : UInt8
  ssl_mode : SslMode
  enable_cleartext_plugin : Bool
  flags : UInt32
  max_allowed_packet : Nat
  deriving DecidableEq, Repr

/-- `sock->addr` -/
inductive Addr
  | inet (connects : List Bool)
  | unix (path : List UInt8)
  deriving DecidableEq, Repr

/-- Which set of callbacks the socket has. -/
inductive Io
  | raw | ssl | shutdown
  deriving DecidableEq, Repr

inductive Channel
  | plain | tls
  deriving DecidableEq, Repr

structure Sock where
  opts : SockOpt
  addr : Option Addr
  io : Io
  net : Net
  received : List (Channel × List UInt8)
  sent : List (Channel × List UInt8)
  deriving DecidableEq, Repr

namespace Sock

/-- `sizeof(sa->sun_path)` -/
def sunPathSize : Nat := 108

/-- `trilogy_sock_new` -/
def new (opts : SockOpt) (net : Net) : Sock :=
  { opts, addr := none, io := .raw, net, received := [], sent := [] }

def resolve : Proc Code Sock Unit := do
  let sock ← get
  match sock.opts.hostname, sock.opts.path with
  | some _, _ =>
    match sock.net.lookup with
    | none => throw .dnsErr
    | some connects => set { sock with addr := some (.inet connects) }
  | none, some path =>
    if path.length + 1 > sunPathSize then throw .err
    else set { sock with addr := some (.unix path) }
  | none, none => throw .err

/-- The loop of `_cb_raw_connect` over the addresses. -/
def connectFirst : List Bool → Except Code Unit
  | [] => .error .err
  | true :: _ => .ok ()
  | [false] => .error .syserr
  | false :: more => connectFirst more

def connect : Proc Code Sock Unit := do
  let sock ← get
  match sock.io, sock.addr with
  | .shutdown, _ => throw .closedConnection
  | _, some (.inet connects) =>
    match connectFirst connects with
    | .ok () => pure ()
    | .error rc => throw rc
  | _, some (.unix _) => if sock.net.unix_connect then pure () else throw .syserr
  | _, none => throw .err

def rawReadError : Errno → Code
  | .eintr | .eagain => .again
  | _ => .syserr

def rawWriteError : Errno → Code
  | .eintr | .eagain => .again
  | .epipe => .closedConnection
  | .other => .syserr

/-- `ssl_io_return` -/
def sslIoReturn : SslError → Code
  | .wantWrite | .wantRead => .again
  | .zeroReturn => .closedConnection
  | .syscall false true => .closedConnection
  | .syscall false false => .syserr
  | .syscall true _ | .other => .opensslErr

/-- What does not fit into the caller's buffer is there at the next call. -/
def rawRead (nread : Nat) : Proc Code Sock (List UInt8) := fun sock =>
  match sock.net.raw_reads with
  | [] => (.error .again, sock)
  | .failed e :: more =>
    (.error (rawReadError e), { sock with net := { sock.net with raw_reads := more } })
  | .data bytes :: more =>
    let got := bytes.take nread
    let more := if bytes.length ≤ nread then more else .data (bytes.drop nread) :: more
    (.ok got, { sock with
      net := { sock.net with raw_reads := more }
      received := sock.received ++ [(.plain, got)] })

def sslRead (nread : Nat) : Proc Code Sock (List UInt8) := fun sock =>
  match sock.net.tls_reads with
  | [] => (.error .again, sock)
  | .failed e :: more =>
    (.error (sslIoReturn e), { sock with net := { sock.net with tls_reads := more } })
  | .data b bytes :: more =>
    let got := (b :: bytes).take nread
    let more :=
      match (b :: bytes).drop nread with
      | [] => more
      | b :: bytes => .data b bytes :: more
    (.ok got, { sock with
      net := { sock.net with tls_reads := more }
      received := sock.received ++ [(.tls, got)] })

/-- `trilogy_sock_read` -/
def read (nread : Nat) : Proc Code Sock (List UInt8) := fun sock =>
  match sock.io with
  | .raw => rawRead nread sock
  | .ssl => sslRead nread sock
  | .shutdown => (.error .closedConnection, sock)

/-- The memory that starts at `buf` is `data`, as far as it is the caller's. A length that
goes on behind it is handed on all the same. -/
def rawWrite (data : List UInt8) (nwrite : Nat) : Proc Code Sock Nat := fun sock =>
  match sock.net.raw_writes with
  | [] => (.error .again, sock)
  | .failed e :: more =>
    (.error (rawWriteError e), { sock with net := { sock.net with raw_writes := more } })
  | .wrote n :: more =>
    (.ok (min n nwrite), { sock with
      net := { sock.net with raw_writes := more }
      sent := sock.sent ++ [(.plain, data.take (min n nwrite))] })

/-- What `SSL_write` makes of a length that is no `int` is in the script. -/
def sslWrite (data : List UInt8) (nwrite : Nat) : Proc Code Sock Nat := fun sock =>
  match sock.net.tls_writes with
  | [] => (.error .again, sock)
  | .failed e :: more =>
    (.error (sslIoReturn e), { sock with net := { sock.net with tls_writes := more } })
  | .wrote n :: more =>
    (.ok (min n nwrite), { sock with
      net := { sock.net with tls_writes := more }
      sent := sock.sent ++ [(.tls, data.take (min n nwrite))] })

/-- `trilogy_sock_write` -/
def write (data : List UInt8) (nwrite : Nat) : Proc Code Sock Nat := fun sock =>
  match sock.io with
  | .raw => rawWrite data nwrite sock
  | .ssl => sslWrite data nwrite sock
  | .shutdown => (.error .closedConnection, sock)

/-- What is behind the length is not looked at. -/
theorem write_append (data rest : List UInt8) :
    write (data ++ rest) data.length = write data data.length := by
  have htake : ∀ n, (data ++ rest).take (min n data.length) = data.take (min n data.length) :=
    fun n => List.take_append_of_le_length (Nat.min_le_right _ _)
  funext sock
  unfold write rawWrite sslWrite
  simp only [htake]

/-- `trilogy_sock_wait`; poll does not tell the kinds of wait apart. -/
def wait : Proc Code Sock Unit := fun sock =>
  match sock.io with
  | .shutdown => (.ok (), sock)
  | _ =>
    match sock.net.polls with
    | [] => (.error .syserr, sock)
    | ready :: more =>
      (if ready then .ok () else .error .syserr, { sock with net := { sock.net with polls := more } })

def shutdown : Proc Code Sock Unit := modify fun sock => { sock with io := .shutdown }

def setup : Proc Code Sock Unit := fun sock =>
  match sock.net.ssl_setups with
  | true :: more => (.ok (), { sock with net := { sock.net with ssl_setups := more } })
  | false :: more => (.error .opensslErr, { sock with net := { sock.net with ssl_setups := more } })
  | [] => (.error .opensslErr, sock)

/-- The `SSL_connect` loop, over what the calls return. -/
def sslConnect : List SslConnect → Proc Code Sock Unit
  | [] => throw .opensslErr
  | result :: more => do
    modify fun sock => { sock with net := { sock.net with ssl_connects := more } }
    match result with
    | .done => pure ()
    | .failed .wantRead | .failed .wantWrite => do
      let rc ← Proc.attempt wait
      match rc with
      | .ok () => sslConnect more
      | .error _ => throw .opensslErr
    | .failed _ => throw .opensslErr

/-- `trilogy_sock_upgrade_ssl`. The descriptor of a socket that was shut down
is -1, on which no handshake succeeds. -/
def upgradeSsl : Proc Code Sock Unit := do
  setup
  let sock ← get
  if sock.opts.ssl_mode = .verifyIdentity ∧ sock.opts.hostname = none then throw .opensslErr
  else if sock.io = .shutdown then throw .opensslErr
  else do
    sslConnect sock.net.ssl_connects
    modify fun sock => { sock with io := .ssl }

end Sock

end Trilogy
