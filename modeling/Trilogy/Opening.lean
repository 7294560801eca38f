import Trilogy.Lib.Lifetime
import Trilogy.RubyClient

/-! `trilogy_sock_new` makes an object that has to be closed, by way of its close
callback or of `_cb_raw_close` itself. From there to the point where it is
stored in the connection there are two ways, `trilogy_connect_send` and the
`try_connect` of the Ruby client. What was done to the object is in `applied`. -/
namespace Trilogy

open Lib Proc

/-- What comes of connecting to an address: the socket is not made, not prepared or
not connected; or there is a wait, after which it may turn out to have an error. -/
inductive Attempt
  | refused
  | waits (waited : Rb.Waited) (error : Bool)
  deriving DecidableEq

namespace Attempt

def Connects (attempt : Attempt) : Prop := attempt = waits .ready false

instance (attempt : Attempt) : Decidable attempt.Connects :=
  inferInstanceAs (Decidable (attempt = waits .ready false))

/-- No exception leaves the wait. -/
def Uninterrupted (attempt : Attempt) : Prop := ∀ error, attempt ≠ waits .interrupted error

end Attempt

/-- The functions and callbacks that get the object, and the new wait callback. -/
inductive Applied
  | resolve | connect | wait | setWait | shutdown | close
  deriving DecidableEq

def Applied.closes (a : Applied) : Bool := a = .close

/-- What `getaddrinfo` finds, with what comes of each address, and what comes of a
path. -/
structure World where
  lookup : Option (List Attempt)
  unix : Attempt

structure Opening where
  client : Rb
  sock : Sock
  /-- what comes of the addresses of `sock->addr` -/
  attempts : List Attempt
  /-- `wait_cb` is that of the Ruby client -/
  ruby_wait : Bool
  applied : List Applied
  /-- `conn->socket` is the object -/
  stored : Bool

namespace Opening

def apply (a : Applied) : Proc Rb.Exit Opening Unit :=
  modify fun s => { s with applied := s.applied ++ [a] }

def sockNew (opts : SockOpt) (net : Net) : Proc Rb.Exit Opening Unit := modify fun s =>
  { s with
    sock := Sock.new opts net
    attempts := []
    ruby_wait := false
    applied := []
    stored := false }

def sockResolve (world : World) : Proc Rb.Exit Opening (Except Code Unit) := do
  apply .resolve
  let s ← get
  match s.sock.opts.hostname, s.sock.opts.path with
  | some _, _ =>
    match world.lookup with
    | none => pure (.error .dnsErr)
    | some attempts => do
      set { s with
        attempts
        sock := { s.sock with addr := some (.inet (attempts.map fun attempt : Attempt => decide attempt.Connects)) } }
      pure (.ok ())
  | none, some path =>
    if path.length + 1 > Sock.sunPathSize then do
      apply .close
      pure (.error .err)
    else do
      set { s with attempts := [world.unix], sock := { s.sock with addr := some (.unix path) } }
      pure (.ok ())
  | none, none => do
    apply .close
    pure (.error .err)

/-- `trilogy_sock_wait`. The poll of `_cb_wait` has no timeout; an exception leaves
the Ruby callback behind the shutdown. -/
def sockWait (waited : Rb.Waited) : Proc Rb.Exit Opening (Except Code Unit) := do
  apply .wait
  let s ← get
  match s.ruby_wait, waited with
  | _, .ready => pure (.ok ())
  | true, .timedOut => pure (.error .timeout)
  | true, .interrupted => do
    apply .shutdown
    modify fun s => { s with sock := { s.sock with io := .shutdown } }
    throw (.raised .ruby)
  | _, _ => pure (.error .syserr)

def rawConnectInternal : Attempt → Proc Rb.Exit Opening (Except Code Unit)
  | .refused => pure (.error .syserr)
  | .waits waited error => do
    let rc ← sockWait waited
    match rc with
    | .error rc => pure (.error rc)
    | .ok () => pure (if error then .error .syserr else .ok ())

/-- The loop of `_cb_raw_connect`. -/
def rawConnect : List Attempt → Proc Rb.Exit Opening (Except Code Unit)
  | [] => pure (.error .err)
  | attempt :: more => do
    let rc ← rawConnectInternal attempt
    match rc with
    | .ok () => pure (.ok ())
    | .error rc => if more.isEmpty then pure (.error rc) else rawConnect more

def sockConnect : Proc Rb.Exit Opening (Except Code Unit) := do
  apply .connect
  let s ← get
  rawConnect s.attempts

def connectSendSocket : Proc Rb.Exit Opening (Except Code Unit) := do
  let rc ← sockConnect
  match rc with
  | .error rc => pure (.error rc)
  | .ok () => do
    modify fun s =>
      { s with
        stored := true
        client := { s.client with
          ctx := { s.client.ctx with
            socket := true
            conn := { s.client.ctx.conn with
              socket := s.sock
              packetParser := { s.client.ctx.conn.packetParser with sequence_number := 0 } } } } }
    pure (.ok ())

section

variable (opts : SockOpt) (net : Net) (world : World)

def connectSend : Proc Rb.Exit Opening (Except Code Unit) := do
  sockNew opts net
  let rc ← sockResolve world
  match rc with
  | .error rc => pure (.error rc)
  | .ok () => connectSendSocket

def onClient {α : Type} (m : Proc Rb.Exit Rb α) : Proc Rb.Exit Opening α :=
  Proc.zoom Opening.client (fun client s => { s with client }) m

/-- `try_connect`; the handshake is read `turns` times at most. -/
def tryConnect (alloc : Alloc) (handshake : Handshake) (turns : Nat) :
    Proc Rb.Exit Opening (Except Code Handshake) := do
  sockNew opts net
  let rc ← sockResolve world
  match rc with
  | .error rc => do
    apply .close
    pure (.error rc)
  | .ok () => do
    apply .setWait
    modify fun s => { s with ruby_wait := true }
    let rc ← connectSendSocket
    match rc with
    | .error rc => do
      apply .close
      pure (.error rc)
    | .ok () => onClient (Rb.await (Conn.connectRecv alloc handshake) turns)

end

def life (s : Opening) : Life := Life.after Applied.closes s.applied

theorem life_closed (s : Opening) :
    s.life = .closed ↔ ∃ before, s.applied = before ++ [.close] ∧ .close ∉ before := by
  rw [life, Life.after_closed]
  constructor
  · rintro ⟨before, e, h, he, hbefore⟩
    obtain rfl : e = .close := of_decide_eq_true he
    exact ⟨before, h, fun hmem => by cases hbefore _ hmem⟩
  · rintro ⟨before, h, hbefore⟩
    refine ⟨before, .close, h, rfl, fun d hd => decide_eq_false ?_⟩
    rintro rfl
    exact hbefore hd

/-- Between the two the object was used, not closed. -/
structure Uses (s s' : Opening) : Prop where
  applied : ∃ more, s'.applied = s.applied ++ more ∧ ∀ a ∈ more, a.closes = false
  stored : s'.stored = s.stored
  ruby_wait : s'.ruby_wait = s.ruby_wait
  client : s'.client = s.client
  opts : s'.sock.opts = s.sock.opts

instance : Std.Refl Uses := ⟨fun _ => ⟨⟨[], by simp, by simp⟩, rfl, rfl, rfl, rfl⟩⟩

instance : IsTrans Opening Uses where
  trans := by
    rintro a b c ⟨⟨more, hb, hmore⟩, hb₁, hb₂, hb₃, hb₄⟩ ⟨⟨more', hc, hmore'⟩, hc₁, hc₂, hc₃, hc₄⟩
    refine ⟨⟨more ++ more', by rw [hc, hb, List.append_assoc], ?_⟩, hc₁.trans hb₁, hc₂.trans hb₂,
      hc₃.trans hb₃, hc₄.trans hb₄⟩
    intro e he
    exact (List.mem_append.mp he).elim (hmore e) (hmore' e)

theorem uses_apply {a : Applied} (h : a.closes = false) : Keeps Uses (apply a) :=
  fun s => ⟨⟨[a], rfl, by simp [h]⟩, rfl, rfl, rfl, rfl⟩

theorem uses_sockWait (waited : Rb.Waited) : Keeps Uses (sockWait waited) := by
  refine .bind (uses_apply rfl) fun _ => .bind .get fun s => ?_
  split
  · exact .pure _
  · exact .pure _
  · refine .bind (uses_apply rfl) fun _ => .bind (.modify fun s => ?_) fun _ => .throw _
    exact ⟨⟨[], by simp, by simp⟩, rfl, rfl, rfl, rfl⟩
  · exact .pure _

theorem uses_rawConnectInternal (attempt : Attempt) : Keeps Uses (rawConnectInternal attempt) := by
  cases attempt with
  | refused => exact .pure _
  | waits waited error =>
    apply Keeps.bind (uses_sockWait waited)
    intro rc
    cases rc with
    | error rc => exact .pure _
    | ok _ => exact .pure _

theorem uses_rawConnect (attempts : List Attempt) : Keeps Uses (rawConnect attempts) := by
  induction attempts with
  | nil => exact .pure _
  | cons attempt more ih =>
    rw [rawConnect]
    apply Keeps.bind (uses_rawConnectInternal attempt)
    intro rc
    cases rc with
    | ok _ => exact .pure _
    | error rc => exact .ite (fun _ => .pure _) fun _ => ih

theorem uses_sockConnect : Keeps Uses sockConnect :=
  .bind (uses_apply rfl) fun _ => .bind .get fun s => uses_rawConnect s.attempts

/-- Without the callback of the Ruby client, or without an exception in it, a wait
comes to an end. -/
theorem sockWait_ends {s : Opening} {waited : Rb.Waited}
    (ends : s.ruby_wait = false ∨ waited ≠ .interrupted) :
    ∃ r, sockWait waited s = (.ok r, { s with applied := s.applied ++ [.wait] }) ∧
      (r = .ok () ↔ waited = .ready) := by
  rw [sockWait, apply, modify_bind, get_bind]
  cases waited with
  | ready => exact ⟨_, rfl, by simp⟩
  | timedOut => cases hpoll : s.ruby_wait <;> exact ⟨_, rfl, by simp⟩
  | failed => cases hpoll : s.ruby_wait <;> exact ⟨_, rfl, by simp⟩
  | interrupted =>
    have hpoll := ends.resolve_right fun h => h rfl
    simp only [hpoll]
    exact ⟨_, rfl, by simp⟩

theorem rawConnectInternal_ends {s : Opening} (attempt : Attempt)
    (ends : s.ruby_wait = false ∨ attempt.Uninterrupted) :
    ∃ r applied, rawConnectInternal attempt s = (.ok r, { s with applied }) ∧
      (r = .ok () ↔ attempt.Connects) := by
  cases attempt with
  | refused => exact ⟨_, _, rfl, by simp [Attempt.Connects]⟩
  | waits waited error =>
    have hawake : s.ruby_wait = false ∨ waited ≠ .interrupted :=
      ends.imp_right fun h hwaited => h error (congrArg (Attempt.waits · error) hwaited)
    obtain ⟨r, hwait, hready⟩ := sockWait_ends hawake
    rw [rawConnectInternal, bind_of_ok hwait]
    cases r with
    | ok _ =>
      obtain rfl := hready.mp rfl
      refine ⟨_, _, rfl, ?_⟩
      cases error <;> simp [Attempt.Connects]
    | error rc =>
      have hnot : waited ≠ .ready := by
        intro h
        cases hready.mpr h
      exact ⟨_, _, rfl, by simp [Attempt.Connects, hnot]⟩

theorem rawConnect_ends {s : Opening} (attempts : List Attempt)
    (ends : s.ruby_wait = false ∨ ∀ a ∈ attempts, a.Uninterrupted) :
    ∃ r applied, rawConnect attempts s = (.ok r, { s with applied }) ∧
      (r = .ok () ↔ ∃ a ∈ attempts, a.Connects) := by
  induction attempts generalizing s with
  | nil => exact ⟨_, _, rfl, by simp⟩
  | cons attempt more ih =>
    obtain ⟨r, applied, hr, hconnects⟩ :=
      rawConnectInternal_ends attempt (ends.imp_right fun h => h attempt (List.mem_cons_self ..))
    rw [rawConnect, bind_of_ok hr]
    cases r with
    | ok _ => exact ⟨_, _, rfl, by simp [hconnects.mp rfl]⟩
    | error rc =>
      have hnot : ¬ attempt.Connects := by
        intro h
        cases hconnects.mpr h
      cases more with
      | nil => exact ⟨_, _, rfl, by simp [hnot]⟩
      | cons next more =>
        obtain ⟨r, applied, hr, hmore⟩ := @ih { s with applied }
          (ends.imp_right fun h a ha => h a (List.mem_cons_of_mem _ ha))
        refine ⟨r, applied, hr, ?_⟩
        rw [hmore]
        simp [hnot]

end Opening

/-- Neither of the two ways to name a server, or a path that fits into no address. -/
def SockOpt.Unaddressed (opts : SockOpt) : Prop :=
  opts.hostname = none ∧ ∀ path, opts.path = some path → Sock.sunPathSize < path.length + 1

/-- What comes of the addresses that the options stand for. -/
def World.attempts (world : World) (opts : SockOpt) : List Attempt :=
  if opts.hostname.isSome then world.lookup.getD [] else [world.unix]

namespace Opening

variable {opts : SockOpt} {net : Net} {world : World} {s : Opening}

/-- The object as `trilogy_sock_new` leaves it. -/
def Fresh (opts : SockOpt) (s : Opening) : Prop :=
  s.sock.opts = opts ∧ s.applied = [] ∧ s.stored = false ∧ s.ruby_wait = false

/-- What resolving comes to. Only without an address does it close the object. -/
theorem sockResolve_cases (fresh : Fresh opts s) :
    (opts.Unaddressed ∧ sockResolve world s =
      (.ok (.error .err), { s with applied := [.resolve, .close] })) ∨
    (¬ opts.Unaddressed ∧ opts.hostname.isSome ∧ world.lookup = none ∧ sockResolve world s =
      (.ok (.error .dnsErr), { s with applied := [.resolve] })) ∨
    (¬ opts.Unaddressed ∧ ∃ addr, sockResolve world s =
      (.ok (.ok ()), { s with
        applied := [.resolve]
        attempts := world.attempts opts
        sock := { s.sock with addr } })) := by
  obtain ⟨hopts, happlied, -, -⟩ := fresh
  rw [sockResolve, apply, modify_bind, get_bind]
  simp only [hopts, happlied, List.nil_append]
  rcases hhost : opts.hostname with _ | host
  · rcases hpath : opts.path with _ | path
    · left
      exact ⟨⟨hhost, by simp [hpath]⟩, by simp [apply]⟩
    · by_cases long : path.length + 1 > Sock.sunPathSize
      · left
        refine ⟨⟨hhost, ?_⟩, by simp [apply, long]⟩
        intro path' h
        rw [hpath] at h
        cases h
        exact long
      · right
        right
        refine ⟨fun h => long (h.2 path hpath), some (.unix path), ?_⟩
        simp only [if_neg long, World.attempts, hhost]
        rfl
  · have addressed : ¬ opts.Unaddressed := fun h => by rw [h.1] at hhost; cases hhost
    right
    rcases hlookup : world.lookup with _ | attempts
    · left
      exact ⟨addressed, rfl, rfl, rfl⟩
    · right
      refine ⟨addressed, some (.inet (attempts.map fun a : Attempt => decide a.Connects)), ?_⟩
      simp only [World.attempts, hhost, hlookup]
      rfl

/-- Where the object goes to when it was resolved: it is stored, or the socket did not
connect, or an exception came out of a wait. -/
theorem connectSendSocket_cases (s : Opening) :
    (∃ s', connectSendSocket s = (.ok (.ok ()), s') ∧ s'.stored = true) ∨
    (∃ rc s', connectSendSocket s = (.ok (.error rc), s') ∧ Uses s s') ∨
    ∃ exit s', connectSendSocket s = (.error exit, s') ∧ Uses s s' := by
  have huses := uses_sockConnect s
  rw [connectSendSocket, bind_apply]
  rcases h : sockConnect s with ⟨exit | r, s'⟩
  · rw [h] at huses
    exact .inr (.inr ⟨exit, s', rfl, huses⟩)
  · rw [h] at huses
    cases r with
    | ok _ => exact .inl ⟨_, rfl, rfl⟩
    | error rc => exact .inr (.inl ⟨rc, s', rfl, huses⟩)

theorem connectSendSocket_ends (poll : s.ruby_wait = false) :
    ∃ r, (connectSendSocket s).1 = .ok r ∧ (r = .ok () ↔ ∃ a ∈ s.attempts, a.Connects) ∧
      (connectSendSocket s).2.client.ctx.conn =
        if r = .ok () then { s.client.ctx.conn with
          socket := s.sock
          packetParser := { s.client.ctx.conn.packetParser with sequence_number := 0 } }
        else s.client.ctx.conn := by
  have hconnect : sockConnect s =
      rawConnect s.attempts { s with applied := s.applied ++ [.connect] } := rfl
  obtain ⟨r, applied, hr, hconnects⟩ :=
    @rawConnect_ends { s with applied := s.applied ++ [.connect] } s.attempts (.inl poll)
  rw [← hconnect] at hr
  rw [connectSendSocket, bind_of_ok hr]
  cases r with
  | ok _ => exact ⟨_, rfl, hconnects, rfl⟩
  | error rc => exact ⟨_, rfl, hconnects, rfl⟩

theorem Uses.life {s s' : Opening} (h : Uses s s') (live : s.life = .live) : s'.life = .live := by
  obtain ⟨more, hmore, hopen⟩ := h.applied
  rw [Opening.life, Life.after_live] at live ⊢
  intro a ha
  rw [hmore] at ha
  exact (List.mem_append.mp ha).elim (live a) (hopen a)

theorem life_close {s : Opening} (live : s.life = .live) : (apply .close s).2.life = .closed := by
  change Life.after Applied.closes (s.applied ++ [.close]) = .closed
  rw [Life.after_concat, Life.next_closed]
  exact ⟨live, rfl⟩

theorem sockNew_fresh (opts : SockOpt) (net : Net) (s : Opening) :
    ∃ s₀, sockNew opts net s = (.ok (), s₀) ∧ Fresh opts s₀ ∧ s₀.sock = Sock.new opts net ∧
      s₀.client = s.client :=
  ⟨_, rfl, ⟨rfl, rfl, rfl, rfl⟩, rfl, rfl⟩

/-- `net` has the same outcomes. -/
structure Describes (world : World) (net : Net) : Prop where
  lookup : net.lookup =
    world.lookup.map fun attempts => attempts.map fun a : Attempt => decide a.Connects
  unix : net.unix_connect = decide world.unix.Connects

/-- The object has the addresses of its socket. -/
structure Addressed (s : Opening) : Prop where
  raw : s.sock.io = .raw
  addr : (∃ path, s.sock.addr = some (.unix path) ∧ ∃ a, s.attempts = [a] ∧
      s.sock.net.unix_connect = decide a.Connects) ∨
    s.sock.addr = some (.inet (s.attempts.map fun a : Attempt => decide a.Connects))

theorem connectFirst_ok (connects : List Bool) :
    Sock.connectFirst connects = .ok () ↔ true ∈ connects := by
  induction connects with
  | nil => simp [Sock.connectFirst]
  | cons first more ih =>
    cases first with
    | true => simp [Sock.connectFirst]
    | false =>
      cases more with
      | nil => simp [Sock.connectFirst]
      | cons second more =>
        rw [Sock.connectFirst, ih]
        · simp
        · simp

theorem sockConnect_ends (h : s.Addressed) :
    ∃ r, Sock.connect s.sock = (r, s.sock) ∧ (r = .ok () ↔ ∃ a ∈ s.attempts, a.Connects) := by
  obtain ⟨raw, ⟨path, haddr, a, hattempts, hunix⟩ | haddr⟩ := h
  · rw [Sock.connect, get_bind]
    simp only [raw, haddr, hattempts, hunix, List.mem_singleton, exists_eq_left]
    by_cases hconnects : a.Connects
    · exact ⟨.ok (), by simp [hconnects], by simp [hconnects]⟩
    · exact ⟨.error .syserr, by simp [hconnects], by simp [hconnects]⟩
  · have hmem := connectFirst_ok (s.attempts.map fun a : Attempt => decide a.Connects)
    rw [Sock.connect, get_bind]
    simp only [raw, haddr]
    generalize Sock.connectFirst (s.attempts.map fun a : Attempt => decide a.Connects) = r at hmem
    cases r with
    | error rc => exact ⟨_, rfl, by simpa using hmem⟩
    | ok _ => exact ⟨_, rfl, by simpa using hmem⟩

/-- Resolving is that of the model of the socket. -/
theorem sockResolve_resolve (fresh : Fresh opts s) (raw : s.sock.io = .raw)
    (describes : Describes world s.sock.net) :
    (sockResolve world s).1 = .ok (Sock.resolve s.sock).1 ∧
      (sockResolve world s).2.sock = (Sock.resolve s.sock).2 ∧
      (∀ u, (Sock.resolve s.sock).1 = .ok u → (sockResolve world s).2.Addressed) := by
  obtain ⟨hopts, -, -, -⟩ := fresh
  rw [sockResolve, Sock.resolve, apply, modify_bind, get_bind, get_bind]
  simp only [hopts]
  rcases hhost : opts.hostname with _ | host
  · rcases hpath : opts.path with _ | path
    · exact ⟨rfl, rfl, fun _ h => by cases h⟩
    · by_cases long : path.length + 1 > Sock.sunPathSize
      · simp only [if_pos long]
        exact ⟨rfl, rfl, fun _ h => by cases h⟩
      · simp only [if_neg long]
        refine ⟨rfl, rfl, fun _ _ => ⟨raw, .inl ⟨path, rfl, _, rfl, describes.unix⟩⟩⟩
  · rcases hlookup : world.lookup with _ | attempts
    · simp only [describes.lookup, hlookup]
      exact ⟨rfl, rfl, fun _ h => by cases h⟩
    · simp only [describes.lookup, hlookup]
      exact ⟨rfl, rfl, fun _ _ => ⟨raw, .inr rfl⟩⟩

theorem sockResolve_client (fresh : Fresh opts s) :
    (sockResolve world s).2.client = s.client ∧ (sockResolve world s).2.ruby_wait = false := by
  obtain ⟨-, h⟩ | ⟨-, -, -, h⟩ | ⟨-, _, h⟩ := @sockResolve_cases _ world _ fresh
  · rw [h]
    exact ⟨rfl, fresh.2.2.2⟩
  · rw [h]
    exact ⟨rfl, fresh.2.2.2⟩
  · rw [h]
    exact ⟨rfl, fresh.2.2.2⟩

/-- It is `connectSend` of the model of the client, with the object beside it. -/
theorem connectSend_model (describes : Describes world net) (s : Opening) :
    ∃ r, (connectSend opts net world s).1 = .ok r ∧
      (r = .ok () ↔ (Conn.connectSend opts net s.client.ctx.conn).1 = .ok ()) ∧
      (connectSend opts net world s).2.client.ctx.conn =
        (Conn.connectSend opts net s.client.ctx.conn).2 := by
  obtain ⟨s₀, hnew, fresh, hsock, hclient⟩ := sockNew_fresh opts net s
  have hrun : connectSend opts net world s = _ := bind_of_ok hnew
  obtain ⟨hr, hresolved, haddressed⟩ := @sockResolve_resolve _ world _ fresh
    (by rw [hsock]; rfl) (by rw [hsock]; exact describes)
  obtain ⟨hclient₁, poll⟩ := @sockResolve_client _ world _ fresh
  rw [hclient] at hclient₁
  rw [bind_of_ok (ends hr)] at hrun
  generalize (sockResolve world s₀).2 = s₁ at *
  rw [← hclient₁, Conn.connectSend, ← hsock]
  rcases hresolve : Sock.resolve s₀.sock with ⟨rc | _, sock⟩
  · rw [hresolve] at hrun
    rw [hrun]
    exact ⟨_, rfl, by simp, rfl⟩
  · rw [hresolve] at hrun hresolved haddressed
    obtain ⟨r, hr, hconnects, hconn⟩ := connectSendSocket_ends poll
    obtain ⟨r', hr', hconnects'⟩ := sockConnect_ends (haddressed () rfl)
    have same : r = .ok () ↔ r' = .ok () := hconnects.trans hconnects'.symm
    rw [hresolved] at hr' hconn
    rw [hrun, hconn]
    refine ⟨r, hr, ?_⟩
    simp only [Conn.connectSendSocket, hr', same]
    cases r' with
    | ok _ => exact ⟨Iff.rfl, rfl⟩
    | error rc => exact ⟨by simp, by simp⟩

/-- Whenever it returns an error and did not store the object, the object is closed,
once and for all. -/
def ClosedOnFailure {α : Type} (m : Proc Rb.Exit Opening (Except Code α)) (s : Opening) : Prop :=
  ∀ rc s', m s = (.ok (.error rc), s') → s'.stored = false → s'.life = .closed

/-- It closes nothing itself: where a failure leaves the object closed, it is the
failure in which `trilogy_sock_resolve` closed it. -/
theorem connectSend_closed_iff (opts : SockOpt) (net : Net) (world : World) (s : Opening) :
    ClosedOnFailure (connectSend opts net world) s ↔
      opts.Unaddressed ∨ ∃ a ∈ world.attempts opts, a.Connects := by
  obtain ⟨s₀, hnew, fresh, -⟩ := sockNew_fresh opts net s
  have hrun : connectSend opts net world s = _ := bind_of_ok hnew
  obtain ⟨unaddressed, hresolve⟩ | ⟨addressed, host, lookup, hresolve⟩ | ⟨addressed, addr, hresolve⟩ :=
    @sockResolve_cases _ world _ fresh
  · rw [bind_of_ok hresolve] at hrun
    refine iff_of_true ?_ (.inl unaddressed)
    intro rc s' h _
    rw [hrun] at h
    cases h
    rfl
  · rw [bind_of_ok hresolve] at hrun
    apply iff_of_false
    · intro closed
      cases closed _ _ hrun fresh.2.2.1
    · rintro (h | ⟨a, ha, -⟩)
      · exact addressed h
      · rw [World.attempts, if_pos host, lookup] at ha
        cases ha
  · rw [bind_of_ok hresolve] at hrun
    set s₁ : Opening := { s₀ with
      applied := [.resolve], attempts := world.attempts opts, sock := { s₀.sock with addr } }
    obtain ⟨r, hr, hconnects, -⟩ := @connectSendSocket_ends s₁ fresh.2.2.2
    have hrun : connectSend opts net world s = (.ok r, (connectSendSocket s₁).2) :=
      hrun.trans (ends hr)
    cases r with
    | ok _ =>
      refine iff_of_true ?_ (.inr (hconnects.mp rfl))
      intro rc s' h
      rw [hrun] at h
      cases h
    | error rc =>
      apply iff_of_false
      · intro closed
        obtain ⟨_, h, -⟩ | ⟨_, s', h, huses⟩ | ⟨_, _, h, -⟩ := connectSendSocket_cases s₁
        · rw [h] at hr
          cases hr
        · rw [h] at hrun
          have live : s'.life = .live := huses.life rfl
          rw [closed _ _ hrun (huses.stored.trans fresh.2.2.1)] at live
          cases live
        · rw [h] at hr
          cases hr
      · rintro (h | h)
        · exact addressed h
        · cases hconnects.mpr h

section

variable {alloc : Alloc} {handshake : Handshake} {turns : Nat}

/-- With an address, an error closes the object, and an exception leaves it open. -/
theorem tryConnect_ends (addressed : ¬ opts.Unaddressed) {r : Except Rb.Exit (Except Code Handshake)}
    {s' : Opening} (h : tryConnect opts net world alloc handshake turns s = (r, s'))
    (unstored : s'.stored = false) :
    (∃ rc, r = .ok (.error rc) ∧ s'.life = .closed) ∨ ∃ exit, r = .error exit ∧ s'.life = .live := by
  obtain ⟨s₀, hnew, fresh, -⟩ := sockNew_fresh opts net s
  rw [tryConnect, bind_of_ok hnew] at h
  obtain ⟨unaddressed, -⟩ | ⟨-, -, -, hresolve⟩ | ⟨-, addr, hresolve⟩ :=
    @sockResolve_cases _ world _ fresh
  · exact absurd unaddressed addressed
  · rw [bind_of_ok hresolve] at h
    cases h
    exact .inl ⟨_, rfl, life_close rfl⟩
  · rw [bind_of_ok hresolve] at h
    simp only [apply, modify_bind] at h
    obtain ⟨s₂, hstore, stored⟩ | ⟨rc, s₂, hstore, huses⟩ | ⟨exit, s₂, hstore, huses⟩ :=
      connectSendSocket_cases { s₀ with
        applied := [.resolve, .setWait]
        attempts := world.attempts opts
        sock := { s₀.sock with addr }
        ruby_wait := true }
    · have h := (bind_of_ok hstore).symm.trans h
      cases h
      cases stored.symm.trans unstored
    · have h := (bind_of_ok hstore).symm.trans h
      cases h
      exact .inl ⟨rc, rfl, life_close (huses.life rfl)⟩
    · have h := (bind_of_error hstore).symm.trans h
      cases h
      exact .inr ⟨exit, rfl, huses.life rfl⟩

/-- It closes the object whatever failed, so also one that `trilogy_sock_resolve`
has closed before. -/
theorem tryConnect_closed_iff :
    ClosedOnFailure (tryConnect opts net world alloc handshake turns) s ↔ ¬ opts.Unaddressed := by
  constructor
  · intro closed unaddressed
    obtain ⟨s₀, hnew, fresh, -⟩ := sockNew_fresh opts net s
    obtain ⟨-, hresolve⟩ | ⟨addressed, -⟩ | ⟨addressed, -⟩ :=
      @sockResolve_cases _ world _ fresh
    · have hrun : tryConnect opts net world alloc handshake turns s = _ :=
        (bind_of_ok hnew).trans (bind_of_ok hresolve)
      cases closed _ _ hrun fresh.2.2.1
    · exact addressed unaddressed
    · exact addressed unaddressed
  · intro addressed rc s' h unstored
    obtain ⟨_, -, closed⟩ | ⟨_, hr, -⟩ := tryConnect_ends addressed h unstored
    · exact closed
    · cases hr

end

/-- When a call that returns an error has closed its object exactly once.
`trilogy_connect_send` has where nothing is left to it: `trilogy_sock_resolve` closed
the object, or nothing fails. For `try_connect` that is the case that goes wrong, and
an exception goes past what it has to close. -/
theorem failed_connect_closed_iff (opts : SockOpt) (net : Net) (world : World) (alloc : Alloc)
    (handshake : Handshake) (turns : Nat) (s : Opening) :
    (ClosedOnFailure (connectSend opts net world) s ↔
      opts.Unaddressed ∨ ∃ a ∈ world.attempts opts, a.Connects) ∧
    (ClosedOnFailure (tryConnect opts net world alloc handshake turns) s ↔ ¬ opts.Unaddressed) ∧
    (¬ opts.Unaddressed → ∀ exit s',
      tryConnect opts net world alloc handshake turns s = (.error exit, s') →
      s'.stored = false → s'.life = .live) := by
  refine ⟨connectSend_closed_iff opts net world s, tryConnect_closed_iff, ?_⟩
  intro addressed exit s' h unstored
  obtain ⟨_, hr, -⟩ | ⟨_, -, live⟩ := tryConnect_ends addressed h unstored
  · cases hr
  · exact live

/-- A client before it connects. -/
def unconnected : Opening where
  client :=
    { pool := ⟨0, []⟩
      allocations := 1
      ctx := { conn := .init idleSock, buff := some 0, socket := false }
      waits := []
      raises := [] }
  sock := idleSock
  attempts := []
  ruby_wait := false
  applied := []
  stored := false

/-- A path that is a byte too long is closed twice by the Ruby client, and a host that
is not found is not closed by `trilogy_connect_send`. -/
theorem failed_connect_not_closed :
    let longPath := { idleSock.opts with path := some (List.replicate 108 0x61) }
    let noHost := { idleSock.opts with hostname := some (literal "db.invalid") }
    let world : World := ⟨none, .refused⟩
    let m := tryConnect longPath idleSock.net world (fun _ => true) default 0
    let m' := connectSend noHost idleSock.net world
    (¬ ClosedOnFailure m unconnected ∧ (m unconnected).2.applied = [.resolve, .close, .close]) ∧
      ¬ ClosedOnFailure m' unconnected ∧ (m' unconnected).2.applied = [.resolve] := by
  intro longPath noHost world m m'
  constructor
  · refine ⟨fun closed => ?_, by decide +kernel⟩
    have hrun : (m unconnected).1 = .ok (.error .err) := by
      decide +kernel
    exact absurd (closed _ _ (ends hrun) (by decide +kernel)) (by decide +kernel)
  · refine ⟨fun closed => ?_, by decide +kernel⟩
    have hrun : (m' unconnected).1 = .ok (.error .dnsErr) := by
      decide +kernel
    exact absurd (closed _ _ (ends hrun) (by decide +kernel)) (by decide +kernel)

end Opening

end Trilogy
