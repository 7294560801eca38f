import Trilogy.Handshaking
import Trilogy.Methods

namespace Trilogy

open Lib Proc

namespace Opening

variable {alloc : Alloc} {opts : SockOpt} {net : Net} {world : World} {handshake : Handshake}
  {turns : Nat} {s : Opening} {c : Conn}

/-- Connecting to an address that takes the connection. -/
theorem connectSendSocket_connects (awake : ∀ a ∈ s.attempts, a.Uninterrupted)
    (connects : ∃ a ∈ s.attempts, a.Connects) :
    ∃ t, connectSendSocket s = (.ok (.ok ()), t) ∧
      t.client = { s.client with
        ctx := { s.client.ctx with
          socket := true
          conn := { s.client.ctx.conn with
            socket := s.sock
            packetParser := { s.client.ctx.conn.packetParser with sequence_number := 0 } } } } := by
  have hconnect : sockConnect s =
      rawConnect s.attempts { s with applied := s.applied ++ [.connect] } := rfl
  obtain ⟨r, applied, hr, hconnects⟩ :=
    @rawConnect_ends { s with applied := s.applied ++ [.connect] } s.attempts (.inr awake)
  obtain rfl := hconnects.mpr connects
  rw [← hconnect] at hr
  exact ⟨_, bind_of_ok hr, rfl⟩

/-- Where `trilogy_connect_send` succeeds, `try_connect` gets to the greeting. -/
theorem tryConnect_reaches (describes : Describes world net)
    (awake : ∀ a ∈ world.attempts opts, a.Uninterrupted)
    (sent : Conn.connectSend opts net s.client.ctx.conn = (.ok (), c)) :
    ∃ t, tryConnect opts net world alloc handshake turns s =
        onClient (Rb.await (Conn.connectRecv alloc handshake) turns) t ∧
      t.client = { s.client with ctx := { s.client.ctx with conn := c, socket := true } } ∧
      c.socket.io = .raw ∧ c.packetParser.sequence_number = 0 := by
  obtain ⟨s₀, hnew, fresh, hsock, hclient⟩ := sockNew_fresh opts net s
  obtain ⟨hr, hresolved, haddressed⟩ := @sockResolve_resolve _ world _ fresh
    (by rw [hsock]; rfl) (by rw [hsock]; exact describes)
  rw [Conn.connectSend, ← hsock] at sent
  rcases hresolve : Sock.resolve s₀.sock with ⟨rc | _, sock⟩
  · rw [hresolve] at sent
    cases sent
  · rw [hresolve] at sent hr hresolved haddressed
    obtain ⟨-, e⟩ | ⟨-, -, -, e⟩ | ⟨-, addr, e⟩ := @sockResolve_cases _ world _ fresh
    · rw [e] at hr
      cases hr
    · rw [e] at hr
      cases hr
    · have haddressed := haddressed () rfl
      rw [e] at hresolved haddressed
      obtain ⟨r, hconnect, hconnects⟩ := sockConnect_ends haddressed
      rw [hresolved] at hconnect
      have sent : Conn.connectSendSocket sock s.client.ctx.conn = (.ok (), c) := sent
      rw [Conn.connectSendSocket, hconnect] at sent
      cases r with
      | error rc => cases sent
      | ok _ =>
        obtain rfl := congrArg Prod.snd sent
        obtain ⟨t, hsend, hstored⟩ := @connectSendSocket_connects
          { s₀ with
            applied := [.resolve, .setWait]
            attempts := world.attempts opts
            sock := { s₀.sock with addr }
            ruby_wait := true }
          awake (hconnects.mp rfl)
        have hraw : s₀.sock.io = .raw := haddressed.raw
        refine ⟨t, ?_, ?_, ?_, ?_⟩
        · rw [tryConnect, bind_of_ok hnew, bind_of_ok e]
          exact bind_of_ok hsend
        · rw [hstored, ← hresolved, ← hclient]
        · rw [← hresolved]
          exact hraw
        · rfl

end Opening

namespace Rb

/-- Whatever else Ruby raises, there is a buffer. -/
theorem acquireBuffer_ends (s : Rb) (raises : List Bool) (room : s.buffers ≤ Pool.maxSize) :
    acquireBuffer { s with raises } = (.ok (), { (acquireBuffer s).2 with raises }) ∧
      (acquireBuffer s).2.waits = s.waits ∧ (acquireBuffer s).2.ctx.buff ≠ none ∧
      (acquireBuffer s).2.buffers ≤ Pool.maxSize := by
  rw [acquireBuffer, get_bind, get_bind]
  cases hbuff : s.ctx.buff with
  | some buff =>
    have hheld : s.ctx.buff ≠ none := by simp [hbuff]
    exact ⟨rfl, rfl, hheld, room⟩
  | none =>
    dsimp only [bufferCheckout, modify_apply]
    cases hentries : s.pool.entries with
    | nil => exact ⟨rfl, rfl, by simp, by simp [buffers, Pool.len, hentries, Pool.maxSize]⟩
    | cons e entries =>
      have hroom : entries.length + 1 ≤ Pool.maxSize := by
        simpa [buffers, Pool.len, hentries, hbuff] using room
      exact ⟨rfl, rfl, by simp, hroom⟩

theorem orHandle_of_exit {α : Type} {m : Proc Exit Rb (Except Code α)} {exit : Exit} {s t : Rb}
    (e : m s = (.error exit, t)) : orHandle m s = (.error exit, t) :=
  bind_of_error e

end Rb

namespace Opening

variable {alloc : Alloc} {digests : Digests} {options : Rb.Options} {charset : UInt8} {net : Net}
  {world : World} {s : Opening} {c : Conn}

/-- What `rb_trilogy_connect` does once the socket is connected. -/
theorem rbConnect_reaches (describes : Describes world net)
    (awake : ∀ a ∈ world.attempts (options.sockOpt charset), a.Uninterrupted)
    (quiet : ∀ raise ∈ s.client.raises, raise = false)
    (ready : ∀ waited ∈ s.client.waits, waited = .ready)
    (pooled : s.client.buffers ≤ Pool.maxSize)
    (sent : Conn.connectSend (options.sockOpt charset) net
      (Rb.acquireBuffer s.client).2.ctx.conn = (.ok (), c))
    (handshake : Handshake) (packets packets' : Nat → AuthSwitchRequestPacket) (turns : Nat) :
    ∃ t, rbConnect alloc digests options charset net world handshake packets packets' turns s =
        onClient (do
          let handshake ← Rb.orHandle (Rb.await (Conn.connectRecv alloc handshake) turns)
          Rb.authenticate alloc digests packets packets' handshake
            (options.sockOpt charset).ssl_mode turns
          Rb.releaseBuffer
          pure .nil) t ∧
      Rb.Busy s.client.waits.length c t.client ∧ c.socket.io = .raw ∧
      c.packetParser.sequence_number = 0 := by
  obtain ⟨raises, hraise, hquiet⟩ := Rb.mayRaise_quiet quiet .argument
  obtain ⟨hacquire, hwaits, hbuff, hroom⟩ := Rb.acquireBuffer_ends s.client raises pooled
  have hraised : onClient (Rb.mayRaise .argument) s =
      (.ok (), { s with client := { s.client with raises } }) := by
    rw [onClient, zoom_apply, hraise]
  have hacquired : onClient Rb.acquireBuffer { s with client := { s.client with raises } } =
      (.ok (), { s with client := { (Rb.acquireBuffer s.client).2 with raises } }) := by
    rw [onClient, zoom_apply, hacquire]
  obtain ⟨t, hconnect, hclient, hraw, hfirst⟩ := @tryConnect_reaches alloc _ net world handshake
    turns { s with client := { (Rb.acquireBuffer s.client).2 with raises } } c describes awake sent
  refine ⟨t, ?_, ?_, hraw, hfirst⟩
  · rw [rbConnect, bind_of_ok hraised, bind_of_ok hacquired, bind_apply, hconnect]
    rcases e : Rb.await (Conn.connectRecv alloc handshake) turns t.client with ⟨exit | rc | a, u⟩
    · rw [onClient, onClient, zoom_apply, zoom_apply, bind_of_error (Rb.orHandle_of_exit e), e]
    · obtain ⟨exit, v, hends⟩ := Rb.handleTrilogyError_ends rc u
      have hhandled := (Rb.orHandle_of_error e).trans (hends Handshake)
      rw [onClient, onClient, zoom_apply, zoom_apply, bind_of_error hhandled, e]
      dsimp only
      rw [onClient, zoom_apply, hends]
    · rw [onClient, onClient, zoom_apply, zoom_apply, bind_of_ok (Rb.orHandle_of_ok e), e]
      rfl
  · rw [hclient]
    refine ⟨⟨rfl, rfl, ?_, ?_, hquiet, hroom⟩, hbuff⟩
    · rw [hwaits]
      exact ready
    · rw [hwaits]

end Opening

theorem Conn.Learnt.polled {answer : Answer} {c c₁ c' : Conn} (h : Learnt c answer c₁)
    (polled : Polled c₁ c') : Learnt c answer c' := by
  obtain ⟨_, ⟨polls, rfl⟩, rfl⟩ := polled
  cases answer with
  | silent => exact h
  | ok reply => exact ⟨h.affected_rows, h.last_insert_id, h.standing⟩
  | err error => exact ⟨h.error_code, h.error_message, h.standing⟩
  | rows _ _ _ ending | binaryRows _ _ ending => cases ending <;> exact h
  | prepared stmt params columns => exact h

theorem Conn.Polled.patience {c c' : Conn} (polled : Polled c c') : c'.patience = c.patience := by
  obtain ⟨_, ⟨polls, rfl⟩, rfl⟩ := polled
  rfl

theorem Conn.Polled.kept {c c' : Conn} (polled : Polled c c') :
    c'.socket.opts = c.socket.opts ∧ c'.socket.sentBytes = c.socket.sentBytes ∧
      c'.socket.capacity = c.socket.capacity := by
  obtain ⟨_, ⟨polls, rfl⟩, rfl⟩ := polled
  exact ⟨rfl, rfl, rfl⟩

theorem Login.returned_eq (login : Login) : login.returned = login.answer.outcome () := by
  cases login with
  | turnedAway _ => rfl
  | decided _ d | switched _ _ _ d =>
    rw [Login.returned, Login.answer]
    cases d.verdict <;> rfl

theorem Login.accepted_iff (login : Login) :
    login.returned = .ok () ↔ login.answer.error = none := by
  rw [login.returned_eq, Answer.outcome]
  by_cases herror : login.answer.error = none
  · simp only [herror, if_true]
  · simp only [herror, if_false, reduceCtorEq]

namespace Rb

open Conn

variable {alloc : Alloc} {digests : Digests} {login : Login} {turns : Nat} {c c₁ : Conn} {s : Rb}

/-- The connection with as many polls as there is to read and to write. -/
def twin (c : Conn) : Conn :=
  { c with socket := { c.socket with
      net := { c.socket.net with polls := List.replicate c.patience true } } }

theorem twin_polls (c : Conn) : (twin c).socket.net.polls.length = c.patience :=
  List.length_replicate

theorem twin_stage {lines : List Line} {rest : List UInt8} {spare : Nat}
    (first : c.packetParser.sequence_number = 0) (h : Resting c (Line.served 0 lines ++ rest))
    (room : (Line.claimed 0 lines).length + spare ≤ c.socket.capacity)
    (short : ∀ line ∈ lines, line.payload.length < maxPacketLen) :
    Stage ⟨c.socket.opts, rest, c.socket.sentBytes ++ Line.claimed 0 lines, 0, spare⟩ lines
      (twin c) := by
  have hpolled : Polled c (twin c) := ⟨_, ⟨_, rfl⟩, rfl⟩
  exact Stage.opening (c := twin c) first (h.polled hpolled) room
    (fun _ h => List.eq_of_mem_replicate h) (twin_polls c).ge short

theorem Busy.alongside (h : Busy c.patience c s) (raw : c.socket.io = .raw)
    (enough : c.patience ≤ turns) : Alongside turns (twin c) s where
  polled := ⟨c.socket, ⟨c.socket.net.polls, rfl⟩, h.conn⟩
  polls _ h := List.eq_of_mem_replicate h
  opened := by
    change c.socket.io ≠ .shutdown
    rw [raw]
    decide
  busy := by
    rw [twin_polls, h.conn]
    exact h
  enough := (twin_polls c).trans_le enough

/-- The part of the method that is behind the greeting ends as the handshake does. -/
theorem Concluded.returned {answer : Answer} {p : Proc Exit Rb Unit}
    (h : Concluded turns (answer.outcome (), c₁) (p s)) (learnt : Learnt c answer c₁) :
    ∃ t, (p >>= fun _ => do
        releaseBuffer
        Pure.pure Returned.nil) s = (conclude .nil answer.error, t) ∧ Polled c₁ t.ctx.conn ∧
      Calm c₁.socket.net.polls.length t.ctx.conn t ∧ c₁.socket.io ≠ .shutdown ∧
      c₁.socket.net.polls.length ≤ turns := by
  cases herror : answer.error with
  | none =>
    rw [Answer.outcome, if_pos herror] at h
    obtain hfailed | ⟨_, u, -, hp, halong⟩ | ⟨rc, v, exit, u, herr, -⟩ := h
    · cases hfailed
    · obtain ⟨t, hrelease, calm⟩ := halong.busy.toCalm.releaseBuffer
      have hpolled := halong.polled
      rw [← calm.conn] at hpolled calm
      refine ⟨t, ?_, hpolled, calm, halong.opened, halong.enough⟩
      rw [bind_of_ok hp, bind_of_ok hrelease]
      rfl
    · cases herr
  | some error =>
    rw [Answer.outcome, if_neg (by simp [herror])] at h
    obtain hfailed | ⟨_, u, hok, -⟩ | ⟨rc, v, exit, u, herr, hp, hraises, halong⟩ := h
    · cases hfailed
    · cases hok
    · obtain rfl : Code.err = rc := Except.error.inj herr
      obtain ⟨hcode, hmessage⟩ := learnt.error herror
      have hkept : v.ctx.conn.error_code = c₁.error_code ∧
          v.ctx.conn.error_message = c₁.error_message := by
        obtain ⟨_, -, hv⟩ := halong.polled
        rw [hv]
        exact ⟨rfl, rfl⟩
      obtain ⟨t, hhandle, calm⟩ := halong.busy.handleTrilogyError Unit
        (hkept.1.trans hcode) (hkept.2.trans hmessage)
      obtain ⟨hexit, rfl⟩ := Prod.mk.inj (hraises.symm.trans hhandle)
      cases hexit
      have hpolled := halong.polled
      rw [← calm.conn] at hpolled calm
      refine ⟨u, ?_, hpolled, calm, halong.opened, halong.enough⟩
      rw [bind_of_error hp]
      rfl

end Rb

theorem Login.untouched_twin (login : Login) (c : Conn) :
    Conn.Untouched (login.greeted c) (login.greeted (Rb.twin c)) := by
  cases login <;> exact ⟨rfl, rfl, rfl, rfl, rfl⟩

/-- What a login leaves with the client, whichever way it goes. -/
structure Rb.LoggedIn (digests : Digests) (login : Login) (c : Conn) (rest : List UInt8)
    (spare turns : Nat) (s : Rb) : Prop where
  calm : Calm s.ctx.conn.patience s.ctx.conn s
  paid : s.ctx.conn.patience ≤ turns
  resting : Conn.Resting s.ctx.conn rest
  learnt : Conn.Learnt (login.greeted c) login.answer s.ctx.conn
  capabilities : s.ctx.conn.capabilities = (login.greeted c).capabilities
  opts : s.ctx.conn.socket.opts = login.optsAfter c.socket.opts
  sent : s.ctx.conn.socket.sentBytes = c.socket.sentBytes ++
    Line.claimed 0 (login.lines digests c.capabilities c.socket.opts)
  room : spare ≤ s.ctx.conn.socket.capacity

open Rb Conn Line

section

variable {alloc : Alloc} {digests : Digests} {login : Login} {options : Rb.Options}
  {charset : UInt8} {net : Net} {world : World} {s : Opening} {c : Conn} {rest : List UInt8}
  {spare turns : Nat}

theorem loggedIn (always : ∀ c, alloc c = true)
    (plain : (options.sockOpt charset).ssl_mode = .disabled)
    (describes : Opening.Describes world net)
    (awake : ∀ a ∈ world.attempts (options.sockOpt charset), a.Uninterrupted)
    (sent : connectSend (options.sockOpt charset) net
      (acquireBuffer s.client).2.ctx.conn = (.ok (), c))
    (agreeable : login.Agreeable c.socket.opts)
    (deliverable : Deliverable c (login.lines digests c.capabilities c.socket.opts))
    (h : Resting c (served 0 (login.lines digests c.capabilities c.socket.opts) ++ rest))
    (room : (claimed 0 (login.lines digests c.capabilities c.socket.opts)).length + spare ≤
      c.socket.capacity)
    (quiet : ∀ raise ∈ s.client.raises, raise = false)
    (ready : ∀ waited ∈ s.client.waits, waited = .ready)
    (enough : c.patience ≤ s.client.waits.length) (paid : c.patience ≤ turns)
    (pooled : s.client.buffers ≤ Pool.maxSize) (handshake : Handshake)
    (packets packets' : Nat → AuthSwitchRequestPacket) :
    ∃ s', Opening.rbConnect alloc digests options charset net world handshake packets packets'
        turns s = (conclude .nil login.answer.error, s') ∧
      LoggedIn digests login c rest spare turns s'.client := by
  obtain ⟨t, hrun, busy, hraw, hfirst⟩ := @Opening.rbConnect_reaches alloc digests _ _ _ _ _ _
    describes awake quiet ready pooled sent handshake packets packets' turns
  have halong : Alongside turns (twin c) t.client := (busy.mono enough).alongside hraw paid
  obtain ⟨records, hconcluded⟩ :=
    @handshake_concludes turns _ _ alloc digests handshake packets packets' halong
  have hstage := twin_stage hfirst h room deliverable.short
  have hpasses : ∀ p, Line.client p ∈ login.lines digests c.capabilities c.socket.opts →
      (twin c).Passes p.length := by
    intro p hp
    have hopts : (twin c).socket.opts = c.socket.opts := rfl
    exact (deliverable.passes p hp).of_opts hopts
  have hcapabilities : (twin c).capabilities = c.capabilities := rfl
  rw [← hcapabilities] at hstage hpasses
  obtain ⟨c', hends, hundergone⟩ := connectHandshake_runs always hstage agreeable hpasses handshake
    records.1 records.2
  rw [hends, login.returned_eq] at hconcluded
  obtain ⟨u, hprog, hbeside, calm, hopen, hbound⟩ := hconcluded.returned hundergone.learnt
  have hresting : Resting c' rest := hundergone.stage.resting
  have hopts : c'.socket.opts = login.optsAfter c.socket.opts := hundergone.stage.opts
  have hsent := hundergone.stage.sent
  rw [claimed, List.append_nil, hcapabilities] at hsent
  have hlearnt := hundergone.learnt.of_untouched (login.untouched_twin c)
  have hgreeted : (login.greeted (twin c)).capabilities = (login.greeted c).capabilities :=
    (login.untouched_twin c).capabilities
  have hpaid : c'.patience ≤ c'.socket.net.polls.length := by
    have hle := hundergone.stage.budget.2.resolve_left hopen
    rwa [Scene.after, Nat.zero_add] at hle
  have hpatience : u.ctx.conn.patience ≤ c'.socket.net.polls.length :=
    hbeside.patience ▸ hpaid
  have hlast := hbeside.untouched.capabilities
  obtain ⟨hopts', hsent', hcapacity⟩ := hbeside.kept
  have hroom : spare ≤ u.ctx.conn.socket.capacity := by
    have hspare := hundergone.stage.room
    rw [hcapacity]
    rwa [claimed, List.length_nil, Nat.zero_add] at hspare
  refine ⟨{ t with client := u }, ?_, {
    calm := calm.mono hpatience
    paid := Nat.le_trans hpatience hbound
    resting := hresting.polled hbeside
    learnt := hlearnt.polled hbeside
    capabilities := (hlast.trans hundergone.capabilities).trans hgreeted
    opts := hopts'.trans hopts
    sent := hsent'.trans hsent
    room := hroom }⟩
  rw [hrun, Opening.onClient, zoom_apply, plain]
  simp only [bind_assoc] at hprog
  rw [hprog]

end

/-- Without TLS, the Ruby client is opened or refused as the server has decided. -/
theorem client_connects {alloc : Alloc} (always : ∀ c, alloc c = true) {digests : Digests}
    {login : Login} {options : Rb.Options} {charset : UInt8} {net : Net} {world : World}
    {s : Opening} {c : Conn} {rest : List UInt8} {turns : Nat}
    (plain : (options.sockOpt charset).ssl_mode = .disabled)
    (describes : Opening.Describes world net)
    (awake : ∀ a ∈ world.attempts (options.sockOpt charset), a.Uninterrupted)
    (sent : connectSend (options.sockOpt charset) net
      (acquireBuffer s.client).2.ctx.conn = (.ok (), c))
    (agreeable : login.Agreeable c.socket.opts)
    (deliverable : Deliverable c (login.lines digests c.capabilities c.socket.opts))
    (h : Resting c (served 0 (login.lines digests c.capabilities c.socket.opts) ++ rest))
    (room : (claimed 0 (login.lines digests c.capabilities c.socket.opts)).length ≤
      c.socket.capacity)
    (quiet : ∀ raise ∈ s.client.raises, raise = false)
    (ready : ∀ waited ∈ s.client.waits, waited = .ready)
    (enough : c.patience ≤ s.client.waits.length) (paid : c.patience ≤ turns)
    (pooled : s.client.buffers ≤ Pool.maxSize) (handshake : Handshake)
    (packets packets' : Nat → AuthSwitchRequestPacket) :
    ∃ s', Opening.rbConnect alloc digests options charset net world handshake packets packets'
        turns s = (conclude .nil login.answer.error, s') ∧
      LoggedIn digests login c rest 0 turns s'.client :=
  loggedIn always plain describes awake sent agreeable deliverable h room quiet ready enough paid
    pooled handshake packets packets'

/-- From before it is connected, a Ruby client gets all that it asks for: `nil` from
`rb_trilogy_connect`, and by each method its own part of what the server says. -/
theorem client_converses {alloc : Alloc} (always : ∀ c, alloc c = true) {digests : Digests}
    {login : Login} {options : Rb.Options} {charset : UInt8} {net : Net} {world : World}
    {s : Opening} {c : Conn} {asked : List Asking} {rest : List UInt8} {turns later : Nat}
    (plain : (options.sockOpt charset).ssl_mode = .disabled)
    (describes : Opening.Describes world net)
    (awake : ∀ a ∈ world.attempts (options.sockOpt charset), a.Uninterrupted)
    (sent : connectSend (options.sockOpt charset) net
      (acquireBuffer s.client).2.ctx.conn = (.ok (), c))
    (agreeable : login.Agreeable c.socket.opts) (accepted : login.returned = .ok ())
    (deliverable : Deliverable c (login.lines digests c.capabilities c.socket.opts))
    (proper : ∀ a ∈ asked, a.exchange.Proper (login.greeted c))
    (h : Resting c (served 0 (login.lines digests c.capabilities c.socket.opts) ++
      (asked.flatMap (fun a => a.exchange.response (login.greeted c).capabilities) ++ rest)))
    (room : (claimed 0 (login.lines digests c.capabilities c.socket.opts)).length +
      (asked.flatMap fun a => a.exchange.request).length ≤ c.socket.capacity)
    (quiet : ∀ raise ∈ s.client.raises, raise = false)
    (ready : ∀ waited ∈ s.client.waits, waited = .ready)
    (enough : c.patience ≤ s.client.waits.length) (paid : c.patience ≤ turns)
    (pooled : s.client.buffers ≤ Pool.maxSize)
    (enoughLater : ∀ a ∈ asked, turns + a.exchange.answer.rowCount ≤ later)
    (handshake : Handshake) (packets packets' : Nat → AuthSwitchRequestPacket) :
    ∃ s₁ s', Opening.rbConnect alloc digests options charset net world handshake packets packets'
        turns s = (.ok .nil, s₁) ∧
      Consulted alloc later s₁.client asked s' ∧ s'.ctx.socket = true ∧
      Resting s'.ctx.conn rest ∧
      s'.ctx.conn.socket.sentBytes = c.socket.sentBytes ++
        (claimed 0 (login.lines digests c.capabilities c.socket.opts) ++
          asked.flatMap fun a => a.exchange.request) := by
  obtain ⟨s₁, hconnect, logged⟩ := loggedIn always plain describes awake sent agreeable deliverable
    h room quiet ready enough paid pooled handshake packets packets'
  rw [login.accepted_iff.mp accepted] at hconnect
  have hlimit : s₁.client.ctx.conn.socket.opts.max_allowed_packet =
      (login.greeted c).socket.opts.max_allowed_packet := by
    rw [logged.opts, login.greeted_limit]
    exact login.optsAfter_limit c.socket.opts
  have hresting := logged.resting
  rw [← logged.capabilities] at hresting
  obtain ⟨s', hconsulted, hopen, hresting', hsent⟩ :=
    consulted always (fun a ha => (proper a ha).mono logged.capabilities hlimit) hresting
      logged.room logged.paid enoughLater logged.calm
  refine ⟨s₁, s', hconnect, hconsulted, hopen, hresting', ?_⟩
  rw [hsent, logged.sent, List.append_assoc]

/-- By way of the path that there is without a host. -/
def pathOptions : Rb.Options where
  host := none
  socket := none
  username := none
  password := some (literal "secret")
  database := none
  ssl_mode := none
  max_allowed_packet := none
  enable_cleartext_plugin := false
  found_rows := false
  multi_result := none
  multi_statement := false

/-- A login, and all there is to the exchanges, in one read. -/
def pathNet : Net :=
  { idleSock.net with
    raw_writes := List.replicate 196 (.wrote 1)
    raw_reads := [.data (served 0 (exampleLogin.lines noDigests 0 (pathOptions.sockOpt 45)) ++
      exampleAsked.flatMap fun a => a.exchange.response exampleCapabilities)] }

def pathWorld : World := ⟨none, .waits .ready false⟩

theorem pathWorld_awake : ∀ a ∈ pathWorld.attempts (pathOptions.sockOpt 45), a.Uninterrupted := by
  intro a ha error interrupted
  obtain rfl : a = .waits .ready false := List.mem_singleton.mp ha
  cases interrupted

theorem pathWorld_describes : Opening.Describes pathWorld pathNet := ⟨rfl, by decide⟩

def patientOpening : Opening :=
  { Opening.unconnected with
    client := { Opening.unconnected.client with waits := List.replicate 600 .ready } }

def clientConn : Conn :=
  Conn.init { Sock.new (pathOptions.sockOpt 45) pathNet with
    addr := some (.unix (literal "/tmp/mysql.sock")) }

theorem clientConn_sent : connectSend (pathOptions.sockOpt 45) pathNet
    (acquireBuffer patientOpening.client).2.ctx.conn = (.ok (), clientConn) := rfl

theorem clientConn_agreeable : exampleLogin.Agreeable clientConn.socket.opts := by
  refine ⟨⟨?_, ?_, ?_⟩, ?_⟩
  · exact List.mem_cons_of_mem _ (.head _)
  · intro _ hclear
    exact absurd hclear (by decide)
  · intro _ _
    decide
  · intro _
    exact .inr (by decide)

theorem clientConn_resting : Resting clientConn
    (served 0 (exampleLogin.lines noDigests clientConn.capabilities clientConn.socket.opts) ++
      (exampleAsked.flatMap (fun a =>
        a.exchange.response (exampleLogin.greeted clientConn).capabilities) ++ [])) := by
  refine ⟨?_, ?_, Nat.le_refl 0, ⟨by rintro ⟨⟩, rfl⟩, rfl, rfl, by decide +kernel⟩
  · exact List.forall_mem_singleton.mpr (by decide +kernel :
      served 0 (exampleLogin.lines noDigests 0 (pathOptions.sockOpt 45)) ++
        (exampleAsked.flatMap fun a => a.exchange.response exampleCapabilities) ≠ [])
  · intro write hwrite
    rw [List.eq_of_mem_replicate hwrite]
    simp [RawWrite.Calm]

theorem clientConn_patience : clientConn.patience ≤ 600 := by decide +kernel

theorem patientOpening_enough : clientConn.patience ≤ patientOpening.client.waits.length := by
  decide +kernel

theorem client_connects_example :
    (Opening.rbConnect (fun _ => true) noDigests pathOptions 45 pathNet pathWorld default
      (fun _ => default) (fun _ => default) 600 patientOpening).1 = .ok .nil := by
  obtain ⟨s', hrun, -⟩ := client_connects (fun _ => rfl) rfl pathWorld_describes pathWorld_awake
    clientConn_sent clientConn_agreeable (.of_short rfl (by decide +kernel)) clientConn_resting
    (by decide +kernel) (List.forall_mem_nil _) (fun _ => List.eq_of_mem_replicate)
    patientOpening_enough clientConn_patience (by decide) default (fun _ => default)
    (fun _ => default)
  rw [hrun]
  rfl

theorem client_converses_example :
    ∃ s₁ s', Opening.rbConnect (fun _ => true) noDigests pathOptions 45 pathNet pathWorld default
        (fun _ => default) (fun _ => default) 600 patientOpening = (.ok .nil, s₁) ∧
      Consulted (fun _ => true) 700 s₁.client exampleAsked s' ∧ s'.ctx.conn.pending = [] := by
  have proper : ∀ a ∈ exampleAsked, a.exchange.Proper (exampleLogin.greeted clientConn) := by
    have hproper := @exampleExchanges_proper (exampleLogin.greeted clientConn) (by decide) rfl
    simpa [exampleAsked, exampleExchanges] using hproper
  have later : ∀ a ∈ exampleAsked, 600 + a.exchange.answer.rowCount ≤ 700 := by decide +kernel
  obtain ⟨s₁, s', hconnect, hconsulted, -, hresting, -⟩ := client_converses (fun _ => rfl) rfl
    pathWorld_describes pathWorld_awake clientConn_sent clientConn_agreeable rfl
    (.of_short rfl (by decide +kernel)) proper clientConn_resting (by decide +kernel)
    (List.forall_mem_nil _) (fun _ => List.eq_of_mem_replicate) patientOpening_enough
    clientConn_patience (by decide) later default (fun _ => default) (fun _ => default)
  exact ⟨s₁, s', hconnect, hconsulted, hresting.pending⟩

end Trilogy
