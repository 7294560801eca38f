import Trilogy.Login

namespace Trilogy

open Lib Proc Conn Line

section

variable {alloc : Alloc} {digests : Digests} {login : Login} {c : Conn} {rest : List UInt8}

theorem Login.greeted_limit (login : Login) (c : Conn) :
    (login.greeted c).socket.opts.max_allowed_packet = c.socket.opts.max_allowed_packet := by
  cases login <;> rfl

theorem Login.optsAfter_limit (login : Login) (opts : SockOpt) :
    (login.optsAfter opts).max_allowed_packet = opts.max_allowed_packet := by
  cases login <;> rfl

/-- Everything that is asked for over a connection is answered. The handshake succeeds,
every call returns its part of an answer, the server gets the login and the requests, and
nothing is left over. -/
theorem visit (always : ∀ c, alloc c = true) {exchanges : List Exchange}
    (agreeable : login.Agreeable c.socket.opts) (accepted : login.returned = .ok ())
    (deliverable : Deliverable c (login.lines digests c.capabilities c.socket.opts))
    (proper : ∀ x ∈ exchanges, x.Proper (login.greeted c))
    (first : c.packetParser.sequence_number = 0)
    (h : Resting c (served 0 (login.lines digests c.capabilities c.socket.opts) ++
      (exchanges.flatMap (Exchange.response (login.greeted c).capabilities) ++ rest)))
    (room : (claimed 0 (login.lines digests c.capabilities c.socket.opts)).length +
      (exchanges.flatMap Exchange.request).length ≤ c.socket.capacity)
    (ready : ∀ ready ∈ c.socket.net.polls, ready = true)
    (enough : c.patience ≤ c.socket.net.polls.length)
    (handshake : Handshake) (packets packets' : Nat → AuthSwitchRequestPacket) :
    ∃ c₁ c', connectHandshake alloc digests handshake packets packets' c = (.ok (), c₁) ∧
      BlockingCall.runs alloc ((exchanges.flatMap Exchange.trace).map Prod.fst) c₁ =
        (exchanges.flatMap Exchange.trace, c') ∧ Resting c' rest ∧
      c'.socket.sentBytes = c.socket.sentBytes ++
        (claimed 0 (login.lines digests c.capabilities c.socket.opts) ++
          exchanges.flatMap Exchange.request) := by
  obtain ⟨c₁, hends, hundergone⟩ :=
    connectHandshake_runs always (Stage.opening first h room ready enough deliverable.short)
      agreeable deliverable.passes handshake packets packets'
  have hstage := hundergone.stage
  have hcapabilities := hundergone.capabilities
  have hlimit : c₁.socket.opts.max_allowed_packet =
      (login.greeted c).socket.opts.max_allowed_packet := by
    rw [hstage.opts, login.greeted_limit]
    exact login.optsAfter_limit c.socket.opts
  have hresting : Resting c₁ (exchanges.flatMap (Exchange.response c₁.capabilities) ++ rest) := by
    rw [hcapabilities]
    exact hstage.resting
  have hroom : (exchanges.flatMap Exchange.request).length ≤ c₁.socket.capacity := by
    have hspare := hstage.room
    rwa [claimed, List.length_nil, Nat.zero_add] at hspare
  obtain ⟨t, hconversed, hresting', hsent⟩ :=
    conversed always (fun x hx => (proper x hx).mono hcapabilities hlimit) hresting hroom
  have hbudget : Budget c₁.patience c₁ := by
    have hbudget := hstage.budget
    rwa [Scene.after, Nat.zero_add] at hbudget
  obtain ⟨htrace, hpolled⟩ := hconversed.retries.runs (Std.Refl.refl c₁) hresting.pos_le hbudget
  have hsent₁ : c₁.socket.sentBytes ++ [] = c.socket.sentBytes ++
      claimed 0 (login.lines digests c.capabilities c.socket.opts) := hstage.sent
  rw [List.append_nil] at hsent₁
  have hbytes : (BlockingCall.runs alloc ((exchanges.flatMap Exchange.trace).map Prod.fst)
      c₁).2.socket.sentBytes = t.socket.sentBytes := by
    obtain ⟨_, ⟨more, rfl⟩, hpolled⟩ := hpolled
    rw [hpolled]
    rfl
  refine ⟨c₁, _, hends.trans (congrArg (·, c₁) accepted), Prod.ext htrace rfl,
    hresting'.polled hpolled, ?_⟩
  rw [hbytes, hsent, hsent₁, List.append_assoc]

end

/-- A login, and all there is to the exchanges, in one read. -/
def exampleVisitConn : Conn :=
  Conn.init { idleSock with
    opts := pathOpts
    net := { idleSock.net with
      raw_writes := List.replicate 176 (.wrote 1)
      raw_reads := [.data (served 0 (exampleLogin.lines noDigests 0 pathOpts) ++
        exampleExchanges.flatMap (Exchange.response exampleCapabilities))]
      polls := List.replicate 560 true } }

theorem visit_example :
    ∃ c₁, connectHandshake (fun _ => true) noDigests default (fun _ => default)
        (fun _ => default) exampleVisitConn = (.ok (), c₁) ∧
      (BlockingCall.runs (fun _ => true)
          [.ping, .query [0x61], .readFullColumn, .readFullRow, .readFullRow, .query [0x62]]
          c₁).1.map Prod.snd =
        [.ok .done, .ok (.haveResults 1), .ok (.column exampleColumn), .ok (.row [some [0x62]]),
          .error .eof, .error .err] := by
  have resting : Resting exampleVisitConn
      (served 0 (exampleLogin.lines noDigests 0 pathOpts) ++
        (exampleExchanges.flatMap
          (Exchange.response (exampleLogin.greeted exampleVisitConn).capabilities) ++ [])) := by
    refine ⟨?_, ?_, Nat.le_refl 0, ⟨by rintro ⟨⟩, rfl⟩, rfl, rfl, by decide +kernel⟩
    · exact List.forall_mem_singleton.mpr (by decide +kernel :
        served 0 (exampleLogin.lines noDigests 0 pathOpts) ++
          exampleExchanges.flatMap (Exchange.response exampleCapabilities) ≠ [])
    · intro write hwrite
      rw [List.eq_of_mem_replicate hwrite]
      simp [RawWrite.Calm]
  obtain ⟨c₁, c', hends, hruns, -⟩ := visit (fun _ => rfl) exampleLogin_agreeable rfl
    (.of_short rfl (by decide +kernel)) (exampleExchanges_proper (by decide) rfl) rfl resting
    (by decide +kernel) (by decide +kernel) (by decide +kernel) default (fun _ => default)
    (fun _ => default)
  exact ⟨c₁, hends, congrArg (fun ended => ended.1.map Prod.snd) hruns⟩

/-- What a server keeps of a user. -/
structure Account where
  user : List UInt8
  method : Method
  stored : List UInt8

namespace Account

/-- The response to the greeting names the user. -/
def Named (account : Account) (payload : List UInt8) : Prop :=
  ∃ r, parse readHandshakeResponse payload = .ok r ∧ r.user = account.user

/-- The response to the greeting is for the user's plugin, and it verifies. -/
def Answered (digests : Digests) (account : Account) (challenge payload : List UInt8) : Prop :=
  ∃ r, parse readHandshakeResponse payload = .ok r ∧ r.user = account.user ∧
    r.auth_plugin = some account.method.plugin ∧
    account.method.Verifies digests challenge account.stored r.auth_response

/-- A login that the server conducts by what it keeps: it takes a user whose response
verifies, or once it had to have the password, one whose password has the right hash. -/
inductive Conducts (digests : Digests) (account : Account) (opts : SockOpt) : Login → Prop
  | decided {g : Greeting} {inquiry : Inquiry} {v : Verdict} (quick : inquiry ≠ .full)
      (plugin : g.plugin = account.method.plugin)
      (fair : account.Answered digests ((g.scramble ++ g.more).take scrambleLen)
        (g.response digests opts) → v.returned = .ok ()) :
      Conducts digests account opts (.decided g ⟨inquiry, v⟩)
  | decided_full {g : Greeting} {v : Verdict}
      (fair : account.Named (g.response digests opts) →
        account.method.stored digests opts.password = account.stored → v.returned = .ok ()) :
      Conducts digests account opts (.decided g ⟨.full, v⟩)
  | switched {g : Greeting} {data : List UInt8} {inquiry : Inquiry} {v : Verdict}
      (quick : inquiry ≠ .full)
      (fair : account.Named (g.response digests opts) →
        account.method.Verifies digests (data.take scrambleLen) account.stored
          (authSwitchPayload digests opts.password account.method.plugin data) →
        v.returned = .ok ()) :
      Conducts digests account opts (.switched g account.method.plugin data ⟨inquiry, v⟩)
  | switched_full {g : Greeting} {plugin data : List UInt8} {v : Verdict}
      (fair : account.Named (g.response digests opts) →
        account.method.stored digests opts.password = account.stored → v.returned = .ok ()) :
      Conducts digests account opts (.switched g plugin data ⟨.full, v⟩)

end Account

/-- What the application knows of its account. -/
structure Entitled (digests : Digests) (account : Account) (opts : SockOpt) : Prop where
  user : opts.username.getD (literal "root") = account.user
  password : opts.password ≠ []
  stored : account.stored = account.method.stored digests opts.password
  announceable : Announceable opts.flags opts.database
  user_text : ∀ s, opts.username = some s → NulFree s
  database_text : ∀ s, opts.database = some s → NulFree s

section

variable {digests : Digests} {account : Account} {opts : SockOpt}

theorem sameString_self (s : List UInt8) : sameString s s = true := beq_self_eq_true _

theorem Entitled.read (h : Entitled digests account opts) (g : Greeting) :
    ∃ r, parse readHandshakeResponse (g.response digests opts) = .ok r ∧
      r.user = account.user ∧
      r.auth_response = (authResponse digests opts.password g.plugin (g.scramble ++ g.more)).1 ∧
      r.auth_plugin =
        some (authResponse digests opts.password g.plugin (g.scramble ++ g.more)).2 :=
  ⟨_, (reads_authPayload digests opts.password opts.encoding (g.scramble ++ g.more)
    h.announceable h.user_text h.database_text g.plugin_text).run, h.user, rfl, rfl⟩

theorem Entitled.named (h : Entitled digests account opts) (g : Greeting) :
    account.Named (g.response digests opts) := by
  obtain ⟨r, hread, huser, -⟩ := h.read g
  exact ⟨r, hread, huser⟩

theorem Entitled.answered (h : Entitled digests account opts) {g : Greeting}
    (plugin : g.plugin = account.method.plugin) :
    account.Answered digests ((g.scramble ++ g.more).take scrambleLen)
      (g.response digests opts) := by
  obtain ⟨r, hread, huser, hresponse, hplugin⟩ := h.read g
  have hsame : sameString account.method.plugin g.plugin = true := by
    rw [plugin]
    exact sameString_self _
  refine ⟨r, hread, huser, ?_, ?_⟩
  · rw [hplugin, plugin]
    have hlong := List.length_pos_of_ne_nil h.password
    rw [authResponse, if_pos hlong]
    cases account.method <;> rfl
  · rw [hresponse, Method.authResponse_eq h.password hsame, h.stored]
    exact account.method.verifies_packScramble _ _

theorem Entitled.admitted (h : Entitled digests account opts) {login : Login}
    (conducts : account.Conducts digests opts login) : login.returned = .ok () := by
  cases conducts with
  | decided _ plugin fair => exact fair (h.answered plugin)
  | decided_full fair => exact fair (h.named _) h.stored.symm
  | switched _ fair =>
    apply fair (h.named _)
    rw [Method.authSwitchPayload_eq h.password (sameString_self _), h.stored]
    exact account.method.verifies_packScramble _ _
  | switched_full fair => exact fair (h.named _) h.stored.symm

/-- Whoever has the right password is let in: where the server goes by the response to
its challenge, or by the password once it had to ask for it, the handshake succeeds and
the password is forgotten. -/
theorem entitled_admitted {alloc : Alloc} (always : ∀ c, alloc c = true) {login : Login} {c : Conn}
    {rest : List UInt8} (entitled : Entitled digests account c.socket.opts)
    (conducts : account.Conducts digests c.socket.opts login)
    (agreeable : login.Agreeable c.socket.opts)
    (deliverable : Deliverable c (login.lines digests c.capabilities c.socket.opts))
    (first : c.packetParser.sequence_number = 0)
    (h : Resting c (served 0 (login.lines digests c.capabilities c.socket.opts) ++ rest))
    (room : (claimed 0 (login.lines digests c.capabilities c.socket.opts)).length ≤
      c.socket.capacity)
    (ready : ∀ ready ∈ c.socket.net.polls, ready = true)
    (enough : c.patience ≤ c.socket.net.polls.length)
    (handshake : Handshake) (packets packets' : Nat → AuthSwitchRequestPacket) :
    ∃ c', connectHandshake alloc digests handshake packets packets' c = (.ok (), c') ∧
      Resting c' rest ∧ c'.Wiped := by
  have hroom : (claimed 0 (login.lines digests c.capabilities c.socket.opts)).length + 0 ≤
      c.socket.capacity := room
  obtain ⟨c', hends, hundergone⟩ :=
    connectHandshake_runs always (Stage.opening first h hroom ready enough deliverable.short)
      agreeable deliverable.passes handshake packets packets'
  have hadmitted := entitled.admitted conducts
  have hresting : Resting c' rest := hundergone.stage.resting
  have hopts : c'.socket.opts = login.optsAfter c.socket.opts := hundergone.stage.opts
  refine ⟨c', hends.trans (congrArg (·, c') hadmitted), hresting, ?_⟩
  intro b hb
  rw [hopts] at hb
  cases login with
  | turnedAway _ => cases hadmitted
  | decided _ _ | switched _ _ _ _ => exact List.eq_of_mem_replicate hb

end

/-- The server changes to the plugin of the account, and finds the password in its cache. -/
def exampleSwitched : Login :=
  .switched exampleGreeting cachingSha2Password (List.replicate 21 0x63)
    ⟨.fast, .accepted exampleReply exampleReply_header⟩

def exampleAccount : Account where
  user := literal "root"
  method := .cachingSha2
  stored := Method.cachingSha2.stored tableDigests (literal "secret")

def exampleSwitchedConn : Conn :=
  Conn.init { idleSock with
    opts := pathOpts
    net := { idleSock.net with
      raw_writes := List.replicate 160 (.wrote 1)
      raw_reads := [.data (served 0 (exampleSwitched.lines tableDigests 0 pathOpts))]
      polls := List.replicate 330 true } }

/-- Of these two passwords, the check of the server lets only the right one through. -/
theorem entitled_admitted_example :
    (connectHandshake (fun _ => true) tableDigests default (fun _ => default) (fun _ => default)
      exampleSwitchedConn).1 = .ok () ∧
    Method.cachingSha2.Verifies tableDigests (List.replicate 20 0x63) exampleAccount.stored
      (authSwitchPayload tableDigests (literal "secret") cachingSha2Password
        (List.replicate 21 0x63)) ∧
    ¬ Method.cachingSha2.Verifies tableDigests (List.replicate 20 0x63) exampleAccount.stored
      (authSwitchPayload tableDigests (literal "guess") cachingSha2Password
        (List.replicate 21 0x63)) := by
  have entitled : Entitled tableDigests exampleAccount exampleSwitchedConn.socket.opts := by
    refine ⟨rfl, by decide, rfl, ⟨by decide, ?_⟩, ?_, ?_⟩
    · intro hdatabase
      exact absurd hdatabase (by decide)
    · intro s hs
      cases hs
    · intro s hs
      cases hs
  have conducts : exampleAccount.Conducts tableDigests exampleSwitchedConn.socket.opts
      exampleSwitched := .switched (by decide) fun _ _ => rfl
  have agreeable : exampleSwitched.Agreeable exampleSwitchedConn.socket.opts := by
    refine ⟨⟨?_, ?_, ?_⟩, ?_⟩
    · exact List.mem_cons_of_mem _ (.head _)
    · intro _ hclear
      exact absurd hclear (by decide)
    · intro _ _
      decide
    · intro _
      exact .inr (by decide)
  have resting : Resting exampleSwitchedConn
      (served 0 (exampleSwitched.lines tableDigests 0 pathOpts) ++ []) := by
    refine ⟨?_, ?_, Nat.le_refl 0, ⟨by rintro ⟨⟩, rfl⟩, rfl, rfl, by decide +kernel⟩
    · exact List.forall_mem_singleton.mpr
        (by decide +kernel : served 0 (exampleSwitched.lines tableDigests 0 pathOpts) ≠ [])
    · intro write hwrite
      rw [List.eq_of_mem_replicate hwrite]
      simp [RawWrite.Calm]
  obtain ⟨c', hends, -⟩ := entitled_admitted (fun _ => rfl) entitled conducts agreeable
    (.of_short rfl (by decide +kernel)) rfl resting (by decide +kernel) (by decide +kernel)
    (by decide +kernel) default (fun _ => default) (fun _ => default)
  rw [hends]
  unfold Method.Verifies
  exact ⟨rfl, by decide +kernel, by decide +kernel⟩

end Trilogy
