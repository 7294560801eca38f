import Trilogy.Agreement
import Trilogy.RubyClient

namespace Trilogy

open Lib Proc

namespace Conn

variable {α : Type} {send : Proc Code Conn Unit} {recv : Proc Code Conn α} {c c' : Conn}

/-- The calls of a function that receives are paid for. -/
theorem Receiving.paid {r : Except Code α} (h : Receiving recv) (valid : pace.valid c)
    (returns : Returns .again recv c r c') :
    ∃ k, ReturnsIn .again recv k c r c' ∧ pace.valid c' ∧ k + c'.patience ≤ c.patience := by
  obtain ⟨k, hk, hvalid, hle⟩ := h.bounded.within valid returns
  have hwrites : c'.socket.writes ≤ c.socket.writes := returns.keeps h.writes
  refine ⟨k, hk, hvalid, ?_⟩
  unfold patience
  omega

/-- So are those of `trilogy_flush_writes`. -/
theorem Offers.paid {r : Except Code Unit} (h : Offers send) (valid : pace.valid c)
    (flushed : Flushed send c r c') :
    (send c = (r, c') ∧ r ≠ .error .again ∨
      ∃ u k, send c = (.error .again, u) ∧ ReturnsIn .again flushWrites k u r c' ∧
        k + c'.patience ≤ c.patience) ∧
      pace.valid c' ∧ c'.patience ≤ c.patience := by
  obtain ⟨hvalid, hturns⟩ := flushed.uses h valid
  cases flushed with
  | atOnce e hr =>
    have hless := h.paced.less (s := c) trivial
    rw [e] at hless
    have hless : c'.socket.writes ≤ c.socket.writes := hless
    exact ⟨.inl ⟨e, hr⟩, hvalid, Nat.add_le_add hless hturns⟩
  | @later u _ _ e returns =>
    have hless : u.socket.writes < c.socket.writes :=
      (h.paced.asks trivial e).resolve_right fun hfull =>
        stalls_flushWrites.not_returns hfull returns
    obtain ⟨k, hk, -, hle⟩ := returns.within paced_flushWrites stalls_flushWrites trivial
    have hle : k + c'.socket.writes ≤ u.socket.writes := hle
    have hpaid : k + c'.patience ≤ c.patience := by
      unfold patience
      omega
    exact ⟨.inr ⟨u, k, e, hk, hpaid⟩, hvalid, by omega⟩

end Conn

namespace Rb

/-- The buffers in the pool, with that of the client. -/
def buffers (s : Rb) : Nat := s.pool.len + if s.ctx.buff.isSome then 1 else 0

/-- The client is open and at this connection; this many waits find the socket ready,
nothing raises, and the pool has room for the buffer. -/
structure Calm (n : Nat) (c : Conn) (s : Rb) : Prop where
  conn : s.ctx.conn = c
  socket : s.ctx.socket = true
  ready : ∀ waited ∈ s.waits, waited = .ready
  enough : n ≤ s.waits.length
  raises : ∀ raise ∈ s.raises, raise = false
  room : s.buffers ≤ Pool.maxSize

/-- And it has a buffer. -/
structure Busy (n : Nat) (c : Conn) (s : Rb) : Prop extends Calm n c s where
  buff : s.ctx.buff ≠ none

variable {α β : Type} {m : Proc Code Conn α} {n k : Nat} {c c' u : Conn} {s : Rb}
  {r : Except Code α}

theorem Calm.mono (h : Calm n c s) (le : k ≤ n) : Calm k c s :=
  { h with enough := Nat.le_trans le h.enough }

theorem Busy.mono (h : Busy n c s) (le : k ≤ n) : Busy k c s :=
  { h with enough := Nat.le_trans le h.enough }

theorem Busy.onBuffer (h : Busy n c s) (e : m c = (r, c')) :
    ∃ t, Rb.onBuffer m s = (.ok r, t) ∧ Busy n c' t := by
  obtain ⟨⟨rfl, socket, ready, enough, raises, room⟩, buff⟩ := h
  rw [Rb.onBuffer, get_bind]
  cases hbuff : s.ctx.buff with
  | none => exact absurd hbuff buff
  | some b =>
    have hcall : onConn m s = (.ok r, { s with ctx := { s.ctx with conn := c' } }) := by
      rw [onConn, e]
    exact ⟨_, hcall, ⟨rfl, socket, ready, enough, raises, room⟩, buff⟩

theorem Busy.sockWait (h : Busy (n + 1) c s) :
    ∃ t, Rb.sockWait s = (.ok (.ok ()), t) ∧ Busy n c t := by
  obtain ⟨⟨conn, socket, ready, enough, raises, room⟩, buff⟩ := h
  rw [Rb.sockWait, get_bind]
  split
  · exact ⟨s, rfl, ⟨conn, socket, ready, Nat.le_of_succ_le enough, raises, room⟩, buff⟩
  · cases hwaits : s.waits with
    | nil =>
      rw [hwaits] at enough
      cases enough
    | cons waited waits =>
      rw [hwaits] at ready enough
      obtain ⟨rfl, hready⟩ := List.forall_mem_cons.mp ready
      exact ⟨{ s with waits }, rfl,
        ⟨conn, socket, hready, Nat.le_of_succ_le_succ enough, raises, room⟩, buff⟩

/-- Ruby raises nothing. -/
theorem mayRaise_quiet (quiet : ∀ raise ∈ s.raises, raise = false) (raised : Raised) :
    ∃ raises, Rb.mayRaise raised s = (.ok (), { s with raises }) ∧
      ∀ raise ∈ raises, raise = false := by
  unfold Rb.mayRaise
  split
  · rename_i hraises
    rw [hraises] at quiet
    exact absurd (quiet true (List.mem_cons_self ..)) (by decide)
  · rename_i rest hraises
    rw [hraises] at quiet
    exact ⟨rest, rfl, (List.forall_mem_cons.mp quiet).2⟩
  · exact ⟨s.raises, rfl, quiet⟩

theorem Calm.mayRaise (h : Calm n c s) (raised : Raised) :
    ∃ t, Rb.mayRaise raised s = (.ok (), t) ∧ Calm n c t ∧ t.ctx = s.ctx := by
  obtain ⟨conn, socket, ready, enough, raises, room⟩ := h
  obtain ⟨rest, e, hrest⟩ := mayRaise_quiet raises raised
  exact ⟨{ s with raises := rest }, e, ⟨conn, socket, ready, enough, hrest, room⟩, rfl⟩

theorem Busy.mayRaise (h : Busy n c s) (raised : Raised) :
    ∃ t, Rb.mayRaise raised s = (.ok (), t) ∧ Busy n c t := by
  obtain ⟨t, e, calm, hctx⟩ := h.toCalm.mayRaise raised
  exact ⟨t, e, calm, hctx ▸ h.buff⟩

/-- A loop that waits where `m` asks for another call. -/
def Loops (m : Proc Code Conn α) (loop : Nat → Proc Exit Rb β) : Prop :=
  ∀ ⦃n c u s⦄ (turns : Nat), m c = (.error .again, u) → Busy (n + 1) c s →
    ∃ t, loop (turns + 1) s = loop turns t ∧ Busy n u t

/-- As many turns and waits as calls, and `m` does not ask for another. -/
theorem Loops.forward {loop : Nat → Proc Exit Rb β} (loops : Loops m loop)
    (h : ReturnsIn .again m k c r c') (busy : Busy (n + k) c s) (turns : Nat) :
    ∃ d t, m d = (r, c') ∧ r ≠ .error .again ∧ Busy n d t ∧ loop (turns + k) s = loop turns t := by
  induction h generalizing s with
  | @stop c r c' e hr => exact ⟨c, s, e, hr, busy, rfl⟩
  | @again k c u r c' e _ ih =>
    obtain ⟨t, hloop, hbusy⟩ := loops (turns + k) e busy
    obtain ⟨d, v, hd, hr, hbusy', hforward⟩ := ih hbusy
    exact ⟨d, v, hd, hr, hbusy', hloop.trans hforward⟩

theorem loops_await : Loops m (await m) := by
  intro n c u s turns e busy
  obtain ⟨t, hcall, hbusy⟩ := busy.onBuffer e
  obtain ⟨v, hwait, hbusy'⟩ := hbusy.sockWait
  refine ⟨v, ?_, hbusy'⟩
  rw [await, turn, bind_of_ok hcall]
  exact bind_of_ok hwait

variable {alloc : Alloc}

theorem loops_awaitQuery : Loops (Conn.queryRecv alloc) (awaitQuery alloc) := by
  intro n c u s turns e busy
  obtain ⟨t, hcall, hbusy⟩ := busy.onBuffer e
  obtain ⟨v, hwait, hbusy'⟩ := hbusy.sockWait
  have hhandled : orHandle sockWait t = (.ok (), v) := by
    rw [orHandle, bind_of_ok hwait]
    rfl
  refine ⟨v, ?_, hbusy'⟩
  rw [awaitQuery, recvTurn, bind_of_ok hcall]
  exact bind_of_ok hhandled

theorem loops_readRows (column_info : List ColumnInfo) (rows : Rows) :
    Loops (Conn.readRow alloc) fun turns => readRows alloc column_info turns rows := by
  intro n c u s turns e busy
  obtain ⟨t, hcall, hbusy⟩ := busy.onBuffer e
  obtain ⟨v, hwait, hbusy'⟩ := hbusy.sockWait
  refine ⟨v, ?_, hbusy'⟩
  change rowTurn alloc column_info rows (readRows alloc column_info turns) s = _
  rw [rowTurn, bind_of_ok hcall]
  exact bind_of_ok hwait

theorem turn_stops {again : Proc Exit Rb (Except Code α)} (busy : Busy n c s) (e : m c = (r, c'))
    (hr : r ≠ .error .again) : ∃ t, turn m again s = (.ok r, t) ∧ Busy n c' t := by
  obtain ⟨t, hcall, hbusy⟩ := busy.onBuffer e
  refine ⟨t, ?_, hbusy⟩
  rw [turn, bind_of_ok hcall]
  cases r with
  | ok _ => rfl
  | error rc =>
    cases rc with
    | again => exact absurd rfl hr
    | _ => rfl

theorem await_in (h : ReturnsIn .again m k c r c') (busy : Busy (n + k) c s) (turns : Nat)
    (le : k ≤ turns) : ∃ t, await m turns s = (.ok r, t) ∧ Busy n c' t := by
  obtain ⟨more, rfl⟩ := Nat.exists_eq_add_of_le' le
  obtain ⟨d, u, e, hr, hbusy, hforward⟩ := loops_await.forward h busy more
  rw [hforward]
  cases more with
  | zero => exact turn_stops hbusy e hr
  | succ more => exact turn_stops hbusy e hr

theorem recvTurn_stops {again : Proc Exit Rb (Except Code (Option UInt64))}
    {r : Except Code (Option UInt64)} (busy : Busy n c s) (e : Conn.queryRecv alloc c = (r, c'))
    (hr : r ≠ .error .again) : ∃ t, recvTurn alloc again s = (.ok r, t) ∧ Busy n c' t := by
  obtain ⟨t, hcall, hbusy⟩ := busy.onBuffer e
  refine ⟨t, ?_, hbusy⟩
  rw [recvTurn, bind_of_ok hcall]
  cases r with
  | ok _ => rfl
  | error rc =>
    cases rc with
    | again => exact absurd rfl hr
    | _ => rfl

theorem awaitQuery_in {r : Except Code (Option UInt64)}
    (h : ReturnsIn .again (Conn.queryRecv alloc) k c r c') (busy : Busy (n + k) c s) (turns : Nat)
    (le : k ≤ turns) : ∃ t, awaitQuery alloc turns s = (.ok r, t) ∧ Busy n c' t := by
  obtain ⟨more, rfl⟩ := Nat.exists_eq_add_of_le' le
  obtain ⟨d, u, e, hr, hbusy, hforward⟩ := loops_awaitQuery.forward h busy more
  rw [hforward]
  cases more with
  | zero => exact recvTurn_stops hbusy e hr
  | succ more => exact recvTurn_stops hbusy e hr

/-- A row takes a turn, and goes on. -/
theorem readRows_row {row : List Value} (h : ReturnsIn .again (Conn.readRow alloc) k c (.ok row) c')
    (busy : Busy (n + k) c s) (column_info : List ColumnInfo) (turns : Nat) (rows : Rows) :
    ∃ t, readRows alloc column_info (turns + 1 + k) rows s =
        readRows alloc column_info turns (rows ++ [row.zip column_info]) t ∧ Busy n c' t := by
  obtain ⟨d, u, e, -, hbusy, hforward⟩ :=
    (loops_readRows column_info rows).forward h busy (turns + 1)
  obtain ⟨v, hcall, hbusy'⟩ := hbusy.onBuffer e
  obtain ⟨t, hraise, hbusy''⟩ := hbusy'.mayRaise .ruby
  refine ⟨t, hforward.trans ?_, hbusy''⟩
  rw [readRows, rowTurn, bind_of_ok hcall]
  exact bind_of_ok hraise

/-- The end of the rows is no error. -/
def rowsEnd (rows : Rows) (code : Code) : Except Code Rows :=
  if code = .eof then .ok rows else .error code

theorem readRows_end {code : Code}
    (h : ReturnsIn .again (Conn.readRow alloc) k c (.error code) c') (busy : Busy (n + k) c s)
    (column_info : List ColumnInfo) (turns : Nat) (rows : Rows) (le : k ≤ turns) :
    ∃ t, readRows alloc column_info turns rows s = (.ok (rowsEnd rows code), t) ∧
      Busy n c' t := by
  obtain ⟨more, rfl⟩ := Nat.exists_eq_add_of_le' le
  obtain ⟨d, u, e, hr, hbusy, hforward⟩ :=
    (loops_readRows column_info rows).forward h busy more
  obtain ⟨v, hcall, hbusy'⟩ := hbusy.onBuffer e
  have ends : ∀ again, rowTurn alloc column_info rows again u =
      (.ok (rowsEnd rows code), v) := by
    intro again
    rw [rowTurn, bind_of_ok hcall]
    cases code with
    | again => exact absurd rfl hr
    | _ => rfl
  refine ⟨v, ?_, hbusy'⟩
  rw [hforward]
  cases more with
  | zero => exact ends _
  | succ more => exact ends _

/-- There is no more than this left to be read and to be written. -/
structure Within (bound : Nat) (c : Conn) : Prop where
  valid : Conn.pace.valid c
  le : c.patience ≤ bound

theorem await_returns (h : Conn.Receiving m) (returns : Returns .again m c r c') {bound turns : Nat}
    (within : Within bound c) (le : bound ≤ turns) (busy : Busy c.patience c s) :
    ∃ t, await m turns s = (.ok r, t) ∧ Busy c'.patience c' t ∧ Within bound c' := by
  obtain ⟨k, hk, hvalid, hpaid⟩ := h.paid within.valid returns
  have hle := within.le
  obtain ⟨t, hawait, hbusy⟩ :=
    await_in (n := c'.patience) hk (busy.mono (by omega)) turns (by omega)
  exact ⟨t, hawait, hbusy, hvalid, by omega⟩

theorem awaitQuery_returns {r : Except Code (Option UInt64)}
    (returns : Returns .again (Conn.queryRecv alloc) c r c') {bound turns : Nat}
    (within : Within bound c) (le : bound ≤ turns) (busy : Busy c.patience c s) :
    ∃ t, awaitQuery alloc turns s = (.ok r, t) ∧ Busy c'.patience c' t ∧ Within bound c' := by
  obtain ⟨k, hk, hvalid, hpaid⟩ := Conn.listening_queryRecv.receiving.paid within.valid returns
  have hle := within.le
  obtain ⟨t, hawait, hbusy⟩ :=
    awaitQuery_in (n := c'.patience) hk (busy.mono (by omega)) turns (by omega)
  exact ⟨t, hawait, hbusy, hvalid, by omega⟩

theorem sendFlushed_flushed {send : Proc Code Conn Unit} {r : Except Code Unit}
    (h : Conn.Offers send) (flushed : Conn.Flushed send c r c') {bound turns : Nat}
    (within : Within bound c) (le : bound ≤ turns) (busy : Busy c.patience c s) :
    ∃ t, sendFlushed send turns s = (.ok r, t) ∧ Busy c'.patience c' t ∧ Within bound c' := by
  have hle := within.le
  obtain ⟨⟨e, hr⟩ | ⟨u, k, e, hk, hpaid⟩, hvalid, hless⟩ := h.paid within.valid flushed
  · obtain ⟨t, hcall, hbusy⟩ := busy.onBuffer e
    refine ⟨t, ?_, hbusy.mono hless, hvalid, Nat.le_trans hless hle⟩
    rw [sendFlushed, bind_of_ok hcall]
    cases r with
    | ok _ => rfl
    | error rc =>
      cases rc with
      | again => exact absurd rfl hr
      | _ => rfl
  · obtain ⟨v, hcall, hbusy⟩ := busy.onBuffer e
    obtain ⟨t, hawait, hbusy'⟩ :=
      await_in (n := c'.patience) hk (hbusy.mono (by omega)) turns (by omega)
    refine ⟨t, ?_, hbusy', hvalid, Nat.le_trans hless hle⟩
    rw [sendFlushed, bind_of_ok hcall]
    exact hawait

end Rb

end Trilogy
