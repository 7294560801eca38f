import Trilogy.Lib.Lease
import Trilogy.Lib.Triple
import Trilogy.RubyClient

/-! Every method takes a buffer before it calls the library and gives it back when it
is done, on every exit. Only `query` keeps its buffer, for `nextResult`, when more
results are to come; `nextResult` takes none. -/
namespace Trilogy

open Lib Proc

def Pool.ids (pool : Pool) : List Nat := pool.entries.map BufferPoolEntry.buff

structure Pool.Sized (pool : Pool) : Prop where
  len : pool.len ≤ Pool.maxSize
  capa : 0 < pool.capa → Pool.maxSize ≤ pool.capa

namespace Rb

variable {ι : Type} [DecidableEq ι] {others : ι → Option Nat} {i : ι} {α : Type} {alloc : Alloc}
  {s t : Rb} {E : Exit → Rb → Prop}

/-- The buffers of the pool, of this client and of the others. -/
structure Sound (others : ι → Option Nat) (i : ι) (s : Rb) : Prop where
  exclusive : Exclusive s.pool.ids (Function.update others i s.ctx.buff)
  below : Below s.allocations s.pool.ids (Function.update others i s.ctx.buff)
  sized : s.pool.Sized

theorem Sound.congr (h : Sound others i s) (pool : t.pool = s.pool)
    (allocations : t.allocations = s.allocations) (buff : t.ctx.buff = s.ctx.buff) :
    Sound others i t := by
  obtain ⟨exclusive, below, sized⟩ := h
  rw [← pool, ← buff] at exclusive
  rw [← pool, ← buff, ← allocations] at below
  exact ⟨exclusive, below, pool ▸ sized⟩

theorem Sound.drop (h : Sound others i s) (pool : t.pool = s.pool)
    (allocations : t.allocations = s.allocations) (buff : t.ctx.buff = none) :
    Sound others i t := by
  have exclusive := h.exclusive.drop i
  have below := h.below.drop i
  rw [Function.update_idem] at exclusive below
  rw [← pool, ← buff] at exclusive
  rw [← pool, ← buff, ← allocations] at below
  exact ⟨exclusive, below, pool ▸ h.sized⟩

/-- A client that is connected, and whether it holds a buffer. -/
structure Open (others : ι → Option Nat) (i : ι) (held : Bool) (s : Rb) : Prop where
  attached : s.ctx.buff.isSome = held
  socket : s.ctx.socket
  sound : Sound others i s

/-- The client of a method that raised. Only an exception of Ruby's leaves it its buffer. -/
def Left (others : ι → Option Nat) (i : ι) : Exit → Rb → Prop
  | .raised (.trilogy _), s | .raised (.protocol _ _), s | .freed, s => Open others i false s
  | .raised .ruby, s => Open others i true s
  | .unfinished, s => Sound others i s
  | _, _ => False

/-- Part of the work of a method. -/
def Works (others : ι → Option Nat) (i : ι) (m : Proc Exit Rb α) : Prop :=
  Triple (Open others i true) m (fun _ => Open others i true) (Left others i)

theorem Works.bind {β : Type} {m : Proc Exit Rb α} {f : α → Proc Exit Rb β}
    (hm : Works others i m) (hf : ∀ a, Works others i (f a)) : Works others i (m >>= f) :=
  Triple.bind hm hf

theorem Works.pure (a : α) : Works others i (pure a) := Triple.pure fun _ h => h

theorem Open.congr {held : Bool} (h : Open others i held s) (pool : t.pool = s.pool)
    (allocations : t.allocations = s.allocations) (buff : t.ctx.buff = s.ctx.buff)
    (socket : t.ctx.socket = s.ctx.socket) : Open others i held t :=
  ⟨by rw [buff, h.attached], socket ▸ h.socket, h.sound.congr pool allocations buff⟩

theorem bufferCheckout_holding (h : Sound others i s) (socket : s.ctx.socket) :
    Triple (· = s) bufferCheckout (fun _ => Open others i true) E := by
  apply Triple.modify
  rintro s rfl
  obtain ⟨exclusive, below, sized⟩ := h
  cases hentries : s.pool.entries with
  | cons e entries =>
    rw [Pool.ids, hentries, List.map_cons] at exclusive below
    have exclusive' := exclusive.take i
    have below' := below.take i
    rw [Function.update_idem] at exclusive' below'
    refine ⟨rfl, socket, exclusive', below', ?_, sized.capa⟩
    have hlen := sized.len
    rw [Pool.len, hentries, List.length_cons] at hlen
    exact Nat.le_of_succ_le hlen
  | nil =>
    obtain ⟨new, nobody⟩ := below.unused
    have exclusive' := exclusive.fresh (i := i) new fun j _ => nobody j
    have below' := below.succ.hold i (Nat.lt_succ_self _)
    rw [Function.update_idem] at exclusive' below'
    exact ⟨rfl, socket, exclusive', below', sized⟩

theorem acquireBuffer_holding {held : Bool} :
    Triple (Open others i held) acquireBuffer (fun _ => Open others i true) E := by
  apply Triple.get_bind
  intro s h
  cases hbuff : s.ctx.buff with
  | none => exact bufferCheckout_holding h.sound h.socket
  | some buff =>
    apply Triple.pure
    rintro s rfl
    exact ⟨by rw [hbuff]; rfl, h.socket, h.sound⟩

theorem sized_checkin {pool : Pool} (h : pool.Sized) (room : pool.len < Pool.maxSize) (e : BufferPoolEntry) :
    Pool.Sized
      { capa := if pool.capa = 0 then 16
          else if pool.len ≥ pool.capa then pool.capa * 2 else pool.capa
        entries := e :: pool.entries } where
  len := room
  capa := by
    intro _
    have hcapa := h.capa
    simp only [Pool.maxSize] at *
    split_ifs <;> omega

theorem bufferCheckin_free {buff : Nat} (h : Sound others i s) (held : s.ctx.buff = some buff)
    (socket : s.ctx.socket) :
    Triple (· = s) (bufferCheckin buff) (fun _ => Open others i false) E := by
  apply Triple.modify
  rintro s rfl
  by_cases full : s.pool.len ≥ Pool.maxSize
  · simp only [if_pos full]
    exact ⟨rfl, socket, h.drop rfl rfl rfl⟩
  · simp only [if_neg full]
    have hi : Function.update others i s.ctx.buff i = some buff := by
      rw [Function.update_self, held]
    have exclusive := h.exclusive.give hi
    have below := h.below.give hi
    rw [Function.update_idem] at exclusive below
    exact ⟨rfl, socket, exclusive, below, sized_checkin h.sized (Nat.lt_of_not_le full) _⟩

theorem releaseBuffer_free {held : Bool} :
    Triple (Open others i held) releaseBuffer (fun _ => Open others i false) E := by
  apply Triple.get_bind
  intro s h
  cases hbuff : s.ctx.buff with
  | none =>
    apply Triple.pure
    rintro s rfl
    exact ⟨by rw [hbuff]; rfl, h.socket, h.sound⟩
  | some buff => exact bufferCheckin_free h.sound hbuff h.socket

theorem onConn_open {held : Bool} (m : Proc Code Conn α) :
    Triple (Open others i held) (onConn m) (fun _ => Open others i held) E where
  returns := by
    intro s a t h he
    cases he
    exact h.congr rfl rfl rfl rfl
  raises := by
    intro s e t h he
    cases he

theorem sockShutdown_open {held : Bool} :
    Triple (Open others i held) sockShutdown (fun _ => Open others i held) E :=
  (onConn_open _).bind fun _ => .pure fun _ h => h

theorem mayRaise_open {held : Bool} (r : Raised) :
    Triple (Open others i held) (mayRaise r) (fun _ => Open others i held)
      (fun e t => e = .raised r ∧ Open others i held t) where
  returns := by
    intro s _ t h he
    unfold mayRaise at he
    split at he <;> cases he
    · exact h.congr rfl rfl rfl rfl
    · exact h
  raises := by
    intro s e t h he
    unfold mayRaise at he
    split at he <;> cases he
    exact ⟨rfl, h.congr rfl rfl rfl rfl⟩

theorem left_exitBy {rc : Code} {freed : Bool} {conn : Conn} (h : Open others i false s) :
    Left others i (exitBy rc freed conn) s := by
  unfold exitBy
  split
  · split <;> exact h
  · exact h

theorem handleTrilogyError_left {held : Bool} {Q : α → Rb → Prop} (rc : Code) :
    Triple (Open others i held) (handleTrilogyError rc) Q (Left others i) := by
  apply Triple.get_bind
  intro before hbefore
  apply (releaseBuffer_free.start hbefore).bind
  intro _
  apply Triple.get_bind
  intro s h
  apply Triple.bind (Q := fun _ => Open others i false)
  · apply Triple.when
    · intro _
      exact sockShutdown_open.start h
    · rintro - s rfl
      exact h
  · intro _
    apply Triple.get_bind
    intro s h
    apply Triple.throw
    rintro s rfl
    exact left_exitBy h

theorem works_onBuffer (m : Proc Code Conn α) : Works others i (onBuffer m) := by
  apply Triple.get_bind
  intro s h
  obtain ⟨buff, hbuff⟩ := Option.isSome_iff_exists.mp h.attached
  rw [hbuff]
  exact (onConn_open m).start h

theorem works_unfinished : Works others i (throw .unfinished : Proc Exit Rb α) :=
  Triple.throw fun _ h => h.sound

theorem works_mayRaise : Works others i (mayRaise .ruby) := by
  apply (mayRaise_open .ruby).mono_raises
  rintro e s ⟨rfl, h⟩
  exact h

theorem works_orHandle {m : Proc Exit Rb (Except Code α)} (hm : Works others i m) :
    Works others i (orHandle m) := by
  apply hm.bind
  intro rc
  cases rc with
  | ok a => exact .pure a
  | error rc => exact handleTrilogyError_left rc

theorem works_sockWait : Works others i sockWait := by
  apply Triple.get_bind
  intro s h
  split
  · apply Triple.pure
    rintro s rfl
    exact h
  · cases hwaits : s.waits with
    | nil =>
      apply Triple.pure
      rintro s rfl
      exact h
    | cons waited waits =>
      have taken : Triple (· = s) (set { s with waits } : Proc Exit Rb PUnit)
          (fun _ => Open others i true) (Left others i) := by
        apply Triple.modify
        rintro s rfl
        exact h.congr rfl rfl rfl rfl
      apply taken.bind
      intro _
      cases waited with
      | ready | timedOut | failed => exact Works.pure _
      | interrupted =>
        apply sockShutdown_open.bind
        intro _
        exact Triple.throw fun s h => h

/-- A wait, and another turn when it went well. -/
theorem works_waitThen {again : Proc Exit Rb (Except Code α)} (ha : Works others i again) :
    Works others i (do
      let rc ← sockWait
      match rc with
      | .ok () => again
      | .error rc => pure (.error rc)) := by
  apply works_sockWait.bind
  intro waited
  cases waited with
  | ok _ => exact ha
  | error rc => exact .pure _

theorem works_turn {m : Proc Code Conn α} {again : Proc Exit Rb (Except Code α)}
    (ha : Works others i again) : Works others i (turn m again) := by
  apply (works_onBuffer m).bind
  intro rc
  cases rc with
  | ok a => exact .pure _
  | error rc =>
    cases rc with
    | again => exact works_waitThen ha
    | _ => exact .pure _

theorem works_await (m : Proc Code Conn α) (turns : Nat) : Works others i (await m turns) := by
  induction turns with
  | zero => exact works_turn works_unfinished
  | succ turns ih => exact works_turn ih

theorem works_sendFlushed (send : Proc Code Conn Unit) (turns : Nat) :
    Works others i (sendFlushed send turns) := by
  apply (works_onBuffer send).bind
  intro rc
  cases rc with
  | ok _ => exact .pure _
  | error rc =>
    cases rc with
    | again => exact works_await _ _
    | _ => exact .pure _

theorem works_recvTurn {again : Proc Exit Rb (Except Code (Option UInt64))}
    (ha : Works others i again) : Works others i (recvTurn alloc again) := by
  apply (works_onBuffer _).bind
  intro rc
  cases rc with
  | ok _ => exact .pure _
  | error rc =>
    cases rc with
    | again =>
      apply (works_orHandle works_sockWait).bind
      intro _
      exact ha
    | _ => exact .pure _

theorem works_awaitQuery (turns : Nat) : Works others i (awaitQuery alloc turns) := by
  induction turns with
  | zero => exact works_recvTurn works_unfinished
  | succ turns ih => exact works_recvTurn ih

theorem works_readColumns (turns more : Nat) (columns : List Column) :
    Works others i (readColumns alloc turns more columns) := by
  induction more generalizing columns with
  | zero => exact .pure _
  | succ more ih =>
    apply (works_await _ _).bind
    intro rc
    cases rc with
    | ok _ => exact works_mayRaise.bind fun _ => ih _
    | error rc => exact .pure _

theorem works_rowTurn {column_info : List ColumnInfo} {again : Rows → Proc Exit Rb (Except Code Rows)}
    (ha : ∀ rows, Works others i (again rows)) (rows : Rows) :
    Works others i (rowTurn alloc column_info rows again) := by
  apply (works_onBuffer _).bind
  intro rc
  cases rc with
  | ok _ => exact works_mayRaise.bind fun _ => ha _
  | error rc =>
    cases rc with
    | again => exact works_waitThen (ha rows)
    | _ => exact .pure _

theorem works_readRows (column_info : List ColumnInfo) (turns : Nat) (rows : Rows) :
    Works others i (readRows alloc column_info turns rows) := by
  induction turns generalizing rows with
  | zero => exact works_rowTurn (fun _ => works_unfinished) rows
  | succ turns ih => exact works_rowTurn ih rows

theorem works_readQueryResponse (turns : Nat) :
    Works others i (readQueryResponse alloc turns) := by
  apply (works_awaitQuery turns).bind
  intro rc
  cases rc with
  | error rc => exact .pure _
  | ok columnCount =>
    apply works_mayRaise.bind
    intro _
    cases columnCount with
    | none =>
      apply Triple.get_bind
      intro s h
      exact (Works.pure _).start h
    | some columnCount =>
      apply (works_readColumns _ _ _).bind
      intro rc
      cases rc with
      | error rc => exact .pure _
      | ok columns =>
        apply works_mayRaise.bind
        intro _
        apply (works_readRows _ turns []).bind
        intro rc
        cases rc with
        | error rc => exact .pure _
        | ok rows => exact .pure _

theorem sockShutdown_left {r : Raised} :
    Triple (Left others i (.raised r)) sockShutdown (fun _ => Left others i (.raised r)) E := by
  cases r with
  | trilogy _ | protocol _ _ | ruby => exact sockShutdown_open
  | closed | argument =>
    exact ⟨fun _ _ _ h _ => False.elim h, fun _ _ _ h _ => False.elim h⟩

theorem works_protect {m : Proc Exit Rb α} (hm : Works others i m) :
    Works others i (protect m) := by
  apply Triple.bind hm.attempt
  intro r
  cases r with
  | ok a => exact Triple.pure fun s h => h.1 a rfl
  | error e =>
    cases e with
    | raised r =>
      apply Triple.bind (Q := fun _ => Left others i (.raised r))
      · exact sockShutdown_left.pre fun s h => h.2 _ rfl
      · intro _
        exact Triple.throw fun s h => h
    | noBuffer | freed | unfinished => exact Triple.throw fun s h => h.2 _ rfl

def More (s : Rb) : Prop := s.ctx.conn.server_status &&& moreResultsExist ≠ 0

instance (s : Rb) : Decidable s.More := inferInstanceAs (Decidable (_ ≠ _))

/-- Whether the client has a buffer after a call, with `more` results to come then;
`none` where it is as it was. -/
def Method.leaves (more : Bool) : Method → Except Exit Returned → Option Bool
  | _, .error (.raised (.trilogy _)) | _, .error (.raised (.protocol _ _)) | _, .error .freed =>
    some false
  | _, .error (.raised .ruby) => some true
  | query _, .ok _ | nextResult, .ok (.result _) => some more
  | escape _, .ok _ | ping, .ok _ | changeDb _, .ok _ | setServerOption _, .ok _ => some false
  | _, _ => none

/-- After a call. -/
structure After (others : ι → Option Nat) (i : ι) (held : Bool) (method : Method)
    (r : Except Exit Returned) (s : Rb) : Prop where
  sound : Sound others i s
  ran : r ≠ .error .noBuffer
  attached : r ≠ .error .unfinished → s.ctx.socket →
    s.ctx.buff.isSome = (method.leaves s.More r).getD held

variable {held : Bool} {method : Method} {turns : Nat}

theorem After.left {e : Exit} (h : Left others i e s) : After others i held method (.error e) s := by
  cases e with
  | raised r =>
    cases r with
    | trilogy _ | protocol _ _ | ruby =>
      exact ⟨h.sound, nofun, fun _ _ => by cases method <;> exact h.attached⟩
    | closed | argument => exact h.elim
  | freed => exact ⟨h.sound, nofun, fun _ _ => by cases method <;> exact h.attached⟩
  | noBuffer => exact h.elim
  | unfinished => exact ⟨h, nofun, fun hr => absurd rfl hr⟩

/-- What a call does that does not stop before it has its buffer. -/
def Ends (others : ι → Option Nat) (i : ι) (held : Bool) (method : Method)
    (m : Proc Exit Rb Returned) : Prop :=
  Triple (Open others i held) m (fun a => After others i held method (.ok a))
    fun e => After others i held method (.error e)

theorem getOpenCtx_bind {β : Type} {P : Rb → Prop} {f : Unit → Proc Exit Rb β} {Q : β → Rb → Prop}
    (socket : ∀ s, P s → s.ctx.socket) (h : Triple P (f ()) Q E) :
    Triple P (getOpenCtx >>= f) Q E := by
  apply Triple.bind (Q := fun _ => P)
  · apply Triple.get_bind
    intro s hs
    rw [if_pos (socket s hs)]
    exact Triple.pure fun _ ht => ht ▸ hs
  · intro _
    exact h

theorem ends_getOpenCtx {f : Unit → Proc Exit Rb Returned} (h : Ends others i held method (f ())) :
    Ends others i held method (getOpenCtx >>= f) :=
  getOpenCtx_bind (fun _ hs => hs.socket) h

theorem ends_argument {f : Unit → Proc Exit Rb Returned} (h : Ends others i held method (f ())) :
    Ends others i held method (mayRaise .argument >>= f) := by
  apply Triple.bind (Q := fun _ => Open others i held)
  · apply (mayRaise_open .argument).mono_raises
    rintro e s ⟨rfl, hs⟩
    exact ⟨hs.sound, nofun, fun _ _ => by cases method <;> exact hs.attached⟩
  · intro _
    exact h

theorem ends_acquireBuffer {f : Unit → Proc Exit Rb Returned}
    (h : Triple (Open others i true) (f ()) (fun a => After others i held method (.ok a))
      (Left others i)) :
    Ends others i held method (acquireBuffer >>= f) := by
  apply acquireBuffer_holding.bind
  intro _
  exact h.mono_raises fun _ _ => .left

theorem command_free (send recv : Proc Code Conn Unit) :
    Triple (Open others i true) (command send recv turns) (fun _ => Open others i false)
      (Left others i) := by
  apply Triple.bind (works_orHandle (works_sendFlushed send turns))
  intro _
  apply Triple.bind (works_orHandle (works_await recv turns))
  intro _
  apply releaseBuffer_free.bind
  intro _
  exact Triple.pure fun _ hs => hs

theorem releaseBuffer_conn {c : Conn} :
    Triple (fun s => s.ctx.conn = c) releaseBuffer (fun _ s => s.ctx.conn = c) E := by
  apply Triple.get_bind
  rintro s rfl
  cases s.ctx.buff with
  | none =>
    apply Triple.pure
    rintro s rfl
    rfl
  | some buff =>
    apply Triple.modify
    rintro s rfl
    split_ifs <;> rfl

/-- A buffer is kept while there are more results to come. -/
theorem executeReadQueryResponse_kept :
    Triple (Open others i true) (executeReadQueryResponse alloc turns)
      (fun a s => (∃ result, a = .result result) ∧ Open others i s.More s) (Left others i) := by
  apply Triple.bind (works_orHandle (works_protect (works_readQueryResponse turns)))
  intro _
  apply Triple.get_bind
  intro s h
  apply Triple.bind (Q := fun _ t => Open others i t.More t)
  · apply Triple.when
    · intro done
      have freed : Triple (Open others i true) releaseBuffer (fun _ => Open others i false)
        (Left others i) := releaseBuffer_free
      constructor
      · rintro s a t rfl he
        have hconn : t.ctx.conn = s.ctx.conn :=
          (releaseBuffer_conn (E := fun _ _ => True)).returns rfl he
        have more : ¬ t.More := by
          rw [More, hconn]
          exact not_not_intro done
        rw [decide_eq_false more]
        exact freed.returns h he
      · rintro s e t rfl he
        exact freed.raises h he
    · rintro (more : s.More) s rfl
      rw [decide_eq_true more]
      exact h
  · intro _
    exact Triple.pure fun _ ht => ⟨⟨_, rfl⟩, ht⟩

theorem ends_free {m : Proc Exit Rb Returned}
    (hm : Triple (Open others i true) m (fun _ => Open others i false) (Left others i))
    (frees : ∀ more a, method.leaves more (.ok a) = some false) :
    Triple (Open others i true) m (fun a => After others i held method (.ok a))
      (Left others i) := by
  apply hm.post
  intro a s h
  exact ⟨h.sound, nofun, fun _ _ => by rw [frees]; exact h.attached⟩

theorem ends_kept (keeps : ∀ more result, method.leaves more (.ok (.result result)) = some more) :
    Triple (Open others i true) (executeReadQueryResponse alloc turns)
      (fun a => After others i held method (.ok a)) (Left others i) := by
  apply executeReadQueryResponse_kept.post
  rintro a s ⟨⟨result, rfl⟩, h⟩
  exact ⟨h.sound, nofun, fun _ _ => by rw [keeps]; exact h.attached⟩

theorem ends_query (q : List UInt8) :
    Ends others i held (.query q) ((Method.query q).run alloc turns) := by
  apply ends_getOpenCtx
  apply ends_argument
  apply ends_acquireBuffer
  apply Triple.bind (works_orHandle (works_sendFlushed _ turns))
  intro _
  exact ends_kept fun _ _ => rfl

theorem ends_escape (str : List UInt8) :
    Ends others i held (.escape str) ((Method.escape str).run alloc turns) := by
  apply ends_getOpenCtx
  apply ends_argument
  apply ends_acquireBuffer
  apply ends_free _ fun _ _ => rfl
  apply Triple.bind (works_orHandle (works_onBuffer _))
  intro _
  apply Triple.bind works_mayRaise
  intro _
  apply releaseBuffer_free.bind
  intro _
  exact Triple.pure fun _ hs => hs

theorem ends_ping : Ends others i held .ping (Method.ping.run alloc turns) := by
  apply ends_getOpenCtx
  apply ends_acquireBuffer
  exact ends_free (command_free _ _) fun _ _ => rfl

theorem ends_changeDb (database : List UInt8) :
    Ends others i held (.changeDb database) ((Method.changeDb database).run alloc turns) := by
  apply ends_getOpenCtx
  apply ends_argument
  apply ends_acquireBuffer
  exact ends_free (command_free _ _) fun _ _ => rfl

theorem ends_setServerOption (option : UInt16) :
    Ends others i held (.setServerOption option)
      ((Method.setServerOption option).run alloc turns) := by
  apply ends_getOpenCtx
  apply ends_acquireBuffer
  apply Triple.bind works_mayRaise
  intro _
  exact ends_free (command_free _ _) fun _ _ => rfl

/-- An answer that leaves the client as it was. -/
theorem ends_same {a : Returned} (same : ∀ more, method.leaves more (.ok a) = none) :
    Ends others i held method (pure a) :=
  Triple.pure fun _ h => ⟨h.sound, nofun, fun _ _ => by rw [same]; exact h.attached⟩

theorem ends_check : Ends others i held .check (Method.check.run alloc turns) := by
  apply ends_getOpenCtx
  apply Triple.bind (onConn_open _)
  intro rc
  have dead (rc : Code) : Ends others i held .check (handleTrilogyError rc) :=
    (handleTrilogyError_left rc).mono_raises fun _ _ => .left
  cases rc with
  | ok _ => exact ends_same fun _ => rfl
  | error rc =>
    cases rc with
    | again => exact ends_same fun _ => rfl
    | _ => exact dead _

theorem ends_moreResultsExist :
    Ends others i held .moreResultsExist (Method.moreResultsExist.run alloc turns) := by
  apply ends_getOpenCtx
  apply Triple.get_bind
  intro s h
  exact (ends_same fun _ => rfl).start h

/-- A client that is closed has nothing any more. -/
theorem free_after {a : Returned} {now : Bool} :
    Triple (Open others i now) (do free; pure a)
      (fun a => After others i held method (.ok a)) (Left others i) := by
  apply Triple.bind (Q := fun _ s => Sound others i s ∧ ¬ s.ctx.socket)
  · apply Triple.modify
    intro s h
    exact ⟨h.sound.drop rfl rfl rfl, nofun⟩
  · intro _
    apply Triple.pure
    rintro s ⟨sound, closed⟩
    exact ⟨sound, nofun, fun _ hs => absurd hs closed⟩

theorem ends_discard : Ends others i held .discard (Method.discard.run alloc turns) := by
  apply Triple.get_bind
  intro s h
  rw [if_pos h.socket]
  apply (sockShutdown_open.start h).bind
  intro _
  exact free_after.mono_raises fun _ _ => .left

theorem ends_close : Ends others i held .close (Method.close.run alloc turns) := by
  apply Triple.get_bind
  intro s h
  rw [if_pos h.socket]
  apply Triple.start h
  apply ends_acquireBuffer
  apply Triple.bind (works_sendFlushed _ turns)
  intro rc
  have released : Triple (Open others i true)
      (do releaseBuffer; free; pure .nil)
      (fun a => After others i held .close (.ok a)) (Left others i) := by
    apply releaseBuffer_free.bind
    intro _
    exact free_after
  cases rc with
  | ok _ =>
    apply Triple.bind (works_await _ turns)
    intro _
    exact released
  | error _ => exact released

/-- The client of a result to come must have its buffer still. -/
theorem nextResult_after (ready : s.More → held) (h : Open others i held s) :
    Triple (· = s) (Method.nextResult.run alloc turns)
      (fun a => After others i held .nextResult (.ok a))
      fun e => After others i held .nextResult (.error e) := by
  apply getOpenCtx_bind
  · rintro s rfl
    exact h.socket
  · apply Triple.get_bind
    rintro s rfl
    by_cases more : s.ctx.conn.server_status &&& moreResultsExist = 0
    · rw [if_pos more]
      exact (ends_same fun _ => rfl).start h
    · rw [if_neg more]
      have attached : Open others i true s := ready more ▸ h
      apply Triple.start attached
      exact (ends_kept fun _ _ => rfl).mono_raises fun _ _ => .left

theorem run_after (h : Open others i held s) (ready : method = .nextResult → s.More → held) :
    Triple (· = s) (method.run alloc turns) (fun a => After others i held method (.ok a))
      fun e => After others i held method (.error e) := by
  cases method with
  | query q => exact (ends_query q).start h
  | nextResult => exact nextResult_after (ready rfl) h
  | moreResultsExist => exact ends_moreResultsExist.start h
  | escape str => exact (ends_escape str).start h
  | ping => exact ends_ping.start h
  | changeDb database => exact (ends_changeDb database).start h
  | setServerOption option => exact (ends_setServerOption option).start h
  | check => exact ends_check.start h
  | close => exact ends_close.start h
  | discard => exact ends_discard.start h

theorem onBuffer_noBuffer (m : Proc Code Conn α) (buff : s.ctx.buff = none) :
    onBuffer m s = (.error .noBuffer, s) := by
  unfold onBuffer
  rw [Proc.get_bind, buff]
  rfl

theorem protect_noBuffer {m : Proc Exit Rb α} (h : m s = (.error .noBuffer, s)) :
    protect m s = (.error .noBuffer, s) := by
  unfold protect
  rw [Proc.attempt_bind, h]
  rfl

/-- Without a buffer there is no result to come. -/
theorem nextResult_noBuffer (socket : s.ctx.socket) (more : s.More) (buff : s.ctx.buff = none) :
    Method.nextResult.run alloc turns s = (.error .noBuffer, s) := by
  have opened : getOpenCtx s = (.ok (), s) := by
    unfold getOpenCtx
    rw [Proc.get_bind, if_pos socket]
    rfl
  have recv : awaitQuery alloc turns s = (.error .noBuffer, s) := by
    cases turns <;> exact Proc.bind_of_error (onBuffer_noBuffer _ buff)
  have read : executeReadQueryResponse alloc turns s = (.error .noBuffer, s) :=
    Proc.bind_of_error (Proc.bind_of_error (protect_noBuffer (Proc.bind_of_error recv)))
  refine (Proc.bind_of_ok opened).trans ?_
  rw [Proc.get_bind, if_neg more, read]

/-- A client that is closed is left alone. -/
theorem run_closed (closed : s.ctx.socket = false) :
    (method.run alloc turns s).2 = s ∧ (method.run alloc turns s).1 ≠ .error .noBuffer := by
  have shut (f : Unit → Proc Exit Rb Returned) :
      ((getOpenCtx >>= f) s).2 = s ∧ ((getOpenCtx >>= f) s).1 ≠ .error .noBuffer := by
    have raised : getOpenCtx s = (.error (.raised .closed), s) := by
      unfold getOpenCtx
      rw [Proc.get_bind, closed]
      rfl
    rw [Proc.bind_of_error raised]
    exact ⟨rfl, nofun⟩
  cases method with
  | close =>
    simp only [Method.run, close, Proc.get_bind, closed]
    exact ⟨rfl, nofun⟩
  | discard =>
    simp only [Method.run, discard, Proc.get_bind, closed]
    exact ⟨rfl, nofun⟩
  | query | nextResult | moreResultsExist | escape | ping | changeDb | setServerOption | check =>
    exact shut _

end Rb

end Trilogy
