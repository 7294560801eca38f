import Trilogy.ClientBuffers
import Trilogy.Sequence

namespace Trilogy

open Lib Rb

variable {ι : Type} [DecidableEq ι]

structure Clients (ι : Type) where
  pool : Pool
  allocations : Nat
  ctxs : ι → Ctx

namespace Clients

/-- The call of a method, with what happens meanwhile. -/
structure Call (ι : Type) where
  client : ι
  method : Method
  turns : Nat
  waits : List Waited
  raises : List Bool

/-- What is known of a call that has ended; `more` says whether the client has more
results to come then. -/
structure Ended (ι : Type) where
  client : ι
  method : Method
  ending : Except Exit Returned
  more : Bool

omit [DecidableEq ι] in
def enter (w : Clients ι) (call : Call ι) : Rb :=
  ⟨w.pool, w.allocations, w.ctxs call.client, call.waits, call.raises⟩

def leave (w : Clients ι) (i : ι) (s : Rb) : Clients ι :=
  ⟨s.pool, s.allocations, Function.update w.ctxs i s.ctx⟩

def run (alloc : Alloc) (w : Clients ι) (call : Call ι) : Except Exit Returned × Clients ι :=
  ((call.method.run alloc call.turns (w.enter call)).1,
    w.leave call.client (call.method.run alloc call.turns (w.enter call)).2)

omit [DecidableEq ι] in
def ended (alloc : Alloc) (w : Clients ι) (call : Call ι) : Ended ι where
  client := call.client
  method := call.method
  ending := (call.method.run alloc call.turns (w.enter call)).1
  more := (call.method.run alloc call.turns (w.enter call)).2.More

/-- Whether a client has a buffer, by the calls that have ended, the last one first. -/
def holding (i : ι) : List (Ended ι) → Bool
  | [] => false
  | e :: past =>
    if e.client = i then (e.method.leaves e.more e.ending).getD (holding i past)
    else holding i past

/-- A result that is to come is asked for while the client has its buffer. -/
def InTime (past : List (Ended ι)) (w : Clients ι) (call : Call ι) : Prop :=
  call.method = .nextResult → (w.enter call).ctx.socket → (w.enter call).More →
    holding call.client past

/-- No client has a buffer yet. -/
structure Fresh (w : Clients ι) : Prop where
  none : ∀ i, (w.ctxs i).buff = none
  once : w.pool.ids.Nodup
  below : ∀ buff ∈ w.pool.ids, buff < w.allocations
  sized : w.pool.Sized

/-- One call after another, each of them in time. -/
inductive Run (alloc : Alloc) (start : Clients ι) : List (Ended ι) → Clients ι → Prop
  | start : Run alloc start [] start
  | call {past w} (run : Run alloc start past w) (call : Call ι) (inTime : InTime past w call)
      (ends : (w.run alloc call).1 ≠ .error .unfinished) :
      Run alloc start (w.ended alloc call :: past) (w.run alloc call).2

def buffs (w : Clients ι) (i : ι) : Option Nat := (w.ctxs i).buff

/-- The pool and the clients between two calls. -/
structure Apart (w : Clients ι) : Prop where
  exclusive : Exclusive w.pool.ids w.buffs
  below : Below w.allocations w.pool.ids w.buffs
  sized : w.pool.Sized

/-- The history tells who has a buffer. -/
def Told (past : List (Ended ι)) (w : Clients ι) : Prop :=
  ∀ i, (w.ctxs i).socket → (w.buffs i).isSome = holding i past

variable {alloc : Alloc} {past : List (Ended ι)} {w start : Clients ι} {call : Call ι}

omit [DecidableEq ι] in
theorem Fresh.apart (h : w.Fresh) : w.Apart where
  exclusive :=
    ⟨h.once, fun i _ hi => (Option.some_ne_none _ (hi.symm.trans (h.none i))).elim,
      fun i _ _ hi => (Option.some_ne_none _ (hi.symm.trans (h.none i))).elim⟩
  below := ⟨h.below, fun i _ hi => (Option.some_ne_none _ (hi.symm.trans (h.none i))).elim⟩
  sized := h.sized

theorem Fresh.told (h : w.Fresh) : Told [] w := by
  intro i _
  rw [buffs, h.none i]
  rfl

theorem Apart.enter (h : w.Apart) (call : Call ι) : Sound w.buffs call.client (w.enter call) := by
  have same : Function.update w.buffs call.client (w.enter call).ctx.buff = w.buffs :=
    Function.update_eq_self _ _
  exact ⟨same.symm ▸ h.exclusive, same.symm ▸ h.below, h.sized⟩

theorem buffs_leave (w : Clients ι) (i : ι) (s : Rb) :
    (w.leave i s).buffs = Function.update w.buffs i s.ctx.buff := by
  funext j
  by_cases hj : j = i
  · subst hj
    simp [leave, buffs]
  · simp [leave, buffs, hj]

theorem Apart.leave {i : ι} {s : Rb} (h : Sound w.buffs i s) : (w.leave i s).Apart where
  exclusive := by
    rw [buffs_leave]
    exact h.exclusive
  below := by
    rw [buffs_leave]
    exact h.below
  sized := h.sized

theorem leave_enter (w : Clients ι) (call : Call ι) : w.leave call.client (w.enter call) = w := by
  simp [Clients.leave, Clients.enter]

/-- The history of another client goes on as before, and so does its buffer. -/
theorem Told.leave {e : Ended ι} {s : Rb} (h : Told past w)
    (attached : s.ctx.socket →
      s.ctx.buff.isSome = (e.method.leaves e.more e.ending).getD (holding e.client past)) :
    Told (e :: past) (w.leave e.client s) := by
  intro j hj
  by_cases hji : j = e.client
  · subst hji
    rw [buffs_leave, Function.update_self, holding, if_pos rfl]
    apply attached
    simpa [Clients.leave] using hj
  · rw [buffs_leave, Function.update_of_ne hji, holding, if_neg (Ne.symm hji)]
    apply h
    simpa [Clients.leave, hji] using hj

/-- A call in time. -/
theorem run_inTime (apart : w.Apart) (told : Told past w) (inTime : InTime past w call) :
    (w.run alloc call).1 ≠ .error .noBuffer ∧ (w.run alloc call).2.Apart ∧
      ((w.run alloc call).1 ≠ .error .unfinished →
        Told (w.ended alloc call :: past) (w.run alloc call).2) := by
  cases socket : (w.enter call).ctx.socket with
  | false =>
    obtain ⟨same, ran⟩ : (call.method.run alloc call.turns (w.enter call)).2 = w.enter call ∧
        (w.run alloc call).1 ≠ .error .noBuffer := run_closed socket
    refine ⟨ran, ?_, fun _ => Told.leave told fun hs => ?_⟩
    · rw [run, same, leave_enter]
      exact apart
    · rw [same, socket] at hs
      cases hs
  | true =>
    have opened : Open w.buffs call.client (holding call.client past) (w.enter call) :=
      ⟨told _ socket, socket, apart.enter call⟩
    have h : After w.buffs call.client (holding call.client past) call.method
        (w.run alloc call).1 (call.method.run alloc call.turns (w.enter call)).2 := by
      apply (run_after opened _).ends rfl
      intro hm hmore
      exact inTime hm socket hmore
    exact ⟨h.ran, Apart.leave h.sound, fun ends => Told.leave told fun hs => h.attached ends hs⟩

/-- A call that is too late. -/
theorem run_late (apart : w.Apart) (told : Told past w) (late : ¬ InTime past w call) :
    (w.run alloc call).1 = .error .noBuffer ∧ (w.run alloc call).2.Apart := by
  simp only [InTime, Classical.not_imp] at late
  obtain ⟨hm, socket, hmore, hheld⟩ := late
  have buff : (w.enter call).ctx.buff = none := by
    rw [Bool.not_eq_true, ← told _ socket] at hheld
    exact Option.isNone_iff_eq_none.mp (Option.isSome_eq_false_iff.mp hheld)
  rw [run, hm, nextResult_noBuffer socket hmore buff, leave_enter]
  exact ⟨rfl, apart⟩

theorem Run.invariant (fresh : start.Fresh) (run : Run alloc start past w) :
    w.Apart ∧ Told past w := by
  induction run with
  | start => exact ⟨fresh.apart, fresh.told⟩
  | call _ call inTime ends ih =>
    obtain ⟨apart, told⟩ := ih
    obtain ⟨-, apart', told'⟩ := run_inTime apart told inTime
    exact ⟨apart', told' ends⟩

/-- However the clients are called, as long as the calls are in time: a method works
on a buffer that its client has, and a buffer is in one place. A call that is too
late has none. -/
theorem run_buffers {start : Clients ι} (fresh : start.Fresh) {past : List (Ended ι)}
    {w : Clients ι} (run : Run alloc start past w) (call : Call ι) :
    Exclusive w.pool.ids w.buffs ∧ w.pool.Sized ∧
      ((w.run alloc call).1 = .error .noBuffer ↔ ¬ InTime past w call) ∧
      Exclusive (w.run alloc call).2.pool.ids (w.run alloc call).2.buffs ∧
      (w.run alloc call).2.pool.Sized := by
  obtain ⟨apart, told⟩ := run.invariant fresh
  by_cases inTime : InTime past w call
  · obtain ⟨ran, apart', -⟩ := @run_inTime _ _ alloc _ _ _ apart told inTime
    exact ⟨apart.exclusive, apart.sized, iff_of_false ran (not_not_intro inTime),
      apart'.exclusive, apart'.sized⟩
  · obtain ⟨stopped, apart'⟩ := @run_late _ _ alloc _ _ _ apart told inTime
    exact ⟨apart.exclusive, apart.sized, iff_of_true stopped inTime, apart'.exclusive,
      apart'.sized⟩

/-- Room for one request, and the results of two statements, the first with more to
come. -/
def twoResults : Clients Unit where
  pool := ⟨0, []⟩
  allocations := 0
  ctxs _ :=
    { conn := { Conn.init { idleSock with net := { idleSock.net with
          raw_writes := [.wrote 6]
          raw_reads := [.data (header 7 1 ++ [0, 0, 0, 0x0a, 0, 0, 0] ++
            (header 7 2 ++ [0, 0, 0, 2, 0, 0, 0]))] } } with
        capabilities := Capabilities.client }
      buff := none
      socket := true }

/-- `query("1")`, with the first result -/
def queried : Clients Unit := (twoResults.run (fun _ => true) ⟨(), .query [0x31], 0, [], []⟩).2

theorem fresh_twoResults : twoResults.Fresh :=
  ⟨fun _ => rfl, List.nodup_nil, nofun, ⟨Nat.zero_le _, nofun⟩⟩

/-- The first result, of a statement that changed nothing. -/
def noRows : Rb.Result := ⟨[], [], some 0, some 0⟩

theorem run_queried : Run (fun _ => true) twoResults
    [⟨(), .query [0x31], .ok (.result noRows), true⟩] queried := by
  have hended : twoResults.ended (fun _ => true) ⟨(), .query [0x31], 0, [], []⟩ =
      ⟨(), .query [0x31], .ok (.result noRows), true⟩ := by
    rw [ended, Ended.mk.injEq]
    decide +kernel
  rw [← hended]
  exact .call .start _ nofun (by decide +kernel)

theorem run_buffers_query :
    Exclusive queried.pool.ids queried.buffs ∧ queried.pool.Sized ∧
      (queried.run (fun _ => true) ⟨(), .nextResult, 0, [], []⟩).1 ≠ .error .noBuffer := by
  obtain ⟨exclusive, sized, stops, -, -⟩ :=
    run_buffers fresh_twoResults run_queried ⟨(), .nextResult, 0, [], []⟩
  exact ⟨exclusive, sized, fun h => stops.mp h fun _ _ _ => rfl⟩

/-- Escaping takes the buffer away that the second result needs. -/
theorem buffers_lost :
    twoResults.Fresh ∧ ∃ past w, Run (fun _ => true) twoResults past w ∧
      past.map (fun e => (e.method, e.ending)) =
        [(.escape [0x61], .ok (.string [0x61])), (.query [0x31], .ok (.result noRows))] ∧
      (w.ctxs ()).socket ∧
      (w.run (fun _ => true) ⟨(), .nextResult, 0, [], []⟩).1 = .error .noBuffer := by
  let letter : Call Unit := ⟨(), .escape [0x61], 0, [], []⟩
  have hspecials : escapeSpecials (fun _ => true) [0x61] = Buffer.write (fun _ => true) [0x61] := by
    rw [escapeSpecials]
    rfl
  have hescaped : ((Rb.escape (fun _ => true) [0x61]) (queried.enter letter)).1 =
        .ok (.string [0x61]) ∧
      ((Rb.escape (fun _ => true) [0x61]) (queried.enter letter)).2.ctx.buff = none ∧
      ((Rb.escape (fun _ => true) [0x61]) (queried.enter letter)).2.ctx.socket ∧
      ((Rb.escape (fun _ => true) [0x61]) (queried.enter letter)).2.More := by
    have hquotes :
        escapeQuotes (fun _ => true) [0x61] = Buffer.write (fun _ => true) [0x61] := by
      rw [escapeQuotes]
      rfl
    unfold Rb.escape Conn.escape
    rw [hspecials, hquotes]
    decide +kernel
  obtain ⟨hstring, hbuff, hsocket, hmore⟩ := hescaped
  refine ⟨fresh_twoResults, _, _, run_queried.call letter ?_ ?_, ?_, ?_, ?_⟩
  · intro h
    cases h
  · intro h
    cases hstring.symm.trans h
  · rw [List.map_cons, List.map_cons, List.map_nil]
    exact congrArg (fun r => [(Method.escape [0x61], r), _]) hstring
  · exact hsocket
  · let next : Call Unit := ⟨(), .nextResult, 0, [], []⟩
    have stopped := @nextResult_noBuffer (fun _ => true)
      ((queried.run (fun _ => true) letter).2.enter next) 0 hsocket hmore hbuff
    exact congrArg Prod.fst stopped
end Clients

end Trilogy
