import Trilogy.Lib.Fails
import Trilogy.Shutdown

namespace Trilogy

open Lib Proc

/-- The code for a packet that cannot be built. -/
def BuildFault (rc : Code) : Prop := rc = .typeOverflow ∨ rc = .syserr ∨ rc = .maxPacketExceeded

/-- The codes for a malformed reply. -/
def ParseError (rc : Code) : Prop :=
  rc ∈ [Code.truncatedPacket, .extraDataInPacket, .protocolViolation, .nullValue,
    .unexpectedPacket, .unknownType, .authPluginTooLong]

instance (rc : Code) : Decidable (ParseError rc) := inferInstanceAs (Decidable (_ ∈ _))

/-- The codes that have nothing to do with what is in a reply, and do not ask for the
call to be made again. -/
def Fault (rc : Code) : Prop := ¬ ParseError rc ∧ rc ≠ .again

instance (rc : Code) : Decidable (Fault rc) := inferInstanceAs (Decidable (_ ∧ _))

theorem BuildFault.fault {rc : Code} (h : BuildFault rc) : Fault rc := by
  rcases h with rfl | rfl | rfl <;> decide

theorem fails_expand (alloc : Alloc) (needed : Nat) :
    Fails BuildFault (Buffer.expand alloc needed) := by
  intro b rc b' h
  unfold Buffer.expand at h
  split at h
  · split at h
    · cases h
      exact .inl rfl
    · rename_i hgrow
      cases h
      exact .inl (Buffer.growCap_error hgrow)
    · split at h
      · cases h
      · cases h
        exact .inr (.inl rfl)
  · cases h

namespace Builder

theorem fails_onBuffer_expand (alloc : Alloc) (needed : Nat) :
    Fails BuildFault (onBuffer (Buffer.expand alloc needed)) :=
  .zoom (fails_expand alloc needed)

theorem fails_writeHeader (alloc : Alloc) : Fails BuildFault (writeHeader alloc) :=
  .bind (fails_onBuffer_expand _ _) fun _ => .modify _

theorem fails_writeContinuationHeader (alloc : Alloc) :
    Fails BuildFault (writeContinuationHeader alloc) :=
  .bind (.modify _) fun _ => fails_writeHeader alloc

theorem fails_writeUint8 (alloc : Alloc) (val : UInt8) : Fails BuildFault (writeUint8 alloc val) := by
  refine .bind .get fun b => .ite (fun _ => .throw (.inr (.inr rfl))) fun _ => ?_
  refine .bind (fails_onBuffer_expand _ _) fun _ => .bind (.modify _) fun _ => .bind .get fun b => ?_
  exact .ite (fun _ => fails_writeContinuationHeader alloc) fun _ => .pure _

theorem fails_writeFragments (alloc : Alloc) (turns : Nat) (data : List UInt8) (remaining : Nat) :
    Fails BuildFault (writeFragments alloc turns data remaining) := by
  induction turns generalizing data remaining with
  | zero => exact .pure _
  | succ turns ih =>
    rw [writeFragments]
    refine .ite (fun _ => ?_) fun _ => .ite (fun _ => ?_) fun _ => .pure _
    · exact .bind (fails_onBuffer_expand _ _) fun _ => .bind (.modify _) fun _ =>
        .bind (fails_writeContinuationHeader alloc) fun _ => ih _ _
    · exact .bind (fails_onBuffer_expand _ _) fun _ => .modify _

theorem fails_writeBuffer (alloc : Alloc) (data : List UInt8) :
    Fails BuildFault (writeBuffer alloc data) := by
  refine .bind .get fun b => .ite (fun _ => .throw (.inr (.inr rfl))) fun _ => ?_
  refine .ite (fun _ => ?_) fun _ => fails_writeFragments ..
  exact .bind (fails_onBuffer_expand _ _) fun _ => .modify _

end Builder

theorem fails_buildAuthClearPassword (alloc : Alloc) (pass : List UInt8) :
    Fails BuildFault (buildAuthClearPassword alloc pass) :=
  .bind (Builder.fails_writeBuffer _ _) fun _ => .bind (Builder.fails_writeUint8 _ _) fun _ =>
    .modify _

namespace Conn

variable {alloc : Alloc} {c c' : Conn}

theorem fails_beginCommandPhase (alloc : Alloc) (seq : UInt8) :
    Fails BuildFault (beginCommandPhase alloc seq) := by
  intro c rc c' h
  unfold beginCommandPhase at h
  split at h
  · rename_i hinit
    cases h
    exact Builder.fails_writeHeader alloc hinit
  · cases h

theorem fails_build {P : Code → Prop} {builder : Builder} {m : Proc Code Builder Unit}
    (hm : Fails P m) : Fails P (build builder m) := by
  intro c rc c' h
  unfold build at h
  split at h
  · rename_i hbuild
    cases h
    exact hm hbuild
  · cases h

theorem fails_wait : Fails (· = Code.syserr) (onSocket Sock.wait) := by
  apply Fails.zoom
  intro sock rc sock' h
  unfold Sock.wait at h
  split at h
  · cases h
  · split at h
    · cases h
      rfl
    · rename_i ready _ _
      cases ready
      · cases h
        rfl
      · cases h

theorem fails_sockWrite (data : List UInt8) (nwrite : Nat) :
    Fails (fun rc => ¬ ParseError rc) (Sock.write data nwrite) := by
  intro sock rc sock' h
  unfold Sock.write at h
  split at h
  · unfold Sock.rawWrite at h
    split at h
    · cases h
      decide
    · rename_i e _ _
      cases h
      cases e <;> decide
    · cases h
  · unfold Sock.sslWrite at h
    split at h
    · cases h
      decide
    · rename_i e _ _
      cases h
      rcases e with _ | _ | _ | ⟨_ | _, _ | _⟩ | _ <;> decide
    · cases h
  · cases h
    decide

theorem fails_flushWrites : Fails (fun rc => ¬ ParseError rc) flushWrites := by
  refine .bind .get fun conn => .bind (.zoom (fails_sockWrite _ _)) fun _ => .bind (.modify _) fun _ =>
    .bind .get fun conn => .ite (fun _ => .throw (by decide)) fun _ => .pure _

theorem fails_beginWrite : Fails (fun rc => ¬ ParseError rc) beginWrite :=
  .bind (.modify _) fun _ => fails_flushWrites

/-- A write uses up no poll. -/
theorem polls_flushWrites (c : Conn) : (flushWrites c).2.socket.net.polls = c.socket.net.polls := by
  have hwrite : ∀ data nwrite,
      (Sock.write data nwrite c.socket).2.net.polls = c.socket.net.polls := by
    intro data nwrite
    unfold Sock.write Sock.rawWrite Sock.sslWrite
    split
    · split <;> rfl
    · split <;> rfl
    · rfl
  have hwrite := hwrite c.unwritten (sizeSub c.packet_buffer.len c.packet_buffer_written)
  rw [flushWrites, get_bind, bind_apply, onSocket, zoom_apply]
  rcases e : Sock.write c.unwritten (sizeSub c.packet_buffer.len c.packet_buffer_written) c.socket
    with ⟨rc | n, sock⟩
  · rw [e] at hwrite
    exact hwrite
  · rw [e] at hwrite
    simp only [modify_bind, get_bind]
    split
    · exact hwrite
    · exact hwrite

theorem flushWrites_shutdown (hio : c.socket.io = .shutdown) :
    (flushWrites c).1 = .error .closedConnection := by
  rw [flushWrites, get_bind, bind_of_error (show onSocket (Sock.write _ _) c = _ by
    rw [onSocket, zoom_apply, Sock.write, hio])]

theorem flushPassword_throws {turns : Nat} {rc : Code} (h : rc ≠ .again) :
    flushPassword turns (.error rc) c = (.error rc, c) := by
  cases turns with
  | zero => cases rc <;> rfl
  | succ turns =>
    cases rc with
    | again => exact absurd rfl h
    | _ => rfl

/-- Each wait uses up a poll, so the loop comes to an end. -/
theorem flushPassword_fault {turns : Nat} {r : Except Code Unit} {rc : Code}
    (hr : ∀ rc, r = .error rc → ¬ ParseError rc) (polls : c.socket.net.polls.length < turns)
    (h : flushPassword turns r c = (.error rc, c')) : Fault rc := by
  induction turns generalizing r c with
  | zero => exact absurd polls (Nat.not_lt_zero _)
  | succ turns ih =>
    cases r with
    | ok _ => cases h
    | error e =>
      by_cases hagain : e = .again
      · subst hagain
        rw [flushPassword] at h
        obtain h | ⟨_, c₁, hwait, h⟩ := bind_error.mp h
        · rw [fails_wait h]
          decide
        · rw [attempt_bind] at h
          have hflush := @fails_flushWrites c₁
          have hpolls := polls_flushWrites c₁
          rw [onSocket, zoom_apply] at hwait
          unfold Sock.wait at hwait
          split at hwait
          · rename_i hio
            cases hwait
            rw [flushWrites_shutdown hio, flushPassword_throws (by decide)] at h
            cases h
            decide
          · split at hwait
            · cases hwait
            · rename_i ready more hmore
              rw [hmore, List.length_cons] at polls
              cases ready with
              | false => cases hwait
              | true =>
                cases hwait
                refine ih (fun rc hrc => hflush (ends hrc)) ?_ h
                rw [hpolls]
                exact Nat.lt_of_succ_lt_succ polls
      · rw [flushPassword_throws hagain] at h
        cases h
        exact ⟨hr _ rfl, hagain⟩

theorem fails_sendClearPassword : Fails Fault (sendClearPassword alloc) := by
  refine .bind .get fun conn => .bind ((fails_beginCommandPhase _ _).mono fun _ h => h.fault) ?_
  intro builder
  refine .bind (fails_build ((fails_buildAuthClearPassword _ _).mono fun _ h => h.fault)) ?_
  intro _ c rc c' h
  rw [attempt_bind, get_bind] at h
  exact flushPassword_fault (fun rc hrc => fails_beginWrite (ends hrc)) (Nat.lt_succ_self _) h

theorem fails_awaitPacket (turns : Nat) : Fails Fault (awaitPacket alloc turns) := by
  induction turns with
  | zero => exact .throw (by decide)
  | succ turns ih =>
    intro c rc c' h
    rw [awaitPacket, attempt_bind] at h
    rcases hread : readPacket alloc c with ⟨e | _, c₁⟩
    · rw [hread] at h
      obtain rfl | hother := readPacket_fault hread
      · obtain h | ⟨_, c₂, -, h⟩ := bind_error.mp h
        · rw [fails_wait h]
          decide
        · exact ih h
      · rcases hother with rfl | rfl | rfl | rfl | rfl <;>
          (cases h; decide)
    · rw [hread] at h
      cases h

/-- The inner `switch` of `trilogy_auth_recv`, on the second byte of the packet. -/
def fastAuth (alloc : Alloc) (byte : UInt8) : Proc Code Conn Unit :=
  if byte = 3 then pure ()
  else if byte = 4 then sendClearPassword alloc
  else throw .unexpectedPacket

/-- The fast authentication is done, or the clear password is out. -/
def FastAuth (alloc : Alloc) (c c' : Conn) : Prop :=
  c.packet_buffer.byteAt 1 = 3 ∧ c' = c ∨
    c.packet_buffer.byteAt 1 = 4 ∧ sendClearPassword alloc c = (.ok (), c')

theorem fastAuth_iff : fastAuth alloc (c.packet_buffer.byteAt 1) c = (.ok (), c') ↔
    FastAuth alloc c c' := by
  unfold fastAuth FastAuth
  by_cases h3 : c.packet_buffer.byteAt 1 = 3
  · rw [if_pos h3]
    simp [h3, eq_comm]
  · rw [if_neg h3]
    by_cases h4 : c.packet_buffer.byteAt 1 = 4
    · simp [h4]
    · simp [h3, h4]

theorem fails_fastAuth {P : Code → Prop} (byte : UInt8) (fault : ∀ rc, Fault rc → P rc)
    (unexpected : P .unexpectedPacket) : Fails P (fastAuth alloc byte) :=
  .ite (fun _ => .pure _) fun _ => .ite (fun _ => fails_sendClearPassword.mono fault)
    fun _ => .throw unexpected

end Conn

end Trilogy
