import Trilogy.Twins

namespace Trilogy

open Lib Proc

namespace Conn

/-- Connections that are equal but for their sockets, which `P` relates. -/
def Beside (P : Sock → Sock → Prop) (c c' : Conn) : Prop :=
  ∃ socket, P c.socket socket ∧ c' = { c with socket }

variable {P : Sock → Sock → Prop} {alloc : Alloc}

theorem beside_onSocket {α : Type} {m : Proc Code Sock α} (hm : Blind P m) :
    Blind (Beside P) (onSocket m) := by
  rintro c _ ⟨socket, hs, rfl⟩
  obtain ⟨hend, hafter⟩ := hm c.socket socket hs
  exact ⟨hend, _, hafter, rfl⟩

/-- An update of another part of the connection. -/
theorem beside_modify {f : Conn → Conn} (keeps : ∀ c, (f c).socket = c.socket)
    (commutes : ∀ (c : Conn) socket, f { c with socket } = { f c with socket }) :
    Blind (Beside P) (modify f : Proc Code Conn PUnit) := by
  apply Blind.modify
  rintro c _ ⟨socket, hs, rfl⟩
  exact ⟨socket, by rw [keeps]; exact hs, commutes c socket⟩

/-- A part that depends on the connection, but not on what `P` leaves open. -/
theorem beside_get {α : Type} {g : Conn → Proc Code Conn α}
    (same : ∀ (c : Conn) socket, P c.socket socket → g { c with socket } = g c)
    (h : ∀ c, Blind (Beside P) (g c)) : Blind (Beside P) (get >>= g) := by
  apply Blind.get_bind
  · rintro c _ ⟨socket, hs, rfl⟩
    exact same c socket hs
  · exact h

theorem beside_parsePacket {α : Type} (m : Proc Code Reader α) :
    Blind (Beside P) (parsePacket m) := by
  rintro c _ ⟨socket, hs, rfl⟩
  exact ⟨.rfl, socket, hs, rfl⟩

theorem beside_execute (alloc : Alloc) : Blind (Beside P) (execute alloc) := by
  rintro c _ ⟨socket, hs, rfl⟩
  unfold execute
  dsimp only [unread]
  split
  · exact ⟨.rfl, socket, hs, rfl⟩
  · split <;> exact ⟨.rfl, socket, hs, rfl⟩

section

variable (read : ∀ n, Blind P (Sock.read n))

include read

theorem beside_refill : Blind (Beside P) refill := by
  apply beside_get (fun _ _ _ => rfl)
  intro conn
  refine .ite (fun _ => ?_) fun _ => .pure _
  refine .bind (beside_onSocket (read _)) fun bytes => .ite (fun _ => .throw _) fun _ => ?_
  exact beside_modify (fun _ => rfl) fun _ _ => rfl

theorem beside_readPacket : Blind (Beside P) (readPacket alloc) :=
  .bind (beside_refill read) fun _ => beside_execute alloc

theorem beside_awaitPacket (wait : Blind P Sock.wait) (turns : Nat) :
    Blind (Beside P) (awaitPacket alloc turns) := by
  induction turns with
  | zero => exact .throw _
  | succ turns ih =>
    refine .bind (.attempt (beside_readPacket read)) fun rc => ?_
    cases rc with
    | ok _ => exact .pure _
    | error rc =>
      cases rc with
      | again => exact .bind (beside_onSocket wait) fun _ => ih
      | _ => exact .throw _

end

theorem beside_build (builder : Builder) (m : Proc Code Builder Unit) :
    Blind (Beside P) (build builder m) := by
  rintro c _ ⟨socket, hs, rfl⟩
  unfold build
  split <;> exact ⟨.rfl, socket, hs, rfl⟩

theorem beside_beginCommandPhase
    (limit : ∀ sock sock', P sock sock' →
      sock'.opts.max_allowed_packet = sock.opts.max_allowed_packet) (seq : UInt8) :
    Blind (Beside P) (beginCommandPhase alloc seq) := by
  rintro c _ ⟨socket, hs, rfl⟩
  unfold beginCommandPhase
  dsimp only
  split
  · exact ⟨.rfl, socket, hs, rfl⟩
  · rw [limit _ _ hs]
    exact ⟨.rfl, socket, hs, rfl⟩

section

variable (write : ∀ data nwrite, Blind P (Sock.write data nwrite))

include write

theorem beside_flushWrites : Blind (Beside P) flushWrites := by
  apply beside_get (fun _ _ _ => rfl)
  intro conn
  refine .bind (beside_onSocket (write _ _)) fun _ => ?_
  refine .bind (beside_modify (fun _ => rfl) fun _ _ => rfl) fun _ => ?_
  exact beside_get (fun _ _ _ => rfl) fun _ => .ite (fun _ => .throw _) fun _ => .pure _

theorem beside_beginWrite : Blind (Beside P) beginWrite :=
  .bind (beside_modify (fun _ => rfl) fun _ _ => rfl) fun _ => beside_flushWrites write

end

end Conn

end Trilogy
