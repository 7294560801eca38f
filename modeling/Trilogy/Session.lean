import Trilogy.Calls

namespace Trilogy

open Lib Proc

inductive Step
  | call (call : Call)
  | upgradeSsl
  | wait

def Step.run (alloc : Alloc) (digests : Digests) : Step → Proc Code Conn Decoded
  | .call fn => fn.run alloc digests
  | .upgradeSsl => do Conn.onSocket Sock.upgradeSsl; pure .done
  | .wait => do Conn.onSocket Sock.wait; pure .done

/-- The steps that give the connection another socket. -/
def Step.Attaches : Step → Prop
  | .call fn => fn.Attaches
  | _ => False

/-- Steps one after the other, each with the connection before and after it, and
each taken in a state in which `allowed` holds of it. -/
inductive Session (alloc : Alloc) (digests : Digests) (allowed : Conn → Step → Prop) :
    Conn → List (Conn × Step × Conn) → Conn → Prop
  | nil (c : Conn) : Session alloc digests allowed c [] c
  | cons {c step r c₁ trace c₂} (ok : allowed c step) (h : step.run alloc digests c = (r, c₁))
      (rest : Session alloc digests allowed c₁ trace c₂) :
      Session alloc digests allowed c ((c, step, c₁) :: trace) c₂

/-- The session of these steps. -/
def play (alloc : Alloc) (digests : Digests) : List Step → Conn → List (Conn × Step × Conn) × Conn
  | [], c => ([], c)
  | step :: steps, c =>
    let c₁ := (step.run alloc digests c).2
    let rest := play alloc digests steps c₁
    ((c, step, c₁) :: rest.1, rest.2)

theorem session_play {alloc : Alloc} {digests : Digests} {kind : Step → Prop} {steps : List Step}
    (h : ∀ step ∈ steps, kind step) (c : Conn) :
    Session alloc digests (fun _ => kind) c (play alloc digests steps c).1
      (play alloc digests steps c).2 := by
  induction steps generalizing c with
  | nil => exact .nil c
  | cons step steps ih =>
    obtain ⟨hstep, hmore⟩ := List.forall_mem_cons.mp h
    exact .cons hstep rfl (ih hmore _)

theorem mem_play (alloc : Alloc) (digests : Digests) (before after : List Step) (step : Step)
    (c : Conn) :
    ((play alloc digests before c).2, step,
        (step.run alloc digests (play alloc digests before c).2).2) ∈
      (play alloc digests (before ++ step :: after) c).1 := by
  induction before generalizing c with
  | nil => exact List.mem_cons_self
  | cons first before ih => exact List.mem_cons_of_mem _ (ih _)

section

variable {alloc : Alloc} {digests : Digests} {allowed : Conn → Step → Prop} {c c₁ c₂ : Conn}
  {trace trace' : List (Conn × Step × Conn)} {R : Conn → Conn → Prop}

theorem Session.append (first : Session alloc digests allowed c trace c₁)
    (second : Session alloc digests allowed c₁ trace' c₂) :
    Session alloc digests allowed c (trace ++ trace') c₂ := by
  induction first with
  | nil c => exact second
  | cons ok h _ ih => exact .cons ok h (ih second)

theorem Session.one {step : Step} (ok : allowed c step)
    (h : (step.run alloc digests c).2 = c₁) :
    Session alloc digests allowed c [(c, step, c₁)] c₁ := by
  subst h
  exact .cons ok rfl (.nil _)

theorem Session.mono {allowed' : Conn → Step → Prop}
    (h : ∀ c step, allowed c step → allowed' c step)
    (session : Session alloc digests allowed c trace c₁) :
    Session alloc digests allowed' c trace c₁ := by
  induction session with
  | nil c => exact .nil c
  | cons ok hrun _ ih => exact .cons (h _ _ ok) hrun ih

variable [Std.Refl R] [IsTrans Conn R]

theorem Step.keeps (h : CallRel alloc R) {step : Step} (same : ¬ step.Attaches)
    (flags : step = .call .sslRequestSend → FlagsRel R)
    (upgrade : step = .upgradeSsl → Keeps R (Conn.onSocket Sock.upgradeSsl)) :
    Keeps R (step.run alloc digests) := by
  cases step with
  | call fn => exact Call.keeps h digests same fun hfn => flags (by rw [hfn])
  | upgradeSsl => exact .bind (upgrade rfl) fun _ => .pure _
  | wait => exact .bind h.wait fun _ => .pure _

end

/-- All that `m` does with a connection is to take steps of this kind. -/
def Plays (alloc : Alloc) (digests : Digests) (kind : Step → Prop) {α : Type}
    (m : Proc Code Conn α) : Prop :=
  ∀ c, ∃ trace, Session alloc digests (fun _ => kind) c trace (m c).2

namespace Plays

variable {alloc : Alloc} {digests : Digests} {kind : Step → Prop} {α β : Type}
  {m : Proc Code Conn α} {f : α → Proc Code Conn β}

theorem pure (a : α) : Plays alloc digests kind (Pure.pure a : Proc Code Conn α) :=
  fun c => ⟨[], .nil c⟩

theorem throw (rc : Code) : Plays alloc digests kind (MonadExcept.throw rc : Proc Code Conn α) :=
  fun c => ⟨[], .nil c⟩

theorem get : Plays alloc digests kind (MonadState.get : Proc Code Conn Conn) :=
  fun c => ⟨[], .nil c⟩

theorem bind (hm : Plays alloc digests kind m) (hf : ∀ a, Plays alloc digests kind (f a)) :
    Plays alloc digests kind (m >>= f) := by
  intro c
  obtain ⟨trace, first⟩ := hm c
  rw [bind_apply]
  rcases e : m c with ⟨rc | a, c₁⟩
  · rw [e] at first
    exact ⟨trace, first⟩
  · rw [e] at first
    obtain ⟨trace', second⟩ := hf a c₁
    exact ⟨trace ++ trace', first.append second⟩

theorem attempt (hm : Plays alloc digests kind m) : Plays alloc digests kind (Proc.attempt m) := hm

/-- One step, of which only the connection that it leaves matters here. -/
theorem step (step : Step) (hkind : kind step)
    (same : ∀ c, (m c).2 = (step.run alloc digests c).2) : Plays alloc digests kind m := by
  intro c
  rw [same c]
  exact ⟨_, .cons hkind rfl (.nil _)⟩

end Plays

end Trilogy
