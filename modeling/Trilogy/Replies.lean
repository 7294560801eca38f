import Trilogy.Beside
import Trilogy.Passwords

namespace Trilogy

open Lib Proc

instance : Std.Refl SameInput := ⟨fun _ => ⟨rfl, rfl, rfl, rfl⟩⟩

instance : IsTrans Conn SameInput where
  trans _ _ _ h h' := ⟨h'.socket.trans h.socket, h'.recv_buff.trans h.recv_buff,
    h'.recv_buff_pos.trans h.recv_buff_pos, h'.parsed.trans h.parsed⟩

namespace Conn

/-- The part of a call behind the packet. -/
structure Replies {α : Type} (reply : Proc Code Conn α) : Prop where
  same : Keeps SameInput reply
  fails : Fails (· ≠ Code.again) reply
  blind : ∀ P, Blind (Beside P) reply

namespace Replies

variable {α β : Type} {m m' : Proc Code Conn α} {f : α → Proc Code Conn β}

theorem pure (a : α) : Replies (Pure.pure a : Proc Code Conn α) :=
  ⟨.pure a, .pure a, fun _ => .pure a⟩

theorem throw {rc : Code} (h : rc ≠ .again) :
    Replies (MonadExcept.throw rc : Proc Code Conn α) :=
  ⟨.throw rc, .throw h, fun _ => .throw rc⟩

theorem bind (hm : Replies m) (hf : ∀ a, Replies (f a)) : Replies (m >>= f) :=
  ⟨.bind hm.same fun a => (hf a).same, .bind hm.fails fun a => (hf a).fails,
    fun P => .bind (hm.blind P) fun a => (hf a).blind P⟩

theorem ite {c : Prop} [Decidable c] (hm : c → Replies m) (hm' : ¬ c → Replies m') :
    Replies (if c then m else m') := by
  split
  · exact hm ‹_›
  · exact hm' ‹_›

theorem when {c : Prop} [Decidable c] {m : Proc Code Conn Unit} (hm : c → Replies m) :
    Replies (Proc.when c m) :=
  .ite hm fun _ => .pure ()

theorem get {g : Conn → Proc Code Conn α} (same : ∀ (c : Conn) socket, g { c with socket } = g c)
    (h : ∀ c, Replies (g c)) : Replies (MonadState.get >>= g) :=
  ⟨.bind .get fun c => (h c).same, .bind .get fun c => (h c).fails,
    fun P => beside_get (fun c socket _ => same c socket) fun c => (h c).blind P⟩

theorem modify {f : Conn → Conn} (same : ∀ c, SameInput c (f c))
    (commutes : ∀ (c : Conn) socket, f { c with socket } = { f c with socket }) :
    Replies (modify f : Proc Code Conn PUnit) :=
  ⟨.modify same, .modify f, fun _ => beside_modify (fun c => (same c).socket) commutes⟩

theorem parse {m : Proc Code Reader α} (raises : Cursor.Raises Reader.Malformed m) :
    Replies (parsePacket m) :=
  ⟨fun _ => ⟨rfl, rfl, rfl, rfl⟩, fails_parsePacket raises, fun _ => beside_parsePacket m⟩

end Replies

theorem replies_readOkPacket : Replies readOkPacket := by
  apply Replies.get (fun _ _ => rfl)
  intro conn
  apply Replies.bind (.parse (raises_parseOkPacket _))
  intro packet
  refine .bind (.when fun _ => .modify (fun _ => ⟨rfl, rfl, rfl, rfl⟩) fun _ _ => rfl) fun _ => ?_
  refine .bind (.modify (fun _ => ⟨rfl, rfl, rfl, rfl⟩) fun _ _ => rfl) fun _ => ?_
  exact .when fun _ => .modify (fun _ => ⟨rfl, rfl, rfl, rfl⟩) fun _ _ => rfl

theorem replies_readErrPacket {α : Type} : Replies (readErrPacket : Proc Code Conn α) := by
  apply Replies.get (fun _ _ => rfl)
  intro conn
  apply Replies.bind (.parse (raises_parseErrPacket _))
  intro packet
  exact .bind (.modify (fun _ => ⟨rfl, rfl, rfl, rfl⟩) fun _ _ => rfl) fun _ => .throw (by decide)

theorem replies_readEofPacket : Replies readEofPacket := by
  apply Replies.get (fun _ _ => rfl)
  intro conn
  apply Replies.ite (fun _ => replies_readOkPacket)
  intro _
  apply Replies.get (fun _ _ => rfl)
  intro conn
  apply Replies.bind (.parse (raises_parseEofPacket _))
  intro packet
  exact .when fun _ => .modify (fun _ => ⟨rfl, rfl, rfl, rfl⟩) fun _ _ => rfl

theorem replies_handleGenericResponse : Replies handleGenericResponse :=
  .get (fun _ _ => rfl) fun _ => .ite (fun _ => replies_readOkPacket) fun _ =>
    .ite (fun _ => replies_readErrPacket) fun _ => .throw (by decide)

theorem replies_readAuthSwitchPacket (packet : AuthSwitchRequestPacket) (handshake : Handshake) :
    Replies (readAuthSwitchPacket packet handshake) :=
  .get (fun _ _ => rfl) fun _ => .bind (.parse (raises_parseAuthSwitchRequestPacket _ _)) fun _ =>
    .ite (fun _ => .throw (by decide)) fun _ => .pure _

theorem replies_setOptionReply (type : UInt8) : Replies (setOptionReply type) :=
  .ite (fun _ => replies_readOkPacket) fun _ => .ite (fun _ => replies_readErrPacket) fun _ =>
    .throw (by decide)

theorem raises_parseResultPacket : Cursor.Raises Reader.Malformed parseResultPacket :=
  .bind Reader.raises_getLenenc fun _ => .bind Reader.raises_finish fun _ => .pure _

theorem replies_resultReply {note : ResultPacket → Conn → Conn}
    (same : ∀ packet c, SameInput c (note packet c))
    (commutes : ∀ packet (c : Conn) socket,
      note packet { c with socket } = { note packet c with socket }) (type : UInt8) :
    Replies (resultReply note type) :=
  .ite (fun _ => .bind replies_readOkPacket fun _ => .pure _) fun _ =>
    .ite (fun _ => replies_readErrPacket) fun _ => .bind (.parse raises_parseResultPacket) fun _ =>
    .bind (.modify (same _) (commutes _)) fun _ => .pure _

open Reader in
theorem raises_parseColumnPacket (field_list : Bool) :
    Cursor.Raises Malformed (parseColumnPacket field_list) :=
  .bind raises_getLenencBuffer fun _ => .bind raises_getLenencBuffer fun _ =>
    .bind raises_getLenencBuffer fun _ => .bind raises_getLenencBuffer fun _ =>
    .bind raises_getLenencBuffer fun _ => .bind raises_getLenencBuffer fun _ =>
    .bind raises_getLenenc fun _ => .bind raises_getUint16 fun _ => .bind raises_getUint32 fun _ =>
    .bind raises_getUint8 fun _ => .bind raises_getUint16 fun _ => .bind raises_getUint8 fun _ =>
    .bind raises_getUint16 fun _ => .bind (.ite raises_getLenencBuffer (.pure _)) fun _ =>
    .bind raises_finish fun _ => .pure _

open Reader in
theorem raises_parseStmtOkPacket : Cursor.Raises Malformed parseStmtOkPacket :=
  .bind raises_getUint8 fun _ => .bind raises_getUint32 fun _ => .bind raises_getUint16 fun _ =>
    .bind raises_getUint16 fun _ => .bind raises_getUint8 fun _ =>
    .bind (.ite (.throw (by decide)) (.pure _)) fun _ => .bind raises_getUint16 fun _ =>
    .bind raises_finish fun _ => .pure _

theorem replies_stmtPrepareReply (type : UInt8) : Replies (stmtPrepareReply type) := by
  refine .ite (fun _ => .bind (.parse raises_parseStmtOkPacket) fun _ => ?_) fun _ =>
    .ite (fun _ => replies_readErrPacket) fun _ => .throw (by decide)
  exact .bind (.modify (fun _ => ⟨rfl, rfl, rfl, rfl⟩) fun _ _ => rfl) fun _ => .pure _

theorem replies_rowReply {α : Type} {row : UInt64 → Proc Code Reader α}
    (raises : ∀ count, Cursor.Raises Reader.Malformed (row count)) : Replies (rowReply row) :=
  .get (fun _ _ => rfl) fun _ => .ite (fun _ => .bind replies_readEofPacket fun _ =>
      .throw (by decide)) fun _ => .ite (fun _ => replies_readErrPacket) fun _ => .parse (raises _)

theorem beside_connectRecv {alloc : Alloc} {P : Sock → Sock → Prop}
    (read : ∀ n, Blind P (Sock.read n)) (handshake : Handshake) :
    Blind (Beside P) (connectRecv alloc handshake) := by
  apply Blind.bind (beside_readPacket read)
  intro _
  apply beside_get (fun _ _ _ => rfl)
  intro conn
  apply Blind.ite (fun _ => replies_readErrPacket.blind P)
  intro _
  apply Blind.bind (beside_parsePacket _)
  intro handshake
  exact .bind (beside_modify (fun _ => rfl) fun _ _ => rfl) fun _ => .pure _

end Conn

end Trilogy
