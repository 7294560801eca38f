import Trilogy.Sequence
import Trilogy.Twins

namespace Trilogy

open Lib Proc

namespace Buffer

theorem growCap_more {target turns cap : Nat} {r : Except Code Nat}
    (h : growCap target turns cap = some r) : growCap target (turns + 1) cap = some r := by
  induction turns generalizing cap with
  | zero => cases h
  | succ turns ih =>
    rw [growCap] at h ⊢
    by_cases hmore : target > cap
    · rw [if_pos hmore] at h ⊢
      by_cases htop : cap > sizeMax / 2
      · rw [if_pos htop] at h ⊢
        exact h
      · rw [if_neg htop] at h ⊢
        exact ih h
    · rw [if_neg hmore] at h ⊢
      exact h

theorem growCap_reaches {target turns cap c : Nat} (h : growCap target turns cap = some (.ok c)) :
    target ≤ c := by
  induction turns generalizing cap with
  | zero => cases h
  | succ turns ih =>
    rw [growCap] at h
    by_cases hmore : target > cap
    · rw [if_pos hmore] at h
      by_cases htop : cap > sizeMax / 2
      · rw [if_pos htop] at h
        cases h
      · rw [if_neg htop] at h
        exact ih h
    · rw [if_neg hmore] at h
      cases h
      omega

theorem growCap_pow {target turns cap c : Nat} (h : growCap target turns cap = some (.ok c)) :
    ∃ d, c = cap * 2 ^ d ∧ (d = 0 ∨ c ≤ sizeMax) := by
  induction turns generalizing cap with
  | zero => cases h
  | succ turns ih =>
    rw [growCap] at h
    by_cases hmore : target > cap
    · rw [if_pos hmore] at h
      by_cases htop : cap > sizeMax / 2
      · rw [if_pos htop] at h
        cases h
      · rw [if_neg htop] at h
        obtain ⟨d, rfl, hd⟩ := ih h
        refine ⟨d + 1, by rw [pow_succ', mul_assoc], .inr ?_⟩
        cases hd with
        | inl hd =>
          subst hd
          omega
        | inr hd => exact hd
    · rw [if_neg hmore] at h
      cases h
      exact ⟨0, by rw [pow_zero, mul_one], .inl rfl⟩

/-- The loop gets to the same capacity from the next one. -/
theorem growCap_double {target cap : Nat} (pos : 0 < cap) (more : target > cap)
    (fits : cap * 2 ≤ sizeMax) : growCap target 65 (cap * 2) = growCap target 65 cap := by
  have htop : ¬ cap > sizeMax / 2 := by omega
  have hends : growCap target 64 (cap * 2) ≠ none := by
    apply growCap_ne_none
    unfold sizeMax
    omega
  obtain ⟨r, hr⟩ := Option.ne_none_iff_exists'.mp hends
  have hstep : growCap target 65 cap = growCap target 64 (cap * 2) := by
    rw [growCap, if_pos more, if_neg htop]
  rw [hstep, hr, growCap_more hr]

theorem growCap_above {target d cap : Nat} (pos : 0 < cap) (fits : cap * 2 ^ d ≤ sizeMax)
    (more : target > cap * 2 ^ d) : growCap target 65 (cap * 2 ^ d) = growCap target 65 cap := by
  induction d generalizing cap with
  | zero => rw [pow_zero, mul_one]
  | succ d ih =>
    have hpow : cap * 2 ^ (d + 1) = cap * 2 * 2 ^ d := by rw [pow_succ', mul_assoc]
    have hle : cap * 2 ≤ cap * 2 * 2 ^ d := Nat.le_mul_of_pos_right _ (Nat.two_pow_pos d)
    rw [hpow] at fits more ⊢
    rw [ih (by omega) fits more]
    exact growCap_double pos (by omega) (by omega)

theorem growCap_below {target d cap : Nat} (pos : 0 < cap) (fits : cap * 2 ^ d ≤ sizeMax)
    (enough : target ≤ cap * 2 ^ d) : ∃ j ≤ d, growCap target 65 cap = some (.ok (cap * 2 ^ j)) := by
  induction d generalizing cap with
  | zero =>
    rw [pow_zero, mul_one] at enough
    exact ⟨0, Nat.le_refl _, by rw [growCap, if_neg (by omega), pow_zero, mul_one]⟩
  | succ d ih =>
    by_cases hmore : target > cap
    · have hpow : cap * 2 ^ (d + 1) = cap * 2 * 2 ^ d := by rw [pow_succ', mul_assoc]
      have hle : cap * 2 ≤ cap * 2 * 2 ^ d := Nat.le_mul_of_pos_right _ (Nat.two_pow_pos d)
      rw [hpow] at fits enough
      obtain ⟨j, hj, hgrow⟩ := ih (by omega) fits enough
      refine ⟨j + 1, by omega, ?_⟩
      rw [← growCap_double pos hmore (by omega), hgrow, pow_succ', mul_assoc]
    · exact ⟨0, by omega, by rw [growCap, if_neg hmore, pow_zero, mul_one]⟩

end Buffer

/-- The second capacity is one that growing the first would come by, and was
provided. -/
def Doubled (alloc : Alloc) (cap cap' : Nat) : Prop :=
  0 < cap ∧ ∃ d, cap' = cap * 2 ^ d ∧ (d = 0 ∨ alloc cap' = true ∧ cap' ≤ sizeMax)

theorem Doubled.refl (alloc : Alloc) {cap : Nat} (pos : 0 < cap) : Doubled alloc cap cap :=
  ⟨pos, 0, by rw [pow_zero, mul_one], .inl rfl⟩

theorem Doubled.le {alloc : Alloc} {cap cap' : Nat} (h : Doubled alloc cap cap') : cap ≤ cap' := by
  obtain ⟨-, d, rfl, -⟩ := h
  exact Nat.le_mul_of_pos_right _ (Nat.two_pow_pos d)

/-- What can be allocated, so can anything smaller. -/
def Alloc.Monotone (alloc : Alloc) : Prop := ∀ m n, m ≤ n → alloc n = true → alloc m = true

theorem Doubled.growth {alloc : Alloc} {start cap : Nat} (h : Doubled alloc start cap)
    (target : Nat) : Doubled alloc start (Buffer.growth alloc target cap).2 := by
  unfold Buffer.growth
  by_cases hmore : target > cap
  · rw [if_pos hmore]
    cases hgrow : Buffer.growCap target 65 cap with
    | none => exact h
    | some r =>
      cases r with
      | error rc => exact h
      | ok newCap =>
        simp only
        by_cases halloc : alloc newCap
        · rw [if_pos halloc]
          obtain ⟨pos, d, rfl, hd⟩ := h
          obtain ⟨e, rfl, he⟩ := Buffer.growCap_pow hgrow
          refine ⟨pos, d + e, by rw [pow_add, mul_assoc], ?_⟩
          by_cases he0 : e = 0
          · subst he0
            simpa using hd
          · exact .inr ⟨halloc, he.resolve_left he0⟩
        · rw [if_neg halloc]
          exact h
  · rw [if_neg hmore]
    exact h

/-- Growth from a fixed capacity, as a relation of a run to itself. -/
theorem sameGrowth_from (alloc : Alloc) (start : Nat) :
    SameGrowth alloc fun cap cap' => cap' = cap ∧ Doubled alloc start cap := by
  rintro target cap _ ⟨rfl, h⟩
  exact ⟨rfl, rfl, h.growth target⟩

theorem sameGrowth_doubled {alloc : Alloc} (monotone : alloc.Monotone) :
    SameGrowth alloc (Doubled alloc) := by
  rintro target cap cap' ⟨pos, d, rfl, hd⟩
  by_cases hd0 : d = 0
  · subst hd0
    rw [pow_zero, mul_one]
    have hsame := (Doubled.refl alloc pos).growth target
    exact ⟨rfl, .refl alloc (pos.trans_le hsame.le)⟩
  · obtain ⟨halloc, fits⟩ := hd.resolve_left hd0
    have hle : cap ≤ cap * 2 ^ d := Nat.le_mul_of_pos_right _ (Nat.two_pow_pos d)
    unfold Buffer.growth
    by_cases habove : target > cap * 2 ^ d
    · rw [if_pos habove, if_pos (by omega), Buffer.growCap_above pos fits habove]
      have hstay : Doubled alloc cap (cap * 2 ^ d) := ⟨pos, d, rfl, .inr ⟨halloc, fits⟩⟩
      cases hgrow : Buffer.growCap target 65 cap with
      | none => exact ⟨rfl, hstay⟩
      | some r =>
        cases r with
        | error rc => exact ⟨rfl, hstay⟩
        | ok newCap =>
          simp only
          by_cases hnew : alloc newCap
          · rw [if_pos hnew, if_pos hnew]
            exact ⟨rfl, .refl alloc (pos.trans_le (Buffer.growCap_le hgrow))⟩
          · rw [if_neg hnew, if_neg hnew]
            exact ⟨rfl, hstay⟩
    · rw [if_neg habove]
      by_cases hmore : target > cap
      · obtain ⟨j, hj, hgrow⟩ := Buffer.growCap_below pos fits (Nat.not_lt.mp habove)
        have hpow : cap * 2 ^ d = cap * 2 ^ j * 2 ^ (d - j) := by
          rw [mul_assoc, ← pow_add, Nat.add_sub_cancel' hj]
        have hless : cap * 2 ^ j ≤ cap * 2 ^ d := by
          rw [hpow]
          exact Nat.le_mul_of_pos_right _ (Nat.two_pow_pos _)
        rw [if_pos hmore, hgrow]
        simp only
        rw [if_pos (monotone _ _ hless halloc)]
        exact ⟨rfl, Nat.mul_pos pos (Nat.two_pow_pos j), d - j, hpow, .inr ⟨halloc, fits⟩⟩
      · rw [if_neg hmore]
        exact ⟨rfl, pos, d, rfl, .inr ⟨halloc, fits⟩⟩

/-- The codes for a packet that cannot be built. -/
def Code.Rejects : Code → Prop
  | maxPacketExceeded | unknownType | protocolViolation => True
  | _ => False

theorem Sock.write_error {data : List UInt8} {nwrite : Nat} {sock : Sock} {rc : Code}
    (h : (Sock.write data nwrite sock).1 = .error rc) : ¬ rc.Rejects := by
  have raw : ∀ e, ¬ (Sock.rawWriteError e).Rejects := by
    intro e
    cases e <;> exact id
  have ssl : ∀ e, ¬ (Sock.sslIoReturn e).Rejects := by
    intro e
    cases e with
    | syscall queued errnoZero => cases queued <;> cases errnoZero <;> exact id
    | _ => exact id
  unfold Sock.write at h
  split at h
  · unfold Sock.rawWrite at h
    split at h
    · cases h
      exact id
    · cases h
      exact raw _
    · cases h
  · unfold Sock.sslWrite at h
    split at h
    · cases h
      exact id
    · cases h
      exact ssl _
    · cases h
  · cases h
    exact id

namespace Conn

theorem flushWrites_error {c c' : Conn} {rc : Code} (h : flushWrites c = (.error rc, c')) :
    ¬ rc.Rejects := by
  rw [flushWrites, get_bind, bind_error] at h
  rcases h with h | ⟨bytes, c₁, -, h⟩
  · exact Sock.write_error (congrArg Prod.fst h)
  · rw [modify_bind, get_bind] at h
    split at h
    · cases h
      exact id
    · cases h

/-- A procedure that builds a packet, and then hands it to the socket. -/
structure Commands (alloc : Alloc) (packet : Proc Code Builder Unit)
    (rest : Builder → Proc Code Conn Decoded) (m : Proc Code Conn Decoded) : Prop where
  run : m = do
    let builder ← beginCommandPhase alloc 0
    let builder ← build builder packet
    rest builder
  packet_blind : ∀ {G : Nat → Nat → Prop} {k : Nat}, SameGrowth alloc G →
    Blind (TwinBuilder G k) packet
  rest_alike : ∀ {G : Nat → Nat → Prop} {k : Nat} {builder builder' : Builder},
    TwinBuilder G k builder builder' → Alike (Twins G k) Eq (rest builder) (rest builder')
  rest_error : ∀ {builder : Builder} {c c' : Conn} {rc : Code},
    rest builder c = (.error rc, c') → ¬ rc.Rejects

variable {alloc : Alloc} {packet : Proc Code Builder Unit}

theorem beginWrite_error {c c' : Conn} {rc : Code}
    (h : (do beginWrite; pure Decoded.done) c = (.error rc, c')) : ¬ rc.Rejects := by
  rw [bind_error] at h
  rcases h with h | ⟨_, c₁, -, h⟩
  · exact flushWrites_error h
  · cases h

theorem commands_sendPacket
    (hm : ∀ {G : Nat → Nat → Prop} {k : Nat}, SameGrowth alloc G → Blind (TwinBuilder G k) packet) :
    Commands alloc packet (fun _ => do beginWrite; pure .done)
      (do sendPacket alloc 0 packet; pure .done) where
  run := by simp only [sendPacket, bind_assoc]
  packet_blind := hm
  rest_alike _ := Blind.bind blind_beginWrite fun _ => .pure _
  rest_error h := beginWrite_error h

theorem commands_sendPacketInSequence
    (hm : ∀ {G : Nat → Nat → Prop} {k : Nat}, SameGrowth alloc G → Blind (TwinBuilder G k) packet) :
    Commands alloc packet
      (fun builder => do
        modify fun conn =>
          { conn with packetParser := { conn.packetParser with sequence_number := builder.seq } }
        beginWrite
        pure .done)
      (do sendPacketInSequence alloc packet; pure .done) where
  run := by simp only [sendPacketInSequence, bind_assoc]
  packet_blind := hm
  rest_alike := by
    rintro G k builder _ ⟨buffer, -, rfl⟩
    exact Blind.bind (blind_modify (fun _ => rfl) fun _ _ => rfl) fun _ =>
      .bind blind_beginWrite fun _ => .pure _
  rest_error h := beginWrite_error h

end Conn

/-- The functions that send a command. -/
def Call.IsCommand : Call → Prop
  | changeDbSend _ | setOptionSend _ | pingSend | querySend _ | stmtPrepareSend _
  | stmtBindDataSend .. | stmtExecuteSend .. | stmtResetSend _ | stmtCloseSend _ | closeSend => True
  | _ => False

open Conn in
theorem Call.commands (alloc : Alloc) (digests : Digests) {call : Call} (h : call.IsCommand) :
    ∃ packet rest, Commands alloc packet rest (call.run alloc digests) := by
  cases call with
  | changeDbSend name =>
    exact ⟨_, _, commands_sendPacket fun grow =>
      blind_command grow _ (Builder.blind_writeBuffer grow name)⟩
  | setOptionSend option =>
    exact ⟨_, _, commands_sendPacket fun grow =>
      blind_command grow _ (Builder.blind_writeUint16 grow option)⟩
  | pingSend | closeSend =>
    exact ⟨_, _, commands_sendPacket fun grow =>
      .bind (Builder.blind_writeUint8 grow _) fun _ => Builder.blind_finalize⟩
  | querySend query =>
    exact ⟨_, _, commands_sendPacketInSequence fun grow =>
      blind_command grow _ (Builder.blind_writeBuffer grow query)⟩
  | stmtPrepareSend sql =>
    exact ⟨_, _, commands_sendPacket fun grow =>
      blind_command grow _ (Builder.blind_writeBuffer grow sql)⟩
  | stmtBindDataSend stmt param_num data =>
    exact ⟨_, _, commands_sendPacket fun grow =>
      .bind (Builder.blind_writeUint8 grow _) fun _ => .bind (Builder.blind_writeUint32 grow _)
      fun _ => .bind (Builder.blind_writeUint16 grow _) fun _ =>
      .bind (Builder.blind_writeBuffer grow _) fun _ => Builder.blind_finalize⟩
  | stmtExecuteSend stmt flags binds =>
    exact ⟨_, _, commands_sendPacketInSequence fun grow =>
      blind_buildStmtExecutePacket grow _ _ _ _⟩
  | stmtResetSend stmt | stmtCloseSend stmt =>
    exact ⟨_, _, commands_sendPacket fun grow =>
      blind_command grow _ (Builder.blind_writeUint32 grow _)⟩
  | _ => exact absurd h id

theorem Buffer.expand_room {alloc : Alloc} {needed : Nat} {b b' : Buffer}
    (h : expand alloc needed b = (.ok (), b')) : sizeAdd b.len needed ≤ b'.cap := by
  unfold expand at h
  by_cases hmore : sizeAdd b.len needed > b.cap
  · rw [if_pos hmore] at h
    split at h
    · cases h
    · cases h
    · rename_i hgrow
      split at h
      · cases h
        exact growCap_reaches hgrow
      · cases h
  · rw [if_neg hmore] at h
    cases h
    exact Nat.not_lt.mp hmore

theorem Builder.init_room {alloc : Alloc} {buff : Buffer} {seq : UInt8} {b : Builder}
    (h : init alloc buff seq = (.ok (), b)) : 4 ≤ b.buffer.cap := by
  obtain ⟨_, b₁, hexpand, hpush⟩ := bind_ok.mp h
  rw [onBuffer, zoom_apply] at hexpand
  obtain ⟨hok, rfl⟩ := Prod.mk.inj hexpand
  cases hpush
  exact Buffer.expand_room (ends hok)

namespace Conn

variable {alloc : Alloc} {seq : UInt8} {c c' : Conn}

theorem beginCommandPhase_header {builder : Builder} {c₁ : Conn}
    (h : beginCommandPhase alloc seq c = (.ok builder, c₁)) :
    builder.buffer.len = 4 ∧ 4 ≤ builder.buffer.cap ∧ c₁.packet_buffer = builder.buffer := by
  unfold beginCommandPhase at h
  split at h
  · cases h
  · rename_i b hinit
    obtain ⟨hbytes, -⟩ := Builder.writeHeader_ok hinit
    have hmax : ∀ max, (Builder.setMaxPacketLength max b).2.buffer = b.buffer := by
      intro max
      rw [Builder.setMaxPacketLength, get_bind]
      split <;> rfl
    have hsame : builder.buffer = b.buffer ∧ c₁.packet_buffer = builder.buffer := by
      cases h
      refine ⟨?_, rfl⟩
      by_cases hpos : c.socket.opts.max_allowed_packet > 0
      · rw [if_pos hpos]
        exact hmax _
      · rw [if_neg hpos]
    refine ⟨?_, ?_, hsame.2⟩
    · rw [hsame.1, Buffer.len, hbytes]
      rfl
    · rw [hsame.1]
      exact Builder.init_room hinit

theorem beginCommandPhase_succeeds (room : 4 ≤ c.packet_buffer.cap) :
    ∃ builder c₁, beginCommandPhase alloc seq c = (.ok builder, c₁) := by
  have hexpand : ∀ b : Buffer, b.bytes = [] → 4 ≤ b.cap → Buffer.expand alloc 4 b = (.ok (), b) := by
    intro b hbytes hcap
    unfold Buffer.expand
    rw [if_neg]
    rw [Buffer.len, hbytes]
    simpa [sizeAdd] using hcap
  have hinit : ∃ b, Builder.init alloc c.packet_buffer seq = (.ok (), b) := by
    rw [Builder.init, Builder.writeHeader, bind_apply, Builder.onBuffer, zoom_apply,
      hexpand c.packet_buffer.reset rfl room]
    exact ⟨_, rfl⟩
  obtain ⟨b, hb⟩ := hinit
  unfold beginCommandPhase
  rw [hb]
  exact ⟨_, _, rfl⟩

/-- The sequence number from before is not looked at. -/
theorem beginCommandPhase_sequence {builder : Builder} {c₁ : Conn} (n : UInt8)
    (h : beginCommandPhase alloc seq c = (.ok builder, c₁)) :
    beginCommandPhase alloc seq
      { c with packetParser := { c.packetParser with sequence_number := n } } =
      (.ok builder, c₁) := by
  unfold beginCommandPhase at h ⊢
  split at h
  · cases h
  · rename_i hinit
    simp only [hinit]
    exact h

/-- What a rejected command leaves. -/
def Spoilt (alloc : Alloc) (c c' : Conn) : Prop :=
  ∃ packet_buffer sequence_number, 4 ≤ packet_buffer.cap ∧
    Doubled alloc c.packet_buffer.cap packet_buffer.cap ∧
    c' = { c with packet_buffer, packetParser := { c.packetParser with sequence_number } }

variable {packet : Proc Code Builder Unit} {rest : Builder → Proc Code Conn Decoded}
  {m : Proc Code Conn Decoded}

theorem beginCommandPhase_error {rc : Code} {c₁ : Conn}
    (h : beginCommandPhase alloc seq c = (.error rc, c₁)) : ¬ rc.Rejects := by
  unfold beginCommandPhase at h
  split at h
  · rename_i hinit
    cases h
    rw [Builder.init, Builder.writeHeader, bind_error] at hinit
    rcases hinit with hinit | ⟨_, b, -, hinit⟩
    · have hexpand := Buffer.expand_error (ends (congrArg Prod.fst hinit))
      rcases hexpand with rfl | rfl
      · exact id
      · exact id
    · cases hinit
  · cases h

/-- The capacity while a packet is built. -/
theorem Commands.doubled (h : Commands alloc packet rest m) {start : Nat} {builder : Builder}
    (hstart : Doubled alloc start builder.buffer.cap) :
    Doubled alloc start (packet builder).2.buffer.cap := by
  have hself : TwinBuilder (fun cap cap' => cap' = cap ∧ Doubled alloc start cap) 0
      builder builder := ⟨_, ⟨⟨rfl, hstart⟩, rfl, fun _ _ => rfl, fun _ => rfl⟩, rfl⟩
  obtain ⟨buffer, hb, -⟩ := (h.packet_blind (sameGrowth_from alloc start) _ _ hself).2
  exact hb.cap.2

theorem beginCommandPhase_doubled {builder : Builder} {c₁ : Conn}
    (h : beginCommandPhase alloc seq c = (.ok builder, c₁)) :
    Doubled alloc c.packet_buffer.cap builder.buffer.cap := by
  have hself : Twins (fun cap cap' => cap' = cap ∧ Doubled alloc c.packet_buffer.cap cap) 0 c c :=
    twins_iff.mpr ⟨_, ⟨⟨rfl, .refl alloc c.packet_buffer.cap_pos⟩, rfl, fun _ _ => rfl,
      fun _ => rfl⟩, rfl⟩
  have hbegun := (alike_beginCommandPhase (sameGrowth_from alloc _) seq c c hself).1
  rw [h] at hbegun
  cases hbegun with
  | ok hbuilder =>
    obtain ⟨buffer, hb, -⟩ := hbuilder
    exact hb.cap.2

theorem build_leaves (packet : Proc Code Builder Unit) (builder : Builder) (c : Conn) :
    (build builder packet c).2 = { c with packet_buffer := (packet builder).2.buffer } := by
  unfold build
  rcases packet builder with ⟨_ | _, _⟩
  · rfl
  · rfl

theorem Commands.spoils (h : Commands alloc packet rest m) {rc : Code} (rejects : rc.Rejects)
    (run : m c = (.error rc, c')) : Spoilt alloc c c' := by
  rw [h.run, bind_error] at run
  rcases run with run | ⟨builder, c₁, hbegin, run⟩
  · exact absurd rejects (beginCommandPhase_error run)
  · obtain ⟨-, hroom, -⟩ := beginCommandPhase_header hbegin
    obtain ⟨-, rfl⟩ := beginCommandPhase_ok hbegin
    rw [bind_error] at run
    rcases run with run | ⟨builder', c₂, -, run⟩
    · have hafter := build_leaves packet builder { c with
        packet_buffer := builder.buffer
        packetParser := { c.packetParser with sequence_number := 0 + 1 } }
      rw [run] at hafter
      have hpacket := h.doubled (.refl alloc builder.buffer.cap_pos)
      exact ⟨_, _, hroom.trans hpacket.le, h.doubled (beginCommandPhase_doubled hbegin), hafter⟩
    · exact absurd rejects (h.rest_error run)

/-- It finds the same, but for the capacity. -/
theorem Spoilt.begins (monotone : alloc.Monotone) (h : Spoilt alloc c c') (seq : UInt8) :
    ∃ builder builder' c₁ c₁', beginCommandPhase alloc seq c = (.ok builder, c₁) ∧
      beginCommandPhase alloc seq c' = (.ok builder', c₁') ∧
      TwinBuilder (Doubled alloc) 4 builder builder' ∧ Twins (Doubled alloc) 4 c₁ c₁' := by
  obtain ⟨packet_buffer, sequence_number, room, hcap, rfl⟩ := h
  have hreset : Twin (Doubled alloc) 0 True c.packet_buffer.reset packet_buffer.reset :=
    ⟨hcap, rfl, fun _ hi => absurd hi (Nat.not_lt_zero _), fun _ => rfl⟩
  obtain ⟨hend, hafter⟩ := twin_beginCommandPhase (sameGrowth_doubled monotone) seq hreset
  obtain ⟨builder', c₁', hbegin'⟩ : ∃ builder c₁, beginCommandPhase alloc seq
      { c with packet_buffer } = (.ok builder, c₁) := beginCommandPhase_succeeds room
  rcases hbegin : beginCommandPhase alloc seq c with ⟨rc | builder, c₁⟩
  · rw [hbegin, hbegin'] at hend
    cases hend
  · rw [hbegin, hbegin'] at hend hafter
    cases hend with
    | ok hbuilder =>
      obtain ⟨hlen, -, hsame⟩ := beginCommandPhase_header hbegin
      obtain ⟨buffer, hb, rfl⟩ := hbuilder
      obtain ⟨buffer', hb', rfl⟩ := twins_iff.mp hafter
      refine ⟨builder, _, c₁, _, rfl, beginCommandPhase_sequence _ hbegin', ?_, ?_⟩
      · exact ⟨buffer, hb.front_len (Nat.le_of_eq hlen.symm), rfl⟩
      · apply twins_iff.mpr
        exact ⟨buffer', hb'.front_len (by rw [hsame, hlen]), rfl⟩

theorem Commands.recovers (monotone : alloc.Monotone) (h : Commands alloc packet rest m)
    (spoilt : Spoilt alloc c c') :
    (m c').1 = (m c).1 ∧ Twins (Doubled alloc) 4 (m c).2 (m c').2 := by
  obtain ⟨builder, builder', c₁, c₁', hbegin, hbegin', hbuilder, hconn⟩ := spoilt.begins monotone 0
  have hbuild := alike_build (h.packet_blind (sameGrowth_doubled monotone)) hbuilder
  obtain ⟨hend, hafter⟩ := Alike.bind hbuild (fun _ _ => h.rest_alike) c₁ c₁' hconn
  rw [h.run, bind_of_ok hbegin, bind_of_ok hbegin']
  exact ⟨hend.eq.symm, hafter⟩

end Conn

open Conn

/-- The flushes among the calls are made of what is still to be written. -/
def FlushesWithin (alloc : Alloc) (digests : Digests) : List Call → Conn → Prop :=
  Allowed alloc digests fun c call => call.Flushes c

theorem replay_twins {alloc : Alloc} (digests : Digests) {G : Nat → Nat → Prop} {k : Nat}
    (grow : SameGrowth alloc G) (front : 2 ≤ k) {calls : List Call} {c c' : Conn}
    (flushes : FlushesWithin alloc digests calls c) (h : Twins G k c c') :
    (replay alloc digests calls c').1 = (replay alloc digests calls c).1 ∧
      Twins G k (replay alloc digests calls c).2 (replay alloc digests calls c').2 := by
  induction calls generalizing c c' with
  | nil => exact ⟨rfl, h⟩
  | cons call calls ih =>
    obtain ⟨hcall, hrest⟩ := flushes
    obtain ⟨hend, hafter⟩ := Call.twins grow front digests hcall h
    obtain ⟨hmore, hlast⟩ := ih hrest hafter
    refine ⟨?_, hlast⟩
    rw [replay, replay, hmore, hend.eq]

/-- A command that is rejected leaves the socket alone, and what is called from the
next command on goes as if it had not been made, unless a flush reaches behind a reply. -/
theorem rejected_traceless {alloc : Alloc} {digests : Digests} (monotone : alloc.Monotone)
    {c c' : Conn} {call : Call} (command : call.IsCommand) {rc : Code} (rejects : rc.Rejects)
    (run : call.run alloc digests c = (.error rc, c')) :
    c'.socket = c.socket ∧ ∀ first rest, first.IsCommand →
      FlushesWithin alloc digests (first :: rest) c →
      (replay alloc digests (first :: rest) c').1 = (replay alloc digests (first :: rest) c).1 ∧
      (replay alloc digests (first :: rest) c').2.socket =
        (replay alloc digests (first :: rest) c).2.socket := by
  obtain ⟨packet, rest, hcall⟩ := Call.commands alloc digests command
  have spoilt := hcall.spoils rejects run
  constructor
  · obtain ⟨_, _, -, -, rfl⟩ := spoilt
    rfl
  · intro first rest hfirst flushes
    obtain ⟨packet', rest', hnext⟩ := Call.commands alloc digests hfirst
    obtain ⟨hend, hafter⟩ := hnext.recovers monotone spoilt
    obtain ⟨-, hflushes⟩ := flushes
    obtain ⟨hmore, hlast⟩ :=
      replay_twins digests (sameGrowth_doubled monotone) (by decide) hflushes hafter
    constructor
    · rw [replay, replay, hmore, hend]
    · obtain ⟨_, -, hsame⟩ := twins_iff.mp hlast
      rw [replay, replay]
      simp only [hsame]

/-- A connection that takes packets of a few bytes, on a socket that takes three at first. -/
def narrowConn : Conn :=
  { Conn.init { idleSock with
      opts := { idleSock.opts with max_allowed_packet := 6 }
      net := { idleSock.net with
        raw_reads := [.data [7, 0, 0, 1, 0, 0, 0, 2, 0, 0, 0]]
        raw_writes := [.wrote 3, .wrote 2] } }
    with capabilities := Capabilities.protocol41 }

theorem rejected_traceless_query :
    let query := Call.querySend (literal "SELECT 1")
    let spoilt := (query.run (fun _ => true) noDigests narrowConn).2
    let later := [.pingSend, .flushWrites, .pingRecv]
    spoilt ≠ narrowConn ∧ spoilt.socket = narrowConn.socket ∧
      (replay (fun _ => true) noDigests later spoilt).1 =
        [(.pingSend, .error .again), (.flushWrites, .ok .done), (.pingRecv, .ok .done)] ∧
      (replay (fun _ => true) noDigests later spoilt).2.socket =
        (replay (fun _ => true) noDigests later narrowConn).2.socket := by
  intro query spoilt later
  have hrun : (query.run (fun _ => true) noDigests narrowConn).1 = .error .maxPacketExceeded := by
    decide +kernel
  have command : query.IsCommand := trivial
  have rejects : Code.maxPacketExceeded.Rejects := trivial
  have monotone : Alloc.Monotone fun _ => true := fun _ _ _ _ => rfl
  have run : query.run (fun _ => true) noDigests narrowConn =
      (.error .maxPacketExceeded, spoilt) := ends hrun
  obtain ⟨hsocket, hlater⟩ := rejected_traceless monotone command rejects run
  have flushes : FlushesWithin (fun _ => true) noDigests later narrowConn := by
    simp only [later, FlushesWithin, Allowed, Call.Flushes, Within, true_and, and_true]
    decide +kernel
  obtain ⟨hresults, hsame⟩ := hlater .pingSend [.flushWrites, .pingRecv] trivial flushes
  have hresult : (replay (fun _ => true) noDigests later narrowConn).1.map Prod.snd =
      [.error .again, .ok .done, .ok .done] := by
    decide +kernel
  refine ⟨by decide +kernel, hsocket, ?_, hsame⟩
  rw [hresults]
  simp only [later, replay, List.map_cons, List.map_nil, List.cons.injEq, and_true] at hresult ⊢
  simp only [hresult, and_true]

/-- A connection that had a query answered. Its socket takes the next query at once, and
then three bytes more. -/
def answeredConn : Conn :=
  (replay (fun _ => true) noDigests [.querySend (literal "SET @name = 'abcdef'"), .queryRecv]
    { Conn.init { idleSock with net := { idleSock.net with
        raw_reads := [.data [7, 0, 0, 1, 0, 0, 0, 2, 0, 0, 0],
          .data [7, 0, 0, 1, 0, 0, 0, 2, 0, 0, 0]]
        raw_writes := [.wrote 25, .wrote 13, .wrote 3] } }
      with capabilities := Capabilities.protocol41 }).2

/-- Behind a reply that is shorter than the query a flush goes on from where the query
ended: into what the rejected command left there. -/
theorem flush_behind_reply :
    let execute := Call.stmtExecuteSend
      { (default : StmtOkPacket) with id := 1, parameter_count := 1 } 0
      (some [{ (default : BinaryValue) with type := 0xf0 }])
    let spoilt := (execute.run (fun _ => true) noDigests answeredConn).2
    let later := [.querySend (literal "SELECT 1"), .queryRecv, .flushWrites]
    (execute.run (fun _ => true) noDigests answeredConn).1 = .error .unknownType ∧
      (replay (fun _ => true) noDigests later answeredConn).1.map Prod.snd =
        [.ok .done, .ok .done, .ok .done] ∧
      (replay (fun _ => true) noDigests later answeredConn).2.socket.sent.getLast? =
        some (.plain, literal "e =") ∧
      (replay (fun _ => true) noDigests later spoilt).2.socket.sent.getLast? =
        some (.plain, [0, 0, 1]) := by
  decide +kernel

end Trilogy
