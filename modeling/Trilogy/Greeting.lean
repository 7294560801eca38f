import Trilogy.Accepted
import Trilogy.Protocol

/-! The grammar of the packet a server greets with. The record that it is parsed
into lies on the stack of every caller, and the plugin name is written only
under a capability; three checks on one length byte see to it that there is no
other way to success. -/
namespace Trilogy

open Lib Reader

/-- What a handshake packet says. -/
structure Greeting where
  version : List UInt8
  conn_id : UInt32
  scramble : List UInt8
  lower : UInt16
  charset : UInt8
  status : UInt16
  upper : UInt16
  reserved : List UInt8
  more : List UInt8
  plugin : List UInt8
  version_text : ∀ b ∈ version, b ≠ 0
  scramble_length : scramble.length = 8
  reserved_length : reserved.length = 10
  more_length : more.length = 13
  plugin_text : ∀ b ∈ plugin, b ≠ 0
  plugin_length : plugin.length ≤ 31
  protocol41 : has (lower.toUInt32 ||| upper.toUInt32 <<< 16) Capabilities.protocol41
  secureConnection : has (lower.toUInt32 ||| upper.toUInt32 <<< 16) Capabilities.secureConnection
  pluginAuth : has (lower.toUInt32 ||| upper.toUInt32 <<< 16) Capabilities.pluginAuth

namespace Greeting

def capabilities (g : Greeting) : UInt32 := g.lower.toUInt32 ||| g.upper.toUInt32 <<< 16

/-- 21 is the length of both parts of the scramble together. -/
def bytes (g : Greeting) : List UInt8 :=
  0x0a :: (g.version ++ 0 :: (leBytes 4 g.conn_id.toNat ++ (g.scramble ++ 0 ::
    (leBytes 2 g.lower.toNat ++ g.charset :: (leBytes 2 g.status.toNat ++
    (leBytes 2 g.upper.toNat ++ 21 :: (g.reserved ++ (g.more ++ (g.plugin ++ [0])))))))))

def handshake (g : Greeting) : Handshake where
  proto_version := 0x0a
  server_version := g.version.take 31
  conn_id := g.conn_id
  scramble := g.scramble ++ g.more
  capabilities := g.capabilities
  server_charset := g.charset
  server_status := g.status
  auth_plugin := g.plugin

end Greeting

/-- The bit is in the low half. -/
theorem has_protocol41 (lower upper : UInt16) :
    has (lower.toUInt32 ||| upper.toUInt32 <<< 16) Capabilities.protocol41 =
      has lower.toUInt32 Capabilities.protocol41 := by
  have hbits : (lower.toUInt32 ||| upper.toUInt32 <<< 16) &&& Capabilities.protocol41 =
      lower.toUInt32 &&& Capabilities.protocol41 := by
    apply UInt32.toNat_inj.mp
    apply Nat.eq_of_testBit_eq
    intro i
    have hbit : Capabilities.protocol41.toNat = 2 ^ 9 := rfl
    rw [UInt32.toNat_and, UInt32.toNat_and, hbit, Nat.testBit_and, Nat.testBit_and,
      Nat.testBit_two_pow, UInt32.toNat_or, UInt32.toNat_shiftLeft]
    by_cases hi : 9 = i
    · subst hi
      change ((_ ||| _ <<< 16 % 2 ^ 32).testBit 9 && _) = _
      rw [Nat.testBit_or, Nat.testBit_mod_two_pow, Nat.testBit_shiftLeft]
      simp
    · simp [hi]
  rw [has, has, hbits]

theorem accepts_parseAuthPlugin (capabilities : UInt32) (out : List UInt8) :
    Cursor.Accepts (parseAuthPlugin capabilities out) fun input plugin left =>
      (has capabilities Capabilities.pluginAuth →
        ((∀ b ∈ plugin, b ≠ 0) ∧ plugin.length ≤ 31) ∧ input = plugin ++ 0 :: left) ∧
      (¬ has capabilities Capabilities.pluginAuth → plugin = out ∧ left = input) := by
  refine .ite (fun _ => ?_) fun _ => .pure out
  refine (accepts_getString.bind fun plugin => .ite (fun _ => .throw _) fun _ =>
    (accepts_copyString plugin 32).bind fun _ => .pure plugin).of_iff fun input plugin left => ?_
  constructor
  · rintro ⟨plugin, mid, ⟨htext, rfl⟩, hlong, hshort⟩
    have hlength : ¬ plugin.length > 31 := hlong
    obtain ⟨-, _, rfl, rfl, rfl⟩ := hshort hlength
    exact ⟨⟨htext, Nat.le_of_not_lt hlength⟩, rfl⟩
  · rintro ⟨⟨htext, hlength⟩, rfl⟩
    exact ⟨plugin, left, ⟨htext, rfl⟩, fun hlong => absurd hlength (Nat.not_le_of_lt hlong),
      fun _ => ⟨(), left, rfl, rfl, rfl⟩⟩

/-- Any record that comes out is that of a greeting, and these are its bytes. -/
theorem greeting_of_parse {out h : Handshake} {b : List UInt8}
    (hparse : parse (parseHandshakePacket out) b = .ok h) :
    ∃ g : Greeting, b = g.bytes ∧ h = g.handshake := by
  have h₀ := Proc.ends hparse
  have p₀ : 0 ≤ b.length := Nat.zero_le _
  rw [parseHandshakePacket] at h₀
  obtain ⟨proto, c₁, p₁, r₁, h₁⟩ := accepts_getUint8.bind_ok p₀ h₀
  obtain ⟨-, c₂, p₂, ⟨hproto, r₂⟩, h₂⟩ := (Cursor.Accepts.refuses _).bind_ok p₁ h₁
  obtain ⟨version, c₃, p₃, ⟨hversion, r₃⟩, h₃⟩ := accepts_getString.bind_ok p₂ h₂
  obtain ⟨-, c₄, p₄, r₄, h₄⟩ := (Cursor.Accepts.mark _).bind_ok p₃ h₃
  obtain ⟨conn_id, c₅, p₅, r₅, h₅⟩ := accepts_getUint32.bind_ok p₄ h₄
  obtain ⟨scramble, c₆, p₆, ⟨hscramble, r₆⟩, h₆⟩ := (accepts_copyBuffer 8 0 21).bind_ok p₅ h₅
  obtain ⟨filler, c₇, p₇, r₇, h₇⟩ := accepts_getUint8.bind_ok p₆ h₆
  obtain ⟨-, c₈, p₈, ⟨hfiller, r₈⟩, h₈⟩ := (Cursor.Accepts.refuses _).bind_ok p₇ h₇
  obtain ⟨lower, c₉, p₉, r₉, h₉⟩ := accepts_getUint16.bind_ok p₈ h₈
  obtain ⟨-, d, p, ⟨hlow, r⟩, h⟩ := (Cursor.Accepts.refuses _).bind_ok p₉ h₉
  obtain ⟨charset, d₁, q₁, s₁, k₁⟩ := accepts_getUint8.bind_ok p h
  obtain ⟨status, d₂, q₂, s₂, k₂⟩ := accepts_getUint16.bind_ok q₁ k₁
  obtain ⟨upper, d₃, q₃, s₃, k₃⟩ := accepts_getUint16.bind_ok q₂ k₂
  obtain ⟨length, d₄, q₄, s₄, k₄⟩ := accepts_getUint8.bind_ok q₃ k₃
  obtain ⟨-, d₅, q₅, ⟨hpluginAuth, s₅⟩, k₅⟩ := (Cursor.Accepts.refuses _).bind_ok q₄ k₄
  obtain ⟨reserved, d₆, q₆, ⟨hreserved, s₆⟩, k₆⟩ := (accepts_getBuffer 10).bind_ok q₅ k₅
  obtain ⟨-, d₇, q₇, ⟨hsecure, s₇⟩, k₇⟩ := (Cursor.Accepts.refuses _).bind_ok q₆ k₆
  obtain ⟨-, d₈, q₈, ⟨hlength, s₈⟩, k₈⟩ := (Cursor.Accepts.refuses _).bind_ok q₇ k₇
  obtain ⟨more, d₉, q₉, ⟨hmore, s₉⟩, k₉⟩ := (accepts_copyBuffer _ 8 21).bind_ok q₈ k₈
  obtain ⟨plugin, e, q, ⟨hplugin, -⟩, k⟩ :=
    (accepts_parseAuthPlugin _ out.auth_plugin).bind_ok q₉ k₉
  obtain ⟨-, e', q', ⟨hleft, -⟩, k'⟩ := accepts_finish.bind_ok q k
  cases k'
  obtain rfl : proto = 0x0a := Decidable.not_not.mp hproto
  obtain rfl : filler = 0 := Decidable.not_not.mp hfiller
  obtain rfl : length = 21 := by
    apply UInt8.toNat_inj.mp
    exact (Decidable.not_not.mp hlength).symm
  obtain ⟨hsecure, -⟩ := not_not.mp hsecure
  have h41 : has (lower.toUInt32 ||| upper.toUInt32 <<< 16) Capabilities.protocol41 := by
    rw [has_protocol41]
    simpa using hlow
  have hauth : has (lower.toUInt32 ||| upper.toUInt32 <<< 16) Capabilities.pluginAuth := by
    simpa using hpluginAuth
  obtain ⟨⟨htext, hshort⟩, rlast⟩ := hplugin hauth
  refine ⟨⟨version, conn_id, scramble, lower, charset, status, upper, reserved, more, plugin,
    hversion, hscramble, hreserved, hmore, htext, hshort, h41, hsecure, hauth⟩, ?_, rfl⟩
  have hb : b = 0x0a :: c₁.rest := r₁
  rw [hb, ← r₂, r₃, ← r₄, r₅, r₆, r₇, ← r₈, r₉, ← r, s₁, s₂, s₃, s₄, ← s₅, s₆, ← s₇, ← s₈, s₉,
    rlast, hleft]
  rfl

/-- A greeting is parsed to its record, whatever was there before. -/
theorem parse_greeting (out : Handshake) (g : Greeting) :
    parse (parseHandshakePacket out) g.bytes = .ok g.handshake := by
  have hconn := reads_getUint32 g.conn_id.toNat
  have hlower := reads_getUint16 g.lower.toNat
  have hstatus := reads_getUint16 g.status.toNat
  have hupper := reads_getUint16 g.upper.toNat
  rw [UInt32.ofNat_toNat] at hconn
  rw [UInt16.ofNat_toNat] at hlower hstatus hupper
  have hlow : ¬ (!has g.lower.toUInt32 Capabilities.protocol41) = true := by
    have := g.protocol41
    rw [has_protocol41] at this
    simp [this]
  have hplugin : ¬ ((!has g.capabilities Capabilities.pluginAuth) = true ∧ (21 : UInt8) ≠ 0) := by
    have h : has g.capabilities Capabilities.pluginAuth := g.pluginAuth
    simp [h]
  have hsecure : ¬ ¬ (has g.capabilities Capabilities.secureConnection = true ∧ (8 : UInt8) < 21) :=
    not_not_intro ⟨g.secureConnection, by decide⟩
  have hname : Cursor.Reads (parseAuthPlugin g.capabilities out.auth_plugin) (g.plugin ++ [0])
      (.ok g.plugin) [] :=
    (accepts_parseAuthPlugin _ _).complete
      ⟨fun _ => ⟨⟨g.plugin_text, g.plugin_length⟩, rfl⟩, fun h => absurd g.pluginAuth h⟩
  have hgreeting : Cursor.Reads (parseHandshakePacket out) g.bytes (.ok g.handshake) [] := by
    unfold parseHandshakePacket Greeting.bytes
    exact .bind (reads_getUint8 _ _) <| .bind (.passes (by decide) _ _) <|
      .bind (reads_getString g.version_text _) <| .bind (.mark _ _) <| .bind (hconn _) <|
      .bind (reads_copyBuffer g.scramble_length _ _ _) <| .bind (reads_getUint8 _ _) <|
      .bind (.passes (by decide) _ _) <| .bind (hlower _) <| .bind (.passes hlow _ _) <|
      .bind (reads_getUint8 _ _) <| .bind (hstatus _) <| .bind (hupper _) <|
      .bind (reads_getUint8 _ _) <| .bind (.passes hplugin _ _) <|
      .bind ((accepts_getBuffer 10).complete ⟨g.reserved_length, rfl⟩) <|
      .bind (.passes hsecure _ _) <| .bind (.passes (by decide) _ _) <|
      .bind (reads_copyBuffer g.more_length _ _ _) <| .bind hname <| .bind reads_finish <| .pure _ _
  exact hgreeting.run

/-- The plugin name is read in every run that gets there. -/
theorem parseHandshakePacket_uninitialised (out out' : Handshake) (b : List UInt8) :
    parse (parseHandshakePacket out) b = parse (parseHandshakePacket out') b := by
  refine congrArg Prod.fst (?_ : parseHandshakePacket out (Cursor.ofList b) =
    parseHandshakePacket out' (Cursor.ofList b))
  unfold parseHandshakePacket
  refine Proc.bind_congr fun proto _ _ => Proc.bind_congr fun _ _ _ =>
    Proc.bind_congr fun version _ _ => Proc.bind_congr fun _ _ _ => Proc.bind_congr fun id _ _ =>
    Proc.bind_congr fun scramble _ _ => Proc.bind_congr fun filler _ _ =>
    Proc.bind_congr fun _ _ _ => Proc.bind_congr fun lower _ _ => Proc.bind_congr fun _ _ _ =>
    Proc.bind_congr fun charset _ _ => Proc.bind_congr fun status _ _ =>
    Proc.bind_congr fun upper _ _ => Proc.bind_congr fun length _ _ =>
    Proc.bind_congr fun _ _ hauth => Proc.bind_congr fun reserved _ _ =>
    Proc.bind_congr fun _ _ _ => Proc.bind_congr fun _ _ hlength =>
    Proc.bind_congr fun more c _ => ?_
  have hlong : length ≠ 0 := by
    rintro rfl
    exact Proc.not_of_when_throw hlength (by decide)
  have hplugin : has (lower.toUInt32 ||| upper.toUInt32 <<< 16) Capabilities.pluginAuth := by
    simpa [hlong] using Proc.not_of_when_throw hauth
  refine Proc.bind_congr_left ?_ _
  rw [parseAuthPlugin, parseAuthPlugin, if_pos hplugin, if_pos hplugin]

/-- The handshake parser accepts its grammar and nothing else, and neither its
code nor the record of a greeting depends on what the record held before. -/
theorem parseHandshakePacket_grammar (b : List UInt8) :
    (∀ out out', parse (parseHandshakePacket out) b = parse (parseHandshakePacket out') b) ∧
    (∀ out, (∃ h, parse (parseHandshakePacket out) b = .ok h) ↔ ∃ g : Greeting, b = g.bytes) ∧
    ∀ out (g : Greeting), b = g.bytes → parse (parseHandshakePacket out) b = .ok g.handshake := by
  refine ⟨fun out out' => parseHandshakePacket_uninitialised out out' b, fun out => ?_, ?_⟩
  · constructor
    · rintro ⟨h, hparse⟩
      obtain ⟨g, hb, -⟩ := greeting_of_parse hparse
      exact ⟨g, hb⟩
    · rintro ⟨g, rfl⟩
      exact ⟨_, parse_greeting out g⟩
  · rintro out g rfl
    exact parse_greeting out g

end Trilogy
