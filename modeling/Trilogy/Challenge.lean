import Trilogy.HandshakeResponse

/-! What a server makes of the response to its challenge. It keeps a hash of the
hash of the password. The response masks the hash with something that the
server can work out, and hashing what is behind the mask has to give what it
keeps. -/
namespace Trilogy

open Lib Builder

theorem length_xorBytes {xs ys : List UInt8} (h : xs.length = ys.length) :
    (xorBytes xs ys).length = ys.length := by
  rw [xorBytes, List.length_zipWith, h, Nat.min_self]

theorem xorBytes_comm (xs ys : List UInt8) : xorBytes xs ys = xorBytes ys xs :=
  List.zipWith_comm_of_comm UInt8.xor_comm

theorem xorBytes_cancel {xs ys : List UInt8} (h : xs.length = ys.length) :
    xorBytes (xorBytes xs ys) ys = xs :=
  zipWith_cancel (fun a b => by rw [UInt8.xor_assoc, UInt8.xor_self, UInt8.xor_zero]) h.le

/-- The plugins with a challenge. -/
inductive Method
  | native | cachingSha2
  deriving DecidableEq

namespace Method

def plugin : Method → List UInt8
  | native => nativePassword
  | cachingSha2 => cachingSha2Password

def digestLen : Method → Nat
  | native => 20
  | cachingSha2 => 32

section

variable (digests : Digests)

def hash : Method → List UInt8 → List UInt8
  | native => digests.sha1
  | cachingSha2 => digests.sha256

/-- What a server keeps of a password. -/
def stored (method : Method) (password : List UInt8) : List UInt8 :=
  method.hash digests (method.hash digests password)

/-- The mask for a challenge. The two plugins put the parts in opposite orders. -/
def mask (method : Method) (challenge stored : List UInt8) : List UInt8 :=
  method.hash digests
    (match method with
    | native => challenge ++ stored
    | cachingSha2 => stored ++ challenge)

/-- The check of the server, which does not know the password. -/
def Verifies (method : Method) (challenge stored response : List UInt8) : Prop :=
  method.hash digests (xorBytes response (method.mask digests challenge stored)) = stored

def packScramble : Method → List UInt8 → List UInt8 → List UInt8
  | native => packScrambleNativeHash digests
  | cachingSha2 => packScrambleSha2Hash digests

end

variable {digests : Digests} {method : Method}

theorem length_hash (m : List UInt8) : (method.hash digests m).length = method.digestLen := by
  cases method with
  | native => exact digests.sha1_length m
  | cachingSha2 => exact digests.sha256_length m

theorem length_mask (password challenge stored : List UInt8) :
    (method.hash digests password).length = (method.mask digests challenge stored).length :=
  (length_hash _).trans (length_hash _).symm

/-- Both routines mask the hash of the password. -/
theorem packScramble_eq (scramble password : List UInt8) :
    method.packScramble digests scramble password =
      xorBytes (method.hash digests password)
        (method.mask digests (scramble.take scrambleLen) (method.stored digests password)) := by
  cases method with
  | native => exact xorBytes_comm _ _
  | cachingSha2 => rfl

theorem length_packScramble (scramble password : List UInt8) :
    (method.packScramble digests scramble password).length = method.digestLen := by
  rw [packScramble_eq, length_xorBytes (length_mask _ _ _)]
  exact length_hash _

theorem verifies_packScramble (scramble password : List UInt8) :
    method.Verifies digests (scramble.take scrambleLen) (method.stored digests password)
      (method.packScramble digests scramble password) := by
  rw [Verifies, packScramble_eq, xorBytes_cancel (length_mask _ _ _)]
  rfl

theorem packScramble_congr {scramble scramble' : List UInt8}
    (h : scramble.take scrambleLen = scramble'.take scrambleLen) (password : List UInt8) :
    method.packScramble digests scramble password =
      method.packScramble digests scramble' password := by
  rw [packScramble_eq, packScramble_eq, h]

theorem sameString_other {s t plugin : List UInt8} (h : sameString s plugin)
    (other : sameString t s = false) : sameString t plugin = false := by
  unfold sameString at h other ⊢
  rw [← eq_of_beq h]
  exact other

theorem authResponse_eq {password auth_plugin : List UInt8} (hpw : password ≠ [])
    (h : sameString method.plugin auth_plugin) (scramble : List UInt8) :
    (authResponse digests password auth_plugin scramble).1 =
      method.packScramble digests scramble password := by
  rw [authResponse, if_pos (List.length_pos_of_ne_nil hpw)]
  cases method with
  | native =>
    rw [if_neg (by rw [@sameString_other nativePassword cachingSha2Password _ h (by decide)]; simp)]
    rfl
  | cachingSha2 => exact congrArg Prod.fst (if_pos h)

theorem authSwitchPayload_eq {password auth_plugin : List UInt8} (hpw : password ≠ [])
    (h : sameString method.plugin auth_plugin) (scramble : List UInt8) :
    authSwitchPayload digests password auth_plugin scramble =
      method.packScramble digests scramble password := by
  rw [authSwitchPayload, if_pos (List.length_pos_of_ne_nil hpw)]
  cases method with
  | native =>
    rw [if_neg (by rw [@sameString_other nativePassword clearPassword _ h (by decide)]; simp),
      if_neg (by rw [@sameString_other nativePassword cachingSha2Password _ h (by decide)]; simp)]
    rfl
  | cachingSha2 =>
    rw [if_neg (by rw [@sameString_other cachingSha2Password clearPassword _ h (by decide)]; simp)]
    exact if_pos h

end Method

/-- Both builders emit `r`, whatever the other arguments are. -/
structure Emits (digests : Digests) (auth_plugin scramble password r : List UInt8) : Prop where
  auth : ∀ {alloc user database client_encoding flags s b b'}, Building s [] b →
    buildAuthPacket alloc digests user password database client_encoding auth_plugin scramble
      flags b = (.ok (), b') →
    ∃ tail, b'.buffer.bytes = frames s
      (startBytes (announced flags database) client_encoding ++
        (stringBytes (user.getD (literal "root")) ++ UInt8.ofNat r.length :: (r ++ tail)))
  authSwitch : ∀ {alloc enable s b b'}, Building s [] b →
    buildAuthSwitchResponsePacket alloc digests password auth_plugin scramble enable b =
      (.ok (), b') →
    b'.buffer.bytes = frames s r

theorem emits_packScramble {digests : Digests} {method : Method}
    {auth_plugin password : List UInt8} (hpw : password ≠ [])
    (h : sameString method.plugin auth_plugin) (scramble : List UInt8) :
    Emits digests auth_plugin scramble password (method.packScramble digests scramble password) where
  auth := by
    intro alloc user database client_encoding flags s b b' hb hok
    have hbytes := (finalizes_buildAuthPacket alloc digests user password database client_encoding
      auth_plugin scramble flags hb hok).1
    rw [List.nil_append, authPayload_eq, Method.authResponse_eq hpw h] at hbytes
    exact ⟨_, hbytes⟩
  authSwitch := by
    intro alloc enable s b b' hb hok
    have hbytes := (finalizes_buildAuthSwitchResponsePacket alloc digests password auth_plugin
      scramble enable hb hok).1
    rwa [List.nil_append, Method.authSwitchPayload_eq hpw h] at hbytes

/-- The response to a challenge verifies, and it is what both builders emit for
every scramble that begins with the challenge. -/
theorem challenge_verifies (digests : Digests) (method : Method) {password challenge : List UInt8}
    (hpw : password ≠ []) (hlen : challenge.length = scrambleLen) :
    ∃ r, r.length = method.digestLen ∧
      method.Verifies digests challenge (method.stored digests password) r ∧
      ∀ auth_plugin scramble, sameString method.plugin auth_plugin →
        scramble.take scrambleLen = challenge → Emits digests auth_plugin scramble password r := by
  have htake : challenge.take scrambleLen = challenge := List.take_of_length_le hlen.le
  refine ⟨method.packScramble digests challenge password, method.length_packScramble _ _, ?_, ?_⟩
  · have hverifies : method.Verifies digests (challenge.take scrambleLen)
        (method.stored digests password) (method.packScramble digests challenge password) :=
      method.verifies_packScramble challenge password
    rwa [htake] at hverifies
  · intro auth_plugin scramble hplugin hscramble
    rw [Method.packScramble_congr (htake.trans hscramble.symm)]
    exact emits_packScramble hpw hplugin scramble

/-- A digest as it is usually written. -/
def digestBytes (size value : Nat) : List UInt8 := (leBytes size value).reverse

/-- What a table says of a message, or zeros. -/
def tabulated (size : Nat) (table : List (List UInt8 × Nat)) (m : List UInt8) : List UInt8 :=
  digestBytes size ((table.lookup m).getD 0)

theorem length_tabulated (size : Nat) (table : List (List UInt8 × Nat)) (m : List UInt8) :
    (tabulated size table m).length = size := by
  rw [tabulated, digestBytes, List.length_reverse, length_leBytes]

/-- The SHA-1 digests of the passwords `secret` and `guess`, of these digests, and of the
challenge `aaaaaaaaaaaaaaaaaaaa` with each of those; of `aaaaaaaabbbbbbbbbbbb` with that of
`secret`; and of what a server finds behind the mask of `secret` in the response of `guess`. -/
def sha1Table : List (List UInt8 × Nat) :=
  let secret := 0xe5e9fa1ba31ecd1ae84f75caaa474f3a663f05f4
  let guess := 0x77361fca965b3e53ff81a5d48525ca8adb8a9b87
  let secret₂ := 0x14e65567abdb5135d0cfd9a70b3032c179a49ee7
  let guess₂ := 0x852a9ad01bf1c5a598fd86f8762c2fd11a9b4b14
  [(literal "secret", secret), (literal "guess", guess),
    (digestBytes 20 secret, secret₂), (digestBytes 20 guess, guess₂),
    (List.replicate 20 0x61 ++ digestBytes 20 secret₂, 0xb4c318bf7249e11bf90fd2fc8bd7af441fd40626),
    (List.replicate 20 0x61 ++ digestBytes 20 guess₂, 0xaa279fc6f8688715c530334252862c53ba8db820),
    (List.replicate 8 0x61 ++ List.replicate 12 0x62 ++ digestBytes 20 secret₂,
      0x669ac28b691be080c52d52ecf9379751ca11e7e7),
    (digestBytes 20 0x69d298b31c7a585dc3be446a5c74499d7ed32581,
      0x5ad2e74d505ea756ba816d36b66e839346f5febe)]

/-- The same for SHA-256, with the challenge `cccccccccccccccccccc`. -/
def sha256Table : List (List UInt8 × Nat) :=
  let secret := 0x2bb80d537b1da3e38bd30361aa855686bde0eacd7162fef6a25fe97bf527a25b
  let guess := 0xf1abe1b083d12d181ae136cfc75b8d18a8ecb43ac4e9d1a36d6a9c75b6016b61
  let secret₂ := 0x3881219d087dd9c634373fd33dfa33a2cb6bfc6c520b64b8bb60ef2ceb534ae7
  let guess₂ := 0x83a50fbd90f6fd4edbe458fde34542ad997f3b6d9cbbd4e7f620b779c04caf5c
  [(literal "secret", secret), (literal "guess", guess),
    (digestBytes 32 secret, secret₂), (digestBytes 32 guess, guess₂),
    (digestBytes 32 secret₂ ++ List.replicate 20 0x63,
      0x1809aec505872e28f708cf96601927adfde35180f2d158d604755d3799afd675),
    (digestBytes 32 guess₂ ++ List.replicate 20 0x63,
      0xf591a1c1c4765d2b2c75ae07ee17e9f9fee363909e030ba4a48b0203cef47956),
    (digestBytes 32 0x1c33eeb442205e1bc19c575e4955434cabec862aa83b82d1cd94c341e15ac442,
      0x2e74847d9f8c02b1988c8f837912ecf5a046d7967835c48579cf8963ddd002b0)]

def tableDigests : Digests :=
  ⟨tabulated 20 sha1Table, tabulated 32 sha256Table, length_tabulated 20 _, length_tabulated 32 _⟩

/-- The response of `secret` verifies, and not that of `guess`. -/
theorem challenge_verifies_secret :
    (∃ r, r.length = 20 ∧
      Method.native.Verifies tableDigests (List.replicate 20 0x61)
        (Method.native.stored tableDigests (literal "secret")) r ∧
      ∀ auth_plugin scramble, sameString Method.native.plugin auth_plugin →
        scramble.take scrambleLen = List.replicate 20 0x61 →
        Emits tableDigests auth_plugin scramble (literal "secret") r) ∧
    ¬ Method.native.Verifies tableDigests (List.replicate 20 0x61)
      (Method.native.stored tableDigests (literal "secret"))
      (Method.native.packScramble tableDigests (List.replicate 20 0x61) (literal "guess")) := by
  refine ⟨challenge_verifies tableDigests .native (by decide) (by decide), ?_⟩
  unfold Method.Verifies
  decide +kernel

end Trilogy
