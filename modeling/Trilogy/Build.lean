import Trilogy.Protocol

/-! The building half of `protocol.c`. A C string is its bytes, and `NULL` is
`none`. The two hash functions are parameters: all the code relies on is how
long their digests are. -/
namespace Trilogy

open Lib Builder

/-- `EVP_sha1` and `EVP_sha256` -/
structure Digests where
  sha1 : List UInt8 → List UInt8
  sha256 : List UInt8 → List UInt8
  sha1_length : ∀ m, (sha1 m).length = 20
  sha256_length : ∀ m, (sha256 m).length = 32

namespace Cmd

def quit : UInt8 := 0x01
def changeDb : UInt8 := 0x02
def query : UInt8 := 0x03
def ping : UInt8 := 0x0e
def setOption : UInt8 := 0x1b
def stmtPrepare : UInt8 := 0x16
def stmtExecute : UInt8 := 0x17
def stmtSendLongData : UInt8 := 0x18
def stmtClose : UInt8 := 0x19
def stmtReset : UInt8 := 0x1a

end Cmd

/-- A string literal of the source. -/
def literal (s : String) : List UInt8 := s.toList.map fun c => c.toNat.toUInt8

def nativePassword : List UInt8 := literal "mysql_native_password"

def cachingSha2Password : List UInt8 := literal "caching_sha2_password"

def clearPassword : List UInt8 := literal "mysql_clear_password"

/-- `!strcmp(s, t)` -/
def sameString (s t : List UInt8) : Bool := s.takeWhile (· ≠ 0) == t.takeWhile (· ≠ 0)

def xorBytes (xs ys : List UInt8) : List UInt8 := List.zipWith (· ^^^ ·) xs ys

def packScrambleNativeHash (digests : Digests) (scramble password : List UInt8) : List UInt8 :=
  let hash_tmp1 := digests.sha1 password
  let hash_tmp2 := digests.sha1 hash_tmp1
  xorBytes (digests.sha1 (scramble.take scrambleLen ++ hash_tmp2)) hash_tmp1

def packScrambleSha2Hash (digests : Digests) (scramble password : List UInt8) : List UInt8 :=
  let hash_tmp1 := digests.sha256 password
  let hash_tmp2 := digests.sha256 hash_tmp1
  xorBytes hash_tmp1 (digests.sha256 (hash_tmp2 ++ scramble.take scrambleLen))

/-- The scrambled password and the plugin it is for, whatever plugin the server
asked for. -/
def authResponse (digests : Digests) (pass auth_plugin scramble : List UInt8) :
    List UInt8 × List UInt8 :=
  if pass.length > 0 then
    if sameString cachingSha2Password auth_plugin then
      (packScrambleSha2Hash digests scramble pass, auth_plugin)
    else (packScrambleNativeHash digests scramble pass, nativePassword)
  else ([], auth_plugin)

section

variable (alloc : Alloc) (digests : Digests)

def buildAuthPacket (user : Option (List UInt8)) (pass : List UInt8)
    (database : Option (List UInt8)) (client_encoding : UInt8) (auth_plugin scramble : List UInt8)
    (flags : UInt32) : Proc Code Builder Unit := do
  let capabilities := flags ||| Capabilities.client
  let capabilities :=
    if database.isSome then capabilities ||| Capabilities.connectWithDb else capabilities
  writeUint32 alloc capabilities
  writeUint32 alloc (UInt32.ofNat maxPacketLen)
  writeUint8 alloc client_encoding
  writeBuffer alloc (List.replicate 23 0)
  writeString alloc (user.getD (literal "root"))
  let (auth_response, auth_plugin) := authResponse digests pass auth_plugin scramble
  writeUint8 alloc (UInt8.ofNat auth_response.length)
  Proc.when (auth_response.length > 0) (writeBuffer alloc auth_response)
  Proc.when database.isSome (writeString alloc (database.getD []))
  Proc.when (has capabilities Capabilities.pluginAuth) (writeString alloc auth_plugin)
  modify finalize

def buildAuthClearPassword (pass : List UInt8) : Proc Code Builder Unit := do
  writeBuffer alloc pass
  writeUint8 alloc 0
  modify finalize

def buildAuthSwitchResponsePacket (pass auth_plugin scramble : List UInt8)
    (enable_cleartext_plugin : Bool) : Proc Code Builder Unit := do
  Proc.when (pass.length > 0)
    (if sameString clearPassword auth_plugin then
      if enable_cleartext_plugin then writeBuffer alloc pass else throw .authPluginError
    else if sameString cachingSha2Password auth_plugin then
      writeBuffer alloc (packScrambleSha2Hash digests scramble pass)
    else if sameString nativePassword auth_plugin then
      writeBuffer alloc (packScrambleNativeHash digests scramble pass)
    else throw .authPluginError)
  modify finalize

def buildSslRequestPacket (flags : UInt32) (client_encoding : UInt8) : Proc Code Builder Unit := do
  writeUint32 alloc (flags ||| Capabilities.client ||| Capabilities.ssl)
  writeUint32 alloc (UInt32.ofNat maxPacketLen)
  writeUint8 alloc client_encoding
  writeBuffer alloc (List.replicate 23 0)
  modify finalize

def buildPingPacket : Proc Code Builder Unit := do
  writeUint8 alloc Cmd.ping
  modify finalize

def buildQueryPacket (sql : List UInt8) : Proc Code Builder Unit := do
  writeUint8 alloc Cmd.query
  writeBuffer alloc sql
  modify finalize

def buildChangeDbPacket (name : List UInt8) : Proc Code Builder Unit := do
  writeUint8 alloc Cmd.changeDb
  writeBuffer alloc name
  modify finalize

def buildQuitPacket : Proc Code Builder Unit := do
  writeUint8 alloc Cmd.quit
  modify finalize

def buildSetOptionPacket (option : UInt16) : Proc Code Builder Unit := do
  writeUint8 alloc Cmd.setOption
  writeUint16 alloc option
  modify finalize

def buildStmtPreparePacket (sql : List UInt8) : Proc Code Builder Unit := do
  writeUint8 alloc Cmd.stmtPrepare
  writeBuffer alloc sql
  modify finalize

/-- The loop over the null bitmap, from bind `i` on; it returns the bits of the
byte it has not written. -/
def writeNullBitmap : Nat → UInt8 → List BinaryValue → Proc Code Builder UInt8
  | _, current_bits, [] => pure current_bits
  | i, current_bits, bind :: binds => do
    let current_bits :=
      if bind.is_null then current_bits ||| (1 <<< UInt8.ofNat (i % 8)) else current_bits
    if i % 8 = 7 then do
      writeUint8 alloc current_bits
      writeNullBitmap (i + 1) 0 binds
    else writeNullBitmap (i + 1) current_bits binds

def writeTypes : List BinaryValue → Proc Code Builder Unit
  | [] => pure ()
  | bind :: binds => do
    writeUint8 alloc bind.type
    (if bind.is_unsigned then writeUint8 alloc 0x80 else writeUint8 alloc 0x00)
    writeTypes binds

def writeTime (time : TimeValue) : Proc Code Builder Unit := do
  let field_len :=
    if time.micro_seconds ≠ 0 then 12
    else if time.hour ≠ 0 ∨ time.minute ≠ 0 ∨ time.second ≠ 0 then 8
    else 0
  writeUint8 alloc (UInt8.ofNat field_len)
  Proc.when (field_len > 0) do
    writeUint8 alloc time.is_negative.toUInt8
    writeUint32 alloc time.days
    writeUint8 alloc time.hour
    writeUint8 alloc time.minute
    writeUint8 alloc time.second
    Proc.when (field_len > 8) (writeUint32 alloc time.micro_seconds)

def writeDate (date : DateValue) : Proc Code Builder Unit := do
  let field_len :=
    if date.micro_seconds ≠ 0 then 11
    else if date.hour ≠ 0 ∨ date.minute ≠ 0 ∨ date.second ≠ 0 then 7
    else if date.year ≠ 0 ∨ date.month ≠ 0 ∨ date.day ≠ 0 then 4
    else 0
  writeUint8 alloc (UInt8.ofNat field_len)
  Proc.when (field_len > 0) do
    writeUint16 alloc date.year
    writeUint8 alloc date.month
    writeUint8 alloc date.day
    Proc.when (field_len > 4) do
      writeUint8 alloc date.hour
      writeUint8 alloc date.minute
      writeUint8 alloc date.second
      Proc.when (field_len > 7) (writeUint32 alloc date.micro_seconds)

/-- The `switch` of the value loop. It does not look at `is_null`. -/
def writeValue (val : BinaryValue) : Proc Code Builder Unit :=
  match TypeT.ofCode val.type with
  | some .tiny => writeUint8 alloc val.uint8
  | some .short => writeUint16 alloc val.uint16
  | some .int24 | some .long => writeUint32 alloc val.uint32
  | some .longlong => writeUint64 alloc val.uint64
  | some .float => writeFloat alloc val.flt
  | some .double => writeDouble alloc val.dbl
  | some .year => writeUint16 alloc val.year
  | some .time => writeTime alloc val.time
  | some .date | some .datetime | some .timestamp => writeDate alloc val.date
  | some .decimal | some .varchar | some .bit | some .newdecimal | some .enum | some .set
  | some .tinyBlob | some .blob | some .mediumBlob | some .longBlob | some .varString
  | some .string | some .geometry | some .json | some .vector => writeLenencBuffer alloc val.str
  | some .null => pure ()
  | none => throw .unknownType

def writeValues : List BinaryValue → Proc Code Builder Unit
  | [] => pure ()
  | bind :: binds => do
    writeValue alloc bind
    writeValues binds

/-- `binds` has an element for each of the `num_binds`, or is `NULL`. -/
def buildStmtExecutePacket (stmt_id : UInt32) (flags : UInt8) (binds : Option (List BinaryValue))
    (num_binds : UInt16) : Proc Code Builder Unit := do
  writeUint8 alloc Cmd.stmtExecute
  writeUint32 alloc stmt_id
  writeUint8 alloc flags
  writeUint32 alloc 1
  Proc.when (num_binds > 0)
    (match binds with
    | none => throw .protocolViolation
    | some binds => do
      let binds := binds.take num_binds.toNat
      let current_bits ← writeNullBitmap alloc 0 0 binds
      Proc.when (num_binds.toNat % 8 ≠ 0) (writeUint8 alloc current_bits)
      writeUint8 alloc 0x1
      writeTypes alloc binds
      writeValues alloc binds)
  modify finalize

def buildStmtBindDataPacket (stmt_id : UInt32) (param_id : UInt16) (data : List UInt8) :
    Proc Code Builder Unit := do
  writeUint8 alloc Cmd.stmtSendLongData
  writeUint32 alloc stmt_id
  writeUint16 alloc param_id
  writeBuffer alloc data
  modify finalize

def buildStmtResetPacket (stmt_id : UInt32) : Proc Code Builder Unit := do
  writeUint8 alloc Cmd.stmtReset
  writeUint32 alloc stmt_id
  modify finalize

def buildStmtClosePacket (stmt_id : UInt32) : Proc Code Builder Unit := do
  writeUint8 alloc Cmd.stmtClose
  writeUint32 alloc stmt_id
  modify finalize

end

end Trilogy
