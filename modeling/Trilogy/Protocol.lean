import Trilogy.Reader

/-! The parsing half of `protocol.c`. A `char *` with its length is a list, and a
fixed array of characters is what it holds. The members of the union in
`trilogy_binary_value_t` stand side by side: the `type` tells which one a
function reads or writes. -/
namespace Trilogy

open Lib

namespace Capabilities

def protocol41 : UInt32 := 0x00000200
def ssl : UInt32 := 0x00000800
def transactions : UInt32 := 0x00002000
def secureConnection : UInt32 := 0x00008000
def connectWithDb : UInt32 := 0x00000008
def pluginAuth : UInt32 := 0x00080000
def sessionTrack : UInt32 := 0x00800000
def deprecateEof : UInt32 := 0x01000000

/-- `TRILOGY_CAPABILITIES_CLIENT` -/
def client : UInt32 :=
  protocol41 ||| secureConnection ||| deprecateEof ||| sessionTrack ||| pluginAuth ||| transactions

end Capabilities

/-- `capabilities & flag`, as a condition. -/
def has (capabilities flag : UInt32) : Bool := capabilities &&& flag != 0

/-- `TRILOGY_SERVER_STATUS_SESSION_STATE_CHANGED` -/
def sessionStateChanged : UInt16 := 0x4000

/-- `TRILOGY_COLUMN_FLAG_UNSIGNED` -/
def columnFlagUnsigned : UInt16 := 0x20

/-- `TRILOGY_MAX_LAST_GTID_LEN` -/
def maxLastGtidLen : Nat := 57

/-- `TRILOGY_SESSION_TRACK_GTIDS` -/
def sessionTrackGtids : UInt8 := 0x03

/-- `SCRAMBLE_LEN` -/
def scrambleLen : Nat := 20

inductive TypeT
  | decimal | tiny | short | long | float | double | null | timestamp | longlong | int24 | date
  | time | datetime | year | varchar | bit | vector | json | newdecimal | enum | set | tinyBlob
  | mediumBlob | longBlob | blob | varString | string | geometry
  deriving DecidableEq, Repr, Inhabited

namespace TypeT

def all : List TypeT :=
  [decimal, tiny, short, long, float, double, null, timestamp, longlong, int24, date, time,
    datetime, year, varchar, bit, vector, json, newdecimal, enum, set, tinyBlob, mediumBlob,
    longBlob, blob, varString, string, geometry]

def code : TypeT → UInt8
  | decimal => 0x00
  | tiny => 0x01
  | short => 0x02
  | long => 0x03
  | float => 0x04
  | double => 0x05
  | null => 0x06
  | timestamp => 0x07
  | longlong => 0x08
  | int24 => 0x09
  | date => 0x0a
  | time => 0x0b
  | datetime => 0x0c
  | year => 0x0d
  | varchar => 0x0f
  | bit => 0x10
  | vector => 0xf2
  | json => 0xf5
  | newdecimal => 0xf6
  | enum => 0xf7
  | set => 0xf8
  | tinyBlob => 0xf9
  | mediumBlob => 0xfa
  | longBlob => 0xfb
  | blob => 0xfc
  | varString => 0xfd
  | string => 0xfe
  | geometry => 0xff

/-- The type a byte stands for; the wire can hold others. -/
def ofCode (b : UInt8) : Option TypeT := all.find? (·.code == b)

theorem ofCode_code (t : TypeT) : ofCode t.code = some t := by
  cases t <;> rfl

theorem code_of_ofCode {b : UInt8} {t : TypeT} (h : ofCode b = some t) : t.code = b := by
  simpa using List.find?_some h

end TypeT

structure OkPacket where
  affected_rows : UInt64
  last_insert_id : UInt64
  status_flags : UInt16
  warning_count : UInt16
  txn_status_flags : UInt16
  session_status : List UInt8
  session_state_changes : List UInt8
  info : List UInt8
  last_gtid : List UInt8
  deriving DecidableEq, Repr, Inhabited

structure EofPacket where
  warning_count : UInt16
  status_flags : UInt16
  deriving DecidableEq, Repr, Inhabited

structure ErrPacket where
  error_code : UInt16
  sql_state_marker : List UInt8
  sql_state : List UInt8
  error_message : List UInt8
  deriving DecidableEq, Repr, Inhabited

structure AuthSwitchRequestPacket where
  auth_plugin : List UInt8
  scramble : List UInt8
  deriving DecidableEq, Repr, Inhabited

structure Handshake where
  proto_version : UInt8
  server_version : List UInt8
  conn_id : UInt32
  scramble : List UInt8
  capabilities : UInt32
  server_charset : UInt8
  server_status : UInt16
  auth_plugin : List UInt8
  deriving DecidableEq, Repr, Inhabited

structure ResultPacket where
  column_count : UInt64
  deriving DecidableEq, Repr, Inhabited

/-- A text value; `none` is `is_null`. -/
abbrev Value := Option (List UInt8)

/-- `trilogy_column_packet_t`, with the byte of the wire as its `type`. -/
structure Column where
  catalog : List UInt8
  schema : List UInt8
  table : List UInt8
  original_table : List UInt8
  name : List UInt8
  original_name : List UInt8
  charset : UInt16
  len : UInt32
  type : UInt8
  flags : UInt16
  decimals : UInt8
  default_value : List UInt8
  deriving DecidableEq, Repr, Inhabited

structure StmtOkPacket where
  id : UInt32
  column_count : UInt16
  parameter_count : UInt16
  warning_count : UInt16
  deriving DecidableEq, Repr, Inhabited

structure DateValue where
  year : UInt16
  month : UInt8
  day : UInt8
  hour : UInt8
  minute : UInt8
  second : UInt8
  micro_seconds : UInt32
  deriving DecidableEq, Repr, Inhabited

structure TimeValue where
  is_negative : Bool
  days : UInt32
  hour : UInt8
  minute : UInt8
  second : UInt8
  micro_seconds : UInt32
  deriving DecidableEq, Repr, Inhabited

structure BinaryValue where
  is_null : Bool
  is_unsigned : Bool
  type : UInt8
  dbl : UInt64
  uint64 : UInt64
  flt : UInt32
  uint32 : UInt32
  uint16 : UInt16
  uint8 : UInt8
  str : List UInt8
  year : UInt16
  date : DateValue
  time : TimeValue
  deriving DecidableEq, Repr, Inhabited

open Reader

/-- The `while` loop over the session-state changes. Every turn reads a type
and a length, so the bytes there are bound the turns. -/
def sessionStateChanges : Nat → List UInt8 → Proc Code Reader (List UInt8)
  | 0, last_gtid => pure last_gtid
  | turns + 1, last_gtid => do
    let done ← eof
    if done then pure last_gtid
    else do
      let type ← getUint8
      let state_info ← getLenencBuffer
      if type = sessionTrackGtids then do
        -- the tag of the entry comes once more in front of the id
        let last_gtid ← Cursor.nested (do let _ ← getUint8; getLenencBuffer) state_info
        if last_gtid.length > maxLastGtidLen then throw .protocolViolation
        else sessionStateChanges turns last_gtid
      else sessionStateChanges turns last_gtid

/-- The status flags and the warnings, as the capabilities have them. -/
def parseOkStatus (capabilities : UInt32) (packet : OkPacket) : Proc Code Reader OkPacket :=
  if has capabilities Capabilities.protocol41 then do
    let status_flags ← getUint16
    let warning_count ← getUint16
    pure { packet with status_flags, warning_count }
  else if has capabilities Capabilities.transactions then do
    let txn_status_flags ← getUint16
    pure { packet with txn_status_flags }
  else pure packet

/-- The rest of the packet: session tracking, or the info string. -/
def parseOkInfo (capabilities : UInt32) (packet : OkPacket) : Proc Code Reader OkPacket := do
  let done ← eof
  if has capabilities Capabilities.sessionTrack && !done then do
    let session_status ← getLenencBuffer
    if packet.status_flags &&& sessionStateChanged != 0 then do
      let session_state_changes ← getLenencBuffer
      let last_gtid ← Cursor.nested (sessionStateChanges session_state_changes.length [])
        session_state_changes
      pure { packet with session_status, session_state_changes, last_gtid }
    else pure { packet with session_status }
  else do
    let info ← getEofBuffer
    pure { packet with info }

def parseOkPacket (capabilities : UInt32) : Proc Code Reader OkPacket := do
  let _ ← getUint8
  let affected_rows ← getLenenc
  let last_insert_id ← getLenenc
  let packet : OkPacket :=
    { affected_rows
      last_insert_id
      status_flags := 0
      warning_count := 0
      txn_status_flags := 0
      session_status := []
      session_state_changes := []
      info := []
      last_gtid := [] }
  let packet ← parseOkStatus capabilities packet
  let packet ← parseOkInfo capabilities packet
  finish
  pure packet

def parseEofPacket (capabilities : UInt32) : Proc Code Reader EofPacket := do
  let _ ← getUint8
  if has capabilities Capabilities.protocol41 then do
    let warning_count ← getUint16
    let status_flags ← getUint16
    finish
    pure { warning_count, status_flags }
  else do
    finish
    pure { warning_count := 0, status_flags := 0 }

def parseErrPacket (capabilities : UInt32) : Proc Code Reader ErrPacket := do
  let _ ← getUint8
  let error_code ← getUint16
  if has capabilities Capabilities.protocol41 then do
    let marker ← getUint8
    Cursor.mark fun _ => (0, 1)
    let sql_state ← copyBuffer 5 0 5
    let error_message ← getEofBuffer
    finish
    pure { error_code, sql_state_marker := [marker], sql_state, error_message }
  else do
    let error_message ← getEofBuffer
    finish
    pure { error_code, sql_state_marker := [0], sql_state := [0, 0, 0, 0, 0], error_message }

/-- `out` is what the record held before; a short `auth_data` leaves the end of
its scramble. -/
def parseAuthSwitchRequestPacket (capabilities : UInt32) (out : AuthSwitchRequestPacket) :
    Proc Code Reader AuthSwitchRequestPacket := do
  let _ ← getUint8
  if has capabilities Capabilities.pluginAuth then do
    let auth_plugin ← getString
    if auth_plugin.length > 31 then throw .authPluginTooLong
    else do
      copyString auth_plugin 32
      let auth_data ← getEofBuffer
      let auth_data := auth_data.take 21
      Cursor.mark fun _ => (auth_data.length, 21 + 1)
      finish
      pure { auth_plugin, scramble := auth_data ++ out.scramble.drop auth_data.length }
  else throw .protocolViolation

/-- The last field of a handshake; `auth_plugin` stays where there is none. -/
def parseAuthPlugin (capabilities : UInt32) (auth_plugin : List UInt8) :
    Proc Code Reader (List UInt8) :=
  if has capabilities Capabilities.pluginAuth then do
    let auth_plugin ← getString
    if auth_plugin.length > 31 then throw .authPluginTooLong
    else do
      copyString auth_plugin 32
      pure auth_plugin
  else pure auth_plugin

/-- `out` is what the record held before. -/
def parseHandshakePacket (out : Handshake) : Proc Code Reader Handshake := do
  let proto_version ← getUint8
  Proc.when (proto_version ≠ 0xa) (throw .protocolViolation)
  let server_version ← getString
  let server_version := server_version.take 31
  Cursor.mark fun _ => (server_version.length, 32)
  let conn_id ← getUint32
  let scramble ← copyBuffer 8 0 21
  let filler ← getUint8
  Proc.when (filler ≠ 0) (throw .protocolViolation)
  let lower ← getUint16
  Proc.when (!has lower.toUInt32 Capabilities.protocol41) (throw .protocolViolation)
  let server_charset ← getUint8
  let server_status ← getUint16
  let upper ← getUint16
  let capabilities := lower.toUInt32 ||| upper.toUInt32 <<< 16
  let auth_data_len ← getUint8
  Proc.when (!has capabilities Capabilities.pluginAuth ∧ auth_data_len ≠ 0)
    (throw .protocolViolation)
  let _ ← getBuffer 10
  Proc.when (¬ (has capabilities Capabilities.secureConnection ∧ 8 < auth_data_len))
    (throw .protocolViolation)
  Proc.when (scrambleLen + 1 ≠ auth_data_len.toNat) (throw .protocolViolation)
  let more ← copyBuffer (auth_data_len.toNat - 8) 8 21
  let scramble := scramble ++ more
  let auth_plugin ← parseAuthPlugin capabilities out.auth_plugin
  finish
  pure { proto_version, server_version, conn_id, scramble, capabilities, server_charset,
         server_status, auth_plugin }

def parseResultPacket : Proc Code Reader ResultPacket := do
  let column_count ← getLenenc
  finish
  pure { column_count }

def parseValues : Nat → Proc Code Reader (List Value)
  | 0 => pure []
  | columns + 1 => do
    let rc ← Proc.attempt getLenencBuffer
    match rc with
    | .ok data => do
      let values ← parseValues columns
      pure (some data :: values)
    | .error .nullValue => do
      let values ← parseValues columns
      pure (none :: values)
    | .error rc => throw rc

def parseRowPacket (column_count : UInt64) : Proc Code Reader (List Value) := do
  let values ← parseValues column_count.toNat
  finish
  pure values

def parseColumnPacket (field_list : Bool) : Proc Code Reader Column := do
  let catalog ← getLenencBuffer
  let schema ← getLenencBuffer
  let table ← getLenencBuffer
  let original_table ← getLenencBuffer
  let name ← getLenencBuffer
  let original_name ← getLenencBuffer
  let _ ← getLenenc
  let charset ← getUint16
  let len ← getUint32
  let type ← getUint8
  let flags ← getUint16
  let decimals ← getUint8
  let _ ← getUint16
  let default_value ← (if field_list then getLenencBuffer else pure [])
  finish
  pure { catalog, schema, table, original_table, name, original_name, charset, len, type, flags,
         decimals, default_value }

def parseStmtOkPacket : Proc Code Reader StmtOkPacket := do
  let _ ← getUint8
  let id ← getUint32
  let column_count ← getUint16
  let parameter_count ← getUint16
  let filler ← getUint8
  Proc.when (filler ≠ 0) (throw .protocolViolation)
  let warning_count ← getUint16
  finish
  pure { id, column_count, parameter_count, warning_count }

/-- The static `is_null`. -/
def isNull (null_bitmap : List UInt8) (bitmap_len column_offset : Nat) : Proc Code Reader Bool :=
  if column_offset > bitmap_len * 8 - 1 then throw .protocolViolation
  else do
    let column_offset := column_offset + 2
    let byte_offset := column_offset / 8
    Cursor.mark fun _ => (byte_offset, null_bitmap.length)
    pure (null_bitmap.getD byte_offset 0 &&& (1 <<< UInt8.ofNat (column_offset % 8)) != 0)

def parseDate : Proc Code Reader DateValue := do
  let time_len ← getUint8
  let zero : DateValue := ⟨0, 0, 0, 0, 0, 0, 0⟩
  if time_len = 0 then pure zero
  else if time_len = 4 then do
    let year ← getUint16
    let month ← getUint8
    let day ← getUint8
    pure { zero with year, month, day }
  else if time_len = 7 then do
    let year ← getUint16
    let month ← getUint8
    let day ← getUint8
    let hour ← getUint8
    let minute ← getUint8
    let second ← getUint8
    pure { zero with year, month, day, hour, minute, second }
  else if time_len = 11 then do
    let year ← getUint16
    let month ← getUint8
    let day ← getUint8
    let hour ← getUint8
    let minute ← getUint8
    let second ← getUint8
    let micro_seconds ← getUint32
    pure { year, month, day, hour, minute, second, micro_seconds }
  else throw .protocolViolation

def parseTime : Proc Code Reader TimeValue := do
  let time_len ← getUint8
  let zero : TimeValue := ⟨false, 0, 0, 0, 0, 0⟩
  if time_len = 0 then pure zero
  else if time_len = 8 then do
    let is_negative ← getUint8
    let days ← getUint32
    let hour ← getUint8
    let minute ← getUint8
    let second ← getUint8
    pure { zero with is_negative := is_negative == 1, days, hour, minute, second }
  else if time_len = 12 then do
    let is_negative ← getUint8
    let days ← getUint32
    let hour ← getUint8
    let minute ← getUint8
    let second ← getUint8
    let micro_seconds ← getUint32
    pure { is_negative := is_negative == 1, days, hour, minute, second, micro_seconds }
  else throw .protocolViolation

/-- The `switch` of the row loop: the member of `out` that the type stands for. -/
def parseMember (type : UInt8) (out : BinaryValue) : Proc Code Reader BinaryValue :=
  match TypeT.ofCode type with
  | some .string | some .varchar | some .varString | some .enum | some .set | some .longBlob
  | some .mediumBlob | some .blob | some .tinyBlob | some .geometry | some .bit | some .decimal
  | some .newdecimal | some .json | some .vector => do
    let str ← getLenencBuffer
    pure { out with str }
  | some .longlong => do
    let uint64 ← getUint64
    pure { out with uint64 }
  | some .double => do
    let dbl ← getDouble
    pure { out with dbl }
  | some .long | some .int24 => do
    let uint32 ← getUint32
    pure { out with uint32 }
  | some .float => do
    let flt ← getFloat
    pure { out with flt }
  | some .short => do
    let uint16 ← getUint16
    pure { out with uint16 }
  | some .year => do
    let year ← getUint16
    pure { out with year }
  | some .tiny => do
    let uint8 ← getUint8
    pure { out with uint8 }
  | some .date | some .datetime | some .timestamp => do
    let date ← parseDate
    pure { out with date }
  | some .time => do
    let time ← parseTime
    pure { out with time }
  | some .null | none => throw .unknownType

/-- One turn of the row loop, for column `i`. -/
def parseBinaryValue (null_bitmap : List UInt8) (bitmap_len i : Nat) (column : Column)
    (out : BinaryValue) : Proc Code Reader BinaryValue := do
  let is_null ← isNull null_bitmap bitmap_len i
  if is_null then pure { out with is_null := true, type := TypeT.null.code }
  else
    parseMember column.type
      { out with
        is_null := false
        type := column.type
        is_unsigned := column.flags &&& columnFlagUnsigned != 0 || out.is_unsigned }

def parseBinaryValues (null_bitmap : List UInt8) (bitmap_len : Nat) :
    Nat → List (Column × BinaryValue) → Proc Code Reader (List BinaryValue)
  | _, [] => pure []
  | i, (column, out) :: rest => do
    let value ← parseBinaryValue null_bitmap bitmap_len i column out
    let values ← parseBinaryValues null_bitmap bitmap_len (i + 1) rest
    pure (value :: values)

/-- `out_values` is what the caller's array held before. It and `columns` have
an element for each column. -/
def parseStmtRowPacket (columns : List Column) (column_count : UInt64)
    (out_values : List BinaryValue) : Proc Code Reader (List BinaryValue) := do
  let _ ← getUint8
  let bitmap_len := ((column_count + 7 + 2) / 8).toNat
  let null_bitmap ← getBuffer bitmap_len
  let values ← parseBinaryValues null_bitmap bitmap_len 0
    ((columns.zip out_values).take column_count.toNat)
  finish
  pure values

theorem raises_sessionStateChanges (turns : Nat) (last_gtid : List UInt8) :
    Cursor.Raises Malformed (sessionStateChanges turns last_gtid) := by
  induction turns generalizing last_gtid with
  | zero => exact .pure _
  | succ turns ih =>
    exact .bind raises_eof fun _ => .ite (.pure _) <| .bind raises_getUint8 fun _ =>
      .bind raises_getLenencBuffer fun _ => .ite
        (.bind (.nested (.bind raises_getUint8 fun _ => raises_getLenencBuffer) _) fun _ =>
          .ite (.throw (by decide)) (ih _))
        (ih last_gtid)

theorem raises_parseOkStatus (capabilities : UInt32) (packet : OkPacket) :
    Cursor.Raises Malformed (parseOkStatus capabilities packet) :=
  .ite (.bind raises_getUint16 fun _ => .bind raises_getUint16 fun _ => .pure _) <|
    .ite (.bind raises_getUint16 fun _ => .pure _) (.pure _)

theorem raises_parseOkInfo (capabilities : UInt32) (packet : OkPacket) :
    Cursor.Raises Malformed (parseOkInfo capabilities packet) :=
  .bind raises_eof fun _ => .ite (.bind raises_getLenencBuffer fun _ =>
    .ite (.bind raises_getLenencBuffer fun _ =>
      .bind (.nested (raises_sessionStateChanges _ _) _) fun _ => .pure _) (.pure _))
    (.bind raises_getEofBuffer fun _ => .pure _)

theorem raises_parseOkPacket (capabilities : UInt32) :
    Cursor.Raises Malformed (parseOkPacket capabilities) :=
  .bind raises_getUint8 fun _ => .bind raises_getLenenc fun _ => .bind raises_getLenenc fun _ =>
    .bind (raises_parseOkStatus _ _) fun _ => .bind (raises_parseOkInfo _ _) fun _ =>
    .bind raises_finish fun _ => .pure _

theorem raises_parseEofPacket (capabilities : UInt32) :
    Cursor.Raises Malformed (parseEofPacket capabilities) :=
  .bind raises_getUint8 fun _ => .ite (.bind raises_getUint16 fun _ => .bind raises_getUint16
    fun _ => .bind raises_finish fun _ => .pure _) (.bind raises_finish fun _ => .pure _)

theorem raises_parseErrPacket (capabilities : UInt32) :
    Cursor.Raises Malformed (parseErrPacket capabilities) :=
  .bind raises_getUint8 fun _ => .bind raises_getUint16 fun _ => .ite
    (.bind raises_getUint8 fun _ => .bind (.mark _) fun _ => .bind (raises_copyBuffer 5 0 5) fun _ =>
      .bind raises_getEofBuffer fun _ => .bind raises_finish fun _ => .pure _)
    (.bind raises_getEofBuffer fun _ => .bind raises_finish fun _ => .pure _)

theorem raises_parseAuthSwitchRequestPacket (capabilities : UInt32)
    (out : AuthSwitchRequestPacket) :
    Cursor.Raises Malformed (parseAuthSwitchRequestPacket capabilities out) :=
  .bind raises_getUint8 fun _ => .ite (.bind raises_getString fun _ => .ite (.throw (by decide))
    (.bind (raises_copyString _ _) fun _ => .bind raises_getEofBuffer fun _ =>
      .bind (.mark _) fun _ => .bind raises_finish fun _ => .pure _)) (.throw (by decide))

theorem raises_parseValues (columns : Nat) : Cursor.Raises Malformed (parseValues columns) := by
  induction columns with
  | zero => exact .pure _
  | succ columns ih =>
    intro c e c' h
    rw [parseValues, Proc.attempt_bind] at h
    rcases hdata : getLenencBuffer c with ⟨rc | data, c₁⟩
    · rw [hdata] at h
      have hrc := raises_getLenencBuffer hdata
      have hrest : Cursor.Raises Malformed (do
          let values ← parseValues columns
          pure (none :: values)) := .bind ih fun _ => .pure _
      cases rc with
      | nullValue => exact hrest h
      | _ => cases h; exact hrc
    · rw [hdata] at h
      exact (Cursor.Raises.bind ih fun _ => .pure _) h

theorem raises_parseRowPacket (column_count : UInt64) :
    Cursor.Raises Malformed (parseRowPacket column_count) :=
  .bind (raises_parseValues _) fun _ => .bind raises_finish fun _ => .pure _

theorem raises_parseDate : Cursor.Raises Malformed parseDate :=
  .bind raises_getUint8 fun _ => .ite (.pure _) <|
    .ite (.bind raises_getUint16 fun _ => .bind raises_getUint8 fun _ => .bind raises_getUint8
      fun _ => .pure _) <|
    .ite (.bind raises_getUint16 fun _ => .bind raises_getUint8 fun _ => .bind raises_getUint8
      fun _ => .bind raises_getUint8 fun _ => .bind raises_getUint8 fun _ => .bind raises_getUint8
      fun _ => .pure _) <|
    .ite (.bind raises_getUint16 fun _ => .bind raises_getUint8 fun _ => .bind raises_getUint8
      fun _ => .bind raises_getUint8 fun _ => .bind raises_getUint8 fun _ => .bind raises_getUint8
      fun _ => .bind raises_getUint32 fun _ => .pure _) (.throw (by decide))

theorem raises_parseTime : Cursor.Raises Malformed parseTime :=
  .bind raises_getUint8 fun _ => .ite (.pure _) <|
    .ite (.bind raises_getUint8 fun _ => .bind raises_getUint32 fun _ => .bind raises_getUint8
      fun _ => .bind raises_getUint8 fun _ => .bind raises_getUint8 fun _ => .pure _) <|
    .ite (.bind raises_getUint8 fun _ => .bind raises_getUint32 fun _ => .bind raises_getUint8
      fun _ => .bind raises_getUint8 fun _ => .bind raises_getUint8 fun _ =>
      .bind raises_getUint32 fun _ => .pure _) (.throw (by decide))

end Trilogy
