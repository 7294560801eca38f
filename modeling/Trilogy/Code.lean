import Mathlib.Algebra.Group.Nat.Defs

namespace Trilogy

inductive Code
  | ok | err | eof | syserr | unexpectedPacket | truncatedPacket | protocolViolation
  | authPluginTooLong | extraDataInPacket | invalidCharset | again | closedConnection
  | haveResults | nullValue | invalidSequenceId | typeOverflow | opensslErr | unsupported
  | dnsErr | authSwitch | maxPacketExceeded | unknownType | timeout | authPluginError | memError
  deriving DecidableEq, Repr

namespace Code

def all : List Code :=
  [ok, err, eof, syserr, unexpectedPacket, truncatedPacket, protocolViolation,
    authPluginTooLong, extraDataInPacket, invalidCharset, again, closedConnection,
    haveResults, nullValue, invalidSequenceId, typeOverflow, opensslErr, unsupported,
    dnsErr, authSwitch, maxPacketExceeded, unknownType, timeout, authPluginError, memError]

/-- The codes count down from `TRILOGY_OK`, which is 0. -/
def toInt (c : Code) : Int := -(all.idxOf c : Int)

/-- A negative return value read as a code again. -/
def ofInt (i : Int) : Code := all.getD i.natAbs err

theorem ofInt_toInt (c : Code) : ofInt c.toInt = c := by
  cases c <;> rfl

theorem toInt_ne_one (c : Code) : c.toInt ≠ 1 := by
  cases c <;> decide

end Code

def sizeMax : Nat := 2 ^ 64 - 1

def sizeAdd (a b : Nat) : Nat := (a + b) % 2 ^ 64

/-- Below 0 it wraps. -/
def sizeSub (a b : Nat) : Nat := if b ≤ a then a - b else 2 ^ 64 - (b - a)

theorem sizeAdd_of_lt {a b : Nat} (h : a + b < 2 ^ 64) : sizeAdd a b = a + b := by
  rw [sizeAdd, Nat.mod_eq_of_lt h]

theorem sizeSub_of_le {a b : Nat} (h : b ≤ a) : sizeSub a b = a - b := if_pos h

end Trilogy
