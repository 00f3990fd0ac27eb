import Utp.Foundation.Checked

/-!
# Errors, time stamps, and packet kinds

The small types every other module of the protocol uses: the error values of
`error.rs`, the clock arithmetic of `time.rs` and `util.rs`, and the two
enumerations of `packet.rs`.
-/

namespace Utp

open Foundation

/-!
## Errors
-/

inductive ErrorKind where
  | notFound
  | alreadyExists
  | notConnected
  | connectionReset
  | connectionRefused
  | networkUnreachable
  | brokenPipe
  | timedOut
  | invalidInput
  | invalidData
  | other
  deriving DecidableEq, Repr

structure IoError where
  kind : ErrorKind
  text : String
  deriving DecidableEq, Repr

inductive ParseError where
  | invalidExtensionLength
  | invalidPacketLength
  | invalidPacketType (n : UInt8)
  | unsupportedVersion
  deriving DecidableEq, Repr

def ParseError.display : ParseError -> String
  | .invalidExtensionLength => "InvalidExtensionLength"
  | .invalidPacketLength => "InvalidPacketLength"
  | .invalidPacketType n => "InvalidPacketType(" ++ toString n ++ ")"
  | .unsupportedVersion => "UnsupportedVersion"

def ParseError.toIoError (e : ParseError) : IoError :=
  ⟨.other, e.display⟩

inductive SocketError where
  | connectionClosed
  | connectionReset
  | connectionTimedOut
  | invalidAddress
  | invalidReply
  | notConnected
  | other (text : String)
  deriving DecidableEq, Repr

def SocketError.display : SocketError -> String
  | .connectionClosed => "ConnectionClosed"
  | .connectionReset => "ConnectionReset"
  | .connectionTimedOut => "ConnectionTimedOut"
  | .invalidAddress => "InvalidAddress"
  | .invalidReply => "InvalidReply"
  | .notConnected => "NotConnected"
  | .other text => "Other(" ++ text.quote ++ ")"

def SocketError.kind : SocketError -> ErrorKind
  | .connectionClosed | .notConnected => .notConnected
  | .connectionReset => .connectionReset
  | .connectionTimedOut => .timedOut
  | .invalidAddress => .invalidInput
  | .invalidReply => .connectionRefused
  | .other _ => .other

def SocketError.toIoError (e : SocketError) : IoError :=
  ⟨e.kind, e.display⟩

/-!
## Time stamps

A time stamp is a 32-bit microsecond counter.  A delay is the difference of two
of them in 64-bit arithmetic, which never overflows, and is cut back to 32 bits
when it is stored in a packet.
-/

structure Timestamp where
  val : UInt32
  deriving DecidableEq, Repr

/-- `now_microseconds()` at an instant given in microseconds since the epoch:
the whole seconds as a 64-bit product cut to 32 bits, plus the rest. -/
def nowMicroseconds (instant : Nat) : Timestamp :=
  let secs := UInt64.ofNat (instant / 1000000)
  let subsecMicros := UInt32.ofNat (instant % 1000000)
  ⟨(secs * 1000000).toUInt32 + subsecMicros⟩

theorem toNat_nowMicroseconds (instant : Nat) :
    (nowMicroseconds instant).val.toNat = instant % 2 ^ 32 := by
  have hproduct : (UInt64.ofNat (instant / 1000000) * 1000000).toUInt32.toNat =
      instant / 1000000 * 1000000 % 2 ^ 32 := by
    rw [UInt64.toNat_toUInt32, UInt64.toNat_mul, UInt64.toNat_ofNat']
    change (instant / 1000000 % 2 ^ 64) * 1000000 % 2 ^ 64 % 2 ^ 32 = _
    omega
  have hrest : (UInt32.ofNat (instant % 1000000)).toNat = instant % 1000000 :=
    UInt32.toNat_ofNat_of_lt (Nat.lt_trans (Nat.mod_lt _ (by decide)) (by decide))
  rw [nowMicroseconds, UInt32.toNat_add, hproduct, hrest]
  omega

structure Delay where
  val : Int
  deriving DecidableEq, Repr

def Timestamp.sub (a b : Timestamp) : Delay :=
  ⟨(a.val.toNat : Int) - (b.val.toNat : Int)⟩

def Delay.toU32 (d : Delay) : UInt32 := UInt32.ofInt d.val

def absDiff (a b : Timestamp) : Delay :=
  if b.val < a.val then a.sub b else b.sub a

/-!
## Packet and extension types
-/

inductive PacketType where
  | data
  | fin
  | state
  | reset
  | syn
  | ack
  deriving DecidableEq, Repr

def PacketType.tryFrom : UInt8 -> Except ParseError PacketType
  | 0 => .ok .data
  | 1 => .ok .fin
  | 2 => .ok .state
  | 3 => .ok .reset
  | 4 => .ok .syn
  | 5 => .ok .ack
  | n => .error (.invalidPacketType n)

def PacketType.toByte : PacketType -> UInt8
  | .data => 0
  | .fin => 1
  | .state => 2
  | .reset => 3
  | .syn => 4
  | .ack => 5

def PacketType.debug : PacketType -> String
  | .data => "Data"
  | .fin => "Fin"
  | .state => "State"
  | .reset => "Reset"
  | .syn => "Syn"
  | .ack => "Ack"

@[simp] theorem PacketType.tryFrom_toByte (t : PacketType) :
    PacketType.tryFrom t.toByte = .ok t := by
  cases t <;> rfl

inductive ExtensionType where
  | none
  | selectiveAck
  | unknown (n : UInt8)
  deriving DecidableEq, Repr

def ExtensionType.ofByte : UInt8 -> ExtensionType
  | 0 => .none
  | 1 => .selectiveAck
  | n => .unknown n

def ExtensionType.toByte : ExtensionType -> UInt8
  | .none => 0
  | .selectiveAck => 1
  | .unknown n => n

@[simp] theorem ExtensionType.toByte_ofByte (b : UInt8) :
    (ExtensionType.ofByte b).toByte = b := by
  unfold ExtensionType.ofByte
  split <;> rfl

end Utp
