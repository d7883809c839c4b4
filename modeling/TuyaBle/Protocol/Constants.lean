/-!
# Wire-level constants

The numbers of the GATT protocol, the command codes and the datapoint encodings.
-/

namespace TuyaBle

def gattMtu : Nat := 20

def securityFlagAuthenticationKey : Nat := 0x01
def securityFlagLoginKey : Nat := 0x04
def securityFlagSessionKey : Nat := 0x05

def frameHeaderLength : Nat := 12
def crcLength : Nat := 2
def pairingRequestLength : Nat := 44
def deviceInfoResponseLength : Nat := 46

def defaultProtocolVersion : Nat := 3

def blockSize : Nat := 16

/-- Codes below `0x8000` are sent by the client, the rest by the device. -/
inductive TuyaBleCommandCode where
  | senderDeviceInfo
  | senderPair
  | senderDataPoints
  | senderDeviceStatus
  | senderUnbind
  | senderDeviceReset
  | receiveDataPoint
  | receiveTimeDataPoint
  | receiveSignedDataPoint
  | receiveSignedTimeDataPoint
  | receiveUnixTimeRequest
  | receiveLocalTimeRequest
  deriving DecidableEq, Repr

namespace TuyaBleCommandCode

def value : TuyaBleCommandCode → Nat
  | senderDeviceInfo => 0x0000
  | senderPair => 0x0001
  | senderDataPoints => 0x0002
  | senderDeviceStatus => 0x0003
  | senderUnbind => 0x0005
  | senderDeviceReset => 0x0006
  | receiveDataPoint => 0x8001
  | receiveTimeDataPoint => 0x8003
  | receiveSignedDataPoint => 0x8004
  | receiveSignedTimeDataPoint => 0x8005
  | receiveUnixTimeRequest => 0x8011
  | receiveLocalTimeRequest => 0x8012

def name : TuyaBleCommandCode → String
  | senderDeviceInfo => "SENDER_DEVICE_INFO"
  | senderPair => "SENDER_PAIR"
  | senderDataPoints => "SENDER_DATA_POINTS"
  | senderDeviceStatus => "SENDER_DEVICE_STATUS"
  | senderUnbind => "SENDER_UNBIND"
  | senderDeviceReset => "SENDER_DEVICE_RESET"
  | receiveDataPoint => "RECEIVE_DATA_POINT"
  | receiveTimeDataPoint => "RECEIVE_TIME_DATA_POINT"
  | receiveSignedDataPoint => "RECEIVE_SIGNED_DATA_POINT"
  | receiveSignedTimeDataPoint => "RECEIVE_SIGNED_TIME_DATA_POINT"
  | receiveUnixTimeRequest => "RECEIVE_UNIX_TIME_REQUEST"
  | receiveLocalTimeRequest => "RECEIVE_LOCAL_TIME_REQUEST"

def all : List TuyaBleCommandCode :=
  [senderDeviceInfo, senderPair, senderDataPoints, senderDeviceStatus, senderUnbind,
   senderDeviceReset, receiveDataPoint, receiveTimeDataPoint, receiveSignedDataPoint,
   receiveSignedTimeDataPoint, receiveUnixTimeRequest, receiveLocalTimeRequest]

/-- The member of that value, `none` for an unknown code. -/
def fromValue (value : Nat) : Option TuyaBleCommandCode := all.find? fun code => code.value = value

theorem fromValue_value (code : TuyaBleCommandCode) : fromValue code.value = some code := by
  cases code <;> rfl

end TuyaBleCommandCode

inductive DataPointType where
  | raw
  | boolean
  | value
  | string
  | enum
  | bitmap
  deriving DecidableEq, Repr

namespace DataPointType

def toNat : DataPointType → Nat
  | raw => 0
  | boolean => 1
  | value => 2
  | string => 3
  | enum => 4
  | bitmap => 5

/-- `DataPointType(value)`, `none` for its `ValueError`. -/
def ofNat? : Nat → Option DataPointType
  | 0 => some raw
  | 1 => some boolean
  | 2 => some value
  | 3 => some string
  | 4 => some enum
  | 5 => some bitmap
  | _ => none

@[simp] theorem ofNat?_toNat (t : DataPointType) : ofNat? t.toNat = some t := by cases t <;> rfl

theorem toNat_lt (t : DataPointType) : t.toNat < 6 := by cases t <;> decide

theorem toNat_of_ofNat? {n : Nat} {t : DataPointType} (h : ofNat? n = some t) : t.toNat = n := by
  unfold ofNat? at h
  split at h <;> cases h <;> rfl

end DataPointType

end TuyaBle
