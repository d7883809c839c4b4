import TuyaBle.FakeDevice.Recording
import TuyaBle.Client.Machine

/-!
# The peripheral of the tests

The credentials and records of the tests' fake device, and the events of a session with it.
-/

namespace TuyaBle

namespace FakeDevice

/-! ## The device -/

def deviceId : String := "dddddddddddddddd"
def uuid : String := "0123456789abcdef"
def authKey : Bytes := (List.range 32).map UInt8.ofNat

def credentials : TuyaBleCredentials := ⟨uuid, deviceId, localKey⟩

def address : String := "AA:BB:CC:DD:EE:FF"

def buildDeviceInfo (protocolVersion : UInt8) : Bytes :=
  [1, 2, protocolVersion, 0, 0, 1] ++ srand ++ [9, 3] ++ authKey

/-- Soil moisture at 42 %. -/
def report : Bytes := [3, 2, 4, 0, 0, 0, 42]

def clock : Clock where
  time := 1700000000
  timeNs := 1700000000000000000
  timezone := -3600
  localtime := { tmYear := 2023, tmMon := 11, tmMday := 14, tmHour := 23, tmMin := 13,
                 tmSec := 20, tmWday := 1 }

def client : World := .new primitives address credentials

/-- The notification of a whole frame of the device. -/
def send (frame : Frame) (login : Bool := false) : Event :=
  let key := if login then loginKey primitives localKey else sessionKey primitives localKey srand
  let flag := if login then securityFlagLoginKey else securityFlagSessionKey
  match frame.encode primitives key flag initializationVector with
  | .ok payload => .notify (packVarint 0 ++ packVarint payload.length ++ [0x30] ++ payload) clock
  | .error _ => .notify [] clock

/-! ## A session with it -/

def connected : Event := .resume (.connected (.ok 0)) initializationVector
def subscribed : Event := .resume (.subscribed (.ok ())) initializationVector
def written : Event := .resume (.written (.ok ())) initializationVector
def woken : Event := .resume .woken initializationVector
def disconnected : Event := .resume (.disconnected (.ok ())) initializationVector

/-- Up to the first write of the pairing request. -/
def deviceInfoExchange (protocolVersion : UInt8 := 3) : List Event :=
  [connected, subscribed, written, written,
   send ⟨101, 1, 0, buildDeviceInfo protocolVersion⟩ true, woken]

/-- Up to the answer to the status request. -/
def handshake : List Event :=
  deviceInfoExchange ++ [written, written, written, written, written, send ⟨102, 2, 1, [2]⟩, woken,
    written, written, send ⟨103, 3, 3, [0]⟩, woken]

/-- The whole session: one report, its acknowledgement, and the quiet period. -/
def session : List Event :=
  handshake ++ [send ⟨104, 0, 0x8001, report⟩, woken, .replyStart 4 initializationVector,
    .replyWritten 4 (.ok ()), .replyWritten 4 (.ok ()), .fire .deadline, woken, disconnected]

end FakeDevice

end TuyaBle
