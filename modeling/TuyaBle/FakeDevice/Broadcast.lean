import TuyaBle.Advertisement
import TuyaBle.FakeDevice.Recording

/-!
# The advertisement of the tests

The records the tests' fake device broadcasts, and what MD5 and AES make of them.
-/

namespace TuyaBle

namespace FakeAdvertisement

open FakeDevice (blockOfNat replay unreplay unreplay_replay)

def productRecord : Bytes := encodeUtf8 "gvygg3m8"
def uuid : String := "0123456789abcdef"

def productDigest : Nat := 0x17709d3f714196ff0fc661904dc6f823

/-- Under the digest of the product record. -/
def productRecording : FakeDevice.Recording :=
  [(0x2741af0c4574a0c837ff00f22ea29d45, 0xbdfd790797258665259c1103fe59ccae)]

def recordingOf (key : AesKey) : FakeDevice.Recording :=
  if key.val = BigEndian.toBytes blockSize productDigest then productRecording else []

def primitives : Primitives where
  md5 data := if data = productRecord then blockOfNat productDigest else blockOfNat 0
  encryptBlock key := replay (recordingOf key)
  decryptBlock key := unreplay (recordingOf key)
  decrypt_encrypt key := unreplay_replay (recordingOf key)

def encryptedUuid : Bytes := (blockOfNat 0xbdfd790797258665259c1103fe59ccae).val

/-- A bound device of protocol version 3. -/
def header : Bytes := [0x80, 3, 0, 0, 1, 0]

def serviceData : Dict String Bytes := [(serviceUuid, 0 :: productRecord)]

def manufacturerData (encryptedUuid : Bytes) : Dict Nat Bytes :=
  [(manufacturerDataIdentifier, header ++ encryptedUuid)]

end FakeAdvertisement

end TuyaBle
