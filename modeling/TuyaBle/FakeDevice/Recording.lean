import TuyaBle.Crypto

/-!
# Recorded primitives

The values MD5 and AES take on what is exchanged with the tests' fake device. Off the
recorded blocks the cipher leaves a block alone or puts a recorded one back, so that it
stays invertible.
-/

namespace TuyaBle

namespace FakeDevice

def blockOfNat (n : Nat) : Block := ⟨BigEndian.toBytes blockSize n, BigEndian.length_toBytes _ _⟩

/-- The recorded inputs of AES under a key, each with its output. -/
abbrev Recording := List (Nat × Nat)

def exchange (x y b : Block) : Block := if b = x then y else if b = y then x else b

theorem exchange_exchange (x y b : Block) : exchange x y (exchange x y b) = b := by
  unfold exchange
  by_cases hx : b = x
  · subst hx; by_cases h : y = b <;> simp [h]
  · by_cases hy : b = y <;> simp [hx, hy]

def replay (recording : Recording) (b : Block) : Block :=
  recording.foldl (fun b p => exchange (blockOfNat p.1) (blockOfNat p.2) b) b

def unreplay (recording : Recording) (b : Block) : Block :=
  recording.foldr (fun p b => exchange (blockOfNat p.1) (blockOfNat p.2) b) b

theorem unreplay_replay (recording : Recording) (b : Block) :
    unreplay recording (replay recording b) = b := by
  induction recording generalizing b with
  | nil => rfl
  | cons p recording ih =>
    have h := ih (exchange (blockOfNat p.1) (blockOfNat p.2) b)
    rw [replay, List.foldl_cons, unreplay, List.foldr_cons]
    rw [replay, unreplay] at h
    rw [h, exchange_exchange]

def loginDigest : Nat := 0xe80b5017098950fc58aad83c8c14978e
def sessionDigest : Nat := 0xba9ea9346236b843c695231afa4bba18

/-- Under the digest of `"abcdef"`. -/
def loginRecording : Recording :=
  [(0x000102020405060708090a0b9e640e0f, 0xf8bc69d43b1f0e3bf28ac34ec4aa2723),
   (0x000102660405060608090a250d0f0d0f, 0xd666d1a2fe4d2908b806b22c522e81e8),
   (0xd667a2d09f234d29b105b22d502d85ed, 0x789e31429b27e4bcaa87c9df797b2c31),
   (0x7e99394b912ce8b1a488d9ce6b683824, 0x8c4b36325ed67318a5bb200772244fc1),
   (0x9a5c2e2b44cd6f05bba404d072244fc1, 0xccdbe2acfa3cddc5148b74bb7a57aadd),
   (0x000102660405060608090a250d0f0a0f, 0xda1dd8e22f498925cb7e8bc532a7d720),
   (0xda1cab904e27ed04c27d8bc430a4d325, 0x1e6b2ea1c5e4f07ea8dfce11c64b7519),
   (0x186c26a8cfeffc73a6d0de00d458610c, 0x32433c232867a04d6b5a7c2a0b8c5b2e),
   (0x2454243a327cbc5075456db80b8c5b2e, 0xd9294e97ba5986148514d148d64040b6),
   (0x000102660405060608090a250d0f1e0f, 0x1ddaeee03dd28c4fb13189b8bcacfb6c),
   (0x1ddb9d925cbce86eb83289b9beafff69, 0xf541c65da815b650fa04306587230395),
   (0xf346ce54a21eba5df40b207495301780, 0x6d888da8119a4a30c14a25157bdcb102),
   (0x7b9f95b10b81562ddf552f9c7bdcb102, 0x7bc610057350ff648a48f35d1b19e9a6),
   (0x0001026b0405060788080a0c0f0f0a0f, 0x2fcfcc4bb35560f9240bfdbc98f622d4),
   (0x2fcfe69d435560f9240bfdbc98f622d4, 0x60ed3b9ef27a0415d04d8d6c2287ff1b),
   (0x000102010405060708090a0b6e700e0f, 0x13b48a7ccc5945bccc9aa7b23e8664e5)]

/-- Under the digest of `"abcdefsrand!"`. -/
def sessionRecording : Recording :=
  [(0x000102010405060708080a273c3c3c3c, 0x38310504bc931d1066a4402c4f70aa26),
   (0x0c04333384aa7c7205c0254a2e12c942, 0x06370f0f2db778a2665c3912842403f0),
   (0x63516b6b49d31cc602385d76e0406794, 0xddf0affc0e6a26bc49ff6c6f6c863472),
   (0xb994affc0e6a26bc197d6c6f6c863472, 0xf46c524394d9ca1501312e6f8fe7239c),
   (0x000102650405060508080a0a0e086e0f, 0x3607e528273668432e42053f956c6b10),
   (0x0001020004050607080a0a0bfe8d0e0f, 0x7949b6c0976133a68068991ec727311a),
   (0x0001026404050604080a0a0a0c65be0f, 0x557fb152439781af65f9a015eda1d3ca),
   (0x0001026b0405060788080a0c0f0f0a0f, 0xb7781a6a88d42f02540cfac70aaccdd0),
   (0xb77830bc78d42f02540cfac70aaccdd0, 0x5218e4a8cc8a49e49f8d700d5db97c81),
   (0x000102070405066f88080a0b07420e0f, 0x7a65c48caf07a6f2a24007276e7366bb),
   (0x000102000405066f88080a0b37640e0f, 0x4d79b7c6964606461104af7c59906c2f)]

def recordingOf (key : AesKey) : Recording :=
  if key.val = BigEndian.toBytes blockSize loginDigest then loginRecording
  else if key.val = BigEndian.toBytes blockSize sessionDigest then sessionRecording
  else []

def localKey : String := "abcdef0123456789"
def srand : Bytes := encodeUtf8 "srand!"

def primitives : Primitives where
  md5 data :=
    if data = keyMaterial localKey then blockOfNat loginDigest
    else if data = keyMaterial localKey ++ srand then blockOfNat sessionDigest
    else blockOfNat 0
  encryptBlock key := replay (recordingOf key)
  decryptBlock key := unreplay (recordingOf key)
  decrypt_encrypt key := unreplay_replay (recordingOf key)

/-- The vector every recorded frame was encrypted with. -/
def initializationVector : InitializationVector :=
  ⟨(List.range blockSize).map UInt8.ofNat, by decide⟩

end FakeDevice

end TuyaBle
