import TuyaBle.Ascii
import TuyaBle.Crypto
import TuyaBle.Lib.Dict

/-!
# Advertisements

What a device broadcasts before anyone connects. The product-id record names the product
when it is printable, and is the key of the uuid whether it is or not.
-/

namespace TuyaBle

def serviceUuid : String := "0000a201-0000-1000-8000-00805f9b34fb"
def manufacturerDataIdentifier : Nat := 0x07d0

def productIdRecord : Nat := 0
def minimumRecordLength : Nat := 2
def boundFlag : Nat := 0x80
def uuidOffset : Nat := 6

structure AdvertisementInfo where
  productId : Option String
  uuid : Option String
  protocolVersion : Option Nat
  isBound : Bool
  deriving DecidableEq, Repr

def parseProductId (serviceData : Option Bytes) : Option Bytes :=
  match serviceData with
  | none => none
  | some record =>
    if record.length < minimumRecordLength then none
    else if record.head?.map UInt8.toNat ≠ some productIdRecord then none
    else some (record.drop 1)

/-- The product id as text, when the device broadcasts it in the clear. -/
def readable (rawProductId : Option Bytes) : Except PyException (Option String) :=
  match rawProductId with
  | none => .ok none
  | some raw =>
    if ¬ isAscii raw then .ok none
    else if ¬ isAlnum raw then .ok none
    else
      match decodeUtf8 raw with
      | some text => .ok (some text)
      | none => raise .unicodeDecodeError ""

variable (P : Primitives)

def parseUuid (rawProductId : Option Bytes) (encryptedUuid : Bytes) :
    Except PyException (Option String) :=
  match rawProductId with
  | none => .ok none
  | some raw => do
    let uuid ← decryptAdvertisedUuid P raw encryptedUuid
    return some uuid

def parseAdvertisement (serviceData : Dict String Bytes) (manufacturerData : Dict Nat Bytes) :
    Except PyException AdvertisementInfo := do
  let rawProductId := parseProductId (serviceData.get? serviceUuid)
  match (manufacturerData.get? manufacturerDataIdentifier).filter (uuidOffset < ·.length) with
  | none =>
    let productId ← readable rawProductId
    return ⟨productId, none, none, false⟩
  | some payload =>
    let productId ← readable rawProductId
    let uuid ← parseUuid P rawProductId (payload.drop uuidOffset)
    let version ← byteAt payload 1
    let flags ← byteAt payload 0
    return ⟨productId, uuid, some version, flags &&& boundFlag ≠ 0⟩

/-! ## The product id -/

/-- The product id that a record of ASCII letters and digits names. -/
def productIdText (raw : Bytes) : Option String :=
  if raw.all isAlnumByte then some (asciiText raw) else none

theorem readable_some {raw : Bytes} (hne : raw ≠ []) :
    readable (some raw) = .ok (productIdText raw) := by
  unfold readable productIdText
  by_cases h : raw.all isAlnumByte
  · have hascii : ∀ b ∈ raw, b.toNat < 128 := fun b hb =>
      lt_of_isAlnumByte (List.all_eq_true.1 h b hb)
    have halnum : isAlnum raw := isAlnum_iff.2 ⟨hne, List.all_eq_true.1 h⟩
    simp only [isAscii_iff.2 hascii, halnum, decodeUtf8_ascii hascii, h, not_true_eq_false,
      ↓reduceIte]
  · have halnum : ¬ isAlnum raw := fun ha => h (List.all_eq_true.2 (isAlnum_iff.1 ha).2)
    simp only [halnum, h]
    split <;> rfl

theorem readable_ok (serviceData : Option Bytes) :
    ∃ productId, readable (parseProductId serviceData) = .ok productId := by
  cases hraw : parseProductId serviceData with
  | none => exact ⟨none, rfl⟩
  | some raw =>
    refine ⟨_, readable_some ?_⟩
    rintro rfl
    unfold parseProductId minimumRecordLength at hraw
    split at hraw
    · cases hraw
    · split at hraw
      · cases hraw
      · split at hraw
        · cases hraw
        · have := congrArg List.length (Option.some.inj hraw)
          simp only [List.length_drop, List.length_nil] at this
          omega

theorem parseProductId_record {raw : Bytes} (hne : raw ≠ []) :
    parseProductId (some (0 :: raw)) = some raw := by
  have hpos := List.length_pos_iff.2 hne
  unfold parseProductId minimumRecordLength
  simp only [List.length_cons]
  have hrecord : (0 :: raw).head?.map UInt8.toNat = some productIdRecord := rfl
  rw [if_neg (by omega), hrecord, if_neg (not_not_intro rfl)]
  rfl

/-! ## What is refused -/

/-- The encrypted uuid is a whole number of AES blocks, and text under its product record. -/
def DeciphersUuid (rawProductId encryptedUuid : Bytes) : Prop :=
  encryptedUuid.length % blockSize = 0 ∧
    ∃ uuid, decrypt P (digestKey (P.md5 rawProductId)) (P.md5 rawProductId) encryptedUuid =
      .ok (encodeUtf8 uuid)

/-- Every uuid the two records carry between them can be deciphered. -/
def WellFormedRecords (serviceData : Dict String Bytes) (manufacturerData : Dict Nat Bytes) :
    Prop :=
  ∀ raw payload, parseProductId (serviceData.get? serviceUuid) = some raw →
    manufacturerData.get? manufacturerDataIdentifier = some payload →
    uuidOffset < payload.length → DeciphersUuid P raw (payload.drop uuidOffset)

variable {P}

theorem deciphersUuid_iff {rawProductId encryptedUuid : Bytes} :
    DeciphersUuid P rawProductId encryptedUuid ↔
      ∃ uuid, decryptAdvertisedUuid P rawProductId encryptedUuid = .ok uuid := by
  simp only [decryptAdvertisedUuid_eq_ok, decodeUtf8_eq_some, exists_and_left]
  refine and_congr_right fun _ => exists_congr fun uuid => ?_
  constructor
  · exact fun h => ⟨_, h, rfl⟩
  · rintro ⟨decrypted, h, rfl⟩
    exact h

theorem parseUuid_fails (rawProductId : Option Bytes) (encryptedUuid : Bytes) :
    Fails (parseUuid P rawProductId encryptedUuid) .tuyaBleProtocolError := by
  cases rawProductId with
  | none => exact fails_ok _ _
  | some raw => exact (decryptAdvertisedUuid_fails raw encryptedUuid).bind fun _ _ => fails_ok _ _

section
variable {serviceData : Dict String Bytes} {manufacturerData : Dict Nat Bytes}

variable (serviceData) in
/-- Without a manufacturer record of some length only the product is known. -/
theorem parseAdvertisement_anonymous
    (h : ∀ payload, manufacturerData.get? manufacturerDataIdentifier = some payload →
      payload.length ≤ uuidOffset) :
    ∃ productId, readable (parseProductId (serviceData.get? serviceUuid)) = .ok productId ∧
      parseAdvertisement P serviceData manufacturerData = .ok ⟨productId, none, none, false⟩ := by
  obtain ⟨productId, hid⟩ := readable_ok (serviceData.get? serviceUuid)
  refine ⟨productId, hid, ?_⟩
  have hnone : (manufacturerData.get? manufacturerDataIdentifier).filter
      (uuidOffset < ·.length) = none := by
    rw [Option.filter_eq_none_iff]
    intro payload hp
    simpa using h payload hp
  unfold parseAdvertisement
  simp only [hnone, hid]
  rfl

variable (serviceData) in
/-- With one, the outcome is that of the uuid. -/
theorem parseAdvertisement_identified {flags version : UInt8} {rest : Bytes}
    (h : manufacturerData.get? manufacturerDataIdentifier = some (flags :: version :: rest))
    (hlen : uuidOffset < (flags :: version :: rest).length) :
    ∃ productId, readable (parseProductId (serviceData.get? serviceUuid)) = .ok productId ∧
      parseAdvertisement P serviceData manufacturerData =
        (parseUuid P (parseProductId (serviceData.get? serviceUuid)) (rest.drop 4)).map
          fun uuid => ⟨productId, uuid, some version.toNat, flags.toNat &&& boundFlag ≠ 0⟩ := by
  obtain ⟨productId, hid⟩ := readable_ok (serviceData.get? serviceUuid)
  refine ⟨productId, hid, ?_⟩
  have hsome : (manufacturerData.get? manufacturerDataIdentifier).filter
      (uuidOffset < ·.length) = some (flags :: version :: rest) := by
    rw [h, Option.filter_some, if_pos (by simpa using hlen)]
  have hdrop : (flags :: version :: rest).drop uuidOffset = rest.drop 4 := rfl
  unfold parseAdvertisement
  simp only [hsome, hid, hdrop, bind, Except.bind, byteAt_cons_zero, byteAt_cons_succ]
  cases parseUuid P (parseProductId (serviceData.get? serviceUuid)) (rest.drop 4) <;> rfl

/-- A payload longer than its header has flags and a version. -/
theorem exists_header {payload : Bytes} (h : uuidOffset < payload.length) :
    ∃ flags version rest, payload = flags :: version :: rest := by
  match payload, h with
  | flags :: version :: rest, _ => exact ⟨flags, version, rest, rfl⟩

/-- **An advertisement is parsed exactly when its records are well formed.** -/
theorem parseAdvertisement_ok_iff :
    (∃ info, parseAdvertisement P serviceData manufacturerData = .ok info) ↔
      WellFormedRecords P serviceData manufacturerData := by
  unfold WellFormedRecords
  by_cases hpayload : ∃ payload, manufacturerData.get? manufacturerDataIdentifier = some payload ∧
      uuidOffset < payload.length
  · obtain ⟨payload, hp, hlen⟩ := hpayload
    obtain ⟨flags, version, rest, rfl⟩ := exists_header hlen
    obtain ⟨productId, -, heq⟩ := parseAdvertisement_identified (P := P)
      serviceData hp hlen
    rw [heq]
    cases hraw : parseProductId (serviceData.get? serviceUuid) with
    | none =>
      refine iff_of_true ⟨_, rfl⟩ ?_
      rintro raw payload ⟨⟩
    | some raw =>
      constructor
      · rintro ⟨info, h⟩ raw payload ⟨⟩ hp' -
        obtain rfl := Option.some.inj (hp.symm.trans hp')
        refine deciphersUuid_iff.2 ?_
        cases huuid : decryptAdvertisedUuid P raw (rest.drop 4) with
        | ok uuid => exact ⟨uuid, huuid⟩
        | error e =>
          rw [parseUuid, huuid] at h
          cases h
      · intro h
        obtain ⟨uuid, huuid⟩ := deciphersUuid_iff.1 (h raw _ rfl hp hlen)
        have hrest : decryptAdvertisedUuid P raw (rest.drop 4) = .ok uuid := huuid
        rw [parseUuid, hrest]
        exact ⟨_, rfl⟩
  · refine iff_of_true ?_ fun raw payload _ hp hlen => absurd ⟨payload, hp, hlen⟩ hpayload
    obtain ⟨productId, -, heq⟩ := parseAdvertisement_anonymous (P := P) serviceData
      fun payload hp => Nat.not_lt.1 fun hlen => hpayload ⟨payload, hp, hlen⟩
    exact ⟨_, heq⟩

theorem parseAdvertisement_fails (serviceData : Dict String Bytes)
    (manufacturerData : Dict Nat Bytes) :
    Fails (parseAdvertisement P serviceData manufacturerData) .tuyaBleProtocolError := by
  intro e he
  by_cases hpayload : ∃ payload, manufacturerData.get? manufacturerDataIdentifier = some payload ∧
      uuidOffset < payload.length
  · obtain ⟨payload, hp, hlen⟩ := hpayload
    obtain ⟨flags, version, rest, rfl⟩ := exists_header hlen
    obtain ⟨productId, -, heq⟩ := parseAdvertisement_identified (P := P)
      serviceData hp hlen
    rw [heq] at he
    cases huuid : parseUuid P (parseProductId (serviceData.get? serviceUuid)) (rest.drop 4) with
    | ok uuid =>
      rw [huuid] at he
      cases he
    | error exception =>
      rw [huuid] at he
      cases he
      exact parseUuid_fails _ _ _ huuid
  · obtain ⟨productId, -, heq⟩ := parseAdvertisement_anonymous (P := P) serviceData
      fun payload hp => Nat.not_lt.1 fun hlen => hpayload ⟨payload, hp, hlen⟩
    rw [heq] at he
    cases he

end

end TuyaBle
