import TuyaBle.Advertisement
import TuyaBle.FakeDevice.Broadcast

/-!
# The advertised uuid, there and back

A device encrypts its uuid under the digest of its own product record; the reader of the
two records recovers it. The record's bytes are the key whether they name a product or not.
-/

namespace TuyaBle

theorem boundFlag_fin :
    ∀ n : Fin 256, decide (n.val &&& boundFlag ≠ 0) = n.val.testBit 7 := by decide +kernel

theorem boundFlag_eq_testBit (b : UInt8) :
    decide (b.toNat &&& boundFlag ≠ 0) = b.toNat.testBit 7 := boundFlag_fin ⟨b.toNat, b.toNat_lt⟩

/-- **An advertised uuid is read back**, whether the product record is printable or not. -/
theorem parseAdvertisement_advertised (P : Primitives) (raw : Bytes) (uuid : String)
    (header : Fin 6 → UInt8) (hraw : raw ≠ []) (hpos : 0 < (encodeUtf8 uuid).length)
    (hlen : (encodeUtf8 uuid).length % blockSize = 0) :
    ∃ encryptedUuid,
      encrypt P (digestKey (P.md5 raw)) (P.md5 raw) (encodeUtf8 uuid) = .ok encryptedUuid ∧
      ∀ serviceData manufacturerData, serviceData.get? serviceUuid = some (0 :: raw) →
        manufacturerData.get? manufacturerDataIdentifier =
          some (List.ofFn header ++ encryptedUuid) →
        parseAdvertisement P serviceData manufacturerData =
          .ok { productId := if raw.all isAlnumByte then some (asciiText raw) else none
                uuid := some uuid
                protocolVersion := some (header 1).toNat
                isBound := (header 0).toNat.testBit 7 } := by
  obtain ⟨encryptedUuid, henc, hclen, hdec⟩ :=
    encrypt_spec (P := P) (digestKey (P.md5 raw)) (P.md5 raw) hlen
  refine ⟨encryptedUuid, henc, fun serviceData manufacturerData hservice hmanufacturer => ?_⟩
  have hpayload : List.ofFn header ++ encryptedUuid =
      header 0 :: header 1 :: ([header 2, header 3, header 4, header 5] ++ encryptedUuid) := rfl
  have huuid : decryptAdvertisedUuid P raw encryptedUuid = .ok uuid :=
    decryptAdvertisedUuid_eq_ok.2 ⟨hclen ▸ hlen, _, hdec, decodeUtf8_encodeUtf8 uuid⟩
  rw [hpayload] at hmanufacturer
  obtain ⟨productId, hid, hparse⟩ := parseAdvertisement_identified (P := P)
    serviceData hmanufacturer
    (by simp only [uuidOffset, List.length_cons, List.length_append]; omega)
  rw [hservice, parseProductId_record hraw] at hid hparse
  rw [readable_some hraw] at hid
  obtain rfl := Except.ok.inj hid
  have hdrop : ([header 2, header 3, header 4, header 5] ++ encryptedUuid).drop 4 =
      encryptedUuid := rfl
  rw [hparse, hdrop, parseUuid, huuid, boundFlag_eq_testBit]
  rfl

open FakeAdvertisement in
/-- The advertisement the tests broadcast. -/
theorem parseAdvertisement_printable :
    parseAdvertisement primitives serviceData (manufacturerData encryptedUuid) =
      .ok ⟨some "gvygg3m8", some "0123456789abcdef", some 3, true⟩ := by
  have henc : encrypt primitives (digestKey (primitives.md5 productRecord))
      (primitives.md5 productRecord) (encodeUtf8 uuid) = .ok encryptedUuid := by decide +kernel
  obtain ⟨c, hc, h⟩ := parseAdvertisement_advertised primitives productRecord uuid
    (List.get header) (by decide +kernel) (by decide +kernel) (by decide +kernel)
  obtain rfl := Except.ok.inj (henc.symm.trans hc)
  have hparse := h serviceData (manufacturerData encryptedUuid) rfl rfl
  have hid : asciiText productRecord = "gvygg3m8" := by decide +kernel
  have halnum : productRecord.all isAlnumByte := by decide +kernel
  rw [if_pos halnum, hid] at hparse
  exact hparse

end TuyaBle
