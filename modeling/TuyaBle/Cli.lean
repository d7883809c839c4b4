import TuyaBle.AdvertisementRoundTrip

/-!
# Scanning

The loop of the `scan` command over what the Bluetooth scanner discovered. One
advertisement that cannot be parsed ends it, and with it the list of all the others.
-/

namespace TuyaBle

structure AdvertisementData where
  serviceUuids : List String
  serviceData : Dict String Bytes
  manufacturerData : Dict Nat Bytes

/-- The advertisement exposes the Tuya BLE service. -/
def isTuya (advertisement : AdvertisementData) : Bool :=
  serviceUuid ∈ advertisement.serviceUuids ∨
    (advertisement.serviceData.get? serviceUuid).isSome

section
variable {δ : Type} (P : Primitives)

/-- The loop of `asyncScan`. -/
def scanLoop : List (δ × AdvertisementData) → List (δ × AdvertisementInfo) →
    Except PyException (List (δ × AdvertisementInfo))
  | [], found => .ok found
  | (device, advertisement) :: rest, found =>
    if ¬ isTuya advertisement then scanLoop rest found
    else do
      let info ← parseAdvertisement P advertisement.serviceData advertisement.manufacturerData
      scanLoop rest (found ++ [(device, info)])

/-- What the scanner discovered, by address. -/
def asyncScan (discovered : Dict String (δ × AdvertisementData)) :
    Except PyException (List (δ × AdvertisementInfo)) :=
  scanLoop P (discovered.map Prod.snd) []

/-! ## What a scan should return -/

/-- The device is one of the discovered, and `info` is what its own advertisement says. -/
def Exposes (discovered : Dict String (δ × AdvertisementData)) (device : δ)
    (info : AdvertisementInfo) : Prop :=
  ∃ address advertisement, (address, device, advertisement) ∈ discovered ∧
    isTuya advertisement ∧
    parseAdvertisement P advertisement.serviceData advertisement.manufacturerData = .ok info

/-- The scan returns, and lists each device whose own advertisement is accepted, as it
describes itself, and no other. -/
def ScanIsolates (discovered : Dict String (δ × AdvertisementData)) : Prop :=
  ∃ found, asyncScan P discovered = .ok found ∧
    ∀ device info, (device, info) ∈ found ↔ Exposes P discovered device info

/-- No device that exposes the service broadcasts a uuid that cannot be deciphered. -/
def AllWellFormed (discovered : Dict String (δ × AdvertisementData)) : Prop :=
  ∀ address device advertisement, (address, device, advertisement) ∈ discovered →
    isTuya advertisement →
    WellFormedRecords P advertisement.serviceData advertisement.manufacturerData

/-! ## The loop -/

variable {P}

/-- What a whole loop adds. -/
theorem scanLoop_eq_ok {entries : List (δ × AdvertisementData)}
    {found result : List (δ × AdvertisementInfo)} (h : scanLoop P entries found = .ok result)
    (device : δ) (info : AdvertisementInfo) :
    (device, info) ∈ result ↔ (device, info) ∈ found ∨
      ∃ advertisement, (device, advertisement) ∈ entries ∧ isTuya advertisement ∧
        parseAdvertisement P advertisement.serviceData advertisement.manufacturerData =
          .ok info := by
  induction entries generalizing found with
  | nil =>
    obtain rfl := Except.ok.inj h
    simp
  | cons entry rest ih =>
    obtain ⟨device', advertisement⟩ := entry
    rw [scanLoop] at h
    split at h
    · rename_i hnot
      rw [ih h]
      refine or_congr_right (exists_congr fun other => and_congr_left fun hother => ?_)
      rw [List.mem_cons, Prod.mk.injEq]
      refine (or_iff_right ?_).symm
      rintro ⟨-, rfl⟩
      exact hnot hother.1
    · rename_i htuya
      obtain ⟨info', hinfo, h⟩ := Except.bind_eq_ok.1 h
      rw [ih h, List.mem_append, List.mem_singleton, Prod.mk.injEq, or_assoc]
      refine or_congr_right ?_
      constructor
      · rintro (⟨rfl, rfl⟩ | ⟨other, hmem, hother⟩)
        · exact ⟨advertisement, List.mem_cons_self .., Decidable.not_not.1 htuya, hinfo⟩
        · exact ⟨other, List.mem_cons_of_mem _ hmem, hother⟩
      · rintro ⟨other, hmem, hother⟩
        rcases List.mem_cons.1 hmem with heq | hmem
        · cases heq
          exact .inl ⟨rfl, Except.ok.inj (hother.2.symm.trans hinfo)⟩
        · exact .inr ⟨other, hmem, hother⟩

/-- The loop ends well exactly when every advertisement it parses can be. -/
theorem scanLoop_ok_iff {entries : List (δ × AdvertisementData)}
    (found : List (δ × AdvertisementInfo)) :
    (∃ result, scanLoop P entries found = .ok result) ↔
      ∀ device advertisement, (device, advertisement) ∈ entries → isTuya advertisement →
        WellFormedRecords P advertisement.serviceData advertisement.manufacturerData := by
  induction entries generalizing found with
  | nil => exact iff_of_true ⟨found, rfl⟩ fun _ _ h => absurd h List.not_mem_nil
  | cons entry rest ih =>
    obtain ⟨device, advertisement⟩ := entry
    rw [scanLoop]
    split
    · rename_i hnot
      rw [ih found]
      constructor
      · intro h other data hmem htuya
        rcases List.mem_cons.1 hmem with heq | hmem
        · cases heq
          exact absurd htuya hnot
        · exact h other data hmem htuya
      · exact fun h other data hmem => h other data (List.mem_cons_of_mem _ hmem)
    · rename_i htuya
      constructor
      · rintro ⟨result, h⟩ other data hmem htuya'
        obtain ⟨info, hinfo, h⟩ := Except.bind_eq_ok.1 h
        rcases List.mem_cons.1 hmem with heq | hmem
        · cases heq
          exact parseAdvertisement_ok_iff.1 ⟨info, hinfo⟩
        · exact (ih _).1 ⟨result, h⟩ other data hmem htuya'
      · intro h
        obtain ⟨info, hinfo⟩ := parseAdvertisement_ok_iff.2
          (h device advertisement (List.mem_cons_self ..) (Decidable.not_not.1 htuya))
        obtain ⟨result, hresult⟩ := (ih (found ++ [(device, info)])).2
          fun other data hmem => h other data (List.mem_cons_of_mem _ hmem)
        exact ⟨result, Except.bind_eq_ok.2 ⟨info, hinfo, hresult⟩⟩

theorem mem_map_snd {discovered : Dict String (δ × AdvertisementData)} {device : δ}
    {advertisement : AdvertisementData} :
    (device, advertisement) ∈ discovered.map Prod.snd ↔
      ∃ address, (address, device, advertisement) ∈ discovered := by
  simp

/-- A scan that returns lists the devices that expose themselves. -/
theorem mem_of_asyncScan {discovered : Dict String (δ × AdvertisementData)}
    {found : List (δ × AdvertisementInfo)} (h : asyncScan P discovered = .ok found) (device : δ)
    (info : AdvertisementInfo) :
    (device, info) ∈ found ↔ Exposes P discovered device info := by
  rw [scanLoop_eq_ok h, or_iff_right List.not_mem_nil]
  unfold Exposes
  rw [exists_comm]
  refine exists_congr fun advertisement => ?_
  rw [mem_map_snd, exists_and_right]

end

/-- **A scan lists its devices exactly when each of them broadcasts a uuid that can be
deciphered**: one that does not hides all the others. -/
theorem scanIsolates_iff {δ : Type} (P : Primitives)
    (discovered : Dict String (δ × AdvertisementData)) :
    ScanIsolates P discovered ↔ AllWellFormed P discovered := by
  have hreturns : (∃ found, asyncScan P discovered = .ok found) ↔ AllWellFormed P discovered := by
    unfold asyncScan
    rw [scanLoop_ok_iff]
    constructor
    · exact fun h address device advertisement hmem =>
        h device advertisement (mem_map_snd.2 ⟨address, hmem⟩)
    · intro h device advertisement hmem
      obtain ⟨address, hmem⟩ := mem_map_snd.1 hmem
      exact h address device advertisement hmem
  rw [← hreturns]
  exact exists_congr fun found => and_iff_left_of_imp fun h => mem_of_asyncScan h

namespace FakeAdvertisement

/-- The tests' device. -/
def advertisement : AdvertisementData :=
  ⟨[serviceUuid], serviceData, manufacturerData encryptedUuid⟩

/-- A device whose encrypted uuid is part of a block. -/
def partialAdvertisement : AdvertisementData :=
  ⟨[serviceUuid], serviceData,
    [(manufacturerDataIdentifier, List.replicate 6 0 ++ encodeUtf8 "short")]⟩

def discovered : Dict String (String × AdvertisementData) :=
  [("AA:BB:CC:DD:EE:FF", "TY", advertisement),
   ("11:22:33:44:55:66", "partial", partialAdvertisement)]

end FakeAdvertisement

open FakeAdvertisement in
/-- A partial AES block in one broadcast fails the scan of another device. -/
theorem partial_block_hides_device :
    Exposes primitives discovered "TY"
        ⟨some "gvygg3m8", some "0123456789abcdef", some 3, true⟩ ∧
      asyncScan primitives discovered = .error ⟨.tuyaBleProtocolError,
        "Failed to decrypt the advertised uuid: 5 bytes is not a whole number of AES blocks",
        none⟩ ∧
      ¬ ScanIsolates primitives discovered := by
  have hparse : parseAdvertisement primitives serviceData (manufacturerData encryptedUuid) =
      .ok ⟨some "gvygg3m8", some "0123456789abcdef", some 3, true⟩ := by decide +kernel
  have hscan : asyncScan primitives discovered = .error ⟨.tuyaBleProtocolError,
      "Failed to decrypt the advertised uuid: 5 bytes is not a whole number of AES blocks",
      none⟩ := by decide +kernel
  refine ⟨⟨_, advertisement, List.mem_cons_self .., by decide, hparse⟩, hscan, ?_⟩
  rintro ⟨found, hfound, -⟩
  cases hscan.symm.trans hfound

end TuyaBle
