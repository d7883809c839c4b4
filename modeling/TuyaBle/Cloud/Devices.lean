import TuyaBle.Cloud.Client
import TuyaBle.FakeGateway.Listing
import TuyaBle.Lib.Firsts
import Mathlib.Data.Finset.Insert
import Mathlib.Data.Prod.Lex

/-!
# Listing the devices

`asyncListDevices` asks for the homes of the account and for the records of each home, and
keeps the first record of each device that has credentials. A record is placed by its home
and its position there; the loop over homes and records follows the order of the places.
-/

namespace TuyaBle

def homeListApi : String := "tuya.m.location.list"
def deviceListApi : String := "tuya.m.my.group.device.list"

/-! ## Records -/

structure CloudDevice where
  deviceId : String
  localKey : String
  uuid : String
  mac : String
  productId : Option String
  name : String
  deriving DecidableEq, Repr

/-- `text.upper()`; the table of the characters outside ASCII is a parameter. -/
def upper (wideUpper : Char → List Char) (text : String) : String :=
  String.ofList (text.toList.flatMap fun c => if c.toNat < 128 then [c.toUpper] else wideUpper c)

def withoutColons (text : String) : String := String.ofList (text.toList.filter (· ≠ ':'))

variable (wideUpper : Char → List Char)

def parseDevice (raw : JsonObject) : Option CloudDevice := do
  let deviceId ← optionalStr raw "devId"
  let localKey ← optionalStr raw "localKey"
  let uuid ← optionalStr raw "uuid"
  return {
    deviceId := deviceId
    localKey := localKey
    uuid := uuid
    mac := upper wideUpper (withoutColons ((optionalStr raw "mac").getD ""))
    productId := optionalStr raw "productId"
    name := (optionalStr raw "name").getD deviceId }

example : upper (fun c => [c]) (withoutColons "dc:23:51:e5:d1:3a") = "DC2351E5D13A" := by
  decide +kernel

/-- `str` of a group id that is an `int`, as a `bool` is. -/
def groupIdText (home : JsonObject) : Option String :=
  match home.get? "gid" with
  | some (.int groupId) => some (toString groupId)
  | some (.bool groupId) => some (if groupId then "True" else "False")
  | _ => none

/-! ## The listing -/

def homesCall (account : AccountSession) : GatewayCall where
  api := homeListApi
  version := "2.1"
  post := .object []
  account := some account

def devicesCall (account : AccountSession) (groupId : String) : GatewayCall where
  api := deviceListApi
  version := "1.0"
  post := .object []
  account := some account
  extraParams := some [("gid", groupId)]

/-- The exchanges of a listing: the two of a login, the one of the homes, and the one of each
home's records, by the position of the home among the objects. -/
structure ListExchanges where
  token : Exchange
  login : Exchange
  homes : Exchange
  devices : Nat → Exchange

/-- What the loop has listed. -/
structure Listed where
  devices : List CloudDevice := []
  seen : Finset String := ∅

def addDevice (listed : Listed) (raw : JsonObject) : Listed :=
  match parseDevice wideUpper raw with
  | some device =>
    if device.deviceId ∉ listed.seen then
      { devices := listed.devices ++ [device], seen := insert device.deviceId listed.seen }
    else listed
  | none => listed

variable (P : CloudPrimitives)

/-- The account the client holds, or the one it logs in to. -/
def heldAccount (client : TuyaBleCloudClient) (exchanges : ListExchanges) :
    Except GatewayError AccountSession × TuyaBleCloudClient :=
  match client.account with
  | some account => (.ok account, client)
  | none => asyncLogin P client exchanges.token exchanges.login

/-- The loop over the homes, each with its position. -/
def listHomes (gateway : Gateway) (account : AccountSession) (devices : Nat → Exchange) :
    List (JsonObject × Nat) → Listed → Except GatewayError Listed
  | [], listed => .ok listed
  | (home, position) :: rest, listed =>
    match groupIdText home with
    | none => listHomes gateway account devices rest listed
    | some groupId => do
      let records ← asyncCallObjectList P gateway (devices position)
        (devicesCall account groupId)
      listHomes gateway account devices rest (records.foldl (addDevice wideUpper) listed)

/-- The outcome, and the client after it. -/
def asyncListDevices (client : TuyaBleCloudClient) (exchanges : ListExchanges) :
    Except GatewayError (List CloudDevice) × TuyaBleCloudClient :=
  let (held, client) := heldAccount P client exchanges
  let outcome := do
    let account ← held
    let homes ← asyncCallObjectList P client.gateway exchanges.homes (homesCall account)
    let listed ← listHomes wideUpper P client.gateway account exchanges.devices homes.zipIdx {}
    return listed.devices
  (outcome, client)

/-! ## What a listing should return -/

/-- The item of an answer is a home that is asked for under the text of its `gid`: an `int`,
as a `bool` is one. -/
inductive IsHome : JsonValue → String → Prop where
  | int {members : List (String × JsonValue)} {groupId : Int}
      (h : Dict.get? (.ofPairs members) "gid" = some (.int groupId)) :
      IsHome (.object members) (toString groupId)
  | bool {members : List (String × JsonValue)} {groupId : Bool}
      (h : Dict.get? (.ofPairs members) "gid" = some (.bool groupId)) :
      IsHome (.object members) (if groupId then "True" else "False")

/-- The record at a place of the answers: an object there, in the answer for a home. -/
def RecordAt (homes : List JsonValue) (records : Nat → List JsonValue) (place : Nat ×ₗ Nat)
    (raw : JsonObject) : Prop :=
  (∃ home groupId, homes[(ofLex place).1]? = some home ∧ IsHome home groupId) ∧
    ∃ members, (records (ofLex place).1)[(ofLex place).2]? = some (.object members) ∧
      raw = .ofPairs members

/-- The objects in front of a position of an answer. -/
def objectsBefore (items : List JsonValue) (position : Nat) : Nat :=
  (items.take position).countP fun
    | .object _ => true
    | _ => false

/-- A string that is there and not empty. -/
def HasText (raw : JsonObject) (key : String) : Prop :=
  ∃ text, raw.get? key = some (.str text) ∧ text ≠ ""

/-- The record has the credentials of the device. -/
def Carries (raw : JsonObject) (deviceId : String) : Prop :=
  raw.get? "devId" = some (.str deviceId) ∧ deviceId ≠ "" ∧ HasText raw "localKey" ∧
    HasText raw "uuid"

/-- The device is the parse of the record at `place`, the first that carries it. -/
def FirstRecord (homes : List JsonValue) (records : Nat → List JsonValue)
    (place : Nat ×ₗ Nat) (device : CloudDevice) : Prop :=
  (∃ raw, RecordAt homes records place raw ∧ Carries raw device.deviceId ∧
    parseDevice wideUpper raw = some device) ∧
  ∀ earlier raw, earlier < place → RecordAt homes records earlier raw →
    ¬ Carries raw device.deviceId

structure LosslessUnion (homes : List JsonValue) (records : Nat → List JsonValue)
    (devices : List CloudDevice) : Prop where
  distinct : (devices.map CloudDevice.deviceId).Nodup
  complete : ∀ deviceId, deviceId ∈ devices.map CloudDevice.deviceId ↔
    ∃ place raw, RecordAt homes records place raw ∧ Carries raw deviceId
  ordered : ∃ placed : List ((Nat ×ₗ Nat) × CloudDevice), placed.map Prod.snd = devices ∧
    placed.Pairwise (·.1 < ·.1) ∧
    ∀ p ∈ placed, FirstRecord wideUpper homes records p.1 p.2

/-! ## Records and places -/

variable {wideUpper} {raw : JsonObject} {homes : List JsonValue}
  {records : Nat → List JsonValue}

theorem parseDevice_carries {device : CloudDevice} (h : parseDevice wideUpper raw = some device) :
    Carries raw device.deviceId := by
  obtain ⟨deviceId, hid, h⟩ := Option.bind_eq_some_iff.1 h
  obtain ⟨localKey, hkey, h⟩ := Option.bind_eq_some_iff.1 h
  obtain ⟨uuid, huuid, h⟩ := Option.bind_eq_some_iff.1 h
  obtain rfl := Option.some.inj h
  obtain ⟨hid, hne⟩ := optionalStr_eq_some.1 hid
  exact ⟨hid, hne, ⟨localKey, optionalStr_eq_some.1 hkey⟩, ⟨uuid, optionalStr_eq_some.1 huuid⟩⟩

variable (wideUpper) in
theorem carries_iff {deviceId : String} :
    Carries raw deviceId ↔
      ∃ device, parseDevice wideUpper raw = some device ∧ device.deviceId = deviceId := by
  constructor
  · rintro ⟨hid, hne, ⟨localKey, hkey⟩, ⟨uuid, huuid⟩⟩
    rw [parseDevice, optionalStr_eq_some.2 ⟨hid, hne⟩, optionalStr_eq_some.2 hkey,
      optionalStr_eq_some.2 huuid]
    exact ⟨_, rfl, rfl⟩
  · rintro ⟨device, h, rfl⟩
    exact parseDevice_carries h

def JsonValue.object? : JsonValue → Option JsonObject
  | .object members => some (.ofPairs members)
  | _ => none

theorem object?_eq_some {item : JsonValue} :
    item.object? = some raw ↔ ∃ members, item = .object members ∧ raw = .ofPairs members := by
  cases item <;> simp [JsonValue.object?, eq_comm]

theorem objects_eq_filterMap (items : List JsonValue) :
    objects items = items.filterMap JsonValue.object? := by
  unfold objects
  refine congrArg (List.filterMap · items) (funext fun item => ?_)
  cases item <;> rfl

/-- The check of the code lets the homes through. -/
theorem isHome_iff {home : JsonValue} {groupId : String} :
    IsHome home groupId ↔ ∃ raw, home.object? = some raw ∧ groupIdText raw = some groupId := by
  constructor
  · rintro (⟨h⟩ | ⟨h⟩) <;> exact ⟨_, rfl, by simp only [groupIdText, h]⟩
  · rintro ⟨raw, hraw, h⟩
    obtain ⟨members, rfl, rfl⟩ := object?_eq_some.1 hraw
    unfold groupIdText at h
    split at h
    · rename_i hid
      exact Option.some.inj h ▸ .int hid
    · rename_i hid
      exact Option.some.inj h ▸ .bool hid
    · cases h

theorem isHome_of_mem_objects {groupId : String} (h : raw ∈ objects homes)
    (hgroup : groupIdText raw = some groupId) : ∃ home ∈ homes, IsHome home groupId := by
  rw [objects_eq_filterMap] at h
  obtain ⟨home, hmem, hobject⟩ := List.mem_filterMap.1 h
  exact ⟨home, hmem, isHome_iff.2 ⟨raw, hobject, hgroup⟩⟩

/-- The records in one answer at their places. -/
def recordEntries (position : Nat) (items : List JsonValue) :
    List ((Nat ×ₗ Nat) × JsonObject) :=
  items.zipIdx.filterMap fun item => item.1.object?.map fun raw => (toLex (position, item.2), raw)

/-- The records in the answers for the homes, in the order of their places. -/
def entriesOf (records : Nat → List JsonValue) (indexed : List (JsonValue × Nat)) :
    List ((Nat ×ₗ Nat) × JsonObject) :=
  indexed.flatMap fun home =>
    if (home.1.object?.bind groupIdText).isSome then recordEntries home.2 (records home.2) else []

theorem mem_recordEntries {position : Nat} {items : List JsonValue} {place : Nat ×ₗ Nat} :
    (place, raw) ∈ recordEntries position items ↔ (ofLex place).1 = position ∧
      ∃ members, items[(ofLex place).2]? = some (.object members) ∧ raw = .ofPairs members := by
  unfold recordEntries
  rw [List.mem_filterMap]
  constructor
  · rintro ⟨item, hitem, heq⟩
    obtain ⟨raw', hraw, heq⟩ := Option.map_eq_some_iff.1 heq
    obtain ⟨rfl, rfl⟩ := Prod.mk.inj heq
    obtain ⟨members, hmembers, rfl⟩ := object?_eq_some.1 hraw
    exact ⟨rfl, members, hmembers ▸ List.mem_zipIdx_iff_getElem?.1 hitem, rfl⟩
  · rintro ⟨rfl, members, hitem, rfl⟩
    exact ⟨(.object members, (ofLex place).2), List.mem_zipIdx_iff_getElem?.2 hitem, rfl⟩

theorem map_snd_recordEntries (position : Nat) (items : List JsonValue) :
    (recordEntries position items).map Prod.snd = objects items := by
  have hsnd : ∀ item : JsonValue × Nat,
      (item.1.object?.map fun raw => (toLex (position, item.2), raw)).map Prod.snd =
        (JsonValue.object? ∘ Prod.fst) item := fun item => by
    rw [Option.map_map]
    exact Option.map_id'
  unfold recordEntries
  rw [List.map_filterMap, funext hsnd, ← List.filterMap_map, List.zipIdx_map_fst,
    objects_eq_filterMap]

theorem pairwise_zipIdx {α : Type} (l : List α) : l.zipIdx.Pairwise (·.2 < ·.2) := by
  rw [← List.pairwise_map, List.zipIdx_map_snd]
  exact List.pairwise_lt_range'

theorem pairwise_recordEntries (position : Nat) (items : List JsonValue) :
    (recordEntries position items).Pairwise (·.1 < ·.1) := by
  unfold recordEntries
  rw [List.pairwise_filterMap]
  refine (pairwise_zipIdx items).imp fun {item item'} hlt entry hentry entry' hentry' => ?_
  obtain ⟨raw, -, rfl⟩ := Option.map_eq_some_iff.1 hentry
  obtain ⟨raw', -, rfl⟩ := Option.map_eq_some_iff.1 hentry'
  exact Prod.Lex.toLex_lt_toLex.2 (.inr ⟨rfl, hlt⟩)

theorem isSome_bind_groupIdText {home : JsonValue} :
    (home.object?.bind groupIdText).isSome ↔ ∃ groupId, IsHome home groupId := by
  simp only [Option.isSome_iff_exists, Option.bind_eq_some_iff, isHome_iff]

theorem mem_entriesOf {place : Nat ×ₗ Nat} :
    (place, raw) ∈ entriesOf records homes.zipIdx ↔ RecordAt homes records place raw := by
  unfold entriesOf RecordAt
  rw [List.mem_flatMap]
  constructor
  · rintro ⟨home, hmem, hraw⟩
    split at hraw
    · rename_i hhome
      obtain ⟨hposition, hraw⟩ := mem_recordEntries.1 hraw
      obtain ⟨groupId, hhome⟩ := isSome_bind_groupIdText.1 hhome
      rw [hposition]
      exact ⟨⟨home.1, groupId, List.mem_zipIdx_iff_getElem?.1 hmem, hhome⟩, hraw⟩
    · cases hraw
  · rintro ⟨⟨home, groupId, hget, hhome⟩, hraw⟩
    refine ⟨(home, (ofLex place).1), List.mem_zipIdx_iff_getElem?.2 hget, ?_⟩
    rw [if_pos (isSome_bind_groupIdText.2 ⟨groupId, hhome⟩)]
    exact mem_recordEntries.2 ⟨rfl, hraw⟩

theorem pairwise_entriesOf : (entriesOf records homes.zipIdx).Pairwise (·.1 < ·.1) := by
  unfold entriesOf
  rw [List.pairwise_flatMap]
  constructor
  · intro home hmem
    split
    · exact pairwise_recordEntries _ _
    · exact .nil
  · refine (pairwise_zipIdx homes).imp fun {home home'} hlt => ?_
    rintro ⟨place, raw⟩ hp ⟨place', raw'⟩ hq
    split at hp
    · split at hq
      · rw [Prod.Lex.lt_iff, (mem_recordEntries.1 hp).1, (mem_recordEntries.1 hq).1]
        exact .inl hlt
      · cases hq
    · cases hp

/-! ## The loop -/

/-- The list holds the first record of each device among the entries, and the ids in it are
the ones marked as seen. -/
structure Collects (wideUpper : Char → List Char)
    (entries : List ((Nat ×ₗ Nat) × JsonObject)) (listed : Listed) : Prop where
  firsts : ∃ kept, kept.map Prod.snd = listed.devices ∧
    Firsts (parseDevice wideUpper) CloudDevice.deviceId entries kept
  seen : ∀ deviceId, deviceId ∈ listed.seen ↔
    deviceId ∈ listed.devices.map CloudDevice.deviceId

variable {entries : List ((Nat ×ₗ Nat) × JsonObject)} {listed : Listed}

variable (wideUpper) in
theorem collects_nil : Collects wideUpper [] {} :=
  ⟨⟨[], rfl, .nil⟩, fun _ => iff_of_false (Finset.notMem_empty _) List.not_mem_nil⟩

theorem deviceIds_of_kept {kept : List ((Nat ×ₗ Nat) × CloudDevice)} {devices : List CloudDevice}
    (h : kept.map Prod.snd = devices) :
    kept.map (fun p => p.2.deviceId) = devices.map CloudDevice.deviceId := by
  rw [← h, List.map_map]
  rfl

/-- One record. -/
theorem Collects.addDevice {place : Nat ×ₗ Nat} (h : Collects wideUpper entries listed)
    (hlast : ∀ e ∈ entries, e.1 < place) (raw : JsonObject) :
    Collects wideUpper (entries ++ [(place, raw)]) (addDevice wideUpper listed raw) := by
  obtain ⟨⟨kept, hkept, hfirsts⟩, hseen⟩ := h
  have hkeys := deviceIds_of_kept hkept
  unfold TuyaBle.addDevice
  split
  · rename_i device hread
    split
    · rename_i hnew
      rw [hseen, ← hkeys] at hnew
      refine ⟨⟨kept ++ [(place, device)], ?_, hfirsts.keep hlast hread hnew⟩, fun deviceId => ?_⟩
      · rw [List.map_append, hkept]
        rfl
      · rw [Finset.mem_insert, hseen, List.map_append, List.mem_append, List.map_singleton,
          List.mem_singleton, or_comm]
    · rename_i hold
      rw [hseen, ← hkeys, not_not] at hold
      exact ⟨⟨kept, hkept, hfirsts.hide hlast hread hold⟩, hseen⟩
  · rename_i hread
    exact ⟨⟨kept, hkept, hfirsts.skip hlast hread⟩, hseen⟩

/-- All the records of a stretch of the listing. -/
theorem Collects.foldl (h : Collects wideUpper entries listed)
    (more : List ((Nat ×ₗ Nat) × JsonObject))
    (hplaces : (entries ++ more).Pairwise (·.1 < ·.1)) :
    Collects wideUpper (entries ++ more)
      ((more.map Prod.snd).foldl (TuyaBle.addDevice wideUpper) listed) := by
  induction more generalizing entries listed with
  | nil =>
    rw [List.append_nil]
    exact h
  | cons e more ih =>
    rw [List.append_cons] at hplaces ⊢
    have hlast : ∀ e' ∈ entries, e'.1 < e.1 := fun e' he' =>
      (List.pairwise_append.1 (List.pairwise_append.1 hplaces).1).2.2 e' he' e
        (List.mem_singleton_self e)
    exact ih (h.addDevice hlast e.2) hplaces

theorem objectsBefore_cons (item : JsonValue) (items : List JsonValue) (position : Nat) :
    objectsBefore (item :: items) (position + 1) =
      (if item.object?.isSome then 1 else 0) + objectsBefore items position := by
  unfold objectsBefore
  rw [List.take_succ_cons, List.countP_cons, Nat.add_comm]
  cases item <;> rfl

/-- The loop over a stretch of the answer, when every home that is asked for answers. -/
theorem listHomes_eq_foldl {P : CloudPrimitives} {gateway : Gateway} {account : AccountSession}
    {devices : Nat → Exchange} {start number : Nat}
    (h : ∀ position home groupId, homes[position]? = some home → IsHome home groupId →
      asyncCallObjectList P gateway (devices (number + objectsBefore homes position))
        (devicesCall account groupId) = .ok (objects (records (start + position))))
    (listed : Listed) :
    listHomes wideUpper P gateway account devices ((objects homes).zipIdx number) listed =
      .ok (((entriesOf records (homes.zipIdx start)).map Prod.snd).foldl (addDevice wideUpper)
        listed) := by
  induction homes generalizing start number listed with
  | nil => rfl
  | cons home homes ih =>
    have hrest : ∀ position home' groupId, homes[position]? = some home' →
        IsHome home' groupId →
        asyncCallObjectList P gateway
          (devices (number + (if home.object?.isSome then 1 else 0) + objectsBefore homes position))
          (devicesCall account groupId) = .ok (objects (records (start + 1 + position))) := by
      intro position home' groupId hget hhome
      rw [Nat.add_assoc, ← objectsBefore_cons, Nat.add_assoc, Nat.add_comm 1 position]
      exact h (position + 1) home' groupId hget hhome
    rw [entriesOf, List.zipIdx_cons, List.flatMap_cons, objects_eq_filterMap]
    cases hobject : home.object? with
    | none =>
      rw [hobject] at hrest
      rw [List.filterMap_cons_none hobject, ← objects_eq_filterMap]
      exact ih hrest listed
    | some raw =>
      rw [hobject] at hrest
      rw [List.filterMap_cons_some hobject, ← objects_eq_filterMap, List.zipIdx_cons, listHomes]
      cases hgroup : groupIdText raw with
      | none =>
        simp only [Option.bind_some, hgroup]
        exact ih hrest listed
      | some groupId =>
        have hrecords := h 0 home groupId rfl (isHome_iff.2 ⟨raw, hobject, hgroup⟩)
        rw [Nat.add_zero] at hrecords
        simp only [Option.bind_some, hgroup, Option.isSome_some, ↓reduceIte, List.map_append,
          map_snd_recordEntries, List.foldl_append]
        rw [show number + objectsBefore (home :: homes) 0 = number from rfl] at hrecords
        simp only [hrecords, bind, Except.bind]
        exact ih hrest _

theorem flatMap_zipIdx {α β : Type} (f : α → List β) (l : List α) :
    (l.zipIdx.flatMap fun a => f a.1) = l.flatMap f := by
  rw [← List.flatMap_map Prod.fst f, List.zipIdx_map_fst]

/-- The records that the loop goes through when every home is answered alike. -/
theorem map_snd_entriesOf (devices homes : List JsonValue) :
    (entriesOf (fun _ => devices) homes.zipIdx).map Prod.snd =
      (objects homes).zipIdx.flatMap fun home =>
        if (groupIdText home.1).isSome then objects devices else [] := by
  have hrecords : ∀ home : JsonValue × Nat,
      (if (home.1.object?.bind groupIdText).isSome then recordEntries home.2 devices
        else []).map Prod.snd =
      if (home.1.object?.bind groupIdText).isSome then objects devices else [] := fun home => by
    split
    · exact map_snd_recordEntries _ _
    · rfl
  unfold entriesOf
  rw [List.map_flatMap, funext hrecords,
    flatMap_zipIdx fun home : JsonValue =>
      if (home.object?.bind groupIdText).isSome then objects devices else [],
    flatMap_zipIdx fun raw => if (groupIdText raw).isSome then objects devices else [],
    objects_eq_filterMap homes]
  induction homes with
  | nil => rfl
  | cons home homes ih =>
    cases hobject : home.object? with
    | none =>
      rw [List.filterMap_cons_none hobject, List.flatMap_cons, hobject, ih]
      rfl
    | some raw =>
      rw [List.filterMap_cons_some hobject, List.flatMap_cons, List.flatMap_cons, hobject, ih]
      rfl

/-- What the loop has listed in the end. -/
theorem collects_entriesOf (wideUpper : Char → List Char) (homes : List JsonValue)
    (records : Nat → List JsonValue) :
    Collects wideUpper (entriesOf records homes.zipIdx)
      (((entriesOf records homes.zipIdx).map Prod.snd).foldl (TuyaBle.addDevice wideUpper) {}) := by
  have hcollects := (collects_nil wideUpper).foldl (entriesOf records homes.zipIdx)
  rw [List.nil_append] at hcollects
  exact hcollects pairwise_entriesOf

/-- What is collected from all the places is the union of the homes. -/
theorem Collects.losslessUnion (h : Collects wideUpper (entriesOf records homes.zipIdx) listed) :
    LosslessUnion wideUpper homes records listed.devices := by
  obtain ⟨⟨kept, hkept, hfirsts⟩, -⟩ := h
  have hkeys := deviceIds_of_kept hkept
  refine ⟨hkeys ▸ hfirsts.nodup, fun deviceId => ?_, kept, hkept, hfirsts.ordered, ?_⟩
  · rw [← hkeys, hfirsts.mem_keys_iff]
    constructor
    · rintro ⟨⟨place, raw⟩, hmem, hread⟩
      exact ⟨place, raw, mem_entriesOf.1 hmem, (carries_iff wideUpper).2 hread⟩
    · rintro ⟨place, raw, hmem, hcarries⟩
      exact ⟨(place, raw), mem_entriesOf.2 hmem, (carries_iff wideUpper).1 hcarries⟩
  · intro p hp
    obtain ⟨⟨raw, hmem, hread⟩, hearlier⟩ := hfirsts.first p hp
    refine ⟨⟨raw, mem_entriesOf.1 hmem, parseDevice_carries hread, hread⟩, ?_⟩
    intro earlier raw' hlt hmem' hcarries
    obtain ⟨device, hread', hsame⟩ := (carries_iff wideUpper).1 hcarries
    exact hearlier _ (mem_entriesOf.2 hmem') hlt device hread' hsame

/-! ## The listing -/

theorem asyncLogin_gateway (P : CloudPrimitives) (client : TuyaBleCloudClient)
    (tokenExchange loginExchange : Exchange) :
    (asyncLogin P client tokenExchange loginExchange).2.gateway = client.gateway := by
  unfold asyncLogin
  split
  · rfl
  · split <;> rfl

theorem heldAccount_gateway (P : CloudPrimitives) (client : TuyaBleCloudClient)
    (exchanges : ListExchanges) : (heldAccount P client exchanges).2.gateway = client.gateway := by
  unfold heldAccount
  split
  · rfl
  · exact asyncLogin_gateway P client _ _

/-- The listing lists what the loop over the answers lists. -/
theorem asyncListDevices_eq_foldl {P : CloudPrimitives} {client : TuyaBleCloudClient}
    {exchanges : ListExchanges} {account : AccountSession}
    (hheld : (heldAccount P client exchanges).1 = .ok account)
    (hhomes : asyncCall P client.gateway exchanges.homes (homesCall account) =
      .ok (.array homes))
    (hrecords : ∀ position home groupId, homes[position]? = some home → IsHome home groupId →
      asyncCall P client.gateway (exchanges.devices (objectsBefore homes position))
        (devicesCall account groupId) = .ok (.array (records position))) :
    (asyncListDevices wideUpper P client exchanges).1 =
      .ok (((entriesOf records homes.zipIdx).map Prod.snd).foldl (TuyaBle.addDevice wideUpper)
        {}).devices := by
  have hloop : listHomes wideUpper P client.gateway account exchanges.devices
      ((objects homes).zipIdx 0) {} =
        .ok (((entriesOf records (homes.zipIdx 0)).map Prod.snd).foldl
          (TuyaBle.addDevice wideUpper) {}) :=
    listHomes_eq_foldl (fun position home groupId hget hhome => by
      rw [Nat.zero_add, Nat.zero_add]
      exact asyncCallObjectList_array (hrecords position home groupId hget hhome)) {}
  unfold asyncListDevices
  simp only [hheld, heldAccount_gateway, bind, Except.bind, asyncCallObjectList_array hhomes, hloop]
  rfl

namespace FakeGateway

def listingClient : TuyaBleCloudClient := { recordedClient with account := some accountSession }

def listingExchanges : ListExchanges where
  token := recordedTokenExchange
  login := recordedLoginExchange
  homes := homeListExchange
  devices position := if position = 0 then firstListExchange else secondListExchange

def listingRecords (position : Nat) : List JsonValue :=
  if position = 0 then firstList else secondList

theorem objectsBefore_homeList {position : Nat} (h : position < homeList.length) :
    objectsBefore homeList position = position := by
  have hall : ∀ position < homeList.length, objectsBefore homeList position = position := by
    decide
  exact hall position h

def livingRoomLight : CloudDevice where
  deviceId := "ebe1f9b8f5d0732236bsli"
  localKey := "CtN[u^c4j\x7d@=uf-Q"
  uuid := "c4a5ce0d553e28fa"
  mac := "4CA919C0AF72"
  productId := some "4tjsokgxfdetovsd"
  name := "Living room light"

def soilSensor : CloudDevice where
  deviceId := "ebc0496t9ektfzip"
  localKey := "-xGE=f(253=Zziu-"
  uuid := "792e1bd35df2d02e"
  mac := "DC2351E5D13A"
  productId := some "gvygg3m8"
  name := "Soil sensor"

/-- A call of the listing returns the recorded result. -/
theorem asyncCall_listing (body : Recording) {result : JsonValue} {call : GatewayCall}
    {requestId : String} {nonce : Nonce} (h : body ∈ listingRecordings)
    (hkey : callKey listingPrimitives {} (exchangeOf requestId nonce body) call = body.val.key)
    (hbody : (body.val.plaintext, .object [("result", result)]) ∈ listingDocuments)
    (henvelope : envelope body ∈ listingDocuments) (hresult : result ≠ .null) :
    asyncCall listingPrimitives {} (exchangeOf requestId nonce body) call = .ok result := by
  have hdump : dumpJson listingPrimitives.toJsonText call.post =
      .ok (encodeUtf8 (dumpText call.post)) := rfl
  have hanswers := answers_listing body h hbody henvelope
  rw [← hkey] at hanswers
  exact asyncCall_answer (callForm_of_dumpJson _ _ hdump) rfl hanswers hresult

theorem asyncCall_token :
    asyncCall listingPrimitives {} recordedTokenExchange (tokenCall recordedClient) =
      .ok (.object loginToken) :=
  asyncCall_listing tokenAnswer (by simp [listingRecordings, recordings]) (by decide +kernel)
    (List.mem_of_getElem? (i := 9) rfl) (List.mem_of_getElem? (i := 15) rfl) (by rintro ⟨⟩)

theorem asyncCall_login {call : GatewayCall} (h : call.account = none) :
    asyncCall listingPrimitives {} recordedLoginExchange call = .ok (.object accountObject) := by
  have hkey : callKey listingPrimitives {} recordedLoginExchange call = loginAnswer.val.key := by
    have hpre : preLoginBodyKey listingPrimitives loginRequestId defaultCompositeKey =
        loginAnswer.val.key := by decide +kernel
    rw [callKey, h]
    exact hpre
  exact asyncCall_listing loginAnswer (by simp [listingRecordings, recordings]) hkey
    (List.mem_of_getElem? (i := 11) rfl) (List.mem_of_getElem? (i := 17) rfl) (by rintro ⟨⟩)

theorem loginCall_listing : ∃ call,
    loginCall listingPrimitives recordedClient (.ofPairs loginToken) = .ok call ∧
      call.account = none := by
  have hpassword : encodeUtf8 (md5Hex listingPrimitives recordedClient.password) =
      encodeUtf8 "3cb4e732631f47e6eb961f34554b7cde" := by decide +kernel
  have hrsa : listingPrimitives.encryptRsa 65537 modulus
      (encodeUtf8 (md5Hex listingPrimitives recordedClient.password)) = .ok encryptedPassword :=
    encryptRsa_modulus hpassword
  have hexponent : intOfText exponent = .ok 65537 := by decide +kernel
  have hencrypt : encryptPassword listingPrimitives publicKey exponent
      (md5Hex listingPrimitives recordedClient.password) = .ok (hex encryptedPassword) := by
    unfold encryptPassword
    rw [hexponent, intOfText_publicKey]
    simp only [bind, Except.bind, hrsa]
    rfl
  have hmodulus : requireStr (.ofPairs loginToken) "publicKey" = .ok publicKey :=
    requireStr_eq_ok.2 (optionalStr_eq_some.2 ⟨rfl, toString_ne_empty _⟩)
  have hexp : requireStr (.ofPairs loginToken) "exponent" = .ok exponent := rfl
  have htoken : requireStr (.ofPairs loginToken) "token" = .ok "token-3456" := rfl
  obtain ⟨call, hcall⟩ : ∃ call,
      loginCall listingPrimitives recordedClient (.ofPairs loginToken) = .ok call :=
    ⟨_, Except.bind_eq_ok.2 ⟨_, hmodulus, Except.bind_eq_ok.2 ⟨_, hexp,
      Except.bind_eq_ok.2 ⟨_, hencrypt, Except.bind_eq_ok.2 ⟨_, htoken, rfl⟩⟩⟩⟩⟩
  exact ⟨call, hcall, account_of_loginCall hcall⟩

theorem asyncCall_homeList :
    asyncCall listingPrimitives {} homeListExchange (homesCall accountSession) =
      .ok (.array homeList) :=
  asyncCall_listing homeListAnswer (by simp [listingRecordings]) (by decide +kernel)
    (by simp [listingDocuments]) (by simp [listingDocuments]) (by rintro ⟨⟩)

theorem asyncCall_firstList (groupId : String) :
    asyncCall listingPrimitives {} firstListExchange (devicesCall accountSession groupId) =
      .ok (.array firstList) :=
  have hkey : bodyKey listingPrimitives deviceListRequestId accountSession.ecode
      defaultCompositeKey = firstListAnswer.val.key := by decide +kernel
  asyncCall_listing firstListAnswer (by simp [listingRecordings]) hkey
    (by simp [listingDocuments]) (by simp [listingDocuments]) (by rintro ⟨⟩)

theorem asyncCall_secondList (groupId : String) :
    asyncCall listingPrimitives {} secondListExchange (devicesCall accountSession groupId) =
      .ok (.array secondList) :=
  have hkey : bodyKey listingPrimitives secondListRequestId accountSession.ecode
      defaultCompositeKey = secondListAnswer.val.key := by decide +kernel
  asyncCall_listing secondListAnswer (by simp [listingRecordings]) hkey
    (by simp [listingDocuments]) (by simp [listingDocuments]) (by rintro ⟨⟩)

theorem asyncCall_listingRecords (position : Nat) (groupId : String) :
    asyncCall listingPrimitives {} (listingExchanges.devices position)
      (devicesCall accountSession groupId) = .ok (.array (listingRecords position)) := by
  by_cases h : position = 0
  · simp only [listingExchanges, listingRecords, h, ↓reduceIte]
    exact asyncCall_firstList groupId
  · simp only [listingExchanges, listingRecords, h, ↓reduceIte]
    exact asyncCall_secondList groupId

end FakeGateway

/-- **A listing is a lossless union of the homes.** When the homes and the records of each home
with an integer group id are answered with lists, it returns every device that some record has
the credentials of, once, as the first such record says, in the order of these records. -/
theorem asyncListDevices_lossless (wideUpper : Char → List Char) (P : CloudPrimitives)
    (client : TuyaBleCloudClient) (exchanges : ListExchanges) (account : AccountSession)
    (homes : List JsonValue) (records : Nat → List JsonValue)
    (hheld : (heldAccount P client exchanges).1 = .ok account)
    (hhomes : asyncCall P client.gateway exchanges.homes (homesCall account) =
      .ok (.array homes))
    (hrecords : ∀ position home groupId, homes[position]? = some home → IsHome home groupId →
      asyncCall P client.gateway (exchanges.devices (objectsBefore homes position))
        (devicesCall account groupId) = .ok (.array (records position))) :
    ∃ devices, (asyncListDevices wideUpper P client exchanges).1 = .ok devices ∧
      LosslessUnion wideUpper homes records devices :=
  ⟨_, asyncListDevices_eq_foldl hheld hhomes hrecords,
    (collects_entriesOf wideUpper homes records).losslessUnion⟩

open FakeGateway in
/-- The listing of an account with one home listed twice: the home in between has no id, and
the first record of the sensor no key. -/
theorem asyncListDevices_recorded :
    (asyncListDevices (fun c => [c]) listingPrimitives listingClient listingExchanges).1 =
        .ok [livingRoomLight, soilSensor] ∧
      LosslessUnion (fun c => [c]) homeList listingRecords [livingRoomLight, soilSensor] := by
  have hrecords : ∀ position home groupId, homeList[position]? = some home →
      IsHome home groupId →
      asyncCall listingPrimitives {}
        (listingExchanges.devices (objectsBefore homeList position))
        (devicesCall accountSession groupId) = .ok (.array (listingRecords position)) := by
    intro position home groupId hget hhome
    have hnumber := objectsBefore_homeList (List.getElem?_eq_some_iff.1 hget).1
    rw [hnumber]
    exact asyncCall_listingRecords position groupId
  obtain ⟨devices, hdevices, hunion⟩ := asyncListDevices_lossless (fun c => [c])
    listingPrimitives listingClient listingExchanges accountSession homeList listingRecords rfl
    asyncCall_homeList hrecords
  have hlisted : (((entriesOf listingRecords homeList.zipIdx).map Prod.snd).foldl
      (addDevice fun c => [c]) {}).devices = [livingRoomLight, soilSensor] := by decide +kernel
  have heq := hdevices.symm.trans (asyncListDevices_eq_foldl rfl asyncCall_homeList hrecords)
  obtain rfl := (Except.ok.inj heq).trans hlisted
  exact ⟨hdevices, hunion⟩

end TuyaBle
