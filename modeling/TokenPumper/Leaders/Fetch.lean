import TokenPumper.Lib.Interning
import TokenPumper.Keys.World
import TokenPumper.Leaders.Cache

namespace TokenPumper
open Interning
set_option autoImplicit true

structure EpochInfo where
  epoch : UInt64
  slotIndex : UInt64
  slotsInEpoch : UInt64
  absoluteSlot : UInt64
deriving DecidableEq, Repr

/-- The slots of every identity, in the order in which the map is walked. -/
structure Schedule where
  entries : List (String × List UInt32)
  nodup : (entries.map Prod.fst).Nodup

def Schedule.keys (schedule : Schedule) : List String := schedule.entries.map Prod.fst

structure VoteAccount where
  nodePubkey : String
  votePubkey : String
deriving DecidableEq, Repr

structure VoteAccountsResult where
  current : List VoteAccount
  delinquent : List VoteAccount
deriving DecidableEq, Repr

structure VAppEntryWire where
  account : Option String
  dataCenterKey : Option String
  isDz : Option Bool
  softwareClient : Option String
deriving DecidableEq, Repr

inductive VAppResponse
  | array (validators : List VAppEntryWire)
  | wrapped (validators : List VAppEntryWire)
deriving DecidableEq, Repr

def VAppResponse.list : VAppResponse → List VAppEntryWire
  | .array validators => validators
  | .wrapped validators => validators

structure ValidatorMeta where
  votePubkey : Option String := none
  country : Option String := none
  isDz : Option Bool := none
  softwareClient : Option String := none
deriving DecidableEq, Repr

abbrev Metas := String → Option ValidatorMeta

/-- `entry(key).or_default()`, changed. -/
def Metas.entry (metas : Metas) (key : String) (change : ValidatorMeta → ValidatorMeta) : Metas :=
  fun identity => if identity = key then some (change ((metas key).getD {})) else metas identity

/-- The second part between the dashes of a data center key. -/
def parseCountry (dataCenterKey : String) : Option String :=
  match Text.split '-' dataCenterKey.toList with
  | _ :: cc :: _ => if cc = [] then none else some (String.ofList cc)
  | _ => none

def trimmedClient (name : String) : Option String :=
  let trimmed := Text.trim name.toList
  if trimmed = [] then none else some (String.ofList trimmed)

def VAppEntryWire.country (v : VAppEntryWire) : Option String := v.dataCenterKey.bind parseCountry

def VAppEntryWire.client (v : VAppEntryWire) : Option String :=
  v.softwareClient.bind trimmedClient

/-- Only what an entry has replaces what is there, but for `isDz`. -/
def ValidatorMeta.merge (entry : ValidatorMeta) (v : VAppEntryWire) : ValidatorMeta where
  votePubkey := entry.votePubkey
  country := v.country.or entry.country
  isDz := v.isDz
  softwareClient := v.client.or entry.softwareClient

def mergeVote (metas : Metas) (accounts : List VoteAccount) : Metas :=
  accounts.foldl (fun metas v =>
    metas.entry v.nodePubkey fun entry => { entry with votePubkey := some v.votePubkey }) metas

def mergeVApp (metas : Metas) (validators : List VAppEntryWire) : Metas :=
  validators.foldl (fun metas v =>
    match v.account with
    | none => metas
    | some account => metas.entry account fun entry => entry.merge v) metas

/-- Number the names that the scheduled validators have in one of the fields. -/
def internField (limit : Nat) (what : String) (field : ValidatorMeta → Option String)
    (metas : Metas) (keys : List String) : Except Failure (Table String) :=
  internAll limit (fun name n => .error
      [s!"more than {limit} distinct {what} in leader schedule (saw {Text.debug name} as #{n})"])
    .empty (keys.filterMap fun identity => (metas identity).bind field)

def regionTable (metas : Metas) (keys : List String) : Except Failure (Table String) :=
  internField maxRegions "regions" (·.country) metas keys

def softwareClientTable (metas : Metas) (keys : List String) : Except Failure (Table String) :=
  internField maxSoftwareClients "software clients" (·.softwareClient) metas keys

/-- The code of a validator's name in the table, as the byte that it is stored as. -/
def codeIn (table : Table String) (field : ValidatorMeta → Option String) (metas : Metas)
    (identity : String) : Option UInt8 :=
  (((metas identity).bind field).bind table.code).map UInt8.ofNat

structure ValidatorOut where
  pubkey : String
  votekey : Option String
  region : Option UInt8
  isDz : Bool
  softwareClient : Option UInt8
deriving DecidableEq, Repr

structure EpochLeaderMapFile where
  epoch : UInt64
  epochStartSlot : UInt64
  epochEndSlot : UInt64
  slotsInEpoch : UInt64
  fetchedAtUnixSecs : UInt64
  regions : List String
  softwareClients : List String
  validators : List ValidatorOut
  slots : List UInt8
deriving DecidableEq, Repr

def validatorOut (metas : Metas) (regions softwareClients : Table String) (identity : String) :
    ValidatorOut where
  pubkey := identity
  votekey := (metas identity).bind (·.votePubkey)
  region := codeIn regions (·.country) metas identity
  isDz := ((metas identity).bind (·.isDz)).getD false
  softwareClient := codeIn softwareClients (·.softwareClient) metas identity

def fillSlots (code : UInt8) (slotIndices : List UInt32) (slots : List UInt8) : List UInt8 :=
  slotIndices.foldl (fun slots i => if i.toNat < slots.length then slots.set i.toNat code else slots)
    slots

def slotTable (code : String → UInt8) (entries : List (String × List UInt32))
    (slots : List UInt8) : List UInt8 :=
  entries.foldl (fun slots entry => fillSlots (code entry.1) entry.2 slots) slots

/-- `vec![byte; n]`, which panics if the vector would be larger than an address can say. -/
def filledVec (byte : UInt8) (n : UInt64) : Except Failure (List UInt8) :=
  if 2 ^ 63 ≤ n.toNat then .error .panic else .ok (List.replicate n.toNat byte)

/-- What the fetcher has when it begins to stitch. -/
structure Fetched where
  epochInfo : EpochInfo
  schedule : Schedule
  vote : VoteAccountsResult
  vapp : VAppResponse

def Fetched.metas (f : Fetched) : Metas :=
  mergeVApp (mergeVote (fun _ => none) (f.vote.current ++ f.vote.delinquent)) f.vapp.list

/-- A release build wraps the sums. -/
def Fetched.epochStartSlot (f : Fetched) : UInt64 :=
  f.epochInfo.absoluteSlot - f.epochInfo.slotIndex

def Fetched.epochEndSlot (f : Fetched) : UInt64 := f.epochStartSlot + f.epochInfo.slotsInEpoch - 1

/-- The document that is written, from the tables and the slots as they are before any is led. -/
def Fetched.document (f : Fetched) (regions softwareClients : Table String) (slots : List UInt8)
    (fetchedAtUnixSecs : UInt64) : EpochLeaderMapFile where
  epoch := f.epochInfo.epoch
  epochStartSlot := f.epochStartSlot
  epochEndSlot := f.epochEndSlot
  slotsInEpoch := f.epochInfo.slotsInEpoch
  fetchedAtUnixSecs
  regions := regions.names
  softwareClients := softwareClients.names
  validators := f.schedule.keys.map (validatorOut f.metas regions softwareClients)
  slots := slotTable
    (fun identity => (codeIn regions (·.country) f.metas identity).getD unknownRegionCode)
    f.schedule.entries slots

def Fetched.file (f : Fetched) (fetchedAtUnixSecs : UInt64) :
    Except Failure EpochLeaderMapFile := do
  let regions ← regionTable f.metas f.schedule.keys
  let softwareClients ← softwareClientTable f.metas f.schedule.keys
  let slots ← filledVec unknownRegionCode f.epochInfo.slotsInEpoch
  pure (f.document regions softwareClients slots fetchedAtUnixSecs)

def ValidatorOut.wire (v : ValidatorOut) : ValidatorWire where
  pubkey := v.pubkey
  votekey := v.votekey
  region := v.region
  isDz := some v.isDz
  softwareClient := v.softwareClient

/-- What the loader's types take from the fetcher's: a field that is skipped when it is empty reads
as empty, and the time of the fetch is not read. -/
def EpochLeaderMapFile.wire (file : EpochLeaderMapFile) : EpochLeaderMapWire where
  epoch := file.epoch
  epochStartSlot := file.epochStartSlot
  epochEndSlot := file.epochEndSlot
  slotsInEpoch := file.slotsInEpoch
  regions := file.regions
  softwareClients := file.softwareClients
  validators := file.validators.map ValidatorOut.wire
  slots := file.slots

end TokenPumper
