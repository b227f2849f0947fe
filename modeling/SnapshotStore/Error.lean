import SnapshotStore.Data.Word
import SnapshotStore.Id
import SnapshotStore.Text.Quoted

namespace SnapshotStore

/-- A transfer touched foreign memory that is not mapped. -/
structure CopyFault where
  addr : Address
  len : Nat
  deriving DecidableEq, Repr

namespace CopyFault

def place (f : CopyFault) : String :=
  "fault at 0x" ++ Text.hexNat f.addr.toNat ++ " (" ++ toString f.len ++ " bytes)"

def message (f : CopyFault) : String := "copy " ++ f.place

end CopyFault

/-- What is wrong with an argument; `note` is a reason in a caller's own words. -/
inductive ArgumentCause where
  | payloadTooLong (len limit : Nat)
  | offsetOutside (offset len : Nat)
  | tooLittleRoom (room needed : Nat)
  | slotOutside (slot room : Nat)
  | note (text : String)
  deriving DecidableEq, Repr

def ArgumentCause.text : ArgumentCause → String
  | .payloadTooLong len limit =>
    "payload of " ++ toString len ++ " bytes exceeds limit of " ++ toString limit
  | .offsetOutside offset len =>
    "offset " ++ toString offset ++ " outside entry of " ++ toString len ++ " bytes"
  | .tooLittleRoom room needed =>
    "destination holds " ++ toString room ++ " elements, " ++ toString needed ++ " required"
  | .slotOutside slot room =>
    "key slot " ++ toString slot ++ " outside destination of " ++ toString room
  | .note text => text

inductive ResourceCause where
  | groupsAllocated (limit : Nat)
  | note (text : String)
  deriving DecidableEq, Repr

def ResourceCause.text : ResourceCause → String
  | .groupsAllocated limit => "all " ++ toString limit ++ " groups are allocated"
  | .note text => text

/-- Why a buffer was refused: it is longer than any buffer may be, or there is no memory for it. -/
inductive Refusal where
  | capacity
  | allocator
  deriving DecidableEq, Repr

def Refusal.text : Refusal → String
  | .capacity => "because the computed capacity exceeded the collection's maximum"
  | .allocator => "because the memory allocator returned an error"

inductive MemoryCause where
  | payload (len : Nat) (refusal : Refusal)
  | index (size : Nat) (refusal : Refusal)
  | note (text : String)
  deriving DecidableEq, Repr

def MemoryCause.text : MemoryCause → String
  | .payload len refusal =>
    "payload of " ++ toString len ++ " bytes: memory allocation failed " ++ refusal.text
  | .index size refusal =>
    "index of " ++ toString size ++ " entries: memory allocation failed " ++ refusal.text
  | .note text => text

inductive ConfigCause where
  | groupLimit (limit given : Nat)
  | workloadGroups (limit given : Nat)
  | workloadTooSmall (payload : Nat)
  | note (text : String)
  deriving DecidableEq, Repr

def ConfigCause.text : ConfigCause → String
  | .groupLimit limit given =>
    "max_groups must be between 1 and " ++ toString limit ++ ", got " ++ toString given
  | .workloadGroups limit given =>
    "stress groups must be between 1 and " ++ toString limit ++ ", got " ++ toString given
  | .workloadTooSmall payload =>
    "stress needs at least one key and payloads of " ++ toString payload ++ " bytes or more"
  | .note text => text

/-- Every failure belongs to the call that raised it and comes before the call changes anything. -/
inductive StoreError where
  | groupNotFound (group : GroupId)
  | keyNotFound (group : GroupId) (key : Key)
  | invalidArgument (cause : ArgumentCause)
  | resourceExhausted (cause : ResourceCause)
  | outOfMemory (cause : MemoryCause)
  | copyFault (fault : CopyFault)
  | config (cause : ConfigCause)
  deriving DecidableEq, Repr

inductive ErrorKind where
  | notFound
  | invalidArgument
  | resourceExhausted
  | outOfMemory
  | copyFault
  | config
  deriving DecidableEq, Repr

namespace StoreError

def kind : StoreError → ErrorKind
  | .groupNotFound _ | .keyNotFound _ _ => .notFound
  | .invalidArgument _ => .invalidArgument
  | .resourceExhausted _ => .resourceExhausted
  | .outOfMemory _ => .outOfMemory
  | .copyFault _ => .copyFault
  | .config _ => .config

def isNotFound (e : StoreError) : Bool := e.kind = .notFound

def message : StoreError → String
  | .groupNotFound group => "Group " ++ group.text ++ " is not allocated"
  | .keyNotFound group key => "Key " ++ toString key ++ " not found in group " ++ group.text
  | .invalidArgument cause => "Invalid argument: " ++ cause.text
  | .resourceExhausted cause => "Resource exhausted: " ++ cause.text
  | .outOfMemory cause => "Out of memory: " ++ cause.text
  | .copyFault fault => "Copy " ++ fault.place
  | .config cause => "Configuration error: " ++ cause.text

def outline : StoreError → Outline
  | .groupNotFound group => .tuple "GroupNotFound" [group.outline]
  | .keyNotFound group key => .record "KeyNotFound" [("group", group.outline), ("key", .word key)]
  | .invalidArgument cause => .tuple "InvalidArgument" [.atom (Text.quote cause.text)]
  | .resourceExhausted cause => .tuple "ResourceExhausted" [.atom (Text.quote cause.text)]
  | .outOfMemory cause => .tuple "OutOfMemory" [.atom (Text.quote cause.text)]
  | .copyFault fault => .record "CopyFault" [("addr", .word fault.addr), ("len", .nat fault.len)]
  | .config cause => .tuple "Config" [.atom (Text.quote cause.text)]

end StoreError

/-- Why something was not set up: its parameters were refused, or its sizes do not fit a word. -/
inductive SetupFailure where
  | refused (e : StoreError)
  | overflow (o : Overflow)
  deriving DecidableEq, Repr

end SnapshotStore
