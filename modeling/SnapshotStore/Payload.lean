import SnapshotStore.Data.Bytes
import SnapshotStore.Data.Word
import SnapshotStore.Id
import SnapshotStore.Text.Quoted

namespace SnapshotStore.Payload

/-- Bytes around the body: the key, a sequence number and the checksum. -/
def overhead : Nat := 20

variable (hash : Bytes → UInt32)

/-- A payload that can be checked on its own; the checksum covers all that stands before it. -/
def stamp (key : Key) (seq : UInt64) (body : Bytes) : Bytes :=
  let data := Bytes.ofWord key ++ (Bytes.ofWord seq ++ body)
  data ++ Bytes.ofHalf (hash data)

def pattern (seq : UInt64) (n : Nat) : Bytes :=
  (List.range n).map fun i => seq.toUInt8 + UInt8.ofNat i

/-- A stamped payload of `len` bytes, or of the least possible length. -/
def encode (key : Key) (seq : UInt64) (len : Nat) : Bytes :=
  stamp hash key seq (pattern seq (len - overhead))

/-- The same in a buffer of its own, which may not be as long as asked for. -/
def tryEncode (key : Key) (seq : UInt64) (len : Nat) : Except Overflow Bytes :=
  (Word.capacity (max len overhead)).map fun _ => encode hash key seq len

inductive Defect where
  | tooShort (len : Nat)
  | checksum (stored computed : UInt32)
  | misfiled (owner found : Key)
  deriving DecidableEq, Repr

def Defect.message : Defect → String
  | .tooShort len => "payload of " ++ toString len ++ " bytes is too short"
  | .checksum stored computed =>
    "crc mismatch: stored " ++ Text.hexHalf stored ++ ", computed " ++ Text.hexHalf computed
  | .misfiled owner found =>
    "payload belongs to key " ++ toString owner ++ ", found under " ++ toString found

/-- The sequence number of a sound payload of `key`. -/
def verify (key : Key) (payload : Bytes) : Except Defect UInt64 :=
  let len := payload.length
  if len < overhead then
    .error (.tooShort len)
  else
    let data := payload.take (len - 4)
    let stored := Bytes.toHalf (payload.drop (len - 4))
    let computed := hash data
    if stored ≠ computed then
      .error (.checksum stored computed)
    else
      let owner := Bytes.toWord (data.take 8)
      if owner ≠ key then
        .error (.misfiled owner key)
      else
        .ok (Bytes.toWord ((data.drop 8).take 8))

/-- Why a reader stops without a verdict. -/
inductive Trap where
  | arithmetic (why : Overflow)
  | range (stop len : Nat)
  deriving DecidableEq, Repr

def Trap.message : Trap → String
  | .arithmetic why => why.message
  | .range stop len =>
    "range end index " ++ toString stop ++ " out of range for slice of length " ++ toString len

def range (bs : Bytes) (start stop : Nat) : Except Trap Bytes :=
  if start ≤ stop ∧ stop ≤ bs.length then .ok ((bs.drop start).take (stop - start))
  else .error (.range stop bs.length)

/-- The same verdict, with each bound looked at where the bytes are read. -/
def tryVerify (key : Key) (payload : Bytes) : Except Trap (Except Defect UInt64) := do
  let len := payload.length
  if len < overhead then
    return .error (.tooShort len)
  let mid ← (Word.sub len 4).mapError .arithmetic
  let data ← range payload 0 mid
  let crc ← range payload mid len
  let stored := Bytes.toHalf (← range crc 0 4)
  let computed := hash data
  if stored ≠ computed then
    return .error (.checksum stored computed)
  let owner := Bytes.toWord (← range data 0 8)
  if owner ≠ key then
    return .error (.misfiled owner key)
  return .ok (Bytes.toWord (← range data 8 16))

end SnapshotStore.Payload
