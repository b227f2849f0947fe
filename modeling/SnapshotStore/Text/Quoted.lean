import SnapshotStore.Data.Bytes
import SnapshotStore.Text.Extender
import SnapshotStore.Text.Printable

namespace SnapshotStore.Text

def hexDigit (n : Nat) : Char :=
  if n < 10 then Char.ofNat (48 + n) else Char.ofNat (87 + n)

def hexByte (b : UInt8) : List Char :=
  [hexDigit (b.toNat / 16), hexDigit (b.toNat % 16)]

def hex (bs : Bytes) : String :=
  bs.foldl (fun s b => (s.push (hexDigit (b.toNat / 16))).push (hexDigit (b.toNat % 16))) ""

def hexNat (n : Nat) : String :=
  String.ofList (Nat.toDigits 16 n)

def hexHalf (x : UInt32) : String :=
  let digits := Nat.toDigits 16 x.toNat
  "0x" ++ String.ofList (List.replicate (8 - digits.length) '0' ++ digits)

/-- Escapes that byte strings and texts share. -/
def escape? : Char → Option (List Char)
  | '\n' => some ['\\', 'n']
  | '\r' => some ['\\', 'r']
  | '\t' => some ['\\', 't']
  | '\\' => some ['\\', '\\']
  | '"' => some ['\\', '"']
  | '\x00' => some ['\\', '0']
  | _ => none

def quoteByte (b : UInt8) : List Char :=
  let c := Char.ofNat b.toNat
  match escape? c with
  | some cs => cs
  | none => if 0x20 ≤ b ∧ b < 0x7f then [c] else '\\' :: 'x' :: hexByte b

def quoteBytes (bs : Bytes) : String :=
  (bs.foldl (fun s b => (quoteByte b).foldl String.push s) "b\"").push '"'

/-- A character stands for itself if it can be seen on its own; it does not if it is unprintable or
would join the character before it. -/
def isPlain (c : Char) : Bool := isPrintable c && !isExtender c

/-- Characters that are not plain are written by their code points. -/
def quoteChar (c : Char) : List Char :=
  match escape? c with
  | some cs => cs
  | none => if isPlain c then [c] else '\\' :: 'u' :: '{' :: (Nat.toDigits 16 c.toNat ++ ['}'])

def quote (s : String) : String :=
  String.ofList ('"' :: (s.toList.flatMap quoteChar ++ ['"']))

end SnapshotStore.Text
