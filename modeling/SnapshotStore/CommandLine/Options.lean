import SnapshotStore.Workload.Basic

namespace SnapshotStore.CommandLine

/-- An option that takes a number. -/
inductive Setting where
  | groups
  | writers
  | readers
  | keys
  | ops
  | removeEvery
  | payloadLen
  deriving DecidableEq, Repr

namespace Setting

def ofLong? : String → Option Setting
  | "groups" => some .groups
  | "writers" => some .writers
  | "readers" => some .readers
  | "keys" => some .keys
  | "ops" => some .ops
  | "remove-every" => some .removeEvery
  | "payload-len" => some .payloadLen
  | _ => none

def ofShort? : Char → Option Setting
  | 'g' => some .groups
  | 'w' => some .writers
  | 'r' => some .readers
  | 'k' => some .keys
  | 'o' => some .ops
  | 'p' => some .payloadLen
  | _ => none

def assign (w : Workload) (n : Nat) : Setting → Workload
  | .groups => { w with groups := n }
  | .writers => { w with writersPerGroup := n }
  | .readers => { w with readers := n }
  | .keys => { w with keys := UInt64.ofNat n }
  | .ops => { w with opsPerWriter := UInt64.ofNat n }
  | .removeEvery => { w with removeEvery := UInt64.ofNat n }
  | .payloadLen => { w with payloadLen := n }

end Setting

/-- What a single argument says when it is not the value of the option before it. -/
inductive Token where
  | version
  | help
  | eager
  | awaiting (s : Setting)
  | attached (s : Setting) (value : List Char)
  | endOfOptions
  | other
  deriving DecidableEq, Repr

def splitEquals (cs : List Char) : String × Option (List Char) :=
  match cs.dropWhile (· ≠ '=') with
  | [] => (String.ofList cs, none)
  | _ :: value => (String.ofList (cs.takeWhile (· ≠ '=')), some value)

def longToken (cs : List Char) : Token :=
  match splitEquals cs with
  | ("version", none) => .version
  | ("help", none) => .help
  | ("eager-reclaim", none) => .eager
  | (name, value) =>
    match Setting.ofLong? name, value with
    | some s, none => .awaiting s
    | some s, some value => .attached s value
    | none, _ => .other

/-- A short option may have its value behind it, with or without an equals sign. -/
def shortToken (c : Char) (rest : List Char) : Token :=
  match c with
  | 'V' => .version
  | 'h' => .help
  | _ =>
    match Setting.ofShort? c, rest with
    | some s, [] => .awaiting s
    | some s, '=' :: value => .attached s value
    | some s, value => .attached s value
    | none, _ => .other

def token (arg : String) : Token :=
  match arg.toList with
  | ['-', '-'] => .endOfOptions
  | '-' :: '-' :: cs => longToken cs
  | '-' :: c :: rest => shortToken c rest
  | _ => .other

/-- An argument that starts an option of its own and so is never a value. -/
def isOption (arg : String) : Bool :=
  match arg.toList with
  | '-' :: _ :: _ => true
  | _ => false

/-- A word in decimal digits, perhaps behind a plus sign. -/
def number? (cs : List Char) : Option Nat :=
  let digits := match cs with
    | '+' :: rest => rest
    | cs => cs
  if digits.isEmpty || !digits.all Char.isDigit then none
  else
    let n := digits.foldl (fun n c => 10 * n + (c.toNat - 48)) 0
    if n < wordSize then some n else none

/-- The options read so far; each may be given once. -/
structure Options where
  workload : Workload := { opsPerWriter := 100000 }
  given : List Setting := []
  eagerGiven : Bool := false
  deriving Repr

def Options.set? (o : Options) (s : Setting) (value : List Char) : Option Options :=
  if s ∈ o.given then none
  else (number? value).map fun n =>
    { o with workload := s.assign o.workload n, given := s :: o.given }

def Options.eager? (o : Options) : Option Options :=
  if o.eagerGiven then none
  else some { o with
    workload := { o.workload with eagerReclaim := true }
    eagerGiven := true }

inductive Command where
  | stress (w : Workload)
  | version
  | help
  | badUsage
  deriving Repr

/-- Read the arguments in order; the first that settles the matter wins. -/
def parse (o : Options) : List String → Command
  | [] => .stress o.workload
  | arg :: rest =>
    match token arg with
    | .version => .version
    | .help => .help
    | .eager =>
      match o.eager? with
      | some o => parse o rest
      | none => .badUsage
    | .attached s value =>
      match o.set? s value with
      | some o => parse o rest
      | none => .badUsage
    | .awaiting s =>
      match rest with
      | [] => .badUsage
      | value :: rest =>
        if isOption value then .badUsage
        else match o.set? s value.toList with
          | some o => parse o rest
          | none => .badUsage
    | .endOfOptions => if rest.isEmpty then .stress o.workload else .badUsage
    | .other => .badUsage

end SnapshotStore.CommandLine
