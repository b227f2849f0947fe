import SnapshotStore.Session.Step

namespace SnapshotStore

/-- Why an entry did not arrive as a whole. -/
inductive Setback where
  | failed (e : StoreError)
  /-- The next piece would begin behind the last address. -/
  | overflow (o : Overflow)
  /-- A piece was empty, and so would every other be. -/
  | stalled
  /-- There is no such arena. -/
  | unknown
  deriving DecidableEq, Repr

namespace Session

/-- Read an entry of `length` bytes into foreign memory from `addr` on, in pieces of at most `piece`
bytes; what stands before `offset` is there already. The answer is how many reads it took. -/
def readPieces (s : Session) (id : GroupId) (key : Key) (arena : Nat) (addr : Address)
    (length piece offset : Nat) : Except Setback Nat × Session :=
  if offset < length then
    match Word.add addr.toNat offset with
    | .error o => (.error (.overflow o), s)
    | .ok target =>
      match s.step (.read id key offset piece (.foreign arena (.ofNat target))) with
      | (.read (.ok n) _, s) =>
        if 0 < n then
          let (reads, s) := s.readPieces id key arena addr length piece (offset + n)
          (reads.map (· + 1), s)
        else
          (.error .stalled, s)
      | (.read (.error e) _, s) => (.error (.failed e), s)
      | (_, s) => (.error .unknown, s)
  else
    (.ok 0, s)
termination_by length - offset

end Session

end SnapshotStore
