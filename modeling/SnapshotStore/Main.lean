import SnapshotStore.CommandLine.Transcript

open SnapshotStore

def main (args : List String) : IO UInt32 := do
  let t := CommandLine.run args
  t.lines.forM IO.println
  return UInt32.ofNat t.status
