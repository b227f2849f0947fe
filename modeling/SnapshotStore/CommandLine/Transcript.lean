import SnapshotStore.CommandLine.Options
import SnapshotStore.Workload.Run

namespace SnapshotStore.CommandLine

def version : String := "0.1.0"

/-- What a call of the program leaves behind. -/
structure Transcript where
  status : Nat
  lines : List String
  deriving DecidableEq, Repr

def info (text : String) : String := "INFO " ++ text

def problem (text : String) : String := "ERROR " ++ text

def reclaimed (r : Reclamation) : String :=
  "Reclaimed " ++ toString r.reclaimedIndexes ++ "/" ++ toString r.retiredIndexes ++
    " indexes, " ++ toString r.reclaimedEntries ++ "/" ++ toString r.retiredEntries ++ " entries"

def sizes (ns : List Nat) : String := (Outline.list (ns.map Outline.nat)).compact

def reportLines (r : Report) : Transcript :=
  let found := [info ("Final group sizes: " ++ sizes r.finalSizes), info (reclaimed r.reclamation)]
  if r.isClean then
    { status := 0, lines := found ++ [info "No violations"] }
  else
    { status := 1,
      lines := found ++ [problem (toString r.tally.violations ++ " violations detected")] }

/-- A refused workload is an error of the call; sizes beyond a word end the program at once. -/
def stress (w : Workload) : Transcript :=
  let banner := info ("kstore stress v" ++ version)
  match w.run with
  | .ok report =>
    let t := reportLines report
    { t with lines := banner :: t.lines }
  | .error (.refused e) =>
    { status := 2, lines := [banner, problem ("Stress run failed to start: " ++ e.message)] }
  | .error (.overflow _) => { status := 101, lines := [banner] }

def run (args : List String) : Transcript :=
  match parse {} args with
  | .stress w => stress w
  | .version => { status := 0, lines := ["kstore-stress " ++ version] }
  | .help => { status := 0, lines := [] }
  | .badUsage => { status := 2, lines := [] }

end SnapshotStore.CommandLine
