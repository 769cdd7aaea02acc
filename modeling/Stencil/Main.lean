import Std.Time.DateTime.Timestamp
import Stencil.CommandLine.Reach

/-!
# The program

The files that a command looks at are read into a `Disk`, the command is run on it, and what it
changed is written back. Reading goes on until the command looks at nothing further.
-/

namespace Stencil

/-- A disk with the places that have been looked at. -/
structure Snapshot where
  disk : Disk
  seen : List Place := []

namespace Snapshot

/-- The snapshot that only knows the way to a directory. -/
def ofDirectory (here : Place) : Snapshot where
  disk :=
    { here.upward.dropLast.foldl (fun d a => Disk.put d a .directory) ({} : Disk) with here }
  seen := here.upward

/-- The snapshot with what stands at a place. -/
def load (s : Snapshot) (a : Place) : IO Snapshot := do
  let seen := a :: s.seen
  try
    let content ← IO.FS.readBinFile a.path
    pure { disk := s.disk.put a (.file content.toList), seen }
  catch
    | .inappropriateType .. => pure { disk := s.disk.put a .directory, seen }
    | _ => pure { disk := s.disk, seen }

/-- The snapshot with what stands on the way to a path and at its place. -/
def look (s : Snapshot) (p : Path) : IO Snapshot := do
  let mut now := s
  for n in List.range (p.segments.length + 1) do
    match now.disk.walk (now.disk.start p) (p.segments.take n) with
    | .error _ => pure ()
    | .ok a => if !now.seen.contains a then now ← now.load a
  pure now

/-- The snapshot with all that a command line looks at. -/
def gather (moment : Moment) (args : List String) (s : Snapshot) : IO Snapshot := do
  let mut now := s
  let mut grows := true
  while grows do
    let size := now.seen.length
    for p in CommandLine.reach moment args now.disk do
      now ← now.look p
    grows := decide (size < now.seen.length)
  pure now

end Snapshot

/-- Writes what is on one disk and was not on another. -/
def writeBack (before after : Disk) : IO Unit := do
  let changes := after.entries.filter fun e => before.find? e.1 != some e.2
  for (a, e) in changes.reverse do
    match e with
    | .directory => IO.FS.createDirAll a.path
    | .file content =>
      let draft := a.path ++ ".draft"
      IO.FS.writeBinFile draft ⟨content.toArray⟩
      IO.FS.rename draft a.path

/-- The place of the working directory. -/
def workingPlace : IO Place := do
  let path := toString (← IO.currentDir)
  pure ((path.toList.splitOn '/').filter (!·.isEmpty) |>.map String.ofList)

end Stencil

open Stencil in
/-- Runs a command line on the files of the machine. -/
def main (args : List String) : IO UInt32 := do
  let moment : Moment := ⟨(← Std.Time.Timestamp.now).toSecondsSinceUnixEpoch.val⟩
  let snapshot ← (Snapshot.ofDirectory (← workingPlace)).gather moment args
  let (outcome, after) := CommandLine.run moment args snapshot.disk
  writeBack snapshot.disk after
  IO.print (CommandLine.Outcome.textOf outcome.output)
  IO.eprint (CommandLine.Outcome.textOf outcome.complaints)
  pure outcome.code.toUInt32
