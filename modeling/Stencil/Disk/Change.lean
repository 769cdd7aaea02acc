import Stencil.Disk.Basic

/-!
# Changes of a disk

Directories are made and files are put into place. A change that is refused gives its cause;
`makeDirectories` makes what it can, and keeps it when it fails further on.
-/

namespace Stencil

namespace Path

/-- The segments of a path without the empty ones at its end. -/
def firmSegments (p : Path) : List (List Char) :=
  (p.segments.reverse.dropWhile (·.isEmpty)).reverse

/-- A path and the paths that it lies below, nearest first. At most `n` of them. -/
def ancestors : (n : Nat) → Path → List Path
  | 0, _ => []
  | n + 1, p =>
    p :: match p.parent with
      | some q => ancestors n q
      | none => []

end Path

namespace Disk

/-- The place that the last segment of a path gives a name to; none, when the path ends in a
segment that names nothing new. -/
def target (d : Disk) (p : Path) : Except IoError (Option Place) := do
  vet p
  match p.firmSegments.getLast? with
  | none => pure none
  | some s =>
    let a ← d.step (← d.walk (d.start p) p.firmSegments.dropLast) s
    pure (if Path.idle s || s == ['.', '.'] then none else some a)

/-- Makes one directory, inside one that is there. -/
def makeDirectory (d : Disk) (p : Path) : Except IoError Disk := do
  match ← d.target p with
  | none => throw .alreadyExists
  | some a => if (d.find? a).isSome then throw .alreadyExists else pure (d.put a .directory)

/-- Makes the first of some paths a directory, each of which lies in the next. -/
def makeFrom (d : Disk) : List Path → Except IoError Unit × Disk
  | [] => (.ok (), d)
  | p :: ps =>
    if p.isEmpty then (.ok (), d)
    else match d.makeDirectory p with
      | .ok after => (.ok (), after)
      | .error .notFound =>
        match makeFrom d ps with
        | (.error cause, after) => (.error cause, after)
        | (.ok (), after) =>
          match after.makeDirectory p with
          | .ok last => (.ok (), last)
          | .error cause => (if after.isDirectory p then .ok () else .error cause, after)
      | .error cause => (if d.isDirectory p then .ok () else .error cause, d)

/-- Makes a directory and those above it, as far as they are not there. -/
def makeDirectories (d : Disk) (p : Path) : Except IoError Unit × Disk :=
  d.makeFrom (p.ancestors (p.length + 1))

/-- Writes a file, in place of one that is there. -/
def write (d : Disk) (p : Path) (content : Text.Bytes) : Except IoError Disk := do
  let a ← d.locate p
  if d.find? a = some .directory then throw .isDirectory else pure (d.put a (.file content))

/-- Moves a finished file to the place of a path, as a whole and in place of one that is
there. A name that no file can have is an argument that moving refuses. -/
def install (d : Disk) (p : Path) (content : Text.Bytes) : Except IoError Disk := do
  if isImpossible p then throw .invalidArgument
  match ← d.target p with
  | none => throw .busy
  | some a =>
    if p.toList.getLast? = some '/' then throw .notDirectory
    else if d.find? a = some .directory then throw .isDirectory
    else pure (d.put a (.file content))

end Disk

end Stencil
