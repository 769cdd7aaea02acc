import Stencil.Error
import Stencil.Path
import Stencil.Text.Utf8

/-!
# Disks

A `Disk` holds a file or a directory at some places. A place is the list of names that leads to it
from the root, which is always a directory. `locate` finds the place of a path: every segment but
the last has to lead through a directory, `.` and an empty segment stay, and `..` goes up. Names
and paths are limited in length, and no path holds a zero character.

What `put` leaves at a place and elsewhere is said by `find?_put`.
-/

namespace Stencil

/-- The names that lead from the root to something. -/
abbrev Place := List String

namespace Place

/-- The absolute path of a place. -/
def path (a : Place) : Path := "/" ++ "/".intercalate a

/-- A place and the places above it, the root last. -/
def upward (a : Place) : List Place :=
  (List.range (a.length + 1)).map fun n => a.take (a.length - n)

end Place

/-- What stands at a place. -/
inductive Entry where
  | file (content : Text.Bytes)
  | directory
deriving DecidableEq, Repr

/-- Files and directories by their places. -/
structure Disk where
  entries : List (Place × Entry) := []
  /-- The directory that relative paths start from. -/
  here : Place := []
deriving DecidableEq, Repr

namespace Disk

/-- What stands at a place. -/
def find? (d : Disk) (a : Place) : Option Entry :=
  if a = [] then some .directory else (d.entries.find? fun e => e.1 == a).map (·.2)

/-- The disk with `e` at a place. -/
def put (d : Disk) (a : Place) (e : Entry) : Disk :=
  { d with entries := (a, e) :: d.entries.filter fun x => x.1 != a }

/-- The disk without a place and all places below it. -/
def erase (d : Disk) (a : Place) : Disk :=
  { d with entries := d.entries.filter fun x => !a.isPrefixOf x.1 }

theorem find?_put {d : Disk} {a b : Place} {e : Entry} (ha : a ≠ []) :
    (d.put a e).find? b = if b = a then some e else d.find? b := by
  by_cases hb : b = []
  · simp [find?, hb, ha.symm]
  by_cases h : b = a
  · simp [find?, put, h, ha]
  · have hf : (fun x : Place × Entry => !decide (x.1 = a) && decide (x.1 = b)) =
        fun x => x.1 == b := by
      funext x
      by_cases hx : x.1 = b
      · simp [hx, h]
      · simp [hx]
    simp [find?, put, hb, h, Ne.symm h, List.find?_filter, hf]

/-! ## Finding places -/

/-- The number of bytes that a name may have. -/
def nameLimit : Nat := 255

/-- The number of bytes that a path has to stay below. -/
def pathLimit : Nat := 4096

/-- Whether a path holds a character that no name can have. -/
def isImpossible (p : Path) : Bool := p.toList.contains '\x00'

/-- Refuses a path that cannot be looked up at all. -/
def vet (p : Path) : Except IoError Unit :=
  if isImpossible p then .error .impossibleName
  else if p.isEmpty then .error .notFound
  else if pathLimit ≤ Text.byteSize p.toList then .error .nameTooLong
  else .ok ()

/-- Where a segment of a path leads from a place, which has to be a directory. -/
def step (d : Disk) (a : Place) (segment : List Char) : Except IoError Place :=
  match d.find? a with
  | none => .error .notFound
  | some (.file _) => .error .notDirectory
  | some .directory =>
    if Path.idle segment then .ok a
    else if segment == ['.', '.'] then .ok a.dropLast
    else if nameLimit < Text.byteSize segment then .error .nameTooLong
    else .ok (a ++ [String.ofList segment])

/-- The place where a path starts. -/
def start (d : Disk) (p : Path) : Place := if p.isAbsolute then [] else d.here

/-- Where segments lead from a place. -/
def walk (d : Disk) (a : Place) (segments : List (List Char)) : Except IoError Place :=
  segments.foldlM d.step a

/-- The place of a path, at which nothing need stand. The empty path has none. -/
def locate (d : Disk) (p : Path) : Except IoError Place := do
  vet p
  d.walk (d.start p) p.segments

/-- What stands at the place of a path. -/
def lookup (d : Disk) (p : Path) : Except IoError Entry := do
  match d.find? (← d.locate p) with
  | some e => pure e
  | none => throw .notFound

/-- The place of a path at which something stands. -/
def resolve (d : Disk) (p : Path) : Except IoError Place := do
  let a ← d.locate p
  if (d.find? a).isSome then pure a else throw .notFound

/-! ## Reading -/

/-- The content of a file. -/
def read (d : Disk) (p : Path) : Except IoError Text.Bytes := do
  match ← d.lookup p with
  | .file content => pure content
  | .directory => throw .isDirectory

/-- The text of a file. -/
def readText (d : Disk) (p : Path) : Except IoError String := do
  match Text.decodeStrict (← d.read p) with
  | some s => pure s
  | none => throw .invalidText

/-- Whether something stands at the place of a path. -/
def exists? (d : Disk) (p : Path) : Bool := (d.lookup p).toOption.isSome

/-- Whether a directory stands at the place of a path. -/
def isDirectory (d : Disk) (p : Path) : Bool := (d.lookup p).toOption == some .directory

/-- Whether a file stands at a place. -/
def isFileAt (d : Disk) (a : Place) : Bool :=
  match d.find? a with
  | some (.file _) => true
  | _ => false

end Disk

end Stencil
