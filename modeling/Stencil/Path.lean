/-!
# Paths

A path is the text it was written as; nothing is normalised when paths are joined. What a path
names is its list of `components`: repeated separators and `.` components count for nothing,
except for a `.` at the very front. Two paths are the same file name when their components are.
-/

namespace Stencil

/-- The text of a path. -/
abbrev Path := String

/-- A part of a path. The order of the constructors is the order in which paths are sorted. -/
inductive Component where
  | root
  | here
  | parent
  | name (s : String)
deriving DecidableEq, Repr

namespace Component

/-- The order of components: roots, then `.`, then `..`, then names. -/
def before : Component → Component → Bool
  | root, root => false
  | root, _ => true
  | here, root => false
  | here, here => false
  | here, _ => true
  | parent, name _ => true
  | parent, _ => false
  | name s, name t => s < t
  | name _, _ => false

end Component

namespace Path

/-- The texts between the separators. -/
def segments (p : Path) : List (List Char) := p.toList.splitOn '/'

/-- A path from the root. -/
def isAbsolute (p : Path) : Bool := p.toList.head? == some '/'

/-- A segment that names nothing. -/
def idle (s : List Char) : Bool := s.isEmpty || s == ['.']

/-- The component that a segment stands for. -/
def ofSegment (s : List Char) : Component :=
  if s == ['.', '.'] then .parent else .name (String.ofList s)

/-- The component at the very front, when it is the root or a `.`. -/
def front (p : Path) : Option Component :=
  if p.isAbsolute then some .root
  else if p.segments.head? == some ['.'] then some .here
  else none

/-- What a path names. -/
def components (p : Path) : List Component :=
  p.front.toList ++ (p.segments.filter (!idle ·)).map ofSegment

/-- The order of paths, component by component. -/
def compsBefore : List Component → List Component → Bool
  | [], [] => false
  | [], _ :: _ => true
  | _ :: _, [] => false
  | a :: as, b :: bs => a.before b || (a == b && compsBefore as bs)

/-- `q` seen from `p`: an absolute `q` stands for itself. -/
def join (p q : Path) : Path :=
  if q.isAbsolute then q
  else if p.isEmpty || p.toList.getLast? == some '/' then p ++ q
  else p ++ "/" ++ q

/-- Segments put together again. -/
def ofSegments (ss : List (List Char)) : Path :=
  String.ofList (['/'].intercalate ss)

/-- Segments without the idle ones at the end. -/
def dropIdleEnd (ss : List (List Char)) : List (List Char) :=
  (ss.reverse.dropWhile idle).reverse

/-- The text of a path without idle segments at its end. -/
def tidyEnd (p : Path) : Path :=
  match p.front with
  | none => ofSegments (dropIdleEnd p.segments)
  | some .root =>
    if (dropIdleEnd p.segments).isEmpty then "/" else ofSegments (dropIdleEnd p.segments)
  | some _ =>
    match p.segments with
    | [] => p
    | s :: ss => ofSegments (s :: dropIdleEnd ss)

/-- The path made of some leading segments of another; a single empty one stands for the
root. -/
def ofLeading (ss : List (List Char)) : Path :=
  if ss == [[]] then "/" else (ofSegments ss).tidyEnd

/-- The path without its last component, when there is one other than the root. -/
def parent (p : Path) : Option Path :=
  match p.components.getLast? with
  | none | some .root => none
  | some .here => some ""
  | some _ => some (ofLeading (dropIdleEnd p.segments).dropLast)

/-- The last component, when it is a name. -/
def fileName (p : Path) : Option String :=
  match p.components.getLast? with
  | some (.name s) => some s
  | _ => none

/-- The file name up to its last dot; a name whose only dot is its first character is kept. -/
def fileStem (p : Path) : Option String :=
  p.fileName.map fun s =>
    let cs := s.toList.reverse
    match cs.dropWhile (· != '.') with
    | [] => s
    | [_] => s
    | _ :: stem => String.ofList stem.reverse

/-- The segments left when the components of a beginning are taken away. -/
def dropComponents : List Component → List (List Char) → Option (List (List Char))
  | [], ss => some (ss.dropWhile idle)
  | _ :: _, [] => none
  | c :: cs, s :: ss =>
    if idle s then dropComponents (c :: cs) ss
    else if ofSegment s = c then dropComponents cs ss
    else none

/-- The part of `p` below `base`: its text after the components of `base`, when `p` begins
with them. -/
def stripBase (p base : Path) : Option Path :=
  match base.components with
  | [] => some p.tidyEnd
  | c :: cs =>
    match p.front with
    | some f =>
      if f = c then
        (dropComponents cs (p.segments.drop 1)).map fun ss => ofSegments (dropIdleEnd ss)
      else none
    | none => (dropComponents (c :: cs) p.segments).map fun ss => ofSegments (dropIdleEnd ss)

/-- The name under which a file is recorded in a directory: its text below the directory, or
all of it when it lies elsewhere, with `/` for `\`. -/
def keyWithin (dir file : Path) : String :=
  String.ofList ((((stripBase file dir).getD file).toList).map fun c => if c = '\\' then '/' else c)

end Path

end Stencil
