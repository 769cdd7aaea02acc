import Stencil.Disk.Basic
import Stencil.Source

/-!
# Templates on a disk

A template is a file below a directory, or anywhere when its name is absolute. A directory can be
opened as one; it is only found out in reading it.
-/

namespace Stencil.Disk

/-- What reading a file as a template delivers; a failure to open it is an error of its own. -/
def source (d : Disk) (p : Path) : Except IoError Source :=
  match d.read p with
  | .ok content => .ok (.ofBytes content)
  | .error .isDirectory => .ok ⟨[], some .isDirectory⟩
  | .error cause => .error cause

/-- The templates below a directory. -/
def templates (d : Disk) (dir : Path) : TemplateStore := fun name =>
  match d.source (dir.join name) with
  | .ok s => .ok s
  | .error cause => .error (.templateNotFound name cause)

end Stencil.Disk
