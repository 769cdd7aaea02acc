import Stencil.Digest.Sha256
import Stencil.Disk.Change
import Stencil.Ledger.Basic

/-!
# Freshness

An output is fresh when its record is there, the file is there, and the template, the
sub-templates and the schema have the digests that were recorded by this version of the tool.
`Ledger.staleness` compares a record with the disk, `Ledger.record` notes what an output was just
generated from.
-/

namespace Stencil

/-- Whether an output has to be generated, and why. -/
inductive Staleness where
  | fresh
  | neverGenerated
  | outputMissing
  | templateChanged
  | schemaChanged
  | toolUpgraded
deriving DecidableEq, Repr

namespace Staleness

/-- The output has to be generated. -/
def isStale (s : Staleness) : Bool := s != fresh

/-- The reason as a name. -/
def name : Staleness → String
  | fresh => "fresh"
  | neverGenerated => "never_generated"
  | outputMissing => "output_missing"
  | templateChanged => "template_changed"
  | schemaChanged => "schema_changed"
  | toolUpgraded => "tool_upgraded"

/-- The reason in words. -/
def describe : Staleness → String
  | fresh => "up to date"
  | neverGenerated => "never generated"
  | outputMissing => "output missing"
  | templateChanged => "template changed"
  | schemaChanged => "schema changed"
  | toolUpgraded => "generated by another rategen version"

end Staleness

/-- The digest of a file. -/
def Disk.fingerprint (d : Disk) (p : Path) : Except IoError String :=
  (d.read p).map Digest.fingerprint

/-- The digest of a file that can be read. -/
def Disk.fingerprint? (d : Disk) (p : Path) : Option String := (d.fingerprint p).toOption

namespace Ledger

/-- The record of an output. -/
def find? (l : Ledger) (dir output : Path) : Option OutputRecord :=
  l.outputs.find? (Path.keyWithin dir output)

/-- Whether the sub-templates of a record are what they were. -/
def sameFragments (d : Disk) (r : OutputRecord) : Bool :=
  r.fragments.entries.all fun e => d.fingerprint? e.1 == some e.2

/-- How an output stands to the files that it is generated from. The first reason that applies is
given. -/
def staleness (l : Ledger) (d : Disk) (dir output template : Path) (schema : Option Path) :
    Staleness :=
  match l.find? dir output with
  | none => .neverGenerated
  | some r =>
    if !d.exists? output then .outputMissing
    else if l.toolVersion != release then .toolUpgraded
    else if d.fingerprint? template != some r.templateDigest then .templateChanged
    else if !sameFragments d r then .templateChanged
    else if schema.bind d.fingerprint? != r.schemaDigest then .schemaChanged
    else .fresh

/-- The digests of files by their paths. -/
def fingerprints (d : Disk) (ps : List Path) : Except IoError (Dict String) := do
  let es ← ps.mapM fun p => do pure (p, ← d.fingerprint p)
  pure (Dict.ofList es)

/-- The record of an output that was generated at a moment from the files as they are. -/
def recordOf (d : Disk) (template : Path) (fragments : List Path) (schema : Option Path)
    (backend : Backend) (lines : Nat) (now : Moment) : Except IoError OutputRecord := do
  let fragments ← fingerprints d fragments
  let templateDigest ← d.fingerprint template
  let schemaDigest ← schema.mapM d.fingerprint
  pure { template, templateDigest, fragments, schemaDigest, backend, lines, generatedAt := now }

/-- The ledger with a record, written by this version of the tool. -/
def note (l : Ledger) (dir output : Path) (r : OutputRecord) : Ledger :=
  { outputs := l.outputs.insert (Path.keyWithin dir output) r, toolVersion := release }

/-! ## Ledgers on the disk -/

/-- The ledger of an output directory, if there is one. -/
def load (d : Disk) (dir : Path) : Except Error (Option Ledger) :=
  if d.exists? (dir.join ledgerFileName) then
    match d.readText (dir.join ledgerFileName) with
    | .ok text => (ofYaml text).map some
    | .error cause => .error (.io cause)
  else .ok none

/-- Writes the ledger of an output directory, which is made if it is not there. -/
def save (l : Ledger) (dir : Path) (d : Disk) : Except Error Unit × Disk :=
  match d.makeDirectories dir with
  | (.error cause, after) => (.error (.io cause), after)
  | (.ok (), after) =>
    match after.write (dir.join ledgerFileName) (Text.encode l.text) with
    | .error cause => (.error (.io cause), after)
    | .ok last => (.ok (), last)

end Ledger

end Stencil
