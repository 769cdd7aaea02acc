/-!
# Errors

What can stop a run, a load or a project command. Unknown macros and failed schema look-ups
are no errors: they are noted in the report and the run goes on.
-/

namespace Stencil

/-- Why an operation on a file, a template store or a sink failed. -/
inductive IoError where
  | notFound
  | isDirectory
  | notDirectory
  | alreadyExists
  | busy
  | nameTooLong
  | invalidArgument
  /-- No file can have the name. -/
  | impossibleName
  | invalidText
  /-- A failure that another component reports in its own words. -/
  | reported (message : String)
deriving DecidableEq, Repr

/-- The text of the failure. -/
def IoError.message : IoError → String
  | notFound => "No such file or directory (os error 2)"
  | isDirectory => "Is a directory (os error 21)"
  | notDirectory => "Not a directory (os error 20)"
  | alreadyExists => "File exists (os error 17)"
  | busy => "Device or resource busy (os error 16)"
  | nameTooLong => "File name too long (os error 36)"
  | invalidArgument => "Invalid argument (os error 22)"
  | impossibleName => "file name contained an unexpected NUL byte"
  | invalidText => "stream did not contain valid UTF-8"
  | reported m => m

/-- Why a table's metadata is not to be had. -/
inductive SchemaError where
  | unknownTable (table : String)
  | unavailable
  | load (path message : String)
deriving DecidableEq, Repr

/-- The text of the failure. -/
def SchemaError.message : SchemaError → String
  | unknownTable t => "unknown table: " ++ t
  | unavailable => "no schema bound"
  | load p m => "failed to load schema from " ++ p ++ ": " ++ m

/-- What ends a run or a project command. -/
inductive Error where
  | templateNotFound (name : String) (cause : IoError)
  | outputUnwritable (path : String) (cause : IoError)
  | nestingTooDeep (depth : Nat) (template : String)
  | schema (cause : SchemaError)
  | config (message : String)
  | io (cause : IoError)
  | other (message : String)
deriving DecidableEq, Repr

/-- The text of the error. -/
def Error.message : Error → String
  | templateNotFound n c => "Template not found: " ++ n ++ ": " ++ c.message
  | outputUnwritable p c => "Output not writable: " ++ p ++ ": " ++ c.message
  | nestingTooDeep d t =>
    "Sub-template nesting exceeds " ++ toString d ++ " levels at " ++ t
  | schema c => "Schema error: " ++ c.message
  | config m => "Config error: " ++ m
  | io c => "IO error: " ++ c.message
  | other m => m

end Stencil
