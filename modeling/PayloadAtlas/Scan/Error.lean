import PayloadAtlas.Config
import PayloadAtlas.Python.Module

/-!
# Errors of a scan

A file that cannot be read or has a syntax error is left out, and the scan goes on. All other errors end
it.
-/

namespace PayloadAtlas

open Python (SyntaxError)

/-- What can go wrong in a scan. The causes that lie outside are given by their texts. -/
inductive ScanError where
  | walk (cause : String)
  | read (path cause : String)
  | parse (path : String) (cause : SyntaxError)
  | config (cause : ConfigError)
  /-- A path that is no text, as it is shown. -/
  | notUtf8 (shown : String)
  | artifact (path cause : String)
  deriving DecidableEq, Repr, Inhabited

namespace ScanError

/-- The text of an error. -/
def message : ScanError → String
  | .walk cause => "failed to walk directory: " ++ cause
  | .read path cause => "failed to read file " ++ path ++ ": " ++ cause
  | .parse path cause => "failed to parse file " ++ path ++ ": " ++ cause.message
  | .config cause => "invalid configuration: " ++ cause.message
  | .notUtf8 shown => "path is not valid UTF-8: " ++ shown
  | .artifact path cause => "failed to write artifact " ++ path ++ ": " ++ cause

/-- Whether the scan goes on without the file: after `read` and `parse` only. -/
def isRecoverable : ScanError → Bool
  | .read .. | .parse .. => true
  | _ => false

/-- Whether the scan ends: it is not `isRecoverable`. -/
def isFatal (e : ScanError) : Bool := !e.isRecoverable

/-- The file that an error is about. -/
def path? : ScanError → Option String
  | .read path _ | .parse path _ | .artifact path _ => some path
  | _ => none

end ScanError

end PayloadAtlas
