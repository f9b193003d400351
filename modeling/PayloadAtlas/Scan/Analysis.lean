import PayloadAtlas.Disk
import PayloadAtlas.Path
import PayloadAtlas.Scan.Error
import PayloadAtlas.Scan.Stats
import PayloadAtlas.Shape.Build

/-!
# Analysis of source files

Each source file by itself is read and taken apart. A file that cannot be read, or has a syntax error, gives
an error in its place.
-/

namespace PayloadAtlas

namespace SourceFile

/-- A path as seen from `root`; itself, if it does not lie below. -/
def pathFrom (root path : String) : String := (Path.stripPrefix? path root).getD path

/-- The source file at a path. -/
def analyze (d : Disk) (root path : String) : Except ScanError SourceFile :=
  match d.readLossy path with
  | .error e => .error (.read path e.message)
  | .ok text =>
    match Python.Module.ofString text with
    | .error e => .error (.parse path e)
    | .ok contents =>
      let relative := pathFrom root path
      .ok { path := relative, module := Path.moduleName relative, contents }

end SourceFile

/-- A path and what came of the file there. -/
abbrev Analysed := String × Except ScanError SourceFile

namespace Analysed

/-- Analyses the files at some paths, in order. -/
def ofPaths (d : Disk) (root : String) (paths : List String) : List Analysed :=
  paths.map fun path => (path, SourceFile.analyze d root path)

/-- Counts a file. -/
def count (s : Stats) (a : Analysed) : Stats :=
  match a.2 with
  | .ok _ => s.addParsed
  | .error (.read ..) => s.addReadError
  | .error _ => s.addParseError

/-- The files that could be analysed, as `SourceFile.analyze` reads them. -/
def files (as : List Analysed) : List SourceFile :=
  as.filterMap fun a =>
    match a.2 with
    | .ok file => some file
    | .error _ => none

/-- The paths of the others, with what is wrong. -/
def errors (as : List Analysed) : List (String × ScanError) :=
  as.filterMap fun a =>
    match a.2 with
    | .ok _ => none
    | .error e => some (a.1, e)

end Analysed

end PayloadAtlas
