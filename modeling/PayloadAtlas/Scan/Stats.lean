/-!
# Counters of a scan

How many files a scan found, read and had to leave out, and what it found in them. The counters are words
of 64 bits.
-/

namespace PayloadAtlas

/-- The counters. -/
structure Stats where
  discovered : UInt64 := 0
  parsed : UInt64 := 0
  readErrors : UInt64 := 0
  parseErrors : UInt64 := 0
  models : UInt64 := 0
  handlers : UInt64 := 0
  deriving DecidableEq, Repr, Inhabited

namespace Stats

/-- The number of files that were left out: `readErrors + parseErrors`. -/
def skipped (s : Stats) : UInt64 := s.readErrors + s.parseErrors

/-- Counts files that were found. -/
def addDiscovered (s : Stats) (n : UInt64) : Stats := { s with discovered := s.discovered + n }

/-- Counts models. -/
def addModels (s : Stats) (n : UInt64) : Stats := { s with models := s.models + n }

/-- Counts handlers. -/
def addHandlers (s : Stats) (n : UInt64) : Stats := { s with handlers := s.handlers + n }

/-- Counts a file that was read. -/
def addParsed (s : Stats) : Stats := { s with parsed := s.parsed + 1 }

/-- Counts a file that could not be read. -/
def addReadError (s : Stats) : Stats := { s with readErrors := s.readErrors + 1 }

/-- Counts a file with a syntax error. -/
def addParseError (s : Stats) : Stats := { s with parseErrors := s.parseErrors + 1 }

end Stats

end PayloadAtlas
