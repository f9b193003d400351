import PayloadAtlas.Grammar.Merging
import PayloadAtlas.Python.Grammar

/-!
# The automaton for Python sources

The states of a reader of `Python.grammar`, with what is known about how its terminals get in each
other's way.
-/

namespace PayloadAtlas.Python

open PayloadAtlas.Grammar

/-- How the terminals of the grammar contend: `:=` with `:`, `**` with `*`, `...` with `.`, and so on; the text of a
format specification with everything. -/
def contention : Contention where
  rivals := [(":=", ":"), ("except*", "identifier"), ("except*", "except"), ("**", "*"),
    ("**=", "*"), ("ellipsis", "."), ("escape_sequence", "_not_escape_sequence"),
    ("escape_sequence", "_format_text"), ("escape_sequence", "line_continuation"),
    ("float", "integer"), ("line_continuation", "_not_escape_sequence"), ("assert", "as"),
    ("async", "as")]
  greedy := ["_format_text"]
  extensions := [("except*", "identifier"), ("escape_sequence", "_not_escape_sequence"),
    ("escape_sequence", "line_continuation"), ("float", "."), ("float", "integer"),
    ("line_continuation", "_not_escape_sequence")]

/-- The automaton of `grammar`, computed once. -/
def automaton : Automaton := Automaton.ofGrammar grammar contention

end PayloadAtlas.Python
