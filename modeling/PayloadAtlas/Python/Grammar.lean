import PayloadAtlas.Grammar.Rule

/-!
# The grammar of Python sources

One rule for every construct that a source may hold. The grammar is deliberately wider than any one
version of the language: it knows `print` and `exec` statements, tuple parameters, both exception
clauses, structural matching, and soft keywords that double as identifiers. What it accepts is
accepted; what a construct means is left to the readers of the tree.

The rules come in groups (statements, blocks, patterns, expressions, literals); their order fixes the
order of the tokens, which in turn decides which token is tried first where one is missing.
-/

namespace PayloadAtlas.Python

open PayloadAtlas.Grammar Rule

/-- The levels at which the expression operators bind. -/
inductive Level where
  | lambda | typedParameter | conditional | parenthesized | or | and | not | compare | bitOr | bitAnd
  | bitXor | shift | plus | times | unary | power | call

/-- The level as a number; higher binds tighter, and `lambda` binds least. -/
def Level.rank : Level → Int
  | .lambda => -2
  | .typedParameter => -1
  | .conditional => -1
  | .parenthesized => 1
  | .or => 10
  | .and => 11
  | .not => 12
  | .compare => 13
  | .bitOr => 14
  | .bitAnd => 15
  | .bitXor => 16
  | .shift => 17
  | .plus => 18
  | .times => 19
  | .unary => 20
  | .power => 21
  | .call => 22

/-- A rule with the name that it is referred to by. -/
abbrev Named := String × Rule

private def expr : Rule := ref "expression"
private def ident : Rule := ref "identifier"
private def suite : Rule := ref "_suite"
private def commaTail : Rule := optional ","

/-- Modules and the statements that fit on one line. -/
def simpleStatements : List Named := [
  ("module", many (ref "_statement")),
  ("_statement", choices [ref "_simple_statements", ref "_compound_statement"]),
  ("_simple_statements",
    seqs [separated (ref "_simple_statement") ";", optional ";", ref "_newline"]),
  ("_simple_statement", choices [ref "future_import_statement", ref "import_statement",
    ref "import_from_statement", ref "print_statement", ref "assert_statement",
    ref "expression_statement", ref "return_statement", ref "delete_statement",
    ref "raise_statement", ref "pass_statement", ref "break_statement", ref "continue_statement",
    ref "global_statement", ref "nonlocal_statement", ref "exec_statement",
    ref "type_alias_statement"]),
  ("import_statement", seqs ["import", ref "_import_list"]),
  ("import_prefix", repeat1 "."),
  ("relative_import", seqs [ref "import_prefix", optional (ref "dotted_name")]),
  ("future_import_statement", seqs ["from", "__future__", "import",
    choices [ref "_import_list", seqs ["(", ref "_import_list", ")"]]]),
  ("import_from_statement", seqs ["from",
    field "module_name" (choices [ref "relative_import", ref "dotted_name"]), "import",
    choices [ref "wildcard_import", ref "_import_list", seqs ["(", ref "_import_list", ")"]]]),
  ("_import_list", seqs [
    commaSep (field "name" (choices [ref "dotted_name", ref "aliased_import"])), commaTail]),
  ("aliased_import", seqs [field "name" (ref "dotted_name"), "as", field "alias" ident]),
  ("wildcard_import", "*"),
  ("print_statement", choices [
    atLevel 1 (seqs ["print", ref "chevron", many (seqs [",", field "argument" expr]), commaTail]),
    atLevel (-3) (dynamic (-1) (seqs ["print", commaSep (field "argument" expr), commaTail]))]),
  ("chevron", seqs [">>", expr]),
  ("assert_statement", seqs ["assert", commaSep expr]),
  ("expression_statement", choices [expr, seqs [commaSep expr, commaTail], ref "assignment",
    ref "augmented_assignment", ref "yield"]),
  ("named_expression",
    seqs [field "name" (ref "_named_expression_lhs"), ":=", field "value" expr]),
  ("_named_expression_lhs", choices [ident, ref "keyword_identifier"]),
  ("return_statement", seqs ["return", optional (ref "_expressions")]),
  ("delete_statement", seqs ["del", ref "_expressions"]),
  ("_expressions", choices [expr, ref "expression_list"]),
  ("raise_statement", seqs ["raise", optional (ref "_expressions"),
    optional (seqs ["from", field "cause" expr])]),
  ("pass_statement", leftAt 0 "pass"),
  ("break_statement", leftAt 0 "break"),
  ("continue_statement", leftAt 0 "continue")]

/-- Statements that hold blocks. -/
def compoundStatements : List Named := [
  ("_compound_statement", choices [ref "if_statement", ref "for_statement", ref "while_statement",
    ref "try_statement", ref "with_statement", ref "function_definition", ref "class_definition",
    ref "decorated_definition", ref "match_statement"]),
  ("if_statement", seqs ["if", field "condition" expr, ":", field "consequence" suite,
    many (field "alternative" (ref "elif_clause")),
    optional (field "alternative" (ref "else_clause"))]),
  ("elif_clause", seqs ["elif", field "condition" expr, ":", field "consequence" suite]),
  ("else_clause", seqs ["else", ":", field "body" suite]),
  ("match_statement", seqs ["match", commaSep (field "subject" expr), commaTail, ":",
    field "body" (named (ref "_match_block") "block")]),
  ("_match_block", choices [
    seqs [ref "_indent", many (field "alternative" (ref "case_clause")), ref "_dedent"],
    ref "_newline"]),
  ("case_clause", seqs ["case", commaSep (ref "case_pattern"), commaTail,
    optional (field "guard" (ref "if_clause")), ":", field "consequence" suite]),
  ("for_statement", seqs [optional "async", "for", field "left" (ref "_left_hand_side"), "in",
    field "right" (ref "_expressions"), ":", field "body" suite,
    field "alternative" (optional (ref "else_clause"))]),
  ("while_statement", seqs ["while", field "condition" expr, ":", field "body" suite,
    optional (field "alternative" (ref "else_clause"))]),
  ("try_statement", seqs ["try", ":", field "body" suite, choices [
    seqs [repeat1 (ref "except_clause"), optional (ref "else_clause"),
      optional (ref "finally_clause")],
    seqs [repeat1 (ref "except_group_clause"), optional (ref "else_clause"),
      optional (ref "finally_clause")],
    ref "finally_clause"]]),
  ("except_clause", seqs ["except",
    optional (seqs [expr, optional (seqs [choices ["as", ","], expr])]), ":", suite]),
  ("except_group_clause", seqs ["except*", expr, optional (seqs ["as", expr]), ":", suite]),
  ("finally_clause", seqs ["finally", ":", suite]),
  ("with_statement", seqs [optional "async", "with", ref "with_clause", ":", field "body" suite]),
  ("with_clause", choices [seqs [commaSep (ref "with_item"), commaTail],
    seqs ["(", commaSep (ref "with_item"), commaTail, ")"]]),
  ("with_item", dynamic 1 (field "value" expr)),
  ("function_definition", seqs [optional "async", "def", field "name" ident,
    field "type_parameters" (optional (ref "type_parameter")),
    field "parameters" (ref "parameters"),
    optional (seqs ["->", field "return_type" (ref "type")]), ":", field "body" suite]),
  ("parameters", seqs ["(", optional (ref "_parameters"), ")"]),
  ("lambda_parameters", ref "_parameters"),
  ("list_splat", seqs ["*", expr]),
  ("dictionary_splat", seqs ["**", expr]),
  ("global_statement", seqs ["global", commaSep ident]),
  ("nonlocal_statement", seqs ["nonlocal", commaSep ident]),
  ("exec_statement", seqs ["exec", field "code" (choices [ref "string", ident]),
    optional (seqs ["in", commaSep expr])]),
  ("type_alias_statement", dynamic 1
    (seqs ["type", field "left" (ref "type"), "=", field "right" (ref "type")])),
  ("class_definition", seqs ["class", field "name" ident,
    field "type_parameters" (optional (ref "type_parameter")),
    field "superclasses" (optional (ref "argument_list")), ":", field "body" suite]),
  ("type_parameter", seqs ["[", commaSep (ref "type"), commaTail, "]"]),
  ("parenthesized_list_splat", atLevel Level.parenthesized.rank (seqs ["(",
    choices [named (ref "parenthesized_list_splat") "parenthesized_expression", ref "list_splat"],
    ")"])),
  ("argument_list", seqs ["(", optional (commaSep (choices [expr, ref "list_splat",
    ref "dictionary_splat", named (ref "parenthesized_list_splat") "parenthesized_expression",
    ref "keyword_argument"])), commaTail, ")"]),
  ("decorated_definition", seqs [repeat1 (ref "decorator"),
    field "definition" (choices [ref "class_definition", ref "function_definition"])]),
  ("decorator", seqs ["@", expr, ref "_newline"]),
  ("_suite", choices [named (ref "_simple_statements") "block", seqs [ref "_indent", ref "block"],
    named (ref "_newline") "block"]),
  ("block", seqs [many (ref "_statement"), ref "_dedent"]),
  ("expression_list", rightAt 0 (seqs [expr, choices [",",
    seqs [repeat1 (seqs [",", expr]), commaTail]]])),
  ("dotted_name", atLevel 1 (separated ident "."))]

private def number : Rule := choices [ref "integer", ref "float"]
private def casePatterns : Rule := optional (seqs [commaSep (ref "case_pattern"), commaTail])

/-- The patterns of `case` clauses. -/
def matchPatterns : List Named := [
  ("case_pattern", atLevel 1 (choices [named (ref "_as_pattern") "as_pattern",
    ref "keyword_pattern", ref "_simple_pattern"])),
  ("_simple_pattern", atLevel 1 (choices [ref "class_pattern", ref "splat_pattern",
    ref "union_pattern", named (ref "_list_pattern") "list_pattern",
    named (ref "_tuple_pattern") "tuple_pattern", ref "dict_pattern", ref "string",
    ref "concatenated_string", ref "true", ref "false", ref "none", seqs [optional "-", number],
    ref "complex_pattern", ref "dotted_name", "_"])),
  ("_as_pattern", seqs [ref "case_pattern", "as", ident]),
  ("union_pattern", rightAt 0 (seqs [ref "_simple_pattern",
    repeat1 (leftAt 0 (seqs ["|", ref "_simple_pattern"]))])),
  ("_list_pattern", seqs ["[", casePatterns, "]"]),
  ("_tuple_pattern", seqs ["(", casePatterns, ")"]),
  ("dict_pattern", seqs ["\x7b", optional (seqs [
    commaSep (choices [ref "_key_value_pattern", ref "splat_pattern"]), commaTail]), "\x7d"]),
  ("_key_value_pattern", seqs [field "key" (ref "_simple_pattern"), ":",
    field "value" (ref "case_pattern")]),
  ("keyword_pattern", seqs [ident, "=", ref "_simple_pattern"]),
  ("splat_pattern", atLevel 1 (seqs [choices ["*", "**"], choices [ident, "_"]])),
  ("class_pattern", seqs [ref "dotted_name", "(", casePatterns, ")"]),
  ("complex_pattern", atLevel 1 (seqs [optional "-", number, choices ["+", "-"], number]))]

private def splatTarget : Rule :=
  choices [ident, ref "keyword_identifier", ref "subscript", ref "attribute"]

/-- Parameters and the targets of assignments. -/
def targetPatterns : List Named := [
  ("_parameters", seqs [commaSep (ref "parameter"), commaTail]),
  ("_patterns", seqs [commaSep (ref "pattern"), commaTail]),
  ("parameter", choices [ident, ref "typed_parameter", ref "default_parameter",
    ref "typed_default_parameter", ref "list_splat_pattern", ref "tuple_pattern",
    ref "keyword_separator", ref "positional_separator", ref "dictionary_splat_pattern"]),
  ("pattern", choices [ident, ref "keyword_identifier", ref "subscript", ref "attribute",
    ref "list_splat_pattern", ref "tuple_pattern", ref "list_pattern"]),
  ("tuple_pattern", seqs ["(", optional (ref "_patterns"), ")"]),
  ("list_pattern", seqs ["[", optional (ref "_patterns"), "]"]),
  ("default_parameter", seqs [field "name" (choices [ident, ref "tuple_pattern"]), "=",
    field "value" expr]),
  ("typed_default_parameter", atLevel Level.typedParameter.rank (seqs [field "name" ident, ":",
    field "type" (ref "type"), "=", field "value" expr])),
  ("list_splat_pattern", seqs ["*", splatTarget]),
  ("dictionary_splat_pattern", seqs ["**", splatTarget]),
  ("as_pattern", leftAt 0 (seqs [expr, "as", field "alias" (named expr "as_pattern_target")]))]

/-- An infix `operator` between two operands of primary expressions. -/
private def infixRule (side : Side) (operator : String) (level : Level) : Rule :=
  .prec level.rank (some side) (seqs [field "left" (ref "primary_expression"),
    field "operator" operator, field "right" (ref "primary_expression")])

/-- Expressions. -/
def expressions : List Named := [
  ("_expression_within_for_in_clause",
    choices [expr, named (ref "lambda_within_for_in_clause") "lambda"]),
  ("expression", choices [ref "comparison_operator", ref "not_operator", ref "boolean_operator",
    ref "lambda", ref "primary_expression", ref "conditional_expression", ref "named_expression",
    ref "as_pattern"]),
  ("primary_expression", choices [ref "await", ref "binary_operator", ident,
    ref "keyword_identifier", ref "string", ref "concatenated_string", ref "integer", ref "float",
    ref "true", ref "false", ref "none", ref "unary_operator", ref "attribute", ref "subscript",
    ref "call", ref "list", ref "list_comprehension", ref "dictionary",
    ref "dictionary_comprehension", ref "set", ref "set_comprehension", ref "tuple",
    ref "parenthesized_expression", ref "generator_expression", ref "ellipsis",
    named (ref "list_splat_pattern") "list_splat"]),
  ("not_operator", atLevel Level.not.rank (seqs ["not", field "argument" expr])),
  ("boolean_operator", choices [
    leftAt Level.and.rank (seqs [field "left" expr, field "operator" "and", field "right" expr]),
    leftAt Level.or.rank (seqs [field "left" expr, field "operator" "or", field "right" expr])]),
  ("binary_operator", choices [infixRule .left "+" .plus, infixRule .left "-" .plus,
    infixRule .left "*" .times, infixRule .left "@" .times, infixRule .left "/" .times,
    infixRule .left "%" .times, infixRule .left "//" .times, infixRule .right "**" .power,
    infixRule .left "|" .bitOr, infixRule .left "&" .bitAnd, infixRule .left "^" .bitXor,
    infixRule .left "<<" .shift, infixRule .left ">>" .shift]),
  ("unary_operator", atLevel Level.unary.rank (seqs [field "operator" (choices ["+", "-", "~"]),
    field "argument" (ref "primary_expression")])),
  ("_not_in", seqs ["not", "in"]),
  ("_is_not", seqs ["is", "not"]),
  ("comparison_operator", leftAt Level.compare.rank (seqs [ref "primary_expression",
    repeat1 (seqs [field "operators" (choices ["<", "<=", "==", "!=", ">=", ">", "<>", "in",
      relabel ⟨"not in", false⟩ (ref "_not_in"), "is",
      relabel ⟨"is not", false⟩ (ref "_is_not")]), ref "primary_expression"])])),
  ("lambda", atLevel Level.lambda.rank (seqs ["lambda",
    field "parameters" (optional (ref "lambda_parameters")), ":", field "body" expr])),
  ("lambda_within_for_in_clause", seqs ["lambda",
    field "parameters" (optional (ref "lambda_parameters")), ":",
    field "body" (ref "_expression_within_for_in_clause")]),
  ("assignment", seqs [field "left" (ref "_left_hand_side"), choices [
    seqs ["=", field "right" (ref "_right_hand_side")],
    seqs [":", field "type" (ref "type")],
    seqs [":", field "type" (ref "type"), "=", field "right" (ref "_right_hand_side")]]]),
  ("augmented_assignment", seqs [field "left" (ref "_left_hand_side"),
    field "operator" (choices ["+=", "-=", "*=", "/=", "@=", "//=", "%=", "**=", ">>=", "<<=",
      "&=", "^=", "|="]), field "right" (ref "_right_hand_side")]),
  ("_left_hand_side", choices [ref "pattern", ref "pattern_list"]),
  ("pattern_list", seqs [ref "pattern", choices [",",
    seqs [repeat1 (seqs [",", ref "pattern"]), commaTail]]]),
  ("_right_hand_side", choices [expr, ref "expression_list", ref "assignment",
    ref "augmented_assignment", ref "pattern_list", ref "yield"]),
  ("yield", rightAt 0 (seqs ["yield",
    choices [seqs ["from", expr], optional (ref "_expressions")]])),
  ("attribute", atLevel Level.call.rank (seqs [field "object" (ref "primary_expression"), ".",
    field "attribute" ident])),
  ("subscript", atLevel Level.call.rank (seqs [field "value" (ref "primary_expression"), "[",
    commaSep (field "subscript" (choices [expr, ref "slice"])), commaTail, "]"])),
  ("slice", seqs [optional expr, ":", optional expr, optional (seqs [":", optional expr])]),
  ("ellipsis", "..."),
  ("call", atLevel Level.call.rank (seqs [field "function" (ref "primary_expression"),
    field "arguments" (choices [ref "generator_expression", ref "argument_list"])])),
  ("typed_parameter", atLevel Level.typedParameter.rank (seqs [
    choices [ident, ref "list_splat_pattern", ref "dictionary_splat_pattern"], ":",
    field "type" (ref "type")])),
  ("type", choices [atLevel 1 expr, ref "splat_type", ref "generic_type", ref "union_type",
    ref "constrained_type", ref "member_type"]),
  ("splat_type", atLevel 1 (seqs [choices ["*", "**"], ident])),
  ("generic_type", atLevel 1 (seqs [choices [ident, named "type" "identifier"],
    ref "type_parameter"])),
  ("union_type", leftAt 0 (seqs [ref "type", "|", ref "type"])),
  ("constrained_type", rightAt 0 (seqs [ref "type", ":", ref "type"])),
  ("member_type", seqs [ref "type", ".", ident]),
  ("keyword_argument", seqs [field "name" (choices [ident, ref "keyword_identifier"]), "=",
    field "value" expr])]

/-- Displays, comprehensions, strings, numbers and names. -/
def literals : List Named := [
  ("list", seqs ["[", optional (ref "_collection_elements"), "]"]),
  ("set", seqs ["\x7b", ref "_collection_elements", "\x7d"]),
  ("tuple", seqs ["(", optional (ref "_collection_elements"), ")"]),
  ("dictionary", seqs ["\x7b", optional (commaSep (choices [ref "pair", ref "dictionary_splat"])),
    commaTail, "\x7d"]),
  ("pair", seqs [field "key" expr, ":", field "value" expr]),
  ("list_comprehension", seqs ["[", field "body" expr, ref "_comprehension_clauses", "]"]),
  ("dictionary_comprehension",
    seqs ["\x7b", field "body" (ref "pair"), ref "_comprehension_clauses", "\x7d"]),
  ("set_comprehension", seqs ["\x7b", field "body" expr, ref "_comprehension_clauses", "\x7d"]),
  ("generator_expression", seqs ["(", field "body" expr, ref "_comprehension_clauses", ")"]),
  ("_comprehension_clauses", seqs [ref "for_in_clause",
    many (choices [ref "for_in_clause", ref "if_clause"])]),
  ("parenthesized_expression",
    atLevel Level.parenthesized.rank (seqs ["(", choices [expr, ref "yield"], ")"])),
  ("_collection_elements", seqs [commaSep (choices [expr, ref "yield", ref "list_splat",
    ref "parenthesized_list_splat"]), commaTail]),
  ("for_in_clause", leftAt 0 (seqs [optional "async", "for", field "left" (ref "_left_hand_side"),
    "in", field "right" (commaSep (ref "_expression_within_for_in_clause")), commaTail])),
  ("if_clause", seqs ["if", expr]),
  ("conditional_expression",
    rightAt Level.conditional.rank (seqs [expr, "if", expr, "else", expr])),
  ("concatenated_string", seqs [ref "string", repeat1 (ref "string")]),
  ("string", seqs [ref "string_start", many (choices [ref "interpolation", ref "string_content"]),
    ref "string_end"]),
  ("string_content", rightAt 0 (repeat1 (choices [ref "escape_interpolation",
    ref "escape_sequence", ref "_not_escape_sequence", ref "_string_content"]))),
  ("interpolation", seqs ["\x7b", field "expression" (ref "_f_expression"), optional "=",
    optional (field "type_conversion" (ref "type_conversion")),
    optional (field "format_specifier" (ref "format_specifier")), "\x7d"]),
  ("_f_expression", choices [expr, ref "expression_list", ref "pattern_list", ref "yield"]),
  ("escape_sequence", pattern "escape_sequence"),
  ("_not_escape_sequence", pattern "_not_escape_sequence"),
  ("format_specifier", seqs [":", many (choices [pattern "_format_text",
    named (ref "interpolation") "format_expression"])]),
  ("type_conversion", pattern "type_conversion"),
  ("integer", pattern "integer"),
  ("float", pattern "float"),
  ("identifier", pattern "identifier"),
  ("keyword_identifier", choices [
    atLevel (-3) (named (choices ["print", "exec", "async", "await"]) "identifier"),
    named (choices ["type", "match"]) "identifier"]),
  ("true", "True"),
  ("false", "False"),
  ("none", "None"),
  ("await", atLevel Level.unary.rank (seqs ["await", ref "primary_expression"])),
  ("comment", pattern "comment"),
  ("line_continuation", pattern "line_continuation"),
  ("positional_separator", "/"),
  ("keyword_separator", "*")]

/-- The grammar of Python sources. -/
def grammar : Grammar where
  rules := simpleStatements ++ compoundStatements ++ matchPatterns ++ targetPatterns ++ expressions
    ++ literals
  extras := ["comment", "line_continuation"]
  layout := ["_newline", "_indent", "_dedent", "string_start", "_string_content",
    "escape_interpolation", "string_end"]
  watched := ["comment", "]", ")", "\x7d", "except"]
  inlined := ["_simple_statement", "_compound_statement", "_suite", "_expressions",
    "_left_hand_side", "keyword_identifier"]
  supertypes := ["_simple_statement", "_compound_statement", "expression", "primary_expression",
    "pattern", "parameter"]
  word := "identifier"

end PayloadAtlas.Python
