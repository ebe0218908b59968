import JavaOutline.Grammar.Rule

/-!
The grammar of Java source text.
-/

namespace JavaOutline.Grammar

open Rule (ref seq alt opt many commas commas1 sepBy1 field named concat oneOf pattern)

namespace Level

/-- Binding strengths, loosest first. -/
def assign : Int := 1
def declaration : Int := 2
def elementValue : Int := 2
def ternary : Int := 3
def or : Int := 4
def and : Int := 5
def bitOr : Int := 6
def bitXor : Int := 7
def bitAnd : Int := 8
def equality : Int := 9
def generic : Int := 10
def relational : Int := 10
def shift : Int := 11
def add : Int := 12
def multiply : Int := 13
def cast : Int := 14
def unary : Int := 15
def classLiteral : Int := 17

end Level

namespace Spelling

open Pattern (chars)

/-- Decimal digits without a leading zero, in groups that underscores may divide. -/
def digits : Pattern :=
  Pattern.oneOf
    ["0",
     .seq (chars (CharSet.range '1' '9'))
       (Pattern.opt (.seq (Pattern.opt "_")
         (Pattern.sepBy1 (.some (chars CharSet.digit)) (.some "_"))))]

def decimalDigits : Pattern := Pattern.sepBy1 (.some (chars CharSet.digit)) "_"

def hexDigits : Pattern := Pattern.sepBy1 (.some (chars CharSet.hexDigit)) "_"

def longSuffix : Pattern := Pattern.opt (chars (CharSet.ofString "lL"))

def floatSuffix : Pattern := chars (CharSet.ofString "fFdD")

def sign : Pattern := Pattern.opt (chars (CharSet.ofString "-+"))

/-- A decimal exponent with its mark. -/
def exponent : List Pattern := [chars (CharSet.ofString "eE"), sign, decimalDigits]

def decimalInteger : Pattern := .seq digits longSuffix

def hexInteger : Pattern :=
  Pattern.concat [Pattern.oneOf ["0x", "0X"], hexDigits, longSuffix]

def octalInteger : Pattern :=
  Pattern.concat
    [Pattern.oneOf ["0o", "0O", "0"],
     Pattern.sepBy1 (.some (chars CharSet.octalDigit)) "_", longSuffix]

def binaryInteger : Pattern :=
  Pattern.concat
    [Pattern.oneOf ["0b", "0B"],
     Pattern.sepBy1 (.some (chars (CharSet.ofString "01"))) "_", longSuffix]

def decimalFloat : Pattern :=
  Pattern.oneOf
    [Pattern.concat
       [decimalDigits, ".", Pattern.opt decimalDigits, Pattern.opt (Pattern.concat exponent),
        Pattern.opt floatSuffix],
     Pattern.concat
       [".", decimalDigits, Pattern.opt (Pattern.concat exponent), Pattern.opt floatSuffix],
     Pattern.concat ([digits] ++ exponent ++ [Pattern.opt floatSuffix]),
     Pattern.concat [digits, Pattern.opt (Pattern.concat exponent), floatSuffix]]

def hexFloat : Pattern :=
  Pattern.concat
    [Pattern.oneOf ["0x", "0X"],
     Pattern.oneOf
       [.seq hexDigits (Pattern.opt "."),
        Pattern.concat [Pattern.opt hexDigits, ".", hexDigits]],
     Pattern.opt (Pattern.concat
       [chars (CharSet.ofString "pP"), sign, digits, Pattern.opt floatSuffix])]

def character : Pattern :=
  Pattern.concat
    ["'",
     .some (Pattern.oneOf
       [chars (CharSet.ofString "\\'\n").compl,
        .seq "\\" (chars (CharSet.ofString "\n").compl),
        "\\\n"]),
     "'"]

/-- A run of characters without quote or backslash. -/
def plainRun : Pattern := .some (chars (CharSet.ofString "\"\\").compl)

/-- A quote inside a text block with what follows it up to the next one. -/
def quotedRun : Pattern :=
  .seq "\""
    (Pattern.many (Pattern.oneOf [chars (CharSet.ofString "\"\\").compl, "\\\""]))

/-- A backslash before a character that has no escape meaning. -/
def looseEscape : Pattern := .seq "\\" (chars (CharSet.ofString "bfnrts'\"\\").compl)

def escape : Pattern :=
  .seq "\\" (Pattern.oneOf
    [chars ((CharSet.ofString "xu").union CharSet.octalDigit).compl,
     Pattern.concat
       [chars CharSet.octalDigit, Pattern.opt (chars CharSet.octalDigit),
        Pattern.opt (chars CharSet.octalDigit)],
     Pattern.concat ["x", chars CharSet.hexDigit, chars CharSet.hexDigit],
     Pattern.concat
       ["u", chars CharSet.hexDigit, chars CharSet.hexDigit, chars CharSet.hexDigit,
        chars CharSet.hexDigit],
     Pattern.concat ["u\x7b", .some (chars CharSet.hexDigit), "\x7d"]])

def identifier : Pattern :=
  .seq (chars CharSet.identifierStart) (Pattern.many (chars CharSet.identifierPart))

def lineComment : Pattern := .seq "//" (Pattern.many (chars (CharSet.ofString "\n").compl))

def blockComment : Pattern :=
  Pattern.concat
    ["/*", Pattern.many (chars (CharSet.ofString "*").compl), .some "*",
     Pattern.many (Pattern.concat
       [chars (CharSet.ofString "/*").compl, Pattern.many (chars (CharSet.ofString "*").compl),
        .some "*"]),
     "/"]

end Spelling

/-- A name that may also be one of the contextual keywords. -/
private def anyName : Rule := oneOf [ref "identifier", ref "_reserved_identifier"]

/-- A simple name standing for a type. -/
private def typeName : Rule := named "type_identifier" (ref "identifier")

private def annotations : Rule := many (ref "_annotation")

private def binary (operator : String) (level : Int) : Rule :=
  .prec level (some .left) (concat
    [field "left" (ref "expression"), field "operator" operator,
     field "right" (ref "expression")])

private def unary (operator : String) : Rule :=
  .prec Level.unary (some .left) (concat
    [field "operator" operator, field "operand" (ref "expression")])

private def texts (spellings : List String) : Rule := oneOf (spellings.map Rule.text)

private def literalRules : List (String × Rule) :=
  [("program", many (ref "_toplevel_statement")),
   ("_toplevel_statement", oneOf [ref "statement", ref "method_declaration"]),
   ("_literal", oneOf
     [ref "decimal_integer_literal", ref "hex_integer_literal", ref "octal_integer_literal",
      ref "binary_integer_literal", ref "decimal_floating_point_literal",
      ref "hex_floating_point_literal", ref "true", ref "false", ref "character_literal",
      ref "string_literal", ref "null_literal"]),
   ("decimal_integer_literal", pattern Spelling.decimalInteger),
   ("hex_integer_literal", pattern Spelling.hexInteger),
   ("octal_integer_literal", pattern Spelling.octalInteger),
   ("binary_integer_literal", pattern Spelling.binaryInteger),
   ("decimal_floating_point_literal", pattern Spelling.decimalFloat),
   ("hex_floating_point_literal", pattern Spelling.hexFloat),
   ("true", "true"),
   ("false", "false"),
   ("character_literal", pattern Spelling.character),
   ("string_literal", oneOf [ref "_string_literal", ref "_multiline_string_literal"]),
   ("_string_literal", concat
     ["\"",
      many (oneOf [ref "string_fragment", ref "escape_sequence", ref "string_interpolation"]),
      "\""]),
   ("_multiline_string_literal", concat
     ["\"\"\"",
      many (oneOf
        [named "multiline_string_fragment" (ref "_multiline_string_fragment"),
         ref "_escape_sequence", ref "string_interpolation"]),
      "\"\"\""]),
   ("string_fragment", .token true 1 Spelling.plainRun),
   ("_multiline_string_fragment",
     oneOf [pattern Spelling.plainRun, pattern Spelling.quotedRun]),
   ("string_interpolation", concat ["\\\x7b", ref "expression", "\x7d"]),
   ("_escape_sequence", oneOf
     [.prec 2 none (.token true 0 Spelling.looseEscape),
      .prec 1 none (ref "escape_sequence")]),
   ("escape_sequence", .token true 0 Spelling.escape),
   ("null_literal", "null")]

private def expressionRules : List (String × Rule) :=
  [("expression", oneOf
     [ref "assignment_expression", ref "binary_expression", ref "instanceof_expression",
      ref "lambda_expression", ref "ternary_expression", ref "update_expression",
      ref "primary_expression", ref "unary_expression", ref "cast_expression",
      ref "switch_expression"]),
   ("cast_expression", .prec Level.cast none (oneOf
     [concat ["(", field "type" (ref "_type"), ")", field "value" (ref "expression")],
      concat
        ["(", sepBy1 (field "type" (ref "_type")) "&", ")",
         field "value" (oneOf [ref "primary_expression", ref "lambda_expression"])]])),
   ("assignment_expression", .prec Level.assign (some .right) (concat
     [field "left" (oneOf
        [ref "identifier", ref "_reserved_identifier", ref "field_access", ref "array_access"]),
      field "operator" (texts
        ["=", "+=", "-=", "*=", "/=", "&=", "|=", "^=", "%=", "<<=", ">>=", ">>>="]),
      field "right" (ref "expression")])),
   ("binary_expression", oneOf
     [binary ">" Level.relational, binary "<" Level.relational, binary ">=" Level.relational,
      binary "<=" Level.relational, binary "==" Level.equality, binary "!=" Level.equality,
      binary "&&" Level.and, binary "||" Level.or, binary "+" Level.add, binary "-" Level.add,
      binary "*" Level.multiply, binary "/" Level.multiply, binary "&" Level.bitAnd,
      binary "|" Level.bitOr, binary "^" Level.bitXor, binary "%" Level.multiply,
      binary "<<" Level.shift, binary ">>" Level.shift, binary ">>>" Level.shift]),
   ("instanceof_expression", .prec Level.relational none (concat
     [field "left" (ref "expression"), "instanceof", opt "final",
      oneOf
        [concat [field "right" (ref "_type"), opt (field "name" anyName)],
         field "pattern" (ref "record_pattern")]])),
   ("lambda_expression", concat
     [field "parameters" (oneOf
        [ref "identifier", ref "formal_parameters", ref "inferred_parameters",
         ref "_reserved_identifier"]),
      "->",
      field "body" (oneOf [ref "expression", ref "block"])]),
   ("inferred_parameters", concat ["(", commas1 anyName, ")"]),
   ("ternary_expression", .prec Level.ternary (some .right) (concat
     [field "condition" (ref "expression"), "?", field "consequence" (ref "expression"), ":",
      field "alternative" (ref "expression")])),
   ("unary_expression", oneOf [unary "+", unary "-", unary "!", unary "~"]),
   ("update_expression", .prec Level.unary (some .left) (oneOf
     [concat [ref "expression", "++"], concat [ref "expression", "--"],
      concat ["++", ref "expression"], concat ["--", ref "expression"]])),
   ("primary_expression", oneOf
     [ref "_literal", ref "class_literal", ref "this", ref "identifier",
      ref "_reserved_identifier", ref "parenthesized_expression",
      ref "object_creation_expression", ref "field_access", ref "array_access",
      ref "method_invocation", ref "method_reference", ref "array_creation_expression",
      ref "template_expression"]),
   ("array_creation_expression", .prec 0 (some .right) (concat
     ["new", annotations, field "type" (ref "_simple_type"),
      oneOf
        [concat
           [field "dimensions" (.some (ref "dimensions_expr")),
            field "dimensions" (opt (ref "dimensions"))],
         concat
           [field "dimensions" (ref "dimensions"), field "value" (ref "array_initializer")]]])),
   ("dimensions_expr", concat [annotations, "[", ref "expression", "]"]),
   ("parenthesized_expression", concat ["(", ref "expression", ")"]),
   ("class_literal",
     .dynamic Level.classLiteral (concat [ref "_unannotated_type", ".", "class"])),
   ("object_creation_expression", oneOf
     [ref "_unqualified_object_creation_expression",
      concat
        [ref "primary_expression", ".", ref "_unqualified_object_creation_expression"]]),
   ("_unqualified_object_creation_expression", .prec 0 (some .right) (concat
     ["new",
      oneOf
        [concat [annotations, field "type_arguments" (ref "type_arguments"), annotations],
         annotations],
      field "type" (ref "_simple_type"), field "arguments" (ref "argument_list"),
      opt (ref "class_body")])),
   ("field_access", concat
     [field "object" (oneOf [ref "primary_expression", ref "super"]),
      opt (concat [".", ref "super"]), ".",
      field "field" (oneOf [ref "identifier", ref "_reserved_identifier", ref "this"])]),
   ("template_expression", concat
     [field "template_processor" (ref "primary_expression"), ".",
      field "template_argument" (ref "string_literal")]),
   ("array_access", concat
     [field "array" (ref "primary_expression"), "[", field "index" (ref "expression"), "]"]),
   ("method_invocation", concat
     [oneOf
        [field "name" anyName,
         concat
           [field "object" (oneOf [ref "primary_expression", ref "super"]), ".",
            opt (concat [ref "super", "."]), field "type_arguments" (opt (ref "type_arguments")),
            field "name" anyName]],
      field "arguments" (ref "argument_list")]),
   ("argument_list", concat ["(", commas (ref "expression"), ")"]),
   ("method_reference", concat
     [oneOf [ref "_type", ref "primary_expression", ref "super"], "::",
      opt (ref "type_arguments"), oneOf ["new", ref "identifier"]]),
   ("type_arguments", concat ["<", commas (oneOf [ref "_type", ref "wildcard"]), ">"]),
   ("wildcard", concat [annotations, "?", opt (ref "_wildcard_bounds")]),
   ("_wildcard_bounds", oneOf
     [concat ["extends", ref "_type"], concat [ref "super", ref "_type"]]),
   ("dimensions", .prec 0 (some .right) (.some (concat [annotations, "[", "]"]))),
   ("switch_expression", concat
     ["switch", field "condition" (ref "parenthesized_expression"),
      field "body" (ref "switch_block")]),
   ("switch_block", concat
     ["\x7b", oneOf [many (ref "switch_block_statement_group"), many (ref "switch_rule")],
      "\x7d"]),
   ("switch_block_statement_group", .prec 0 (some .left) (concat
     [.some (concat [ref "switch_label", ":"]), many (ref "statement")])),
   ("switch_rule", concat
     [ref "switch_label", "->",
      oneOf [ref "expression_statement", ref "throw_statement", ref "block"]]),
   ("switch_label", oneOf
     [concat
        ["case", oneOf [ref "pattern", commas1 (ref "expression")], opt (ref "guard")],
      "default"]),
   ("pattern", oneOf [ref "type_pattern", ref "record_pattern"]),
   ("type_pattern", concat [ref "_unannotated_type", anyName]),
   ("record_pattern", concat
     [oneOf [ref "identifier", ref "_reserved_identifier", ref "generic_type"],
      ref "record_pattern_body"]),
   ("record_pattern_body", concat
     ["(", commas (oneOf [ref "record_pattern_component", ref "record_pattern"]), ")"]),
   ("record_pattern_component", oneOf
     [ref "underscore_pattern", concat [ref "_unannotated_type", anyName]]),
   ("underscore_pattern", "_"),
   ("guard", concat ["when", ref "expression"])]

private def statementRules : List (String × Rule) :=
  [("statement", oneOf
     [ref "declaration", ref "expression_statement", ref "labeled_statement",
      ref "if_statement", ref "while_statement", ref "for_statement",
      ref "enhanced_for_statement", ref "block", ";", ref "assert_statement",
      ref "do_statement", ref "break_statement", ref "continue_statement",
      ref "return_statement", ref "yield_statement", ref "switch_expression",
      ref "synchronized_statement", ref "local_variable_declaration", ref "throw_statement",
      ref "try_statement", ref "try_with_resources_statement"]),
   ("block", concat ["\x7b", many (ref "statement"), "\x7d"]),
   ("expression_statement", concat [ref "expression", ";"]),
   ("labeled_statement", concat [ref "identifier", ":", ref "statement"]),
   ("assert_statement", oneOf
     [concat ["assert", ref "expression", ";"],
      concat ["assert", ref "expression", ":", ref "expression", ";"]]),
   ("do_statement", concat
     ["do", field "body" (ref "statement"), "while",
      field "condition" (ref "parenthesized_expression"), ";"]),
   ("break_statement", concat ["break", opt (ref "identifier"), ";"]),
   ("continue_statement", concat ["continue", opt (ref "identifier"), ";"]),
   ("return_statement", concat ["return", opt (ref "expression"), ";"]),
   ("yield_statement", concat ["yield", ref "expression", ";"]),
   ("synchronized_statement", concat
     ["synchronized", ref "parenthesized_expression", field "body" (ref "block")]),
   ("throw_statement", concat ["throw", ref "expression", ";"]),
   ("try_statement", concat
     ["try", field "body" (ref "block"),
      oneOf
        [.some (ref "catch_clause"),
         concat [many (ref "catch_clause"), ref "finally_clause"]]]),
   ("catch_clause", concat
     ["catch", "(", ref "catch_formal_parameter", ")", field "body" (ref "block")]),
   ("catch_formal_parameter", concat
     [opt (ref "modifiers"), ref "catch_type", ref "_variable_declarator_id"]),
   ("catch_type", sepBy1 (ref "_unannotated_type") "|"),
   ("finally_clause", concat ["finally", ref "block"]),
   ("try_with_resources_statement", concat
     ["try", field "resources" (ref "resource_specification"), field "body" (ref "block"),
      many (ref "catch_clause"), opt (ref "finally_clause")]),
   ("resource_specification", concat ["(", sepBy1 (ref "resource") ";", opt ";", ")"]),
   ("resource", oneOf
     [concat
        [opt (ref "modifiers"), field "type" (ref "_unannotated_type"),
         ref "_variable_declarator_id", "=", field "value" (ref "expression")],
      ref "identifier", ref "field_access"]),
   ("if_statement", .prec 0 (some .right) (concat
     ["if", field "condition" (ref "parenthesized_expression"),
      field "consequence" (ref "statement"),
      opt (concat ["else", field "alternative" (ref "statement")])])),
   ("while_statement", concat
     ["while", field "condition" (ref "parenthesized_expression"),
      field "body" (ref "statement")]),
   ("for_statement", concat
     ["for", "(",
      oneOf
        [field "init" (ref "local_variable_declaration"),
         concat [commas (field "init" (ref "expression")), ";"]],
      field "condition" (opt (ref "expression")), ";",
      commas (field "update" (ref "expression")), ")", field "body" (ref "statement")]),
   ("enhanced_for_statement", concat
     ["for", "(", opt (ref "modifiers"), field "type" (ref "_unannotated_type"),
      ref "_variable_declarator_id", ":", field "value" (ref "expression"), ")",
      field "body" (ref "statement")])]

private def annotationRules : List (String × Rule) :=
  [("_annotation", oneOf [ref "marker_annotation", ref "annotation"]),
   ("marker_annotation", concat ["@", field "name" (ref "_name")]),
   ("annotation", concat
     ["@", field "name" (ref "_name"),
      field "arguments" (ref "annotation_argument_list")]),
   ("annotation_argument_list", concat
     ["(", oneOf [ref "_element_value", commas (ref "element_value_pair")], ")"]),
   ("element_value_pair", concat
     [field "key" anyName, "=", field "value" (ref "_element_value")]),
   ("_element_value", .prec Level.elementValue none (oneOf
     [ref "expression", ref "element_value_array_initializer", ref "_annotation"])),
   ("element_value_array_initializer", concat
     ["\x7b", commas (ref "_element_value"), opt ",", "\x7d"])]

private def moduleRules : List (String × Rule) :=
  [("declaration", .prec Level.declaration none (oneOf
     [ref "module_declaration", ref "package_declaration", ref "import_declaration",
      ref "class_declaration", ref "record_declaration", ref "interface_declaration",
      ref "annotation_type_declaration", ref "enum_declaration"])),
   ("module_declaration", concat
     [annotations, opt "open", "module", field "name" (ref "_name"),
      field "body" (ref "module_body")]),
   ("module_body", concat ["\x7b", many (ref "module_directive"), "\x7d"]),
   ("module_directive", oneOf
     [ref "requires_module_directive", ref "exports_module_directive",
      ref "opens_module_directive", ref "uses_module_directive",
      ref "provides_module_directive"]),
   ("requires_module_directive", concat
     ["requires", many (field "modifiers" (ref "requires_modifier")),
      field "module" (ref "_name"), ";"]),
   ("requires_modifier", texts ["transitive", "static"]),
   ("exports_module_directive", concat
     ["exports", field "package" (ref "_name"),
      opt (concat
        ["to", field "modules" (ref "_name"),
         many (concat [",", field "modules" (ref "_name")])]),
      ";"]),
   ("opens_module_directive", concat
     ["opens", field "package" (ref "_name"),
      opt (concat
        ["to", field "modules" (ref "_name"),
         many (concat [",", field "modules" (ref "_name")])]),
      ";"]),
   ("uses_module_directive", concat ["uses", field "type" (ref "_name"), ";"]),
   ("provides_module_directive", concat
     ["provides", field "provided" (ref "_name"), "with", ref "_name",
      many (concat [",", field "provider" (ref "_name")]), ";"]),
   ("package_declaration", concat [annotations, "package", ref "_name", ";"]),
   ("import_declaration", concat
     ["import", opt "static", ref "_name", opt (concat [".", ref "asterisk"]), ";"]),
   ("asterisk", "*")]

private def classRules : List (String × Rule) :=
  [("enum_declaration", concat
     [opt (ref "modifiers"), "enum", field "name" (ref "identifier"),
      field "interfaces" (opt (ref "super_interfaces")), field "body" (ref "enum_body")]),
   ("enum_body", concat
     ["\x7b", commas (ref "enum_constant"), opt ",", opt (ref "enum_body_declarations"),
      "\x7d"]),
   ("enum_body_declarations", concat [";", many (ref "_class_body_declaration")]),
   ("enum_constant", concat
     [opt (ref "modifiers"), field "name" (ref "identifier"),
      field "arguments" (opt (ref "argument_list")), field "body" (opt (ref "class_body"))]),
   ("class_declaration", concat
     [opt (ref "modifiers"), "class", field "name" (ref "identifier"),
      opt (field "type_parameters" (ref "type_parameters")),
      opt (field "superclass" (ref "superclass")),
      opt (field "interfaces" (ref "super_interfaces")),
      opt (field "permits" (ref "permits")), field "body" (ref "class_body")]),
   ("modifiers", .some (oneOf
     [ref "_annotation", "public", "protected", "private", "abstract", "static", "final",
      "strictfp", "default", "synchronized", "native", "transient", "volatile", "sealed",
      "non-sealed"])),
   ("type_parameters", concat ["<", commas1 (ref "type_parameter"), ">"]),
   ("type_parameter", concat [annotations, typeName, opt (ref "type_bound")]),
   ("type_bound", concat ["extends", ref "_type", many (concat ["&", ref "_type"])]),
   ("superclass", concat ["extends", ref "_type"]),
   ("super_interfaces", concat ["implements", ref "type_list"]),
   ("type_list", concat [ref "_type", many (concat [",", ref "_type"])]),
   ("permits", concat ["permits", ref "type_list"]),
   ("class_body", concat ["\x7b", many (ref "_class_body_declaration"), "\x7d"]),
   ("_class_body_declaration", oneOf
     [ref "field_declaration", ref "record_declaration", ref "method_declaration",
      ref "compact_constructor_declaration", ref "class_declaration",
      ref "interface_declaration", ref "annotation_type_declaration", ref "enum_declaration",
      ref "block", ref "static_initializer", ref "constructor_declaration", ";"]),
   ("static_initializer", concat ["static", ref "block"]),
   ("constructor_declaration", concat
     [opt (ref "modifiers"), ref "_constructor_declarator", opt (ref "throws"),
      field "body" (ref "constructor_body")]),
   ("_constructor_declarator", concat
     [field "type_parameters" (opt (ref "type_parameters")), field "name" (ref "identifier"),
      field "parameters" (ref "formal_parameters")]),
   ("constructor_body", concat
     ["\x7b", opt (ref "explicit_constructor_invocation"), many (ref "statement"), "\x7d"]),
   ("explicit_constructor_invocation", concat
     [oneOf
        [concat
           [field "type_arguments" (opt (ref "type_arguments")),
            field "constructor" (oneOf [ref "this", ref "super"])],
         concat
           [field "object" (ref "primary_expression"), ".",
            field "type_arguments" (opt (ref "type_arguments")),
            field "constructor" (ref "super")]],
      field "arguments" (ref "argument_list"), ";"]),
   ("_name", oneOf [ref "identifier", ref "_reserved_identifier", ref "scoped_identifier"]),
   ("scoped_identifier", concat
     [field "scope" (ref "_name"), ".", field "name" (ref "identifier")]),
   ("field_declaration", concat
     [opt (ref "modifiers"), field "type" (ref "_unannotated_type"),
      ref "_variable_declarator_list", ";"]),
   ("record_declaration", concat
     [opt (ref "modifiers"), "record", field "name" (ref "identifier"),
      opt (field "type_parameters" (ref "type_parameters")),
      field "parameters" (ref "formal_parameters"),
      opt (field "interfaces" (ref "super_interfaces")), field "body" (ref "class_body")]),
   ("annotation_type_declaration", concat
     [opt (ref "modifiers"), "@interface", field "name" (ref "identifier"),
      field "body" (ref "annotation_type_body")]),
   ("annotation_type_body", concat
     ["\x7b",
      many (oneOf
        [ref "annotation_type_element_declaration", ref "constant_declaration",
         ref "class_declaration", ref "interface_declaration", ref "enum_declaration",
         ref "annotation_type_declaration", ";"]),
      "\x7d"]),
   ("annotation_type_element_declaration", concat
     [opt (ref "modifiers"), field "type" (ref "_unannotated_type"), field "name" anyName, "(",
      ")", field "dimensions" (opt (ref "dimensions")), opt (ref "_default_value"), ";"]),
   ("_default_value", concat ["default", field "value" (ref "_element_value")]),
   ("interface_declaration", concat
     [opt (ref "modifiers"), "interface", field "name" (ref "identifier"),
      field "type_parameters" (opt (ref "type_parameters")), opt (ref "extends_interfaces"),
      opt (field "permits" (ref "permits")), field "body" (ref "interface_body")]),
   ("extends_interfaces", concat ["extends", ref "type_list"]),
   ("interface_body", concat
     ["\x7b",
      many (oneOf
        [ref "constant_declaration", ref "enum_declaration", ref "method_declaration",
         ref "class_declaration", ref "interface_declaration", ref "record_declaration",
         ref "annotation_type_declaration", ";"]),
      "\x7d"]),
   ("constant_declaration", concat
     [opt (ref "modifiers"), field "type" (ref "_unannotated_type"),
      ref "_variable_declarator_list", ";"]),
   ("_variable_declarator_list", commas1 (field "declarator" (ref "variable_declarator"))),
   ("variable_declarator", concat
     [ref "_variable_declarator_id",
      opt (concat ["=", field "value" (ref "_variable_initializer")])]),
   ("_variable_declarator_id", concat
     [field "name"
        (oneOf [ref "identifier", ref "_reserved_identifier", ref "underscore_pattern"]),
      field "dimensions" (opt (ref "dimensions"))]),
   ("_variable_initializer", oneOf [ref "expression", ref "array_initializer"]),
   ("array_initializer", concat
     ["\x7b", commas (ref "_variable_initializer"), opt ",", "\x7d"])]

private def typeRules : List (String × Rule) :=
  [("_type", oneOf [ref "_unannotated_type", ref "annotated_type"]),
   ("_unannotated_type", oneOf [ref "_simple_type", ref "array_type"]),
   ("_simple_type", oneOf
     [ref "void_type", ref "integral_type", ref "floating_point_type", ref "boolean_type",
      typeName, ref "scoped_type_identifier", ref "generic_type"]),
   ("annotated_type", concat [.some (ref "_annotation"), ref "_unannotated_type"]),
   ("scoped_type_identifier", concat
     [oneOf [typeName, ref "scoped_type_identifier", ref "generic_type"], ".", annotations,
      typeName]),
   ("generic_type", .dynamic Level.generic (concat
     [oneOf [typeName, ref "scoped_type_identifier"], ref "type_arguments"])),
   ("array_type", concat
     [field "element" (ref "_unannotated_type"), field "dimensions" (ref "dimensions")]),
   ("integral_type", texts ["byte", "short", "int", "long", "char"]),
   ("floating_point_type", texts ["float", "double"]),
   ("boolean_type", "boolean"),
   ("void_type", "void")]

private def methodRules : List (String × Rule) :=
  [("_method_header", concat
     [opt (concat [field "type_parameters" (ref "type_parameters"), annotations]),
      field "type" (ref "_unannotated_type"), ref "_method_declarator",
      opt (ref "throws")]),
   ("_method_declarator", concat
     [field "name" anyName, field "parameters" (ref "formal_parameters"),
      field "dimensions" (opt (ref "dimensions"))]),
   ("formal_parameters", concat
     ["(",
      oneOf
        [ref "receiver_parameter",
         concat
           [opt (concat [ref "receiver_parameter", ","]),
            commas (oneOf [ref "formal_parameter", ref "spread_parameter"])]],
      ")"]),
   ("formal_parameter", concat
     [opt (ref "modifiers"), field "type" (ref "_unannotated_type"),
      ref "_variable_declarator_id"]),
   ("receiver_parameter", concat
     [annotations, ref "_unannotated_type", many (concat [ref "identifier", "."]),
      ref "this"]),
   ("spread_parameter", concat
     [opt (ref "modifiers"), ref "_unannotated_type", "...", annotations,
      ref "variable_declarator"]),
   ("throws", concat ["throws", commas1 (ref "_type")]),
   ("local_variable_declaration", concat
     [opt (ref "modifiers"), field "type" (ref "_unannotated_type"),
      ref "_variable_declarator_list", ";"]),
   ("method_declaration", concat
     [opt (ref "modifiers"), ref "_method_header",
      oneOf [field "body" (ref "block"), ";"]]),
   ("compact_constructor_declaration", concat
     [opt (ref "modifiers"), field "name" (ref "identifier"), field "body" (ref "block")]),
   ("_reserved_identifier", oneOf
     [.prec (-3) none
        (named "identifier" (texts ["open", "module", "record", "with", "sealed"])),
      named "identifier" "yield"]),
   ("this", "this"),
   ("super", "super"),
   ("identifier", pattern Spelling.identifier),
   ("line_comment", pattern Spelling.lineComment),
   ("block_comment", pattern Spelling.blockComment)]

/-- The grammar of a Java source file. A file is a run of statements and methods, which covers
the declarations of the language and fragments of code alike. -/
def java : Grammar where
  rules :=
    literalRules ++ expressionRules ++ statementRules ++ annotationRules ++ moduleRules ++
      classRules ++ typeRules ++ methodRules
  extras := ["line_comment", "block_comment"]
  separators := CharSet.blank
  groups :=
    ["expression", "declaration", "statement", "primary_expression", "_literal", "_type",
     "_simple_type", "_unannotated_type", "module_directive"]
  inlined := ["_name", "_simple_type", "_class_body_declaration", "_variable_initializer"]
  word := "identifier"

end JavaOutline.Grammar
