import Typeahead.Production

namespace Typeahead.Language.Script

/-! The rules of Kotlin scripts. -/

/-- The rules with their alternatives.  A rule whose name starts with an underscore hands its
children to the rule that uses it. -/
def alternatives : List (String × List (List String)) := [
    ("kotlin_file", [["__kotlin_file_star_0"], []]),
    ("_file_item", [["package_header"], ["import_header"], ["statement"], ["_semi"]]),
    ("_semi", [["NL"], ["SEMICOLON"]]),
    ("package_header", [["PACKAGE", "identifier"]]),
    ("import_header", [["IMPORT", "identifier", "AS", "simple_identifier"],
      ["IMPORT", "identifier"]]),
    ("identifier", [["simple_identifier", "__identifier_star_1"], ["simple_identifier"]]),
    ("simple_identifier", [["IDENTIFIER"]]),
    ("statements", [["__statements_star_2"], []]),
    ("_statement_item", [["statement"], ["_semi"]]),
    ("statement", [["label", "_statement_body"], ["_statement_body"]]),
    ("label", [["LABEL_DEFINITION"]]),
    ("_statement_body", [["_declaration"], ["assignment"], ["_loop_statement"], ["expression"]]),
    ("_declaration", [["class_declaration"], ["object_declaration"], ["function_declaration"],
      ["property_declaration"]]),
    ("assignment", [["expression", "_assignment_operator", "expression"]]),
    ("_assignment_operator", [["ASSIGNMENT"], ["ADD_ASSIGNMENT"], ["SUB_ASSIGNMENT"],
      ["MULT_ASSIGNMENT"], ["DIV_ASSIGNMENT"], ["MOD_ASSIGNMENT"]]),
    ("_loop_statement", [["for_statement"], ["while_statement"], ["do_while_statement"]]),
    ("for_statement", [["FOR", "LPAREN", "for_variable", "IN", "expression", "RPAREN",
        "control_body"]]),
    ("for_variable", [["simple_identifier", "COLON", "type"], ["simple_identifier"]]),
    ("while_statement", [["WHILE", "LPAREN", "expression", "RPAREN", "control_body"]]),
    ("do_while_statement", [["DO", "control_body", "WHILE", "LPAREN", "expression", "RPAREN"]]),
    ("block", [["LCURL", "statements", "RCURL"]]),
    ("control_body", [["block"], ["statement"]]),
    ("property_declaration", [["VAL", "variable_declaration", "ASSIGNMENT", "expression"],
      ["VAL", "variable_declaration"],
      ["VAR", "variable_declaration", "ASSIGNMENT", "expression"],
      ["VAR", "variable_declaration"]]),
    ("variable_declaration", [["simple_identifier", "COLON", "type"], ["simple_identifier"]]),
    ("function_declaration", [["FUN", "simple_identifier", "function_value_parameters", "COLON",
        "type", "function_body"],
      ["FUN", "simple_identifier", "function_value_parameters", "COLON", "type"],
      ["FUN", "simple_identifier", "function_value_parameters", "function_body"],
      ["FUN", "simple_identifier", "function_value_parameters"]]),
    ("function_value_parameters", [["LPAREN", "function_value_parameter",
        "__function_value_parameters_star_3", "RPAREN"],
      ["LPAREN", "function_value_parameter", "RPAREN"], ["LPAREN", "RPAREN"]]),
    ("function_value_parameter", [["simple_identifier", "COLON", "type", "ASSIGNMENT",
        "expression"],
      ["simple_identifier", "COLON", "type"]]),
    ("function_body", [["block"], ["ASSIGNMENT", "expression"]]),
    ("class_declaration", [["CLASS", "simple_identifier", "primary_constructor", "COLON",
        "delegation_specifiers", "class_body"],
      ["CLASS", "simple_identifier", "primary_constructor", "COLON", "delegation_specifiers"],
      ["CLASS", "simple_identifier", "primary_constructor", "class_body"],
      ["CLASS", "simple_identifier", "primary_constructor"],
      ["CLASS", "simple_identifier", "COLON", "delegation_specifiers", "class_body"],
      ["CLASS", "simple_identifier", "COLON", "delegation_specifiers"],
      ["CLASS", "simple_identifier", "class_body"], ["CLASS", "simple_identifier"]]),
    ("primary_constructor", [["LPAREN", "class_parameter", "__primary_constructor_star_4",
        "RPAREN"],
      ["LPAREN", "class_parameter", "RPAREN"], ["LPAREN", "RPAREN"]]),
    ("class_parameter", [["VAL", "simple_identifier", "COLON", "type", "ASSIGNMENT", "expression"],
      ["VAL", "simple_identifier", "COLON", "type"],
      ["VAR", "simple_identifier", "COLON", "type", "ASSIGNMENT", "expression"],
      ["VAR", "simple_identifier", "COLON", "type"],
      ["simple_identifier", "COLON", "type", "ASSIGNMENT", "expression"],
      ["simple_identifier", "COLON", "type"]]),
    ("object_declaration", [["OBJECT", "simple_identifier", "COLON", "delegation_specifiers",
        "class_body"],
      ["OBJECT", "simple_identifier", "COLON", "delegation_specifiers"],
      ["OBJECT", "simple_identifier", "class_body"], ["OBJECT", "simple_identifier"]]),
    ("delegation_specifiers", [["delegation_specifier", "__delegation_specifiers_star_5"],
      ["delegation_specifier"]]),
    ("delegation_specifier", [["user_type", "value_arguments"], ["user_type"]]),
    ("class_body", [["LCURL", "statements", "RCURL"]]),
    ("type", [["user_type", "QUEST"], ["user_type"]]),
    ("user_type", [["simple_user_type", "__user_type_star_6"], ["simple_user_type"]]),
    ("simple_user_type", [["simple_identifier", "type_arguments"], ["simple_identifier"]]),
    ("type_arguments", [["LANGLE", "type", "__type_arguments_star_7", "RANGLE"],
      ["LANGLE", "type", "RANGLE"]]),
    ("expression", [["disjunction"]]),
    ("disjunction", [["conjunction", "__disjunction_star_8"], ["conjunction"]]),
    ("conjunction", [["equality", "__conjunction_star_9"], ["equality"]]),
    ("equality", [["comparison", "__equality_star_10"], ["comparison"]]),
    ("_equality_operator", [["EXCL_EQ"], ["EXCL_EQEQ"], ["EQEQ"], ["EQEQEQ"]]),
    ("comparison", [["infix_operation", "__comparison_star_11"], ["infix_operation"]]),
    ("_comparison_operator", [["LANGLE"], ["RANGLE"], ["LE"], ["GE"]]),
    ("infix_operation", [["elvis_expression", "__infix_operation_star_12"],
      ["elvis_expression"]]),
    ("_in_operator", [["IN"], ["NOT_IN"]]),
    ("_is_operator", [["IS"], ["NOT_IS"]]),
    ("elvis_expression", [["range_expression", "__elvis_expression_star_13"],
      ["range_expression"]]),
    ("range_expression", [["additive_expression", "__range_expression_star_14"],
      ["additive_expression"]]),
    ("additive_expression", [["multiplicative_expression", "__additive_expression_star_15"],
      ["multiplicative_expression"]]),
    ("_additive_operator", [["ADD"], ["SUB"]]),
    ("multiplicative_expression", [["as_expression", "__multiplicative_expression_star_16"],
      ["as_expression"]]),
    ("_multiplicative_operator", [["MULT"], ["DIV"], ["MOD"]]),
    ("as_expression", [["prefix_unary_expression", "__as_expression_star_17"],
      ["prefix_unary_expression"]]),
    ("_as_operator", [["AS"], ["AS_SAFE"]]),
    ("prefix_unary_expression", [["__prefix_unary_expression_star_18", "postfix_unary_expression"],
      ["postfix_unary_expression"]]),
    ("_unary_prefix", [["INCR"], ["DECR"], ["SUB"], ["ADD"], ["EXCL"]]),
    ("postfix_unary_expression", [["primary_expression", "__postfix_unary_expression_star_19"],
      ["primary_expression"]]),
    ("postfix_unary_suffix", [["INCR"], ["DECR"], ["call_suffix"], ["indexing_suffix"],
      ["navigation_suffix"]]),
    ("call_suffix", [["value_arguments", "annotated_lambda"], ["value_arguments"],
      ["annotated_lambda"]]),
    ("value_arguments", [["LPAREN", "value_argument", "__value_arguments_star_20", "RPAREN"],
      ["LPAREN", "value_argument", "RPAREN"], ["LPAREN", "RPAREN"]]),
    ("value_argument", [["suggest_argument", "ASSIGNMENT", "expression"], ["expression"]]),
    ("suggest_argument", [["simple_identifier"]]),
    ("annotated_lambda", [["lambda_literal"]]),
    ("lambda_literal", [["LCURL", "lambda_parameters", "ARROW", "statements", "RCURL"],
      ["LCURL", "statements", "RCURL"]]),
    ("lambda_parameters", [["lambda_parameter", "__lambda_parameters_star_21"],
      ["lambda_parameter"]]),
    ("lambda_parameter", [["simple_identifier", "COLON", "type"], ["simple_identifier"]]),
    ("indexing_suffix", [["LSQUARE", "expression", "__indexing_suffix_star_22", "RSQUARE"],
      ["LSQUARE", "expression", "RSQUARE"]]),
    ("navigation_suffix", [["DOT", "simple_identifier"], ["SAFE_DOT", "simple_identifier"]]),
    ("primary_expression", [["parenthesized_expression"], ["variable_read"],
      ["literal_constant"], ["string_literal"], ["this_expression"], ["if_expression"],
      ["when_expression"], ["try_expression"], ["jump_expression"]]),
    ("parenthesized_expression", [["LPAREN", "expression", "RPAREN"]]),
    ("variable_read", [["simple_identifier"]]),
    ("this_expression", [["THIS", "LABEL_REFERENCE"], ["THIS"]]),
    ("literal_constant", [["BOOLEAN"], ["INTEGER"], ["HEX"], ["BIN"], ["CHARACTER"], ["REAL"],
      ["DOUBLE"], ["LONG"], ["NULL"]]),
    ("string_literal", [["line_string_literal"], ["multi_line_string_literal"]]),
    ("line_string_literal", [["QUOTE_OPEN", "LINE_STR_TEXT", "QUOTE_CLOSE"],
      ["QUOTE_OPEN", "QUOTE_CLOSE"]]),
    ("multi_line_string_literal", [["TRIPLE_QUOTE_OPEN", "MULTI_LINE_STR_TEXT",
        "TRIPLE_QUOTE_CLOSE"],
      ["TRIPLE_QUOTE_OPEN", "TRIPLE_QUOTE_CLOSE"]]),
    ("if_expression", [["IF", "LPAREN", "expression", "RPAREN", "control_body", "ELSE",
        "control_body"],
      ["IF", "LPAREN", "expression", "RPAREN", "control_body"]]),
    ("when_expression", [["WHEN", "LPAREN", "expression", "RPAREN", "LCURL",
        "__when_expression_star_23", "RCURL"],
      ["WHEN", "LPAREN", "expression", "RPAREN", "LCURL", "RCURL"],
      ["WHEN", "LCURL", "__when_expression_star_23", "RCURL"], ["WHEN", "LCURL", "RCURL"]]),
    ("_when_item", [["when_entry"], ["NL"]]),
    ("when_entry", [["when_condition", "__when_entry_star_24", "ARROW", "control_body"],
      ["when_condition", "ARROW", "control_body"], ["ELSE", "ARROW", "control_body"]]),
    ("when_condition", [["expression"], ["range_test"], ["type_test"]]),
    ("range_test", [["_in_operator", "expression"]]),
    ("type_test", [["_is_operator", "type"]]),
    ("try_expression", [["TRY", "block", "__try_expression_star_25", "finally_block"],
      ["TRY", "block", "__try_expression_star_25"], ["TRY", "block", "finally_block"],
      ["TRY", "block"]]),
    ("catch_block", [["CATCH", "LPAREN", "catch_parameter", "RPAREN", "block"]]),
    ("catch_parameter", [["simple_identifier", "COLON", "type"]]),
    ("finally_block", [["FINALLY", "block"]]),
    ("jump_expression", [["THROW", "expression"], ["RETURN", "LABEL_REFERENCE", "expression"],
      ["RETURN", "LABEL_REFERENCE"], ["RETURN", "expression"], ["RETURN"],
      ["CONTINUE", "LABEL_REFERENCE"], ["CONTINUE"], ["BREAK", "LABEL_REFERENCE"], ["BREAK"]]),
    ("__kotlin_file_star_0", [["_file_item"], ["__kotlin_file_star_0", "_file_item"]]),
    ("__identifier_star_1", [["DOT", "simple_identifier"],
      ["__identifier_star_1", "DOT", "simple_identifier"]]),
    ("__statements_star_2", [["_statement_item"], ["__statements_star_2", "_statement_item"]]),
    ("__function_value_parameters_star_3", [["COMMA", "function_value_parameter"],
      ["__function_value_parameters_star_3", "COMMA", "function_value_parameter"]]),
    ("__primary_constructor_star_4", [["COMMA", "class_parameter"],
      ["__primary_constructor_star_4", "COMMA", "class_parameter"]]),
    ("__delegation_specifiers_star_5", [["COMMA", "delegation_specifier"],
      ["__delegation_specifiers_star_5", "COMMA", "delegation_specifier"]]),
    ("__user_type_star_6", [["DOT", "simple_user_type"],
      ["__user_type_star_6", "DOT", "simple_user_type"]]),
    ("__type_arguments_star_7", [["COMMA", "type"],
      ["__type_arguments_star_7", "COMMA", "type"]]),
    ("__disjunction_star_8", [["DISJ", "conjunction"],
      ["__disjunction_star_8", "DISJ", "conjunction"]]),
    ("__conjunction_star_9", [["CONJ", "equality"],
      ["__conjunction_star_9", "CONJ", "equality"]]),
    ("__equality_star_10", [["_equality_operator", "comparison"],
      ["__equality_star_10", "_equality_operator", "comparison"]]),
    ("__comparison_star_11", [["_comparison_operator", "infix_operation"],
      ["__comparison_star_11", "_comparison_operator", "infix_operation"]]),
    ("__infix_operation_star_12", [["_in_operator", "elvis_expression"],
      ["_is_operator", "type"],
      ["__infix_operation_star_12", "_in_operator", "elvis_expression"],
      ["__infix_operation_star_12", "_is_operator", "type"]]),
    ("__elvis_expression_star_13", [["ELVIS", "range_expression"],
      ["__elvis_expression_star_13", "ELVIS", "range_expression"]]),
    ("__range_expression_star_14", [["RANGE", "additive_expression"],
      ["__range_expression_star_14", "RANGE", "additive_expression"]]),
    ("__additive_expression_star_15", [["_additive_operator", "multiplicative_expression"],
      ["__additive_expression_star_15", "_additive_operator", "multiplicative_expression"]]),
    ("__multiplicative_expression_star_16", [["_multiplicative_operator", "as_expression"],
      ["__multiplicative_expression_star_16", "_multiplicative_operator", "as_expression"]]),
    ("__as_expression_star_17", [["_as_operator", "type"],
      ["__as_expression_star_17", "_as_operator", "type"]]),
    ("__prefix_unary_expression_star_18", [["_unary_prefix"],
      ["__prefix_unary_expression_star_18", "_unary_prefix"]]),
    ("__postfix_unary_expression_star_19", [["postfix_unary_suffix"],
      ["__postfix_unary_expression_star_19", "postfix_unary_suffix"]]),
    ("__value_arguments_star_20", [["COMMA", "value_argument"],
      ["__value_arguments_star_20", "COMMA", "value_argument"]]),
    ("__lambda_parameters_star_21", [["COMMA", "lambda_parameter"],
      ["__lambda_parameters_star_21", "COMMA", "lambda_parameter"]]),
    ("__indexing_suffix_star_22", [["COMMA", "expression"],
      ["__indexing_suffix_star_22", "COMMA", "expression"]]),
    ("__when_expression_star_23", [["_when_item"], ["__when_expression_star_23", "_when_item"]]),
    ("__when_entry_star_24", [["COMMA", "when_condition"],
      ["__when_entry_star_24", "COMMA", "when_condition"]]),
    ("__try_expression_star_25", [["catch_block"], ["__try_expression_star_25", "catch_block"]])]

/-- The rules that give way to their child when they have just one. -/
def transparentRules : List String := [
    "expression", "disjunction", "conjunction", "equality", "comparison", "infix_operation",
    "elvis_expression", "range_expression", "additive_expression", "multiplicative_expression",
    "as_expression", "prefix_unary_expression", "postfix_unary_expression",
    "postfix_unary_suffix", "primary_expression"]

def productions : List Production := Production.ofAlternatives alternatives

def startRule : String := "kotlin_file"

end Typeahead.Language.Script
