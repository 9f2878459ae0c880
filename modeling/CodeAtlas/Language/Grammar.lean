import CodeAtlas.Language

/-!
# Grammar tables

The kinds of syntax nodes that a language uses, by the role they play, and the shapes from which
callees and receivers are read. Everything that differs between two languages only by the name of
a node kind is a table here; the rest of the library speaks of roles.
-/

namespace CodeAtlas

/-- What a syntax node is for, in any language. -/
inductive Role where
  /-- A call such as `f(x)`. -/
  | call
  /-- A named function or method. -/
  | function
  /-- A class, structure, enumeration, trait, interface or record. -/
  | classLike
  /-- Methods given to a type that is declared elsewhere. -/
  | implBlock
  /-- A declaration wrapped together with its decorators. -/
  | decorated
  /-- Variables or constants. -/
  | var
  /-- A function without a name; it opens no scope for calls. -/
  | lambda
  /-- A comprehension or generator; it opens no scope for calls. -/
  | comprehension
  /-- An explicit instantiation such as `new T(x)`. -/
  | constructorCall
  /-- A macro invocation `name!(x)`. -/
  | macroCall
  /-- A decorator or annotation. -/
  | decorator
  /-- A statement that imports something. -/
  | importLike
  /-- Anything else. -/
  | other
deriving DecidableEq

/-- How a node kind writes `object.name`: the fields of the two parts and the usual separator. -/
structure MemberShape where
  kind : String
  object : String
  name : String
  separator : String

/-- Where the expression inside a wrapper such as parentheses is found. -/
inductive Inner where
  | firstNamed
  | field (name : String)

/-- The tables of one language. -/
structure Grammar where
  /-- Node kinds by role; a kind has the first role that lists it. -/
  roles : List (Role × List String)
  /-- The node kinds that select a member of an object. -/
  members : List MemberShape
  /-- The node kinds that are looked through to find a callee. -/
  wrappers : List (String × Inner)
  /-- The node kinds of literals, with the word that stands for such a literal. -/
  literals : List (String × String)
  /-- Receivers that mean the enclosing instance or class. -/
  selfReceivers : List String
  /-- Receivers that mean the base classes of the enclosing class. -/
  superReceivers : List String
  /-- Names of methods that initialize an instance. -/
  initializers : List String
  /-- Is a method with the name of its class an initializer? -/
  classNamedInitializer : Bool
  /-- Names that are always callable. -/
  builtins : List String
  /-- The separator of qualified names. -/
  separator : String

namespace Grammar

/-- The role of a node kind. -/
def role (g : Grammar) (kind : String) : Role :=
  ((g.roles.find? fun entry => entry.2.contains kind).map (·.1)).getD .other

/-- The word for a literal of this node kind. -/
def literal? (g : Grammar) (kind : String) : Option String := g.literals.lookup kind

/-- The member shape of a node kind. -/
def member? (g : Grammar) (kind : String) : Option MemberShape :=
  g.members.find? (·.kind == kind)

/-- Where the expression inside a wrapper kind is found. -/
def inner? (g : Grammar) (kind : String) : Option Inner := g.wrappers.lookup kind

/-- Is the name always callable? -/
def isBuiltin (g : Grammar) (name : String) : Bool := g.builtins.contains name

/-- Does the receiver mean the enclosing instance or class? -/
def isSelf (g : Grammar) (receiver : String) : Bool := g.selfReceivers.contains receiver

/-- Does the receiver mean the base classes of the enclosing class? -/
def isSuper (g : Grammar) (receiver : String) : Bool := g.superReceivers.contains receiver

/-- The tables for Python. -/
def python : Grammar where
  roles :=
    [(.call, ["call"]),
     (.function, ["function_definition"]),
     (.classLike, ["class_definition"]),
     (.decorated, ["decorated_definition"]),
     (.var, ["assignment"]),
     (.lambda, ["lambda"]),
     (.comprehension, ["list_comprehension", "set_comprehension", "dictionary_comprehension",
       "generator_expression"]),
     (.decorator, ["decorator"]),
     (.importLike, ["import_statement", "import_from_statement", "future_import_statement"])]
  members :=
    [⟨"attribute", "object", "attribute", "."⟩]
  wrappers :=
    [("parenthesized_expression", .firstNamed), ("await", .firstNamed)]
  literals :=
    [("string", "str"), ("concatenated_string", "str"), ("integer", "number"),
     ("float", "number"), ("list", "list"), ("dictionary", "dict"), ("set", "set"),
     ("tuple", "tuple"), ("true", "bool"), ("false", "bool"), ("none", "none")]
  selfReceivers := ["self", "cls"]
  superReceivers := ["super()"]
  initializers := ["__init__"]
  classNamedInitializer := false
  builtins :=
    ["abs", "all", "any", "ascii", "bin", "bool", "breakpoint", "bytearray", "bytes", "callable",
     "chr", "classmethod", "compile", "complex", "delattr", "dict", "dir", "divmod", "enumerate",
     "eval", "exec", "filter", "float", "format", "frozenset", "getattr", "globals", "hasattr",
     "hash", "help", "hex", "id", "input", "int", "isinstance", "issubclass", "iter", "len",
     "list", "locals", "map", "max", "memoryview", "min", "next", "object", "oct", "open", "ord",
     "pow", "print", "property", "range", "repr", "reversed", "round", "set", "setattr", "slice",
     "sorted", "staticmethod", "str", "sum", "super", "tuple", "type", "vars", "zip",
     "__import__"]
  separator := "."

/-- The tables for Rust. -/
def rust : Grammar where
  roles :=
    [(.call, ["call_expression"]),
     (.function, ["function_item", "function_signature_item"]),
     (.classLike, ["struct_item", "enum_item", "union_item", "trait_item"]),
     (.implBlock, ["impl_item"]),
     (.var, ["const_item", "static_item"]),
     (.lambda, ["closure_expression"]),
     (.macroCall, ["macro_invocation"]),
     (.importLike, ["use_declaration", "extern_crate_declaration"])]
  members :=
    [⟨"field_expression", "value", "field", "."⟩,
     ⟨"scoped_identifier", "path", "name", "::"⟩]
  wrappers :=
    [("generic_function", .field "function"), ("parenthesized_expression", .firstNamed),
     ("try_expression", .firstNamed), ("await_expression", .firstNamed),
     ("reference_expression", .field "value")]
  literals :=
    [("string_literal", "str"), ("raw_string_literal", "str"), ("char_literal", "str"),
     ("integer_literal", "number"), ("float_literal", "number"), ("boolean_literal", "bool"),
     ("array_expression", "list"), ("tuple_expression", "tuple")]
  selfReceivers := ["self", "Self"]
  superReceivers := []
  initializers := ["new"]
  classNamedInitializer := false
  builtins :=
    ["println!", "print!", "eprintln!", "eprint!", "format!", "format_args!", "write!",
     "writeln!", "vec!", "panic!", "assert!", "assert_eq!", "assert_ne!", "debug_assert!",
     "debug_assert_eq!", "debug_assert_ne!", "unreachable!", "todo!", "unimplemented!",
     "matches!", "dbg!", "env!", "option_env!", "concat!", "stringify!", "include!",
     "include_str!", "include_bytes!", "cfg!", "line!", "column!", "file!", "module_path!",
     "drop", "Some", "Ok", "Err", "Box::new"]
  separator := "::"

/-- The tables for Go. -/
def go : Grammar where
  roles :=
    [(.call, ["call_expression"]),
     (.function, ["function_declaration", "method_declaration"]),
     (.classLike, ["type_spec"]),
     (.var, ["var_spec", "const_spec"]),
     (.lambda, ["func_literal"]),
     (.importLike, ["import_declaration"])]
  members :=
    [⟨"selector_expression", "operand", "field", "."⟩]
  wrappers :=
    [("parenthesized_expression", .firstNamed)]
  literals :=
    [("interpreted_string_literal", "str"), ("raw_string_literal", "str"),
     ("rune_literal", "str"), ("int_literal", "number"), ("float_literal", "number"),
     ("imaginary_literal", "number"), ("composite_literal", "composite"), ("true", "bool"),
     ("false", "bool")]
  selfReceivers := []
  superReceivers := []
  initializers := []
  classNamedInitializer := false
  builtins :=
    ["append", "cap", "clear", "close", "complex", "copy", "delete", "imag", "len", "make", "max",
     "min", "new", "panic", "print", "println", "real", "recover", "string", "int", "int8",
     "int16", "int32", "int64", "uint", "uint8", "uint16", "uint32", "uint64", "uintptr",
     "float32", "float64", "byte", "rune", "bool"]
  separator := "."

/-- The tables for Java. -/
def java : Grammar where
  roles :=
    [(.call, ["method_invocation"]),
     (.function, ["method_declaration", "constructor_declaration",
       "compact_constructor_declaration"]),
     (.classLike, ["class_declaration", "interface_declaration", "enum_declaration",
       "record_declaration", "annotation_type_declaration"]),
     (.lambda, ["lambda_expression"]),
     (.constructorCall, ["object_creation_expression", "explicit_constructor_invocation"]),
     (.decorator, ["annotation", "marker_annotation"]),
     (.importLike, ["import_declaration"])]
  members :=
    [⟨"field_access", "object", "field", "."⟩]
  wrappers :=
    [("parenthesized_expression", .firstNamed), ("cast_expression", .field "value")]
  literals :=
    [("string_literal", "str"), ("text_block", "str"), ("character_literal", "str"),
     ("decimal_integer_literal", "number"), ("hex_integer_literal", "number"),
     ("octal_integer_literal", "number"), ("binary_integer_literal", "number"),
     ("decimal_floating_point_literal", "number"), ("hex_floating_point_literal", "number"),
     ("true", "bool"), ("false", "bool"), ("null_literal", "null"), ("array_initializer", "list")]
  selfReceivers := ["this"]
  superReceivers := ["super"]
  initializers := []
  classNamedInitializer := true
  builtins := []
  separator := "."

/-- The tables for JavaScript, TypeScript and TSX. -/
def script : Grammar where
  roles :=
    [(.call, ["call_expression"]),
     (.function, ["function_declaration", "generator_function_declaration", "function_signature",
       "method_definition", "method_signature", "abstract_method_signature"]),
     (.classLike, ["class_declaration", "abstract_class_declaration", "interface_declaration",
       "enum_declaration"]),
     (.var, ["variable_declarator"]),
     (.lambda, ["arrow_function", "function_expression", "generator_function"]),
     (.constructorCall, ["new_expression"]),
     (.decorator, ["decorator"]),
     (.importLike, ["import_statement", "export_statement"])]
  members :=
    [⟨"member_expression", "object", "property", "."⟩]
  wrappers :=
    [("parenthesized_expression", .firstNamed), ("await_expression", .firstNamed),
     ("non_null_expression", .firstNamed), ("as_expression", .firstNamed)]
  literals :=
    [("string", "str"), ("template_string", "str"), ("number", "number"), ("array", "list"),
     ("object", "dict"), ("regex", "regex"), ("true", "bool"), ("false", "bool"),
     ("null", "null")]
  selfReceivers := ["this"]
  superReceivers := ["super"]
  initializers := ["constructor"]
  classNamedInitializer := false
  builtins :=
    ["parseInt", "parseFloat", "isNaN", "isFinite", "String", "Number", "Boolean", "Array",
     "Object", "Symbol", "BigInt", "require", "setTimeout", "setInterval", "clearTimeout",
     "clearInterval", "encodeURIComponent", "decodeURIComponent", "encodeURI", "decodeURI",
     "structuredClone", "queueMicrotask"]
  separator := "."

/-- The tables for C. -/
def c : Grammar where
  roles :=
    [(.call, ["call_expression"]),
     (.function, ["function_definition"]),
     (.classLike, ["struct_specifier", "union_specifier", "enum_specifier"]),
     (.var, ["declaration"]),
     (.importLike, ["preproc_include"])]
  members :=
    [⟨"field_expression", "argument", "field", "."⟩]
  wrappers :=
    [("parenthesized_expression", .firstNamed), ("pointer_expression", .field "argument")]
  literals :=
    [("string_literal", "str"), ("concatenated_string", "str"), ("char_literal", "str"),
     ("number_literal", "number"), ("true", "bool"), ("false", "bool"), ("null", "null")]
  selfReceivers := []
  superReceivers := []
  initializers := []
  classNamedInitializer := false
  builtins := []
  separator := "::"

/-- The tables for C++. -/
def cpp : Grammar where
  roles :=
    [(.call, ["call_expression"]),
     (.function, ["function_definition"]),
     (.classLike, ["class_specifier", "struct_specifier", "union_specifier", "enum_specifier"]),
     (.var, ["declaration", "field_declaration"]),
     (.lambda, ["lambda_expression"]),
     (.constructorCall, ["new_expression"]),
     (.importLike, ["preproc_include", "using_declaration"])]
  members :=
    [⟨"field_expression", "argument", "field", "."⟩,
     ⟨"qualified_identifier", "scope", "name", "::"⟩]
  wrappers :=
    [("parenthesized_expression", .firstNamed), ("pointer_expression", .field "argument"),
     ("template_function", .field "name")]
  literals :=
    [("string_literal", "str"), ("raw_string_literal", "str"), ("concatenated_string", "str"),
     ("char_literal", "str"), ("number_literal", "number"), ("true", "bool"), ("false", "bool"),
     ("nullptr", "null")]
  selfReceivers := ["this"]
  superReceivers := []
  initializers := []
  classNamedInitializer := true
  builtins := []
  separator := "::"

end Grammar

/-- The tables of a language. -/
def Language.grammar : Language → Grammar
  | python => .python
  | rust => .rust
  | go => .go
  | java => .java
  | javaScript | typeScript | tsx => .script
  | c => .c
  | cpp => .cpp

end CodeAtlas
