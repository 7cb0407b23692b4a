/-
  GoBindings/Pool/StandardOptions.lean
  ====================================
  **The options that the language itself has.**

  A pool without a declaration of a standard set of options uses these. They have
  no extensions, and every field that holds one value tells nothing from not being
  set, so that no default matters.
-/
import GoBindings.Pool.Types

namespace GoBindings.StandardOptions

open Linked (Field Kind MessageType EnumType)

/-! ### Fields of one type -/

private def field (kind : Kind) (name : String) (number : Int) : Field :=
  ⟨name, number, kind, false, false, true, [], none⟩

private def repeatedField (type name : String) (number : Int) : Field :=
  ⟨name, number, .message type, true, false, false, [], none⟩

private def flags (fields : List (String × Int)) : List Field :=
  fields.map fun f => field (.scalar .bool) f.1 f.2

private def names (fields : List (String × Int)) : List Field :=
  fields.map fun f => field (.scalar .string) f.1 f.2

/-- Options that a compiler has not resolved, which any options may hold. -/
private def unresolved : Field :=
  repeatedField "google.protobuf.UninterpretedOption" "uninterpreted_option" 999

private def choice (enumeration name : String) (number : Int) : Field :=
  field (.enumeration enumeration) name number

/-! ### The tables -/

/-- The enums that standard options choose from. -/
def enums : List EnumType := [
  ⟨"google.protobuf.FileOptions.OptimizeMode",
    [("SPEED", 1), ("CODE_SIZE", 2), ("LITE_RUNTIME", 3)]⟩,
  ⟨"google.protobuf.FieldOptions.CType", [("STRING", 0), ("CORD", 1), ("STRING_PIECE", 2)]⟩,
  ⟨"google.protobuf.FieldOptions.JSType",
    [("JS_NORMAL", 0), ("JS_STRING", 1), ("JS_NUMBER", 2)]⟩,
  ⟨"google.protobuf.MethodOptions.IdempotencyLevel",
    [("IDEMPOTENCY_UNKNOWN", 0), ("NO_SIDE_EFFECTS", 1), ("IDEMPOTENT", 2)]⟩]

private def fileFields : List Field :=
  names [("java_package", 1), ("java_outer_classname", 8), ("go_package", 11),
      ("objc_class_prefix", 36), ("csharp_namespace", 37), ("swift_prefix", 39),
      ("php_class_prefix", 40), ("php_namespace", 41), ("php_metadata_namespace", 44),
      ("ruby_package", 45)]
    ++ flags [("java_multiple_files", 10), ("java_generate_equals_and_hash", 20),
      ("java_string_check_utf8", 27), ("cc_generic_services", 16),
      ("java_generic_services", 17), ("py_generic_services", 18),
      ("php_generic_services", 42), ("deprecated", 23), ("cc_enable_arenas", 31)]
    ++ [choice "google.protobuf.FileOptions.OptimizeMode" "optimize_for" 9]

private def fieldFields : List Field :=
  flags [("packed", 2), ("lazy", 5), ("unverified_lazy", 15), ("deprecated", 3), ("weak", 10)]
    ++ [choice "google.protobuf.FieldOptions.CType" "ctype" 1,
      choice "google.protobuf.FieldOptions.JSType" "jstype" 6]

private def settingFields : List Field := [
  repeatedField "google.protobuf.UninterpretedOption.NamePart" "name" 2,
  field (.scalar .string) "identifier_value" 3,
  field (.scalar .uint64) "positive_int_value" 4,
  field (.scalar .int64) "negative_int_value" 5,
  field (.scalar .double) "double_value" 6,
  field (.scalar .bytes) "string_value" 7,
  field (.scalar .string) "aggregate_value" 8]

private def type (name : String) (fields : List Field) : MessageType :=
  ⟨"google.protobuf." ++ name, fields, [], [], false⟩

private def optionType (name : String) (fields : List Field) : MessageType :=
  type name (fields ++ [unresolved])

/-- The standard sets of options, and what they hold. -/
def messages : List MessageType := [
  optionType "FileOptions" fileFields,
  optionType "MessageOptions" (flags [("message_set_wire_format", 1),
    ("no_standard_descriptor_accessor", 2), ("deprecated", 3), ("map_entry", 7)]),
  optionType "FieldOptions" fieldFields,
  optionType "OneofOptions" [],
  optionType "EnumOptions" (flags [("allow_alias", 2), ("deprecated", 3)]),
  optionType "EnumValueOptions" (flags [("deprecated", 1)]),
  optionType "ServiceOptions" (flags [("deprecated", 33)]),
  optionType "MethodOptions" (flags [("deprecated", 33)]
    ++ [choice "google.protobuf.MethodOptions.IdempotencyLevel" "idempotency_level" 34]),
  optionType "ExtensionRangeOptions" [],
  type "UninterpretedOption" settingFields,
  type "UninterpretedOption.NamePart"
    [field (.scalar .string) "name_part" 1, field (.scalar .bool) "is_extension" 2]]

def types : Types := ⟨messages, enums, fun _ _ => none⟩

end GoBindings.StandardOptions
