/-!
# The layout of descriptors

Which fields a message of each type has, and how each is written. A field that
is not listed is unknown: its value is skipped, whatever it is.
-/

namespace ProtoSchema.Wire

/-- The types of message in descriptor sets and in the talk between compiler and plugin. -/
inductive MessageType where
  | fileSet
  | file
  | message
  | field
  | fieldOptions
  | uninterpretedOption
  | namePart
  | enum
  | enumValue
  | enumValueOptions
  | enumOptions
  | enumReservedRange
  | extensionRange
  | extensionRangeOptions
  | oneof
  | oneofOptions
  | messageOptions
  | reservedRange
  | service
  | method
  | methodOptions
  | serviceOptions
  | fileOptions
  | sourceCodeInfo
  | location
  | request
  | version
  | response
  | responseFile
deriving DecidableEq, Repr

/-- How a field is written. `numbers` may also stand together in one blob. -/
inductive FieldType where
  | text
  | blob
  | number
  | numbers
  | double
  | message (type : MessageType)
deriving DecidableEq, Repr

namespace MessageType

def fields : MessageType → List (Nat × FieldType)
  | fileSet => [(1, .message .file)]
  | file =>
    [(1, .text), (2, .text), (3, .text), (4, .message .message), (5, .message .enum),
     (6, .message .service), (7, .message .field), (8, .message .fileOptions),
     (9, .message .sourceCodeInfo), (10, .numbers), (11, .numbers), (12, .text)]
  | message =>
    [(1, .text), (2, .message .field), (3, .message .message), (4, .message .enum),
     (5, .message .extensionRange), (6, .message .field), (7, .message .messageOptions),
     (8, .message .oneof), (9, .message .reservedRange), (10, .text)]
  | field =>
    [(1, .text), (2, .text), (3, .number), (4, .number), (5, .number), (6, .text), (7, .text),
     (8, .message .fieldOptions), (9, .number), (10, .text), (17, .number)]
  | fieldOptions =>
    [(1, .number), (2, .number), (3, .number), (5, .number), (6, .number), (10, .number),
     (999, .message .uninterpretedOption)]
  | uninterpretedOption =>
    [(2, .message .namePart), (3, .text), (4, .number), (5, .number), (6, .double), (7, .blob),
     (8, .text)]
  | namePart => [(1, .text), (2, .number)]
  | enum =>
    [(1, .text), (2, .message .enumValue), (3, .message .enumOptions),
     (4, .message .enumReservedRange), (5, .text)]
  | enumValue => [(1, .text), (2, .number), (3, .message .enumValueOptions)]
  | enumValueOptions => [(1, .number), (999, .message .uninterpretedOption)]
  | enumOptions => [(2, .number), (3, .number), (999, .message .uninterpretedOption)]
  | enumReservedRange => [(1, .number), (2, .number)]
  | extensionRange => [(1, .number), (2, .number), (3, .message .extensionRangeOptions)]
  | extensionRangeOptions => [(999, .message .uninterpretedOption)]
  | oneof => [(1, .text), (2, .message .oneofOptions)]
  | oneofOptions => [(999, .message .uninterpretedOption)]
  | messageOptions =>
    [(1, .number), (2, .number), (3, .number), (7, .number), (999, .message .uninterpretedOption)]
  | reservedRange => [(1, .number), (2, .number)]
  | service => [(1, .text), (2, .message .method), (3, .message .serviceOptions)]
  | method =>
    [(1, .text), (2, .text), (3, .text), (4, .message .methodOptions), (5, .number), (6, .number)]
  | methodOptions => [(33, .number), (34, .number), (999, .message .uninterpretedOption)]
  | serviceOptions => [(33, .number), (999, .message .uninterpretedOption)]
  | fileOptions =>
    [(1, .text), (8, .text), (9, .number), (10, .number), (11, .text), (16, .number), (17, .number),
     (18, .number), (20, .number), (23, .number), (27, .number), (31, .number), (36, .text),
     (37, .text), (39, .text), (40, .text), (41, .text), (42, .number), (44, .text), (45, .text),
     (999, .message .uninterpretedOption)]
  | sourceCodeInfo => [(1, .message .location)]
  | location => [(1, .numbers), (2, .numbers), (3, .text), (4, .text), (6, .text)]
  | request => [(1, .text), (2, .text), (3, .message .version), (15, .message .file)]
  | version => [(1, .number), (2, .number), (3, .number), (4, .text)]
  | response => [(1, .text), (2, .number), (15, .message .responseFile)]
  | responseFile => [(1, .text), (2, .text), (15, .text)]

def field? (t : MessageType) (number : Nat) : Option FieldType := t.fields.lookup number

end MessageType
end ProtoSchema.Wire
