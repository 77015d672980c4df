import ViewTree.Text.Message
import ViewTree.Json.Printer

namespace ViewTree.Text

/-- A line, counted from one, and the number of bytes read on it. -/
structure Position where
  line : Nat
  column : Nat
deriving DecidableEq

def bytes : List Char → Nat
  | [] => 0
  | c :: text => c.utf8Size + bytes text

/-- The position `count` bytes further on, where `text` is what follows. A position may fall between
the bytes of one character. -/
def Position.advance (start : Position) (count : Nat) : List Char → Position
  | [] => start
  | c :: text =>
    if count = 0 then start
    else if c = '\n' then advance ⟨start.line + 1, 0⟩ (count - 1) text
    else advance ⟨start.line, start.column + min count c.utf8Size⟩ (count - c.utf8Size) text

def Position.after (count : Nat) (text : List Char) : Position :=
  Position.advance ⟨1, 0⟩ count text

end ViewTree.Text

namespace ViewTree.Json

inductive Flaw where
  | endInValue
  | endInList
  | endInObject
  | endInString
  | expectedValue
  | expectedWord
  | expectedColon
  | expectedListComma
  | expectedObjectComma
  | trailingComma
  | trailingCharacters
  | keyNotString
  | invalidNumber
  | numberOutOfRange
  | controlCharacter
  | invalidEscape
  | loneSurrogate
  | endOfSurrogate
  | tooDeep
deriving DecidableEq

def Flaw.message : Flaw → String
  | .endInValue => "EOF while parsing a value"
  | .endInList => "EOF while parsing a list"
  | .endInObject => "EOF while parsing an object"
  | .endInString => "EOF while parsing a string"
  | .expectedValue => "expected value"
  | .expectedWord => "expected ident"
  | .expectedColon => "expected `:`"
  | .expectedListComma => "expected `,` or `]`"
  | .expectedObjectComma => "expected `,` or `\x7d`"
  | .trailingComma => "trailing comma"
  | .trailingCharacters => "trailing characters"
  | .keyNotString => "key must be a string"
  | .invalidNumber => "invalid number"
  | .numberOutOfRange => "number out of range"
  | .controlCharacter => "control character (\\u0000-\\u001F) found while parsing a string"
  | .invalidEscape => "invalid escape"
  | .loneSurrogate => "lone leading surrogate in hex escape"
  | .endOfSurrogate => "unexpected end of hex escape"
  | .tooDeep => "recursion limit exceeded"

/-- What stands at the start of a value: a scalar, or the bracket of a list or an object. -/
inductive Token where
  | null
  | boolean (value : Bool)
  | number (value : Number)
  | string (text : String)
  | list
  | object
deriving DecidableEq

def Token.describe : Token → String
  | .null => "null"
  | .boolean value => "boolean " ++ Text.inBackquotes (String.ofList (booleanText value))
  | .number (.integer value _) => "integer " ++ Text.inBackquotes (String.ofList (Number.intText value))
  | .number value => "floating point " ++ Text.inBackquotes (String.ofList value.text)
  | .string text => "string " ++ Text.quoted text
  | .list => "sequence"
  | .object => "map"

def token : Json → Token
  | .null => .null
  | .boolean value => .boolean value
  | .number value => .number value
  | .string text => .string text
  | .list _ => .list
  | .object _ => .object

/-- Why a text is refused. What was wanted instead is given in the words of the message. -/
inductive Cause where
  | malformed (flaw : Flaw)
  | mismatch (found : Token) (wanted : String)
  | bareVariant (wanted : String)
  | outOfRange (value : Int) (wanted : String)
  | notOneKey
  | wrongLength (length : Nat) (wanted : String)
  | missingField (name : String)
  | repeatedField (name : String)
  | unknownVariant (name : String) (known : List String)
deriving DecidableEq

def oneOf : List String → String
  | [] => "there are no variants"
  | [name] => "expected " ++ Text.inBackquotes name
  | [first, second] => "expected " ++ Text.inBackquotes first ++ " or " ++ Text.inBackquotes second
  | names => "expected one of " ++ String.intercalate ", " (names.map Text.inBackquotes)

def Cause.message : Cause → String
  | .malformed flaw => flaw.message
  | .mismatch found wanted => "invalid type: " ++ found.describe ++ ", expected " ++ wanted
  | .bareVariant wanted => "invalid type: unit variant, expected " ++ wanted
  | .outOfRange value wanted =>
    "invalid value: integer " ++ Text.inBackquotes (String.ofList (Number.intText value)) ++
      ", expected " ++ wanted
  | .notOneKey => "invalid value: map, expected map with a single key"
  | .wrongLength length wanted =>
    "invalid length " ++ Text.decimal length ++ ", expected " ++ wanted
  | .missingField name => "missing field " ++ Text.inBackquotes name
  | .repeatedField name => "duplicate field " ++ Text.inBackquotes name
  | .unknownVariant name known =>
    "unknown variant " ++ Text.inBackquotes name ++ ", " ++ oneOf known

inductive Fault where
  | placed (cause : Cause) (left : Nat)
  | pending (cause : Cause) (rest : List Char)
deriving DecidableEq

/-- A flaw noticed on the first byte of `rest`, which counts as read; at the end there is none. -/
def Flaw.on (flaw : Flaw) (rest : List Char) : Fault :=
  .placed (.malformed flaw) (Text.bytes rest - 1)

def Cause.before (cause : Cause) (rest : List Char) : Fault :=
  .placed cause (Text.bytes rest)

/-- A refused text: the reason, and the place where there is one. -/
structure Error where
  cause : Cause
  position : Option Text.Position
deriving DecidableEq

def Error.message (e : Error) : String :=
  match e.position with
  | none => e.cause.message
  | some ⟨line, column⟩ =>
    e.cause.message ++ " at line " ++ Text.decimal line ++ " column " ++ Text.decimal column

def Fault.error (text : List Char) : Fault → Error
  | .placed cause left => ⟨cause, some (Text.Position.after (Text.bytes text - left) text)⟩
  | .pending cause _ => ⟨cause, none⟩

def Cause.error (cause : Cause) : Error := ⟨cause, none⟩

end ViewTree.Json

namespace ViewTree

inductive LoadError where
  | malformed (error : Json.Error)
  | unsupportedVersion (found supported : UInt32)
deriving DecidableEq

def LoadError.message : LoadError → String
  | .malformed error => "[ParseFailed] malformed template encoding - " ++ error.message
  | .unsupportedVersion found supported =>
    "[ParseFailed] template version " ++ number found ++ " is not supported (expected " ++
      number supported ++ ")"
where
  number (version : UInt32) : String :=
    Text.inBackquotes (Text.decimal version.toNat)

end ViewTree
