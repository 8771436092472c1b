import TwinStore.Store.Key
import TwinStore.Text.Json

/-!
# Keys as text

Where a key is recorded it is recorded as text, in one of two formats. The plain format is the text
itself, or the number in decimal; JSON is written without blanks. `Format.encode` writes a datum and
`Format.decode` reads one of a wanted shape back; `KeyCodec` does both for keys, and is one way to
make a `KeySerializer`.
-/

namespace TwinStore

open Text

/-- A value that can be written as text. -/
inductive Datum where
  | text (s : String)
  | int (n : Int)
  | bool (b : Bool)
  | char (c : Char)
  | pair (s : String) (n : Nat)
  | texts (ss : List String)
  | optional (n : Option Int)
  | table (fields : List (String × Int))
  deriving DecidableEq

/-- The shapes a datum may be wanted in. -/
inductive Shape where
  | text
  | byte
  | natural
  | integer
  | bool
  | char
  | pair
  | texts
  | optional
  | table
  deriving DecidableEq

namespace Datum

/-- A number in decimal. -/
def decimal (n : Int) : String :=
  String.ofList (Decimal.ofInt n)

/-- A text in quotes. -/
def quoted (s : String) : String :=
  String.ofList (Quoted.write s.toList)

/-- A datum as JSON. -/
def toJson : Datum → String
  | text s => quoted s
  | int n => decimal n
  | bool b => if b then "true" else "false"
  | char c => quoted (String.singleton c)
  | pair s n => "[" ++ quoted s ++ "," ++ decimal n ++ "]"
  | texts ss => "[" ++ ",".intercalate (ss.map quoted) ++ "]"
  | optional none => "null"
  | optional (some n) => decimal n
  | table fields =>
    "\x7b" ++ ",".intercalate (fields.map fun (s, n) => quoted s ++ ":" ++ decimal n) ++ "\x7d"

/-- A datum as plain text; data of several parts have none but their JSON. -/
def toPlain : Datum → String
  | text s => s
  | char c => String.singleton c
  | other => other.toJson

end Datum

namespace Shape

/-- The range of the numbers of a shape. -/
def range : Shape → Decimal.Range
  | byte => .byte
  | natural => .word64
  | _ => .signed64

/-- Read one field of a table; of two with one name the later stays. -/
def readField (name : String) (table : Std.ExtTreeMap String Int) :
    Except Flaw (List Char → Read (Std.ExtTreeMap String Int)) :=
  .ok fun text => (Json.readInt .signed64 text).map fun n => table.insert name n

/-- Read a text with a number. -/
def readPair (text : List Char) : Read Datum :=
  match Json.skipBlank text with
  | '[' :: rest =>
    (Json.readElement true (.error .unfit) Json.readString rest).andThen fun s rest =>
      (Json.readElement false (.error .unfit) (Json.readNat .word32) rest).andThen fun n rest =>
        (Json.closeArray rest).map fun _ => .pair s n
  | other => .error (Json.mismatch other)

/-- Read a datum of a shape from JSON. -/
def readJson (shape : Shape) (text : List Char) : Read Datum :=
  match shape with
  | .text => (Json.readString text).map .text
  | .byte | .natural | .integer => (Json.readInt shape.range text).map .int
  | .bool => (Json.readBool text).map .bool
  | .char => (Json.readChar text).map .char
  | .pair => readPair text
  | .texts => (Json.readArray Json.readString text).map .texts
  | .optional => (Json.readOption (Json.readInt .signed64) text).map .optional
  | .table =>
    match Json.skipBlank text with
    | '\x7b' :: rest => (Json.readObject readField ∅ rest).map fun t => .table t.toList
    | other => .error (Json.mismatch other)

/-- Read a datum of a shape from plain text; the error says what is wrong with the text. -/
def readPlain (shape : Shape) (text : String) : Except String Datum :=
  match shape with
  | .byte | .natural | .integer =>
    match Decimal.read shape.range text.toList with
    | .ok n => .ok (.int n)
    | .error e => .error e.message
  | .bool =>
    if text = "true" then .ok (.bool true)
    else if text = "false" then .ok (.bool false)
    else .error "provided string was not `true` or `false`"
  | .char =>
    match text.toList with
    | [] => .error "cannot parse char from empty string"
    | [c] => .ok (.char c)
    | _ => .error "too many characters in string"
  | _ => .ok (.text text)

end Shape

/-- The two formats. -/
inductive Format where
  | plain
  | json
  deriving DecidableEq

namespace Format

/-- Write a datum. -/
def encode (format : Format) (d : Datum) : String :=
  match format with
  | plain => d.toPlain
  | json => d.toJson

/-- What is wrong with a JSON text. -/
def describe : Flaw → String
  | .truncated => "the text ends too early"
  | .malformed => "the text is malformed"
  | .unfit => "the value has the wrong type"

/-- Read a datum of a shape. -/
def decode (format : Format) (shape : Shape) (raw : String) : Except StoreError Datum :=
  match format with
  | plain =>
    match shape.readPlain raw with
    | .ok d => .ok d
    | .error e => .error (.serialization ("'" ++ raw ++ "': " ++ e))
  | json =>
    match Json.readAll shape.readJson raw with
    | .ok d => .ok d
    | .error e => .error (.serialization (describe e))

end Format

/-! ## Keys -/

namespace Key

/-- A key as a datum. -/
def toDatum : Key → Datum
  | text s => .text s
  | number n => .int n
  | pair s n => .pair s n

/-- The key that a datum is, if it is one. -/
def ofDatum? : Datum → Option Key
  | .text s => some (text s)
  | .int n => some (number n)
  | .pair s n => some (pair s n)
  | _ => none

@[simp] theorem ofDatum?_toDatum (k : Key) : ofDatum? k.toDatum = some k := by
  cases k <;> rfl

end Key

/-- How the keys of a map are written as text and read back. -/
structure KeySerializer where
  encode : Key → Except StoreError String
  decode : String → Except StoreError Key

/-- A format for keys of a shape. -/
structure KeyCodec where
  format : Format
  shape : Shape

namespace KeyCodec

/-- The record of a key. -/
def encode (c : KeyCodec) (k : Key) : String :=
  c.format.encode k.toDatum

/-- The key of a record. -/
def decode (c : KeyCodec) (raw : String) : Except StoreError Key :=
  match c.format.decode c.shape raw with
  | .error e => .error e
  | .ok d =>
    match Key.ofDatum? d with
    | some k => .ok k
    | none => .error (.serialization (Format.describe .unfit))

/-- The serializer of a format; writing never fails. -/
def serializer (c : KeyCodec) : KeySerializer where
  encode k := .ok (c.encode k)
  decode := c.decode

end KeyCodec

end TwinStore
