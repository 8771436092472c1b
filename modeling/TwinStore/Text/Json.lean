import TwinStore.Text.Quoted
import TwinStore.Text.Decimal

/-!
# Reading JSON

Readers of JSON for values of a known type. The text is read from left to right and the first
problem met decides: the text ends too early, it is malformed, or a well-formed value does not fit.
Values that nobody wants are skipped, with a looser look at their strings and numbers.
-/

namespace TwinStore.Text.Json

/-- The characters between values. -/
def isBlank (c : Char) : Bool :=
  c == ' ' || c == '\n' || c == '\t' || c == '\r'

/-- The text from its next value or mark on. -/
def skipBlank (text : List Char) : List Char :=
  text.dropWhile isBlank

/-- Read the rest of a word. -/
def expect : List Char → List Char → Read Unit
  | [], text => .ok ((), text)
  | _ :: _, [] => .error .truncated
  | w :: ws, c :: rest => if c = w then expect ws rest else .error .malformed

/-! ## Numbers -/

/-- A number as it is written: a natural number or a negative one of 64 bits, or anything else. -/
inductive Number where
  | natural (n : Nat)
  | negative (n : Int)
  | other

/-- Whether a number beyond 64 bits, written as `significand` times a power of ten, is too large to
be kept at all. -/
def isBeyond (significand : Nat) (exponent : Int) : Bool :=
  match exponent with
  | .ofNat e =>
    if e ≤ 308 then (Float.ofNat significand * Float.ofScientific 1 false e).isInf
    else significand ≠ 0
  | .negSucc _ => false

/-- A number that is not a whole number of 64 bits. -/
def readOther (significand : Nat) (exponent : Int) (rest : List Char) : Read Number :=
  if isBeyond significand exponent then .error .malformed else .ok (.other, rest)

/-- The value of digits up to 64 bits, and how many digits there are beyond. -/
def significand (start : Nat) (digits : List Char) : Nat × Nat :=
  digits.foldl
    (fun (value, beyond) c =>
      let next := 10 * value + Decimal.digit c
      if beyond = 0 && next ≤ Decimal.Range.word64.top then (next, 0) else (value, beyond + 1))
    (start, 0)

/-- The largest exponent that is told from its neighbours. -/
def maxExponent : Nat := 0x7fffffff

/-- Read an exponent after its letter; `shift` is the exponent so far. -/
def readExponent (value : Nat) (shift : Int) (text : List Char) : Read Number :=
  let (isPositive, text) :=
    match text with
    | '+' :: rest => (true, rest)
    | '-' :: rest => (false, rest)
    | _ => (true, text)
  match text with
  | [] => .error .truncated
  | c :: _ =>
    if !c.isDigit then .error .malformed
    else
      let digits := text.takeWhile Char.isDigit
      let rest := text.dropWhile Char.isDigit
      let exponent := digits.foldl (fun n d => 10 * n + Decimal.digit d) 0
      if maxExponent < exponent then
        if value ≠ 0 && isPositive then .error .malformed else .ok (.other, rest)
      else
        readOther value (if isPositive then shift + exponent else shift - exponent) rest

/-- Read a fraction after its point; `beyond` counts the digits before the point that went beyond 64
bits. -/
def readFraction (value beyond : Nat) (text : List Char) : Read Number :=
  let digits := text.takeWhile Char.isDigit
  let rest := text.dropWhile Char.isDigit
  if digits.isEmpty then .error (if rest.isEmpty then .truncated else .malformed)
  else
    let (value, ignored) := significand value digits
    let shift := (beyond : Int) - (digits.length - ignored : Nat)
    match rest with
    | 'e' :: rest => readExponent value shift rest
    | 'E' :: rest => readExponent value shift rest
    | _ => readOther value shift rest

/-- Read what follows the whole part of a number. -/
def readTail (isPositive : Bool) (value beyond : Nat) (text : List Char) : Read Number :=
  match text with
  | '.' :: rest => readFraction value beyond rest
  | 'e' :: rest => readExponent value beyond rest
  | 'E' :: rest => readExponent value beyond rest
  | _ =>
    if beyond ≠ 0 then readOther value beyond text
    else if isPositive then .ok (.natural value, text)
    else if 0 < value && Decimal.Range.signed64.contains (-value) then
      .ok (.negative (-value), text)
    else .ok (.other, text)

/-- Read a number after its sign. -/
def readNumber (isPositive : Bool) (text : List Char) : Read Number :=
  match text with
  | [] => .error .truncated
  | '0' :: rest =>
    match rest with
    | c :: _ => if c.isDigit then .error .malformed else readTail isPositive 0 0 rest
    | [] => readTail isPositive 0 0 rest
  | c :: _ =>
    if c.isDigit then
      let (value, beyond) := significand 0 (text.takeWhile Char.isDigit)
      readTail isPositive value beyond (text.dropWhile Char.isDigit)
    else .error .malformed

/-! ## Values of a known type -/

/-- What is wrong with a value that is not of the wanted type: it does not fit, unless its beginning
is malformed already. -/
def mismatch (text : List Char) : Flaw :=
  let ofRead {α : Type} : Read α → Flaw
    | .ok _ => .unfit
    | .error e => e
  match text with
  | [] => .truncated
  | 'n' :: rest => ofRead (expect ['u', 'l', 'l'] rest)
  | 't' :: rest => ofRead (expect ['r', 'u', 'e'] rest)
  | 'f' :: rest => ofRead (expect ['a', 'l', 's', 'e'] rest)
  | '-' :: rest => ofRead (readNumber false rest)
  | '"' :: rest => ofRead (Quoted.read rest)
  | '[' :: _ => .unfit
  | '\x7b' :: _ => .unfit
  | c :: _ => if c.isDigit then ofRead (readNumber true text) else .malformed

/-- Read a whole number of a range. -/
def readInt (range : Decimal.Range) (text : List Char) : Read Int :=
  let text := skipBlank text
  let fit (n : Int) (rest : List Char) : Read Int :=
    if range.contains n then .ok (n, rest) else .error .unfit
  let keep : Number → List Char → Read Int
    | .natural n, rest => fit n rest
    | .negative n, rest => fit n rest
    | .other, _ => .error .unfit
  match text with
  | '-' :: rest => (readNumber false rest).andThen keep
  | c :: _ =>
    if c.isDigit then (readNumber true text).andThen keep else .error (mismatch text)
  | [] => .error .truncated

/-- Read a natural number of a range. -/
def readNat (range : Decimal.Range) (text : List Char) : Read Nat :=
  (readInt range text).map Int.toNat

/-- Read a string. -/
def readString (text : List Char) : Read String :=
  match skipBlank text with
  | '"' :: rest => (Quoted.read rest).map String.ofList
  | other => .error (mismatch other)

/-- Read a string of one character. -/
def readChar (text : List Char) : Read Char :=
  (readString text).andThen fun s rest =>
    match s.toList with
    | [c] => .ok (c, rest)
    | _ => .error .unfit

/-- Read a truth value. -/
def readBool (text : List Char) : Read Bool :=
  match skipBlank text with
  | 't' :: rest => (expect ['r', 'u', 'e'] rest).map fun _ => true
  | 'f' :: rest => (expect ['a', 'l', 's', 'e'] rest).map fun _ => false
  | other => .error (mismatch other)

/-- Read the empty value. -/
def readNull (text : List Char) : Read Unit :=
  match skipBlank text with
  | 'n' :: rest => expect ['u', 'l', 'l'] rest
  | other => .error (mismatch other)

/-- Read a value that may be missing. -/
def readOption {α : Type} (read : List Char → Read α) (text : List Char) : Read (Option α) :=
  match skipBlank text with
  | 'n' :: rest => (expect ['u', 'l', 'l'] rest).map fun _ => none
  | other => (read other).map some

/-! ## Arrays and objects -/

/-- Go to the next element of an array, if there is one; otherwise the closing bracket is next. -/
def nextElement (isFirst : Bool) (text : List Char) : Read Bool :=
  match skipBlank text with
  | [] => .error .truncated
  | ']' :: rest => .ok (false, ']' :: rest)
  | c :: rest =>
    if isFirst then .ok (true, c :: rest)
    else if c = ',' then
      match skipBlank rest with
      | [] => .error .truncated
      | ']' :: _ => .error .malformed
      | other => .ok (true, other)
    else .error .malformed

/-- Read the end of an array. -/
def closeArray (text : List Char) : Read Unit :=
  match skipBlank text with
  | [] => .error .truncated
  | ']' :: rest => .ok ((), rest)
  | _ => .error .malformed

/-- Read an element of an array, or take `default` if there is none. -/
def readElement {α : Type} (isFirst : Bool) (default : Except Flaw α) (read : List Char → Read α)
    (text : List Char) : Read α :=
  (nextElement isFirst text).andThen fun found rest =>
    if found then read rest
    else
      match default with
      | .ok a => .ok (a, rest)
      | .error e => .error e

/-- Read elements up to the end of an array. -/
def readElements {α : Type} (read : List Char → Read α) : Nat → Bool → List Char → Read (List α)
  | 0, _, _ => .error .malformed
  | fuel + 1, isFirst, text =>
    (nextElement isFirst text).andThen fun found rest =>
      if found then
        (read rest).andThen fun a rest => (readElements read fuel false rest).map (a :: ·)
      else (closeArray rest).map fun _ => []

/-- Read an array. -/
def readArray {α : Type} (read : List Char → Read α) (text : List Char) : Read (List α) :=
  match skipBlank text with
  | '[' :: rest => readElements read (rest.length + 1) true rest
  | other => .error (mismatch other)

/-- Read the colon after a key. -/
def readColon (text : List Char) : Read Unit :=
  match skipBlank text with
  | [] => .error .truncated
  | ':' :: rest => .ok ((), rest)
  | _ => .error .malformed

/-- Go to the next key of an object, if there is one, and read it. -/
def nextKey (isFirst : Bool) (text : List Char) : Read (Option String) :=
  let key (rest : List Char) : Read (Option String) :=
    (Quoted.read rest).map fun cs => some (String.ofList cs)
  match skipBlank text with
  | [] => .error .truncated
  | '\x7d' :: rest => .ok (none, rest)
  | '"' :: rest => if isFirst then key rest else .error .malformed
  | ',' :: rest =>
    if isFirst then .error .malformed
    else
      match skipBlank rest with
      | [] => .error .truncated
      | '"' :: rest => key rest
      | _ => .error .malformed
  | _ => .error .malformed

/-- Read the fields of an object into `state`. `field` looks at each key before its value is read,
and reads the value. -/
def readFields {σ : Type} (field : String → σ → Except Flaw (List Char → Read σ)) :
    Nat → Bool → σ → List Char → Read σ
  | 0, _, _, _ => .error .malformed
  | fuel + 1, isFirst, state, text =>
    (nextKey isFirst text).andThen fun key rest =>
      match key with
      | none => .ok (state, rest)
      | some key =>
        match field key state with
        | .error e => .error e
        | .ok read =>
          (readColon rest).andThen fun _ rest =>
            (read rest).andThen fun state rest => readFields field fuel false state rest

/-- Read an object after its opening brace. -/
def readObject {σ : Type} (field : String → σ → Except Flaw (List Char → Read σ)) (start : σ)
    (text : List Char) : Read σ :=
  readFields field (text.length + 1) true start text

/-! ## Skipping -/

/-- Skip the digits after an exponent's letter. -/
def skipExponent (text : List Char) : Read Unit :=
  let text :=
    match text with
    | '+' :: rest => rest
    | '-' :: rest => rest
    | _ => text
  if (text.takeWhile Char.isDigit).isEmpty then .error .malformed
  else .ok ((), text.dropWhile Char.isDigit)

/-- Skip a number after its sign. -/
def skipNumber (text : List Char) : Read Unit :=
  let digits := text.takeWhile Char.isDigit
  let rest := text.dropWhile Char.isDigit
  if digits.isEmpty || (digits.head? == some '0' && digits.length ≠ 1) then .error .malformed
  else
    match rest with
    | '.' :: rest =>
      let digits := rest.takeWhile Char.isDigit
      let rest := rest.dropWhile Char.isDigit
      if digits.isEmpty then .error .malformed
      else
        match rest with
        | 'e' :: rest => skipExponent rest
        | 'E' :: rest => skipExponent rest
        | _ => .ok ((), rest)
    | 'e' :: rest => skipExponent rest
    | 'E' :: rest => skipExponent rest
    | _ => .ok ((), rest)

mutual

/-- Skip a value of any type, nested at most so deep. -/
def skipNested (depth : Nat) (text : List Char) : Read Unit :=
  match depth with
  | 0 => .error .malformed
  | depth + 1 =>
    match skipBlank text with
    | [] => .error .truncated
    | 'n' :: rest => expect ['u', 'l', 'l'] rest
    | 't' :: rest => expect ['r', 'u', 'e'] rest
    | 'f' :: rest => expect ['a', 'l', 's', 'e'] rest
    | '-' :: rest => skipNumber rest
    | '"' :: rest => Quoted.skip rest
    | '[' :: rest => skipElements depth true rest
    | '\x7b' :: rest => skipFields depth true rest
    | c :: rest => if c.isDigit then skipNumber (c :: rest) else .error .malformed

/-- Skip elements up to the end of an array. -/
def skipElements (depth : Nat) (isFirst : Bool) (text : List Char) : Read Unit :=
  match depth with
  | 0 => .error .malformed
  | depth + 1 =>
    (nextElement isFirst text).andThen fun found rest =>
      if found then (skipNested depth rest).andThen fun _ rest => skipElements depth false rest
      else closeArray rest

/-- Skip fields up to the end of an object. -/
def skipFields (depth : Nat) (isFirst : Bool) (text : List Char) : Read Unit :=
  match depth with
  | 0 => .error .malformed
  | depth + 1 =>
    let entry (rest : List Char) : Read Unit :=
      (Quoted.skip rest).andThen fun _ rest => (readColon rest).andThen fun _ rest =>
        (skipNested depth rest).andThen fun _ rest => skipFields depth false rest
    match skipBlank text with
    | [] => .error .truncated
    | '\x7d' :: rest => .ok ((), rest)
    | '"' :: rest => if isFirst then entry rest else .error .malformed
    | ',' :: rest =>
      if isFirst then .error .malformed
      else
        match skipBlank rest with
        | [] => .error .truncated
        | '"' :: rest => entry rest
        | _ => .error .malformed
    | _ => .error .malformed

end

/-- Skip a value of any type. -/
def skipValue (text : List Char) : Read Unit :=
  skipNested (2 * text.length + 2) text

/-- Read a whole text. -/
def readAll {α : Type} (read : List Char → Read α) (text : String) : Except Flaw α :=
  match read text.toList with
  | .error e => .error e
  | .ok (a, rest) => if (skipBlank rest).isEmpty then .ok a else .error .malformed

end TwinStore.Text.Json
