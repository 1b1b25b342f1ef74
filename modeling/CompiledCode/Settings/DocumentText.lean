import CompiledCode.Settings.Document
import CompiledCode.Text.Hex

/-!
# Documents in text form

A document is written as one value with blanks around it: a word, a number, a
text between double quotes, a list in brackets or fields in braces. A number is
whole only if it is written as digits after an optional minus sign. With a point
or an exponent it is a fraction, whatever its value, and so is zero with a minus
sign. Of several values under one key the last one counts.

Every reader takes a value off the front of the characters and answers it with
the characters after it. Reading nests no deeper than there are characters.
-/

namespace CompiledCode.Document

/-- Takes a value off the front of some characters. -/
abbrev Reader (α : Type) := List Char → Option (α × List Char)

/-- Whether a character may stand between the parts of a document. -/
def isBlank (c : Char) : Bool := c = ' ' || c = '\t' || c = '\n' || c = '\r'

/-- The characters from the first one on that is not blank. -/
def skipBlanks (input : List Char) : List Char := input.dropWhile isBlank

/-- The characters after a word, if they start with it. -/
def afterWord : (word : List Char) → List Char → Option (List Char)
  | [], input => some input
  | expected :: word, c :: input => if c = expected then afterWord word input else none
  | _ :: _, [] => none

/-- The leading decimal digits, of which there has to be one at least. -/
def readDigits : Reader (List Char) := fun input =>
  let digits := input.takeWhile Char.isDigit
  if digits.isEmpty then none else some (digits, input.dropWhile Char.isDigit)

/-- The number that decimal digits denote. -/
def decimalValue (digits : List Char) : Nat :=
  digits.foldl (fun n c => 10 * n + (c.toNat - '0'.toNat)) 0

/-- The characters after an exponent, if there is one. -/
def skipExponent : List Char → Option (List Char)
  | c :: input =>
    if c = 'e' ∨ c = 'E' then
      let unsigned :=
        match input with
        | '+' :: rest => rest
        | '-' :: rest => rest
        | _ => input
      (readDigits unsigned).map Prod.snd
    else some (c :: input)
  | [] => some []

/-- A number without its sign: its whole part, and whether that is all. -/
def readUnsigned : Reader (Nat × Bool) := fun input =>
  match readDigits input with
  | none => none
  | some (digits, rest) =>
    if digits.head? = some '0' ∧ digits.length ≠ 1 then none
    else
      let afterPoint :=
        match rest with
        | '.' :: more => (readDigits more).map Prod.snd
        | _ => some rest
      match afterPoint.bind skipExponent with
      | none => none
      | some next => some ((decimalValue digits, next.length = rest.length), next)

/-- A number. -/
def readNumber : Reader Document
  | '-' :: input =>
    (readUnsigned input).map fun ((value, isWhole), rest) =>
      (if isWhole ∧ value ≠ 0 then integer (-value) else fraction, rest)
  | input =>
    (readUnsigned input).map fun ((value, isWhole), rest) =>
      (if isWhole then integer value else fraction, rest)

/-- The number that four hexadecimal digits denote. -/
def readUnit : Reader Nat
  | a :: b :: c :: d :: rest =>
    let digits := [a, b, c, d]
    if digits.all fun c => c = '0' || Text.digitValue c ≠ 0 then some (Text.ofHex digits, rest)
    else none
  | _ => none

/-- The character that units of sixteen bits denote: one of them, or two that make a pair. -/
def readUnits : Reader Char := fun input =>
  match readUnit input with
  | none => none
  | some (high, rest) =>
    if high < 0xd800 ∨ 0xdfff < high then some (Char.ofNat high, rest)
    else
      match afterWord ['\\', 'u'] rest with
      | none => none
      | some more =>
        match readUnit more with
        | none => none
        | some (low, rest) =>
          if high < 0xdc00 ∧ 0xdc00 ≤ low ∧ low ≤ 0xdfff then
            some (Char.ofNat (0x10000 + (high - 0xd800) * 0x400 + (low - 0xdc00)), rest)
          else none

/-- A character of a text, which may be written with a backslash. -/
def readChar : Reader Char
  | '\\' :: '"' :: rest => some ('"', rest)
  | '\\' :: '\\' :: rest => some ('\\', rest)
  | '\\' :: '/' :: rest => some ('/', rest)
  | '\\' :: 'b' :: rest => some ('\x08', rest)
  | '\\' :: 'f' :: rest => some ('\x0c', rest)
  | '\\' :: 'n' :: rest => some ('\n', rest)
  | '\\' :: 'r' :: rest => some ('\r', rest)
  | '\\' :: 't' :: rest => some ('\t', rest)
  | '\\' :: 'u' :: rest => readUnits rest
  | '\\' :: _ => none
  | c :: rest => if c.toNat < 0x20 then none else some (c, rest)
  | [] => none

/-- The characters of a text up to its closing quote. -/
def readText : (fuel : Nat) → Reader (List Char)
  | 0, _ => none
  | _ + 1, '"' :: rest => some ([], rest)
  | fuel + 1, input =>
    match readChar input with
    | none => none
    | some (c, rest) => (readText fuel rest).map fun (cs, rest) => (c :: cs, rest)

/-- The values of a list up to its closing bracket; there is one at least. -/
def readItems (value : Reader Document) : (fuel : Nat) → Reader (List Document)
  | 0, _ => none
  | fuel + 1, input =>
    match value input with
    | none => none
    | some (item, rest) =>
      match skipBlanks rest with
      | ',' :: more => (readItems value fuel more).map fun (items, rest) => (item :: items, rest)
      | ']' :: more => some ([item], more)
      | _ => none

/-- Puts a field in front of other fields, unless one of them has its key. -/
def addField (field : String × Document) (fields : List (String × Document)) :
    List (String × Document) :=
  if fields.any (·.1 = field.1) then fields else field :: fields

/-- The fields of an object up to its closing brace; there is one at least. -/
def readFields (value : Reader Document) : (fuel : Nat) → Reader (List (String × Document))
  | 0, _ => none
  | fuel + 1, input =>
    match skipBlanks input with
    | '"' :: quoted =>
      match readText quoted.length quoted with
      | none => none
      | some (key, rest) =>
        match skipBlanks rest with
        | ':' :: rest =>
          match value rest with
          | none => none
          | some (item, rest) =>
            let field := (String.ofList key, item)
            match skipBlanks rest with
            | ',' :: more =>
              (readFields value fuel more).map fun (fields, rest) => (addField field fields, rest)
            | '\x7d' :: more => some ([field], more)
            | _ => none
        | _ => none
    | _ => none

/-- A document with blanks before it, nested less than `fuel` deep. -/
def readValue : (fuel : Nat) → Reader Document
  | 0, _ => none
  | fuel + 1, input =>
    match skipBlanks input with
    | '"' :: rest =>
      (readText rest.length rest).map fun (cs, rest) => (text (String.ofList cs), rest)
    | '[' :: rest =>
      match skipBlanks rest with
      | ']' :: more => some (list [], more)
      | _ =>
        (readItems (readValue fuel) rest.length rest).map fun (items, rest) => (list items, rest)
    | '\x7b' :: rest =>
      match skipBlanks rest with
      | '\x7d' :: more => some (object [], more)
      | _ =>
        (readFields (readValue fuel) rest.length rest).map fun (fields, rest) =>
          (object fields, rest)
    | 'n' :: rest => (afterWord ['u', 'l', 'l'] rest).map (null, ·)
    | 't' :: rest => (afterWord ['r', 'u', 'e'] rest).map (bool true, ·)
    | 'f' :: rest => (afterWord ['a', 'l', 's', 'e'] rest).map (bool false, ·)
    | other => readNumber other

/-- The document that a text spells. -/
def ofText? (content : String) : Option Document :=
  let input := content.toList
  match readValue input.length input with
  | some (document, rest) => if (skipBlanks rest).isEmpty then some document else none
  | none => none

/-- The value under a key. -/
def field? (key : String) : Document → Option Document
  | object fields => fields.lookup key
  | _ => none

end CompiledCode.Document
