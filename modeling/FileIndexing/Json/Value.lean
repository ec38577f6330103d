/-!
# Writing JSON

`Value` is a JSON value to be written, and `Value.text` writes it on one line without blanks,
the members of an object in their given order.
-/

namespace FileIndexing.Json

/-- A JSON value.  A number is the text it is written as. -/
inductive Value where
  | null
  | bool (b : Bool)
  | number (literal : String)
  | string (text : String)
  | array (items : List Value)
  | object (members : List (String × Value))
  deriving Inhabited

/-- A digit of a hexadecimal number. -/
def hexDigit (n : Nat) : Char := Nat.digitChar n

/-- What one character becomes inside a string: controls, the quote and the backslash are
escaped, all else stands for itself. -/
def escapeChar (c : Char) : List Char :=
  if c = '"' then ['\\', '"']
  else if c = '\\' then ['\\', '\\']
  else if c = '\x08' then ['\\', 'b']
  else if c = '\x0C' then ['\\', 'f']
  else if c = '\n' then ['\\', 'n']
  else if c = '\r' then ['\\', 'r']
  else if c = '\t' then ['\\', 't']
  else if c.toNat < 0x20 then
    ['\\', 'u', '0', '0', hexDigit (c.toNat / 16), hexDigit (c.toNat % 16)]
  else [c]

/-- A text as a JSON string. -/
def stringChars (text : String) : List Char := '"' :: text.toList.flatMap escapeChar ++ ['"']

namespace Value

/-- A natural number. -/
def natural (n : Nat) : Value := .number (toString n)

mutual

/-- The characters of a value. -/
def chars : Value → List Char
  | .null => "null".toList
  | .bool true => "true".toList
  | .bool false => "false".toList
  | .number literal => literal.toList
  | .string text => stringChars text
  | .array [] => ['[', ']']
  | .array (v :: rest) => '[' :: v.chars ++ moreItemChars rest ++ [']']
  | .object [] => ['{', '}']
  | .object ((key, v) :: rest) =>
    '{' :: stringChars key ++ ':' :: v.chars ++ moreMemberChars rest ++ ['}']

/-- The characters of items that follow another one. -/
def moreItemChars : List Value → List Char
  | [] => []
  | v :: rest => ',' :: v.chars ++ moreItemChars rest

/-- The characters of members that follow another one. -/
def moreMemberChars : List (String × Value) → List Char
  | [] => []
  | (key, v) :: rest => ',' :: stringChars key ++ ':' :: v.chars ++ moreMemberChars rest

end

/-- A value as text. -/
def text (v : Value) : String := String.ofList v.chars

end Value

end FileIndexing.Json
