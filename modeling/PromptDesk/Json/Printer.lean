import PromptDesk.Json.Basic

/-! Writing a JSON value without space. Quotes, backslashes and control characters are escaped and
everything else stands for itself. -/
namespace PromptDesk.Json

/-- A control character without an escape of its own takes four hexadecimal digits. -/
def escapeChar (c : Char) : List Char :=
  if c = '"' then ['\\', '"']
  else if c = '\\' then ['\\', '\\']
  else if c = '\x08' then ['\\', 'b']
  else if c = '\x0c' then ['\\', 'f']
  else if c = '\n' then ['\\', 'n']
  else if c = '\r' then ['\\', 'r']
  else if c = '\t' then ['\\', 't']
  else if c.toNat < 0x20 then
    ['\\', 'u', '0', '0', Nat.digitChar (c.toNat / 16), Nat.digitChar (c.toNat % 16)]
  else [c]

def escape : List Char → List Char
  | [] => []
  | c :: cs => escapeChar c ++ escape cs

def quote (s : String) : List Char := '"' :: (escape s.toList ++ ['"'])

mutual

def print : Json → List Char
  | .null => ['n', 'u', 'l', 'l']
  | .bool true => ['t', 'r', 'u', 'e']
  | .bool false => ['f', 'a', 'l', 's', 'e']
  | .natural n => Text.decimal n.toNat
  | .negative n => '-' :: Text.decimal n
  | .floating x => x.text
  | .text s => quote s
  | .array items => '[' :: (printItems items ++ [']'])
  | .object members => '\x7b' :: (printMembers members ++ ['\x7d'])

def printItems : List Json → List Char
  | [] => []
  | [j] => print j
  | j :: js => print j ++ ',' :: printItems js

def printMembers : List (String × Json) → List Char
  | [] => []
  | [(k, j)] => quote k ++ ':' :: print j
  | (k, j) :: ms => quote k ++ ':' :: (print j ++ ',' :: printMembers ms)

end

def render (j : Json) : String := String.ofList j.print

end PromptDesk.Json
