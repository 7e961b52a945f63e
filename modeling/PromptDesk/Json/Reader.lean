import PromptDesk.Json.Basic

/-! Reading a JSON text. Every reader returns what it read and the characters left, and refuses by
returning nothing; the bound on the recursion is twice the length of the text. -/
namespace PromptDesk.Json

def isSpace (c : Char) : Bool := c = ' ' || c = '\t' || c = '\n' || c = '\r'

def skipSpace (cs : List Char) : List Char := cs.dropWhile isSpace

/-- The characters after a word that the text starts with. -/
def after? (word : List Char) (cs : List Char) : Option (List Char) :=
  if word.isPrefixOf cs then some (cs.drop word.length) else none

/-- A sixteen-bit unit in four hexadecimal digits. -/
def unit? (a b c d : Char) : Option Nat :=
  match Text.hexDigit? a, Text.hexDigit? b, Text.hexDigit? c, Text.hexDigit? d with
  | some a, some b, some c, some d => some (((a * 16 + b) * 16 + c) * 16 + d)
  | _, _, _, _ => none

/-- The character behind a backslash, for the escapes of one letter. -/
def escaped? : Char → Option Char
  | '"' => some '"'
  | '\\' => some '\\'
  | '/' => some '/'
  | 'b' => some '\x08'
  | 'f' => some '\x0c'
  | 'n' => some '\n'
  | 'r' => some '\r'
  | 't' => some '\t'
  | _ => none

/-- A piece of a string: a character, or one half of a surrogate pair written as an escape. -/
inductive Piece where
  | char (c : Char)
  | half (unit : Nat)
  deriving DecidableEq

/-- What an escape of four digits stands for. -/
def pieceOf (unit : Nat) : Piece :=
  if 0xD800 ≤ unit ∧ unit ≤ 0xDFFF then .half unit else .char (Char.ofNat unit)

/-- The pieces of a string up to its closing quote. Control characters have to be escaped. -/
def readPieces : List Char → Option (List Piece × List Char)
  | [] => none
  | '"' :: rest => some ([], rest)
  | '\\' :: 'u' :: a :: b :: c :: d :: rest =>
    match unit? a b c d with
    | some u => (readPieces rest).map fun r => (pieceOf u :: r.1, r.2)
    | none => none
  | '\\' :: e :: rest =>
    match escaped? e with
    | some c => (readPieces rest).map fun r => (.char c :: r.1, r.2)
    | none => none
  | c :: rest =>
    if c = '\\' ∨ c.toNat < 0x20 then none
    else (readPieces rest).map fun r => (.char c :: r.1, r.2)

/-- The characters that pieces stand for: a high half goes with the low half after it, and a half
on its own names no character. -/
def join? : List Piece → Option (List Char)
  | [] => some []
  | .char c :: ps => (join? ps).map (c :: ·)
  | .half u :: .half v :: ps =>
    if u < 0xDC00 ∧ 0xDC00 ≤ v then
      (join? ps).map (Char.ofNat (0x10000 + (u - 0xD800) * 0x400 + (v - 0xDC00)) :: ·)
    else none
  | .half _ :: _ => none

/-- The content of a string after its opening quote. -/
def readText (cs : List Char) : Option (Option String × List Char) :=
  (readPieces cs).map fun r => ((join? r.1).map String.ofList, r.2)

/-- A fraction, if the text goes on with a point. At least one digit follows the point. -/
def readFraction : List Char → Option (List Char × List Char)
  | '.' :: rest =>
    let ds := rest.takeWhile Text.isDigit
    if ds.isEmpty then none else some (ds, rest.dropWhile Text.isDigit)
  | cs => some ([], cs)

/-- The digits of an exponent after its sign. -/
def readExponentDigits (negative : Bool) (cs : List Char) :
    Option (Option (Bool × List Char) × List Char) :=
  let ds := cs.takeWhile Text.isDigit
  if ds.isEmpty then none else some (some (negative, ds), cs.dropWhile Text.isDigit)

/-- An exponent, if the text goes on with its letter. -/
def readExponent : List Char → Option (Option (Bool × List Char) × List Char)
  | [] => some (none, [])
  | c :: rest =>
    if c = 'e' ∨ c = 'E' then
      match rest with
      | '+' :: rest => readExponentDigits false rest
      | '-' :: rest => readExponentDigits true rest
      | _ => readExponentDigits false rest
    else some (none, c :: rest)

/-- A number after its sign. A leading zero stands alone. -/
def readUnsigned (negative : Bool) (cs : List Char) : Option (Numeral × List Char) :=
  let whole := cs.takeWhile Text.isDigit
  if whole.isEmpty || (whole.head? == some '0' && whole.length != 1) then none else
  match readFraction (cs.dropWhile Text.isDigit) with
  | none => none
  | some (fraction, rest) =>
    match readExponent rest with
    | none => none
    | some (exponent, rest) => some (⟨negative, whole, fraction, exponent⟩, rest)

def readNumber : List Char → Option (Numeral × List Char)
  | '-' :: rest => readUnsigned true rest
  | cs => readUnsigned false cs

/-- A string with its opening quote. -/
def readString : List Char → Option (Option String × List Char)
  | '"' :: rest => readText rest
  | _ => none

mutual

/-- A value, with space before it. -/
def readTree : Nat → List Char → Option (Tree × List Char)
  | 0, _ => none
  | fuel + 1, cs =>
    match skipSpace cs with
    | 'n' :: rest => (after? ['u', 'l', 'l'] rest).map fun r => (.null, r)
    | 't' :: rest => (after? ['r', 'u', 'e'] rest).map fun r => (.bool true, r)
    | 'f' :: rest => (after? ['a', 'l', 's', 'e'] rest).map fun r => (.bool false, r)
    | '"' :: rest => (readText rest).map fun r => (.text r.1, r.2)
    | '[' :: rest =>
      match skipSpace rest with
      | ']' :: rest => some (.array [], rest)
      | rest => (readItems fuel rest).map fun r => (.array r.1, r.2)
    | '\x7b' :: rest =>
      match skipSpace rest with
      | '\x7d' :: rest => some (.object [], rest)
      | rest => (readMembers fuel rest).map fun r => (.object r.1, r.2)
    | rest => (readNumber rest).map fun r => (.number r.1, r.2)

/-- The items of an array, of which there is at least one, up to the closing bracket. -/
def readItems : Nat → List Char → Option (List Tree × List Char)
  | 0, _ => none
  | fuel + 1, cs =>
    match readTree fuel cs with
    | none => none
    | some (t, rest) =>
      match skipSpace rest with
      | ']' :: rest => some ([t], rest)
      | ',' :: rest => (readItems fuel rest).map fun r => (t :: r.1, r.2)
      | _ => none

/-- The members of an object, of which there is at least one, up to the closing brace. -/
def readMembers : Nat → List Char → Option (List (Option String × Tree) × List Char)
  | 0, _ => none
  | fuel + 1, cs =>
    match readString (skipSpace cs) with
    | none => none
    | some (k, rest) =>
      match skipSpace rest with
      | ':' :: rest =>
        match readTree fuel rest with
        | none => none
        | some (t, rest) =>
          match skipSpace rest with
          | '\x7d' :: rest => some ([(k, t)], rest)
          | ',' :: rest => (readMembers fuel rest).map fun r => ((k, t) :: r.1, r.2)
          | _ => none
      | _ => none

end

/-- The tree of a whole text: nothing but space may follow the value. -/
def tree? (cs : List Char) : Option Tree :=
  match readTree (2 * cs.length + 2) cs with
  | some (t, rest) => if (skipSpace rest).isEmpty then some t else none
  | none => none

/-- The value of a whole text. -/
def parse? (cs : List Char) : Option Json := (tree? cs).bind fun t => t.value? depthLimit

end PromptDesk.Json
