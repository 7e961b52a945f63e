import PromptDesk.Toml.Basic
import PromptDesk.Text.Numeral
import PromptDesk.Json.Floating
import PromptDesk.Timestamp

/-! Numbers, truth values and moments of a settings file: everything that is written without
quotes. -/
namespace PromptDesk.Toml

open Text (isDigit)

/-- Drops the underscores between digits; each has to stand between two digits. -/
def digits? (isDigit : Char → Bool) : List Char → Option (List Char)
  | [] => none
  | [c] => if isDigit c then some [c] else none
  | c :: '_' :: cs => if isDigit c then (digits? isDigit cs).map (c :: ·) else none
  | c :: cs => if isDigit c then (digits? isDigit cs).map (c :: ·) else none

/-- The value of digits in a base. -/
def inBase (base : Nat) (cs : List Char) : Nat :=
  cs.foldl (fun n c => n * base + (Text.hexDigit? c).getD 0) 0

/-- Decimal digits without a leading zero. -/
def decimal? (cs : List Char) : Option (List Char) :=
  match digits? isDigit cs with
  | some ds => if ds.head? == some '0' && ds.length != 1 then none else some ds
  | none => none

/-- A sign that may stand before a number. -/
def signed : List Char → Bool × List Char
  | '-' :: cs => (true, cs)
  | '+' :: cs => (false, cs)
  | cs => (false, cs)

/-- Integers are kept from -2^127 up to 2^128. -/
def inRange (n : Int) : Option Value :=
  if -(Nat.pow 2 127 : Int) ≤ n ∧ n < (Nat.pow 2 128 : Int) then some (.integer n) else none

def integer? (cs : List Char) : Option Value :=
  match cs with
  | '0' :: 'x' :: ds => (digits? (fun c => (Text.hexDigit? c).isSome) ds).bind fun ds =>
      inRange (inBase 16 ds)
  | '0' :: 'o' :: ds => (digits? (fun c => '0' ≤ c && c ≤ '7') ds).bind fun ds =>
      inRange (inBase 8 ds)
  | '0' :: 'b' :: ds => (digits? (fun c => c = '0' || c = '1') ds).bind fun ds =>
      inRange (inBase 2 ds)
  | _ =>
    let (negative, ds) := signed cs
    (decimal? ds).bind fun ds =>
      inRange (if negative then -(Text.digitsValue ds : Int) else Text.digitsValue ds)

/-- A number with a fraction or an exponent, which has to be finite. -/
def floating? (cs : List Char) : Option Value := do
  let (_, cs) := signed cs
  if cs = ['i', 'n', 'f'] ∨ cs = ['n', 'a', 'n'] then return .floating
  let isMark (c : Char) : Bool := c = 'e' || c = 'E'
  let mantissa := cs.takeWhile fun c => !isMark c
  let power := cs.drop mantissa.length
  let whole := mantissa.takeWhile (· != '.')
  let fraction := mantissa.drop whole.length
  if power.isEmpty && fraction.isEmpty then none
  let wholeDigits ← decimal? whole
  let fractionDigits ← if fraction.isEmpty then some [] else digits? isDigit (fraction.drop 1)
  let exponent : Int ←
    if power.isEmpty then some 0
    else
      let (negative, ds) := signed (power.drop 1)
      (digits? isDigit ds).map fun ds =>
        if negative then -(Text.digitsValue ds : Int) else Text.digitsValue ds
  let significand := Text.digitsValue (wholeDigits ++ fractionDigits)
  let e := exponent - fractionDigits.length
  if significand = 0 ∨ e < -100000 then return .floating
  if e > 100000 then none
  let (num, den) :=
    if e ≥ 0 then (significand * Nat.pow 10 e.toNat, 1) else (significand, Nat.pow 10 (-e).toNat)
  let _ ← Json.Floating.ofRatio? false num den
  return .floating

/-- Exactly some digits, at the start. -/
def exactly? (n : Nat) (cs : List Char) : Option (Nat × List Char) :=
  let ds := cs.take n
  if ds.length = n ∧ ds.all isDigit then some (Text.digitsValue ds, cs.drop n) else none

/-- A year, a month and a day of it. -/
def date? (cs : List Char) : Option (List Char) := do
  let (year, cs) ← exactly? 4 cs
  let cs ← after '-' cs
  let (month, cs) ← exactly? 2 cs
  let cs ← after '-' cs
  let (day, cs) ← exactly? 2 cs
  if 1 ≤ month ∧ month ≤ 12 ∧ 1 ≤ day ∧ day ≤ Timestamp.daysInMonth year month then return cs
  none
where
  after (c : Char) : List Char → Option (List Char)
    | d :: cs => if c = d then some cs else none
    | [] => none

/-- Hours and minutes; seconds and their fraction may be left out. -/
def time? (cs : List Char) : Option (List Char) := do
  let (hour, cs) ← exactly? 2 cs
  let cs ← date?.after ':' cs
  let (minute, cs) ← exactly? 2 cs
  if 23 < hour ∨ 59 < minute then none
  match cs with
  | ':' :: cs =>
    let (second, cs) ← exactly? 2 cs
    if 60 < second then none
    match cs with
    | '.' :: cs =>
      let ds := cs.takeWhile isDigit
      if ds.isEmpty then none
      return cs.drop ds.length
    | cs => return cs
  | cs => return cs

/-- Nothing, or an offset from universal time. -/
def offset? : List Char → Option Unit
  | [] => some ()
  | ['Z'] | ['z'] => some ()
  | sign :: cs => do
    if sign != '+' && sign != '-' then none
    let (hour, cs) ← exactly? 2 cs
    let cs ← date?.after ':' cs
    let (minute, cs) ← exactly? 2 cs
    if 23 < hour ∨ 59 < minute ∨ !cs.isEmpty then none
    return ()

/-- A date, a time of day, or both with or without an offset. -/
def moment? (cs : List Char) : Option Value :=
  match date? cs with
  | some [] => some .moment
  | some (gap :: rest) =>
    if gap = 'T' ∨ gap = 't' ∨ gap = ' ' then
      match time? rest with
      | some rest => (offset? rest).map fun _ => .moment
      | none => none
    else none
  | none =>
    match time? cs with
    | some [] => some .moment
    | _ => none

/-- The value of a word without quotes. -/
def scalar? (cs : List Char) : Option Value :=
  if cs = ['t', 'r', 'u', 'e'] then some (.bool true)
  else if cs = ['f', 'a', 'l', 's', 'e'] then some (.bool false)
  else (integer? cs) <|> (floating? cs) <|> (moment? cs)

end PromptDesk.Toml
