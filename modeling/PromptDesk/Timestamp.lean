import PromptDesk.Text.Blank
import PromptDesk.Text.Numeral

/-! Instants of universal time on the proleptic Gregorian calendar, with nanoseconds and leap
seconds. Reading takes the common date-and-time form with an offset, with blanks between its parts
and short numerals allowed; writing has one form, in universal time. -/
namespace PromptDesk

/-- Days are counted from 1 March of year 0. A leap second lies in the second before it and has
nanoseconds from 10^9 on. -/
structure Timestamp where
  day : Int
  second : Nat
  nano : Nat
  deriving DecidableEq, Inhabited, Repr

namespace Timestamp

/-- Days before a month of a year that starts in March. -/
def daysBeforeMonth (m : Nat) : Nat := (153 * m + 2) / 5

/-- The day number of a date; the year is taken to start in March. -/
def dayNumber (year : Int) (month day : Nat) : Int :=
  let y := if month ≤ 2 then year - 1 else year
  let m := if month ≤ 2 then month + 9 else month - 3
  y * 365 + y.fdiv 4 - y.fdiv 100 + y.fdiv 400 + daysBeforeMonth m + (day - 1 : Nat)

/-- The date of a day number, as year, month and day. -/
def date (day : Int) : Int × Nat × Nat :=
  let era := day.fdiv 146097
  let d := (day - era * 146097).toNat
  let y := (d - d / 1460 + d / 36524 - d / 146096) / 365
  let r := d - (365 * y + y / 4 - y / 100)
  let m := (5 * r + 2) / 153
  let year := era * 400 + y
  if m < 10 then (year, m + 3, r - daysBeforeMonth m + 1)
  else (year + 1, m - 9, r - daysBeforeMonth m + 1)

def isLeapYear (year : Int) : Bool :=
  year.fmod 4 = 0 && (year.fmod 100 != 0 || year.fmod 400 = 0)

def daysInMonth (year : Int) (month : Nat) : Nat :=
  if month = 2 then if isLeapYear year then 29 else 28
  else if month = 4 ∨ month = 6 ∨ month = 9 ∨ month = 11 then 30 else 31

/-- Years for which dates are kept. -/
def firstYear : Int := -262143
def lastYear : Int := 262142

/-- The instant of a local date and time whose offset from universal time is given in seconds. -/
def ofLocal? (year : Int) (month day second nano : Nat) (offset : Int) : Option Timestamp :=
  if firstYear ≤ year ∧ year ≤ lastYear ∧ 1 ≤ day ∧ day ≤ daysInMonth year month then
    let total := dayNumber year month day * 86400 + second - offset
    let day := total.fdiv 86400
    if dayNumber firstYear 1 1 ≤ day ∧ day ≤ dayNumber lastYear 12 31 then
      some ⟨day, (total.fmod 86400).toNat, nano⟩
    else none
  else none

/-- The instant a number of milliseconds after the start of 1970. -/
def ofMillis (ms : Nat) : Timestamp :=
  let s := ms / 1000
  ⟨dayNumber 1970 1 1 + s / 86400, s % 86400, ms % 1000 * 1000000⟩

/-- A numeral of at most some digits after blanks. -/
def readNumber? (width : Nat) (cs : List Char) : Option (Nat × List Char) :=
  let cs := Text.trimLeft cs
  let ds := (cs.take width).takeWhile Text.isDigit
  if ds.isEmpty then none else some (Text.digitsValue ds, cs.drop ds.length)

/-- A year has a sign and any number of digits, or no sign and at most four. -/
def readYear? (cs : List Char) : Option (Int × List Char) :=
  match Text.trimLeft cs with
  | '-' :: rest => readSigned (-1) rest
  | '+' :: rest => readSigned 1 rest
  | rest => (readNumber? 4 rest).map fun r => ((r.1 : Int), r.2)
where
  readSigned (sign : Int) (cs : List Char) : Option (Int × List Char) :=
    let ds := cs.takeWhile Text.isDigit
    if ds.isEmpty then none else some (sign * Text.digitsValue ds, cs.drop ds.length)

/-- A mark after blanks. -/
def readMark? (c : Char) (cs : List Char) : Option (List Char) :=
  match Text.trimLeft cs with
  | d :: rest => if d = c then some rest else none
  | [] => none

/-- A numeral of two digits within bounds. -/
def readField? (low high : Nat) (cs : List Char) : Option (Nat × List Char) :=
  match readNumber? 2 cs with
  | some (n, rest) => if low ≤ n ∧ n ≤ high then some (n, rest) else none
  | none => none

/-- Nanoseconds after the seconds; digits beyond the ninth are dropped. -/
def readNanos? : List Char → Option (Nat × List Char)
  | '.' :: rest =>
    let ds := (rest.take 9).takeWhile Text.isDigit
    if ds.isEmpty then none
    else some (Text.digitsValue ds * Nat.pow 10 (9 - ds.length), rest.dropWhile Text.isDigit)
  | cs => some (0, cs)

/-- Two digits, exactly. -/
def readTwo? : List Char → Option (Nat × List Char)
  | a :: b :: rest =>
    if Text.isDigit a && Text.isDigit b then some (Text.digitsValue [a, b], rest) else none
  | _ => none

/-- An offset from universal time in seconds: a letter, a name, or hours and minutes with a sign. -/
def readOffset? (cs : List Char) : Option (Int × List Char) :=
  let cs := Text.trimLeft cs
  if (Text.lowerAscii (String.ofList (cs.take 3))) == "utc" then some (0, cs.drop 3) else
  match cs with
  | 'Z' :: rest | 'z' :: rest => some (0, rest)
  | sign :: rest =>
    if sign = '+' ∨ sign = '-' ∨ sign = '\u2212' then
      match readTwo? rest with
      | none => none
      | some (hours, rest) =>
        match readTwo? (rest.dropWhile fun c => c = ':' || Text.isBlank c) with
        | none => none
        | some (minutes, rest) =>
          let seconds : Int := hours * 3600 + minutes * 60
          if minutes < 60 ∧ seconds < 86400 then
            some (if sign = '+' then seconds else -seconds, rest)
          else none
    else none
  | [] => none

/-- The letter or blank between date and time. -/
def readGap? : List Char → Option (List Char)
  | 'T' :: rest | 't' :: rest | ' ' :: rest => some rest
  | _ => none

/-- A date, a time of day and an offset, with nothing but blanks after them. -/
def parse? (s : String) : Option Timestamp := do
  let (year, cs) ← readYear? s.toList
  let cs ← readMark? '-' cs
  let (month, cs) ← readField? 1 12 cs
  let cs ← readMark? '-' cs
  let (day, cs) ← readField? 1 31 cs
  let cs ← readGap? cs
  let (hour, cs) ← readField? 0 23 cs
  let cs ← readMark? ':' cs
  let (minute, cs) ← readField? 0 59 cs
  let cs ← readMark? ':' cs
  let (second, cs) ← readField? 0 60 cs
  let (nano, cs) ← readNanos? cs
  let (offset, cs) ← readOffset? cs
  if (Text.trimLeft cs).isEmpty then
    let leap := second = 60
    ofLocal? year month day (hour * 3600 + minute * 60 + if leap then 59 else second)
      (if leap then 1000000000 + nano else nano) offset
  else none

/-- Years of four digits are written plainly, others with a sign. -/
def yearText (year : Int) : List Char :=
  if 0 ≤ year ∧ year ≤ 9999 then Text.padded 4 year.toNat
  else (if year < 0 then '-' else '+') :: Text.padded 4 year.natAbs

/-- As few of three, six or nine digits as the nanoseconds need. -/
def nanoText (nano : Nat) : List Char :=
  if nano = 0 then []
  else if nano % 1000000 = 0 then '.' :: Text.padded 3 (nano / 1000000)
  else if nano % 1000 = 0 then '.' :: Text.padded 6 (nano / 1000)
  else '.' :: Text.padded 9 nano

def text (t : Timestamp) : String :=
  let (year, month, day) := date t.day
  let leap := 1000000000 ≤ t.nano
  let second := t.second % 60 + if leap then 1 else 0
  String.ofList (yearText year ++ '-' :: Text.padded 2 month ++ '-' :: Text.padded 2 day ++
    'T' :: Text.padded 2 (t.second / 3600) ++ ':' :: Text.padded 2 (t.second / 60 % 60) ++
    ':' :: Text.padded 2 second ++ nanoText (if leap then t.nano - 1000000000 else t.nano) ++ ['Z'])

end Timestamp

end PromptDesk
