import PromptDesk.Keyed
import PromptDesk.Text.Numeral
import PromptDesk.Json.Floating

/-! JSON in two forms. A tree is a well-formed text as it was written: numbers keep their digits,
objects keep repeated members, and a string whose escapes name no character keeps its place without
a content. A value is what a tree means, when every part of it means something. -/
namespace PromptDesk

/-- A JSON value. Members stand in the order in which they are written. -/
inductive Json where
  | null
  | bool (b : Bool)
  | natural (n : UInt64)
  | negative (magnitude : Nat)
  | floating (x : Json.Floating)
  | text (s : String)
  | array (items : List Json)
  | object (members : List (String × Json))
  deriving Inhabited

namespace Json

/-- A number as it is written. -/
structure Numeral where
  negative : Bool
  whole : List Char
  fraction : List Char
  /-- Whether the exponent is negative, and its digits. -/
  exponent : Option (Bool × List Char)
  deriving DecidableEq, Repr

/-- A well-formed text. -/
inductive Tree where
  | null
  | bool (b : Bool)
  | number (n : Numeral)
  | text (s : Option String)
  | array (items : List Tree)
  | object (members : List (Option String × Tree))
  deriving Inhabited

/-- Digits that still fit a word are taken into the significand; it returns the digits left over. -/
def significand : List Char → Nat → Nat × List Char
  | [], n => (n, [])
  | c :: cs, n =>
    let m := n * 10 + (c.toNat - 48)
    if m < UInt64.size then significand cs m else (n, c :: cs)

/-- The exponent that a written one adds; beyond 31 bits it decides between zero and overflow. -/
def Numeral.shift (n : Numeral) : Int :=
  match n.exponent with
  | none => 0
  | some (true, ds) => -(Text.digitsValue ds)
  | some (false, ds) => Text.digitsValue ds

/-- The floating-point number that a numeral stands for. Digits of the significand beyond 64 bits
are dropped, those before the point with their weight. -/
def Numeral.floating? (n : Numeral) : Option Floating :=
  let (whole, excess) := significand n.whole 0
  let (mantissa, scale) : Nat × Int :=
    if excess.isEmpty then
      let (mantissa, rest) := significand n.fraction whole
      (mantissa, -((n.fraction.length - rest.length : Nat) : Int))
    else (whole, excess.length)
  if n.shift.natAbs < Nat.pow 2 31 then Floating.ofDecimal? n.negative mantissa (scale + n.shift)
  else if mantissa ≠ 0 ∧ n.shift > 0 then none
  else some ⟨n.negative, 0, 0⟩

/-- Integers that fit 64 bits are kept exactly; a negative zero and all other numbers are
floating. -/
def Numeral.value? (n : Numeral) : Option Json :=
  let v := Text.digitsValue n.whole
  if n.fraction.isEmpty && n.exponent.isNone && !n.negative && v < UInt64.size then
    some (.natural (UInt64.ofNat v))
  else if n.fraction.isEmpty && n.exponent.isNone && n.negative && 0 < v && v ≤ Nat.pow 2 63 then
    some (.negative v)
  else n.floating?.map .floating

mutual

/-- The value of a tree in which arrays and objects are nested no deeper than a bound. A repeated
member keeps its last value. -/
def Tree.value? : Tree → Nat → Option Json
  | .null, _ => some .null
  | .bool b, _ => some (.bool b)
  | .number n, _ => n.value?
  | .text s, _ => s.map .text
  | .array _, 0 => none
  | .array items, depth + 1 => (Tree.values? items depth).map .array
  | .object _, 0 => none
  | .object members, depth + 1 =>
    (Tree.members? members depth).map fun ms => .object (Keyed.ofList ms).entries

def Tree.values? : List Tree → Nat → Option (List Json)
  | [], _ => some []
  | t :: ts, depth =>
    match Tree.value? t depth, Tree.values? ts depth with
    | some v, some vs => some (v :: vs)
    | _, _ => none

def Tree.members? : List (Option String × Tree) → Nat → Option (List (String × Json))
  | [], _ => some []
  | (k, t) :: ms, depth =>
    match k, Tree.value? t depth, Tree.members? ms depth with
    | some k, some v, some vs => some ((k, v) :: vs)
    | _, _, _ => none

end

/-- Arrays and objects may be nested this deep. -/
def depthLimit : Nat := 127

/-- A member of an object. -/
def get? : Json → String → Option Json
  | .object members, k => members.lookup k
  | _, _ => none

def text? : Json → Option String
  | .text s => some s
  | _ => none

def bool? : Json → Option Bool
  | .bool b => some b
  | _ => none

end Json

end PromptDesk
