/-! Patterns that capture a part of a text. A pattern is tried from its first atom to its last. Where
an atom leaves a choice, the preferred one is kept unless what follows fails with it. -/
namespace PromptDesk.Text

inductive Atom where
  /-- These characters. -/
  | word (cs : List Char)
  /-- These characters, or nothing if it cannot be helped. -/
  | optional (cs : List Char)
  /-- Characters of a class, as many as possible. -/
  | many (p : Char → Bool)
  /-- Any characters, as few as possible. They are captured. -/
  | captured

/-- The longest run of characters of a class after which the rest succeeds. -/
def longest {α : Type} (p : Char → Bool) (rest : List Char → Option α) : List Char → Option α
  | [] => rest []
  | c :: cs =>
    if p c then
      match longest p rest cs with
      | some a => some a
      | none => rest (c :: cs)
    else rest (c :: cs)

/-- The fewest characters after which the rest succeeds, in front of what the rest captures. -/
def fewest (rest : List Char → Option (List Char × List Char)) :
    List Char → Option (List Char × List Char)
  | [] => rest []
  | c :: cs =>
    match rest (c :: cs) with
    | some r => some r
    | none => (fewest rest cs).map fun r => (c :: r.1, r.2)

/-- What a pattern captures when a text starts with it, and the text that is left. -/
def capture? : List Atom → List Char → Option (List Char × List Char)
  | [], cs => some ([], cs)
  | .word w :: atoms, cs =>
    if w.isPrefixOf cs then capture? atoms (cs.drop w.length) else none
  | .optional w :: atoms, cs =>
    match if w.isPrefixOf cs then capture? atoms (cs.drop w.length) else none with
    | some r => some r
    | none => capture? atoms cs
  | .many p :: atoms, cs => longest p (capture? atoms) cs
  | .captured :: atoms, cs => fewest (capture? atoms) cs

/-- What a pattern captures in a text, read from the left after some characters that are passed
over. The pattern takes at least one character, and what it has taken is not looked at again. -/
def captures (atoms : List Atom) : Nat → List Char → List (List Char)
  | _, [] => []
  | skip + 1, _ :: cs => captures atoms skip cs
  | 0, c :: cs =>
    match capture? atoms (c :: cs) with
    | some (s, rest) => s :: captures atoms (cs.length - rest.length) cs
    | none => captures atoms 0 cs

end PromptDesk.Text
