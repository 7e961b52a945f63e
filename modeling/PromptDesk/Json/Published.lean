import PromptDesk.Json.Reader
import PromptDesk.Json.Printer
import PromptDesk.Named
import PromptDesk.Timestamp

/-! Types whose values are exchanged as JSON texts. A record is read from an object or from the
array of its fields in order: unknown members are passed over, a known one may not be repeated, and
a missing one is allowed only where the record says so. -/
namespace PromptDesk

/-- Encoding into a value, and decoding from the tree of a text. -/
class Published (α : Type) where
  toJson : α → Json
  ofTree? : Json.Tree → Option α

export Published (toJson ofTree?)

namespace Json

variable {α β : Type}

/-- The text that a value is published as. -/
def encode [Published α] (a : α) : String := (toJson a).render

/-- The value that a text publishes. -/
def decode? [Published α] (s : String) : Option α := (tree? s.toList).bind ofTree?

instance : Published String where
  toJson := .text
  ofTree?
    | .text s => s
    | _ => none

instance : Published Bool where
  toJson := .bool
  ofTree?
    | .bool b => some b
    | _ => none

/-- A natural number below 2^64, written as an integer without a sign. -/
def Tree.word? : Tree → Option UInt64
  | .number n =>
    match n.value? with
    | some (.natural w) => some w
    | _ => none
  | _ => none

instance : Published UInt64 := ⟨.natural, Tree.word?⟩

instance [Published α] : Published (Option α) where
  toJson
    | some a => toJson a
    | none => .null
  ofTree?
    | .null => some none
    | t => (ofTree? t).map some

/-- Decodes every tree, or none of them. -/
def Tree.list? [Published α] : List Tree → Option (List α)
  | [] => some []
  | t :: ts =>
    match ofTree? t, Tree.list? ts with
    | some a, some as => some (a :: as)
    | _, _ => none

instance [Published α] : Published (List α) where
  toJson as := .array (as.map toJson)
  ofTree?
    | .array ts => Tree.list? ts
    | _ => none

/-- Decodes every member, or none of them. -/
def Tree.entries? [Published α] : List (Option String × Tree) → Option (List (String × α))
  | [] => some []
  | (k, t) :: ms =>
    match k, ofTree? t, Tree.entries? ms with
    | some k, some a, some es => some ((k, a) :: es)
    | _, _, _ => none

instance [Published α] : Published (Keyed α) where
  toJson m := .object (m.entries.map fun e => (e.1, toJson e.2))
  ofTree?
    | .object ms => (Tree.entries? ms).map Keyed.ofList
    | _ => none

instance [Published α] [Published β] : Published (α × β) where
  toJson p := .array [toJson p.1, toJson p.2]
  ofTree?
    | .array [s, t] =>
      match ofTree? s, ofTree? t with
      | some a, some b => some (a, b)
      | _, _ => none
    | _ => none

/-- An alternative is written as its name; it may be read from an object whose only member has
that name and no content. -/
instance (priority := low) [Named α] : Published α where
  toJson a := .text (name a)
  ofTree?
    | .text (some s) => ofName? s
    | .object [(some s, .null)] => ofName? s
    | _ => none

instance : Published Timestamp where
  toJson t := .text t.text
  ofTree?
    | .text (some s) => Timestamp.parse? s
    | _ => none

/-- The fields of a record as they were found. -/
structure Record where
  fields : List (String × Tree)
  /-- Found in an array, by their places. -/
  positional : Bool

/-- The members of an object whose names are known, none of them twice; nothing if a name has no
content. -/
def knownMembers? (names : List String) :
    List (Option String × Tree) → Option (List (String × Tree))
  | [] => some []
  | (k, t) :: ms =>
    match k, knownMembers? names ms with
    | some k, some fs =>
      if !names.contains k then some fs
      else if fs.any fun f => f.1 == k then none
      else some ((k, t) :: fs)
    | _, _ => none

def Tree.record? (names : List String) : Tree → Option Record
  | .object ms => (knownMembers? names ms).map (⟨·, false⟩)
  | .array ts => if ts.length ≤ names.length then some ⟨names.zip ts, true⟩ else none
  | _ => none

namespace Record

/-- A field that has to be there. -/
def required? [Published α] (r : Record) (name : String) : Option α :=
  (r.fields.lookup name).bind ofTree?

/-- A field with a value for when it is missing. -/
def withDefault? [Published α] (r : Record) (name : String) (a : α) : Option α :=
  match r.fields.lookup name with
  | some t => ofTree? t
  | none => some a

/-- A field that an object may leave out, but the array of the fields may not. -/
def optional? [Published α] (r : Record) (name : String) : Option (Option α) :=
  match r.fields.lookup name with
  | some t => ofTree? t
  | none => if r.positional then none else some none

end Record

/-- The name of an alternative and the tree of its fields. The name is a member of the object or
the first item of the array; everything beside it has to have a value. -/
def Tree.tagged? (tag : String) : Tree → Option (String × Tree)
  | .object ms =>
    match ms.filter (·.1 == some tag), ms.filter (·.1 != some tag) with
    | [(_, .text (some s))], rest =>
      (Tree.members? rest (depthLimit - 1)).map fun _ => (s, .object rest)
    | _, _ => none
  | .array (.text (some s) :: rest) =>
    (Tree.values? rest (depthLimit - 1)).map fun _ => (s, .array rest)
  | _ => none

/-- Fields of an alternative that has none: an object may hold anything, an array has to be
empty. -/
def Tree.noFields? : Tree → Option Unit
  | .object _ => some ()
  | .array [] => some ()
  | _ => none

end Json

end PromptDesk
