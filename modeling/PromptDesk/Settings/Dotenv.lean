import PromptDesk.Settings.Environment
import PromptDesk.Settings.File
import PromptDesk.Text.Alphanumeric
import PromptDesk.Keyed

/-! Variables from a file of assignments. Variables that are set already keep their values, and
reading stops without a word at the first malformed line. -/
namespace PromptDesk.Dotenv

/-- Where a line stands with quotes, while it is split from the next one. -/
inductive Quoting where
  | plain
  | escape
  | strong
  | strongEscape
  | weak
  | weakEscape
  /-- After a blank, where a comment may begin. -/
  | gap
  deriving DecidableEq, Inhabited, Repr

/-- Nothing if a comment begins. -/
def Quoting.next? (c : Char) : Quoting → Option Quoting
  | .gap => if c = '#' then none else some (opened c .plain)
  | .escape => some .plain
  | .plain =>
    if Text.isBlank c && c != '\n' && c != '\r' then some .gap else some (opened c .plain)
  | .weak => some (if c = '\\' then .weakEscape else if c = '"' then .plain else .weak)
  | .weakEscape => some .weak
  | .strong => some (if c = '\\' then .strongEscape else if c = '\'' then .plain else .strong)
  | .strongEscape => some .strong
where
  opened (c : Char) (other : Quoting) : Quoting :=
    if c = '\\' then .escape else if c = '"' then .weak else if c = '\'' then .strong else other

/-- What is left of a line after the end of one is searched for. -/
inductive Split where
  /-- A line and the text after it. -/
  | line (line rest : List Char)
  /-- The text is over inside quotes. -/
  | unfinished
  | over
  deriving DecidableEq, Inhabited, Repr

/-- The text after the next line feed. -/
def afterLine (cs : List Char) : List Char := (cs.dropWhile (· != '\n')).drop 1

/-- Drops the line feed at the end of a line, and the carriage return before it. -/
def chomp (held : List Char) : List Char :=
  match held with
  | '\n' :: '\r' :: cs => cs.reverse
  | '\n' :: cs => cs.reverse
  | cs => cs.reverse

/-- Whether the text read so far is a line that is a comment as a whole. -/
def isComment (cs : List Char) : Bool := (Text.trimLeft cs).head? == some '#'

/-- Splits off a line, which goes on over line feeds inside quotes. The characters read so far are
held, the last one first. -/
def splitFrom : List Char → List Char → Quoting → Split
  | [], held, q =>
    if q ≠ .plain then .unfinished else if held.isEmpty then .over else .line held.reverse []
  | c :: cs, held, q =>
    match q.next? c with
    | none => .line held.reverse (afterLine (c :: cs))
    | some q =>
      if c = '\n' ∧ q = .plain then .line (chomp ('\n' :: held)) cs else splitFrom cs (c :: held) q

/-- The next line. A comment that fills its line is an empty one. -/
def split (cs : List Char) : Split :=
  if cs.isEmpty then .over
  else if isComment (cs.takeWhile (· != '\n')) then .line [] (afterLine cs)
  else splitFrom cs [] .plain

/-- How a dollar sign is being read. -/
inductive Name where
  | outside
  | bare (held : List Char)
  | braced (held : List Char)
  deriving DecidableEq, Inhabited, Repr

/-- Where the value of an assignment stands. -/
structure Reading where
  strong : Bool := false
  weak : Bool := false
  escaped : Bool := false
  /-- Only a comment may follow. -/
  ended : Bool := false
  substitution : Name := .outside
  /-- The value so far, the last character first. -/
  held : List Char := []
  deriving DecidableEq, Inhabited, Repr

namespace Reading

def push (r : Reading) (c : Char) : Reading := { r with held := c :: r.held }

/-- Puts the value of the variable that was named. -/
def substitute (r : Reading) (env : Environment) (held : List Char) : Reading :=
  { r with
    substitution := .outside
    held := ((env (String.ofList held.reverse)).getD "").toList.reverse ++ r.held }

/-- One character more; nothing where it cannot stand. -/
def next? (r : Reading) (env : Environment) (c : Char) : Option Reading :=
  if r.escaped then
    if ['\\', '\'', '"', '$', ' '].contains c then some { r.push c with escaped := false }
    else if c = 'n' then some { r.push '\n' with escaped := false }
    else none
  else if r.strong then some (if c = '\'' then { r with strong := false } else r.push c)
  else match r.substitution with
    | .bare held =>
      if Text.isAlphanumeric c then some { r with substitution := .bare (c :: held) }
      else if c = '\x7b' ∧ held = [] then some { r with substitution := .braced [] }
      else
        let r := r.substitute env held
        some (if c = '$' then { r with substitution := .bare [] } else r.push c)
    | .braced held =>
      if c = '\x7d' then some (r.substitute env held)
      else some { r with substitution := .braced (c :: held) }
    | .outside =>
      if c = '$' then some { r with substitution := .bare [] }
      else if r.weak then
        some (if c = '"' then { r with weak := false }
          else if c = '\\' then { r with escaped := true }
          else r.push c)
      else if c = '\'' then some { r with strong := true }
      else if c = '"' then some { r with weak := true }
      else if c = '\\' then some { r with escaped := true }
      else if c = ' ' ∨ c = '\t' then some { r with ended := true }
      else some (r.push c)

/-- The value, unless quotes or braces are open. -/
def value? (r : Reading) (env : Environment) : Option String :=
  if r.strong || r.weak then none
  else match r.substitution with
    | .braced _ => none
    | .bare held => some (String.ofList (r.substitute env held).held.reverse)
    | .outside => some (String.ofList r.held.reverse)

end Reading

/-- The value of an assignment. -/
def value? (env : Environment) : List Char → Reading → Option String
  | [], r => r.value? env
  | c :: cs, r =>
    if r.ended then
      if c = ' ' ∨ c = '\t' then value? env cs r
      else if c = '#' then r.value? env
      else none
    else (r.next? env c).bind (value? env cs)

/-- A key and what follows it, blanks between them aside. -/
def key? (cs : List Char) : Option (String × List Char) :=
  match cs with
  | c :: _ =>
    if c.isAlpha || c = '_' then
      let key := cs.takeWhile fun c => c.isAlphanum || c = '_' || c = '.'
      some (String.ofList key, Text.trimLeft (cs.drop key.length))
    else none
  | [] => none

/-- A key up to its equals sign. The word "export" may stand before it. -/
def assigned? (cs : List Char) : Option (String × List Char) :=
  match key? cs with
  | some (key, '=' :: rest) => some (key, Text.trimLeft rest)
  | some ("export", rest) =>
    match key? rest with
    | some (key, '=' :: rest) => some (key, Text.trimLeft rest)
    | _ => none
  | _ => none

/-- What a line assigns: nothing at all if it is malformed, and no variable if it is blank or a
comment. -/
def assignment? (env : Environment) (line : List Char) : Option (Option (String × String)) :=
  let cs := Text.trimChars line
  if cs.isEmpty ∨ cs.head? = some '#' then some none
  else
    match assigned? cs with
    | none => none
    | some (key, rest) =>
      if rest.isEmpty ∨ rest.head? = some '#' then some (some (key, ""))
      else (value? env rest {}).map fun v => some (key, v)

/-- The variables after reading a text on top of some that are set already. -/
def extend : Nat → List Char → Keyed String → Keyed String
  | 0, _, vars => vars
  | fuel + 1, cs, vars =>
    match split cs with
    | .over | .unfinished => vars
    | .line line rest =>
      match assignment? vars.find? line with
      | none => vars
      | some none => extend fuel rest vars
      | some (some (key, v)) =>
        extend fuel rest (if vars.contains key then vars else vars.insert key v)

/-- Reads a whole file; a byte order mark may stand first. -/
def load (text : String) (vars : Keyed String) : Keyed String :=
  let cs := match text.toList with
    | '\ufeff' :: cs => cs
    | cs => cs
  extend (cs.length + 1) cs vars

end PromptDesk.Dotenv

namespace PromptDesk.Settings

/-- The settings of the home directory with the environment on top, to which a file of assignments
may add. -/
def ofSurroundings (home : FileContent) (dotenv : Option String) (vars : Keyed String) :
    Except Failure Settings := do
  let vars := match dotenv with
    | some text => Dotenv.load text vars
    | none => vars
  match (← load home).withEnvironment vars.find? with
  | .ok s => .ok s
  | .error fault => .error fault.failure

end PromptDesk.Settings
