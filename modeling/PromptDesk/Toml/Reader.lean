import PromptDesk.Toml.Scalar

/-! Reading a settings file. Readers return the characters left and refuse by returning nothing;
the bound on the recursion comes from the length of the text. -/
namespace PromptDesk.Toml

def isSpace (c : Char) : Bool := c = ' ' || c = '\t'

def skipSpace (cs : List Char) : List Char := cs.dropWhile isSpace

/-- Characters that may stand in comments and strings: no controls but the tab. -/
def isPlain (c : Char) : Bool := c = '\t' || (0x20 ≤ c.toNat && c.toNat != 0x7F)

/-- The end of a line, if the text goes on with one. -/
def lineEnd? : List Char → Option (List Char)
  | '\n' :: cs => some cs
  | '\r' :: '\n' :: cs => some cs
  | _ => none

/-- Passes over a comment. -/
def skipComment : List Char → List Char
  | '#' :: cs => cs.dropWhile isPlain
  | cs => cs

/-- Passes over spaces, comments and line ends. -/
def skipLines : Nat → List Char → List Char
  | 0, cs => cs
  | fuel + 1, cs =>
    let cs := skipComment (skipSpace cs)
    match lineEnd? cs with
    | some cs => skipLines fuel cs
    | none => cs

/-- A character given by some hexadecimal digits. -/
def byNumber? (n : Nat) (cs : List Char) : Option (Char × List Char) :=
  let ds := cs.take n
  if ds.length = n ∧ ds.all (fun c => (Text.hexDigit? c).isSome) then
    let code := inBase 16 ds
    if code.isValidChar then some (Char.ofNat code, cs.drop n) else none
  else none

/-- The character behind a backslash. -/
def escape? : List Char → Option (Char × List Char)
  | 'b' :: cs => some ('\x08', cs)
  | 't' :: cs => some ('\t', cs)
  | 'n' :: cs => some ('\n', cs)
  | 'f' :: cs => some ('\x0c', cs)
  | 'r' :: cs => some ('\r', cs)
  | 'e' :: cs => some ('\x1b', cs)
  | '"' :: cs => some ('"', cs)
  | '\\' :: cs => some ('\\', cs)
  | 'x' :: cs => byNumber? 2 cs
  | 'u' :: cs => byNumber? 4 cs
  | 'U' :: cs => byNumber? 8 cs
  | _ => none

/-- The rest of a string on one line, up to its quote; only a double quote knows escapes. -/
def lineText : Nat → Char → List Char → Option (List Char × List Char)
  | 0, _, _ => none
  | _ + 1, _, [] => none
  | fuel + 1, quote, c :: cs =>
    if c = quote then some ([], cs)
    else if c = '\\' ∧ quote = '"' then
      match escape? cs with
      | some (d, cs) => (lineText fuel quote cs).map fun r => (d :: r.1, r.2)
      | none => none
    else if isPlain c then (lineText fuel quote cs).map fun r => (c :: r.1, r.2)
    else none

/-- How many quotes stand at the start. -/
def quotes (quote : Char) (cs : List Char) : Nat := (cs.takeWhile (· == quote)).length

/-- Behind a backslash at the end of a line all spaces and line ends are passed over. -/
def skipFolded : List Char → List Char
  | ' ' :: cs | '\t' :: cs | '\n' :: cs | '\r' :: '\n' :: cs => skipFolded cs
  | cs => cs

/-- The rest of a string on several lines, up to three quotes; of up to five quotes the last three
close it. -/
def blockText : Nat → Char → List Char → Option (List Char × List Char)
  | 0, _, _ => none
  | _ + 1, _, [] => none
  | fuel + 1, quote, c :: cs =>
    let n := quotes quote (c :: cs)
    if 3 ≤ n then
      if n ≤ 5 then some (List.replicate (n - 3) quote, (c :: cs).drop n)
      else none
    else if c = '\\' ∧ quote = '"' then
      match lineEnd? (skipSpace cs) with
      | some cs => blockText fuel quote (skipFolded cs)
      | none =>
        match escape? cs with
        | some (d, cs) => (blockText fuel quote cs).map fun r => (d :: r.1, r.2)
        | none => none
    else
      match lineEnd? (c :: cs) with
      | some rest => (blockText fuel quote rest).map fun r => ('\n' :: r.1, r.2)
      | none =>
        if isPlain c then (blockText fuel quote cs).map fun r => (c :: r.1, r.2) else none

/-- A string of any of the four forms. -/
def string? (fuel : Nat) : List Char → Option (List Char × List Char)
  | [] => none
  | quote :: cs =>
    if quote = '"' ∨ quote = '\'' then
      if 2 ≤ quotes quote cs then
        let cs := cs.drop 2
        blockText fuel quote ((lineEnd? cs).getD cs)
      else lineText fuel quote cs
    else none

def isBare (c : Char) : Bool :=
  Text.isDigit c || ('a' ≤ c && c ≤ 'z') || ('A' ≤ c && c ≤ 'Z') || c = '_' || c = '-'

/-- One part of a key. -/
def keyPart? (fuel : Nat) : List Char → Option (String × List Char)
  | [] => none
  | c :: cs =>
    if c = '"' ∨ c = '\'' then (lineText fuel c cs).map fun r => (String.ofList r.1, r.2)
    else
      let bare := (c :: cs).takeWhile isBare
      if bare.isEmpty then none
      else some (String.ofList bare, (c :: cs).drop bare.length)

/-- Arrays and inline tables may be nested this deep, and a key has to lead through fewer tables. -/
def nestingLimit : Nat := 80

/-- Parts with dots between them: the path and the last part. -/
def dotted? : Nat → List Char → Option ((List String × String) × List Char)
  | 0, _ => none
  | fuel + 1, cs =>
    match keyPart? fuel (skipSpace cs) with
    | none => none
    | some (part, rest) =>
      match skipSpace rest with
      | '.' :: rest => (dotted? fuel rest).map fun r => ((part :: r.1.1, r.1.2), r.2)
      | rest => some (([], part), rest)

/-- A key, whose parts stand on one line: the path and the last part. -/
def key? (fuel : Nat) (cs : List Char) : Option ((List String × String) × List Char) :=
  (dotted? fuel cs).filter fun r => r.1.1.length < nestingLimit

/-- Characters that end a word without quotes. -/
def isWordEnd (c : Char) : Bool :=
  c = ',' || c = ']' || c = '\x7d' || c = '#' || c = '\n' || c = '\r' || c = '\t' || c = ' '

/-- A word without quotes; a date may have a blank before its time of day. -/
def word (cs : List Char) : List Char × List Char :=
  let first := cs.takeWhile fun c => !isWordEnd c
  let rest := cs.drop first.length
  match rest with
  | ' ' :: d :: _ =>
    if Text.isDigit d && (date? first) == some [] then
      let second := (rest.drop 1).takeWhile fun c => !isWordEnd c
      (first ++ ' ' :: second, rest.drop (second.length + 1))
    else (first, rest)
  | _ => (first, rest)

mutual

/-- A value, without space before it, inside of which there is room for some levels. -/
def value? : Nat → Nat → List Char → Option (Value × List Char)
  | 0, _, _ => none
  | fuel + 1, room, cs =>
    match cs with
    | [] => none
    | '[' :: rest =>
      if room = 0 then none
      else (items? fuel (room - 1) rest).map fun r => (.array r.1, r.2)
    | '\x7b' :: rest =>
      if room = 0 then none
      else (members? fuel (room - 1) rest (.opened, [])).map fun r => (.table .inline r.1, r.2)
    | c :: rest =>
      if c = '"' ∨ c = '\'' then
        (string? fuel (c :: rest)).map fun r => (.text (String.ofList r.1), r.2)
      else
        let (w, rest) := word (c :: rest)
        (scalar? w).map fun v => (v, rest)

/-- The items of an array up to its bracket. A comma may follow the last one. -/
def items? : Nat → Nat → List Char → Option (List Value × List Char)
  | 0, _, _ => none
  | fuel + 1, room, cs =>
    match skipLines fuel cs with
    | ']' :: rest => some ([], rest)
    | cs =>
      match value? fuel room cs with
      | none => none
      | some (v, rest) =>
        match skipLines fuel rest with
        | ']' :: rest => some ([v], rest)
        | ',' :: rest => (items? fuel room rest).map fun r => (v :: r.1, r.2)
        | _ => none

/-- The entries of an inline table up to its brace. Lines may end anywhere but inside a key, and a
comma may follow the last entry. -/
def members? : Nat → Nat → List Char → TableKind × Entries → Option (Entries × List Char)
  | 0, _, _, _ => none
  | fuel + 1, room, cs, t =>
    match skipLines fuel cs with
    | '\x7d' :: rest => some (t.2, rest)
    | cs =>
      match key? fuel cs with
      | none => none
      | some ((path, key), rest) =>
        match skipLines fuel rest with
        | '=' :: rest =>
          match value? fuel room (skipLines fuel rest) with
          | none => none
          | some (v, rest) =>
            match put path key v t with
            | none => none
            | some t =>
              match skipLines fuel rest with
              | '\x7d' :: rest => some (t.2, rest)
              | ',' :: rest => members? fuel room rest t
              | _ => none
        | _ => none

end

/-- What has to follow an expression: nothing more than a comment on its line. -/
def lineRest? (cs : List Char) : Option (List Char) :=
  let cs := skipComment (skipSpace cs)
  if cs.isEmpty then some [] else lineEnd? cs

/-- The lines of a file, under the header read last. -/
def lines? : Nat → List Char → List String → Entries → Option Entries
  | 0, _, _, _ => none
  | fuel + 1, cs, header, root =>
    match skipLines fuel cs with
    | [] => some root
    | '[' :: '[' :: rest =>
      match key? fuel rest with
      | some ((path, key), ']' :: ']' :: rest) =>
        match addTable path key root, lineRest? rest with
        | some root, some rest => lines? fuel rest (path ++ [key]) root
        | _, _ => none
      | _ => none
    | '[' :: rest =>
      match key? fuel rest with
      | some ((path, key), ']' :: rest) =>
        match openTable path key root, lineRest? rest with
        | some root, some rest => lines? fuel rest (path ++ [key]) root
        | _, _ => none
      | _ => none
    | cs =>
      match key? fuel cs with
      | some ((path, key), '=' :: rest) =>
        match value? fuel nestingLimit (skipSpace rest) with
        | some (v, rest) =>
          match putUnder header path key v root, lineRest? rest with
          | some root, some rest => lines? fuel rest header root
          | _, _ => none
        | none => none
      | _ => none

/-- The root table of a file. A byte order mark may stand first. -/
def document? (s : String) : Option Entries :=
  let cs := match s.toList with
    | '\ufeff' :: cs => cs
    | cs => cs
  lines? (2 * cs.length + 4) cs [] []

end PromptDesk.Toml
