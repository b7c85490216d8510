import Unparse.Toml.Lexeme

/-! Reading TOML text: values, lines, and the document they make up. -/
namespace Unparse.Toml

/-- Blanks, newlines and comments between the items of an array. -/
def skipLines : Nat → Chars → Option Chars
  | 0, cs => some cs
  | fuel + 1, cs =>
    match skipBlanks cs with
    | '\n' :: rest => skipLines fuel rest
    | '\r' :: '\n' :: rest => skipLines fuel rest
    | '#' :: comment =>
      match endLine? ('#' :: comment) with
      | some rest => skipLines fuel rest
      | none => none
    | rest => some rest

/-- After an item of an array there may be more; a comma may stand before the end. -/
def items (value : Chars → Option (Toml × Chars)) : Nat → Chars → Option (List Toml × Chars)
  | 0, _ => none
  | fuel + 1, cs => do
    let rest ← skipLines cs.length cs
    match rest with
    | ']' :: rest => some ([], rest)
    | _ =>
      let (item, rest) ← value rest
      let rest ← skipLines rest.length rest
      match rest with
      | ',' :: rest =>
        let (more, rest) ← items value fuel rest
        some (item :: more, rest)
      | ']' :: rest => some ([item], rest)
      | _ => none

/-- The assignments of an inline table, which has one line and no comma at its end. -/
def assignments (value : Chars → Option (Toml × Chars)) :
    Nat → Members → Chars → Option (Members × Chars)
  | 0, _, _ => none
  | fuel + 1, ms, cs => do
    let ((path, key), rest) ← key? cs
    match skipBlanks rest with
    | '=' :: rest =>
      let (v, rest) ← value (skipBlanks rest)
      let ms ← assign path key v ms
      match skipBlanks rest with
      | ',' :: rest => assignments value fuel ms rest
      | '\x7d' :: rest => some (ms, rest)
      | _ => none
    | _ => none

/-- A value in which arrays and tables nest at most `room` deep. -/
def valueWithin? : Nat → Chars → Option (Toml × Chars)
  | _, [] => none
  | room, c :: rest =>
    if isQuote c then (string? c (c :: rest)).map fun (s, rest) => (.text s, rest)
    else if c = '[' then
      match room with
      | 0 => none
      | room + 1 =>
        (items (valueWithin? room) rest.length rest).map fun (vs, rest) => (.array vs, rest)
    else if c = '\x7b' then
      match room with
      | 0 => none
      | room + 1 =>
        match skipBlanks rest with
        | '\x7d' :: rest => some (.table .inline [], rest)
        | inner =>
          (assignments (valueWithin? room) inner.length [] inner).map fun (ms, rest) =>
            (.table .inline ms, rest)
    else
      let length := wordLength (c :: rest)
      (word? ((c :: rest).take length)).map (·, (c :: rest).drop length)

def value? (cs : Chars) : Option (Toml × Chars) :=
  valueWithin? depthLimit cs

/-- A document under way: its tables, and the header that counts. -/
structure Document where
  root : Members
  current : List String

/-- A line that opens a table. -/
def header? (doc : Document) (cs : Chars) : Option (Document × Chars) :=
  match cs with
  | '[' :: rest => do
    let ((path, key), rest) ← key? rest
    match skipBlanks rest with
    | ']' :: ']' :: rest =>
      let root ← openElement path key doc.root
      some (⟨root, path ++ [key]⟩, rest)
    | _ => none
  | _ => do
    let ((path, key), rest) ← key? cs
    match skipBlanks rest with
    | ']' :: rest =>
      let root ← openTable path key doc.root
      some (⟨root, path ++ [key]⟩, rest)
    | _ => none

/-- A line that assigns a value. -/
def assignment? (doc : Document) (cs : Chars) : Option (Document × Chars) := do
  let ((path, key), rest) ← key? cs
  match skipBlanks rest with
  | '=' :: rest =>
    let (v, rest) ← value? (skipBlanks rest)
    let root ← assignIn doc.current path key v doc.root
    some ({ doc with root := root }, rest)
  | _ => none

def isLineEnd : Chars → Bool
  | [] => true
  | c :: _ => c == '#' || c == '\n' || c == '\r'

/-- One line after the other. -/
def lines : Nat → Document → Chars → Option Members
  | 0, doc, cs => if cs.isEmpty then some doc.root else none
  | _, doc, [] => some doc.root
  | fuel + 1, doc, c :: cs => do
    let start := skipBlanks (c :: cs)
    if isLineEnd start then lines fuel doc (← endLine? start)
    else
      let (doc, rest) ← match start with
        | '[' :: more => header? doc more
        | _ => assignment? doc start
      lines fuel doc (← endLine? rest)

/-- A mark of the byte order in front does not count. -/
def dropByteOrderMark : Chars → Chars
  | '\ufeff' :: rest => rest
  | cs => cs

/-- The members of the document that a text holds. -/
def ofText? (s : String) : Option Members :=
  let cs := dropByteOrderMark s.toList
  lines cs.length ⟨[], []⟩ cs

end Unparse.Toml
