import Unparse.Tree.Encode

/-! Documents as trees. Every document gives a reader, which looks for a tree of the
shape that it is asked for. A record may be an object, in any order and with members
that no field has, or an array of its fields in order. -/
namespace Unparse

namespace Decode

/-- The members of an object that have a name. -/
def named {A : Type} (name : String) (members : List (String × A)) : List A :=
  (members.filter (·.1 == name)).map Prod.snd

/-- The only member of a name. -/
def only? {A : Type} (name : String) (members : List (String × A)) : Option A :=
  match named name members with
  | [a] => some a
  | _ => none

/-- How a document reaches its reader. Read directly, it may open only so many more arrays and
objects. What lies inside of a tagged node has been buffered: its depth is known, a tag in it may be
the number of a kind, and an empty object stands for `null` as the content of a bare name. -/
inductive Mode where
  | direct (room : Nat)
  | buffered
deriving DecidableEq, Repr

namespace Mode

/-- The mode inside of an array or an object. -/
def enter : Mode → Option Mode
  | direct 0 => none
  | direct (room + 1) => some (direct room)
  | buffered => some buffered

def admits (j : Json) : Mode → Bool
  | direct room => j.depth ≤ room
  | buffered => true

end Mode

/-- A name that has no content: a text, or an object whose one member is void. -/
def bareName? (mode : Mode) : Json → Option String
  | .str s => some s
  | .obj [(name, .null)] => some name
  | .obj [(name, .obj [])] => if mode = .buffered then some name else none
  | _ => none

def natBelow? (bound : Nat) (j : Json) : Option Nat := do
  let n ← j.nat?
  if n < bound then some n else none

def word? (j : Json) : Option UInt32 :=
  (natBelow? UInt32.size j).map UInt32.ofNat

def byte? (j : Json) : Option UInt8 :=
  (natBelow? UInt8.size j).map UInt8.ofNat

/-- A text of digits, maybe with a minus sign, maybe between blanks. -/
def integerText? (s : String) : Option Int :=
  match Text.trimChars s.toList with
  | '-' :: digits => (Text.digits? digits).map fun n => -(n : Int)
  | digits => (Text.digits? digits).map Int.ofNat

def integer? : Json → Option Int
  | .int i => some i
  | .str s => integerText? s
  | _ => none

def complexMembers? (members : List (String × Json)) : Option (Binary64 × Binary64) := do
  let real ← (← only? "real" members).double?
  let imag ← (← only? "imag" members).double?
  some (real, imag)

def complex? : Json → Option (Binary64 × Binary64)
  | .obj members => complexMembers? members
  | .arr [real, imag] => do some (← real.double?, ← imag.double?)
  | _ => none

/-- An integer, else a double, else an object with a real and an imaginary part. -/
def number? (j : Json) : Option Number :=
  match integer? j with
  | some i => some (.int i)
  | none =>
    match j with
    | .float x => some (.float x)
    | .obj members => (complexMembers? members).map fun (real, imag) => .complex real imag
    | _ => none

/-- The constants with a content, by the name of their sort. -/
def constantOf? (sort : String) (content : Json) : Option Constant :=
  match sort with
  | "bool" => content.bool?.map .bool
  | "int" => (integer? content).map .int
  | "float" => content.double?.map .float
  | "complex" => (complex? content).map fun (real, imag) => .complex real imag
  | "str" => content.str?.map .str
  | "bytes" => content.items?.bind fun items => (items.mapM byte?).map .bytes
  | _ => none

def bareConstant? : String → Option Constant
  | "none" => some .none
  | "ellipsis" => some .ellipsis
  | _ => none

def constant? (mode : Mode) (j : Json) : Option Constant :=
  match (bareName? mode j).bind bareConstant? with
  | some c => some c
  | none =>
    match j with
    | .obj [(sort, content)] => constantOf? sort content
    | _ => none

def scalar? (mode : Mode) : (a : Scalar) → Json → Option a.Carrier
  | .text, j => j.str?
  | .flag _, j => j.bool?
  | .level, j => word? j
  | .byte, j => byte? j
  | .number, j => number? j
  | .constant, j => constant? mode j
  | .singleton, j => (bareName? mode j).bind fun s => Singleton.all.find? (·.text == s)
  | .conversion, j => (bareName? mode j).bind fun s => Conversion.all.find? (·.text == s)

def position? : Json → Option (Option Position)
  | .null => some none
  | .arr [line, column] => do some (some ⟨← word? line, ← word? column⟩)
  | .obj members => do
    let line ← word? (← only? "lineno" members)
    let column ← word? (← only? "col_offset" members)
    some (some ⟨line, column⟩)
  | _ => none

/-- What a field may hold when nothing is written for it. -/
def default? : (s : Shape) → Option (Tree s)
  | .option _ => some .absent
  | .list _ => some .nil
  | .scalar (.flag b) => some (.scalar b)
  | .scalar .level => some (.scalar (0 : UInt32))
  | _ => none

/-- A stated field may be missing from an object only if it holds an option. -/
def missing? : Presence → (s : Shape) → Option (Tree s)
  | .stated, .option _ => some .absent
  | .stated, _ => none
  | _, s => default? s

abbrev Reader : Type :=
  Mode → (s : Shape) → Option (Tree s)

/-- The fields of a record, out of the members of an object. -/
def record? (mode : Mode) (members : List (String × Reader)) : (s : Shape) → Option (Tree s)
  | .done => some .done
  | .field name presence s rest => do
    let value ← match named name members with
      | [] => missing? presence s
      | [read] => read mode s
      | _ => none
    let more ← record? mode members rest
    some (.field value more)
  | _ => none

/-- The fields of a record, out of the items of an array, and how many items they took. -/
def tuple? (mode : Mode) : (s : Shape) → List Reader → Option (Tree s × Nat)
  | .done, _ => some (.done, 0)
  | .field _ presence s rest, [] => do
    let value ← if presence = .stated then none else default? s
    let (more, _) ← tuple? mode rest []
    some (.field value more, 0)
  | .field _ _ s rest, read :: readers => do
    let value ← read mode s
    let (more, taken) ← tuple? mode rest readers
    some (.field value more, taken + 1)
  | _, _ => none

/-- A kind of a family by its tag: its word, or among buffered documents its number. -/
def tag? (mode : Mode) (f : Family) : Json → Option Kind
  | .str s => (Kind.inPlace f).find? (·.word == s)
  | .int (.ofNat n) => if mode = .buffered then (Kind.inPlace f)[n]? else none
  | _ => none

def node? (f : Family) (k : Kind) (fields : Tree k.shape) (p : Option Position) :
    Option (Node f) :=
  if h : k.place = f then
    some (h ▸ Tree.node k fields (Mark.ofPosition k.place p))
  else none

/-- A document together with the readers of what it holds. -/
structure Source where
  json : Json
  items : List Reader
  members : List (String × Reader)

namespace Source

/-- A node of a kind as an object. -/
def object? (src : Source) (mode : Mode) (f : Family) (k : Kind) : Option (Node f) :=
  match src.json with
  | .obj members => do
    let fields ← record? mode src.members k.shape
    let p ← if f.isPositioned then
        match named "position" members with
        | [] => some none
        | [j] => position? j
        | _ => none
      else some none
    node? f k fields p
  | _ => none

/-- A node of a kind as an array; `skipped` items come before its fields. -/
def array? (src : Source) (mode : Mode) (f : Family) (k : Kind) (skipped : Nat) :
    Option (Node f) :=
  match src.json with
  | .arr items => do
    let (fields, taken) ← tuple? mode k.shape (src.items.drop skipped)
    match items.drop (skipped + taken) with
    | [] => node? f k fields none
    | [j] => if f.isPositioned then node? f k fields (← position? j) else none
    | _ => none
  | _ => none

def operator? (src : Source) (mode : Mode) (f : Family) : Option (Node f) := do
  let k ← (Kind.inPlace f).find? (some ·.word == bareName? mode src.json)
  let fields ← record? mode [] k.shape
  node? f k fields none

def tagged? (src : Source) (mode : Mode) (f : Family) : Option (Node f) :=
  if mode.admits src.json then
    match src.json with
    | .obj members => do
      let k ← tag? mode f (← only? "kind" members)
      src.object? .buffered f k
    | .arr (tag :: _) => do
      let k ← tag? mode f tag
      src.array? .buffered f k 1
    | _ => none
  else none

/-- A family of one kind needs no tag. -/
def plain? (src : Source) (mode : Mode) (f : Family) : Option (Node f) := do
  let inner ← mode.enter
  let k ← (Kind.inPlace f).head?
  match src.json with
  | .obj _ => src.object? inner f k
  | _ => src.array? inner f k 0

def family? (src : Source) (mode : Mode) (f : Family) : Option (Node f) :=
  if f.isOperator then src.operator? mode f
  else if f.isTagged then src.tagged? mode f
  else src.plain? mode f

def list? (mode : Mode) (s : Shape) (items : List Reader) : Option (Tree (.list s)) :=
  items.foldr (fun read more => do some (.cons (← read mode s) (← more))) (some .nil)

def read (src : Source) (mode : Mode) : (s : Shape) → Option (Tree s)
  | .node f => src.family? mode f
  | .scalar a => (scalar? mode a src.json).map .scalar
  | .option s =>
    match src.json with
    | .null => some .absent
    | _ => (src.read mode s).map .present
  | .list s =>
    match src.json with
    | .arr _ => mode.enter.bind fun inner => list? inner s src.items
    | _ => none
  | _ => none

end Source

mutual

def reader : Json → Reader
  | .arr items => Source.read ⟨.arr items, readers items, []⟩
  | .obj members => Source.read ⟨.obj members, [], memberReaders members⟩
  | j => Source.read ⟨j, [], []⟩

def readers : List Json → List Reader
  | [] => []
  | j :: more => reader j :: readers more

def memberReaders : List (String × Json) → List (String × Reader)
  | [] => []
  | member :: more => memberReader member :: memberReaders more

def memberReader : String × Json → String × Reader
  | (name, j) => (name, reader j)

end

/-- How deep a document may nest its arrays and objects. -/
def deepest : Nat := 127

end Decode

/-- The node of a family that a document describes. -/
def Node.ofJson? (f : Family) (j : Json) : Option (Node f) :=
  Decode.reader j (.direct Decode.deepest) (.node f)

end Unparse
