import Unparse.Host

/-! A working directory that is kept in memory. Files are known by the names on the way to
them; a directory exists if there is a file below it. -/
namespace Unparse

structure Directory where
  files : List (List String × ByteArray)

/-- Where a path leads. -/
inductive Place where
  | file (name : List String) (content : ByteArray)
  | directory
  /-- Nothing has this name; `rest` is what the path still asks for. -/
  | vacant (name rest : List String)
  /-- The path goes through a file. -/
  | blocked
  /-- Outside the directory nothing is known. -/
  | outside

namespace Directory

def parts (path : String) : List String :=
  (Text.splitAt '/' path.toList).map String.ofList

def isDirectory (d : Directory) (name : List String) : Bool :=
  d.files.any fun (n, _) => name.isPrefixOf n && name != n

/-- The directories above this one exist, but what they hold is not known. -/
def above (rest : List String) : Place :=
  if rest.all ["", ".", ".."].contains then .directory else .outside

/-- Follows the parts of a path from the directory `here`. -/
def follow (d : Directory) (here : List String) : List String → Place
  | [] => .directory
  | part :: rest =>
    if part = "" ∨ part = "." then follow d here rest
    else if part = ".." then
      if here = [] then above rest else follow d here.dropLast rest
    else
      let name := here ++ [part]
      match d.files.lookup name with
      | some content => if rest = [] then .file name content else .blocked
      | none => if d.isDirectory name then follow d name rest else .vacant name rest

def place (d : Directory) (path : String) : Place :=
  match parts path with
  | "" :: rest => if rest = [] then .vacant [] [] else above rest
  | rest => follow d [] rest

def read (d : Directory) (path : String) : Except FileFault String :=
  match d.place path with
  | .file _ content => ((String.fromUTF8? content).map .ok).getD (.error .other)
  | .vacant _ _ | .outside => .error .missing
  | .directory | .blocked => .error .other

def put (d : Directory) (name : List String) (content : ByteArray) : Directory :=
  ⟨d.files.filter (·.1 != name) ++ [(name, content)]⟩

def write (d : Directory) (path text : String) : Except FileFault Directory :=
  match d.place path with
  | .file name _ => .ok (d.put name text.toUTF8)
  | .vacant name rest =>
    if name = [] then .error .missing
    else if rest = [] then .ok (d.put name text.toUTF8)
    else if rest.all (· = "") then .error .other
    else .error .missing
  | .outside => .error .missing
  | .directory | .blocked => .error .other

/-- Runs a job in the directory, with a standard input and an environment. -/
def host (input : Option String) (setting : Option String) : Host (StateM Directory) where
  read path := return (← get).read path
  write path text := do
    match (← get).write path text with
    | .ok d => set d; return .ok ()
    | .error fault => return .error fault
  input := return input
  setting := return setting

/-- The files of `after` that are new or have another content than in `d`. -/
def changes (d after : Directory) : List (List String × ByteArray) :=
  after.files.filter fun (name, content) => d.files.lookup name != some content

end Directory

end Unparse
