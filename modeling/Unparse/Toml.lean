/-! TOML documents as tables, and the rules for what a key or a header may add. -/
namespace Unparse

/-- How a table came about, which decides who may still add to it. -/
inductive TableForm where
  | inline
  | header
  /-- Only named as a part of a header. -/
  | implied
  /-- Made by a dotted key. -/
  | dotted
deriving DecidableEq, Repr

inductive Toml where
  | text (s : String)
  | integer (i : Int)
  | bool (b : Bool)
  | float
  | moment
  | array (items : List Toml)
  | table (form : TableForm) (members : List (String × Toml))
  /-- The tables of one repeated header, last one first. -/
  | tables (elements : List (List (String × Toml)))
deriving Repr

namespace Toml

abbrev Members : Type :=
  List (String × Toml)

def replace (key : String) (value : Toml) : Members → Members
  | [] => []
  | (k, v) :: more => if k = key then (key, value) :: more else (k, v) :: replace key value more

/-- Follows a path of keys, making the tables that are missing, and changes the table at its
end. With `dotted`, tables that have a header of their own cannot be entered. -/
def descend (dotted : Bool) (change : TableForm → Members → Option Members) :
    List String → TableForm → Members → Option Members
  | [], form, ms => change form ms
  | key :: path, _, ms =>
    match ms.lookup key with
    | none => do
      let form := if dotted then .dotted else .implied
      let inner ← descend dotted change path form []
      some (ms ++ [(key, table form inner)])
    | some (table form inner) =>
      if form = .inline ∨ (dotted ∧ form = .header) then none
      else do
        let inner ← descend dotted change path form inner
        some (replace key (table form inner) ms)
    | some (tables (last :: earlier)) => do
      let last ← descend dotted change path .header last
      some (replace key (tables (last :: earlier)) ms)
    | some _ => none

/-- A key must be new; a dotted key adds only to a table that dotted keys have made. -/
def assign (path : List String) (key : String) (value : Toml) (ms : Members) : Option Members :=
  let change (form : TableForm) (inner : Members) : Option Members :=
    if path ≠ [] ∧ form ≠ .dotted then none
    else if (inner.lookup key).isSome then none
    else some (inner ++ [(key, value)])
  descend true change path .header ms

/-- A header opens a table that is new or has only been implied. -/
def openTable (path : List String) (key : String) (root : Members) : Option Members :=
  let change (_ : TableForm) (inner : Members) : Option Members :=
    match inner.lookup key with
    | none => some (inner ++ [(key, table .header [])])
    | some (table .implied ms) => some (replace key (table .header ms) inner)
    | some _ => none
  descend false change path .header root

/-- A repeated header opens one more table. -/
def openElement (path : List String) (key : String) (root : Members) : Option Members :=
  let change (_ : TableForm) (inner : Members) : Option Members :=
    match inner.lookup key with
    | none => some (inner ++ [(key, tables [[]])])
    | some (tables elements) => some (replace key (tables ([] :: elements)) inner)
    | some _ => none
  descend false change path .header root

/-- Assigns below the table that the last header opened. -/
def assignIn (current : List String) (path : List String) (key : String) (value : Toml)
    (root : Members) : Option Members :=
  descend false (fun _ ms => assign path key value ms) current .header root

end Toml

end Unparse
