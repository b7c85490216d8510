import Unparse.Proofs.Literal.Lexicon
import Unparse.Proofs.Tree.Erase
import Unparse.Tree.Build

/-! A reader for fully parenthesised expressions. It knows words, numbers, literals and single
signs, keeps what stands between the open brackets, and makes a tree of it when a bracket is
closed. No sign takes precedence over another one. -/
namespace Unparse

/-- What is read between two brackets: expressions, and the words and signs around them. -/
inductive Item where
  | expr (e : Node .expr)
  | mark (s : String)

/-- What a bracket was opened for. -/
inductive Opener where
  | group
  | list
  | call (func : Node .expr)
  | index (value : Node .expr)

/-- What was read since the innermost open bracket, and before it since the outer ones. The
last item comes first. -/
structure Reader where
  items : List Item
  outer : List (Opener × List Item)

/-- An expression with the marks before it. -/
abbrev Chunk : Type :=
  List String × Node .expr

/-- The words or signs that an operator is written with. -/
def Kind.marks (k : Kind) : List String :=
  if k.token.toList.any Char.isAlpha then (Text.splitAt ' ' k.token.toList).map String.ofList
  else k.token.toList.map String.singleton

namespace Reader

def keywords : List String :=
  ["False", "None", "True", "and", "as", "assert", "async", "await", "break", "class", "continue",
    "def", "del", "elif", "else", "except", "finally", "for", "from", "global", "if", "import",
    "in", "is", "lambda", "nonlocal", "not", "or", "pass", "raise", "return", "try", "while",
    "with", "yield"]

def isWordStart (c : Char) : Bool :=
  c.isAlpha || c == '_'

def isWordChar (c : Char) : Bool :=
  c.isAlphanum || c == '_'

/-- The expressions, each with the marks before it, and the marks after the last one. -/
def chunks (before : List String) : List Item → List Chunk × List String
  | [] => ([], before)
  | .mark m :: more => chunks (before ++ [m]) more
  | .expr e :: more => ((before, e) :: (chunks [] more).1, (chunks [] more).2)

/-- The operator of the family that the marks spell. -/
def operator? (f : Family) (marks : List String) : Option (Node f) :=
  ((Kind.inPlace f).find? (·.marks == marks)).bind (Node.bare? f)

/-- Two or more operands, with the marks before all but the first. -/
def operation (left : Node .expr) (marks : List String) (right : Node .expr)
    (more : List Chunk) : Option (Node .expr) :=
  if marks = [":", "="] then some (.of .namedExpr (left, right, ()))
  else if marks = [","] then some (Expr.tuple (left :: right :: more.map Prod.snd))
  else if marks = ["if"] then
    match more with
    | [(_, orelse)] => some (.of .ifExp (right, left, orelse, ()))
    | _ => none
  else
    match operator? .operator marks with
    | some op => some (Expr.binOp left op right)
    | none =>
      match operator? .boolOp marks with
      | some op => some (Expr.boolOp op (left :: right :: more.map Prod.snd))
      | none =>
        (((marks, right) :: more).mapM fun c => operator? .cmpOp c.1).map fun ops =>
          .of .compare (left, ops, right :: more.map Prod.snd, ())

/-- What stands in parentheses of its own: an operation, a tuple or a number. -/
def grouped : List Chunk → List String → Option (Node .expr)
  | [], _ => some (Expr.tuple [])
  | [([], e)], [] => some e
  | [([], e)], _ :: _ => some (Expr.tuple [e])
  | [(m :: marks, e)], _ => (operator? .unaryOp (m :: marks)).map fun op => Expr.unaryOp op e
  | (_, left) :: (marks, right) :: more, _ => operation left marks right more

/-- A subscript with a comma is a tuple. -/
def indexed : List Chunk → List String → Node .expr
  | [(_, e)], [] => e
  | cs, _ => Expr.tuple (cs.map Prod.snd)

end Reader

namespace Opener

def opening : Opener → Char
  | group | call _ => '('
  | list | index _ => '['

def closing : Opener → Char
  | group | call _ => ')'
  | list | index _ => ']'

def close : Opener → List Chunk → List String → Option (Node .expr)
  | group, cs, last => Reader.grouped cs last
  | list, cs, _ => some (Expr.list (cs.map Prod.snd))
  | call func, cs, _ => some (Expr.call func (cs.map Prod.snd))
  | index value, cs, last => some (Expr.subscript value (Reader.indexed cs last))

end Opener

namespace Reader

def push (r : Reader) (i : Item) : Reader :=
  { r with items := i :: r.items }

/-- A bracket right after an expression belongs to it. -/
def enter (r : Reader) (alone : Opener) (applied : Node .expr → Opener) : Reader :=
  match r.items with
  | .expr e :: more => ⟨[], (applied e, more) :: r.outer⟩
  | items => ⟨[], (alone, items) :: r.outer⟩

def leave (r : Reader) (c : Char) : Option Reader :=
  match r.outer with
  | [] => none
  | (opener, items) :: outer =>
    if opener.closing = c then
      let (cs, last) := chunks [] r.items.reverse
      (opener.close cs last).map fun e => ⟨.expr e :: items, outer⟩
    else none

def sign (r : Reader) (c : Char) : Option Reader :=
  if c = '(' then some (r.enter .group .call)
  else if c = '[' then some (r.enter .list .index)
  else if c = ')' ∨ c = ']' then r.leave c
  else some (r.push (.mark (String.singleton c)))

/-- A word after a point is an attribute of what stands before the point. -/
def word (r : Reader) (w : String) : Reader :=
  if w ∈ keywords then r.push (.mark w)
  else
    match r.items with
    | .mark "." :: .expr e :: more => { r with items := .expr (Expr.attributeOf e w) :: more }
    | _ => r.push (.expr (Expr.name w))

def number (r : Reader) (digits : List Char) : Reader :=
  r.push (.expr (Expr.int (Nat.ofDigitChars 10 digits 0)))

def read (r : Reader) (text : List Char) : Option Reader :=
  match text with
  | [] => some r
  | c :: cs =>
    if c = ' ' then r.read cs
    else if isWordStart c then
      (r.word (String.ofList (c :: cs.takeWhile isWordChar))).read (cs.dropWhile isWordChar)
    else if c.isDigit then
      (r.number (c :: cs.takeWhile Char.isDigit)).read (cs.dropWhile Char.isDigit)
    else if c = Literal.singleQuote ∨ c = Literal.doubleQuote then
      match _hread : Literal.Lexicon.string.body? [c] cs with
      | none => none
      | some (value, rest) => (r.push (.expr (Expr.str (String.ofList value)))).read rest
    else
      match r.sign c with
      | none => none
      | some r => r.read cs
termination_by text.length
decreasing_by
  · simp
  · exact Nat.lt_succ_of_le (List.dropWhile_sublist _).length_le
  · exact Nat.lt_succ_of_le (List.dropWhile_sublist _).length_le
  · exact Nat.lt_succ_of_lt 
      (Literal.Lexicon.length_lt_of_body? (List.cons_ne_nil c []) (by assumption))
  · simp

end Reader

end Unparse
