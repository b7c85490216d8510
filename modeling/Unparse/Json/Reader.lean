import Unparse.Json

/-! Reading JSON text. Two passes over a list, each a step function: characters to
tokens, and tokens to a document on a stack of open containers. -/
namespace Unparse.Json

/-- The parts of a number token. -/
structure Numeral where
  negative : Bool
  whole : List Char
  fraction : List Char
  exponent : Int
  /-- Whether the token has neither fraction nor exponent. -/
  integral : Bool
deriving DecidableEq, Repr

namespace Numeral

def isWhole (digits : List Char) : Bool :=
  !digits.isEmpty && (digits == ['0'] || digits.head? != some '0')

def exponent? : List Char → Option Int
  | '+' :: digits => (Text.digits? digits).map Int.ofNat
  | '-' :: digits => (Text.digits? digits).map fun n => -(n : Int)
  | digits => (Text.digits? digits).map Int.ofNat

def isMark (c : Char) : Bool :=
  c == 'e' || c == 'E'

/-- The sign of a token, and what follows it. -/
def sign : List Char → Bool × List Char
  | '-' :: unsigned => (true, unsigned)
  | unsigned => (false, unsigned)

/-- The digits after a point, if there is one, and what follows them. -/
def fraction? : List Char → Option (List Char × List Char)
  | '.' :: more =>
    let digits := more.takeWhile Char.isDigit
    if digits.isEmpty then none else some (digits, more.dropWhile Char.isDigit)
  | rest => some ([], rest)

/-- The exponent that ends a token; no exponent stands for zero. -/
def tail? : List Char → Option Int
  | [] => some 0
  | mark :: more => if isMark mark then exponent? more else none

/-- An optional minus sign, digits without a needless zero in front, an optional fraction, an
optional exponent. -/
def ofChars? (token : List Char) : Option Numeral :=
  let (negative, unsigned) := sign token
  let whole := unsigned.takeWhile Char.isDigit
  let rest := unsigned.dropWhile Char.isDigit
  if isWhole whole then
    (fraction? rest).bind fun (fraction, tail) =>
      (tail? tail).map fun exponent => ⟨negative, whole, fraction, exponent, rest.isEmpty⟩
  else none

def magnitude (n : Numeral) : Nat :=
  Nat.ofDigitChars 10 (n.whole ++ n.fraction) 0

def float? (n : Numeral) : Option Json :=
  (Binary64.ofDecimal? n.negative n.magnitude (n.exponent - n.fraction.length)).map float

/-- An integer of 64 bits is kept as such, except that a negative zero is a double; a number too
large for a double is refused. -/
def value? (n : Numeral) : Option Json :=
  let i : Int := if n.negative then -(n.magnitude : Int) else n.magnitude
  if n.integral && isWordSized i && !(n.negative && i == 0) then some (int i)
  else n.float?

end Numeral

def number? (token : List Char) : Option Json :=
  (Numeral.ofChars? token).bind Numeral.value?

inductive Token where
  | openObj | closeObj | openArr | closeArr | comma | colon
  | text (s : String)
  | literal (value : Json)

def word? (cs : List Char) : Option Token :=
  if cs = "null".toList then some (.literal null)
  else if cs = "true".toList then some (.literal (bool true))
  else if cs = "false".toList then some (.literal (bool false))
  else (number? cs).map .literal

def punctuation? (c : Char) : Option Token :=
  if c = '\x7b' then some .openObj
  else if c = '\x7d' then some .closeObj
  else if c = '[' then some .openArr
  else if c = ']' then some .closeArr
  else if c = ',' then some .comma
  else if c = ':' then some .colon
  else none

def isSpace (c : Char) : Bool :=
  c == ' ' || c == '\n' || c == '\t' || c == '\r'

/-- The character that a short escape denotes. -/
def shortEscape? (c : Char) : Option Char :=
  if c = '\x22' ∨ c = '\\' ∨ c = '/' then some c
  else if c = 'b' then some '\x08'
  else if c = 'f' then some '\x0c'
  else if c = 'n' then some '\n'
  else if c = 'r' then some '\r'
  else if c = 't' then some '\t'
  else none

/-- Where in a token the lexer stands; the characters read so far are in reverse. -/
inductive Scan where
  | between
  | word (read : List Char)
  | text (read : List Char)
  | escape (read : List Char)
  | code (read : List Char) (digits : List Char) (high : Option Nat)
  | pair (read : List Char) (high : Nat)
  | pairMark (read : List Char) (high : Nat)

structure Lexer where
  tokens : List Token
  scan : Scan

namespace Lexer

def start : Lexer := ⟨[], .between⟩

/-- A token that begins at `c`. -/
def begin (tokens : List Token) (c : Char) : Lexer :=
  if c = '\x22' then ⟨tokens, .text []⟩
  else if isSpace c then ⟨tokens, .between⟩
  else match punctuation? c with
    | some token => ⟨token :: tokens, .between⟩
    | none => ⟨tokens, .word [c]⟩

def isDelimiter (c : Char) : Bool :=
  c == '\x22' || isSpace c || (punctuation? c).isSome

/-- A code unit written in four digits: surrogates must come as a pair, high one first. -/
def codeUnit (tokens : List Token) (read : List Char) (unit : Nat) : Option Nat → Option Lexer
  | none =>
    if 0xd800 ≤ unit ∧ unit < 0xdc00 then some ⟨tokens, .pair read unit⟩
    else if 0xdc00 ≤ unit ∧ unit < 0xe000 then none
    else some ⟨tokens, .text (Char.ofNat unit :: read)⟩
  | some high =>
    if 0xdc00 ≤ unit ∧ unit < 0xe000 then
      let point := 0x10000 + (high - 0xd800) * 0x400 + (unit - 0xdc00)
      some ⟨tokens, .text (Char.ofNat point :: read)⟩
    else none

def step (l : Lexer) (c : Char) : Option Lexer :=
  match l.scan with
  | .between => some (begin l.tokens c)
  | .word read =>
    if isDelimiter c then
      (word? read.reverse).map fun token => begin (token :: l.tokens) c
    else some ⟨l.tokens, .word (c :: read)⟩
  | .text read =>
    if c = '\x22' then some ⟨.text (String.ofList read.reverse) :: l.tokens, .between⟩
    else if c = '\\' then some ⟨l.tokens, .escape read⟩
    else if c.toNat < 0x20 then none
    else some ⟨l.tokens, .text (c :: read)⟩
  | .escape read =>
    if c = 'u' then some ⟨l.tokens, .code read [] none⟩
    else (shortEscape? c).map fun e => ⟨l.tokens, .text (e :: read)⟩
  | .code read digits high =>
    let more := digits ++ [c]
    if more.length < 4 then some ⟨l.tokens, .code read more high⟩
    else (Text.hexNumber? more).bind fun unit => codeUnit l.tokens read unit high
  | .pair read high => if c = '\\' then some ⟨l.tokens, .pairMark read high⟩ else none
  | .pairMark read high => if c = 'u' then some ⟨l.tokens, .code read [] (some high)⟩ else none

def finish (l : Lexer) : Option (List Token) :=
  match l.scan with
  | .between => some l.tokens.reverse
  | .word read => (word? read.reverse).map fun token => (token :: l.tokens).reverse
  | _ => none

end Lexer

def tokens? (cs : List Char) : Option (List Token) :=
  (cs.foldlM Lexer.step Lexer.start).bind Lexer.finish

/-- An open container; what it holds so far is in reverse. -/
inductive Frame where
  | items (read : List Json)
  | members (read : List (String × Json))
  | member (read : List (String × Json)) (name : String)

/-- What may come next. -/
inductive Expectation where
  | value
  | valueOrClose
  | nameOrClose
  | name
  | colon
  | separator
  | ending (document : Json)

structure Parser where
  stack : List Frame
  expects : Expectation

namespace Parser

def start : Parser := ⟨[], .value⟩

/-- A value has ended. -/
def close (v : Json) : List Frame → Option Parser
  | [] => some ⟨[], .ending v⟩
  | .items read :: outer => some ⟨.items (v :: read) :: outer, .separator⟩
  | .member read name :: outer => some ⟨.members ((name, v) :: read) :: outer, .separator⟩
  | .members _ :: _ => none

def value (stack : List Frame) : Token → Option Parser
  | .text s => close (str s) stack
  | .literal v => close v stack
  | .openArr => some ⟨.items [] :: stack, .valueOrClose⟩
  | .openObj => some ⟨.members [] :: stack, .nameOrClose⟩
  | _ => none

def name (stack : List Frame) : Token → Option Parser
  | .text s =>
    match stack with
    | .members read :: outer => some ⟨.member read s :: outer, .colon⟩
    | _ => none
  | _ => none

def step (p : Parser) (token : Token) : Option Parser :=
  match p.expects, token, p.stack with
  | .valueOrClose, .closeArr, .items read :: outer => close (arr read.reverse) outer
  | .valueOrClose, _, _ => value p.stack token
  | .value, _, _ => value p.stack token
  | .nameOrClose, .closeObj, .members read :: outer => close (obj read.reverse) outer
  | .nameOrClose, _, _ => name p.stack token
  | .name, _, _ => name p.stack token
  | .colon, .colon, _ => some ⟨p.stack, .value⟩
  | .separator, .comma, .items _ :: _ => some ⟨p.stack, .value⟩
  | .separator, .comma, .members _ :: _ => some ⟨p.stack, .name⟩
  | .separator, .closeArr, .items read :: outer => close (arr read.reverse) outer
  | .separator, .closeObj, .members read :: outer => close (obj read.reverse) outer
  | _, _, _ => none

def finish (p : Parser) : Option Json :=
  match p.expects with
  | .ending document => some document
  | _ => none

end Parser

def ofTokens? (tokens : List Token) : Option Json :=
  (tokens.foldlM Parser.step Parser.start).bind Parser.finish

/-- The document that a text holds, if it holds exactly one. -/
def ofText? (s : String) : Option Json :=
  (tokens? s.toList).bind ofTokens?

end Unparse.Json
