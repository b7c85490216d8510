import Unparse.Text

/-! String and bytes literals. A short literal stands between two equal quotes, and
whatever could end it or break its line is escaped, one character at a time. -/
namespace Unparse.Literal

def singleQuote : Char := '\x27'

def doubleQuote : Char := '\x22'

/-- The control characters: U+0000 to U+001F and U+007F to U+009F. -/
def isControl (c : Char) : Bool :=
  c.toNat < 0x20 || (0x7f ≤ c.toNat && c.toNat ≤ 0x9f)

/-- The characters of a text that are never written as themselves: control characters and the
two Unicode line ends. -/
def isHidden (c : Char) : Bool :=
  isControl c || c.toNat == 0x2028 || c.toNat == 0x2029

/-- A character by its code point, with the shortest of the three escapes that can hold it. -/
def codeEscape (c : Char) : List Char :=
  if c.toNat ≤ 0xff then '\\' :: 'x' :: Text.hex 2 c.toNat
  else if c.toNat ≤ 0xffff then '\\' :: 'u' :: Text.hex 4 c.toNat
  else '\\' :: 'U' :: Text.hex 8 c.toNat

/-- A character between two `quote`s, where the `hidden` characters are written by code point. -/
def escapeChar (hidden : Char → Bool) (quote c : Char) : List Char :=
  if c = '\\' then ['\\', '\\']
  else if c = '\n' then ['\\', 'n']
  else if c = '\r' then ['\\', 'r']
  else if c = '\t' then ['\\', 't']
  else if c = quote then ['\\', c]
  else if hidden c then codeEscape c
  else [c]

def escape (hidden : Char → Bool) (quote : Char) (cs : List Char) : List Char :=
  cs.flatMap (escapeChar hidden quote)

/-- Single quotes, unless only double quotes save an escape. -/
def quoteFor (cs : List Char) : Char :=
  if singleQuote ∈ cs ∧ doubleQuote ∉ cs then doubleQuote else singleQuote

def quoted (hidden : Char → Bool) (cs : List Char) : List Char :=
  let quote := quoteFor cs
  quote :: (escape hidden quote cs ++ [quote])

def string (s : String) : String :=
  String.ofList (quoted isHidden s.toList)

/-- The printable ASCII characters are the only ones written as themselves in a bytes literal. -/
def isHiddenByte (c : Char) : Bool :=
  c.toNat < 0x20 || 0x7e < c.toNat

def byteChar (b : UInt8) : Char :=
  Char.ofNat b.toNat

def bytes (bs : List UInt8) : String :=
  String.ofList ('b' :: quoted isHiddenByte (bs.map byteChar))

def tripleQuote : List Char :=
  [doubleQuote, doubleQuote, doubleQuote]

/-- Newlines and tabs stand for themselves; a quote is escaped before another one and at the end. -/
def docstringBody : List Char → List Char
  | [] => []
  | c :: cs =>
    let here :=
      if c = '\\' then ['\\', '\\']
      else if c = '\r' then ['\\', 'r']
      else if c = doubleQuote ∧ (cs = [] ∨ cs.head? = some doubleQuote) then ['\\', doubleQuote]
      else if c = '\n' ∨ c = '\t' then [c]
      else if isHidden c then codeEscape c
      else [c]
    here ++ docstringBody cs

def docstring (s : String) : String :=
  String.ofList (tripleQuote ++ docstringBody s.toList ++ tripleQuote)

end Unparse.Literal
