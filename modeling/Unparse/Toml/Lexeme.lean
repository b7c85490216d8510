import Unparse.Binary64.Nearest
import Unparse.Text
import Unparse.Toml

/-! The smallest parts of TOML text: blanks, strings, keys, numbers, dates and times.
A reader returns what it has read and the characters that follow. -/
namespace Unparse.Toml

abbrev Chars : Type :=
  List Char

def isBlank (c : Char) : Bool :=
  c == ' ' || c == '\t'

def skipBlanks (cs : Chars) : Chars :=
  cs.dropWhile isBlank

/-- The characters that may stand in comments and literal strings. -/
def isVisible (c : Char) : Bool :=
  c == '\t' || (0x20 ≤ c.toNat && c.toNat != 0x7f)

/-- The rest of a line: blanks, maybe a comment, and a newline or the end. -/
def endLine? (cs : Chars) : Option Chars :=
  let rest := match skipBlanks cs with
    | '#' :: comment => comment.dropWhile isVisible
    | other => other
  match rest with
  | [] => some []
  | '\n' :: more => some more
  | '\r' :: '\n' :: more => some more
  | _ => none

def closes (quote : Char) (cs : Chars) : Bool :=
  [quote, quote, quote].isPrefixOf cs

/-- The character of a code point written in hexadecimal digits. -/
def point? (digits : Chars) : Option Char :=
  match Text.hexNumber? digits with
  | some n => if n.isValidChar then some (Char.ofNat n) else none
  | none => none

/-- What stands after a backslash. -/
def escape? : Chars → Option (Char × Chars)
  | 'b' :: rest => some ('\x08', rest)
  | 't' :: rest => some ('\t', rest)
  | 'n' :: rest => some ('\n', rest)
  | 'f' :: rest => some ('\x0c', rest)
  | 'r' :: rest => some ('\r', rest)
  | '\x22' :: rest => some ('\x22', rest)
  | '\\' :: rest => some ('\\', rest)
  | 'u' :: rest =>
    if rest.length < 4 then none else (point? (rest.take 4)).map (·, rest.drop 4)
  | 'U' :: rest =>
    if rest.length < 8 then none else (point? (rest.take 8)).map (·, rest.drop 8)
  | _ => none

def skipSpace : Chars → Chars
  | '\n' :: rest => skipSpace rest
  | '\r' :: '\n' :: rest => skipSpace rest
  | c :: rest => if isBlank c then skipSpace rest else c :: rest
  | [] => []

/-- A backslash at the end of a line takes away all blanks and newlines that follow. -/
def continuation? (cs : Chars) : Option Chars :=
  match skipBlanks cs with
  | '\n' :: rest => some (skipSpace rest)
  | '\r' :: '\n' :: rest => some (skipSpace rest)
  | _ => none

/-- The rest of a string on one line; only `escapes` give a backslash a meaning. -/
def shortString (quote : Char) (escapes : Bool) : Nat → Chars → Option (Chars × Chars)
  | 0, _ => none
  | _, [] => none
  | fuel + 1, c :: rest =>
    if c = quote then some ([], rest)
    else if c = '\\' ∧ escapes then do
      let (e, rest) ← escape? rest
      let (s, rest) ← shortString quote escapes fuel rest
      some (e :: s, rest)
    else if isVisible c then do
      let (s, rest) ← shortString quote escapes fuel rest
      some (c :: s, rest)
    else none

/-- The rest of a string of several lines. Up to two quotes may stand right before the three
that end it. -/
def longString (quote : Char) (escapes : Bool) : Nat → Chars → Option (Chars × Chars)
  | 0, _ => none
  | _, [] => none
  | fuel + 1, c :: rest =>
    if closes quote (c :: rest) then
      let after := rest.drop 2
      match after with
      | a :: b :: more =>
        if a = quote ∧ b = quote then some ([quote, quote], more)
        else if a = quote then some ([quote], b :: more)
        else some ([], after)
      | [a] => if a = quote then some ([quote], []) else some ([], [a])
      | [] => some ([], [])
    else if c = '\\' ∧ escapes then
      match continuation? rest with
      | some rest => longString quote escapes fuel rest
      | none => do
        let (e, rest) ← escape? rest
        let (s, rest) ← longString quote escapes fuel rest
        some (e :: s, rest)
    else if c = '\r' then
      match rest with
      | '\n' :: more => do
        let (s, rest) ← longString quote escapes fuel more
        some ('\n' :: s, rest)
      | _ => none
    else if isVisible c || c == '\n' then do
      let (s, rest) ← longString quote escapes fuel rest
      some (c :: s, rest)
    else none

/-- A newline right after the opening quotes does not count. -/
def dropFirstNewline : Chars → Chars
  | '\n' :: rest => rest
  | '\r' :: '\n' :: rest => rest
  | cs => cs

/-- A string in double quotes has escapes, one in single quotes has none. -/
def string? (quote : Char) (cs : Chars) : Option (String × Chars) := do
  let escapes := quote == '\x22'
  let (s, rest) ←
    if closes quote cs then longString quote escapes cs.length (dropFirstNewline (cs.drop 3))
    else shortString quote escapes cs.length (cs.drop 1)
  some (String.ofList s, rest)

def isBare (c : Char) : Bool :=
  c.isAlphanum || c == '-' || c == '_'

def isQuote (c : Char) : Bool :=
  c == '\x22' || c == '\x27'

/-- A key without dots: bare, or a string on one line. -/
def simpleKey? (cs : Chars) : Option (String × Chars) :=
  match cs with
  | [] => none
  | c :: rest =>
    if isQuote c then
      if closes c cs then none
      else (shortString c (c == '\x22') cs.length rest).map fun (s, rest) => (String.ofList s, rest)
    else if isBare c then
      some (String.ofList (cs.takeWhile isBare), cs.dropWhile isBare)
    else none

/-- Keys have at most so many parts, and arrays and inline tables nest so deep. -/
def depthLimit : Nat := 79

/-- A key of at most `room` parts: the path before the last one, and that one. -/
def keyWithin? : Nat → Chars → Option ((List String × String) × Chars)
  | 0, _ => none
  | room + 1, cs => do
    let (first, rest) ← simpleKey? (skipBlanks cs)
    match skipBlanks rest with
    | '.' :: more =>
      let ((path, last), rest) ← keyWithin? room more
      some ((first :: path, last), rest)
    | rest => some (([], first), rest)

def key? (cs : Chars) : Option ((List String × String) × Chars) :=
  keyWithin? depthLimit cs

/-- Digits with underscores, each between two digits. -/
def grouped? (isDigit : Char → Bool) (cs : Chars) : Option Chars :=
  let go := fun (state : Option Bool) (c : Char) =>
    match state with
    | none => none
    | some afterDigit =>
      if isDigit c then some true else if c == '_' && afterDigit then some false else none
  if cs.foldl go (some false) = some true then some (cs.filter (· != '_')) else none

def radix? : Char → Option Nat
  | 'x' => some 16
  | 'o' => some 8
  | 'b' => some 2
  | _ => none

def isRadixDigit (radix : Nat) (c : Char) : Bool :=
  (Text.hexValue? c).any (· < radix)

def radixNumber (radix : Nat) (digits : Chars) : Nat :=
  digits.foldl (fun n c => radix * n + (Text.hexValue? c).getD 0) 0

/-- Integers have 64 bits and a sign. -/
def integerInRange? (i : Int) : Option Toml :=
  if -0x8000000000000000 ≤ i ∧ i < 0x8000000000000000 then some (.integer i) else none

def splitSign : Chars → Bool × Chars
  | '-' :: rest => (true, rest)
  | '+' :: rest => (false, rest)
  | cs => (false, cs)

/-- Decimal digits without a needless zero in front. -/
def decimal? (cs : Chars) : Option Chars := do
  let digits ← grouped? Char.isDigit cs
  if digits.length = 1 ∨ digits.head? ≠ some '0' then some digits else none

def integer? (token : Chars) : Option Toml :=
  match token with
  | '0' :: mark :: digits =>
    match radix? mark with
    | some radix => do
      let digits ← grouped? (isRadixDigit radix) digits
      integerInRange? (radixNumber radix digits)
    | none => none
  | _ => do
    let (negative, unsigned) := splitSign token
    let digits ← decimal? unsigned
    let n : Int := Nat.ofDigitChars 10 digits 0
    integerInRange? (if negative then -n else n)

/-- A number with a fraction or an exponent. It may overflow only below zero. -/
def float? (token : Chars) : Option Toml := do
  let (negative, unsigned) := splitSign token
  if unsigned = "inf".toList ∨ unsigned = "nan".toList then some .float
  else
    let isMark (c : Char) : Bool := c == 'e' || c == 'E'
    let mantissa := unsigned.takeWhile (!isMark ·)
    let whole ← decimal? (mantissa.takeWhile (· != '.'))
    let fraction ← match mantissa.dropWhile (· != '.') with
      | [] => some []
      | _ :: digits => grouped? Char.isDigit digits
    let exponent ← match unsigned.dropWhile (!isMark ·) with
      | [] => if fraction.isEmpty then none else some 0
      | _ :: power => do
        let (negative, digits) := splitSign power
        let digits ← grouped? Char.isDigit digits
        let n : Int := Nat.ofDigitChars 10 digits 0
        some (if negative then -n else n)
    let digits := Nat.ofDigitChars 10 (whole ++ fraction) 0
    let isFinite := (Binary64.ofDecimal? negative digits (exponent - fraction.length)).isSome
    if isFinite || negative then some .float else none

/-- A number of exactly so many digits, within bounds. -/
def bounded? (low high : Nat) (cs : Chars) : Option Nat := do
  let n ← Text.digits? cs
  if low ≤ n ∧ n ≤ high then some n else none

def isLeap (year : Nat) : Bool :=
  year % 4 == 0 && (year % 100 != 0 || year % 400 == 0)

def monthLength (year month : Nat) : Nat :=
  if month = 2 then (if isLeap year then 29 else 28)
  else if month = 4 ∨ month = 6 ∨ month = 9 ∨ month = 11 then 30
  else 31

/-- A date such as `1979-05-27`, and what follows it. -/
def date? (cs : Chars) : Option Chars :=
  match cs with
  | y₁ :: y₂ :: y₃ :: y₄ :: '-' :: m₁ :: m₂ :: '-' :: d₁ :: d₂ :: rest => do
    let year ← Text.digits? [y₁, y₂, y₃, y₄]
    let month ← bounded? 1 12 [m₁, m₂]
    let _ ← bounded? 1 (monthLength year month) [d₁, d₂]
    some rest
  | _ => none

/-- A time such as `07:32:00.5`, and what follows it. -/
def time? (cs : Chars) : Option Chars :=
  match cs with
  | h₁ :: h₂ :: ':' :: m₁ :: m₂ :: ':' :: s₁ :: s₂ :: rest => do
    let _ ← bounded? 0 23 [h₁, h₂]
    let _ ← bounded? 0 59 [m₁, m₂]
    let _ ← bounded? 0 60 [s₁, s₂]
    match rest with
    | '.' :: more =>
      if (more.takeWhile Char.isDigit).isEmpty then none else some (more.dropWhile Char.isDigit)
    | _ => some rest
  | _ => none

/-- The distance from universal time, up to the end. -/
def isOffset (cs : Chars) : Bool :=
  match cs with
  | [] => true
  | ['Z'] => true
  | ['z'] => true
  | sign :: h₁ :: h₂ :: ':' :: [m₁, m₂] =>
    (sign == '+' || sign == '-') && (bounded? 0 23 [h₁, h₂]).isSome
      && (bounded? 0 59 [m₁, m₂]).isSome
  | _ => false

/-- A date, a time, or both. -/
def moment? (token : Chars) : Option Toml :=
  match date? token with
  | some [] => some .moment
  | some (mark :: clock) =>
    if mark = 'T' ∨ mark = 't' ∨ mark = ' ' then do
      let rest ← time? clock
      if isOffset rest then some .moment else none
    else none
  | none =>
    match time? token with
    | some [] => some .moment
    | _ => none

def isWordChar (c : Char) : Bool :=
  c.isAlphanum || c == '-' || c == '_' || c == '+' || c == '.' || c == ':'

/-- A time may follow a date after one blank. -/
def wordLength (cs : Chars) : Nat :=
  let word := cs.takeWhile isWordChar
  match date? word, cs.drop word.length with
  | some [], ' ' :: more =>
    let clock := more.takeWhile isWordChar
    if (time? clock).isSome then word.length + 1 + clock.length else word.length
  | _, _ => word.length

/-- A value that is neither string, array nor table. -/
def word? (token : Chars) : Option Toml :=
  if token = "true".toList then some (.bool true)
  else if token = "false".toList then some (.bool false)
  else (moment? token).or ((integer? token).or (float? token))

end Unparse.Toml
