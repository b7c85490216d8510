import Unparse.Text

/-! Language versions and dialects. A dialect is either one version or the
permissive one, which has every node kind there ever was. -/
namespace Unparse

structure Version where
  major : Nat
  minor : Nat
deriving DecidableEq, Repr

namespace Version

/-- Versions are ordered by major number first. -/
instance : LE Version where
  le a b := a.major < b.major ∨ a.major = b.major ∧ a.minor ≤ b.minor

instance : LT Version where
  lt a b := a.major < b.major ∨ a.major = b.major ∧ a.minor < b.minor

instance (a b : Version) : Decidable (a ≤ b) :=
  inferInstanceAs (Decidable (_ ∨ _))

instance (a b : Version) : Decidable (a < b) :=
  inferInstanceAs (Decidable (_ ∨ _))

def text (v : Version) : String :=
  Text.decimal v.major ++ "." ++ Text.decimal v.minor

end Version

/-- The versions from `since` on, up to and without `until?`. -/
structure Availability where
  since : Version
  until? : Option Version := none
deriving DecidableEq, Repr

def Availability.covers (a : Availability) (v : Version) : Bool :=
  a.since ≤ v && a.until?.all (v < ·)

inductive Dialect where
  | permissive
  | version (v : Version)
deriving DecidableEq, Repr

/-- A text that names no dialect. -/
structure DialectError where
  text : String
deriving DecidableEq, Repr

def DialectError.message (e : DialectError) : String :=
  "invalid Python version '" ++ e.text ++ "', expected 'permissive' or '<major>.<minor>'"

namespace Dialect

def text : Dialect → String
  | permissive => "permissive"
  | version v => v.text

def version? : Dialect → Option Version
  | permissive => none
  | version v => some v

def covers (a : Availability) : Dialect → Bool
  | permissive => true
  | version v => a.covers v

/-- The version from which a replacement field of an f-string may hold a backslash. -/
def backslashSince : Version := ⟨3, 12⟩

def allowsBackslash : Dialect → Bool
  | permissive => true
  | version v => backslashSince ≤ v

def majors : List Nat := [2, 3]

/-- The numbers of a version have eight bits. -/
def numberBound : Nat := 256

/-- The first period divides major from minor number. -/
def version?OfChars (cs : List Char) : Option Version :=
  match cs.dropWhile (· != '.') with
  | [] => none
  | _ :: after => do
    let major ← Text.unsigned? numberBound (cs.takeWhile (· != '.'))
    let minor ← Text.unsigned? numberBound after
    if major ∈ majors then some ⟨major, minor⟩ else none

/-- Blanks around the text do not count; `permissive` may be written in any case. -/
def ofText? (s : String) : Option Dialect :=
  let cs := Text.trimChars s.toList
  if cs.map Char.toLower = "permissive".toList then some permissive
  else (version?OfChars cs).map version

def ofText (s : String) : Except DialectError Dialect :=
  match ofText? s with
  | some d => .ok d
  | none => .error ⟨s⟩

/-- The dialect that an environment setting names; a setting that names none counts as unset. -/
def ofSetting (setting : Option String) : Dialect :=
  (setting.bind ofText?).getD permissive

end Dialect

end Unparse
