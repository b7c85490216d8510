import Unparse.Proofs.Literals
import Unparse.Proofs.Reader.Reader

/-! A reader for f-strings. It knows fields of names only, takes one part at a time and keeps the
fields whose format specs are open. Outside of all specs two equal braces stand for one; inside of
them a brace always opens or closes a field. -/
namespace Unparse

open Literal Scanner

/-- What a field shows. -/
structure Shown where
  name : String
  conversion : Option Conversion
deriving DecidableEq, Repr

/-- A part of an f-string: a text, or a field without or with a format spec. -/
inductive Part where
  | text (s : String)
  | field (shown : Shown)
  | formatted (shown : Shown) (format : List Part)

def isBrace (c : Char) : Bool :=
  c == '\x7b' || c == '\x7d'

theorem isBrace_iff {c : Char} : isBrace c = true ↔ c = '\x7b' ∨ c = '\x7d' := by
  simp [isBrace]

namespace Part

/-- Adds a part to others, of which the last one comes first. Texts that meet become one, and an
empty text adds nothing. -/
def add : List Part → Part → List Part
  | .text s :: done, .text t => .text (s ++ t) :: done
  | done, .text t => if t = "" then done else .text t :: done
  | done, p => p :: done

mutual

/-- The part with a settled format spec. -/
def settled : Part → Part
  | .formatted shown format => .formatted shown (gather [] format).reverse
  | p => p

/-- Settles the parts and adds them one after the other. -/
def gather : List Part → List Part → List Part
  | done, [] => done
  | done, p :: more => gather (add done p.settled) more

end

/-- The parts with adjacent texts joined and empty ones left out, also in the format specs. -/
def settle (parts : List Part) : List Part :=
  (gather [] parts).reverse

theorem add_empty (done : List Part) : add done (.text "") = done := by
  cases done with
  | nil => simp [add]
  | cons p done => cases p <;> simp [add]

theorem add_append (done : List Part) (s t : String) :
    add (add done (.text s)) (.text t) = add done (.text (s ++ t)) := by
  by_cases hs : s = ""
  · rw [hs, add_empty, String.empty_append]
  · have hst : s ++ t ≠ "" := fun h => hs (String.append_eq_empty_iff.mp h).1
    cases done with
    | nil => simp [add, hs]
    | cons p done => cases p <;> simp [add, hs, String.append_assoc]

end Part

/-- The characters that a name may begin with; those beyond ASCII all count as letters. -/
def isNameStart (c : Char) : Bool :=
  Reader.isWordStart c || decide (0x80 ≤ c.toNat)

def isNameChar (c : Char) : Bool :=
  Reader.isWordChar c || decide (0x80 ≤ c.toNat)

def isName : List Char → Bool
  | [] => false
  | c :: cs => isNameStart c && cs.all isNameChar

namespace Shown

def conversion? : List Char → Option (Option Conversion × List Char)
  | '!' :: c :: cs =>
    (Conversion.all.find? fun x => x.text.toList == [c]).map fun x => (some x, cs)
  | cs => some (none, cs)

/-- Reads the name and the conversion of a field. -/
def read? (cs : List Char) : Option (Shown × List Char) :=
  let name := cs.takeWhile isNameChar
  if isName name then
    (conversion? (cs.dropWhile isNameChar)).map fun (conversion, rest) =>
      (⟨String.ofList name, conversion⟩, rest)
  else none

theorem length_le_of_conversion? {cs rest : List Char} {conversion : Option Conversion}
    (h : conversion? cs = some (conversion, rest)) : rest.length ≤ cs.length := by
  unfold conversion? at h
  split at h
  next c cs =>
    obtain ⟨x, -, hx⟩ := Option.map_eq_some_iff.mp h
    rw [← (Prod.mk.inj hx).2, List.length_cons, List.length_cons]
    omega
  next => exact Nat.le_of_eq (congrArg List.length (Prod.mk.inj (Option.some.inj h)).2.symm)

theorem length_le_of_read? {cs rest : List Char} {shown : Shown}
    (h : read? cs = some (shown, rest)) : rest.length ≤ cs.length := by
  unfold read? at h
  dsimp only at h
  split_ifs at h
  obtain ⟨⟨conversion, more⟩, hmore, hrest⟩ := Option.map_eq_some_iff.mp h
  calc rest.length = more.length := by rw [← (Prod.mk.inj hrest).2]
    _ ≤ (cs.dropWhile isNameChar).length := length_le_of_conversion? hmore
    _ ≤ cs.length := (List.dropWhile_suffix isNameChar).length_le

end Shown

/-- The parts that were read since the innermost open format spec, and before it since the outer
ones, with the fields of these specs. The last part comes first. -/
structure PartReader where
  done : List Part
  outer : List (Shown × List Part)

namespace PartReader

def add (r : PartReader) (p : Part) : PartReader :=
  { r with done := Part.add r.done p }

/-- The format spec of a field begins. -/
def enter (r : PartReader) (shown : Shown) : PartReader :=
  ⟨[], (shown, r.done) :: r.outer⟩

/-- The innermost format spec ends. -/
def leave? (r : PartReader) : Option PartReader :=
  match r.outer with
  | [] => none
  | (shown, done) :: outer => some (add ⟨done, outer⟩ (.formatted shown r.done.reverse))

/-- After its name and conversion a field ends, or its format spec begins. -/
def show? (r : PartReader) (shown : Shown) (c : Char) : Option PartReader :=
  if c = '\x7d' then some (r.add (.field shown))
  else if c = ':' then some (r.enter shown)
  else none

def field? (r : PartReader) (cs : List Char) : Option (PartReader × List Char) :=
  match Shown.read? cs with
  | some (shown, c :: rest) => (r.show? shown c).map fun r' => (r', rest)
  | _ => none

/-- Outside of format specs a brace is written twice. -/
def isDoubled (r : PartReader) (c : Char) (cs : List Char) : Bool :=
  isBrace c && r.outer.isEmpty && cs.head? == some c

/-- Reads a character of a text, or what begins or ends a field. -/
def step? (r : PartReader) : List Char → Option (PartReader × List Char)
  | [] => none
  | c :: cs =>
    if r.isDoubled c cs then some (r.add (.text (String.singleton c)), cs.tail)
    else if c = '\x7b' then r.field? cs
    else if c = '\x7d' then r.leave?.map fun r' => (r', cs)
    else (Lexicon.string.char? (c :: cs)).map fun (x, rest) =>
      (r.add (.text (String.singleton x)), rest)

variable {r r' r'' : PartReader} {quote cs rest : List Char}

theorem length_lt_of_field? (h : r.field? cs = some (r', rest)) : rest.length < cs.length := by
  unfold field? at h
  split at h
  next shown c more hread =>
    obtain ⟨_, -, hrest⟩ := Option.map_eq_some_iff.mp h
    rw [← (Prod.mk.inj hrest).2]
    exact Shown.length_le_of_read? hread
  next => cases h

theorem length_lt_of_step? (h : r.step? cs = some (r', rest)) : rest.length < cs.length := by
  cases cs with
  | nil => cases h
  | cons c cs =>
    rw [step?] at h
    split_ifs at h with hdoubled hopens hcloses
    · rw [← (Prod.mk.inj (Option.some.inj h)).2, List.length_tail, List.length_cons]
      omega
    · exact Nat.lt_succ_of_lt (length_lt_of_field? h)
    · obtain ⟨_, -, hrest⟩ := Option.map_eq_some_iff.mp h
      rw [← (Prod.mk.inj hrest).2, List.length_cons]
      exact Nat.lt_succ_self _
    · obtain ⟨⟨x, more⟩, hchar, hrest⟩ := Option.map_eq_some_iff.mp h
      rw [← (Prod.mk.inj hrest).2]
      exact Lexicon.length_lt_of_char? hchar

/-- Reads up to the closing quote, where no format spec may be open: the parts, and what follows
the quote. -/
def run? (quote : List Char) (r : PartReader) (cs : List Char) :
    Option (List Part × List Char) :=
  if quote.isPrefixOf cs then
    if r.outer.isEmpty then some (r.done.reverse, cs.drop quote.length) else none
  else
    match _h : r.step? cs with
    | none => none
    | some (r', rest) => run? quote r' rest
termination_by cs.length
decreasing_by exact length_lt_of_step? (by assumption)

/-- Reads an f-string in short quotes: its parts, and what follows it. -/
def fString? : List Char → Option (List Part × List Char)
  | 'f' :: cs => (Lexicon.string.opened? cs).bind fun opened => run? opened.1 ⟨[], []⟩ opened.2
  | _ => none

theorem run?_closing (quote : List Char) (done : List Part) (rest : List Char) :
    run? quote ⟨done, []⟩ (quote ++ rest) = some (done.reverse, rest) := by
  have hstarts : quote.isPrefixOf (quote ++ rest) = true :=
    List.isPrefixOf_iff_prefix.mpr (List.prefix_append quote rest)
  rw [run?, if_pos hstarts, List.isEmpty_nil, if_pos rfl, List.drop_left]

/-- Whatever follows the characters, they take the reader from one state to another. -/
def Takes (quote : List Char) (r : PartReader) (cs : List Char) (r' : PartReader) : Prop :=
  ∀ rest, run? quote r (cs ++ rest) = run? quote r' rest

namespace Takes

theorem nil : Takes quote r [] r :=
  fun _ => rfl

theorem append {as bs : List Char} (ha : Takes quote r as r') (hb : Takes quote r' bs r'') :
    Takes quote r (as ++ bs) r'' := by
  intro rest
  rw [List.append_assoc, ha, hb]

theorem step (hquote : ∀ rest, ¬ quote <+: cs ++ rest)
    (h : ∀ rest, r.step? (cs ++ rest) = some (r', rest)) : Takes quote r cs r' := by
  intro rest
  rw [run?, if_neg fun hstarts => hquote rest (List.isPrefixOf_iff_prefix.mp hstarts)]
  split
  next hnone =>
    rw [h rest] at hnone
    cases hnone
  next s more hsome =>
    rw [h rest] at hsome
    simp only [Option.some.injEq, Prod.mk.injEq] at hsome
    rw [hsome.1, hsome.2]

end Takes

end PartReader

end Unparse
