import Unparse.Proofs.Json.Numeral
import Unparse.Tree.Decode

/-! The documents of values that are not nodes. Each is read back as the value it was written
for, integers of any size among them. -/
namespace Unparse

namespace Text

theorem isBlank_of_isDigit {c : Char} (h : c.isDigit = true) : isBlank c = false :=
  of_isDigit (P := fun c => isBlank c = false) (by decide) h

theorem dropWhile_blank {cs : List Char} (h : ∀ c ∈ cs.head?, isBlank c = false) :
    cs.dropWhile isBlank = cs := by
  cases cs with
  | nil => rfl
  | cons c cs => simp [h c rfl]

/-- A text without blanks at its ends is left as it is. -/
theorem trimChars_of_ends {cs : List Char} (hhead : ∀ c ∈ cs.head?, isBlank c = false)
    (hlast : ∀ c ∈ cs.getLast?, isBlank c = false) : trimChars cs = cs := by
  have hback : ∀ c ∈ cs.reverse.head?, isBlank c = false := by
    rwa [List.head?_reverse]
  rw [trimChars, dropWhile_blank hhead, dropWhile_blank hback, List.reverse_reverse]

theorem trimChars_of_not_blank {cs : List Char} (h : ∀ c ∈ cs, isBlank c = false) :
    trimChars cs = cs :=
  trimChars_of_ends (fun c hc => h c (List.mem_of_mem_head? hc))
    fun c hc => h c (List.mem_of_mem_getLast? hc)

end Text

namespace Decode

open Json.Numeral (signed)

theorem trimChars_signedDecimal (i : Int) :
    Text.trimChars (Text.signedDecimal i).toList = (Text.signedDecimal i).toList := by
  apply Text.trimChars_of_not_blank
  have hdigits : ∀ c ∈ Nat.toDigits 10 i.natAbs, Text.isBlank c = false :=
    fun c hc => Text.isBlank_of_isDigit (Text.isDigit_of_mem_toDigits hc)
  rw [Json.toList_signedDecimal]
  unfold signed
  split
  · intro c hc
    rcases List.mem_cons.mp hc with rfl | hc
    · decide
    · exact hdigits c hc
  · exact hdigits

theorem integerText?_signedDecimal (i : Int) : integerText? (Text.signedDecimal i) = some i := by
  unfold integerText?
  rw [trimChars_signedDecimal]
  cases i with
  | ofNat n =>
    have hdigits := Text.digits?_toDigits n
    simp only [Text.signedDecimal, Text.decimal, String.toList_ofList]
    split
    next digits heq =>
      have hminus : '-' ∈ Nat.toDigits 10 n := by simp [heq]
      exact absurd (Text.isDigit_of_mem_toDigits hminus) (by decide)
    next => rw [hdigits]; rfl
  | negSucc n =>
    have htext : (Text.signedDecimal (.negSucc n)).toList = '-' :: Nat.toDigits 10 (n + 1) := by
      simp [Text.signedDecimal, Text.decimal]
    rw [htext]
    split
    next digits heq =>
      rw [← (List.cons.inj heq).2, Text.digits?_toDigits]
      rfl
    next hother => exact absurd rfl (hother _)

theorem integer?_integer (i : Int) : integer? (Encode.integer i) = some i := by
  unfold Encode.integer
  split
  · rfl
  · exact integerText?_signedDecimal i

theorem natBelow?_int {bound n : Nat} (h : n < bound) : natBelow? bound (.int n) = some n := by
  change (if n < bound then some n else none) = some n
  rw [if_pos h]

theorem word?_toNat (n : UInt32) : word? (.int n.toNat) = some n := by
  rw [word?, natBelow?_int n.toNat_lt_size, Option.map_some, UInt32.ofNat_toNat]

theorem byte?_byte (b : UInt8) : byte? (Encode.byte b) = some b := by
  rw [byte?, Encode.byte, natBelow?_int b.toNat_lt_size, Option.map_some, UInt8.ofNat_toNat]

theorem mapM_byte? (bs : List UInt8) : (bs.map Encode.byte).mapM byte? = some bs := by
  induction bs with
  | nil => rfl
  | cons b bs ih => simp [byte?_byte, ih]

theorem number?_number (n : Number) : number? (Encode.number n) = some n := by
  cases n with
  | int i =>
    unfold number?
    rw [Encode.number, integer?_integer]
  | float x => rfl
  | complex real imag => rfl

/-- A sort with a content is not taken for a bare name. -/
theorem constant?_content (mode : Mode) {sort : String} (hsort : bareConstant? sort = none)
    (content : Json) : constant? mode (.obj [(sort, content)]) = constantOf? sort content := by
  have hbare : (bareName? mode (.obj [(sort, content)])).bind bareConstant? = none := by
    cases hname : bareName? mode (.obj [(sort, content)]) with
    | none => rfl
    | some name =>
      have hsame : name = sort := by
        unfold bareName? at hname
        split at hname <;> simp_all
      rw [hsame]
      exact hsort
  unfold constant?
  rw [hbare]

theorem constant?_constant (mode : Mode) (c : Constant) :
    constant? mode (Encode.constant c) = some c := by
  cases c with
  | none => rfl
  | ellipsis => rfl
  | bool b => rfl
  | int i =>
    rw [Encode.constant, constant?_content mode rfl]
    change (integer? (Encode.integer i)).map Constant.int = _
    rw [integer?_integer]
    rfl
  | float x => rfl
  | complex real imag => rfl
  | str s => rfl
  | bytes bs =>
    rw [Encode.constant, constant?_content mode rfl]
    change ((bs.map Encode.byte).mapM byte?).map Constant.bytes = _
    rw [mapM_byte?]
    rfl

/-- Every value is read back from its document. -/
theorem scalar?_scalar (mode : Mode) (a : Scalar) (v : a.Carrier) :
    scalar? mode a (Encode.scalar a v) = some v := by
  cases a with
  | text => rfl
  | flag b => rfl
  | level => exact word?_toNat v
  | byte => exact byte?_byte v
  | number => exact number?_number v
  | constant => exact constant?_constant mode v
  | singleton => cases v <;> rfl
  | conversion => cases v <;> rfl

end Decode

end Unparse
