import Unparse.Proofs.Integers
import Unparse.Proofs.Text.Grammar

/-! Integers as texts. A document holds an integer beyond 64 bits as a text of digits. Any text of
digits is read as the integer that it denotes, also with blanks around it and zeros in front; the
text that is written has neither. -/
namespace Unparse

namespace Text

open Json.Numeral (signed isWhole)

/-- A run of digits, maybe behind a minus sign, denotes an integer. -/
inductive Signed : List Char → Int → Prop where
  | bare {cs : List Char} {n : Nat} (h : Digits cs n) : Signed cs n
  | minus {cs : List Char} {n : Nat} (h : Digits cs n) : Signed ('-' :: cs) (-n)

/-- The shortest text of an integer: no zero stands in front of other digits, and only negative
integers have a minus sign. -/
def Canonical (cs : List Char) (z : Int) : Prop :=
  ∃ digits, Digits digits z.natAbs ∧ isWhole digits = true ∧ cs = signed (z < 0) digits

theorem canonical_signedDecimal (z : Int) : Canonical (signedDecimal z).toList z :=
  ⟨Nat.toDigits 10 z.natAbs, digits_toDigits _, Json.Numeral.isWhole_toDigits _,
    Json.toList_signedDecimal z⟩

end Text

namespace Decode

open Text (Trimmed Signed)

theorem integerText?_eq_some_iff {s : String} {z : Int} :
    integerText? s = some z ↔ Signed (Text.trimChars s.toList) z := by
  unfold integerText?
  split
  next digits heq =>
    have hread : ((Text.digits? digits).bind fun n => some (n : Int)).map (fun n => -n) = some z ↔
        ∃ n : Nat, Text.Digits digits n ∧ -(n : Int) = z := by
      simp [Option.bind_eq_some_iff, Text.digits?_eq_some_iff]
    refine hread.trans ?_
    rw [heq]
    constructor
    · rintro ⟨n, hn, rfl⟩
      exact .minus hn
    · rintro (hbare | hminus)
      · exact absurd (hbare.isDigit '-' List.mem_cons_self) (by decide)
      · exact ⟨_, hminus, rfl⟩
  next hother =>
    simp only [Option.map_eq_some_iff, Text.digits?_eq_some_iff]
    constructor
    · rintro ⟨n, hn, rfl⟩
      exact .bare hn
    · generalize Text.trimChars s.toList = cs at hother ⊢
      rintro (hbare | hminus)
      · exact ⟨_, hbare, rfl⟩
      · exact absurd rfl (hother _)

theorem integer?_str_iff {s : String} {z : Int} :
    integer? (.str s) = some z ↔ ∃ core, Trimmed s.toList core ∧ Signed core z := by
  simp only [← Text.trimChars_eq_iff, exists_eq_left']
  exact integerText?_eq_some_iff

end Decode

namespace Encode

/-- Digits and signs need no escapes. -/
theorem writtenText_signedDecimal (z : Int) :
    Json.writtenText (Text.signedDecimal z) = "\"" ++ Text.signedDecimal z ++ "\"" := by
  have hplain {c : Char} (hc : c.isDigit = true) : Json.writtenChar c = [c] :=
    Text.of_isDigit (P := fun c => Json.writtenChar c = [c]) (by decide) hc
  have hchars : ∀ c ∈ (Text.signedDecimal z).toList, Json.writtenChar c = [c] := by
    rw [Json.toList_signedDecimal]
    intro c hc
    rcases Json.mem_signed (fun _ => Text.isDigit_of_mem_toDigits) _ hc with rfl | hc
    · decide
    · exact hplain hc
  have hsame : (Text.signedDecimal z).toList.flatMap Json.writtenChar =
      (Text.signedDecimal z).toList := by
    rw [List.flatMap_congr hchars, List.flatMap_singleton']
  rw [Json.writtenText, hsame, ← String.toList_inj]
  simp

theorem integer_eq (z : Int) :
    integer z = if -2 ^ 63 ≤ z ∧ z ≤ 2 ^ 64 - 1 then .int z else .str (Text.signedDecimal z) := by
  have hsized : Json.isWordSized z = true ↔ -2 ^ 63 ≤ z ∧ z ≤ 2 ^ 64 - 1 := by
    simp only [Json.isWordSized, Bool.and_eq_true, decide_eq_true_eq]
    omega
  rw [integer]
  exact if_congr hsized rfl rfl

theorem compact_integer (z : Int) :
    (integer z).compact = if -2 ^ 63 ≤ z ∧ z ≤ 2 ^ 64 - 1 then Text.signedDecimal z
      else "\"" ++ Text.signedDecimal z ++ "\"" := by
  rw [integer_eq]
  split
  · rfl
  · exact writtenText_signedDecimal z

end Encode

namespace Expr

open Decode Text

/-- The document of a legacy number, given that of the number. -/
def numDocument (j : Json) : Json :=
  .obj [("kind", .str "Num"), ("n", j)]

/-- The document of a constant, given that of its integer. -/
def constantDocument (j : Json) : Json :=
  .obj [("kind", .str "Constant"), ("value", .obj [("int", j)])]

theorem ofJson?_numDocument (s : String) :
    Node.ofJson? .expr (numDocument (.str s)) =
      (integer? (.str s)).map fun z => legacyNum (.int z) := by
  have hscalar : reader (.str s) .buffered (.scalar .number) =
      (integer? (.str s)).map fun z => .scalar (.int z) := by
    rw [reader_scalar, scalar?]
    unfold number?
    cases integer? (.str s) <;> rfl
  change ((reader (.str s) .buffered (.scalar .number)).bind fun value =>
    some (Tree.field value Tree.done)).bind _ = _
  rw [hscalar]
  cases integer? (.str s) <;> rfl

theorem ofJson?_constantDocument (s : String) :
    Node.ofJson? .expr (constantDocument (.str s)) = (integer? (.str s)).map int := by
  have hscalar : reader (.obj [("int", .str s)]) .buffered (.scalar .constant) =
      (integer? (.str s)).map fun z => .scalar (.int z) := by
    rw [reader_scalar, scalar?, constant?_content .buffered rfl]
    exact Option.map_map ..
  change ((reader (.obj [("int", .str s)]) .buffered (.scalar .constant)).bind fun value =>
    some (Tree.field value Tree.done)).bind _ = _
  rw [hscalar]
  cases integer? (.str s) <;> rfl

/-- A text is read as an integer exactly if, between its blanks, it is a run of digits or one behind
a minus sign, and then as the integer that this denotes; constants and legacy numbers both read
their texts so. An integer is written as a number token exactly if it fits into 64 bits, and
otherwise as its shortest text in quotes. Either of them reads back. -/
theorem integer_text_exact :
    (∀ (s : String) (z : Int),
      integer? (.str s) = some z ↔ ∃ core, Trimmed s.toList core ∧ Signed core z) ∧
    (∀ s : String,
      Node.ofJson? .expr (constantDocument (.str s)) = (integer? (.str s)).map int ∧
      Node.ofJson? .expr (numDocument (.str s)) =
        (integer? (.str s)).map fun z => legacyNum (.int z)) ∧
    ∀ z : Int,
      ((int z).toJson = constantDocument (Encode.integer z) ∧
        (legacyNum (.int z)).toJson = numDocument (Encode.integer z)) ∧
      (∃ text : String, Canonical text.toList z ∧
        (Encode.integer z = if -2 ^ 63 ≤ z ∧ z ≤ 2 ^ 64 - 1 then .int z else .str text) ∧
        (Encode.integer z).compact =
          if -2 ^ 63 ≤ z ∧ z ≤ 2 ^ 64 - 1 then text else "\"" ++ text ++ "\"") ∧
      (Json.ofText? (Encode.integer z).compact).bind integer? = some z := by
  refine ⟨fun s z => integer?_str_iff, fun s => ?_, fun z => ⟨⟨rfl, rfl⟩, ?_, ?_⟩⟩
  · exact ⟨ofJson?_constantDocument s, ofJson?_numDocument s⟩
  · exact ⟨Text.signedDecimal z, canonical_signedDecimal z, Encode.integer_eq z,
      Encode.compact_integer z⟩
  · rw [Json.ofText?_compact (Encode.isTextual_integer z), Option.bind_some, integer?_integer]

end Expr

end Unparse
