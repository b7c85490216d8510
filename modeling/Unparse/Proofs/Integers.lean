import Unparse.Proofs.RoundTrip

/-! Integer tokens in the text of a number. A constant is read from an integer token only as that
integer. A legacy number beyond 64 bits, or a negated zero, is read as the nearest double. -/
namespace Unparse

namespace Json

open Lexer
open Numeral (signed)

/-- A text with one word in it has the tokens around that word, if it is one. -/
theorem tokens?_word {left word right : String} {ts us : List Token} (hleft : Closed left ts)
    (hright : Closed right us) (hend : isBarrier right = true) (hne : word.toList ≠ [])
    (hword : word.toList.all (!isDelimiter ·) = true) :
    tokens? (left ++ word ++ right).toList = (word? word.toList).map fun t => ts ++ t :: us := by
  have hrest : isDelimited (right.toList ++ []) = true := isDelimited_append hend
  rw [List.append_nil] at hrest
  change run start _ = _
  rw [String.append_assoc, String.toList_append, String.toList_append, start, hleft,
    run_words hne hword hrest]
  cases word? word.toList with
  | none => rfl
  | some t =>
    have hlast := hright (t :: (ts.reverse ++ [])) []
    rw [List.append_nil, List.append_nil] at hlast
    rw [List.append_nil, Option.bind_some, hlast]
    simp [run, finish]

section Tokens

variable {digits : List Char} (hdigits : ∀ c ∈ digits, c.isDigit = true) (negative : Bool)

include hdigits

theorem mem_signed {c : Char} (h : c ∈ signed negative digits) : c = '-' ∨ c.isDigit = true := by
  unfold signed at h
  split at h
  · exact (List.mem_cons.mp h).imp_right (hdigits c)
  · exact Or.inr (hdigits c h)

theorem all_signed : (signed negative digits).all (!isDelimiter ·) = true := by
  rw [List.all_eq_true]
  intro c hc
  rw [Bool.not_eq_true']
  rcases mem_signed hdigits negative hc with rfl | hc
  · decide
  · exact isDelimiter_of_isDigit hc

theorem word?_signed :
    word? (signed negative digits) = (number? (signed negative digits)).map .literal := by
  have hletter (c : Char) (hminus : c ≠ '-') (hc : c.isDigit = false) {cs : List Char}
      (hmem : c ∈ cs) : signed negative digits ≠ cs := by
    rintro rfl
    rcases mem_signed hdigits negative hmem with rfl | hdigit
    · exact hminus rfl
    · exact Bool.false_ne_true (hc.symm.trans hdigit)
  rw [word?, if_neg (hletter 'n' (by decide) rfl (by decide)),
    if_neg (hletter 't' (by decide) rfl (by decide)),
    if_neg (hletter 'f' (by decide) rfl (by decide))]

end Tokens

end Json

namespace Expr

open Json (ofText? Closed)
open Json.Numeral (signed integer isKept isWhole)

/-- What is read where the number of a legacy number is this token. -/
def ofNumToken? (token : List Char) : Option (Node .expr) :=
  (ofText? ("\x7b\"kind\":\"Num\",\"n\":" ++ String.ofList token ++ "\x7d")).bind
    (Node.ofJson? .expr)

/-- What is read where the integer of a constant is this token. -/
def ofConstantToken? (token : List Char) : Option (Node .expr) :=
  (ofText? ("\x7b\"kind\":\"Constant\",\"value\":\x7b\"int\":" ++ String.ofList token ++
    "\x7d\x7d")).bind (Node.ofJson? .expr)

theorem legacyNum_float_ne (x : Binary64) (i : Int) :
    legacyNum (.float x) ≠ legacyNum (.int i) := by
  intro h
  have hdoubles : [x] = [] := congrArg Tree.doubles h
  cases hdoubles

section Tokens

variable {digits : List Char} (hdigits : ∀ c ∈ digits, c.isDigit = true) (negative : Bool)
  (hne : digits ≠ [])

include hdigits hne

theorem ofText?_word {left right : String} {ts us : List Json.Token} (hleft : Closed left ts)
    (hright : Closed right us) (hend : Json.isBarrier right = true) :
    ofText? (left ++ String.ofList (signed negative digits) ++ right) =
      (Json.number? (signed negative digits)).bind fun j =>
        Json.ofTokens? (ts ++ .literal j :: us) := by
  have hsome : signed negative digits ≠ [] := by
    unfold signed
    split
    · simp
    · exact hne
  rw [ofText?, Json.tokens?_word hleft hright hend]
  · rw [String.toList_ofList, Json.word?_signed hdigits]
    cases Json.number? (signed negative digits) <;> rfl
  · rwa [String.toList_ofList]
  · rw [String.toList_ofList]
    exact Json.all_signed hdigits negative

theorem ofNumToken?_signed :
    ofNumToken? (signed negative digits) =
      if isWhole digits then
        if isKept negative (integer negative digits) then
          some (legacyNum (.int (integer negative digits)))
        else (Binary64.ofDecimal? negative (integer negative digits).natAbs 0).map fun x =>
          legacyNum (.float x)
      else Option.none := by
  have hleft : Closed "\x7b\"kind\":\"Num\",\"n\":" [.openObj, .text "kind", .colon,
    .text "Num", .comma, .text "n", .colon] := fun _ _ => rfl
  have hright : Closed "\x7d" [.closeObj] := fun _ _ => rfl
  rw [ofNumToken?, ofText?_word hdigits negative hne hleft hright rfl,
    Json.Numeral.number?_signed hdigits negative hne]
  split
  · split
    · rfl
    · cases Binary64.ofDecimal? negative (integer negative digits).natAbs 0 <;> rfl
  · rfl

theorem ofConstantToken?_signed :
    ofConstantToken? (signed negative digits) =
      if isWhole digits ∧ isKept negative (integer negative digits) then
        some (int (integer negative digits))
      else Option.none := by
  have hleft : Closed "\x7b\"kind\":\"Constant\",\"value\":\x7b\"int\":" [.openObj, .text "kind",
    .colon, .text "Constant", .comma, .text "value", .colon, .openObj, .text "int", .colon] :=
    fun _ _ => rfl
  have hright : Closed "\x7d\x7d" [.closeObj, .closeObj] := fun _ _ => rfl
  rw [ofConstantToken?, ofText?_word hdigits negative hne hleft hright rfl,
    Json.Numeral.number?_signed hdigits negative hne]
  by_cases hwhole : isWhole digits = true
  · by_cases hkept : isKept negative (integer negative digits) = true
    · rw [if_pos hwhole, if_pos hkept, if_pos ⟨hwhole, hkept⟩]
      rfl
    · rw [if_pos hwhole, if_neg hkept, if_neg fun h => hkept h.2]
      cases Binary64.ofDecimal? negative (integer negative digits).natAbs 0 <;> rfl
  · rw [if_neg hwhole, if_neg fun h => hwhole h.1]
    rfl

/-- A constant is read from an integer token as that integer or not at all. So is a legacy number,
unless the integer is beyond 64 bits or a negated zero and there is a double nearest to it: it is
then read as that double. -/
theorem integer_token_read :
    ofConstantToken? (signed negative digits) =
      (if isWhole digits ∧ isKept negative (integer negative digits) then
        some (int (integer negative digits))
      else Option.none) ∧
    ofNumToken? (signed negative digits) =
      (if isWhole digits then
        if isKept negative (integer negative digits) then
          some (legacyNum (.int (integer negative digits)))
        else (Binary64.ofDecimal? negative (integer negative digits).natAbs 0).map fun x =>
          legacyNum (.float x)
      else Option.none) ∧
    ((∀ t, ofNumToken? (signed negative digits) = some t →
        t = legacyNum (.int (integer negative digits))) ↔
      (isWhole digits = true → isKept negative (integer negative digits) = false →
        Binary64.ofDecimal? negative (integer negative digits).natAbs 0 = Option.none)) := by
  have hnum := ofNumToken?_signed hdigits negative hne
  refine ⟨ofConstantToken?_signed hdigits negative hne, hnum, ?_, ?_⟩
  · intro hexact hwhole hkept
    rw [hwhole, hkept] at hnum
    cases hdouble : Binary64.ofDecimal? negative (integer negative digits).natAbs 0 with
    | none => rfl
    | some x =>
      rw [hdouble] at hnum
      exact absurd (hexact _ hnum) (legacyNum_float_ne x _)
  · intro hrefused t ht
    rw [hnum] at ht
    split at ht
    next hwhole =>
      split at ht
      next => exact (Option.some.inj ht).symm
      next hkept =>
        rw [hrefused hwhole (Bool.not_eq_true _ ▸ hkept)] at ht
        cases ht
    next => cases ht

end Tokens

/-- A negated zero is refused as a constant and read as a double as a legacy number. -/
theorem integer_token_read_zero :
    (∀ c ∈ ['0'], c.isDigit = true) ∧ ['0'] ≠ [] ∧ ofConstantToken? ['-', '0'] = Option.none ∧
      ofNumToken? ['-', '0'] = some (legacyNum (.float ⟨true, 0, 0⟩)) := by
  have hdigits : ∀ c ∈ ['0'], c.isDigit = true := by simp
  have hne : ['0'] ≠ [] := by simp
  obtain ⟨hconstant, hnum, -⟩ := integer_token_read hdigits true hne
  exact ⟨hdigits, hne, hconstant, hnum⟩

/-- Two to the power 64 is read as a double. -/
theorem num_beyond_words :
    ofNumToken? "18446744073709551616".toList = some (legacyNum (.float ⟨false, 1087, 0⟩)) ∧
      ¬ ∀ t, ofNumToken? "18446744073709551616".toList = some t →
        t = legacyNum (.int 18446744073709551616) := by
  have hdigits : "18446744073709551616".toList.all Char.isDigit = true := by decide
  have hwhole : isWhole "18446744073709551616".toList = true := by decide
  have hvalue : integer false "18446744073709551616".toList = 18446744073709551616 := by
    decide +kernel
  have hkept : isKept false 18446744073709551616 = false := by decide
  have hdouble : Binary64.ofDecimal? false (18446744073709551616 : Int).natAbs 0 =
      some ⟨false, 1087, 0⟩ := by decide +kernel
  have hread : ofNumToken? "18446744073709551616".toList =
      some (legacyNum (.float ⟨false, 1087, 0⟩)) := by
    have hnum := ofNumToken?_signed (List.all_eq_true.mp hdigits) false (by decide)
    rw [hwhole, hvalue, hkept, hdouble] at hnum
    exact hnum
  exact ⟨hread, fun hexact => legacyNum_float_ne _ _ (hexact _ hread)⟩

end Expr

end Unparse
