import Unparse.Proofs.Binary64.Shortest
import Unparse.Proofs.Json.Lexemes
import Unparse.Proofs.Json.Tokens

/-! JSON text. A document is read back from its text, compact or on lines of its own, if its
integers have at most 64 bits and its doubles are finite. -/
namespace Unparse.Json

open Numeral (signed)

section Doubles

variable {x : Binary64}

theorem toList_writtenFloat (hfinite : x.isFinite = true) :
    (writtenFloat x).toList = signed x.negative ((x.scientific .even).written floatLayout) := by
  unfold writtenFloat signed
  rw [if_pos hfinite]
  dsimp only
  split <;> simp

/-- A number token that is no integer is read as the double nearest to what it denotes. -/
theorem number?_of_denotes {negative : Bool} {text : List Char} {q : ℚ}
    (h : Scientific.Denotes negative text q) :
    ∃ (digits : Nat) (exponent : Int), (digits : ℚ) * 10 ^ exponent = q ∧
      number? (signed negative text) =
        (Binary64.ofDecimal? negative digits exponent).map float := by
  obtain ⟨n, hread, rfl, hintegral, hvalue⟩ := h
  refine ⟨n.magnitude, n.exponent - n.fraction.length, hvalue, ?_⟩
  rw [number?, hread, Option.bind_some, Numeral.value?]
  simp only [hintegral, Bool.false_and, Bool.false_eq_true, ↓reduceIte]
  rfl

/-- A finite double is read back from its written form. -/
theorem number?_writtenFloat (hfinite : x.isFinite = true) :
    number? (writtenFloat x).toList = some (float x) := by
  rw [toList_writtenFloat hfinite]
  by_cases hx : 0 < x.significand
  · obtain ⟨digits, exponent, hvalue, hread⟩ := number?_of_denotes
      (Scientific.written_denotes (Binary64.isNormal_scientific hx .even) x.negative floatLayout)
    have hcontains := Binary64.contains_scientific hx .even
    rw [← hvalue] at hcontains
    rw [hread, Binary64.ofDecimal?_eq hfinite hx hcontains, Option.map_some]
  · have hzero : x.isZero = true := by
      rwa [Binary64.significand_pos_iff, Bool.not_eq_false] at hx
    have hscientific : x.scientific .even = ⟨['0'], 0⟩ := if_pos hzero
    obtain ⟨digits, exponent, hvalue, hread⟩ := number?_of_denotes
      (Scientific.written_denotes Scientific.isNormal_zero x.negative floatLayout)
    have hdigits : digits = 0 := by
      rw [Scientific.value_zero, mul_eq_zero, Nat.cast_eq_zero] at hvalue
      exact hvalue.resolve_right (by positivity)
    rw [hscientific, hread, hdigits, Binary64.ofDecimal?_zero hzero, Option.map_some]

end Doubles

mutual

/-- The documents that text can hold: integers of at most 64 bits, finite doubles. -/
def isTextual : Json → Bool
  | int i => isWordSized i
  | float x => x.isFinite
  | arr items => areTextual items
  | obj members => haveTextual members
  | _ => true

def areTextual : List Json → Bool
  | [] => true
  | item :: more => item.isTextual && areTextual more

def haveTextual : List (String × Json) → Bool
  | [] => true
  | member :: more => hasTextual member && haveTextual more

def hasTextual : String × Json → Bool
  | (_, value) => value.isTextual

end

/-- What is neither array nor object is one lexeme. -/
theorem lexes_scalar {j : Json} (hdepth : j.depth = 0) (h : j.isTextual = true) :
    Lexes (writtenScalar j) j.tokens := by
  cases j with
  | null => exact lexes_word (by decide) (by decide) rfl
  | bool b =>
    cases b with
    | true => exact lexes_word (by decide) (by decide) rfl
    | false => exact lexes_word (by decide) (by decide) rfl
  | int i => exact lexes_number (number?_signedDecimal h)
  | float x => exact lexes_number (number?_writtenFloat h)
  | str s => exact (closed_writtenText s).lexes
  | arr items => cases hdepth
  | obj members => cases hdepth

theorem closed_empty : Closed "" [] :=
  fun _ _ => rfl

theorem closed_comma : Closed "," [.comma] :=
  fun _ _ => rfl

theorem closed_newline (level : Nat) : Closed (newline level) [] := by
  have hspaces : Closed "  " [] := fun _ _ => rfl
  have hcopies : Closed (Text.copies level "  ") [] := by
    unfold Text.copies
    induction level with
    | zero => exact closed_empty
    | succ level ih =>
      rw [List.replicate_succ, String.join_cons]
      exact hspaces.append ih
  have hbreak : Closed "\n" [] := fun _ _ => rfl
  exact hbreak.append hcopies

theorem isBarrier_append {s t : String} (h : isBarrier s = true) : isBarrier (s ++ t) = true := by
  unfold isBarrier at h ⊢
  cases hlist : s.toList with
  | nil => simp [hlist] at h
  | cons c cs => simpa [String.toList_append, hlist] using h

section Containers

variable {left right : String} {opening closing : Token} (hleft : Closed left [opening])
  (hright : Closed right [closing]) {parts : List String} {tokens : List (List Token)}
  (hparts : List.Forall₂ Lexes parts tokens)

include hleft hright hparts

theorem closed_enclosed (hend : isBarrier right = true) :
    Closed (left ++ String.intercalate "," parts ++ right)
      (opening :: ([Token.comma].intercalate tokens ++ [closing])) := by
  rw [String.append_assoc]
  exact hleft.append (closed_intercalate closed_comma rfl hright hend hparts)

theorem closed_bracketed (level : Nat) :
    Closed (bracketed level left right parts)
      (opening :: ([Token.comma].intercalate tokens ++ [closing])) := by
  have hnewline (n : Nat) : isBarrier (newline n) = true := isBarrier_append rfl
  unfold bracketed
  split
  next hempty =>
    obtain rfl := List.isEmpty_iff.mp hempty
    obtain rfl := List.forall₂_nil_left_iff.mp hparts
    exact hleft.append hright
  next =>
    have hinner := closed_intercalate (closed_comma.append (closed_newline (level + 1)))
      (isBarrier_append rfl) ((closed_newline level).append hright)
      (isBarrier_append (hnewline level)) hparts
    have hall := (hleft.append (closed_newline (level + 1))).append hinner
    simp only [String.append_assoc] at hall ⊢
    exact hall

end Containers

mutual

theorem lexes_compact : (j : Json) → j.isTextual = true → Lexes j.compact j.tokens
  | null, h | bool _, h | int _, h | float _, h | str _, h => lexes_scalar rfl h
  | arr items, h =>
    (closed_enclosed (fun _ _ => rfl) (fun _ _ => rfl) (lexes_compactItems items h) rfl).lexes
  | obj members, h =>
    (closed_enclosed (fun _ _ => rfl) (fun _ _ => rfl) (lexes_compactMembers members h) rfl).lexes

theorem lexes_compactItems : (items : List Json) → areTextual items = true →
    List.Forall₂ Lexes (compactItems items) (itemTokens items)
  | [], _ => .nil
  | item :: more, h =>
    have ⟨hitem, hmore⟩ := Bool.and_eq_true_iff.mp h
    .cons (lexes_compact item hitem) (lexes_compactItems more hmore)

theorem lexes_compactMembers : (members : List (String × Json)) → haveTextual members = true →
    List.Forall₂ Lexes (compactMembers members) (memberTokens members)
  | [], _ => .nil
  | member :: more, h =>
    have ⟨hmember, hmore⟩ := Bool.and_eq_true_iff.mp h
    .cons (lexes_compactMember member hmember) (lexes_compactMembers more hmore)

theorem lexes_compactMember : (member : String × Json) → hasTextual member = true →
    Lexes (compactMember member) (tokensOfMember member)
  | (name, value), h =>
    have hcolon : Closed ":" [.colon] := fun _ _ => rfl
    ((closed_writtenText name).append hcolon).append_lexes (lexes_compact value h)

end

mutual

theorem lexes_indented (level : Nat) :
    (j : Json) → j.isTextual = true → Lexes (j.indented level) j.tokens
  | null, h | bool _, h | int _, h | float _, h | str _, h => lexes_scalar rfl h
  | arr items, h =>
    (closed_bracketed (fun _ _ => rfl) (fun _ _ => rfl)
      (lexes_indentedItems (level + 1) items h) level).lexes
  | obj members, h =>
    (closed_bracketed (fun _ _ => rfl) (fun _ _ => rfl)
      (lexes_indentedMembers (level + 1) members h) level).lexes

theorem lexes_indentedItems (level : Nat) : (items : List Json) → areTextual items = true →
    List.Forall₂ Lexes (indentedItems level items) (itemTokens items)
  | [], _ => .nil
  | item :: more, h =>
    have ⟨hitem, hmore⟩ := Bool.and_eq_true_iff.mp h
    .cons (lexes_indented level item hitem) (lexes_indentedItems level more hmore)

theorem lexes_indentedMembers (level : Nat) :
    (members : List (String × Json)) → haveTextual members = true →
      List.Forall₂ Lexes (indentedMembers level members) (memberTokens members)
  | [], _ => .nil
  | member :: more, h =>
    have ⟨hmember, hmore⟩ := Bool.and_eq_true_iff.mp h
    .cons (lexes_indentedMember level member hmember) (lexes_indentedMembers level more hmore)

theorem lexes_indentedMember (level : Nat) : (member : String × Json) → hasTextual member = true →
    Lexes (indentedMember level member) (tokensOfMember member)
  | (name, value), h =>
    have hcolon : Closed ": " [.colon] := fun _ _ => rfl
    ((closed_writtenText name).append hcolon).append_lexes (lexes_indented level value h)

end

theorem ofText?_of_lexes {s : String} {j : Json} (h : Lexes s j.tokens) : ofText? s = some j := by
  rw [ofText?, h.tokens?, Option.bind_some, ofTokens?_tokens]

/-- A document is read back from its compact text. -/
theorem ofText?_compact {j : Json} (h : j.isTextual = true) : ofText? j.compact = some j :=
  ofText?_of_lexes (lexes_compact j h)

/-- A document is read back from its text on lines of its own. -/
theorem ofText?_pretty {j : Json} (h : j.isTextual = true) : ofText? j.pretty = some j :=
  ofText?_of_lexes (lexes_indented 0 j h)

end Unparse.Json
