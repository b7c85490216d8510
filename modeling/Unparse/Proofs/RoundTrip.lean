import Unparse.Proofs.Json.Texts
import Unparse.Proofs.Tree.Documents
import Unparse.Tree.Build

/-! Trees through their documents and texts. A tree whose doubles are finite has a document that
text can hold, and the tree is read back from it. -/
namespace Unparse

def Number.doubles : Number → List Binary64
  | int _ => []
  | float x => [x]
  | complex real imag => [real, imag]

def Constant.doubles : Constant → List Binary64
  | float x => [x]
  | complex real imag => [real, imag]
  | _ => []

def Scalar.doubles : (a : Scalar) → a.Carrier → List Binary64
  | .number, n => n.doubles
  | .constant, c => c.doubles
  | _, _ => []

namespace Tree

/-- The doubles in a tree, in order. -/
def doubles : {s : Shape} → Tree s → List Binary64
  | _, node _ fields _ => fields.doubles
  | _, @scalar a value => a.doubles value
  | _, absent => []
  | _, present content => content.doubles
  | _, nil => []
  | _, cons head tail => head.doubles ++ tail.doubles
  | _, done => []
  | _, field value more => value.doubles ++ more.doubles

/-- No double in the tree is infinite or no number at all. -/
def IsFinite {s : Shape} (t : Tree s) : Prop :=
  ∀ x ∈ t.doubles, x.isFinite = true

end Tree

namespace Json

theorem areTextual_iff (items : List Json) :
    areTextual items = true ↔ ∀ j ∈ items, j.isTextual = true := by
  induction items with
  | nil => simp [areTextual]
  | cons item more ih => rw [areTextual, Bool.and_eq_true, ih, List.forall_mem_cons]

theorem haveTextual_iff (members : List (String × Json)) :
    haveTextual members = true ↔ ∀ m ∈ members, m.2.isTextual = true := by
  induction members with
  | nil => simp [haveTextual]
  | cons member more ih =>
    obtain ⟨name, value⟩ := member
    rw [haveTextual, hasTextual, Bool.and_eq_true, ih, List.forall_mem_cons]

theorem isTextual_nat {n : Nat} (h : n < 0x10000000000000000) : (int n).isTextual = true := by
  simp only [isTextual, isWordSized, Bool.and_eq_true, decide_eq_true_eq]
  omega

end Json

namespace Encode

open Json (isTextual haveTextual)

theorem isTextual_integer (i : Int) : (integer i).isTextual = true := by
  unfold integer
  split
  next h => exact h
  next => rfl

theorem isTextual_complex {real imag : Binary64} (hreal : real.isFinite = true)
    (himag : imag.isFinite = true) : (complex real imag).isTextual = true := by
  simp [complex, isTextual, Json.haveTextual_iff, hreal, himag]

theorem isTextual_byte (b : UInt8) : (byte b).isTextual = true :=
  Json.isTextual_nat (Nat.lt_trans b.toNat_lt (by decide))

theorem isTextual_word (n : UInt32) : (Json.int n.toNat).isTextual = true :=
  Json.isTextual_nat (Nat.lt_trans n.toNat_lt (by decide))

theorem isTextual_number {n : Number} (h : ∀ x ∈ n.doubles, x.isFinite = true) :
    (number n).isTextual = true := by
  cases n with
  | int i => exact isTextual_integer i
  | float x => exact h x (List.mem_singleton.mpr rfl)
  | complex real imag =>
    obtain ⟨hreal, himag⟩ := List.forall_mem_cons.mp h
    exact isTextual_complex hreal (himag imag (List.mem_singleton.mpr rfl))

theorem isTextual_member {name : String} {j : Json} (h : j.isTextual = true) :
    (Json.obj [(name, j)]).isTextual = true :=
  (Json.haveTextual_iff _).mpr (List.forall_mem_singleton.mpr h)

theorem isTextual_constant {c : Constant} (h : ∀ x ∈ c.doubles, x.isFinite = true) :
    (constant c).isTextual = true := by
  cases c with
  | none => rfl
  | ellipsis => rfl
  | bool b => rfl
  | int i => exact isTextual_member (isTextual_integer i)
  | float x => exact isTextual_member (h x (List.mem_singleton.mpr rfl))
  | complex real imag =>
    obtain ⟨hreal, himag⟩ := List.forall_mem_cons.mp h
    have hcomplex := isTextual_complex hreal (himag imag (List.mem_singleton.mpr rfl))
    exact isTextual_member hcomplex
  | str s => rfl
  | bytes bs =>
    apply isTextual_member
    rw [isTextual, Json.areTextual_iff]
    intro j hj
    obtain ⟨b, -, rfl⟩ := List.mem_map.mp hj
    exact isTextual_byte b

theorem isTextual_scalar {a : Scalar} {v : a.Carrier} (h : ∀ x ∈ a.doubles v, x.isFinite = true) :
    (scalar a v).isTextual = true := by
  cases a with
  | level => exact isTextual_word v
  | byte => exact isTextual_byte v
  | number => exact isTextual_number h
  | constant => exact isTextual_constant h
  | _ => rfl

theorem isTextual_markMembers {f : Family} (mark : Mark f) :
    ∀ m ∈ markMembers mark, m.2.isTextual = true := by
  cases mark with
  | none => nofun
  | «at» p h =>
    intro m hm
    obtain rfl := List.mem_singleton.mp hm
    change (position p).isTextual = true
    rw [position, isTextual, Json.haveTextual_iff, List.forall_mem_cons]
    exact ⟨isTextual_word p.line, List.forall_mem_singleton.mpr (isTextual_word p.column)⟩

theorem isTextual_node {k : Kind} {fields : Documents k.shape} (mark : Mark k.place)
    (h : ∀ m ∈ members k.shape fields, m.2.isTextual = true) :
    (node k fields mark).isTextual = true := by
  unfold node
  split
  · rfl
  · rw [isTextual, Json.haveTextual_iff, List.forall_mem_append, List.forall_mem_append]
    refine ⟨⟨?_, h⟩, isTextual_markMembers mark⟩
    unfold tagMembers
    split <;> simp [isTextual]

/-- Text can hold the document of a tree whose doubles are finite. -/
theorem isTextual_document {s : Shape} (t : Tree s) (h : t.IsFinite) :
    t.document.isTextual = true ∧
      ∀ m ∈ members s (t.fold node), m.2.isTextual = true := by
  induction t with
  | node k fields mark ih => exact ⟨isTextual_node mark (ih h).2, nofun⟩
  | scalar value => exact ⟨isTextual_scalar h, nofun⟩
  | absent => exact ⟨rfl, nofun⟩
  | present content ih => exact ⟨(ih h).1, nofun⟩
  | nil => exact ⟨rfl, nofun⟩
  | cons head tail hhead htail =>
    obtain ⟨hh, ht⟩ := List.forall_mem_append.mp h
    exact ⟨Bool.and_eq_true_iff.mpr ⟨(hhead hh).1, (htail ht).1⟩, nofun⟩
  | done => exact ⟨rfl, nofun⟩
  | field value more hvalue hmore =>
    obtain ⟨hv, hm⟩ := List.forall_mem_append.mp h
    refine ⟨rfl, ?_⟩
    rw [Decode.members_field, List.forall_mem_append]
    refine ⟨?_, (hmore hm).2⟩
    split
    · simp
    · exact List.forall_mem_singleton.mpr (hvalue hv).1

end Encode

namespace Node

variable {f : Family}

/-- A node with finite doubles is read back from its document and from either text of it, if the
document does not nest too deep. -/
theorem read_written (t : Node f) (hfinite : t.IsFinite)
    (hdepth : t.toJson.depth ≤ Decode.deepest) :
    Node.ofJson? f t.toJson = some t ∧
      (Json.ofText? t.toJson.compact).bind (Node.ofJson? f) = some t ∧
      (Json.ofText? t.toJson.pretty).bind (Node.ofJson? f) = some t := by
  have hdocument : Node.ofJson? f t.toJson = some t := Node.ofJson?_toJson t hdepth
  have htextual : t.toJson.isTextual = true := (Encode.isTextual_document t hfinite).1
  refine ⟨hdocument, ?_, ?_⟩
  · rw [Json.ofText?_compact htextual, Option.bind_some, hdocument]
  · rw [Json.ofText?_pretty htextual, Option.bind_some, hdocument]

end Node

/-- Numbers that are easily lost: an integer beyond 64 bits, the negative zero, a double with
seventeen digits, the least one and the negative of the largest. -/
def payloads : Node .stmt :=
  (Stmt.assign [Expr.name "x"]
    (Expr.tuple [Expr.legacyNum (.int (-18446744073709551616)),
      Expr.legacyNum (.float (.ofBits 0x8000000000000000)),
      Expr.float (.ofBits 0x3fd3333333333334),
      Expr.constant (.complex (.ofBits 1) (.ofBits 0xffefffffffffffff))])).withPosition ⟨1, 0⟩

theorem Node.payloads_read_written : payloads.IsFinite ∧
    payloads.toJson.depth ≤ Decode.deepest ∧
    Node.ofJson? .stmt payloads.toJson = some payloads ∧
    (Json.ofText? payloads.toJson.compact).bind (Node.ofJson? .stmt) = some payloads ∧
    (Json.ofText? payloads.toJson.pretty).bind (Node.ofJson? .stmt) = some payloads := by
  have hfinite : payloads.IsFinite := by
    unfold Tree.IsFinite
    decide
  have hdepth : payloads.toJson.depth ≤ Decode.deepest := by decide
  exact ⟨hfinite, hdepth, Node.read_written payloads hfinite hdepth⟩

end Unparse
