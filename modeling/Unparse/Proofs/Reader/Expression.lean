import Unparse.Proofs.Draft.Giving
import Unparse.Proofs.Reader.Spelling

/-! Expressions and the reader. Each rule of the fully parenthesised core writes a text that
spells the expression it was given. -/
namespace Unparse

namespace Reader

theorem find_marks {k : Kind} (hk : k.place.isOperator = true) :
    (Kind.inPlace k.place).find? (·.marks == k.marks) = some k ∧ k.shape = .done := by
  revert hk
  cases k <;> decide

theorem operator?_kind {f : Family} (hf : f.isOperator = true) (n : Node f) :
    operator? f n.kind.marks = some n.erase := by
  have hplace := Node.place_kind n
  have hfind := find_marks (k := n.kind) (by rw [hplace]; exact hf)
  rw [hplace] at hfind
  rw [operator?, hfind.1, Option.bind_some, Node.bare?_kind n hfind.2]

/-- The families of operators between operands have no marks in common, and none of the
marks that are no operators. -/
theorem marks_apart {k : Kind} (hk : k.place.isOperator = true) :
    (k.marks ≠ [":", "="] ∧ k.marks ≠ [","] ∧ k.marks ≠ ["if"]) ∧
      (k.place ≠ .operator → k.place ≠ .unaryOp →
        (Kind.inPlace .operator).find? (·.marks == k.marks) = none) ∧
      (k.place = .cmpOp → (Kind.inPlace .boolOp).find? (·.marks == k.marks) = none) := by
  revert hk
  cases k <;> decide

section Operations

variable (left right : Node .expr)

theorem operation_binOp (op : Node .operator) :
    operation left op.kind.marks right [] = some (Expr.binOp left op.erase right) := by
  have hplace := Node.place_kind op
  have hapart := marks_apart (k := op.kind) (by rw [hplace]; rfl)
  have hop := operator?_kind rfl op
  simp only [operation, hapart.1.1, hapart.1.2.1, hapart.1.2.2, ↓reduceIte, hop]

theorem operation_boolOp (op : Node .boolOp) (more : List Chunk) :
    operation left op.kind.marks right more =
      some (Expr.boolOp op.erase (left :: right :: more.map Prod.snd)) := by
  have hplace := Node.place_kind op
  have hapart := marks_apart (k := op.kind) (by rw [hplace]; rfl)
  have hop := operator?_kind rfl op
  have hnone : operator? .operator op.kind.marks = none := by
    rw [operator?, hapart.2.1 (by rw [hplace]; decide) (by rw [hplace]; decide)]
    rfl
  simp only [operation, hapart.1.1, hapart.1.2.1, hapart.1.2.2, ↓reduceIte, hop, hnone]

/-- The operators of a comparison, each with what it compares to. -/
def comparisons (ops : List (Node .cmpOp)) (es : List (Node .expr)) : List Chunk :=
  (ops.zip es).map fun (op, e) => (op.kind.marks, e)

theorem mapM_comparisons {ops : List (Node .cmpOp)} {es : List (Node .expr)}
    (h : ops.length = es.length) :
    (comparisons ops es).mapM (fun c => operator? .cmpOp c.1) = some (ops.map Tree.erase) ∧
      (comparisons ops es).map Prod.snd = es := by
  induction ops generalizing es with
  | nil =>
    have hes : es = [] := List.eq_nil_of_length_eq_zero h.symm
    subst hes
    exact ⟨rfl, rfl⟩
  | cons op ops ih =>
    cases es with
    | nil => simp at h
    | cons e es =>
      have hmore := ih (by simpa using h)
      have hop := operator?_kind (f := .cmpOp) rfl op
      unfold comparisons at hmore ⊢
      constructor
      · simp [hop, hmore.1]
      · simp [hmore.2]

theorem operation_compare {ops : List (Node .cmpOp)} {es : List (Node .expr)}
    {marks : List String} {more : List Chunk} (h : ops.length = es.length)
    (hchunks : comparisons ops es = (marks, right) :: more) :
    operation left marks right more =
      some (.of .compare (left, ops.map Tree.erase, es, ())) := by
  cases ops with
  | nil => simp [comparisons] at hchunks
  | cons op ops =>
    have hplace := Node.place_kind op
    have hapart := marks_apart (k := op.kind) (by rw [hplace]; rfl)
    have hmarks : op.kind.marks = marks := by
      cases es with
      | nil => simp at h
      | cons e es =>
        simp only [comparisons, List.zip_cons_cons, List.map_cons, List.cons.injEq,
          Prod.mk.injEq] at hchunks
        exact hchunks.1.1
    have hbinary : operator? .operator marks = none := by
      rw [← hmarks, operator?, hapart.2.1 (by rw [hplace]; decide) (by rw [hplace]; decide)]
      rfl
    have hbool : operator? .boolOp marks = none := by
      rw [← hmarks, operator?, hapart.2.2 hplace]
      rfl
    have hall := mapM_comparisons h
    rw [hchunks] at hall
    rw [hmarks] at hapart
    simp only [operation, hapart.1.1, hapart.1.2.1, hapart.1.2.2, ↓reduceIte, hbinary, hbool,
      hall.1]
    rw [show right :: more.map Prod.snd = es from hall.2]
    rfl

end Operations

section Texts

variable {e : Node .expr} {text : String}

/-- Whether an expression may follow the marks. -/
def endsReady (marks : List String) : Bool :=
  match marks.getLast? with
  | none => false
  | some m => m != "."

theorem ready_pushAll {marks : List String} (h : endsReady marks = true) (r : Reader) :
    (r.pushAll (marks.map .mark)).Ready := by
  unfold endsReady at h
  split at h
  next => exact absurd h Bool.false_ne_true
  next m hlast =>
    obtain ⟨first, rfl⟩ := List.getLast?_eq_some_iff.mp hlast
    have hm : m ≠ "." := by simpa using h
    simp [Ready, pushAll, hm]

theorem Led.of_read {separator : String} {marks : List String}
    (hboundary : ∀ rest, Boundary (separator.toList ++ rest)) (hmarks : endsReady marks = true)
    (hread : ∀ (r : Reader) (rest : List Char), r.read (separator.toList ++ rest) =
      (r.pushAll (marks.map .mark)).read rest)
    (h : Spelled e text) : Led (marks, e) (separator ++ text) where
  boundary rest := by
    rw [String.toList_append, List.append_assoc]
    exact hboundary _
  read r rest hrest := by
    rw [String.toList_append, List.append_assoc, hread, h _ rest (ready_pushAll hmarks r) hrest,
      chunkItems, pushAll_append, pushAll_singleton]

theorem Led.operator {k : Kind} (hk : k.place.isOperator = true) (h : Spelled e text) :
    Led (k.marks, e) (" " ++ k.token ++ " " ++ text) := by
  have hmarks : endsReady k.marks = true := by
    revert hk
    cases k <;> decide
  apply Led.of_read _ hmarks _ h
  · intro rest
    simp only [String.toList_append, List.append_assoc]
    exact boundary_blank _
  · intro r rest
    exact read_spaced hk

theorem Led.comma (h : Spelled e text) : Led ([","], e) (", " ++ text) := by
  apply Led.of_read _ (by decide) _ h
  · intro rest
    exact (rfl : isWordChar ',' = false)
  · intro r rest
    have hsign : r.read (',' :: ' ' :: rest) = (r.push (.mark ",")).read (' ' :: rest) :=
      read_sign (by decide) rfl
    exact hsign.trans read_blank

theorem Led.keyword {w : String} (hw : w ∈ keywords) (h : Spelled e text) :
    Led ([w], e) (" " ++ w ++ " " ++ text) := by
  have hpoint : keywords.all (fun w => w != ".") = true := by decide
  have hready : endsReady [w] = true := List.all_eq_true.mp hpoint w hw
  apply Led.of_read _ hready _ h
  · intro rest
    simp only [String.toList_append, List.append_assoc]
    exact boundary_blank _
  · intro r rest
    have hspaced : (" " ++ w ++ " ").toList ++ rest = ' ' :: (w.toList ++ ' ' :: rest) := by
      simp
    rw [hspaced, read_blank, read_keyword hw (boundary_blank rest), read_blank]
    rfl

theorem Led.named (h : Spelled e text) : Led ([":", "="], e) (" := " ++ text) := by
  apply Led.of_read _ (by decide) _ h
  · intro rest
    exact boundary_blank _
  · intro r rest
    have hsigns : r.read ([':', '='] ++ ' ' :: rest) = _ := read_signs (by decide)
    exact read_blank.trans (hsigns.trans read_blank)

/-- Expressions with the same marks between them. -/
def separated (marks : List String) : List (Node .expr) → List Chunk
  | [] => []
  | e :: es => ([], e) :: es.map fun x => (marks, x)

@[simp] theorem map_snd_separated (marks : List String) (es : List (Node .expr)) :
    (separated marks es).map Prod.snd = es := by
  cases es with
  | nil => rfl
  | cons e es => simp [separated, Function.comp_def]

theorem intercalate_cons (separator s : String) (ss : List String) :
    String.intercalate separator (s :: ss) = s ++ String.join (ss.map (separator ++ ·)) := by
  induction ss generalizing s with
  | nil => simp
  | cons t ts ih =>
    rw [String.intercalate_cons_cons, ih, List.map_cons, String.join_cons]
    simp only [String.append_assoc]

theorem content_intercalate {separator : String} {marks : List String}
    (hled : ∀ e t, Spelled e t → Led (marks, e) (separator ++ t))
    {es : List (Node .expr)} {ss : List String} (h : List.Forall₂ Spelled es ss) :
    Content (separated marks es) [] (String.intercalate separator ss) := by
  cases h with
  | nil =>
    rw [String.intercalate_nil]
    exact Content.empty
  | @cons e s es ss hs hss =>
    have hmore : List.Forall₂ Led (es.map fun x => (marks, x)) (ss.map (separator ++ ·)) := by
      rw [List.forall₂_map_left_iff, List.forall₂_map_right_iff]
      exact hss.imp hled
    rw [intercalate_cons]
    exact (Content.single hs).join hmore

end Texts

end Reader

end Unparse
