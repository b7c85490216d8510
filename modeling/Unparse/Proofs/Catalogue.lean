import Unparse.Proofs.Traversal.Children
import Unparse.Proofs.Tree.Documents
import Unparse.Tree.Build

/-! The catalogue of kinds against nodes. The fields that the catalogue names for a kind are those
of the document of a node, and they hold its children in the same order. -/
namespace Unparse

namespace Shape

/-- The names of the fields that may be left out of a document. -/
def elidedNames (s : Shape) : List String :=
  (s.fields.filter (·.presence = .elided)).map Field.name

/-- An optional node, or a list of nodes. -/
def isOptional : Shape → Bool
  | option (node _) | list (node _) => true
  | _ => false

variable {own : String} {presence : Presence} {s rest : Shape}

theorem isRecord_field : (field own presence s rest).isRecord = true ↔
    s.isLegible = true ∧ rest.isRecord = true ∧ own ∉ rest.fieldNames := by
  simp [isRecord, and_assoc]

theorem mem_elidedNames_field {name : String} :
    name ∈ (field own presence s rest).elidedNames ↔
      (presence = .elided ∧ name = own) ∨ name ∈ rest.elidedNames := by
  by_cases h : presence = .elided <;> simp [elidedNames, fields, h]

theorem elidedNames_subset (s : Shape) : s.elidedNames ⊆ s.fieldNames :=
  List.map_subset _ (List.filter_subset_self _)

end Shape

namespace Kind

/-- The fields of a kind that only some dialects have. -/
def omissible : Kind → List String
  | .call => ["starargs", "kwargs"]
  | .functionDef | .asyncFunctionDef | .classDef => ["type_params"]
  | _ => []

theorem elidedNames_shape (k : Kind) : k.shape.elidedNames = k.omissible := by
  cases k <;> rfl

theorem isOptional_of_elided (k : Kind) :
    ∀ f ∈ k.shape.fields, f.presence = .elided → f.shape.isOptional = true := by
  cases k <;> decide

theorem word_eq_name {k : Kind} : k.place.isTagged = true → k.word = k.name := by
  cases k <;> decide

end Kind

namespace Tree

/-- The nodes in the field of that name, if there is one. -/
def held (name : String) : {s : Shape} → Tree s → List AnyNode
  | _, @field own _ _ _ value more => if own = name then value.roots else more.held name
  | _, _ => []

variable {own : String} {presence : Presence} {s rest : Shape} {value : Tree s} {more : Tree rest}

theorem held_own : (@field own presence s rest value more).held own = value.roots :=
  if_pos rfl

theorem held_other {name : String} (h : own ≠ name) :
    (@field own presence s rest value more).held name = more.held name :=
  if_neg h

/-- The fields hold the outermost nodes of a record, in the order of their names. -/
theorem flatMap_held {s : Shape} (t : Tree s) (hrecord : s.isRecord = true) :
    s.fieldNames.flatMap (fun name => t.held name) = t.roots := by
  induction t with
  | @field own presence s rest value more ihValue ihMore =>
    obtain ⟨_, hrest, hfresh⟩ := Shape.isRecord_field.mp hrecord
    have hothers : ∀ name ∈ rest.fieldNames,
        (@field own presence s rest value more).held name = more.held name :=
      fun name hname => held_other fun h => hfresh (h ▸ hname)
    change List.flatMap _ (own :: rest.fieldNames) = _
    rw [List.flatMap_cons, held_own, List.flatMap_congr hothers, ihMore hrest]
    rfl
  | done => rfl
  | _ => cases hrecord

theorem isVoid_eq_isEmpty {s : Shape} (t : Tree s) (hs : s.isOptional = true) :
    Encode.isVoid s (t.fold Encode.node) = t.roots.isEmpty := by
  cases t with
  | absent => rfl
  | present content =>
    cases content with
    | node k fields mark => rfl
    | _ => cases hs
  | nil => rfl
  | cons head tail =>
    cases head with
    | node k fields mark => rfl
    | _ => cases hs
  | _ => cases hs

/-- The members of a document are named as the fields are, without those that may be left out and
hold nothing. -/
theorem map_fst_members {s : Shape} (t : Tree s) (hrecord : s.isRecord = true)
    (hoptional : ∀ f ∈ s.fields, f.presence = .elided → f.shape.isOptional = true) :
    (Encode.members s (t.fold Encode.node)).map Prod.fst =
      s.fieldNames.filter fun name => !(s.elidedNames.contains name && (t.held name).isEmpty) := by
  induction t with
  | @field own presence s rest value more ihValue ihMore =>
    obtain ⟨_, hrest, hfresh⟩ := Shape.isRecord_field.mp hrecord
    obtain ⟨hown, hoptional⟩ := List.forall_mem_cons.mp hoptional
    -- No later field has the same name, so that each name is decided on by its own field.
    have hothers : ∀ name ∈ rest.fieldNames,
        (!((Shape.field own presence s rest).elidedNames.contains name &&
          ((@field own presence s rest value more).held name).isEmpty)) =
        !(rest.elidedNames.contains name && (more.held name).isEmpty) := by
      intro name hname
      have hne : own ≠ name := fun h => hfresh (h ▸ hname)
      rw [held_other hne]
      simp [Shape.mem_elidedNames_field, hne.symm]
    have hunelided : own ∉ rest.elidedNames := fun h => hfresh (rest.elidedNames_subset h)
    change _ = List.filter _ (own :: rest.fieldNames)
    rw [Decode.members_field, List.map_append, ihMore hrest hoptional, List.filter_cons,
      List.filter_congr hothers, held_own]
    by_cases helided : presence = .elided
    · rw [isVoid_eq_isEmpty value (hown helided)]
      cases hvoid : value.roots.isEmpty <;>
        simp [Shape.mem_elidedNames_field, helided]
    · simp [Shape.mem_elidedNames_field, helided, hunelided]
  | done => rfl
  | _ => cases hrecord

end Tree

/-- The members of a node that stand for its fields. -/
def fieldMembers (members : List (String × Json)) : List String :=
  (members.map Prod.fst).filter fun name => name ≠ "kind" ∧ name ≠ "position"

theorem fieldMembers_nodeMembers {k : Kind} (fields : Tree k.shape) (mark : Mark k.place) :
    fieldMembers (Decode.nodeMembers k fields mark) =
      (Encode.members k.shape (fields.fold Encode.node)).map Prod.fst := by
  have htag : fieldMembers (Encode.tagMembers k) = [] := by
    unfold Encode.tagMembers
    split <;> simp [fieldMembers]
  have hmark : fieldMembers (Encode.markMembers mark) = [] := by
    cases mark <;> simp [fieldMembers, Encode.markMembers]
  have hfields : ∀ name ∈ (Encode.members k.shape (fields.fold Encode.node)).map Prod.fst,
      decide (name ≠ "kind" ∧ name ≠ "position") = true := by
    intro name hname
    obtain ⟨m, hm, rfl⟩ := List.mem_map.mp hname
    have hmem : m.1 ∈ k.fields := k.fields_eq_fieldNames ▸ Decode.name_mem_of_mem_members hm
    have htag : m.1 ≠ "kind" := fun h => k.kind_not_mem (h ▸ hmem)
    have hmark : m.1 ≠ "position" := fun h => k.position_not_mem (h ▸ hmem)
    exact decide_eq_true ⟨htag, hmark⟩
  unfold fieldMembers at htag hmark ⊢
  rw [Decode.nodeMembers, List.map_append, List.map_append, List.filter_append,
    List.filter_append, htag, hmark, List.nil_append, List.append_nil,
    List.filter_eq_self.mpr hfields]

namespace Node

variable {f : Family}

/-- The nodes in the field of that name, if there is one. -/
def held (t : Node f) (name : String) : List AnyNode :=
  match t with
  | .node _ fields _ => fields.held name

/-- The catalogue has, for the kind of a node, the names of the fields in its document, in their
order, but for those that only some dialects have and that hold nothing; the name of the kind, if
it is written; and the order of the children. -/
theorem catalogued (t : Node f) (hoperator : t.kind.isOperator = false) :
    ∃ members, t.toJson = .obj members ∧
      fieldMembers members = t.kind.fields.filter (fun name =>
        !(t.kind.omissible.contains name && (t.held name).isEmpty)) ∧
      Decode.named "kind" members = (if f.isTagged then [.str t.kind.name] else []) ∧
      t.children = t.kind.fields.flatMap t.held := by
  cases t with
  | node k fields mark =>
    refine ⟨Decode.nodeMembers k fields mark, Decode.document_node hoperator, ?_, ?_, ?_⟩
    · rw [fieldMembers_nodeMembers,
        Tree.map_fst_members fields k.isRecord_shape k.isOptional_of_elided, k.elidedNames_shape,
        ← k.fields_eq_fieldNames]
      rfl
    · rw [Decode.named_kind]
      cases htagged : k.place.isTagged with
      | true => simp [Kind.word_eq_name htagged, kind]
      | false => simp
    · rw [children_eq_roots, ← Tree.flatMap_held fields k.isRecord_shape, ← k.fields_eq_fieldNames]
      rfl

/-- The expression `f(x, **options)`, in a dialect in which the options have a field. -/
def spreadCall : Node .expr :=
  .of .call (Expr.name "f", [Expr.name "x"], [], none, some (Expr.name "options"), ())

theorem spreadCall_catalogued :
    spreadCall.kind.isOperator = false ∧
    ∃ members, spreadCall.toJson = .obj members ∧
      fieldMembers members = ["func", "args", "keywords", "kwargs"] ∧
      Decode.named "kind" members = [.str "Call"] ∧
      spreadCall.children =
        [⟨.expr, Expr.name "f"⟩, ⟨.expr, Expr.name "x"⟩, ⟨.expr, Expr.name "options"⟩] :=
  ⟨rfl, catalogued spreadCall rfl⟩

end Node

end Unparse
