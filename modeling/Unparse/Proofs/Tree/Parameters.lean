import Unparse.Proofs.Tree.Erase

/-! Parameter lists as records. The defaults of a parameter list are kept apart from its
parameters: those of the positional parameters belong to the last of them, and those of the
keyword-only parameters are either all recorded, also where there is none, or not at all. -/
namespace Unparse

open List Render

/-- The name and the type of a parameter. -/
def Kind.declared : (k : Kind) → Value Node k.shape → String × Option (Node .expr)
  | .arg, (name, type, _) => (name, type)
  | _, _ => ("", none)

namespace Node

def declared {f : Family} : Node f → String × Option (Node .expr)
  | .node k fields _ => k.declared fields.values

theorem exists_kind {f : Family} (t : Node f) :
    ∃ (k : Kind) (h : k.place = f) (fields : Tree k.shape) (mark : Mark k.place),
      t = h ▸ Tree.node k fields mark := by
  cases t with
  | node k fields mark => exact ⟨k, rfl, fields, mark, rfl⟩

theorem exists_eq_arg (a : Node .arg) :
    ∃ (fields : Tree Kind.arg.shape) (mark : Mark .arg), a = Tree.node .arg fields mark := by
  obtain ⟨k, h, fields, mark, rfl⟩ := exists_kind a
  obtain rfl : k = .arg := by cases k <;> first | rfl | cases h
  exact ⟨fields, mark, rfl⟩

theorem view_arg (a : Node .arg) :
    view a = Parameters.arg a.declared.1 (a.declared.2.map fun e : Node .expr => view e) := by
  obtain ⟨fields, mark, rfl⟩ := exists_eq_arg a
  exact view_node .arg fields mark

theorem erase_arg (a : Node .arg) : a.erase =
    Node.of .arg (a.declared.1, a.declared.2.map fun e : Node .expr => Tree.erase e, ()) := by
  obtain ⟨fields, mark, rfl⟩ := exists_eq_arg a
  exact erase_node .arg fields mark

end Node

/-- What a parameter list holds. -/
structure ParameterList where
  posonly : List (Node .arg)
  args : List (Node .arg)
  vararg : Option (Node .arg)
  kwonly : List (Node .arg)
  kwDefaults : List (Option (Node .expr))
  kwarg : Option (Node .arg)
  defaults : List (Node .expr)

namespace ParameterList

def node (a : ParameterList) (mark : Mark .arguments) : Node .arguments :=
  Node.marked .arguments
    (a.posonly, a.args, a.vararg, a.kwonly, a.kwDefaults, a.kwarg, a.defaults, ()) mark

theorem exists_eq_node (t : Node .arguments) :
    ∃ (a : ParameterList) (mark : Mark .arguments), t = a.node mark := by
  obtain ⟨k, h, fields, mark, rfl⟩ := Node.exists_kind t
  obtain rfl : k = .arguments := by cases k <;> first | rfl | cases h
  obtain ⟨fields, rfl⟩ : ∃ v, fields = Tree.ofValue _ v := ⟨_, (Tree.ofValue_values fields).symm⟩
  obtain ⟨posonly, args, vararg, kwonly, kwDefaults, kwarg, defaults, _⟩ := fields
  exact ⟨⟨posonly, args, vararg, kwonly, kwDefaults, kwarg, defaults⟩, mark, rfl⟩

theorem view_node (a : ParameterList) (mark : Mark .arguments) :
    view (a.node mark) = Parameters.arguments (a.posonly.map fun p : Node .arg => view p)
      (a.args.map fun p : Node .arg => view p) (a.vararg.map fun p : Node .arg => view p)
      (a.kwonly.map fun p : Node .arg => view p)
      (a.kwDefaults.map (Option.map fun e : Node .expr => view e))
      (a.kwarg.map fun p : Node .arg => view p) (a.defaults.map fun e : Node .expr => view e) :=
  Node.view_marked .arguments _ mark

/-- The parameter list without positions. -/
def erased (a : ParameterList) : ParameterList where
  posonly := a.posonly.map fun p : Node .arg => Tree.erase p
  args := a.args.map fun p : Node .arg => Tree.erase p
  vararg := a.vararg.map fun p : Node .arg => Tree.erase p
  kwonly := a.kwonly.map fun p : Node .arg => Tree.erase p
  kwDefaults := a.kwDefaults.map (Option.map fun e : Node .expr => Tree.erase e)
  kwarg := a.kwarg.map fun p : Node .arg => Tree.erase p
  defaults := a.defaults.map fun e : Node .expr => Tree.erase e

theorem erase_node (a : ParameterList) (mark : Mark .arguments) :
    (a.node mark).erase = a.erased.node .none :=
  Node.erase_marked .arguments _ mark

def positional (a : ParameterList) : List (Node .arg) :=
  a.posonly ++ a.args

/-- The defaults of the positional parameters, one place for each. -/
def positionalDefaults (a : ParameterList) : List (Option (Node .expr)) :=
  replicate (a.positional.length - a.defaults.length) none ++ a.defaults.map some

/-- The defaults of the keyword-only parameters, one place for each. -/
def keywordDefaults (a : ParameterList) : List (Option (Node .expr)) :=
  if a.kwDefaults.isEmpty then replicate a.kwonly.length none else a.kwDefaults

/-- The parameter list in which every keyword-only default is recorded. -/
def padded (a : ParameterList) : ParameterList :=
  { a with kwDefaults := a.keywordDefaults }

variable {a : ParameterList}

theorem length_positionalDefaults (h : a.defaults.length ≤ a.positional.length) :
    a.positionalDefaults.length = a.positional.length := by
  simp only [positionalDefaults, length_append, length_replicate, length_map]
  omega

theorem length_keywordDefaults (h : a.kwDefaults = [] ∨ a.kwDefaults.length = a.kwonly.length) :
    a.keywordDefaults.length = a.kwonly.length := by
  unfold keywordDefaults
  split
  · exact length_replicate
  · next hempty => exact h.resolve_left fun hnil => hempty (by rw [hnil]; rfl)

/-- Which default belongs to a positional parameter. -/
theorem of_positionalDefaults {i : Nat} {o : Option (Node .expr)}
    (h : a.positionalDefaults[i]? = some o) :
    (o.isSome ↔ a.positional.length - a.defaults.length ≤ i) ∧
      o = if a.positional.length - a.defaults.length ≤ i then
        a.defaults[i - (a.positional.length - a.defaults.length)]? else none := by
  rw [positionalDefaults, getElem?_append, length_replicate] at h
  split at h
  · next hi =>
    rw [getElem?_replicate, if_pos hi] at h
    obtain rfl := Option.some.inj h
    have hlt := Nat.not_le.mpr hi
    simp [hlt]
  · next hi =>
    have hle := Nat.not_lt.mp hi
    rw [getElem?_map] at h
    obtain ⟨e, he, rfl⟩ := Option.map_eq_some_iff.mp h
    simp [hle, he]

/-- Each keyword-only parameter has its own default. -/
theorem of_keywordDefaults {j : Nat} {o : Option (Node .expr)}
    (h : a.keywordDefaults[j]? = some o) : o = a.kwDefaults[j]?.join := by
  unfold keywordDefaults at h
  split at h
  · next hempty =>
    rw [List.isEmpty_iff.mp hempty]
    rw [getElem?_replicate] at h
    split at h
    · exact (Option.some.inj h).symm
    · cases h
  · rw [h]
    rfl

theorem mem_of_positionalDefaults {e : Node .expr} (h : some e ∈ a.positionalDefaults) :
    e ∈ a.defaults := by
  simpa [positionalDefaults] using h

theorem mem_of_keywordDefaults {e : Node .expr} (h : some e ∈ a.keywordDefaults) :
    some e ∈ a.kwDefaults := by
  unfold keywordDefaults at h
  split at h
  · cases eq_of_mem_replicate h
  · exact h

/-- The defaults can be told from the places that they take. -/
theorem filterMap_positionalDefaults (a : ParameterList) :
    a.positionalDefaults.filterMap (Option.map fun e : Node .expr => Tree.erase e) =
      a.erased.defaults := by
  rw [positionalDefaults, filterMap_append, filterMap_map]
  have hnone : (replicate (a.positional.length - a.defaults.length) none).filterMap
      (Option.map fun e : Node .expr => Tree.erase e) = [] := by simp
  rw [hnone, nil_append]
  exact congrFun filterMap_eq_map a.defaults

theorem alignDefaults_views (a : ParameterList) :
    Parameters.alignDefaults a.positional.length (a.defaults.map fun e : Node .expr => view e) =
      a.positionalDefaults.map (Option.map fun e : Node .expr => view e) := by
  simp [Parameters.alignDefaults, positionalDefaults]

theorem alignKeywordDefaults_views (a : ParameterList) :
    Parameters.alignKeywordDefaults a.kwonly.length
      (a.kwDefaults.map (Option.map fun e : Node .expr => view e)) =
      a.keywordDefaults.map (Option.map fun e : Node .expr => view e) := by
  unfold Parameters.alignKeywordDefaults keywordDefaults
  rw [isEmpty_map]
  split <;> simp

end ParameterList

end Unparse
