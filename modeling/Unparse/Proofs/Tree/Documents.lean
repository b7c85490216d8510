import Unparse.Proofs.Tree.Scalars

/-! The documents of trees. Whatever is written for a tree is read back as that tree, if it does
not nest too deep. -/
namespace Unparse

namespace Json

theorem depth_lt_arr {items : List Json} {j : Json} (h : j ∈ items) :
    j.depth < (arr items).depth := by
  rw [depth, Nat.lt_succ_iff]
  induction items with
  | nil => cases h
  | cons item more ih =>
    rw [depthItems]
    rcases List.mem_cons.mp h with rfl | h
    · exact Nat.le_max_left ..
    · exact Nat.le_trans (ih h) (Nat.le_max_right ..)

theorem depth_lt_obj {members : List (String × Json)} {name : String} {j : Json}
    (h : (name, j) ∈ members) : j.depth < (obj members).depth := by
  rw [depth, Nat.lt_succ_iff]
  induction members with
  | nil => cases h
  | cons member more ih =>
    rw [depthMembers]
    rcases List.mem_cons.mp h with rfl | h
    · exact Nat.le_max_left ..
    · exact Nat.le_trans (ih h) (Nat.le_max_right ..)

end Json

namespace Decode

/-- One level down there is room for what nests less deep. -/
theorem Mode.enter_of_admits {mode : Mode} {j : Json} (h : mode.admits j = true)
    (hj : 0 < j.depth) :
    ∃ inner, mode.enter = some inner ∧
      ∀ i : Json, i.depth < j.depth → inner.admits i = true := by
  cases mode with
  | buffered => exact ⟨.buffered, rfl, fun _ _ => rfl⟩
  | direct room =>
    have hroom : j.depth ≤ room := of_decide_eq_true h
    cases room with
    | zero => omega
    | succ room =>
      refine ⟨.direct room, rfl, fun i hi => decide_eq_true ?_⟩
      omega

theorem Mode.admits_of_depth_le {mode : Mode} {i j : Json} (h : mode.admits j = true)
    (hij : i.depth ≤ j.depth) : mode.admits i = true := by
  cases mode with
  | buffered => rfl
  | direct room =>
    have hroom : j.depth ≤ room := of_decide_eq_true h
    exact decide_eq_true (Nat.le_trans hij hroom)

theorem readers_eq (items : List Json) : readers items = items.map reader := by
  induction items with
  | nil => rfl
  | cons item more ih => rw [readers, ih, List.map_cons]

theorem memberReaders_eq (members : List (String × Json)) :
    memberReaders members = members.map fun m => (m.1, reader m.2) := by
  induction members with
  | nil => rfl
  | cons member more ih =>
    obtain ⟨name, j⟩ := member
    rw [memberReaders, ih, List.map_cons, memberReader]

section Named

variable {A B : Type} {name : String}

theorem named_append (as bs : List (String × A)) :
    named name (as ++ bs) = named name as ++ named name bs := by
  simp [named]

theorem named_eq_nil {members : List (String × A)} (h : name ∉ members.map Prod.fst) :
    named name members = [] := by
  simp only [named, List.map_eq_nil_iff, List.filter_eq_nil_iff, beq_iff_eq]
  rintro m hm rfl
  exact h (List.mem_map_of_mem hm)

theorem named_map (g : A → B) (members : List (String × A)) :
    named name (members.map fun m => (m.1, g m.2)) = (named name members).map g := by
  induction members with
  | nil => rfl
  | cons m more ih =>
    by_cases h : m.1 = name <;> simp_all [named]

theorem mem_of_named {members : List (String × A)} {a : A} (h : a ∈ named name members) :
    (name, a) ∈ members := by
  simp only [named, List.mem_map, List.mem_filter, beq_iff_eq] at h
  obtain ⟨m, ⟨hm, rfl⟩, rfl⟩ := h
  exact hm

end Named

end Decode

/-- The document of a tree; a record has none of its own. -/
def Tree.document {s : Shape} (t : Tree s) : Json :=
  Encode.value s (t.fold Encode.node)

namespace Shape

/-- The shapes whose documents are never `null`. -/
def isSolid : Shape → Bool
  | node _ | scalar _ | list _ => true
  | _ => false

/-- The shapes that have documents: no record is inside of them, and no option in an option. -/
def isLegible : Shape → Bool
  | node _ | scalar _ => true
  | option s => s.isSolid && s.isLegible
  | list s => s.isLegible
  | _ => false

/-- The records all of whose fields have documents, and no two of them the same name. -/
def isRecord : Shape → Bool
  | done => true
  | field name _ s rest => s.isLegible && rest.isRecord && !rest.fieldNames.contains name
  | _ => false

end Shape

namespace Kind

theorem isRecord_shape (k : Kind) : k.shape.isRecord = true := by
  cases k <;> decide

/-- Among the kinds that may take its place, a kind is known by its word. -/
theorem find?_word (k : Kind) : (inPlace k.place).find? (·.word == k.word) = some k := by
  cases k <;> decide

/-- The catalogue names the fields of the layout. -/
theorem fields_eq_fieldNames (k : Kind) : k.fields = k.shape.fieldNames := by
  cases k <;> rfl

theorem head?_inPlace {k : Kind} : k.isOperator = false → k.place.isTagged = false →
    (inPlace k.place).head? = some k := by
  cases k <;> decide

theorem kind_not_mem (k : Kind) : "kind" ∉ k.fields := by
  cases k <;> decide

theorem position_not_mem (k : Kind) : "position" ∉ k.fields := by
  cases k <;> decide

end Kind

namespace Tree

/-- Whoever looks for a tree of its shape in the document finds this one. -/
def Described {s : Shape} (t : Tree s) (j : Json) : Prop :=
  ∀ mode, mode.admits j = true → Decode.reader j mode s = some t

/-- A record is found among members that have, under its names, what is written for it. -/
def Restored {s : Shape} (t : Tree s) : Prop :=
  ∀ (mode : Decode.Mode) (members : List (String × Json)),
    (∀ name ∈ s.fieldNames, Decode.named name members =
      Decode.named name (Encode.members s (t.fold Encode.node))) →
    (∀ m ∈ members, mode.admits m.2 = true) →
    Decode.record? mode (Decode.memberReaders members) s = some t

end Tree

namespace Decode

theorem default?_of_isVoid {s : Shape} (t : Tree s)
    (h : Encode.isVoid s (t.fold Encode.node) = true) : default? s = some t := by
  cases t with
  | absent => rfl
  | nil => rfl
  | node k fields mark => cases h
  | scalar value => cases h
  | present content => cases h
  | cons head tail => cases h
  | done => cases h
  | field value more => cases h

theorem name_mem_of_mem_members {s : Shape} {docs : Encode.Documents s} {m : String × Json}
    (h : m ∈ Encode.members s docs) : m.1 ∈ s.fieldNames := by
  induction s with
  | field name presence s rest _ ih =>
    change m.1 ∈ name :: rest.fieldNames
    simp only [Encode.members] at h
    split at h
    · exact List.mem_cons_of_mem _ (ih h)
    · rcases List.mem_cons.mp h with rfl | h
      · exact List.mem_cons_self ..
      · exact List.mem_cons_of_mem _ (ih h)
  | node f => cases h
  | scalar a => cases h
  | option s => cases h
  | list s => cases h
  | done => cases h

section Field

variable {name : String} {presence : Presence} {s rest : Shape} {value : Tree s} {more : Tree rest}

theorem members_field :
    Encode.members (.field name presence s rest)
        ((Tree.field value more : Tree (.field name presence s rest)).fold Encode.node) =
      (if presence = .elided ∧ Encode.isVoid s (value.fold Encode.node) then []
        else [(name, value.document)]) ++ Encode.members rest (more.fold Encode.node) := by
  change (if presence = .elided ∧ Encode.isVoid s (value.fold Encode.node) then _ else _) = _
  split <;> rfl

theorem field_restored (hfresh : name ∉ rest.fieldNames) (hvalue : value.Described value.document)
    (hmore : more.Restored) :
    (Tree.field value more : Tree (.field name presence s rest)).Restored := by
  intro mode members hnames hadmits
  have hother (n : String) (hn : n ≠ name) :
      named n (if presence = .elided ∧ Encode.isVoid s (value.fold Encode.node) then []
        else [(name, value.document)]) = [] := by
    apply named_eq_nil
    split <;> simp [hn]
  have hlater : ∀ n ∈ rest.fieldNames, named n members =
      named n (Encode.members rest (more.fold Encode.node)) := by
    intro n hn
    have hne : n ≠ name := fun h => hfresh (h ▸ hn)
    rw [hnames n (List.mem_cons_of_mem _ hn), members_field, named_append, hother n hne,
      List.nil_append]
  have hrest := hmore mode members hlater hadmits
  have hown : named name (Encode.members rest (more.fold Encode.node)) = [] := by
    apply named_eq_nil
    intro h
    obtain ⟨m, hm, rfl⟩ := List.mem_map.mp h
    exact hfresh (name_mem_of_mem_members hm)
  have hhere := hnames name (List.mem_cons_self ..)
  rw [members_field, named_append, hown, List.append_nil] at hhere
  rw [record?, memberReaders_eq, named_map, hhere, ← memberReaders_eq, hrest]
  by_cases hvoid : presence = .elided ∧ Encode.isVoid s (value.fold Encode.node) = true
  · obtain ⟨rfl, hvoid⟩ := hvoid
    simp [hvoid, named, missing?, default?_of_isVoid value hvoid]
  · rw [if_neg hvoid] at hhere ⊢
    have hmem : (name, value.document) ∈ members := mem_of_named (by rw [hhere]; simp [named])
    simp [named, hvalue mode (hadmits _ hmem)]

end Field

section Shapes

variable {s : Shape} {mode : Mode} {j : Json}

theorem reader_scalar (a : Scalar) :
    reader j mode (.scalar a) = (scalar? mode a j).map Tree.scalar := by
  cases j <;> simp only [reader, Source.read]

theorem reader_null (s : Shape) : reader .null mode (.option s) = some .absent := by
  simp only [reader, Source.read]

theorem reader_option (hj : j ≠ .null) :
    reader j mode (.option s) = (reader j mode s).map Tree.present := by
  cases j <;> simp_all only [reader, Source.read, ne_eq, not_true_eq_false]

theorem reader_list {items : List Json} :
    reader (.arr items) mode (.list s) =
      mode.enter.bind fun inner => Source.list? inner s (items.map reader) := by
  simp only [reader, Source.read, readers_eq]

theorem scalar_described {a : Scalar} (v : a.Carrier) :
    (Tree.scalar v : Tree (.scalar a)).Described (Tree.scalar v : Tree (.scalar a)).document := by
  intro mode _
  rw [reader_scalar]
  change (scalar? mode a (Encode.scalar a v)).map Tree.scalar = _
  rw [scalar?_scalar]
  rfl

theorem integer_ne_null (i : Int) : Encode.integer i ≠ .null := by
  unfold Encode.integer
  split <;> simp

theorem document_ne_null (t : Tree s) (hs : s.isSolid = true) : t.document ≠ .null := by
  cases t with
  | node k fields mark =>
    change Encode.node k _ mark ≠ _
    unfold Encode.node
    split <;> simp
  | @scalar a value =>
    change Encode.scalar a value ≠ _
    cases a with
    | number =>
      cases value with
      | int i => exact integer_ne_null i
      | float x => simp [Encode.scalar, Encode.number]
      | complex real imag => simp [Encode.scalar, Encode.number, Encode.complex]
    | constant => cases value <;> simp [Encode.scalar, Encode.constant]
    | _ => simp [Encode.scalar, Encode.byte]
  | nil => simp [Tree.document, Encode.value]
  | cons head tail => simp [Tree.document, Encode.value]
  | absent => cases hs
  | present content => cases hs
  | done => cases hs
  | field value more => cases hs

theorem present_described {content : Tree s} (hs : s.isSolid = true)
    (h : content.Described content.document) :
    (Tree.present content).Described (Tree.present content).document := by
  intro mode hmode
  change reader content.document mode (.option s) = _
  rw [reader_option (document_ne_null content hs), h mode hmode]
  rfl

theorem nil_described :
    (Tree.nil : Tree (.list s)).Described (Tree.nil : Tree (.list s)).document := by
  intro mode hmode
  obtain ⟨inner, henter, -⟩ := Mode.enter_of_admits hmode (Nat.succ_pos _)
  change reader (.arr []) mode (.list s) = _
  rw [reader_list, henter]
  rfl

theorem cons_described {head : Tree s} {tail : Tree (.list s)}
    (hhead : head.Described head.document) (htail : tail.Described tail.document) :
    (Tree.cons head tail).Described (Tree.cons head tail).document := by
  intro mode hmode
  let items : List Json := (tail.fold Encode.node).map (Encode.value s)
  change mode.admits (.arr (head.document :: items)) = true at hmode
  have hshorter : mode.admits (.arr items) = true := by
    apply Mode.admits_of_depth_le hmode
    simp only [Json.depth, Json.depthItems]
    omega
  have hitems : reader (.arr items) mode (.list s) = some tail := htail mode hshorter
  obtain ⟨inner, henter, hinner⟩ := Mode.enter_of_admits hmode (Nat.succ_pos _)
  have hfirst := hhead inner (hinner _ (Json.depth_lt_arr (List.mem_cons_self ..)))
  rw [reader_list, henter, Option.bind_some] at hitems
  change reader (.arr (head.document :: items)) mode (.list s) = _
  rw [reader_list, henter, Option.bind_some]
  change (do some (Tree.cons (← reader head.document inner s)
    (← Source.list? inner s (items.map reader)))) = _
  rw [hfirst, hitems]
  rfl

end Shapes

section Nodes

variable {k : Kind} {fields : Tree k.shape} {mark : Mark k.place}

theorem node?_position :
    node? k.place k fields mark.position? = some (.node k fields mark) := by
  have hmark : Mark.ofPosition k.place mark.position? = mark := by
    match mark with
    | .none => rfl
    | .at p h => simp [Mark.position?, Mark.ofPosition, h]
  simp [node?, hmark]

theorem position?_position (p : Position) : position? (Encode.position p) = some (some p) := by
  have hline : only? "lineno" [("lineno", Json.int p.line.toNat),
    ("col_offset", Json.int p.column.toNat)] = some (.int p.line.toNat) := rfl
  have hcolumn : only? "col_offset" [("lineno", Json.int p.line.toNat),
    ("col_offset", Json.int p.column.toNat)] = some (.int p.column.toNat) := rfl
  simp [Encode.position, position?, hline, hcolumn, word?_toNat]

/-- The members of a node: its tag, its fields, its position. -/
def nodeMembers (k : Kind) (fields : Tree k.shape) (mark : Mark k.place) : List (String × Json) :=
  Encode.tagMembers k ++ Encode.members k.shape (fields.fold Encode.node) ++
    Encode.markMembers mark

theorem named_field {name : String} (h : name ∈ k.fields) :
    named name (nodeMembers k fields mark) =
      named name (Encode.members k.shape (fields.fold Encode.node)) := by
  have htag : named name (Encode.tagMembers k) = [] := by
    apply named_eq_nil
    unfold Encode.tagMembers
    split
    next =>
      simp only [List.map_cons, List.map_nil, List.mem_singleton]
      rintro rfl
      exact k.kind_not_mem h
    next => simp
  have hmark : named name (Encode.markMembers mark) = [] := by
    apply named_eq_nil
    match mark with
    | .none => simp [Encode.markMembers]
    | .at p _ =>
      simp only [Encode.markMembers, List.map_cons, List.map_nil, List.mem_singleton]
      rintro rfl
      exact k.position_not_mem h
  rw [nodeMembers, named_append, named_append, htag, hmark, List.nil_append, List.append_nil]

theorem named_members_of_not_mem {name : String} (h : name ∉ k.fields) :
    named name (Encode.members k.shape (fields.fold Encode.node)) = [] := by
  apply named_eq_nil
  intro hname
  obtain ⟨m, hm, rfl⟩ := List.mem_map.mp hname
  rw [k.fields_eq_fieldNames] at h
  exact h (name_mem_of_mem_members hm)

theorem named_position :
    named "position" (nodeMembers k fields mark) =
      mark.position?.toList.map Encode.position := by
  have htag : named "position" (Encode.tagMembers k) = [] := by
    apply named_eq_nil
    unfold Encode.tagMembers
    split <;> simp
  rw [nodeMembers, named_append, named_append, htag, named_members_of_not_mem k.position_not_mem]
  match mark with
  | .none => rfl
  | .at p _ => rfl

theorem named_kind :
    named "kind" (nodeMembers k fields mark) =
      if k.place.isTagged then [.str k.word] else [] := by
  have hmark : named "kind" (Encode.markMembers mark) = [] := by
    match mark with
    | .none => rfl
    | .at p _ => rfl
  rw [nodeMembers, named_append, named_append, hmark, named_members_of_not_mem k.kind_not_mem,
    List.append_nil, List.append_nil, Encode.tagMembers]
  split <;> rfl

theorem only?_kind (h : k.place.isTagged = true) :
    only? "kind" (nodeMembers k fields mark) = some (.str k.word) := by
  unfold only?
  rw [named_kind, if_pos h]

/-- A node is read back from its members. -/
theorem object?_nodeMembers (hfields : fields.Restored) {mode : Mode}
    (hmode : ∀ m ∈ nodeMembers k fields mark, mode.admits m.2 = true) :
    Source.object? ⟨.obj (nodeMembers k fields mark), [],
      memberReaders (nodeMembers k fields mark)⟩ mode k.place k = some (.node k fields mark) := by
  have hnames : ∀ name ∈ k.shape.fieldNames, named name (nodeMembers k fields mark) =
      named name (Encode.members k.shape (fields.fold Encode.node)) := by
    rw [← k.fields_eq_fieldNames]
    exact fun name => named_field
  have hrecord := hfields mode (nodeMembers k fields mark) hnames hmode
  have hnode : node? k.place k fields mark.position? = some (.node k fields mark) :=
    node?_position
  unfold Source.object?
  simp only [hrecord, named_position, Option.bind_eq_bind, Option.bind_some]
  match mark with
  | .none => cases k.place.isPositioned <;> exact hnode
  | .at p h => simpa [h, Mark.position?, position?_position] using hnode

theorem operator_described (hoperator : k.isOperator = true) (hfields : fields.Restored) :
    (Tree.node k fields mark).Described (Tree.node k fields mark).document := by
  intro mode _
  have hdocument : (Tree.node k fields mark).document = .str k.word := by
    change Encode.node k _ mark = _
    rw [Encode.node, if_pos hoperator]
  have hnone (name : String) : name ∉ k.shape.fieldNames := by
    rw [Kind.shape_of_isOperator hoperator]
    exact List.not_mem_nil
  have hrecord : record? mode [] k.shape = some fields :=
    hfields mode [] (fun name h => (hnone name h).elim) (by simp)
  have hmark : mark.position? = none := congrArg Mark.position? (mark.eq_none hoperator)
  have hnode : node? k.place k fields mark.position? = some (.node k fields mark) :=
    node?_position
  rw [hmark] at hnode
  rw [hdocument]
  change Source.family? ⟨.str k.word, [], []⟩ mode k.place = _
  rw [Source.family?, k.isOperator_place, if_pos hoperator]
  simp [Source.operator?, bareName?, k.find?_word, hrecord, hnode]

theorem document_node (hoperator : k.isOperator = false) :
    (Tree.node k fields mark).document = .obj (nodeMembers k fields mark) := by
  change Encode.node k _ mark = _
  rw [Encode.node, hoperator]
  rfl

theorem tagged_described (hoperator : k.isOperator = false) (htagged : k.place.isTagged = true)
    (hfields : fields.Restored) :
    (Tree.node k fields mark).Described (Tree.node k fields mark).document := by
  intro mode hmode
  rw [document_node hoperator] at hmode ⊢
  have htag : tag? mode k.place (.str k.word) = some k := k.find?_word
  rw [reader]
  change Source.family? _ mode k.place = _
  rw [Source.family?, k.isOperator_place, hoperator, if_neg Bool.false_ne_true, if_pos htagged,
    Source.tagged?, if_pos hmode]
  change ((only? "kind" (nodeMembers k fields mark)).bind fun tag =>
    (tag? mode k.place tag).bind _) = _
  rw [only?_kind htagged, Option.bind_some, htag, Option.bind_some]
  exact object?_nodeMembers hfields fun _ _ => rfl

theorem plain_described (hoperator : k.isOperator = false) (htagged : k.place.isTagged = false)
    (hfields : fields.Restored) :
    (Tree.node k fields mark).Described (Tree.node k fields mark).document := by
  intro mode hmode
  rw [document_node hoperator] at hmode ⊢
  obtain ⟨inner, henter, hinner⟩ := Mode.enter_of_admits hmode (Nat.succ_pos _)
  rw [reader]
  change Source.family? _ mode k.place = _
  rw [Source.family?, k.isOperator_place, hoperator, if_neg Bool.false_ne_true, htagged,
    if_neg Bool.false_ne_true, Source.plain?, henter, Kind.head?_inPlace hoperator htagged]
  exact object?_nodeMembers hfields fun m hm => hinner m.2 (Json.depth_lt_obj hm)

theorem node_described (hfields : fields.Restored) :
    (Tree.node k fields mark).Described (Tree.node k fields mark).document := by
  cases hoperator : k.isOperator with
  | true => exact operator_described hoperator hfields
  | false =>
    cases htagged : k.place.isTagged with
    | true => exact tagged_described hoperator htagged hfields
    | false => exact plain_described hoperator htagged hfields

end Nodes

end Decode

namespace Tree

/-- What is written for a tree is read back as that tree, and a record out of its members. -/
theorem described_and_restored {s : Shape} (t : Tree s) :
    (s.isLegible = true → t.Described t.document) ∧ (s.isRecord = true → t.Restored) := by
  induction t with
  | node k fields mark ih =>
    exact ⟨fun _ => Decode.node_described (ih.2 k.isRecord_shape), nofun⟩
  | scalar value => exact ⟨fun _ => Decode.scalar_described value, nofun⟩
  | absent => exact ⟨fun _ mode _ => Decode.reader_null _, nofun⟩
  | present content ih =>
    refine ⟨fun h => ?_, nofun⟩
    obtain ⟨hsolid, hlegible⟩ := Bool.and_eq_true_iff.mp h
    exact Decode.present_described hsolid (ih.1 hlegible)
  | nil => exact ⟨fun _ => Decode.nil_described, nofun⟩
  | cons head tail hhead htail =>
    exact ⟨fun h => Decode.cons_described (hhead.1 h) (htail.1 h), nofun⟩
  | done => exact ⟨nofun, fun _ _ _ _ _ => rfl⟩
  | field value more hvalue hmore =>
    refine ⟨nofun, fun h => ?_⟩
    simp only [Shape.isRecord, Bool.and_eq_true, Bool.not_eq_true', List.contains_eq_mem,
      decide_eq_false_iff_not] at h
    obtain ⟨⟨hlegible, hrest⟩, hfresh⟩ := h
    exact Decode.field_restored hfresh (hvalue.1 hlegible) (hmore.2 hrest)

end Tree

/-- A document of a node that does not nest too deep describes that node. -/
theorem Node.ofJson?_toJson {f : Family} (t : Node f) (h : t.toJson.depth ≤ Decode.deepest) :
    Node.ofJson? f t.toJson = some t :=
  (Tree.described_and_restored t).1 rfl _ (decide_eq_true h)

end Unparse
