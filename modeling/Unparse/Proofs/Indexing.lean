import Mathlib.Data.List.Nodup
import Unparse.Grammar.Index

/-! The index of a dialect against the catalogue. The leaves of the index are the kinds that the
dialect has, each of them once. A search by name gives the first match among all items, each of
which is met before those below it; since no two items share a name, a name is found exactly if it
is that of the root, of an abstract family with a kind left, or of one of these kinds. -/
namespace Unparse

theorem Family.mem_all (f : Family) : f ∈ all := by
  cases f <;> decide

namespace Kind

theorem mem_all (k : Kind) : k ∈ all := by
  cases k <;> decide

/-- The catalogue lists the kinds in the order of their declaration. -/
theorem map_ctorIdx_all : all.map Kind.ctorIdx = List.range all.length := by
  decide

theorem nodup_all : all.Nodup :=
  List.Nodup.of_map Kind.ctorIdx (map_ctorIdx_all ▸ List.nodup_range)

theorem ofName?_name (k : Kind) : ofName? k.name = some k := by
  have hall : ∀ k ∈ all, ofName? k.name = some k := by decide +kernel
  exact hall k k.mem_all

theorem ofName?_eq_some_iff {name : String} {k : Kind} :
    ofName? name = some k ↔ k.name = name := by
  constructor
  · intro h
    simpa using List.find?_some h
  · rintro rfl
    exact ofName?_name k

theorem name_injective {k l : Kind} (h : k.name = l.name) : k = l := by
  have hk := ofName?_eq_some_iff.mpr h
  rw [ofName?_name] at hk
  exact (Option.some.inj hk).symm

/-- No kind is named like an abstract family. -/
theorem name_ne_of_isAbstract {f : Family} (hf : f.isAbstract = true) (k : Kind) :
    k.name ≠ f.name := by
  have hall : ∀ f ∈ Family.all, f.isAbstract = true → ofName? f.name = none := by decide +kernel
  have hnone := hall f f.mem_all hf
  intro h
  rw [← h, ofName?_name] at hnone
  cases hnone

theorem name_ne_root (k : Kind) : k.name ≠ "AST" := by
  have hnone : ofName? "AST" = none := by decide +kernel
  intro h
  rw [← h, ofName?_name] at hnone
  cases hnone

end Kind

namespace Family

theorem nodup_all : all.Nodup := by
  decide

theorem name_injective {f g : Family} (h : f.name = g.name) : f = g := by
  have hall : ∀ f ∈ all, ∀ g ∈ all, f.name = g.name → f = g := by decide +kernel
  exact hall f f.mem_all g g.mem_all h

theorem name_ne_root (f : Family) : f.name ≠ "AST" := by
  cases f <;> decide

theorem mem_kinds_iff {f : Family} {k : Kind} : k ∈ f.kinds ↔ k.family = f := by
  simp [kinds, k.mem_all]

/-- A family that is not abstract has one kind, of its own name. -/
theorem map_name_kinds {f : Family} (hf : f.isAbstract = false) :
    f.kinds.map Kind.name = [f.name] := by
  have hall : ∀ f ∈ all, f.isAbstract = false → f.kinds.map Kind.name = [f.name] := by
    decide +kernel
  exact hall f f.mem_all hf

end Family

namespace Index

namespace Item

mutual

/-- Every item of a tree, each one before those below it. -/
def preorder : Item → List Item
  | group name members => group name members :: preorderAmong members
  | leaf k => [leaf k]

def preorderAmong : List Item → List Item
  | [] => []
  | item :: more => item.preorder ++ preorderAmong more

end

theorem preorderAmong_eq (items : List Item) : preorderAmong items = items.flatMap preorder := by
  induction items with
  | nil => rfl
  | cons item more ih => rw [preorderAmong, ih, List.flatMap_cons]

mutual

/-- The search finds what stands first among all items. -/
theorem find?_eq (name : String) (item : Item) :
    item.find? name = item.preorder.find? (·.name == name) := by
  cases item with
  | group label members =>
    rw [find?, preorder, List.find?_cons, findAmong?_eq name members, Item.name]
    cases label == name <;> rfl
  | leaf k =>
    rw [find?, preorder, List.find?_singleton]
    rfl

theorem findAmong?_eq (name : String) (items : List Item) :
    findAmong? name items = (preorderAmong items).find? (·.name == name) := by
  cases items with
  | nil => rfl
  | cons item more =>
    rw [findAmong?, preorderAmong, List.find?_append, find?_eq name item, findAmong?_eq name more]

end

theorem leavesAmong_eq (items : List Item) : leavesAmong items = items.flatMap leaves := by
  induction items with
  | nil => rfl
  | cons item more ih => rw [leavesAmong, ih, List.flatMap_cons]

theorem flatMap_leaves_map_leaf (ks : List Kind) : (ks.map leaf).flatMap leaves = ks := by
  simp [List.flatMap_map, leaves]

end Item

variable {d : Dialect}

/-- The kinds of a family that the dialect has. -/
def members (d : Dialect) (f : Family) : List Kind :=
  f.kinds.filter d.supports

theorem mem_members_iff {f : Family} {k : Kind} :
    k ∈ members d f ↔ k.family = f ∧ d.supports k = true := by
  rw [members, List.mem_filter, Family.mem_kinds_iff]

theorem nodup_members {f : Family} : (members d f).Nodup :=
  (Kind.nodup_all.filter _).filter _

theorem mem_families_iff {f : Family} :
    f ∈ (build d).families ↔ ∃ k, k.family = f ∧ d.supports k = true := by
  simp [families, build, f.mem_all, Family.mem_kinds_iff]

theorem members_eq_nil_iff {f : Family} : members d f = [] ↔ f ∉ (build d).families := by
  rw [mem_families_iff, List.eq_nil_iff_forall_not_mem]
  simp [mem_members_iff]

theorem entries_of_members_eq_nil {f : Family} (h : members d f = []) : entries d f = [] := by
  rw [members] at h
  simp [entries, h]

theorem entries_of_isAbstract {f : Family} (hf : f.isAbstract = true)
    (hmembers : members d f ≠ []) : entries d f = [.group f.name ((members d f).map .leaf)] := by
  rw [members] at hmembers
  simp [entries, hf, hmembers, members]

theorem entries_of_not_isAbstract {f : Family} (hf : f.isAbstract = false) :
    entries d f = (members d f).map .leaf := by
  by_cases h : members d f = []
  · rw [entries_of_members_eq_nil h, h, List.map_nil]
  · rw [members] at h
    simp [entries, hf, h, members]

theorem flatMap_leaves_entries (f : Family) : (entries d f).flatMap Item.leaves = members d f := by
  by_cases hmembers : members d f = []
  · rw [entries_of_members_eq_nil hmembers, hmembers, List.flatMap_nil]
  · cases hf : f.isAbstract with
    | false => rw [entries_of_not_isAbstract hf, Item.flatMap_leaves_map_leaf]
    | true =>
      rw [entries_of_isAbstract hf hmembers, List.flatMap_singleton, Item.leaves,
        Item.leavesAmong_eq, Item.flatMap_leaves_map_leaf]

/-- The leaves come family by family. -/
theorem leaves_build : (build d).leaves = Family.all.flatMap (members d) := by
  rw [leaves, build, Item.leaves, Item.leavesAmong_eq, List.flatMap_assoc]
  exact List.flatMap_congr fun f _ => flatMap_leaves_entries f

theorem mem_leaves_iff {k : Kind} : k ∈ (build d).leaves ↔ d.supports k = true := by
  simp only [leaves_build, List.mem_flatMap, mem_members_iff]
  constructor
  · rintro ⟨f, -, -, hk⟩
    exact hk
  · intro hk
    exact ⟨k.family, k.family.mem_all, rfl, hk⟩

theorem nodup_leaves : (build d).leaves.Nodup := by
  rw [leaves_build, List.nodup_flatMap]
  refine ⟨fun f _ => nodup_members, Family.nodup_all.imp ?_⟩
  intro f g hne k hf hg
  exact hne ((mem_members_iff.mp hf).1.symm.trans (mem_members_iff.mp hg).1)

theorem filter_members {f g : Family} :
    (members d g).filter (·.family == f) = if g = f then members d f else [] := by
  split
  · next h =>
    subst h
    rw [List.filter_eq_self]
    intro k hk
    simpa using (mem_members_iff.mp hk).1
  · next h =>
    rw [List.filter_eq_nil_iff]
    intro k hk
    simpa [(mem_members_iff.mp hk).1] using h

/-- Of the kinds gathered over distinct families, those of one family are what it has itself. -/
theorem filter_flatMap_members {f : Family} {fs : List Family} (h : fs.Nodup) :
    (fs.flatMap (members d)).filter (·.family == f) = if f ∈ fs then members d f else [] := by
  induction fs with
  | nil => rfl
  | cons g fs ih =>
    obtain ⟨hg, hfs⟩ := List.nodup_cons.mp h
    rw [List.flatMap_cons, List.filter_append, ih hfs, filter_members]
    by_cases hf : g = f
    · subst hf
      simp [hg]
    · simp [hf, Ne.symm hf]

theorem leavesOf_build (f : Family) : (build d).leavesOf f = members d f := by
  rw [leavesOf, leaves_build, filter_flatMap_members Family.nodup_all, if_pos f.mem_all]

/-- What the dialect has: the root, the abstract families with a kind left, and the kinds. -/
inductive Has (d : Dialect) : Item → Prop where
  | root : Has d (build d).root
  | family {f : Family} (habstract : f.isAbstract = true) (hf : f ∈ (build d).families) :
    Has d (.group f.name ((members d f).map .leaf))
  | kind {k : Kind} (hk : d.supports k = true) : Has d (.leaf k)

/-- Below the root stand the abstract families, and the kinds of the others. -/
theorem mem_children_root_iff {item : Item} : item ∈ (build d).root.children ↔
    (∃ f, item = .group f.name ((members d f).map .leaf) ∧ f.isAbstract = true ∧
      f ∈ (build d).families) ∨
    ∃ k, item = .leaf k ∧ k.family.isAbstract = false ∧ d.supports k = true := by
  rw [build, Item.children, List.mem_flatMap]
  constructor
  · rintro ⟨f, -, hitem⟩
    by_cases hmembers : members d f = []
    · rw [entries_of_members_eq_nil hmembers] at hitem
      cases hitem
    · cases hf : f.isAbstract with
      | true =>
        rw [entries_of_isAbstract hf hmembers, List.mem_singleton] at hitem
        exact .inl ⟨f, hitem, hf, not_not.mp (mt members_eq_nil_iff.mpr hmembers)⟩
      | false =>
        rw [entries_of_not_isAbstract hf] at hitem
        obtain ⟨k, hk, rfl⟩ := List.mem_map.mp hitem
        obtain ⟨rfl, hsupports⟩ := mem_members_iff.mp hk
        exact .inr ⟨k, rfl, hf, hsupports⟩
  · rintro (⟨f, rfl, hf, hmem⟩ | ⟨k, rfl, hf, hk⟩)
    · refine ⟨f, f.mem_all, ?_⟩
      have hmembers : members d f ≠ [] := fun h => members_eq_nil_iff.mp h hmem
      rw [entries_of_isAbstract hf hmembers]
      exact List.mem_singleton_self _
    · refine ⟨k.family, k.family.mem_all, ?_⟩
      rw [entries_of_not_isAbstract hf]
      exact List.mem_map_of_mem (mem_members_iff.mpr ⟨rfl, hk⟩)

theorem map_name_entries (f : Family) :
    (entries d f).map Item.name = if f.kinds.any d.supports then [f.name] else [] := by
  split
  · next hany =>
    obtain ⟨k, hk, hsupports⟩ := List.any_eq_true.mp hany
    have hmember : k ∈ members d f := List.mem_filter.mpr ⟨hk, hsupports⟩
    cases hf : f.isAbstract with
    | true =>
      rw [entries_of_isAbstract hf (List.ne_nil_of_mem hmember)]
      rfl
    | false =>
      -- The kind found is the only one of its family.
      obtain ⟨l, hkinds, hname⟩ := List.map_eq_singleton_iff.mp (Family.map_name_kinds hf)
      obtain rfl : k = l := by simpa [hkinds] using hk
      rw [entries_of_not_isAbstract hf]
      simp [members, hkinds, hsupports, Item.name, hname]
  · next hany =>
    have hmembers : members d f = [] := by simpa [members] using hany
    rw [entries_of_members_eq_nil hmembers]
    rfl

/-- The entries below the root are named like the families, in their order. -/
theorem map_name_children_root :
    (build d).root.children.map Item.name = (build d).families.map Family.name := by
  have hnamed : ∀ fs : List Family, (fs.flatMap (entries d)).map Item.name =
      (fs.filter fun f => f.kinds.any d.supports).map Family.name := by
    intro fs
    induction fs with
    | nil => rfl
    | cons f more ih =>
      rw [List.flatMap_cons, List.map_append, ih, map_name_entries, List.filter_cons]
      split <;> rfl
  exact hnamed Family.all

theorem mem_preorder_root_iff {item : Item} :
    item ∈ (build d).root.preorder ↔ Has d item := by
  have hitems : item ∈ (build d).root.preorder ↔
      item = (build d).root ∨ ∃ entry ∈ (build d).root.children, item ∈ entry.preorder := by
    rw [build, Item.preorder, Item.preorderAmong_eq, List.mem_cons, List.mem_flatMap]
    rfl
  have hbelow {f : Family} : item ∈ Item.preorderAmong ((members d f).map .leaf) ↔
      ∃ k ∈ members d f, item = .leaf k := by
    rw [Item.preorderAmong_eq]
    simp [Item.preorder]
  rw [hitems]
  constructor
  · rintro (rfl | ⟨entry, hentry, hitem⟩)
    · exact .root
    · obtain ⟨f, rfl, hf, hmem⟩ | ⟨k, rfl, -, hk⟩ := mem_children_root_iff.mp hentry
      · rw [Item.preorder, List.mem_cons, hbelow] at hitem
        obtain rfl | ⟨k, hk, rfl⟩ := hitem
        · exact .family hf hmem
        · exact .kind (mem_members_iff.mp hk).2
      · rw [Item.preorder, List.mem_singleton] at hitem
        exact hitem ▸ .kind hk
  · intro h
    cases h with
    | root => exact .inl rfl
    | @family f hf hmem =>
      refine .inr ⟨_, mem_children_root_iff.mpr (.inl ⟨f, rfl, hf, hmem⟩), ?_⟩
      rw [Item.preorder]
      exact List.mem_cons_self
    | @kind k hk =>
      right
      -- A kind of an abstract family is found one level further down.
      cases hf : k.family.isAbstract with
      | false =>
        refine ⟨_, mem_children_root_iff.mpr (.inr ⟨k, rfl, hf, hk⟩), ?_⟩
        rw [Item.preorder]
        exact List.mem_singleton_self _
      | true =>
        have hmem : k.family ∈ (build d).families := mem_families_iff.mpr ⟨k, rfl, hk⟩
        refine ⟨_, mem_children_root_iff.mpr (.inl ⟨_, rfl, hf, hmem⟩), ?_⟩
        rw [Item.preorder, List.mem_cons, hbelow]
        exact .inr ⟨k, mem_members_iff.mpr ⟨rfl, hk⟩, rfl⟩

/-- No name shadows another. -/
theorem Has.eq_of_name_eq {item other : Item} (h : Has d item) (ho : Has d other)
    (hname : item.name = other.name) : item = other := by
  cases h with
  | root =>
    cases ho with
    | root => rfl
    | family _ _ => exact absurd hname.symm (Family.name_ne_root _)
    | kind _ => exact absurd hname.symm (Kind.name_ne_root _)
  | family hf _ =>
    cases ho with
    | root => exact absurd hname (Family.name_ne_root _)
    | family _ _ => rw [Family.name_injective hname]
    | kind _ => exact absurd hname.symm (Kind.name_ne_of_isAbstract hf _)
  | kind _ =>
    cases ho with
    | root => exact absurd hname (Kind.name_ne_root _)
    | family hf _ => exact absurd hname (Kind.name_ne_of_isAbstract hf _)
    | kind _ => rw [Kind.name_injective hname]

theorem lookup_eq_some_iff {name : String} {item : Item} :
    (build d).lookup name = some item ↔ Has d item ∧ item.name = name := by
  rw [lookup, Item.find?_eq]
  constructor
  · intro h
    exact ⟨mem_preorder_root_iff.mp (List.mem_of_find?_eq_some h), by
      simpa using List.find?_some h⟩
  · rintro ⟨hitem, rfl⟩
    have hsome : ((build d).root.preorder.find? (·.name == item.name)).isSome := by
      rw [List.find?_isSome]
      exact ⟨item, mem_preorder_root_iff.mpr hitem, by simp⟩
    obtain ⟨found, hfound⟩ := Option.isSome_iff_exists.mp hsome
    have hhas := mem_preorder_root_iff.mp (List.mem_of_find?_eq_some hfound)
    have hname : found.name = item.name := by simpa using List.find?_some hfound
    rw [hfound, hhas.eq_of_name_eq hitem hname]

theorem lookup_eq_leaf_iff {name : String} {k : Kind} :
    (build d).lookup name = some (.leaf k) ↔
      Kind.ofName? name = some k ∧ d.supports k = true := by
  rw [lookup_eq_some_iff, Kind.ofName?_eq_some_iff]
  constructor
  · rintro ⟨⟨⟩, hname⟩
    exact ⟨hname, ‹_›⟩
  · rintro ⟨hname, hk⟩
    exact ⟨.kind hk, hname⟩

theorem lookup_eq_group_iff {name label : String} {below : List Item} :
    (build d).lookup name = some (.group label below) ↔
      label = name ∧ ((name = "AST" ∧ below = (build d).root.children) ∨
        ∃ f : Family, f.name = name ∧ f.isAbstract = true ∧
          (∃ k, k.family = f ∧ d.supports k = true) ∧
          below = ((build d).leavesOf f).map .leaf) := by
  rw [lookup_eq_some_iff]
  constructor
  · rintro ⟨h, rfl⟩
    refine ⟨rfl, ?_⟩
    cases h with
    | root => exact .inl ⟨rfl, rfl⟩
    | @family f hf hmem =>
      exact .inr ⟨f, rfl, hf, mem_families_iff.mp hmem, by rw [leavesOf_build]⟩
  · rintro ⟨rfl, ⟨rfl, rfl⟩ | ⟨f, rfl, hf, hk, rfl⟩⟩
    · exact ⟨.root, rfl⟩
    · rw [leavesOf_build]
      exact ⟨.family hf (mem_families_iff.mpr hk), rfl⟩

theorem lookup_eq_none_iff {name : String} :
    (build d).lookup name = none ↔
      ¬ (name = "AST" ∨
        (∃ f : Family, f.name = name ∧ f.isAbstract = true ∧
          ∃ k, k.family = f ∧ d.supports k = true) ∨
        ∃ k, Kind.ofName? name = some k ∧ d.supports k = true) := by
  rw [← not_iff_not, not_not, ← ne_eq, Option.ne_none_iff_exists']
  constructor
  · rintro ⟨item, hitem⟩
    cases item with
    | leaf k => exact .inr (.inr ⟨k, lookup_eq_leaf_iff.mp hitem⟩)
    | group label below =>
      obtain ⟨-, ⟨hroot, -⟩ | ⟨f, hname, hf, hk, -⟩⟩ := lookup_eq_group_iff.mp hitem
      · exact .inl hroot
      · exact .inr (.inl ⟨f, hname, hf, hk⟩)
  · rintro (hroot | ⟨f, hname, hf, hk⟩ | ⟨k, hk⟩)
    · exact ⟨_, lookup_eq_group_iff.mpr ⟨rfl, .inl ⟨hroot, rfl⟩⟩⟩
    · exact ⟨_, lookup_eq_group_iff.mpr ⟨rfl, .inr ⟨f, hname, hf, hk, rfl⟩⟩⟩
    · exact ⟨_, lookup_eq_leaf_iff.mpr hk⟩

/-- The index answers exactly the catalogue. Its leaves are the kinds of the dialect, each once,
those of a family in the order of the catalogue. A name is found exactly if it belongs to a kind of
the dialect, to the root or to an abstract family with a kind left; below the root stand the
families, in their order, and below a family its kinds. -/
theorem answers_catalogue (d : Dialect) (name : String) :
    ((build d).leaves.Nodup ∧ ∀ k, k ∈ (build d).leaves ↔ d.supports k = true)
    ∧ (∀ f, (build d).leavesOf f = Kind.all.filter (fun k => k.family == f && d.supports k)
        ∧ ((build d).leavesOf f ≠ [] ↔ f ∈ (build d).families))
    ∧ (∀ k, (build d).lookup name = some (.leaf k)
        ↔ Kind.ofName? name = some k ∧ d.supports k = true)
    ∧ (∀ label below, (build d).lookup name = some (.group label below)
        ↔ label = name ∧ ((name = "AST" ∧ below = (build d).root.children)
          ∨ ∃ f : Family, f.name = name ∧ f.isAbstract = true
            ∧ (∃ k, k.family = f ∧ d.supports k = true)
            ∧ below = ((build d).leavesOf f).map .leaf))
    ∧ (build d).root.children.map Item.name = (build d).families.map Family.name
    ∧ (∀ item, item ∈ (build d).root.children
        ↔ (∃ f, item = .group f.name (((build d).leavesOf f).map .leaf) ∧ f.isAbstract = true
            ∧ f ∈ (build d).families)
          ∨ ∃ k, item = .leaf k ∧ k.family.isAbstract = false ∧ d.supports k = true)
    ∧ ((build d).lookup name = none
        ↔ ¬ (name = "AST"
          ∨ (∃ f : Family, f.name = name ∧ f.isAbstract = true
            ∧ ∃ k, k.family = f ∧ d.supports k = true)
          ∨ ∃ k, Kind.ofName? name = some k ∧ d.supports k = true))
    ∧ ((build d).contains name = false ↔ (build d).lookup name = none)
    ∧ ((build d).fields name = none ↔ (build d).lookup name = none) := by
  refine ⟨⟨nodup_leaves, fun k => mem_leaves_iff⟩, fun f => ⟨?_, ?_⟩, fun k => lookup_eq_leaf_iff,
    fun label below => lookup_eq_group_iff, map_name_children_root, fun item => ?_,
    lookup_eq_none_iff, ?_, ?_⟩
  · rw [leavesOf_build, members, Family.kinds, List.filter_filter]
    exact List.filter_congr fun k _ => Bool.and_comm _ _
  · rw [leavesOf_build, ne_eq, members_eq_nil_iff, not_not]
  · simp only [leavesOf_build]
    exact mem_children_root_iff
  · rw [contains, Option.isSome_eq_false_iff, Option.isNone_iff_eq_none]
  · rw [fields, Option.map_eq_none_iff]

end Index

end Unparse
