import Mathlib.Algebra.GroupWithZero.Nat
import Mathlib.Data.List.Nodup
import Unparse.Proofs.Indexing
import Unparse.Proofs.Traversal.Walks
import Unparse.Proofs.Tree.Erase
import Unparse.Traversal.Tally

/-! What a traversal gathers, against the listing of the nodes. The names are the identifiers of the
listing with all but the first of each left out, and the tally has the count of each kind in it.
Every further node keeps right what was gathered before it, hence so does every listing. -/
namespace Unparse

/-! ### Names -/

/-- The names are the identifiers, each of them once, in the order in which they first occur. -/
structure Firsts (ids names : List String) : Prop where
  nodup : names.Nodup
  mem_iff : ∀ id, id ∈ names ↔ id ∈ ids
  ordered : names.Pairwise fun a b => ids.idxOf a < ids.idxOf b

namespace Firsts

variable {ids names : List String} {id : String}

theorem empty : Firsts [] [] :=
  ⟨.nil, fun _ => Iff.rfl, .nil⟩

/-- A further identifier leaves the order of the earlier ones as it is. -/
theorem ordered_append (h : Firsts ids names) (more : List String) :
    names.Pairwise fun a b => (ids ++ more).idxOf a < (ids ++ more).idxOf b := by
  refine h.ordered.imp_of_mem fun {a b} ha hb hab => ?_
  rwa [List.idxOf_append_of_mem ((h.mem_iff a).mp ha),
    List.idxOf_append_of_mem ((h.mem_iff b).mp hb)]

theorem again (h : Firsts ids names) (hid : id ∈ names) : Firsts (ids ++ [id]) names where
  nodup := h.nodup
  mem_iff other := by
    rw [h.mem_iff, List.mem_append, List.mem_singleton]
    refine ⟨.inl, ?_⟩
    rintro (hother | rfl)
    · exact hother
    · exact (h.mem_iff other).mp hid
  ordered := h.ordered_append [id]

theorem new (h : Firsts ids names) (hid : id ∉ names) :
    Firsts (ids ++ [id]) (names ++ [id]) where
  nodup := List.nodup_append.mpr ⟨h.nodup, List.nodup_singleton id, fun a ha b hb hab =>
    hid (List.mem_singleton.mp hb ▸ hab ▸ ha)⟩
  mem_iff other := by rw [List.mem_append, List.mem_append, h.mem_iff]
  ordered := by
    refine List.pairwise_append.mpr ⟨h.ordered_append [id], List.pairwise_singleton .., ?_⟩
    intro a ha b hb
    have hmem : a ∈ ids := (h.mem_iff a).mp ha
    have hfresh : id ∉ ids := fun hmem => hid ((h.mem_iff id).mpr hmem)
    rw [List.mem_singleton.mp hb, List.idxOf_append_of_mem hmem,
      List.idxOf_append_of_notMem hfresh]
    exact Nat.lt_add_right _ (List.idxOf_lt_length_of_mem hmem)

theorem insert {v : Vocabulary} (h : Firsts ids v.names) (id : String) :
    Firsts (ids ++ [id]) (v.insert id).names := by
  unfold Vocabulary.insert
  split
  next hid => exact h.again ((v.mem_seen id).mp (List.contains_iff_mem.mp hid))
  next hid =>
    have hfresh : id ∉ v.names := fun hmem =>
      hid (List.contains_iff_mem.mpr ((v.mem_seen id).mpr hmem))
    exact h.new hfresh

theorem foldl_note {v : Vocabulary} (h : Firsts ids v.names) (ns : List AnyNode) :
    Firsts (ids ++ ns.filterMap AnyNode.identifier?) (ns.foldl Vocabulary.note v).names := by
  induction ns generalizing ids v with
  | nil =>
    rw [List.filterMap_nil, List.append_nil]
    exact h
  | cons n ns ih =>
    rw [List.filterMap_cons, List.foldl_cons, Vocabulary.note]
    cases n.identifier? with
    | none => exact ih h
    | some id =>
      have hall := ih (h.insert id)
      rwa [List.append_assoc] at hall

end Firsts

/-- Only name expressions have an identifier. -/
theorem AnyNode.identifier?_eq_some_iff {n : AnyNode} {id : String} :
    n.identifier? = some id ↔ ∃ mark, n = ⟨.expr, Node.marked .nameExpr (id, ()) mark⟩ := by
  obtain ⟨f, t⟩ := n
  constructor
  · intro h
    cases t with
    | node k fields mark =>
      cases k with
      | nameExpr =>
        have hfields := Tree.ofValue_values fields
        rw [← hfields] at h ⊢
        have hid : fields.values.1 = id := Option.some.inj h
        exact ⟨mark, congrArg
          (fun id => (⟨.expr, Node.marked .nameExpr (id, ()) mark⟩ : AnyNode)) hid⟩
      | _ => cases h
  · rintro ⟨mark, h⟩
    cases h
    rfl

/-! ### Counts -/

theorem Kind.ctorIdx_injective {k l : Kind} (h : k.ctorIdx = l.ctorIdx) : k = l := by
  have hnodup : (all.map Kind.ctorIdx).Nodup := map_ctorIdx_all ▸ List.nodup_range
  exact List.inj_on_of_nodup_map hnodup k.mem_all l.mem_all h

namespace Tally

variable {t : Tally} {k l other : Kind} {n : Nat} {more : Tally}

/-- The entries are in the order of the catalogue, and no kind has two. -/
def Ordered (t : Tally) : Prop :=
  (t.map Prod.fst).Pairwise fun k l => k.ctorIdx < l.ctorIdx

theorem ordered_cons :
    Ordered ((k, n) :: more) ↔ (∀ l ∈ more.map Prod.fst, k.ctorIdx < l.ctorIdx) ∧ Ordered more :=
  List.pairwise_cons

theorem lookup_eq_none (h : l ∉ t.map Prod.fst) : t.lookup l = none := by
  rw [List.lookup_eq_none_iff]
  intro entry hentry
  rw [bne_iff_ne]
  rintro rfl
  exact h (List.mem_map_of_mem hentry)

theorem lookup_cons_of_ne (h : l ≠ k) : List.lookup l ((k, n) :: more) = more.lookup l := by
  rw [List.lookup_cons, beq_false_of_ne h]

theorem mem_keys_add : l ∈ (t.add k).map Prod.fst ↔ l = k ∨ l ∈ t.map Prod.fst := by
  fun_induction add k t with
  | case1 => simp
  | case2 n more => simp
  | case3 other n more hne hlt => simp
  | case4 other n more hne hlt ih =>
    rw [List.map_cons, List.mem_cons, ih, List.map_cons, List.mem_cons]
    exact or_left_comm

/-- A kind before the first entry has none. -/
theorem notMem_keys (h : Ordered ((other, n) :: more)) (hlt : k.ctorIdx < other.ctorIdx) :
    k ∉ ((other, n) :: more).map Prod.fst := by
  rw [List.map_cons, List.mem_cons]
  rintro (rfl | hmem)
  · exact Nat.lt_irrefl _ hlt
  · exact Nat.lt_asymm hlt ((ordered_cons.mp h).1 k hmem)

theorem Ordered.add (h : t.Ordered) (k : Kind) : (t.add k).Ordered := by
  fun_induction Tally.add k t with
  | case1 => exact List.pairwise_singleton ..
  | case2 n more => exact h
  | case3 other n more hne hlt =>
    refine ordered_cons.mpr ⟨fun l hl => ?_, h⟩
    rcases List.mem_cons.mp hl with rfl | hl
    · exact hlt
    · exact Nat.lt_trans hlt ((ordered_cons.mp h).1 l hl)
  | case4 other n more hne hlt ih =>
    obtain ⟨hfirst, hmore⟩ := ordered_cons.mp h
    refine ordered_cons.mpr ⟨fun l hl => ?_, ih hmore⟩
    rcases mem_keys_add.mp hl with rfl | hl
    · have hdistinct : l.ctorIdx ≠ other.ctorIdx := fun heq => hne (Kind.ctorIdx_injective heq)
      omega
    · exact hfirst l hl

theorem lookup_add (h : t.Ordered) (k l : Kind) :
    (t.add k).lookup l = if l = k then some ((t.lookup l).getD 0 + 1) else t.lookup l := by
  fun_induction Tally.add k t with
  | case1 =>
    by_cases hl : l = k
    · simp [hl]
    · rw [lookup_cons_of_ne hl, if_neg hl]
  | case2 n more =>
    by_cases hl : l = k
    · simp [hl]
    · rw [lookup_cons_of_ne hl, if_neg hl, lookup_cons_of_ne hl]
  | case3 other n more hne hlt =>
    by_cases hl : l = k
    · rw [hl, lookup_eq_none (notMem_keys h hlt)]
      simp
    · rw [lookup_cons_of_ne hl, if_neg hl]
  | case4 other n more hne hlt ih =>
    by_cases hl : l = other
    · have hk : other ≠ k := Ne.symm hne
      simp [hl, hk]
    · rw [lookup_cons_of_ne hl, lookup_cons_of_ne hl, ih (ordered_cons.mp h).2]

theorem sum_add (t : Tally) (k : Kind) :
    ((t.add k).map Prod.snd).sum = (t.map Prod.snd).sum + 1 := by
  fun_induction Tally.add k t with
  | case1 => rfl
  | case2 n more => simp only [List.map_cons, List.sum_cons]; omega
  | case3 other n more hne hlt => simp only [List.map_cons, List.sum_cons]; omega
  | case4 other n more hne hlt ih => simp only [List.map_cons, List.sum_cons, ih]; omega

end Tally

/-- The tally has an entry with the count of every kind that occurs, and no other entries; all
counts together are the number of occurrences. -/
structure Counts (kinds : List Kind) (t : Tally) : Prop where
  ordered : t.Ordered
  lookup_eq : ∀ k, t.lookup k = if k ∈ kinds then some (kinds.count k) else none
  sum_eq : (t.map Prod.snd).sum = kinds.length

namespace Counts

variable {kinds : List Kind} {t : Tally}

theorem empty : Counts [] [] :=
  ⟨.nil, fun _ => rfl, rfl⟩

theorem add (h : Counts kinds t) (k : Kind) : Counts (kinds ++ [k]) (t.add k) where
  ordered := h.ordered.add k
  lookup_eq l := by
    rw [Tally.lookup_add h.ordered, h.lookup_eq]
    by_cases hl : l = k
    · by_cases hmem : k ∈ kinds
      · simp [hl, hmem]
      · simp [hl, hmem, List.count_eq_zero.mpr hmem]
    · simp [hl, Ne.symm hl]
  sum_eq := by rw [Tally.sum_add, h.sum_eq, List.length_append, List.length_singleton]

theorem foldl_add (h : Counts kinds t) (ns : List AnyNode) :
    Counts (kinds ++ ns.map AnyNode.kind) (ns.foldl (fun t n => t.add n.kind) t) := by
  induction ns generalizing kinds t with
  | nil =>
    rw [List.map_nil, List.append_nil]
    exact h
  | cons n ns ih =>
    have hall := ih (h.add n.kind)
    rwa [List.append_assoc, List.singleton_append] at hall

end Counts

namespace Node

variable {f : Family}

theorem firsts_names (t : Node f) : Firsts (t.preorder.filterMap AnyNode.identifier?) t.names := by
  have hnames : t.names = (t.preorder.foldl Vocabulary.note {}).names :=
    congrArg Vocabulary.names (AnyNode.accumulate_eq_foldl Vocabulary.note ⟨f, t⟩ {})
  have hempty : Firsts [] ({} : Vocabulary).names := Firsts.empty
  rw [hnames]
  exact hempty.foldl_note t.preorder

theorem counts_tally (t : Node f) : Counts (t.preorder.map AnyNode.kind) t.tally := by
  have htally : t.tally = t.preorder.foldl (fun tally n => Tally.add n.kind tally) [] :=
    AnyNode.accumulate_eq_foldl (fun tally n => Tally.add n.kind tally) ⟨f, t⟩ []
  rw [htally]
  exact Counts.empty.foldl_add t.preorder

/-- In the listing of a tree each node stands before the listings of its children. The names are the
identifiers of the name expressions in the listing, each once and in the order in which they first
occur; the tally counts the nodes of each kind in it and has no entries for other kinds. -/
theorem gathers_listing (t : Node f) :
    t.preorder = ⟨f, t⟩ :: t.children.flatMap (fun n => n.node.preorder) ∧
    (∀ (n : AnyNode) (id : String), n.identifier? = some id ↔
      ∃ mark, n = ⟨.expr, marked .nameExpr (id, ()) mark⟩) ∧
    Firsts (t.preorder.filterMap AnyNode.identifier?) t.names ∧
    Counts (t.preorder.map AnyNode.kind) t.tally :=
  ⟨AnyNode.preorder_node ⟨f, t⟩, fun _ _ => AnyNode.identifier?_eq_some_iff, t.firsts_names,
    t.counts_tally⟩

end Node

end Unparse
