import Mathlib.Data.List.Basic
import Unparse.Proofs.Traversal.Revisions

/-! Tours of a listing. A reviser that decides by the kinds of the nodes it has entered passes
some places of the listing by: those after a stop, and those of nodes that lie inside of a node
whose children it skips. -/
namespace Unparse

/-- The nodes at some places of a listing. -/
def nodesAt (nodes : List AnyNode) (places : List Nat) : List AnyNode :=
  places.filterMap fun i => nodes[i]?

/-- The number of places that a node takes up in a listing, with those inside of it. -/
def AnyNode.extent (n : AnyNode) : Nat :=
  n.node.replaceable.length

/-- The node at place `i` lies inside of the one at place `j`, whose own listing begins there. -/
def LiesInside (nodes : List AnyNode) (i j : Nat) : Prop :=
  j < i ∧ ∃ n, nodes[j]? = some n ∧ i < j + n.extent

/-- What is decided at place `j` by the kinds of the nodes entered before these places, and at
those of them that do not come after `j`. -/
def decisionAt (decide : List Kind → Control) (past : List Kind) (nodes : List AnyNode)
    (places : List Nat) (j : Nat) : Control :=
  decide (past ++ (nodesAt nodes (places.filter (· ≤ j))).map AnyNode.kind)

/-- These are the places of a listing where nodes are entered, in order: all those that do not
come after a stop and do not lie inside of a node whose children are skipped. -/
structure Tour (decide : List Kind → Control) (past : List Kind) (nodes : List AnyNode)
    (places : List Nat) : Prop where
  ordered : places.Pairwise (· < ·)
  mem_iff : ∀ i, i ∈ places ↔ i < nodes.length ∧ ∀ j ∈ places, j < i →
    decisionAt decide past nodes places j ≠ .stop ∧
      (decisionAt decide past nodes places j = .skip → ¬ LiesInside nodes i j)

/-- The tour is ended by a decision. -/
def Stops (decide : List Kind → Control) (past : List Kind) (nodes : List AnyNode)
    (places : List Nat) : Prop :=
  ∃ j ∈ places, decisionAt decide past nodes places j = .stop

section Places

variable {decide : List Kind → Control} {past : List Kind} {ms ns : List AnyNode}
  {ps qs : List Nat}

/-- The places of two listings one after the other. -/
def consecutive (ms : List AnyNode) (ps qs : List Nat) : List Nat :=
  ps ++ qs.map (ms.length + ·)

theorem mem_consecutive_left {i : Nat} (hi : i < ms.length) :
    i ∈ consecutive ms ps qs ↔ i ∈ ps := by
  simp only [consecutive, List.mem_append, List.mem_map, or_iff_left_iff_imp]
  rintro ⟨j, -, rfl⟩
  omega

theorem mem_consecutive_right (hps : ∀ i ∈ ps, i < ms.length) {i : Nat} :
    ms.length + i ∈ consecutive ms ps qs ↔ i ∈ qs := by
  simp only [consecutive, List.mem_append, List.mem_map, Nat.add_left_cancel_iff, exists_eq_right,
    or_iff_right_iff_imp]
  intro hi
  have := hps _ hi
  omega

theorem nodesAt_append_left (hps : ∀ i ∈ ps, i < ms.length) :
    nodesAt (ms ++ ns) ps = nodesAt ms ps := by
  apply List.filterMap_congr
  intro i hi
  exact List.getElem?_append_left (hps i hi)

theorem nodesAt_consecutive (hps : ∀ i ∈ ps, i < ms.length) :
    nodesAt (ms ++ ns) (consecutive ms ps qs) = nodesAt ms ps ++ nodesAt ns qs := by
  rw [nodesAt, consecutive, List.filterMap_append, ← nodesAt, nodesAt_append_left hps,
    List.filterMap_map]
  simp [nodesAt, List.getElem?_append_right]

theorem decisionAt_append_left (hps : ∀ i ∈ ps, i < ms.length) (j : Nat) :
    decisionAt decide past (ms ++ ns) ps j = decisionAt decide past ms ps j := by
  rw [decisionAt, nodesAt_append_left fun i hi => hps i (List.mem_of_mem_filter hi)]
  rfl

theorem decisionAt_consecutive_left (hps : ∀ i ∈ ps, i < ms.length) {j : Nat}
    (hj : j < ms.length) :
    decisionAt decide past (ms ++ ns) (consecutive ms ps qs) j =
      decisionAt decide past ms ps j := by
  have hlater : (qs.map (ms.length + ·)).filter (· ≤ j) = [] := by
    simp only [List.filter_eq_nil_iff, List.mem_map, decide_eq_true_eq]
    rintro _ ⟨i, -, rfl⟩
    omega
  rw [← decisionAt_append_left hps, decisionAt, consecutive, List.filter_append, hlater,
    List.append_nil]
  rfl

theorem decisionAt_consecutive_right (hps : ∀ i ∈ ps, i < ms.length) (j : Nat) :
    decisionAt decide past (ms ++ ns) (consecutive ms ps qs) (ms.length + j) =
      decisionAt decide (past ++ (nodesAt ms ps).map AnyNode.kind) ns qs j := by
  have hearlier : ps.filter (· ≤ ms.length + j) = ps := by
    rw [List.filter_eq_self]
    intro i hi
    have := hps i hi
    exact decide_eq_true (by omega)
  have hplaces : (consecutive ms ps qs).filter (· ≤ ms.length + j) =
      consecutive ms ps (qs.filter (· ≤ j)) := by
    simp [consecutive, List.filter_append, hearlier, List.filter_map, Function.comp_def]
  rw [decisionAt, hplaces, nodesAt_consecutive hps, List.map_append, ← List.append_assoc]
  rfl

theorem liesInside_append_left {i j : Nat} (hj : j < ms.length) :
    LiesInside (ms ++ ns) i j ↔ LiesInside ms i j := by
  rw [LiesInside, List.getElem?_append_left hj]
  rfl

theorem liesInside_append_right {i j : Nat} :
    LiesInside (ms ++ ns) (ms.length + i) (ms.length + j) ↔ LiesInside ns i j := by
  rw [LiesInside, List.getElem?_append_right (Nat.le_add_right ..), Nat.add_sub_cancel_left]
  simp [LiesInside, Nat.add_assoc]

end Places

namespace Tour

variable {decide : List Kind → Control} {past : List Kind} {ms ns : List AnyNode}
  {ps qs : List Nat}

theorem lt (h : Tour decide past ms ps) : ∀ i ∈ ps, i < ms.length :=
  fun i hi => ((h.mem_iff i).mp hi).1

theorem empty : Tour decide past [] [] where
  ordered := List.Pairwise.nil
  mem_iff i := by simp

theorem single (n : AnyNode) : Tour decide past [n] [0] where
  ordered := List.pairwise_singleton ..
  mem_iff i := by
    simp only [List.mem_singleton, List.length_singleton, Nat.lt_one_iff, forall_eq]
    constructor
    · rintro rfl
      exact ⟨rfl, fun h => absurd h (Nat.lt_irrefl 0)⟩
    · exact And.left

theorem decisionAt_single (n : AnyNode) (rest : List AnyNode) :
    decisionAt decide past (n :: rest) [0] 0 = decide (past ++ [n.kind]) := by
  simp [decisionAt, nodesAt]

/-- A node whose children are skipped is the only one that is entered in its own listing. -/
theorem skipping {n : AnyNode} (hns : n.extent = ns.length + 1)
    (hskip : decide (past ++ [n.kind]) = .skip) : Tour decide past (n :: ns) [0] where
  ordered := List.pairwise_singleton ..
  mem_iff i := by
    simp only [List.mem_singleton, forall_eq, decisionAt_single, hskip]
    constructor
    · rintro rfl
      exact ⟨Nat.zero_lt_succ _, fun h => absurd h (Nat.lt_irrefl 0)⟩
    · rintro ⟨hi, hpassed⟩
      by_contra hne
      refine (hpassed (Nat.pos_of_ne_zero hne)).2 trivial ⟨Nat.pos_of_ne_zero hne, n, rfl, ?_⟩
      rw [hns, Nat.zero_add]
      exact hi

/-- Nothing is entered after a stop. -/
theorem append_of_stops (h : Tour decide past ms ps) (hstop : Stops decide past ms ps) :
    Tour decide past (ms ++ ns) ps where
  ordered := h.ordered
  mem_iff i := by
    simp only [decisionAt_append_left h.lt]
    rw [h.mem_iff i, List.length_append]
    constructor
    · rintro ⟨hi, hpassed⟩
      refine ⟨by omega, fun j hj hji => ?_⟩
      rw [liesInside_append_left (h.lt j hj)]
      exact hpassed j hj hji
    · rintro ⟨-, hpassed⟩
      have hi : i < ms.length := by
        by_contra hlater
        obtain ⟨j, hj, hstop⟩ := hstop
        have := h.lt j hj
        exact (hpassed j hj (by omega)).1 hstop
      refine ⟨hi, fun j hj hji => ?_⟩
      rw [← liesInside_append_left (h.lt j hj)]
      exact hpassed j hj hji

/-- One tour is followed by another unless there is a stop, or the children of a node are skipped
that reaches beyond the first listing. -/
theorem append (h : Tour decide past ms ps) (hstop : ¬ Stops decide past ms ps)
    (hskip : ∀ j ∈ ps, decisionAt decide past ms ps j = .skip →
      ∀ n, ms[j]? = some n → j + n.extent ≤ ms.length)
    (h' : Tour decide (past ++ (nodesAt ms ps).map AnyNode.kind) ns qs) :
    Tour decide past (ms ++ ns) (consecutive ms ps qs) where
  ordered := by
    refine List.pairwise_append.mpr ⟨h.ordered, ?_, ?_⟩
    · exact h'.ordered.map _ fun i j hij => Nat.add_lt_add_left hij _
    · simp only [List.mem_map]
      rintro i hi _ ⟨j, -, rfl⟩
      have := h.lt i hi
      omega
  mem_iff i := by
    by_cases hi : i < ms.length
    · -- Only what comes before a place decides on it.
      rw [mem_consecutive_left hi, h.mem_iff i, List.length_append]
      refine and_congr (by omega) (forall_congr' fun j => ?_)
      by_cases hj : j < ms.length
      · rw [mem_consecutive_left hj, decisionAt_consecutive_left h.lt hj,
          liesInside_append_left hj]
      · refine ⟨fun _ _ _ => by omega, fun _ _ _ => by omega⟩
    · obtain ⟨i, rfl⟩ := Nat.exists_eq_add_of_le (Nat.le_of_not_lt hi)
      rw [mem_consecutive_right h.lt, h'.mem_iff i, List.length_append, Nat.add_lt_add_iff_left]
      refine and_congr_right fun _ => ⟨fun hpassed j hj hji => ?_, fun hpassed j hj hji => ?_⟩
      · by_cases hleft : j < ms.length
        · rw [mem_consecutive_left hleft] at hj
          rw [decisionAt_consecutive_left h.lt hleft]
          refine ⟨fun hdecision => hstop ⟨j, hj, hdecision⟩, fun hdecision => ?_⟩
          rintro ⟨-, n, hn, hinside⟩
          rw [List.getElem?_append_left hleft] at hn
          have := hskip j hj hdecision n hn
          omega
        · obtain ⟨j, rfl⟩ := Nat.exists_eq_add_of_le (Nat.le_of_not_lt hleft)
          rw [decisionAt_consecutive_right h.lt, liesInside_append_right]
          exact hpassed j ((mem_consecutive_right h.lt).mp hj) (by omega)
      · have hright := hpassed (ms.length + j) ((mem_consecutive_right h.lt).mpr hj) (by omega)
        rwa [decisionAt_consecutive_right h.lt, liesInside_append_right] at hright

theorem stops_consecutive (h : Tour decide past ms ps) :
    Stops decide past (ms ++ ns) (consecutive ms ps qs) ↔
      Stops decide past ms ps ∨
        Stops decide (past ++ (nodesAt ms ps).map AnyNode.kind) ns qs := by
  constructor
  · rintro ⟨j, hj, hstop⟩
    by_cases hleft : j < ms.length
    · rw [mem_consecutive_left hleft] at hj
      rw [decisionAt_consecutive_left h.lt hleft] at hstop
      exact .inl ⟨j, hj, hstop⟩
    · obtain ⟨j, rfl⟩ := Nat.exists_eq_add_of_le (Nat.le_of_not_lt hleft)
      rw [mem_consecutive_right h.lt] at hj
      rw [decisionAt_consecutive_right h.lt] at hstop
      exact .inr ⟨j, hj, hstop⟩
  · rintro (⟨j, hj, hstop⟩ | ⟨j, hj, hstop⟩)
    · refine ⟨j, (mem_consecutive_left (h.lt j hj)).mpr hj, ?_⟩
      rwa [decisionAt_consecutive_left h.lt (h.lt j hj)]
    · refine ⟨ms.length + j, (mem_consecutive_right h.lt).mpr hj, ?_⟩
      rwa [decisionAt_consecutive_right h.lt]

end Tour

namespace Tree

/-- The listing of a node stands in the listing of the tree where the node does. -/
theorem replaceable_isPrefix_drop {s : Shape} (t : Tree s) {j : Nat} {n : AnyNode}
    (hn : t.replaceable[j]? = some n) : n.node.replaceable <+: t.replaceable.drop j := by
  have happend {ms ns : List AnyNode} {j : Nat}
      (hms : ∀ j, ms[j]? = some n → n.node.replaceable <+: ms.drop j)
      (hns : ∀ j, ns[j]? = some n → n.node.replaceable <+: ns.drop j)
      (hj : (ms ++ ns)[j]? = some n) : n.node.replaceable <+: (ms ++ ns).drop j := by
    by_cases hleft : j < ms.length
    · rw [List.getElem?_append_left hleft] at hj
      rw [List.drop_append_of_le_length (Nat.le_of_lt hleft)]
      exact (hms j hj).trans (List.prefix_append ..)
    · obtain ⟨j, rfl⟩ := Nat.exists_eq_add_of_le (Nat.le_of_not_lt hleft)
      rw [List.getElem?_append_right (Nat.le_add_right ..), Nat.add_sub_cancel_left] at hj
      rw [List.drop_length_add_append]
      exact hns j hj
  induction t generalizing j with
  | node k fields mark ih =>
    rw [replaceable_node] at hn ⊢
    cases hoperator : k.isOperator with
    | true => simp [hoperator] at hn
    | false =>
      simp only [hoperator, Bool.false_eq_true, ↓reduceIte] at hn ⊢
      cases j with
      | zero =>
        cases hn
        rw [replaceable_node, hoperator]
        exact List.prefix_rfl
      | succ j => exact ih hn
  | scalar value => cases hn
  | absent => cases hn
  | present content ih => exact ih hn
  | nil => cases hn
  | cons head tail ihHead ihTail =>
    rw [replaceable_cons] at hn ⊢
    exact happend (fun j => ihHead) (fun j => ihTail) hn
  | done => cases hn
  | field value more ihValue ihMore =>
    rw [replaceable_field] at hn ⊢
    exact happend (fun j => ihValue) (fun j => ihMore) hn

theorem add_extent_le {s : Shape} (t : Tree s) {j : Nat} {n : AnyNode}
    (hn : t.replaceable[j]? = some n) : j + n.extent ≤ t.replaceable.length := by
  have hj : j < t.replaceable.length := List.getElem?_eq_some_iff.mp hn |>.1
  have hlength := (t.replaceable_isPrefix_drop hn).length_le
  rw [List.length_drop] at hlength
  unfold AnyNode.extent
  omega

end Tree

end Unparse
