import Unparse.Proofs.Traversal.Tours
import Unparse.Traversal.Itinerary
import Unparse.Traversal.Tally
import Unparse.Tree.Build

/-! Renaming in place. Exactly the names that are entered get the suffix, once each; wherever the
walk is cut short, everything else comes back as it was and where it was. -/
namespace Unparse

namespace Tree

/-- A tree without the identifiers of its names. -/
def unnamed : {s : Shape} → Tree s → Tree s
  | _, node k fields mark =>
    node k (fields.unnamed.mapTexts fun text => if k = .nameExpr then "" else text) mark
  | _, scalar value => scalar value
  | _, absent => absent
  | _, present content => present content.unnamed
  | _, nil => nil
  | _, cons head tail => cons head.unnamed tail.unnamed
  | _, done => done
  | _, field value more => field value.unnamed more.unnamed

theorem unnamed_mapTexts (change : String → String) {s : Shape} (t : Tree s) :
    (t.mapTexts change).unnamed = t.unnamed.mapTexts change := by
  induction t with
  | node k fields mark ih => rfl
  | scalar value => rfl
  | absent => rfl
  | present content ih => exact congrArg present ih
  | nil => rfl
  | cons head tail ihHead ihTail => simp only [mapTexts, unnamed, ihHead, ihTail]
  | done => rfl
  | field value more ihValue ihMore => simp only [mapTexts, unnamed, ihValue, ihMore]

theorem mapTexts_mapTexts (change change' : String → String) {s : Shape} (t : Tree s) :
    (t.mapTexts change).mapTexts change' = t.mapTexts fun text => change' (change text) := by
  induction t with
  | node k fields mark ih => rfl
  | @scalar a value => cases a <;> rfl
  | absent => rfl
  | present content ih => exact congrArg present ih
  | nil => rfl
  | cons head tail ihHead ihTail => simp only [mapTexts, ihHead, ihTail]
  | done => rfl
  | field value more ihValue ihMore => simp only [mapTexts, ihValue, ihMore]

/-- A record has the same nodes in it when its texts have been changed. -/
theorem replaceable_mapTexts (change : String → String) {s : Shape} (t : Tree s) :
    (t.mapTexts change).replaceable = t.replaceable := by
  induction t with
  | node k fields mark ih => rfl
  | scalar value => rfl
  | absent => rfl
  | present content ih => exact ih
  | nil => rfl
  | cons head tail ihHead ihTail =>
    rw [mapTexts, replaceable_cons, replaceable_cons, ihHead, ihTail]
  | done => rfl
  | field value more ihValue ihMore =>
    rw [mapTexts, replaceable_field, replaceable_field, ihValue, ihMore]

/-- After a stop everything stays as it is. -/
theorem reviseFrom_stopped {S : Type} {r : Reviser S} {s : Shape} (t : Tree s) (st : S) :
    t.reviseFrom r ⟨st, true⟩ = (t, ⟨st, true⟩) := by
  induction t with
  | node k fields mark ih => rfl
  | scalar value => rfl
  | absent => rfl
  | present content ih => simp only [reviseFrom, ih]
  | nil => rfl
  | cons head tail ihHead ihTail => simp only [reviseFrom, ihHead, ihTail]
  | done => rfl
  | field value more ihValue ihMore => simp only [reviseFrom, ihValue, ihMore]

end Tree

section Renamer

variable {decide : List Kind → Control} {suffix : String}

theorem unnamed_revised (k : Kind) (fields : Tree k.shape) (mark : Mark k.place) :
    ((renamer decide suffix).revised k fields mark).unnamed =
      Tree.node k (fields.unnamed.mapTexts fun text => if k = .nameExpr then "" else text)
        mark := by
  have hforgotten : (fun text => if k = .nameExpr then "" else renameText suffix k text) =
      fun text => if k = .nameExpr then "" else text := by
    funext text
    unfold renameText
    split <;> rfl
  rw [Reviser.revised, Tree.unnamed, Tree.unnamed_mapTexts, Tree.mapTexts_mapTexts]
  simp only [renamer, hforgotten]
  cases mark <;> rfl

theorem Tree.unnamed_reviseFrom {s : Shape} (t : Tree s) (p : Progress (List AnyNode)) :
    (t.reviseFrom (renamer decide suffix) p).1.unnamed = t.unnamed := by
  induction t generalizing p with
  | node k fields mark ih =>
    rw [reviseFrom]
    split
    · rfl
    · split
      · exact unnamed_revised k fields mark
      · exact unnamed_revised k fields mark
      · rw [unnamed_revised, ih]
        rfl
  | scalar value => rfl
  | absent => rfl
  | present content ih => exact congrArg present (ih p)
  | nil => rfl
  | cons head tail ihHead ihTail => simp only [reviseFrom, unnamed, ihHead, ihTail]
  | done => rfl
  | field value more ihValue ihMore => simp only [reviseFrom, unnamed, ihValue, ihMore]

theorem Kind.identifier?_of_ne {k : Kind} (hk : k ≠ .nameExpr) (fields : Tree k.shape) :
    k.identifier? fields = none := by
  cases k with
  | nameExpr => exact absurd rfl hk
  | _ => rfl

/-- A name that is entered gets the suffix; whatever else is entered has no identifier. -/
theorem identifier?_revised (k : Kind) (fields : Tree k.shape) (mark : Mark k.place)
    (p : Progress (List AnyNode)) :
    Node.identifier? ((renamer decide suffix).revised k
      (fields.reviseFrom (renamer decide suffix) p).1 mark) =
      (k.identifier? fields).map (· ++ suffix) := by
  by_cases hk : k = .nameExpr
  · subst hk
    cases fields with
    | field value more =>
      cases value with
      | scalar id => rfl
  · rw [k.identifier?_of_ne hk]
    exact k.identifier?_of_ne hk _

/-- The identifiers of names, with the suffix at some places. -/
def suffixed (suffix : String) (nodes : List AnyNode) (places : List Nat) : List (Option String) :=
  nodes.mapIdx fun i n => n.identifier?.map fun id => if i ∈ places then id ++ suffix else id

variable (suffix) in
theorem suffixed_nil (nodes : List AnyNode) :
    suffixed suffix nodes [] = nodes.map AnyNode.identifier? := by
  apply List.ext_getElem <;> simp [suffixed]

theorem suffixed_consecutive {ms ns : List AnyNode} {ps qs : List Nat}
    (hps : ∀ i ∈ ps, i < ms.length) :
    suffixed suffix (ms ++ ns) (consecutive ms ps qs) =
      suffixed suffix ms ps ++ suffixed suffix ns qs := by
  rw [suffixed, List.mapIdx_append]
  congr 1
  · apply List.ext_getElem
    · simp [suffixed]
    · intro i hi _
      rw [List.length_mapIdx] at hi
      simp [suffixed, mem_consecutive_left hi]
  · simp only [suffixed, Nat.add_comm _ ms.length, mem_consecutive_right hps]

/-- What a renamer makes of a tree after it has entered some nodes before: it goes on a tour of
the listing, and renames there. -/
structure Tree.Renamed (decide : List Kind → Control) (suffix : String) (seen : List AnyNode)
    {s : Shape} (t : Tree s) (places : List Nat) : Prop where
  tour : Tour decide (seen.map AnyNode.kind) t.replaceable places
  entered : (t.reviseFrom (renamer decide suffix) ⟨seen, false⟩).2.state =
    seen ++ nodesAt t.replaceable places
  stopped : (t.reviseFrom (renamer decide suffix) ⟨seen, false⟩).2.stopped = true ↔
    Stops decide (seen.map AnyNode.kind) t.replaceable places
  identifiers : (t.reviseFrom (renamer decide suffix) ⟨seen, false⟩).1.replaceable.map
    AnyNode.identifier? = suffixed suffix t.replaceable places

namespace Tree.Renamed

variable {seen : List AnyNode} {s : Shape}

/-- A tree without nodes that could be entered. -/
theorem untouched {t : Tree s} (hnodes : t.replaceable = [])
    (hsame : t.reviseFrom (renamer decide suffix) ⟨seen, false⟩ = (t, ⟨seen, false⟩)) :
    t.Renamed decide suffix seen [] where
  tour := hnodes ▸ Tour.empty
  entered := by simp [hsame, nodesAt]
  stopped := by simp [hsame, Stops]
  identifiers := by simp [hsame, suffixed_nil]

/-- The parts of a tree are renamed one after the other; if the first part ends the walk, the
second one is not touched. -/
theorem inTurn {s₁ s₂ : Shape} {t : Tree s} {first : Tree s₁} {second : Tree s₂}
    (hnodes : t.replaceable = first.replaceable ++ second.replaceable)
    (hstate : (t.reviseFrom (renamer decide suffix) ⟨seen, false⟩).2 =
      (second.reviseFrom (renamer decide suffix)
        (first.reviseFrom (renamer decide suffix) ⟨seen, false⟩).2).2)
    (hlisted : (t.reviseFrom (renamer decide suffix) ⟨seen, false⟩).1.replaceable =
      (first.reviseFrom (renamer decide suffix) ⟨seen, false⟩).1.replaceable ++
        (second.reviseFrom (renamer decide suffix)
          (first.reviseFrom (renamer decide suffix) ⟨seen, false⟩).2).1.replaceable)
    (hfirst : ∃ ps, first.Renamed decide suffix seen ps)
    (hsecond : ∀ seen, ∃ qs, second.Renamed decide suffix seen qs) :
    ∃ places, t.Renamed decide suffix seen places := by
  obtain ⟨ps, hps⟩ := hfirst
  rcases hresult : first.reviseFrom (renamer decide suffix) ⟨seen, false⟩ with ⟨t', seen', stopped⟩
  have hseen : seen' = seen ++ nodesAt first.replaceable ps := by
    simpa [hresult] using hps.entered
  have hstopped := hps.stopped
  have hidentifiers := hps.identifiers
  rw [hresult] at hstate hlisted hstopped hidentifiers
  cases stopped with
  | true =>
    have hstops := hstopped.mp rfl
    rw [reviseFrom_stopped] at hstate hlisted
    refine ⟨ps, ?_, ?_, ?_, ?_⟩
    · rw [hnodes]
      exact hps.tour.append_of_stops hstops
    · rw [hstate, hnodes, nodesAt_append_left hps.tour.lt]
      exact hseen
    · rw [hstate, hnodes]
      refine iff_of_true rfl ?_
      obtain ⟨j, hj, hdecision⟩ := hstops
      exact ⟨j, hj, (decisionAt_append_left hps.tour.lt j).trans hdecision⟩
    · have hrest : suffixed suffix (first.replaceable ++ second.replaceable)
          (consecutive first.replaceable ps []) = _ :=
        suffixed_consecutive hps.tour.lt
      rw [consecutive, List.map_nil, List.append_nil, suffixed_nil] at hrest
      rw [hlisted, hnodes, hrest, List.map_append, hidentifiers]
  | false =>
    obtain ⟨qs, hqs⟩ := hsecond seen'
    have hopen : ¬ Stops decide (seen.map AnyNode.kind) first.replaceable ps := fun hstops =>
      Bool.false_ne_true (hstopped.mpr hstops)
    have htour := hqs.tour
    have hagain := hqs.stopped
    rw [hseen, List.map_append] at htour hagain
    refine ⟨consecutive first.replaceable ps qs, ?_, ?_, ?_, ?_⟩
    · rw [hnodes]
      exact hps.tour.append hopen (fun j _ _ n hn => first.add_extent_le hn) htour
    · rw [hstate, hnodes, nodesAt_consecutive hps.tour.lt, ← List.append_assoc, ← hseen]
      exact hqs.entered
    · rw [hstate, hnodes, hps.tour.stops_consecutive, or_iff_right hopen, ← hagain, hseen]
    · rw [hlisted, hnodes, suffixed_consecutive hps.tour.lt, List.map_append, hidentifiers,
        hqs.identifiers]

section Node

variable {k : Kind} {fields : Tree k.shape} {mark : Mark k.place}

theorem replaceable_eq (hoperator : k.isOperator = false) :
    (Tree.node k fields mark).replaceable =
      [⟨k.place, .node k fields mark⟩] ++ fields.replaceable := by
  rw [replaceable_node, hoperator]
  rfl

variable (decide suffix seen fields mark) in
theorem reviseFrom_eq (hoperator : k.isOperator = false) :
    (Tree.node k fields mark).reviseFrom (renamer decide suffix) ⟨seen, false⟩ =
      match decide (seen.map AnyNode.kind ++ [k]) with
      | .stop => ((renamer decide suffix).revised k fields mark,
          ⟨seen ++ [⟨k.place, .node k fields mark⟩], true⟩)
      | .skip => ((renamer decide suffix).revised k fields mark,
          ⟨seen ++ [⟨k.place, .node k fields mark⟩], false⟩)
      | .proceed =>
        let inside := fields.reviseFrom (renamer decide suffix)
          ⟨seen ++ [⟨k.place, .node k fields mark⟩], false⟩
        ((renamer decide suffix).revised k inside.1 mark, inside.2) := by
  rw [reviseFrom, hoperator]
  simp only [renamer, List.map_append, List.map_singleton]
  cases hdecision : decide (seen.map AnyNode.kind ++ [k]) <;>
    simp [AnyNode.kind, Node.kind, hdecision]

theorem suffixed_eq (ns : List AnyNode) (qs : List Nat) :
    suffixed suffix ([⟨k.place, .node k fields mark⟩] ++ ns)
        (consecutive [⟨k.place, .node k fields mark⟩] [0] qs) =
      (k.identifier? fields).map (· ++ suffix) :: suffixed suffix ns qs := by
  rw [suffixed_consecutive (by simp)]
  rfl

variable (decide suffix fields mark) in
theorem identifiers_revised (hoperator : k.isOperator = false) (p : Progress (List AnyNode)) :
    ((renamer decide suffix).revised k (fields.reviseFrom (renamer decide suffix) p).1
      mark).replaceable.map AnyNode.identifier? = (k.identifier? fields).map (· ++ suffix) ::
        (fields.reviseFrom (renamer decide suffix) p).1.replaceable.map AnyNode.identifier? := by
  rw [Reviser.revised, replaceable_node, hoperator, replaceable_mapTexts]
  exact congrArg (· :: _) (identifier?_revised k fields mark p)

/-- If the nodes inside of a node are not entered, only its own identifier can change. -/
theorem identifiers_revised_alone (hoperator : k.isOperator = false) :
    ((renamer decide suffix).revised k fields mark).replaceable.map AnyNode.identifier? =
      suffixed suffix (Tree.node k fields mark).replaceable [0] := by
  have hrevised := identifiers_revised decide suffix fields mark hoperator ⟨[], true⟩
  rw [reviseFrom_stopped] at hrevised
  rw [replaceable_eq hoperator]
  exact hrevised.trans (suffixed_nil suffix fields.replaceable ▸
    (suffixed_eq fields.replaceable []).symm)

theorem of_stop (hoperator : k.isOperator = false)
    (hdecision : decide (seen.map AnyNode.kind ++ [k]) = .stop) :
    (Tree.node k fields mark).Renamed decide suffix seen [0] := by
  have hstops (ns : List AnyNode) : Stops decide (seen.map AnyNode.kind)
      (⟨k.place, .node k fields mark⟩ :: ns) [0] :=
    ⟨0, List.mem_singleton_self 0, (Tour.decisionAt_single _ ns).trans hdecision⟩
  have hresult := reviseFrom_eq decide suffix seen fields mark hoperator
  rw [hdecision] at hresult
  constructor
  · rw [replaceable_eq hoperator]
    exact (Tour.single _).append_of_stops (hstops [])
  · simp [hresult, replaceable_eq hoperator, nodesAt]
  · rw [hresult, replaceable_eq hoperator]
    exact iff_of_true rfl (hstops fields.replaceable)
  · rw [hresult]
    exact identifiers_revised_alone hoperator

theorem of_skip (hoperator : k.isOperator = false)
    (hdecision : decide (seen.map AnyNode.kind ++ [k]) = .skip) :
    (Tree.node k fields mark).Renamed decide suffix seen [0] := by
  have hresult := reviseFrom_eq decide suffix seen fields mark hoperator
  rw [hdecision] at hresult
  constructor
  · rw [replaceable_eq hoperator]
    refine Tour.skipping ?_ hdecision
    rw [AnyNode.extent, replaceable_eq hoperator, List.length_append, Nat.add_comm]
    rfl
  · simp [hresult, replaceable_eq hoperator, nodesAt]
  · rw [hresult, replaceable_eq hoperator]
    refine iff_of_false Bool.false_ne_true ?_
    rintro ⟨j, hj, hstop⟩
    rw [List.mem_singleton.mp hj, List.singleton_append, Tour.decisionAt_single] at hstop
    exact absurd (hdecision.symm.trans hstop) (by decide)
  · rw [hresult]
    exact identifiers_revised_alone hoperator

theorem of_proceed (hoperator : k.isOperator = false)
    (hdecision : decide (seen.map AnyNode.kind ++ [k]) = .proceed) {qs : List Nat}
    (hfields : fields.Renamed decide suffix (seen ++ [⟨k.place, .node k fields mark⟩]) qs) :
    (Tree.node k fields mark).Renamed decide suffix seen
      (consecutive [⟨k.place, .node k fields mark⟩] [0] qs) := by
  have hsingle : Tour decide (seen.map AnyNode.kind) [⟨k.place, .node k fields mark⟩] [0] :=
    Tour.single _
  have hproceed (j : Nat) (hj : j ∈ [0]) : decisionAt decide (seen.map AnyNode.kind)
      [⟨k.place, .node k fields mark⟩] [0] j = .proceed := by
    rw [List.mem_singleton.mp hj, Tour.decisionAt_single]
    exact hdecision
  have hopen : ¬ Stops decide (seen.map AnyNode.kind) [⟨k.place, .node k fields mark⟩] [0] := by
    rintro ⟨j, hj, hstop⟩
    rw [hproceed j hj] at hstop
    cases hstop
  have hresult := reviseFrom_eq decide suffix seen fields mark hoperator
  rw [hdecision] at hresult
  have htour := hfields.tour
  have hstopped := hfields.stopped
  rw [List.map_append] at htour hstopped
  constructor
  · rw [replaceable_eq hoperator]
    refine hsingle.append hopen (fun j hj hskip => ?_) htour
    rw [hproceed j hj] at hskip
    cases hskip
  · rw [hresult, replaceable_eq hoperator, nodesAt_consecutive hsingle.lt, ← List.append_assoc]
    exact hfields.entered
  · rw [hresult, replaceable_eq hoperator, hsingle.stops_consecutive, or_iff_right hopen]
    exact hstopped
  · rw [hresult, replaceable_eq hoperator, suffixed_eq, ← hfields.identifiers]
    exact identifiers_revised decide suffix fields mark hoperator _

end Node

end Tree.Renamed

theorem Tree.exists_renamed {s : Shape} (t : Tree s) (seen : List AnyNode) :
    ∃ places, t.Renamed decide suffix seen places := by
  induction t generalizing seen with
  | node k fields mark ih =>
    cases hoperator : k.isOperator with
    | true =>
      refine ⟨[], Renamed.untouched ?_ ?_⟩
      · rw [replaceable_node, hoperator]
        rfl
      · rw [reviseFrom, hoperator]
        rfl
    | false =>
      cases hdecision : decide (seen.map AnyNode.kind ++ [k]) with
      | stop => exact ⟨[0], Renamed.of_stop hoperator hdecision⟩
      | skip => exact ⟨[0], Renamed.of_skip hoperator hdecision⟩
      | proceed =>
        obtain ⟨qs, hqs⟩ := ih (seen ++ [⟨k.place, .node k fields mark⟩])
        exact ⟨_, Renamed.of_proceed hoperator hdecision hqs⟩
  | scalar value => exact ⟨[], Renamed.untouched rfl rfl⟩
  | absent => exact ⟨[], Renamed.untouched rfl rfl⟩
  | present content ih =>
    obtain ⟨places, h⟩ := ih seen
    exact ⟨places, h.tour, h.entered, h.stopped, h.identifiers⟩
  | nil => exact ⟨[], Renamed.untouched rfl rfl⟩
  | cons head tail ihHead ihTail =>
    exact Renamed.inTurn (replaceable_cons ..) rfl (replaceable_cons ..) (ihHead seen) ihTail
  | done => exact ⟨[], Renamed.untouched rfl rfl⟩
  | field value more ihValue ihMore =>
    exact Renamed.inTurn (replaceable_field ..) rfl (replaceable_field ..) (ihValue seen) ihMore

end Renamer

namespace Node

variable {f : Family}

/-- The nodes that are entered are those of the listing without operators, up to the first stop
and without what lies inside of a node whose children are skipped. The tree that comes back is the
same but for identifiers, and of these exactly those of the names that were entered have got the
suffix. The walk ends by stopping if it was decided to stop, and by running out of nodes
otherwise. -/
theorem renameBy_edits_entered (decide : List Kind → Control) (suffix : String) (t : Node f) :
    ∃ places,
      Tour decide [] (t.preorder.filter (!·.isOperator)) places ∧
      (t.renameBy decide suffix).2.1 = nodesAt (t.preorder.filter (!·.isOperator)) places ∧
      (t.renameBy decide suffix).1.unnamed = t.unnamed ∧
      (((t.renameBy decide suffix).1.preorder.filter (!·.isOperator)).map AnyNode.identifier? =
        (t.preorder.filter (!·.isOperator)).mapIdx fun i n =>
          n.identifier?.map fun id => if i ∈ places then id ++ suffix else id) ∧
      (t.renameBy decide suffix).2.2 =
        if ∃ j ∈ places, decisionAt decide [] (t.preorder.filter (!·.isOperator)) places j = .stop
        then .stop else .proceed := by
  obtain ⟨places, h⟩ : ∃ places, t.Renamed decide suffix [] places := t.exists_renamed []
  refine ⟨places, h.tour, ?_, ?_, ?_, ?_⟩
  · rw [renameBy, revise_eq_reviseFrom]
    exact h.entered
  · rw [renameBy, revise_eq_reviseFrom]
    exact t.unnamed_reviseFrom _
  · rw [renameBy, revise_eq_reviseFrom]
    exact h.identifiers
  · rw [renameBy, revise_eq_reviseFrom]
    exact if_congr h.stopped rfl rfl

end Node

end Unparse
