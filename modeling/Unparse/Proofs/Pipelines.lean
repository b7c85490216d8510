import Mathlib.Algebra.GroupWithZero.Nat
import Mathlib.Data.List.Induction
import Mathlib.Data.List.Nodup
import Unparse.Pipeline
import Unparse.Proofs.Shifting
import Unparse.Proofs.Traversals

/-! Pipelines in closed form. Shifts add up to one shift, which no rendering sees, so that a run
is decided by the first processor that fails on the tree that was put in: whatever stands before
it has done its work, and nothing behind it has been reached. -/
namespace Unparse

theorem addCapped_addCapped (a b c : UInt32) :
    addCapped (addCapped a b) c = addCapped a (addCapped b c) := by
  apply UInt32.toNat_inj.mp
  simp only [toNat_addCapped]
  omega

namespace Offset

/-- One offset after the other. -/
def plus (o o' : Offset) : Offset :=
  ⟨addCapped o.lines o'.lines, addCapped o.columns o'.columns⟩

/-- The offset that comes of some offsets, as far as the numbers go. -/
def total (os : List Offset) : Offset :=
  ⟨.ofNat (min (os.map (·.lines.toNat)).sum (2 ^ 32 - 1)),
    .ofNat (min (os.map (·.columns.toNat)).sum (2 ^ 32 - 1))⟩

theorem addCapped_ofNat (a : UInt32) (n : Nat) :
    addCapped a (.ofNat (min n (2 ^ 32 - 1))) = .ofNat (min (a.toNat + n) (2 ^ 32 - 1)) := by
  have hfits (m : Nat) : (UInt32.ofNat (min m (2 ^ 32 - 1))).toNat = min m (2 ^ 32 - 1) :=
    UInt32.toNat_ofNat_of_lt' (by change _ < 2 ^ 32; omega)
  apply UInt32.toNat_inj.mp
  rw [toNat_addCapped, hfits, hfits]
  omega

theorem total_cons (o : Offset) (os : List Offset) : total (o :: os) = o.plus (total os) := by
  simp only [total, plus, addCapped_ofNat, List.map_cons, List.sum_cons]

end Offset

theorem Position.shift_total (os : List Offset) (p : Position) : p.shift (.total os) =
    ⟨.ofNat (min (p.line.toNat + (os.map (·.lines.toNat)).sum) (2 ^ 32 - 1)),
      .ofNat (min (p.column.toNat + (os.map (·.columns.toNat)).sum) (2 ^ 32 - 1))⟩ := by
  simp only [shift, Offset.total, Offset.addCapped_ofNat]

theorem Position.shift_shift (o o' : Offset) (p : Position) :
    (p.shift o).shift o' = p.shift (o.plus o') := by
  simp only [shift, Offset.plus, addCapped_addCapped]

namespace Tree

theorem mapPositions_mapPositions (change change' : Position → Position) {s : Shape}
    (t : Tree s) : (t.mapPositions change).mapPositions change' =
      t.mapPositions fun p => change' (change p) := by
  induction t with
  | node k fields mark ih => cases mark <;> simp only [mapPositions, ih, Mark.map]
  | scalar value => rfl
  | absent => rfl
  | present content ih => exact congrArg present ih
  | nil => rfl
  | cons head tail ihHead ihTail => simp only [mapPositions, ihHead, ihTail]
  | done => rfl
  | field value more ihValue ihMore => simp only [mapPositions, ihValue, ihMore]

theorem shift_shift (o o' : Offset) {s : Shape} (t : Tree s) :
    (t.shift o).shift o' = t.shift (o.plus o') := by
  simp only [shift, mapPositions_mapPositions, Position.shift_shift]

theorem shift_total_nil {s : Shape} (t : Tree s) : t.shift (Offset.total []) = t := by
  have hstay : Position.shift (Offset.total []) = fun p => p := by
    have hcapped (a : UInt32) : addCapped a (.ofNat (min 0 (2 ^ 32 - 1))) = a := by
      apply UInt32.toNat_inj.mp
      have hfits := a.toNat_lt
      rw [toNat_addCapped]
      change min (a.toNat + 0) _ = _
      omega
    funext p
    simp only [Position.shift, Offset.total, List.map_nil, List.sum_nil, hcapped]
  rw [shift, hstay, mapPositions_self]

end Tree

namespace Processor

/-- What a processor makes of a tree. -/
def process (t : Node .mod) : Processor → Except Failure (Node .mod)
  | shift offset => .ok (t.shift offset)
  | tap _ options => ((t.render options).map fun _ => t).mapError .render
  | custom _ action => action t

/-- Why a processor fails on a tree, if it does. -/
def failure? (t : Node .mod) (p : Processor) : Option Failure :=
  match p.process t with
  | .ok _ => none
  | .error e => some e

def offset? : Processor → Option Offset
  | shift offset => some offset
  | _ => none

def slot? : Processor → Option Nat
  | tap slot _ => some slot
  | _ => none

/-- A processor that shifts or taps, or fails whatever it is given. -/
inductive Plain : Processor → Prop where
  | shift (offset : Offset) : Plain (.shift offset)
  | tap (slot : Nat) (options : Options) : Plain (.tap slot options)
  | failing (name : String) (e : Failure) : Plain (.custom name fun _ => .error e)

theorem Plain.failure?_shift {p : Processor} (h : p.Plain) (o : Offset) (t : Node .mod) :
    p.failure? (t.shift o) = p.failure? t := by
  cases h with
  | shift offset => rfl
  | tap slot options =>
    simp only [failure?, process, Node.render_shift]
    cases t.render options <;> rfl
  | failing name e => rfl

theorem exists_text_of_passed {slot : Nat} {options : Options} {t : Node .mod}
    (h : (tap slot options).failure? t = none) : ∃ text, t.render options = .ok text := by
  cases hrender : t.render options with
  | ok text => exact ⟨text, rfl⟩
  | error flaw =>
    rw [failure?, process, hrender] at h
    cases h

end Processor

namespace Pipeline

variable {ps qs : List Processor} {taps : List (Option String)} {t : Node .mod}

theorem runAll_append (ps qs : List Processor) (taps : List (Option String)) (t : Node .mod) :
    runAll (ps ++ qs) taps t =
      match runAll ps taps t with
      | (taps, .ok t) => runAll qs taps t
      | (taps, .error e) => (taps, .error e) := by
  induction ps generalizing taps t with
  | nil => rfl
  | cons p more ih =>
    simp only [List.cons_append, runAll]
    rcases step p taps t with ⟨taps, _ | t⟩
    · rfl
    · exact ih taps t

/-- A run passes the tree on from one processor to the next, until one of them fails. -/
theorem runAll_snd (ps : List Processor) (taps : List (Option String)) (t : Node .mod) :
    (runAll ps taps t).2 = ps.foldlM (fun u p => p.process u) t := by
  have hstep (p : Processor) (taps : List (Option String)) (t : Node .mod) :
      (step p taps t).2 = p.process t := by
    cases p with
    | shift offset => exact congrArg Except.ok (t.adjust_fst offset)
    | tap slot options =>
      simp only [step, Processor.process]
      cases t.render options <;> rfl
    | custom name action => rfl
  induction ps generalizing taps t with
  | nil => rfl
  | cons p more ih =>
    rw [List.foldlM_cons, ← hstep p taps t, runAll]
    rcases step p taps t with ⟨taps, _ | t⟩
    · rfl
    · exact ih taps t

theorem step_of_failure? {p : Processor} {e : Failure} (h : p.failure? t = some e) :
    step p taps t = (taps, .error e) := by
  cases p with
  | shift offset => cases h
  | tap slot options =>
    simp only [Processor.failure?, Processor.process] at h
    simp only [step]
    cases hrender : t.render options with
    | ok text =>
      rw [hrender] at h
      cases h
    | error flaw =>
      rw [hrender] at h
      cases h
      rfl
  | custom name action =>
    simp only [Processor.failure?, Processor.process] at h
    simp only [step]
    cases haction : action t with
    | ok u =>
      rw [haction] at h
      cases h
    | error flaw =>
      rw [haction] at h
      cases h
      rfl

theorem mem_slots_iff {slot : Nat} : slot ∈ ps.filterMap Processor.slot? ↔
    ∃ options, Processor.tap slot options ∈ ps := by
  rw [List.mem_filterMap]
  constructor
  · rintro ⟨p, hp, hslot⟩
    cases p with
    | tap other options =>
      cases hslot
      exact ⟨options, hp⟩
    | shift offset => cases hslot
    | custom name action => cases hslot
  · rintro ⟨options, hmem⟩
    exact ⟨_, hmem, rfl⟩

/-- Only a tap that is part of the pipeline writes to its slot. -/
theorem getElem?_runAll_of_notMem {slot : Nat} (h : slot ∉ ps.filterMap Processor.slot?) :
    (runAll ps taps t).1[slot]? = taps[slot]? := by
  induction ps generalizing taps t with
  | nil => rfl
  | cons p more ih =>
    have hmore : slot ∉ more.filterMap Processor.slot? := fun hmem =>
      h (((List.sublist_cons_self p more).filterMap _).subset hmem)
    have hstep : (step p taps t).1[slot]? = taps[slot]? := by
      cases p with
      | shift offset => rfl
      | custom name action => rfl
      | tap other options =>
        have hother : other ≠ slot := by
          rintro rfl
          exact h (mem_slots_iff.mpr ⟨options, List.mem_cons_self⟩)
        simp only [step]
        cases t.render options with
        | error flaw => rfl
        | ok text => exact List.getElem?_set_ne hother
    rw [runAll]
    rcases hresult : step p taps t with ⟨taps', _ | u⟩
    · rwa [hresult] at hstep
    · rw [hresult] at hstep
      exact (ih hmore).trans hstep

/-- Every tap of some processors holds the text of a tree. -/
def Holds (ps : List Processor) (t : Node .mod) (taps : List (Option String)) : Prop :=
  ∀ slot options, Processor.tap slot options ∈ ps →
    ∃ text, t.render options = .ok text ∧ taps[slot]? = some (some text)

variable (taps) in
/-- Processors that do not fail on a tree shift it once, by all offsets together. -/
theorem runAll_of_passed (hplain : ∀ p ∈ ps, p.Plain) (hpassed : ∀ p ∈ ps, p.failure? t = none) :
    (runAll ps taps t).2 = .ok (t.shift (.total (ps.filterMap Processor.offset?))) := by
  induction ps generalizing taps t with
  | nil => exact congrArg Except.ok t.shift_total_nil.symm
  | cons p more ih =>
    obtain ⟨hp, hmore⟩ := List.forall_mem_cons.mp hplain
    obtain ⟨hpass, hpasses⟩ := List.forall_mem_cons.mp hpassed
    cases hp with
    | shift offset =>
      have hshifted : ∀ q ∈ more, q.failure? (t.shift offset) = none := fun q hq =>
        ((hmore q hq).failure?_shift offset t).trans (hpasses q hq)
      simp only [runAll, step, Node.adjust_fst, ih taps hmore hshifted, Tree.shift_shift,
        List.filterMap_cons, Processor.offset?, Offset.total_cons]
    | tap slot options =>
      obtain ⟨text, hrender⟩ := Processor.exists_text_of_passed hpass
      simp only [runAll, step, hrender]
      exact ih _ hmore hpasses
    | failing name e => cases hpass

/-- Taps that do not fail on a tree hold its text, however it has been shifted before them. -/
theorem holds_runAll_of_passed (hplain : ∀ p ∈ ps, p.Plain)
    (hpassed : ∀ p ∈ ps, p.failure? t = none) (hnodup : (ps.filterMap Processor.slot?).Nodup)
    (hslots : ∀ slot ∈ ps.filterMap Processor.slot?, slot < taps.length) :
    Holds ps t (runAll ps taps t).1 := by
  induction ps generalizing taps t with
  | nil => exact fun _ _ hmem => absurd hmem List.not_mem_nil
  | cons p more ih =>
    obtain ⟨hp, hmore⟩ := List.forall_mem_cons.mp hplain
    obtain ⟨hpass, hpasses⟩ := List.forall_mem_cons.mp hpassed
    intro slot options hmem
    cases hp with
    | shift offset =>
      have hshifted : ∀ q ∈ more, q.failure? (t.shift offset) = none := fun q hq =>
        ((hmore q hq).failure?_shift offset t).trans (hpasses q hq)
      obtain hmem | hmem := List.mem_cons.mp hmem
      · cases hmem
      · have hheld : ∃ text, _ ∧ (runAll more taps (t.shift offset)).1[slot]? = some (some text) :=
          ih hmore hshifted hnodup hslots slot options hmem
        rw [Node.render_shift] at hheld
        simpa only [runAll, step, Node.adjust_fst] using hheld
    | tap first other =>
      obtain ⟨hfirst, hrest⟩ := List.nodup_cons.mp hnodup
      obtain ⟨hlt, hlts⟩ := List.forall_mem_cons.mp hslots
      obtain ⟨text, hrender⟩ := Processor.exists_text_of_passed hpass
      simp only [runAll, step, hrender]
      obtain hmem | hmem := List.mem_cons.mp hmem
      · cases hmem
        refine ⟨text, hrender, ?_⟩
        rw [getElem?_runAll_of_notMem hfirst, List.getElem?_set_self hlt]
      · exact ih hmore hpasses hrest (by simpa using hlts) slot options hmem
    | failing name e => cases hpass

theorem length_runAll (ps : List Processor) (taps : List (Option String)) (t : Node .mod) :
    (runAll ps taps t).1.length = taps.length := by
  induction ps generalizing taps t with
  | nil => rfl
  | cons p more ih =>
    have hstep : (step p taps t).1.length = taps.length := by
      cases p with
      | shift offset => rfl
      | custom name action => rfl
      | tap slot options =>
        simp only [step]
        cases t.render options with
        | error flaw => rfl
        | ok text => exact List.length_set
    rw [runAll]
    rcases hresult : step p taps t with ⟨taps', _ | u⟩
    · rwa [hresult] at hstep
    · rw [hresult] at hstep
      exact (ih taps' u).trans hstep

/-- A call of a client that only adds processors which shift, tap or fail. -/
inductive Call where
  | shift (offset : Offset)
  | tap (options : Options)
  | failing (name : String) (e : Failure)
  | remove (name : String)
  | run (t : Node .mod)

def Call.apply (line : Pipeline) : Call → Pipeline
  | shift offset => line.add (.shift offset)
  | tap options => line.addTap options
  | failing name e => line.add (.custom name fun _ => .error e)
  | remove name => line.remove name
  | run t => (line.run t).1

/-- The pipeline that some calls lead to. -/
def after (calls : List Call) : Pipeline :=
  calls.foldl Call.apply empty

/-- A pipeline in which each tap has a slot of its own. -/
structure Orderly (line : Pipeline) : Prop where
  plain : ∀ p ∈ line.processors, p.Plain
  nodup : (line.processors.filterMap Processor.slot?).Nodup
  lt : ∀ slot ∈ line.processors.filterMap Processor.slot?, slot < line.taps.length

namespace Orderly

variable {line : Pipeline}

theorem add (h : line.Orderly) {p : Processor} (hp : p.Plain) (hslot : p.slot? = none) :
    (line.add p).Orderly where
  plain := by simpa [Pipeline.add, or_imp, forall_and, hp] using h.plain
  nodup := by simpa [Pipeline.add, hslot] using h.nodup
  lt := by simpa [Pipeline.add, hslot] using h.lt

theorem addTap (h : line.Orderly) (options : Options) : (line.addTap options).Orderly where
  plain := by
    simpa [Pipeline.addTap, or_imp, forall_and, Processor.Plain.tap] using h.plain
  nodup := by
    have hnew : line.taps.length ∉ line.processors.filterMap Processor.slot? := fun hmem =>
      Nat.lt_irrefl _ (h.lt _ hmem)
    have hslots : (line.addTap options).processors.filterMap Processor.slot? =
        line.processors.filterMap Processor.slot? ++ [line.taps.length] := by
      simp [Pipeline.addTap, Processor.slot?]
    rw [hslots, List.nodup_append]
    refine ⟨h.nodup, List.nodup_singleton _, ?_⟩
    rintro slot hslot _ hmem rfl
    exact hnew (List.mem_singleton.mp hmem ▸ hslot)
  lt slot hslot := by
    simp only [Pipeline.addTap, List.filterMap_append, List.mem_append] at hslot
    rw [Pipeline.addTap, List.length_append]
    rcases hslot with hslot | hslot
    · exact Nat.lt_add_right 1 (h.lt slot hslot)
    · rw [List.mem_singleton.mp hslot]
      exact Nat.lt_add_one _

theorem remove (h : line.Orderly) (name : String) : (line.remove name).Orderly := by
  have hless : (line.remove name).processors.Sublist line.processors := List.eraseP_sublist
  exact ⟨fun p hp => h.plain p (hless.subset hp), h.nodup.sublist (hless.filterMap _),
    fun slot hslot => h.lt slot ((hless.filterMap _).subset hslot)⟩

theorem run (h : line.Orderly) (t : Node .mod) : (line.run t).1.Orderly where
  plain := h.plain
  nodup := h.nodup
  lt slot hslot := lt_of_lt_of_eq (h.lt slot hslot) (length_runAll ..).symm

theorem apply (h : line.Orderly) (call : Call) : (call.apply line).Orderly := by
  cases call with
  | shift offset => exact h.add (.shift offset) rfl
  | tap options => exact h.addTap options
  | failing name e => exact h.add (.failing name e) rfl
  | remove name => exact h.remove name
  | run t => exact h.run t

theorem foldl_apply (h : line.Orderly) (calls : List Call) :
    (calls.foldl Call.apply line).Orderly := by
  induction calls generalizing line with
  | nil => exact h
  | cons call more ih => exact ih (h.apply call)

end Orderly

theorem orderly_after (calls : List Call) : (after calls).Orderly :=
  have hempty : empty.Orderly :=
    ⟨fun _ hp => absurd hp List.not_mem_nil, List.nodup_nil, fun _ hp => absurd hp List.not_mem_nil⟩
  hempty.foldl_apply calls

/-- The first processor of a name has been dropped, or nothing if there is none. -/
def DropsFirst (name : String) (ps qs : List Processor) : Prop :=
  ((∀ p ∈ ps, p.name ≠ name) ∧ qs = ps) ∨
    ∃ before p later, ps = before ++ p :: later ∧ (∀ q ∈ before, q.name ≠ name) ∧
      p.name = name ∧ qs = before ++ later

theorem dropsFirst_iff {name : String} {ps qs : List Processor} :
    DropsFirst name ps qs ↔ qs = ps.eraseP (·.name == name) := by
  constructor
  · rintro (⟨hnone, rfl⟩ | ⟨before, p, later, rfl, hbefore, hname, rfl⟩)
    · exact (List.eraseP_of_forall_not (by simpa using hnone)).symm
    · rw [List.eraseP_append_right _ (by simpa using hbefore), List.eraseP_cons_of_pos (by simpa)]
  · rintro rfl
    by_cases hnamed : ∃ p ∈ ps, p.name = name
    · obtain ⟨p, hp, hname⟩ := hnamed
      obtain ⟨p, before, later, hbefore, hname, hline, hremoved⟩ :=
        List.exists_of_eraseP (p := fun q => q.name == name) hp (by simpa using hname)
      exact .inr ⟨before, p, later, hline, by simpa using hbefore, by simpa using hname, hremoved⟩
    · have hnone : ∀ p ∈ ps, p.name ≠ name := fun p hp hname => hnamed ⟨p, hp, hname⟩
      exact .inl ⟨hnone, List.eraseP_of_forall_not (by simpa using hnone)⟩

def Call.isTap : Call → Bool
  | tap _ => true
  | _ => false

/-- What a client that has made these calls expects to be run: every processor that was added comes
last at that time, and stays until a call drops the first one of its name. Taps are numbered as
they were added. -/
inductive Held : List Call → List Processor → Prop where
  | start : Held [] []
  | shift {calls : List Call} {ps : List Processor} (offset : Offset) (h : Held calls ps) :
    Held (calls ++ [.shift offset]) (ps ++ [.shift offset])
  | tap {calls : List Call} {ps : List Processor} (options : Options) (h : Held calls ps) :
    Held (calls ++ [.tap options]) (ps ++ [.tap (calls.countP Call.isTap) options])
  | failing {calls : List Call} {ps : List Processor} (name : String) (e : Failure)
    (h : Held calls ps) :
    Held (calls ++ [.failing name e]) (ps ++ [.custom name fun _ => .error e])
  | remove {calls : List Call} {ps qs : List Processor} (name : String) (h : Held calls ps)
    (hdrops : DropsFirst name ps qs) : Held (calls ++ [.remove name]) qs
  | run {calls : List Call} {ps : List Processor} (t : Node .mod) (h : Held calls ps) :
    Held (calls ++ [.run t]) ps

theorem after_concat (calls : List Call) (call : Call) :
    after (calls ++ [call]) = call.apply (after calls) :=
  List.foldl_append

theorem length_taps_after (calls : List Call) :
    (after calls).taps.length = calls.countP Call.isTap := by
  induction calls using List.reverseRec with
  | nil => rfl
  | append_singleton calls call ih =>
    rw [after_concat, List.countP_append, ← ih]
    cases call with
    | run t => exact length_runAll ..
    | tap options => exact List.length_append
    | _ => rfl

theorem held_after (calls : List Call) : Held calls (after calls).processors := by
  induction calls using List.reverseRec with
  | nil => exact .start
  | append_singleton calls call ih =>
    rw [after_concat]
    cases call with
    | shift offset => exact .shift offset ih
    | tap options =>
      have htap := Held.tap options ih
      rwa [← length_taps_after calls] at htap
    | failing name e => exact .failing name e ih
    | remove name => exact .remove name ih (dropsFirst_iff.mpr rfl)
    | run t => exact .run t ih

theorem Held.eq_after {calls : List Call} {ps : List Processor} (h : Held calls ps) :
    ps = (after calls).processors := by
  induction h with
  | start => rfl
  | shift offset _ ih =>
    rw [after_concat, ih]
    rfl
  | @tap calls ps options _ ih =>
    rw [after_concat, ih, ← length_taps_after calls]
    rfl
  | failing name e _ ih =>
    rw [after_concat, ih]
    rfl
  | remove name _ hdrops ih =>
    rw [after_concat, dropsFirst_iff.mp hdrops, ih]
    rfl
  | run t _ ih =>
    rw [after_concat, ih]
    rfl

theorem held_iff (calls : List Call) (ps : List Processor) :
    Held calls ps ↔ ps = (after calls).processors :=
  ⟨Held.eq_after, fun h => h ▸ held_after calls⟩

variable (taps) in
/-- If a processor fails and none before it does, the run ends there. -/
theorem runAll_of_failure? {before later : List Processor} {p : Processor} {e : Failure}
    (hplain : ∀ q ∈ before ++ p :: later, q.Plain) (hbefore : ∀ q ∈ before, q.failure? t = none)
    (hp : p.failure? t = some e) :
    runAll (before ++ p :: later) taps t = ((runAll before taps t).1, .error e) := by
  have hpassed :=
    runAll_of_passed taps (fun q hq => hplain q (List.mem_append_left _ hq)) hbefore
  have hfailed := ((hplain p (by simp)).failure?_shift
    (.total (before.filterMap Processor.offset?)) t).trans hp
  rw [runAll_append]
  rcases hrun : runAll before taps t with ⟨taps', result⟩
  rw [hrun] at hpassed
  subst hpassed
  simp only [runAll, step_of_failure? hfailed]

/-- A run in closed form. The processors are exactly those that the calls have added and not
removed again, in the order in which they were added, and each gets what the one before it
returned. If none of them fails on the tree that is put in, it comes out shifted once, by all
offsets together, and every tap holds its text. If one of them is the first to fail, its failure
comes out; the taps before it hold the text, and those from there on what they held before, as taps
that have been removed always do. -/
theorem run_closed_form (calls : List Call) (t : Node .mod) :
    (∀ ps, Held calls ps ↔ ps = (after calls).processors) ∧
    ∀ ps, Held calls ps →
      ((after calls).run t).2 = ps.foldlM (fun u p => p.process u) t ∧
      (∀ os, os = ps.filterMap Processor.offset? →
        (∀ p ∈ ps, p.failure? t = none) →
        ((after calls).run t).2 = .ok (t.shift (.total os)) ∧
        (∀ place : Position, place.shift (.total os) =
          ⟨.ofNat (min (place.line.toNat + (os.map (·.lines.toNat)).sum) (2 ^ 32 - 1)),
            .ofNat (min (place.column.toNat + (os.map (·.columns.toNat)).sum) (2 ^ 32 - 1))⟩) ∧
        Holds ps t ((after calls).run t).1.taps) ∧
      (∀ before p later e, ps = before ++ p :: later →
        (∀ q ∈ before, q.failure? t = none) → p.failure? t = some e →
        ((after calls).run t).2 = .error e ∧
        Holds before t ((after calls).run t).1.taps ∧
        ∀ slot options, Processor.tap slot options ∈ p :: later →
          ((after calls).run t).1.taps[slot]? = (after calls).taps[slot]?) ∧
      (∀ slot, (∀ options, Processor.tap slot options ∉ ps) →
        ((after calls).run t).1.taps[slot]? = (after calls).taps[slot]?) := by
  refine ⟨held_iff calls, ?_⟩
  intro ps hheld
  obtain ⟨hplain, hnodup, hlt⟩ := orderly_after calls
  rw [← hheld.eq_after] at hplain hnodup hlt
  rw [run, ← hheld.eq_after]
  refine ⟨runAll_snd .., ?_, ?_, ?_⟩
  · rintro os rfl hpassed
    exact ⟨runAll_of_passed _ hplain hpassed, Position.shift_total _,
      holds_runAll_of_passed hplain hpassed hnodup hlt⟩
  · rintro before p later e rfl hbefore hp
    have hrun := runAll_of_failure? (after calls).taps hplain hbefore hp
    rw [List.filterMap_append, List.nodup_append] at hnodup
    rw [hrun]
    refine ⟨rfl, ?_, fun slot options hslot => getElem?_runAll_of_notMem fun hmem => ?_⟩
    · refine holds_runAll_of_passed (fun q hq => hplain q (List.mem_append_left _ hq)) hbefore
        hnodup.1 fun slot hslot => hlt slot ?_
      rw [List.filterMap_append]
      exact List.mem_append_left _ hslot
    · exact hnodup.2.2 slot hmem slot (mem_slots_iff.mpr ⟨options, hslot⟩) rfl
  · intro slot hslot
    refine getElem?_runAll_of_notMem fun hmem => ?_
    obtain ⟨options, htap⟩ := mem_slots_iff.mp hmem
    exact hslot options htap

/-- A tree with one statement, near the last line that a position can have. -/
def lateName : Node .mod :=
  Stmt.module [.withPosition ⟨4294967290, 0⟩ (Stmt.expr (Expr.name "x"))]

/-- Two shifts around a tap; a processor that fails has been removed again. -/
def shifting : List Call :=
  [.shift ⟨3, 4⟩, .failing "veto" .io, .tap {}, .shift ⟨8, 1⟩, .remove "veto"]

/-- The same with a processor that fails and one more tap behind it. -/
def vetoing : List Call :=
  shifting ++ [.failing "veto" .io, .tap {}]

theorem lateName_closed_form :
    (((after shifting).run lateName).2 =
        .ok (Stmt.module [.withPosition ⟨4294967295, 5⟩ (Stmt.expr (Expr.name "x"))]) ∧
      ((after shifting).run lateName).1.taps[0]? = some (some "x\n")) ∧
    ((after vetoing).run lateName).2 = .error .io ∧
      ((after vetoing).run lateName).1.taps[0]? = some (some "x\n") ∧
      ((after vetoing).run lateName).1.taps[1]? = some none := by
  have hrender : lateName.render {} = .ok "x\n" := rfl
  have hpassed : ∀ p ∈ [.shift ⟨3, 4⟩, .tap 0 {}, .shift ⟨8, 1⟩],
      Processor.failure? lateName p = none := by
    simp [Processor.failure?, Processor.process, hrender, Except.map, Except.mapError]
  obtain ⟨hheld, hrun⟩ := run_closed_form shifting lateName
  obtain ⟨hheld', hrun'⟩ := run_closed_form vetoing lateName
  obtain ⟨_, hpassing, _⟩ :=
    hrun [.shift ⟨3, 4⟩, .tap 0 {}, .shift ⟨8, 1⟩] ((hheld _).mpr rfl)
  obtain ⟨_, _, hfailing, _⟩ :=
    hrun' ([.shift ⟨3, 4⟩, .tap 0 {}, .shift ⟨8, 1⟩] ++
      .custom "veto" (fun _ => .error .io) :: [.tap 1 {}]) ((hheld' _).mpr rfl)
  obtain ⟨hshifted, _, htaps⟩ := hpassing _ rfl hpassed
  obtain ⟨hfailed, htaps', hkept⟩ := hfailing _ _ _ _ rfl hpassed rfl
  have htext {text : String} (h : lateName.render {} = .ok text) : text = "x\n" :=
    (Except.ok.inj (hrender.symm.trans h)).symm
  obtain ⟨text, ht, hslot⟩ := htaps 0 {} (by simp)
  obtain ⟨text', ht', hslot'⟩ := htaps' 0 {} (by simp)
  rw [htext ht] at hslot
  rw [htext ht'] at hslot'
  exact ⟨⟨hshifted, hslot⟩, hfailed, hslot', hkept 1 {} (by simp)⟩

end Pipeline

end Unparse
