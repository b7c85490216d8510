import Unparse.Proofs.Draft.Lines
import Unparse.Script

/-! Running a draft. On a page a draft acts like the program it is written as: parts are run
in turn, the first failure ends the run, and a block is run between going one level down and
going one level up. -/
namespace Unparse

theorem Action.performAll_append (d : Dialect) (as bs : List Action) (p : Page) :
    performAll d (as ++ bs) p =
      match performAll d as p with
      | (q, .ok ()) => performAll d bs q
      | (q, .error e) => (q, .error e) := by
  induction as generalizing p with
  | nil => rfl
  | cons action more ih =>
    simp only [List.cons_append, performAll]
    rcases perform d action p with ⟨q, e | _⟩
    · rfl
    · exact ih q

namespace Draft

variable {A B : Type} (d : Dialect)

theorem run_pure (a : A) (p : Page) : (pure a : Draft A).run d p = (p, .ok a) :=
  rfl

theorem run_bind (x : Draft A) (f : A → Draft B) (p : Page) :
    (x >>= f).run d p =
      match x.run d p with
      | (q, .ok a) => (f a).run d q
      | (q, .error e) => (q, .error e) := by
  cases hx : x.outcome with
  | error flaw =>
    rw [bind_of_error hx]
    simp only [run, hx]
    rcases Action.performAll d x.actions p with ⟨q, e | _⟩ <;> rfl
  | ok a =>
    rw [bind_of_ok hx]
    simp only [run, Action.performAll_append, hx]
    rcases Action.performAll d x.actions p with ⟨q, e | _⟩ <;> rfl

theorem run_emit (text : String) (p : Page) : (emit text).run d p = (p.emit text, .ok ()) :=
  rfl

theorem run_verbatim (text : String) (p : Page) :
    (verbatim text).run d p = (p.verbatim text, .ok ()) :=
  rfl

theorem run_fail (k : Kind) (fault : Fault) (p : Page) :
    (fail k fault : Draft A).run d p = (p, .error (.malformed ⟨k, fault⟩)) :=
  rfl

theorem run_demand (k : Kind) (p : Page) :
    (demand k).run d p = (p, if d.supports k then .ok () else .error (.unsupported k d)) := by
  cases h : d.supports k <;>
    simp [run, demand, Action.performAll, Action.perform, Demand.met, Demand.refusal, h,
      mapError_ok]

theorem run_demandBackslash (k : Kind) (p : Page) :
    (demandBackslash k).run d p =
      (p, if d.allowsBackslash then .ok () else .error (.malformed ⟨k, .backslash⟩)) := by
  cases h : d.allowsBackslash <;>
    simp [run, demandBackslash, Action.performAll, Action.perform, Demand.met, Demand.refusal, h,
      mapError_ok]

/-- The level after a block is the level after its body, less one. -/
theorem run_block (x : Draft A) (p : Page) :
    (block x).run d p = ((x.run d p.enter).1.leave, (x.run d p.enter).2) := by
  simp only [run, block, Action.performAll, Action.perform]
  rcases Action.performAll d x.actions p.enter with ⟨q, e | _⟩ <;> rfl

theorem bind_pure_unit (x : Draft Unit) : (x >>= fun _ => pure ()) = x := by
  cases hx : x.outcome with
  | error flaw =>
    rw [bind_of_error hx, ← hx]
  | ok a =>
    rw [bind_of_ok hx]
    show (⟨x.actions ++ [], .ok ()⟩ : Draft Unit) = x
    rw [List.append_nil, ← hx]

variable {d}

/-- A demand that is met leaves no trace. -/
theorem run_demand_bind {k : Kind} (hk : d.supports k = true) (f : Unit → Draft A) (p : Page) :
    (demand k >>= f).run d p = (f ()).run d p := by
  rw [run_bind, run_demand, hk]
  rfl

/-- If parts that are run in turn end well, each of them does, and their lines follow each
other. -/
theorem of_result_bind_ok {x : Draft A} {f : A → Draft B} {b : B}
    (h : (x >>= f).result d = .ok b) :
    ∃ a, x.result d = .ok a ∧ (f a).result d = .ok b ∧
      (x >>= f).lines d = x.lines d ++ (f a).lines d := by
  cases hx : x.outcome with
  | error flaw =>
    simp only [result, entries_bind_of_error hx, outcome_bind_of_error hx] at h
    cases hs : (settle d x.entries).2 <;> rw [hs] at h <;> cases h
  | ok a =>
    simp only [result, lines, entries_bind_of_ok hx, outcome_bind_of_ok hx, settle_append, hx]
      at h ⊢
    cases hs : settle d x.entries with
    | mk ls unmet =>
      cases unmet with
      | some need => simp [hs] at h
      | none => exact ⟨a, rfl, by simpa [hs] using h, rfl⟩

theorem result_bind_eq_ok_iff {x : Draft A} {f : A → Draft B} {b : B} :
    (x >>= f).result d = .ok b ↔ ∃ a, x.result d = .ok a ∧ (f a).result d = .ok b := by
  rw [← run_snd d (x >>= f) (Page.blank 0), run_bind, run_eq]
  cases hx : x.result d with
  | error e => simp
  | ok a => simp [run_snd]

/-- A value that is made of the value of a draft adds no line. -/
theorem lines_bind_pure (x : Draft A) (g : A → B) :
    (x >>= fun a => pure (g a)).lines d = x.lines d := by
  unfold lines
  cases hx : x.outcome with
  | error flaw => rw [entries_bind_of_error hx]
  | ok a => rw [entries_bind_of_ok hx, entries_pure, List.append_nil]

theorem result_block (x : Draft A) : (block x).result d = x.result d := by
  simp only [result, entries_block, settle_deeper]
  rfl

theorem lines_block (x : Draft A) : (block x).lines d = (x.lines d).map Line.deeper := by
  simp only [lines, entries_block, settle_deeper]

theorem result_pure (a : A) : (pure a : Draft A).result d = .ok a :=
  rfl

theorem result_demand_eq_ok_iff {k : Kind} :
    (demand k).result d = .ok () ↔ d.supports k = true := by
  rw [← run_snd d (demand k) (Page.blank 0), run_demand]
  cases d.supports k <;> simp

theorem result_emit (text : String) : (emit text).result d = .ok () := by
  rw [← run_snd d (emit text) (Page.blank 0), run_emit]

theorem lines_emit (text : String) :
    (emit text).lines d = (Text.lines text).map fun piece => ⟨0, piece⟩ := by
  have hline : (fun piece => Entry.line ⟨0, piece⟩) = Entry.line ∘ fun piece => ⟨0, piece⟩ := rfl
  rw [lines, entries_emit, hline, ← List.map_map, settle_map_line]

theorem result_refuse_eq_ok_iff {condition : Bool} {k : Kind} {fault : Fault} :
    (refuse condition k fault).result d = .ok () ↔ condition = false := by
  cases condition with
  | false => exact iff_of_true rfl rfl
  | true => exact iff_of_false nofun nofun

/-- Parts without a value end well if each of them does. -/
theorem result_then_eq_ok_iff {x : Draft Unit} {f : Unit → Draft B} {b : B} :
    (x >>= f).result d = .ok b ↔ x.result d = .ok () ∧ (f ()).result d = .ok b := by
  rw [result_bind_eq_ok_iff]
  constructor
  · rintro ⟨_, hx, hf⟩
    exact ⟨hx, hf⟩
  · rintro ⟨hx, hf⟩
    exact ⟨(), hx, hf⟩

theorem result_each_eq_ok_iff {xs : List (Draft Unit)} :
    (each xs).result d = .ok () ↔ ∀ x ∈ xs, x.result d = .ok () := by
  induction xs with
  | nil => exact ⟨fun _ _ hx => absurd hx List.not_mem_nil, fun _ => rfl⟩
  | cons x more ih => rw [each, result_then_eq_ok_iff, ih, List.forall_mem_cons]

theorem lines_each {xs : List (Draft Unit)} (h : (each xs).result d = .ok ()) :
    (each xs).lines d = xs.flatMap (lines d) := by
  induction xs with
  | nil => rfl
  | cons x more ih =>
    obtain ⟨_, -, hmore, hlines⟩ := of_result_bind_ok h
    rw [each, hlines, ih hmore, List.flatMap_cons]

end Draft

namespace Node

open Draft

variable {d : Dialect} {t : Node .stmt}

/-- Printing a statement is running its draft. -/
theorem print_of_view {v : StmtView} (h : Render.view t = v) (page : Page) :
    t.print d page = v.draft.run d page := by
  have hdraft : t.draft = v.draft >>= fun _ => pure "" :=
    congrArg (fun w : StmtView => w.draft >>= fun _ => pure "") h
  unfold print
  rw [hdraft, run_bind]
  rcases v.draft.run d page with ⟨q, _ | _⟩
  · rfl
  · dsimp only
    rw [run_pure]
    rfl

theorem lines_draft (t : Node .stmt) : t.draft.lines d = (Render.view t).draft.lines d :=
  lines_bind_pure _ _

/-- Whether a statement is printed does not depend on the page. -/
theorem print_ok_iff {page : Page} :
    (t.print d page).2 = .ok () ↔ (Render.view t).draft.result d = .ok () := by
  rw [print_of_view rfl, run_snd]

end Node

end Unparse
