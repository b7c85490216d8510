import Unparse.Render

/-! What a draft does to a page. It is carried out action by action on a page that changes as it
goes, but whatever the page is, it comes down to the same thing: the lines that the draft lays out
before the first demand that is not met, each at some depth, and the result. -/
namespace Unparse

section Errors

variable {E F A : Type} (f : E → F)

theorem mapError_ok (a : A) : (Except.ok a : Except E A).mapError f = .ok a :=
  rfl

theorem mapError_error (e : E) : (Except.error e : Except E A).mapError f = .error (f e) :=
  rfl

end Errors

/-- A text at some number of levels below the current one. -/
structure Line where
  depth : Nat
  text : String
deriving DecidableEq, Repr

def Line.deeper (l : Line) : Line :=
  { l with depth := l.depth + 1 }

namespace Page

def written (p : Page) (l : Line) : String :=
  Text.copies (p.level + l.depth) p.unit ++ l.text ++ "\n"

/-- The page with some lines below those that it has. -/
def print (p : Page) (ls : List Line) : Page :=
  { p with lines := p.lines ++ ls.map p.written }

@[simp] theorem print_nil (p : Page) : p.print [] = p := by
  simp [print]

theorem print_append (p : Page) (ls ms : List Line) :
    p.print (ls ++ ms) = (p.print ls).print ms := by
  simp only [print, List.map_append, List.append_assoc]
  rfl

theorem verbatim_eq_print (p : Page) (text : String) : p.verbatim text = p.print [⟨0, text⟩] :=
  rfl

theorem emit_eq_print (p : Page) (text : String) :
    p.emit text = p.print ((Text.lines text).map fun piece => ⟨0, piece⟩) := by
  unfold emit
  induction Text.lines text generalizing p with
  | nil => rw [List.map_nil, print_nil, List.foldl_nil]
  | cons piece more ih =>
    rw [List.foldl_cons, ih, verbatim_eq_print, ← print_append, List.map_cons,
      List.singleton_append]

/-- A level of the line counts for as much as a level of the page. -/
theorem written_deeper (p : Page) (l : Line) : p.written l.deeper = p.enter.written l := by
  simp only [written, Line.deeper, enter]
  rw [Nat.add_right_comm p.level 1 l.depth, Nat.add_assoc]

theorem map_written_deeper (p : Page) (ls : List Line) :
    (ls.map Line.deeper).map p.written = ls.map p.enter.written := by
  rw [List.map_map]
  exact List.map_congr_left fun l _ => p.written_deeper l

theorem leave_print_enter (p : Page) (ls : List Line) :
    (p.enter.print ls).leave = p.print (ls.map Line.deeper) := by
  have hlevel : (p.enter.print ls).level - 1 = p.level := Nat.add_sub_cancel p.level 1
  simp only [leave, hlevel]
  rw [print, print, p.map_written_deeper]
  rfl

end Page

/-- What a draft demands, and what it lays out. -/
inductive Entry where
  | demand (d : Demand)
  | line (l : Line)
deriving DecidableEq, Repr

def Entry.deeper : Entry → Entry
  | demand d => demand d
  | line l => line l.deeper

namespace Action

mutual

/-- What an action comes down to, apart from any page. -/
def entries : Action → List Entry
  | .demand need => [.demand need]
  | .emit text => (Text.lines text).map fun piece => .line ⟨0, piece⟩
  | .verbatim text => [.line ⟨0, text⟩]
  | .block body => (entriesAll body).map Entry.deeper

def entriesAll : List Action → List Entry
  | [] => []
  | action :: more => entries action ++ entriesAll more

end

theorem entriesAll_append (as bs : List Action) :
    entriesAll (as ++ bs) = entriesAll as ++ entriesAll bs := by
  induction as with
  | nil => rfl
  | cons action more ih => rw [List.cons_append, entriesAll, entriesAll, ih, List.append_assoc]

end Action

namespace Draft

variable {A B : Type} (d : Dialect)

def entries (x : Draft A) : List Entry :=
  Action.entriesAll x.actions

theorem entries_bind_of_ok {x : Draft A} {a : A} (h : x.outcome = .ok a) (f : A → Draft B) :
    (x >>= f).entries = x.entries ++ (f a).entries := by
  rw [bind_of_ok h]
  exact Action.entriesAll_append ..

theorem mem_entries_bind_of_ok {x : Draft A} {a : A} (h : x.outcome = .ok a) {f : A → Draft B}
    {e : Entry} : e ∈ (x >>= f).entries ↔ e ∈ x.entries ∨ e ∈ (f a).entries := by
  rw [entries_bind_of_ok h, List.mem_append]

theorem entries_bind_of_error {x : Draft A} {flaw : Flaw} (h : x.outcome = .error flaw)
    (f : A → Draft B) : (x >>= f).entries = x.entries := by
  rw [bind_of_error h]
  rfl

theorem outcome_bind_of_ok {x : Draft A} {a : A} (h : x.outcome = .ok a) (f : A → Draft B) :
    (x >>= f).outcome = (f a).outcome := by
  rw [bind_of_ok h]

theorem outcome_bind_of_error {x : Draft A} {flaw : Flaw} (h : x.outcome = .error flaw)
    (f : A → Draft B) : (x >>= f).outcome = .error flaw := by
  rw [bind_of_error h]

@[simp] theorem entries_pure (a : A) : (pure a : Draft A).entries = [] :=
  rfl

@[simp] theorem entries_fail (k : Kind) (fault : Fault) : (fail k fault : Draft A).entries = [] :=
  rfl

@[simp] theorem entries_demand (k : Kind) : (demand k).entries = [.demand (.kind k)] :=
  rfl

@[simp] theorem entries_demandBackslash (k : Kind) :
    (demandBackslash k).entries = [.demand (.backslash k)] :=
  rfl

@[simp] theorem entries_emit (text : String) :
    (emit text).entries = (Text.lines text).map fun piece => .line ⟨0, piece⟩ :=
  List.append_nil _

@[simp] theorem entries_verbatim (text : String) : (verbatim text).entries = [.line ⟨0, text⟩] :=
  rfl

@[simp] theorem entries_block (x : Draft A) : (block x).entries = x.entries.map Entry.deeper :=
  List.append_nil _

/-- The lines before the first demand that the dialect does not meet, and that demand. -/
def settle (d : Dialect) : List Entry → List Line × Option Demand
  | [] => ([], none)
  | .line l :: more =>
    let (ls, unmet) := settle d more
    (l :: ls, unmet)
  | .demand need :: more => if need.met d then settle d more else ([], some need)

def lines (x : Draft A) : List Line :=
  (settle d x.entries).1

def result (x : Draft A) : Except RenderError A :=
  match (settle d x.entries).2 with
  | some need => .error (need.refusal d)
  | none => x.outcome.mapError .malformed

/-- The second part is settled only if the first one makes no demand that is not met. -/
theorem settle_append (xs ys : List Entry) :
    settle d (xs ++ ys) =
      match settle d xs with
      | (ls, none) => (ls ++ (settle d ys).1, (settle d ys).2)
      | (ls, some need) => (ls, some need) := by
  induction xs with
  | nil => rfl
  | cons e more ih =>
    cases e with
    | line l =>
      simp only [List.cons_append, settle, ih]
      rcases settle d more with ⟨ls, _ | need⟩ <;> rfl
    | demand need =>
      simp only [List.cons_append, settle]
      split
      · exact ih
      · rfl

theorem settle_deeper (es : List Entry) :
    settle d (es.map Entry.deeper) = ((settle d es).1.map Line.deeper, (settle d es).2) := by
  induction es with
  | nil => rfl
  | cons e more ih =>
    cases e with
    | line l => simp only [List.map_cons, Entry.deeper, settle, ih]
    | demand need =>
      simp only [List.map_cons, Entry.deeper, settle]
      split
      · exact ih
      · rfl

theorem settle_map_line (ls : List Line) : settle d (ls.map .line) = (ls, none) := by
  induction ls with
  | nil => rfl
  | cons l more ih => simp only [List.map_cons, settle, ih]

end Draft

namespace Action

open Draft

/-- What is said of a demand that is not met. -/
def refusal? (d : Dialect) : Option Demand → Except RenderError Unit
  | none => .ok ()
  | some need => .error (need.refusal d)

/-- What settled entries do to a page. -/
def settled (d : Dialect) (es : List Entry) (p : Page) : Page × Except RenderError Unit :=
  (p.print (settle d es).1, refusal? d (settle d es).2)

theorem settled_append (d : Dialect) (es fs : List Entry) (p : Page) :
    settled d (es ++ fs) p =
      match settled d es p with
      | (q, .ok ()) => settled d fs q
      | (q, .error e) => (q, .error e) := by
  simp only [settled, settle_append]
  rcases settle d es with ⟨ls, _ | need⟩
  · simp only [refusal?, Page.print_append]
  · rfl

theorem settled_deeper (d : Dialect) (es : List Entry) (p : Page) :
    settled d (es.map Entry.deeper) p =
      ((settled d es p.enter).1.leave, (settled d es p.enter).2) := by
  simp only [settled, settle_deeper, Page.leave_print_enter]

mutual

/-- The page goes from action to action, but what becomes of it is settled by the entries alone.
A block is the one that matters: the level goes up and down again around lines that are printed
at the upper level. -/
theorem perform_eq (d : Dialect) : (action : Action) → (p : Page) →
    action.perform d p = settled d action.entries p
  | .demand need, p => by
    rw [perform, entries, settled]
    simp only [settle]
    split
    · rw [Page.print_nil]
      rfl
    · rw [Page.print_nil]
      rfl
  | .emit text, p => by
    have hlines : (Text.lines text).map (fun piece => Entry.line ⟨0, piece⟩) =
        ((Text.lines text).map fun piece => (⟨0, piece⟩ : Line)).map .line := by
      rw [List.map_map]
      rfl
    rw [perform, entries, settled, hlines, settle_map_line, Page.emit_eq_print]
    rfl
  | .verbatim text, p => rfl
  | .block body, p => by
    rw [perform, entries, settled_deeper, performAll_eq d body p.enter]

theorem performAll_eq (d : Dialect) : (actions : List Action) → (p : Page) →
    performAll d actions p = settled d (entriesAll actions) p
  | [], p => by
    rw [performAll, entriesAll, settled]
    simp only [settle, Page.print_nil]
    rfl
  | action :: more, p => by
    rw [performAll, entriesAll, settled_append, ← perform_eq d action p]
    rcases perform d action p with ⟨q, e | _⟩
    · rfl
    · exact performAll_eq d more q

end

end Action

namespace Draft

variable {A : Type} (d : Dialect)

/-- Wherever a draft is run, it prints its lines and has its result. -/
theorem run_eq (x : Draft A) (p : Page) : x.run d p = (p.print (x.lines d), x.result d) := by
  unfold run lines result entries
  rw [Action.performAll_eq, Action.settled]
  cases (settle d (Action.entriesAll x.actions)).2 <;> rfl

theorem run_fst (x : Draft A) (p : Page) : (x.run d p).1 = p.print (x.lines d) := by
  rw [run_eq]

theorem run_snd (x : Draft A) (p : Page) : (x.run d p).2 = x.result d := by
  rw [run_eq]

end Draft

namespace Node

theorem render_eq {f : Family} (options : Options) (t : Node f) :
    t.render options = (t.draft.result options.dialect).map
      (((Page.blank options.width).print (t.draft.lines options.dialect)).text ++ ·) := by
  unfold render
  rw [Draft.run_eq]

theorem print_eq (d : Dialect) (t : Node .stmt) (page : Page) :
    t.print d page = (page.print (t.draft.lines d), (t.draft.result d).map fun _ => ()) := by
  unfold print
  rw [Draft.run_eq]

end Node

end Unparse
