import Unparse.Proofs.Draft.Running
import Unparse.Proofs.FStrings

/-! Chains of conditionals. A test that is made only where another one failed has no word of its
own: it stands in the else-block of the other test, one level deeper. A chain of any length is
laid out link by link, and what a link or the last else-block adds is what its statements would
add alone, moved to its level. -/
namespace Unparse

open Draft Render

theorem Text.copies_add (m n : Nat) (s : String) :
    copies (m + n) s = copies m s ++ copies n s := by
  rw [copies, List.replicate_add, String.join_append, copies, copies]

namespace Render.Statement

variable {d : Dialect} {body orelse : List StmtView}

theorem result_block_eq_ok_iff :
    (block body).result d = .ok () ↔ ∀ s ∈ body, s.draft.result d = .ok () := by
  rw [block, Draft.result_block]
  cases body with
  | nil => simp [result_emit]
  | cons s more => simp [drafts, result_each_eq_ok_iff]

theorem lines_block (hne : body ≠ []) (h : (block body).result d = .ok ()) :
    (block body).lines d = (body.flatMap fun s => s.draft.lines d).map Line.deeper := by
  have hdrafts : block body = Draft.block (drafts body) := by simp [block, hne]
  rw [hdrafts, Draft.result_block] at h
  rw [hdrafts, Draft.lines_block, drafts, lines_each h, List.flatMap_map]

theorem elseBlock_cons (s : StmtView) (more : List StmtView) :
    elseBlock (s :: more) = emit "else:" >>= fun _ => block (s :: more) :=
  rfl

theorem result_elseBlock_eq_ok_iff :
    (elseBlock orelse).result d = .ok () ↔ ∀ s ∈ orelse, s.draft.result d = .ok () := by
  cases orelse with
  | nil => exact ⟨fun _ _ hs => absurd hs List.not_mem_nil, fun _ => rfl⟩
  | cons s more =>
    rw [elseBlock_cons, result_then_eq_ok_iff, result_block_eq_ok_iff,
      and_iff_right (result_emit "else:")]

theorem lines_elseBlock (h : (elseBlock orelse).result d = .ok ()) :
    (elseBlock orelse).lines d =
      if orelse = [] then []
      else ⟨0, "else:"⟩ :: (orelse.flatMap fun s => s.draft.lines d).map Line.deeper := by
  cases orelse with
  | nil => rfl
  | cons s more =>
    rw [elseBlock_cons] at h ⊢
    obtain ⟨_, -, hblock, hlines⟩ := of_result_bind_ok h
    rw [hlines, lines_block (List.cons_ne_nil _ _) hblock, lines_emit]
    rfl

section Tested

variable {k : Kind} {keyword text : String} {test : ExprView}

theorem result_tested_eq_ok_iff :
    (tested k keyword test body orelse).draft.result d = .ok () ↔
      d.supports k = true ∧ (∃ text, test.text.result d = .ok text) ∧
        (∀ s ∈ body, s.draft.result d = .ok ()) ∧ ∀ s ∈ orelse, s.draft.result d = .ok () := by
  have hdraft : (tested k keyword test body orelse).draft =
    demand k >>= fun _ => test.text >>= fun text => emit (keyword ++ " " ++ text ++ ":") >>=
      fun _ => block body >>= fun _ => elseBlock orelse := rfl
  have hblocks (header : String) :
      (emit header >>= fun _ => block body >>= fun _ => elseBlock orelse).result d = .ok () ↔
        (∀ s ∈ body, s.draft.result d = .ok ()) ∧ ∀ s ∈ orelse, s.draft.result d = .ok () := by
    rw [result_then_eq_ok_iff, result_then_eq_ok_iff, result_block_eq_ok_iff,
      result_elseBlock_eq_ok_iff, and_iff_right (result_emit header)]
  rw [hdraft, result_then_eq_ok_iff, result_demand_eq_ok_iff, result_bind_eq_ok_iff]
  simp only [hblocks, exists_and_right]

/-- The header, the block and the else-block follow each other. -/
theorem lines_tested (hquiet : ∀ l, Entry.line l ∉ test.text.entries)
    (htext : test.text.result d = .ok text) (hne : body ≠ [])
    (h : (tested k keyword test body orelse).draft.result d = .ok ()) :
    (tested k keyword test body orelse).draft.lines d =
      (Text.lines (keyword ++ " " ++ text ++ ":")).map (fun piece => ⟨0, piece⟩) ++
        (body.flatMap fun s => s.draft.lines d).map Line.deeper ++
          if orelse = [] then []
          else ⟨0, "else:"⟩ :: (orelse.flatMap fun s => s.draft.lines d).map Line.deeper := by
  obtain ⟨_, hk, hrest, hkind⟩ := of_result_bind_ok h
  obtain ⟨other, hother, hrest, htest⟩ := of_result_bind_ok hrest
  have hsame : other = text := Except.ok.inj (hother.symm.trans htext)
  subst hsame
  obtain ⟨_, -, hrest, hheader⟩ := of_result_bind_ok hrest
  obtain ⟨_, hblock, helse, hblocks⟩ := of_result_bind_ok hrest
  have hdemand : (demand k).lines d = [] := lines_of_quiet (by simp) hk
  change Draft.lines d (demand k >>= _) = _
  rw [hkind, htest, hheader, hblocks, hdemand, lines_of_quiet hquiet htext, lines_emit,
    lines_block hne hblock, lines_elseBlock helse, List.nil_append, List.nil_append,
    List.append_assoc]

end Tested

end Render.Statement

/-- The entries of a text that is laid out at a level. -/
def Page.entriesAt (unit : String) (level : Nat) (text : String) : List String :=
  (Text.lines text).map fun piece => Text.copies level unit ++ piece ++ "\n"

namespace Node

/-- The entries of statements at a level: each statement is printed alone and moved there. -/
def movedTo (d : Dialect) (unit : String) (level : Nat) (body : List (Node .stmt)) : List String :=
  body.flatMap fun t => (t.print d ⟨[], 0, unit⟩).1.lines.map (Text.copies level unit ++ ·)

variable {d : Dialect}

/-- Moving what is printed alone makes up for the level of the page. -/
theorem movedTo_eq (page : Page) (body : List (Node .stmt)) :
    movedTo d page.unit page.level body =
      (body.flatMap fun t => t.draft.lines d).map page.written := by
  have hwritten (l : Line) :
      Text.copies page.level page.unit ++ Page.written ⟨[], 0, page.unit⟩ l = page.written l := by
    simp only [Page.written, Text.copies_add, String.append_assoc, Nat.zero_add]
  rw [movedTo, List.map_flatMap]
  apply List.flatMap_congr
  intro t _
  rw [print_eq]
  change List.map _ ((t.draft.lines d).map (Page.written ⟨[], 0, page.unit⟩)) = _
  rw [List.map_map]
  exact List.map_congr_left fun l _ => hwritten l

theorem movedTo_singleton (unit : String) (level : Nat) (t : Node .stmt) :
    movedTo d unit level [t] = (t.print d ⟨[], level, unit⟩).1.lines := by
  rw [movedTo_eq ⟨[], level, unit⟩, List.flatMap_singleton, print_eq]
  rfl

end Node

/-- A link of a chain: a test, and what is done where it holds. -/
structure Link where
  test : Node .expr
  body : List (Node .stmt)
  mark : Mark .stmt

namespace Link

open Node

variable {d : Dialect} {width : Nat} {final : List (Node .stmt)}

/-- The choice between what the link does and something else. -/
def orElse (link : Link) (otherwise : List (Node .stmt)) : Node .stmt :=
  marked .conditional (link.test, link.body, otherwise, ()) link.mark

/-- The links as one statement. Where a test fails, the next link is all that is done, and the
final statements after the last one. -/
def chain (link : Link) (final : List (Node .stmt)) : List Link → Node .stmt
  | [] => link.orElse final
  | next :: more => link.orElse [next.chain final more]

/-- The test of a link has a text, and each statement of its body is printed. -/
def Renders (d : Dialect) (width : Nat) (link : Link) : Prop :=
  (∃ text, link.test.render ⟨d, width⟩ = .ok text) ∧
    ∀ t ∈ link.body, (t.print d (Page.blank width)).2 = .ok ()

theorem view_orElse (link : Link) (otherwise : List (Node .stmt)) :
    view (link.orElse otherwise) = Statement.tested .conditional "if" (view link.test)
      (link.body.map fun t => view t) (otherwise.map fun t => view t) :=
  view_marked .conditional (link.test, link.body, otherwise, ()) link.mark

theorem print_orElse_ok_iff (width : Nat) (link : Link) (otherwise : List (Node .stmt))
    (page : Page) :
    ((link.orElse otherwise).print d page).2 = .ok () ↔
      d.supports .conditional = true ∧ link.Renders d width ∧
        ∀ t ∈ otherwise, (t.print d (Page.blank width)).2 = .ok () := by
  rw [print_ok_iff, view_orElse, Statement.result_tested_eq_ok_iff]
  simp only [Renders, print_ok_iff, render_expr_iff_result, List.forall_mem_map, and_assoc]

/-- One link: its header, its body and what is done otherwise. -/
theorem lines_print_orElse {link : Link} {otherwise : List (Node .stmt)} {page : Page}
    {text : String} (hbody : link.body ≠ []) (htext : link.test.render ⟨d, width⟩ = .ok text)
    (h : ((link.orElse otherwise).print d page).2 = .ok ()) :
    ((link.orElse otherwise).print d page).1.lines = page.lines ++
      (Page.entriesAt page.unit page.level ("if " ++ text ++ ":") ++
        movedTo d page.unit (page.level + 1) link.body ++
        if otherwise = [] then []
        else Page.entriesAt page.unit page.level "else:" ++
          movedTo d page.unit (page.level + 1) otherwise) := by
  have hresult := print_ok_iff.mp h
  rw [view_orElse] at hresult
  have hlines := Statement.lines_tested (Node.text_quiet link.test).quiet
    (render_expr_iff_result.mp htext) (by simpa using hbody) hresult
  have hmoved (body : List (Node .stmt)) :
      (((body.map fun t => view t).flatMap fun s => s.draft.lines d).map
        Line.deeper).map page.written = movedTo d page.unit (page.level + 1) body := by
    refine .trans ?_ (movedTo_eq page.enter body).symm
    rw [List.map_map, List.flatMap_map]
    simp only [lines_draft]
    exact List.map_congr_left fun l _ => page.written_deeper l
  rw [print_of_view (view_orElse link otherwise), run_eq]
  change page.lines ++ (Draft.lines d _).map page.written = _
  rw [hlines, List.map_append, List.map_append, hmoved, List.map_map]
  cases otherwise with
  | nil => rfl
  | cons t more =>
    rw [if_neg (by simp), if_neg (by simp), List.map_cons, hmoved]
    rfl

theorem print_chain_ok_iff (width : Nat) (first : Link) (more : List Link) (page : Page) :
    ((first.chain final more).print d page).2 = .ok () ↔
      d.supports .conditional = true ∧ (∀ link ∈ first :: more, link.Renders d width) ∧
        ∀ t ∈ final, (t.print d (Page.blank width)).2 = .ok () := by
  induction more generalizing first page with
  | nil => simp only [chain, print_orElse_ok_iff width, List.forall_mem_singleton]
  | cons next more ih =>
    rw [chain, print_orElse_ok_iff width, List.forall_mem_singleton, ih,
      List.forall_mem_cons (l := next :: more), and_left_comm, and_self_left, and_assoc]
    exact and_left_comm

/-- The rest of a chain is laid out as a chain of its own, one level deeper. -/
theorem lines_print_chain {text : Node .expr → String} (first : Link) (more : List Link)
    (page : Page) (hbodies : ∀ link ∈ first :: more, link.body ≠ [])
    (htext : ∀ link ∈ first :: more, link.test.render ⟨d, width⟩ = .ok (text link.test))
    (h : ((first.chain final more).print d page).2 = .ok ()) :
    ((first.chain final more).print d page).1.lines = page.lines ++
      (((first :: more).zipIdx.flatMap fun (link, i) =>
        Page.entriesAt page.unit (page.level + i) ("if " ++ text link.test ++ ":") ++
          movedTo d page.unit (page.level + i + 1) link.body ++
          if i < more.length ∨ final ≠ [] then Page.entriesAt page.unit (page.level + i) "else:"
          else []) ++
        movedTo d page.unit (page.level + more.length + 1) final) := by
  induction more generalizing first page with
  | nil =>
    have hfirst := List.mem_singleton_self first
    refine (lines_print_orElse (hbodies first hfirst) (htext first hfirst) h).trans ?_
    cases final with
    | nil => simp [movedTo]
    | cons t rest => simp
  | cons next more ih =>
    have hfirst : first ∈ first :: next :: more := List.mem_cons_self
    refine (lines_print_orElse (hbodies first hfirst) (htext first hfirst) h).trans ?_
    have hnext : ((next.chain final more).print d ⟨[], page.level + 1, page.unit⟩).2 = .ok () :=
      print_ok_iff.mpr (print_ok_iff.mp
        (((print_orElse_ok_iff width first _ page).mp h).2.2 _ List.mem_cons_self))
    have hindexed : (first :: next :: more).zipIdx =
        (first, 0) :: (next :: more).zipIdx.map fun (link, i) => (link, i + 1) := by
      rw [List.zipIdx_cons, List.zipIdx_succ]
    have hlevel (i : Nat) : page.level + 1 + i = page.level + (i + 1) := by omega
    rw [if_neg (List.cons_ne_nil _ _), movedTo_singleton,
      ih next ⟨[], page.level + 1, page.unit⟩ (fun link hlink => hbodies link (.tail _ hlink))
        (fun link hlink => htext link (.tail _ hlink)) hnext,
      hindexed, List.flatMap_cons, List.flatMap_map]
    simp only [hlevel, List.nil_append, List.append_assoc, List.length_cons, Nat.add_zero,
      Nat.succ_pos, true_or, ↓reduceIte, Nat.add_lt_add_iff_right]

/-- A chain is printed exactly if conditionals are supported and all its tests, bodies and final
statements are. If so, and if no body is empty, then for each link in turn the page gets the header
at the level of the link, which is one deeper than that of the link before, the body one level
deeper, and an `else:` at the level of the link if there is another link or a final statement. The
final statements come last, one level below the last link, and nothing else is printed. -/
theorem chain_printed (d : Dialect) (width : Nat) (page : Page) (first : Link) (more : List Link)
    (final : List (Node .stmt)) :
    (((first.chain final more).print d page).2 = .ok () ↔
      d.supports .conditional = true ∧ (∀ link ∈ first :: more, link.Renders d width) ∧
        ∀ t ∈ final, (t.print d (Page.blank width)).2 = .ok ()) ∧
    ∀ text : Node .expr → String, (∀ link ∈ first :: more, link.body ≠ []) →
      (∀ link ∈ first :: more, link.test.render ⟨d, width⟩ = .ok (text link.test)) →
      ((first.chain final more).print d page).2 = .ok () →
      ((first.chain final more).print d page).1 = { page with
        lines := page.lines ++
          (((first :: more).zipIdx.flatMap fun (link, i) =>
            Page.entriesAt page.unit (page.level + i) ("if " ++ text link.test ++ ":") ++
              movedTo d page.unit (page.level + i + 1) link.body ++
              if i < more.length ∨ final ≠ [] then Page.entriesAt page.unit (page.level + i) "else:"
              else []) ++
            movedTo d page.unit (page.level + more.length + 1) final) } := by
  refine ⟨print_chain_ok_iff width first more page, ?_⟩
  intro text hbodies htext h
  rw [← lines_print_chain first more page hbodies htext h, print_eq]
  rfl

/-- A test on two lines, before a loop. -/
def looping : Link :=
  ⟨Expr.listComp (Expr.name "x") [Expr.comprehension (Expr.name "x") (Expr.name "y") []],
    [Stmt.whileLoop (Expr.name "z") [Stmt.pass]], .none⟩

/-- A test on a single line, before a text on two lines. -/
def returning : Link :=
  ⟨Expr.name "u", [Stmt.functionDef "f" (Stmt.positional []) [Stmt.expr (Expr.str "a\nb")]], .none⟩

theorem looping_printed :
    (∀ link ∈ [looping, returning], link.body ≠ []) ∧
    ((looping.chain [Stmt.pass] [returning]).print .permissive ⟨["try:\n"], 1, "\t"⟩).2 = .ok () ∧
    ((looping.chain [Stmt.pass] [returning]).print .permissive ⟨["try:\n"], 1, "\t"⟩).1 =
      ⟨["try:\n", "\tif [ x\n", "\t  for x in y ]:\n", "\t\twhile z:\n", "\t\t\tpass\n",
        "\telse:\n", "\t\tif u:\n", "\t\t\tdef f():\n", "\t\t\t\t\"\"\"a\nb\"\"\"\n", "\t\telse:\n",
        "\t\t\tpass\n"], 1, "\t"⟩ := by
  have hbodies : ∀ link ∈ [looping, returning], link.body ≠ [] := by
    simp [looping, returning]
  have htext : ∀ link ∈ [looping, returning], link.test.render ⟨.permissive, 4⟩ =
      .ok (if link.test.kind = .listComp then "[ x\n  for x in y ]" else "u") := by
    intro link hlink
    rcases List.mem_pair.mp hlink with rfl | rfl <;> rfl
  obtain ⟨-, hprinted⟩ := chain_printed .permissive 4 ⟨["try:\n"], 1, "\t"⟩ looping [returning]
    [Stmt.pass]
  refine ⟨hbodies, rfl, ?_⟩
  exact (hprinted (fun test => if test.kind = .listComp then "[ x\n  for x in y ]" else "u")
    hbodies htext rfl).trans rfl

end Link

end Unparse
