import Unparse.Proofs.Draft.Running
import Unparse.Proofs.FStrings
import Unparse.Proofs.Literal.Lexicon
import Unparse.Proofs.Tree.Erase
import Unparse.Tree.Build

/-! Docstrings read back, wherever they stand. A quote is escaped only where another one or the
end follows it, which is enough for a reader who looks for three quotes in a row. On the page the
literal is one entry, of which only the first line is indented. -/
namespace Unparse

open Draft Render Scanner

namespace Literal

/-- A character of a docstring is spelled so that it reads back; if it is spelled by a quote, it
is one, and neither a quote nor the end comes next. -/
theorem exists_spelling (c : Char) (cs : List Char) :
    ∃ spelling, docstringBody (c :: cs) = spelling ++ docstringBody cs ∧
      Lexicon.docstring.Spells spelling c ∧
      (spelling.head? = some doubleQuote →
        spelling = [doubleQuote] ∧ c = doubleQuote ∧ cs ≠ [] ∧ cs.head? ≠ some doubleQuote) := by
  have hescape {more : List Char} {P : Prop} (h : ('\\' :: more).head? = some doubleQuote) : P :=
    absurd h (by simp [doubleQuote])
  refine ⟨_, rfl, ?_⟩
  split_ifs with hslash hreturn hquote hline hhidden
  · rw [hslash]
    exact ⟨Lexicon.spells_sign rfl, hescape⟩
  · rw [hreturn]
    exact ⟨Lexicon.spells_sign rfl, hescape⟩
  · rw [hquote.1]
    exact ⟨Lexicon.spells_sign rfl, hescape⟩
  · refine ⟨Lexicon.spells_raw hslash (by simp [Lexicon.docstring, hreturn]), fun h => ?_⟩
    rcases hline with rfl | rfl <;> exact absurd h (by decide)
  · have hcode : Lexicon.docstring.Spells (codeEscape c) c := by
      -- No hidden character lies beyond the four digits.
      simp only [isHidden, isControl, Bool.or_eq_true, Bool.and_eq_true, decide_eq_true_eq,
        beq_iff_eq] at hhidden
      exact Lexicon.spells_codeEscape ⟨rfl, rfl⟩ (fun _ => ⟨rfl, rfl⟩) fun h => by omega
    refine ⟨hcode, ?_⟩
    unfold codeEscape
    split_ifs <;> exact hescape
  · refine ⟨Lexicon.spells_raw hslash (by simp [Lexicon.docstring, hreturn]), fun h => ?_⟩
    have hc : c = doubleQuote := by simpa using h
    exact ⟨by rw [hc], hc, fun hnil => hquote ⟨hc, .inl hnil⟩, fun hhead => hquote ⟨hc, .inr hhead⟩⟩

theorem not_tripled_of_head? {cs : List Char} (h : cs.head? ≠ some doubleQuote) :
    ¬ tripleQuote <+: cs := by
  cases cs with
  | nil => simp [tripleQuote]
  | cons c cs =>
    rw [tripleQuote, List.cons_prefix_cons]
    rintro ⟨rfl, -⟩
    exact h rfl

/-- Three quotes in a row do not begin before the end of the body. -/
theorem not_tripled {c : Char} {cs spelling rest : List Char}
    (hspells : Lexicon.docstring.Spells spelling c)
    (hquote : spelling.head? = some doubleQuote →
      spelling = [doubleQuote] ∧ c = doubleQuote ∧ cs ≠ [] ∧ cs.head? ≠ some doubleQuote) :
    ¬ tripleQuote <+: spelling ++ (docstringBody cs ++ rest) := by
  have hhead? {x : Char} {ds : List Char} (h : Lexicon.docstring.Spells ds x) (more : List Char) :
      (ds ++ more).head? = ds.head? :=
    List.head?_append_of_ne_nil ds (Lexicon.ne_nil_of_spells h)
  by_cases hhead : spelling.head? = some doubleQuote
  · obtain ⟨rfl, -, hcs, hnext⟩ := hquote hhead
    cases cs with
    | nil => exact absurd rfl hcs
    | cons d ds =>
      obtain ⟨more, hbody, hmore, hmoreQuote⟩ := exists_spelling d ds
      have hother : (docstringBody (d :: ds) ++ rest).head? ≠ some doubleQuote := by
        rw [hbody, List.append_assoc, hhead? hmore]
        exact fun h => hnext (congrArg some (hmoreQuote h).2.1)
      rw [tripleQuote, List.singleton_append, List.cons_prefix_cons]
      rintro ⟨-, hprefix⟩
      cases hrest : docstringBody (d :: ds) ++ rest with
      | nil => simp [hrest] at hprefix
      | cons x xs =>
        rw [hrest, List.cons_prefix_cons] at hprefix
        rw [hrest, ← hprefix.1] at hother
        exact hother rfl
  · apply not_tripled_of_head?
    rwa [hhead? hspells]

theorem body?_docstringBody (cs rest : List Char) :
    Lexicon.docstring.body? tripleQuote (docstringBody cs ++ (tripleQuote ++ rest)) =
      some (cs, rest) := by
  induction cs with
  | nil => exact Lexicon.body?_closing tripleQuote rest
  | cons c cs ih =>
    obtain ⟨spelling, hbody, hspells, hquote⟩ := exists_spelling c cs
    rw [hbody, List.append_assoc, Lexicon.body?_spelled hspells (not_tripled hspells hquote), ih]
    rfl

theorem literal?_docstring (s : String) (rest : List Char) :
    Lexicon.docstring.literal? ((docstring s).toList ++ rest) = some (s.toList, rest) := by
  have hopens (cs : List Char) : opening? (tripleQuote ++ cs) = some (tripleQuote, cs) := rfl
  have htriple : tripleQuote ∈ Lexicon.docstring.quotes := List.mem_singleton_self _
  rw [docstring, String.toList_ofList, List.append_assoc, List.append_assoc, Lexicon.literal?,
    Lexicon.opened?_of_mem (hopens _) htriple, Option.bind_some]
  exact body?_docstringBody s.toList rest

end Literal

/-! ### The place of a docstring on the page -/

namespace Draft

variable {A B : Type} {d : Dialect} {body : Draft Unit} {opening : String}

/-- The lines of some texts, one text after the other. -/
def flush (texts : List String) : List Line :=
  (texts.flatMap Text.lines).map fun piece => ⟨0, piece⟩

theorem flush_append (texts texts' : List String) :
    flush (texts ++ texts') = flush texts ++ flush texts' := by
  simp only [flush, List.flatMap_append, List.map_append]

theorem lines_emit_eq_flush (text : String) : (emit text).lines d = flush [text] := by
  rw [lines_emit, flush, List.flatMap_singleton]

theorem map_written_flush (page : Page) (texts : List String) :
    (flush texts).map page.written =
      (texts.flatMap Text.lines).map fun l => Text.copies page.level page.unit ++ l ++ "\n" := by
  rw [flush, List.map_map]
  rfl

/-- The lines are those of a title, which ends in a colon, and then those of the body. -/
def Titles (d : Dialect) (x : Draft A) (opening : String) (body : Draft Unit) : Prop :=
  ∀ a, x.result d = .ok a → body.result d = .ok () ∧
    ∃ middle, x.lines d = flush [opening ++ middle ++ ":"] ++ body.lines d

namespace Titles

theorem emit (opening middle : String) :
    (Draft.emit (opening ++ middle ++ ":") >>= fun _ => body).Titles d opening body := by
  intro a h
  obtain ⟨_, -, hbody, hlines⟩ := of_result_bind_ok h
  exact ⟨hbody, middle, by rw [hlines, lines_emit_eq_flush]⟩

/-- A fragment adds nothing to the title. -/
theorem after {seen : A → List Segment} {w : Verdict} {x : Draft A} {f : A → Draft B}
    (hx : x.JudgedWith false seen w) (hf : ∀ a, (f a).Titles d opening body) :
    (x >>= f).Titles d opening body := by
  intro b h
  obtain ⟨a, ha, hb, hlines⟩ := of_result_bind_ok h
  obtain ⟨hbody, middle, hmiddle⟩ := hf a b hb
  refine ⟨hbody, middle, ?_⟩
  rw [hlines, lines_of_quiet (hx.quiet rfl) ha, List.nil_append, hmiddle]

end Titles

/-- The lines are those of the decorators, then those of a title and then those of the body. -/
def Heads (d : Dialect) (x : Draft A) (opening : String) (es : List ExprView)
    (body : Draft Unit) : Prop :=
  ∀ a, x.result d = .ok a → body.result d = .ok () ∧
    ∃ marks middle, List.Forall₂ (fun e mark => e.text.result d = .ok mark) es marks ∧
      x.lines d = flush (marks.map ("@" ++ ·) ++ [opening ++ middle ++ ":"]) ++ body.lines d

end Draft

namespace Render.Statement

open List

variable {d : Dialect} {es : List ExprView} {ts : List (Node .expr)} {body : List StmtView}
  {params : List (Draft String)} {ps : List (Node .typeParam)}

theorem decorators_cons (e : ExprView) (es : List ExprView) :
    decorators (e :: es) =
      (e.text >>= fun text => emit ("@" ++ text)) >>= fun _ => decorators es :=
  rfl

/-- Every decorator has a text, and its lines are those of that text behind a sign. -/
theorem exists_lines_decorators (hes : Forall₂ ExprView.Judged es ts)
    (h : (decorators es).result d = .ok ()) :
    ∃ marks, Forall₂ (fun e mark => e.text.result d = .ok mark) es marks ∧
      (decorators es).lines d = flush (marks.map ("@" ++ ·)) := by
  induction hes with
  | nil => exact ⟨[], .nil, rfl⟩
  | @cons e t es ts he _ ih =>
    rw [decorators_cons] at h ⊢
    obtain ⟨_, hfirst, hmore, hlines⟩ := of_result_bind_ok h
    obtain ⟨mark, hmark, -, hemit⟩ := of_result_bind_ok hfirst
    obtain ⟨marks, hmarks, hrest⟩ := ih hmore
    refine ⟨mark :: marks, .cons hmark hmarks, ?_⟩
    rw [hlines, hemit, lines_of_quiet (he.text.quiet rfl) hmark, nil_append, lines_emit_eq_flush,
      hrest, ← flush_append, map_cons, singleton_append]

theorem decorated_heads {k : Kind} {opening : String} {x rest : Draft Unit}
    (hes : Forall₂ ExprView.Judged es ts) (hrest : rest.Titles d opening x) :
    (Draft.demand k >>= fun _ => decorators es >>= fun _ => rest).Heads d opening es x := by
  intro a h
  obtain ⟨_, hk, hafter, hdemand⟩ := of_result_bind_ok h
  obtain ⟨_, hes', htitled, hlines⟩ := of_result_bind_ok hafter
  obtain ⟨marks, hmarks, hdecorators⟩ := exists_lines_decorators hes hes'
  obtain ⟨hbody, middle, hmiddle⟩ := hrest a htitled
  refine ⟨hbody, marks, middle, hmarks, ?_⟩
  have hnone : (Draft.demand k).lines d = [] := lines_of_quiet (by simp) hk
  rw [hdemand, hnone, nil_append, hlines, hdecorators, hmiddle, flush_append, append_assoc]

theorem functionDef_heads {k : Kind} {keyword name : String} {args : Bool → Draft String}
    {g : Node .arguments} {o : Option ExprView} {m : Option (Node .expr)}
    (hargs : View.Judged .arguments args g) (hes : Forall₂ ExprView.Judged es ts)
    (ho : Option.Rel ExprView.Judged o m) (hparams : Forall₂ (View.Judged .typeParam) params ps) :
    (functionDef k keyword name args body es o params).draft.Heads d (keyword ++ " " ++ name) es
      (docBlock body) := by
  refine decorated_heads hes ?_
  refine Titles.after (Pattern.typeParams_judged hparams) fun generic =>
    Titles.after (hargs true) fun inner => Titles.after (ExprView.after_judged ho) fun result => ?_
  simpa only [String.append_assoc] using
    Titles.emit (keyword ++ " " ++ name) (generic ++ "(" ++ inner ++ ")" ++ result)

theorem classDef_heads {name : String} {keywords : List (Draft String)}
    {ks : List (Node .keyword)} {cs : List ExprView} {us : List (Node .expr)}
    (hcs : Forall₂ ExprView.Judged cs us) (hkeywords : Forall₂ (View.Judged .keyword) keywords ks)
    (hes : Forall₂ ExprView.Judged es ts) (hparams : Forall₂ (View.Judged .typeParam) params ps) :
    (classDef name cs keywords body es params).draft.Heads d ("class " ++ name) es
      (docBlock body) := by
  refine decorated_heads hes ?_
  refine Titles.after (ExprView.texts_judged hcs) fun positional =>
    Titles.after (JudgedWith.all hkeywords) fun named =>
      Titles.after (Pattern.typeParams_judged hparams) fun generic => ?_
  simpa only [String.append_assoc] using
    Titles.emit ("class " ++ name) (generic ++ parenthesized (positional ++ named))

/-- A docstring is a single entry. -/
theorem lines_docstring {value : Kind} {s : String}
    (h : (docstring value s).result d = .ok ()) :
    (docstring value s).lines d = [⟨0, Literal.docstring s⟩] :=
  lines_of_result_ok h

theorem lines_docBlock {first : StmtView} {rest : List StmtView} {value : Kind} {s : String}
    (hform : first.form = .docstring value s)
    (h : (docBlock (first :: rest)).result d = .ok ()) :
    (docBlock (first :: rest)).lines d =
      (⟨0, Literal.docstring s⟩ :: rest.flatMap (·.draft.lines d)).map Line.deeper := by
  have hblock : docBlock (first :: rest) =
      Draft.block (docstring value s >>= fun _ => drafts rest) := by
    simp only [docBlock, hform]
  rw [hblock, result_block] at h
  obtain ⟨_, hdoc, hrest, hlines⟩ := of_result_bind_ok h
  rw [hblock, Draft.lines_block, hlines, lines_docstring hdoc, drafts, lines_each hrest,
    flatMap_map]
  rfl

theorem exists_lines_module {first : StmtView} {rest : List StmtView} {value : Kind} {s : String}
    (hform : first.form = .docstring value s)
    (h : (module (first :: rest)).result d = .ok ()) :
    ∃ more, (module (first :: rest)).lines d = ⟨0, Literal.docstring s⟩ :: more := by
  have hmodule : module (first :: rest) =
      Draft.demand .module >>= fun _ => docstring value s >>= fun _ => drafts (hoisted rest) := by
    simp only [module, hform]
  rw [hmodule] at h ⊢
  obtain ⟨_, hdemand, hafter, hlines⟩ := of_result_bind_ok h
  obtain ⟨_, hdoc, hrest, hmore⟩ := of_result_bind_ok hafter
  refine ⟨(drafts (hoisted rest)).lines d, ?_⟩
  rw [hlines, hmore, lines_docstring hdoc, lines_of_result_ok hdemand]
  rfl

end Render.Statement

namespace Node

/-- The statement is a string and nothing else. -/
inductive Says (s : String) : Node .stmt → Prop where
  | str (mark) (outer) : Says s (marked .exprStmt (marked .str (s, ()) mark, ()) outer)
  | constant (mark) (outer) :
    Says s (marked .exprStmt (marked .constant (.str s, ()) mark, ()) outer)

/-- The statement is a function or a class with these first words, decorators and body. -/
inductive Defines (decorators : List (Node .expr)) (body : List (Node .stmt)) :
    String → Node .stmt → Prop where
  | functionDef (name args returns typeParams mark) : Defines decorators body ("def " ++ name)
    (marked .functionDef (name, args, body, decorators, returns, typeParams, ()) mark)
  | asyncFunctionDef (name args returns typeParams mark) :
    Defines decorators body ("async def " ++ name)
    (marked .asyncFunctionDef (name, args, body, decorators, returns, typeParams, ()) mark)
  | classDef (name bases keywords typeParams mark) : Defines decorators body ("class " ++ name)
    (marked .classDef (name, bases, keywords, body, decorators, typeParams, ()) mark)

theorem Says.form {s : String} {t : Node .stmt} (h : Says s t) :
    ∃ value, (view t).form = .docstring value s := by
  cases h with
  | str mark outer => exact ⟨.str, rfl⟩
  | constant mark outer => exact ⟨.constant, rfl⟩

theorem views_judged {f : Family} (ts : List (Node f)) :
    List.Forall₂ (View.Judged f) (ts.map fun t => view t) ts := by
  rw [List.forall₂_map_left_iff, List.forall₂_same]
  exact fun t _ => view_judged t

theorem view_judged_option {f : Family} (o : Option (Node f)) :
    Option.Rel (View.Judged f) (o.map fun t => view t) o := by
  cases o with
  | none => exact Option.Rel.none
  | some t => exact Option.Rel.some (view_judged t)

theorem of_view_marked (k : Kind) (fields : Value Node k.shape) (mark : Mark k.place)
    (P : View k.place → Prop)
    (h : P (rule k (Value.mapNodes (fun _ t => view t) k.shape fields))) :
    P (view (marked k fields mark)) := by
  rwa [view_marked]

theorem Defines.heads {decorators : List (Node .expr)} {body : List (Node .stmt)}
    {opening : String} {t : Node .stmt} (h : Defines decorators body opening t) (d : Dialect) :
    (view t).draft.Heads d opening (decorators.map fun e => view e)
      (Statement.docBlock (body.map fun u => view u)) := by
  cases h with
  | functionDef name args returns typeParams mark =>
    exact of_view_marked .functionDef _ mark (fun v : StmtView => v.draft.Heads d _ _ _)
      (Statement.functionDef_heads (view_judged args) (views_judged decorators)
        (view_judged_option returns) (views_judged typeParams))
  | asyncFunctionDef name args returns typeParams mark =>
    exact of_view_marked .asyncFunctionDef _ mark (fun v : StmtView => v.draft.Heads d _ _ _)
      (Statement.functionDef_heads (view_judged args) (views_judged decorators)
        (view_judged_option returns) (views_judged typeParams))
  | classDef name bases keywords typeParams mark =>
    exact of_view_marked .classDef _ mark (fun v : StmtView => v.draft.Heads d _ _ _)
      (Statement.classDef_heads (views_judged bases) (views_judged keywords)
        (views_judged decorators) (views_judged typeParams))

section Places

variable {s : String} {first : Node .stmt} {more : List (Node .stmt)} {d : Dialect}

theorem view_module (body : List (Node .stmt)) :
    view (Stmt.module body) = Statement.module (body.map fun u => view u) :=
  view_marked .module (body, ()) .none

theorem exists_entries_of_module (hs : first.Says s) {width : Nat} {text : String}
    (h : (Stmt.module (first :: more)).render ⟨d, width⟩ = .ok text) :
    ∃ entries, ((Stmt.module (first :: more)).draft.run d (Page.blank width)).1.lines =
      (Text.copies 0 (Page.blank width).unit ++ Literal.docstring s ++ "\n") :: entries := by
  obtain ⟨fragment, hresult, -⟩ := of_render_eq_ok h
  obtain ⟨_, hmodule, -⟩ := of_result_bind_ok hresult
  obtain ⟨value, hform⟩ := hs.form
  rw [view_module] at hmodule
  obtain ⟨rest, hrest⟩ := Statement.exists_lines_module hform hmodule
  have hlines : (Stmt.module (first :: more)).draft.lines d = ⟨0, Literal.docstring s⟩ :: rest := by
    rw [← hrest, ← List.map_cons (f := fun u => view u), ← view_module]
    exact lines_bind_pure _ _
  refine ⟨rest.map (Page.blank width).written, ?_⟩
  rw [run_fst, hlines]
  rfl

/-- Statements add to a page inside of a block what they would add there alone. -/
theorem map_written_enter (body : List (Node .stmt)) (page : Page) :
    (body.flatMap fun u : Node .stmt => (view u).draft.lines d).map page.enter.written =
      body.flatMap fun u => (u.print d ⟨[], page.level + 1, page.unit⟩).1.lines := by
  rw [List.map_flatMap]
  apply List.flatMap_congr
  intro u _
  rw [print_eq, lines_draft]
  rfl

theorem exists_print_of_definition (hs : first.Says s) {decorators : List (Node .expr)}
    {opening : String} {t : Node .stmt} (ht : Defines decorators (first :: more) opening t)
    {start : Page} (h : (t.print d start).2 = .ok ()) :
    ∃ marks middle,
      List.Forall₂ (fun e mark => ∀ width, e.render ⟨d, width⟩ = .ok mark) decorators marks ∧
      ∀ page : Page, t.print d page = ({ page with
        lines := page.lines ++
          ((marks.map ("@" ++ ·) ++ [opening ++ middle ++ ":"]).flatMap Text.lines).map
            (fun l => Text.copies page.level page.unit ++ l ++ "\n") ++
          (Text.copies (page.level + 1) page.unit ++ Literal.docstring s ++ "\n") ::
            more.flatMap fun u => (u.print d ⟨[], page.level + 1, page.unit⟩).1.lines },
        .ok ()) := by
  have hresult := print_ok_iff.mp h
  obtain ⟨hbody, marks, middle, hmarks, hlines⟩ := ht.heads d () hresult
  obtain ⟨value, hform⟩ := hs.form
  rw [List.map_cons] at hbody hlines
  rw [Statement.lines_docBlock hform hbody, List.flatMap_map] at hlines
  refine ⟨marks, middle, ?_, fun page => ?_⟩
  · have hrender (e : Node .expr) (mark : String) (hmark : (view e).text.result d = .ok mark)
        (width : Nat) : e.render ⟨d, width⟩ = .ok mark := render_expr_iff_result.mpr hmark
    rw [List.forall₂_map_left_iff] at hmarks
    exact hmarks.imp hrender
  · rw [print_of_view rfl, run_eq, hresult, hlines, Page.print, List.map_append,
      map_written_flush, page.map_written_deeper, List.map_cons, map_written_enter,
      ← List.append_assoc]
    rfl

end Places

/-- A docstring reads back from its literal, whatever follows it. In a module it is the first
entry of the page, not indented. A function or a class has texts for its decorators and a title
that ends in a colon, and on whatever page it is printed, their lines stand at the level of the
page; the docstring is the entry right below them, indented once more, and the other statements of
the body follow it as they would be printed there. As one entry it is never indented inside. -/
theorem docstring_kept :
    (∀ (s : String) (rest : List Char), Literal.Lexicon.docstring.literal?
      ((Literal.docstring s).toList ++ rest) = some (s.toList, rest)) ∧
    (∀ (s : String) (first : Node .stmt) (more : List (Node .stmt)) (d : Dialect) (width : Nat)
      (text : String), first.Says s →
      (Stmt.module (first :: more)).render ⟨d, width⟩ = .ok text →
      ∃ entries, ((Stmt.module (first :: more)).draft.run d (Page.blank width)).1.lines =
        (Text.copies 0 (Page.blank width).unit ++ Literal.docstring s ++ "\n") :: entries) ∧
    (∀ (s opening : String) (t first : Node .stmt) (decorators : List (Node .expr))
      (more : List (Node .stmt)) (d : Dialect) (start : Page), first.Says s →
      t.Defines decorators (first :: more) opening → (t.print d start).2 = .ok () →
      ∃ marks middle,
        List.Forall₂ (fun e mark => ∀ width, e.render ⟨d, width⟩ = .ok mark) decorators marks ∧
        ∀ page : Page, t.print d page = ({ page with
          lines := page.lines ++
            ((marks.map ("@" ++ ·) ++ [opening ++ middle ++ ":"]).flatMap Text.lines).map
              (fun l => Text.copies page.level page.unit ++ l ++ "\n") ++
            (Text.copies (page.level + 1) page.unit ++ Literal.docstring s ++ "\n") ::
              more.flatMap fun u => (u.print d ⟨[], page.level + 1, page.unit⟩).1.lines },
          .ok ())) := by
  refine ⟨Literal.literal?_docstring, ?_, ?_⟩
  · intro s first more d width text hs h
    exact exists_entries_of_module hs h
  · intro s opening t first decorators more d start hs ht h
    exact exists_print_of_definition hs ht h

/-- A class with a decorator whose docstring has two lines, begins with a quote and ends in two of
them. -/
def quotingClass : Node .stmt :=
  marked .classDef ("A", [], [], [Stmt.expr (Expr.str "\"a\nb\"\""), Stmt.pass],
    [Expr.name "final"], [], ()) .none

theorem quotingClass_docstring_kept :
    Says "\"a\nb\"\"" (Stmt.expr (Expr.str "\"a\nb\"\"")) ∧
    Defines [Expr.name "final"] [Stmt.expr (Expr.str "\"a\nb\"\""), Stmt.pass] "class A"
      quotingClass ∧
    (quotingClass.print .permissive ⟨["class B:\n"], 1, "\t"⟩).2 = .ok () ∧
    (∃ marks middle,
      List.Forall₂ (fun e mark => ∀ width, Node.render ⟨.permissive, width⟩ e = .ok mark)
        [Expr.name "final"] marks ∧
      (quotingClass.print .permissive ⟨["class B:\n"], 1, "\t"⟩).1.lines =
        ["class B:\n"] ++
          ((marks.map ("@" ++ ·) ++ ["class A" ++ middle ++ ":"]).flatMap Text.lines).map
            (fun l => "\t" ++ l ++ "\n") ++
          ["\t\t\"\"\"\"a\nb\\\"\\\"\"\"\"\n", "\t\tpass\n"]) ∧
    (Stmt.module [Stmt.expr (Expr.str "\"a\nb\"\"")]).render {} =
      .ok "\"\"\"\"a\nb\\\"\\\"\"\"\"\n" ∧
    ∃ entries,
      ((Stmt.module [Stmt.expr (Expr.str "\"a\nb\"\"")]).draft.run .permissive
        (Page.blank 4)).1.lines = "\"\"\"\"a\nb\\\"\\\"\"\"\"\n" :: entries := by
  have hdoc : Says "\"a\nb\"\"" (Stmt.expr (Expr.str "\"a\nb\"\"")) := .constant .none .none
  have hdefines : Defines [Expr.name "final"] [Stmt.expr (Expr.str "\"a\nb\"\""), Stmt.pass]
      "class A" quotingClass := .classDef "A" [] [] [] .none
  obtain ⟨-, hmodule, hdefinition⟩ := docstring_kept
  obtain ⟨marks, middle, hmarks, hprint⟩ :=
    hdefinition _ _ _ _ _ _ .permissive ⟨["class B:\n"], 1, "\t"⟩ hdoc hdefines rfl
  refine ⟨hdoc, hdefines, rfl, ⟨marks, middle, hmarks, ?_⟩, rfl, hmodule _ _ _ _ _ _ hdoc rfl⟩
  exact congrArg (fun printed => printed.1.lines) (hprint ⟨["class B:\n"], 1, "\t"⟩)

end Node

end Unparse
