import Mathlib.Data.List.Perm.Basic
import Unparse.Proofs.Draft.Running
import Unparse.Proofs.Form.Rule
import Unparse.Proofs.Tree.Erase
import Unparse.Tree.Build

/-! Roots. A module is its docstring, if it has one, then the imports from the future and then
all other statements, each of them as if it stood alone. Moving the imports neither makes nor
unmakes a docstring. The other roots keep their statements in order. -/
namespace Unparse

open Draft Render

/-- The first failure is the failure of the whole; without one the texts follow each other. -/
structure InTurn (parts : List (Except RenderError String)) (whole : Except RenderError String) :
    Prop where
  fails_iff (e : RenderError) : whole = .error e ↔
    ∃ (texts : List String) (after : List (Except RenderError String)),
      parts = texts.map .ok ++ .error e :: after
  succeeds_iff (text : String) : whole = .ok text ↔
    ∃ texts : List String, parts = texts.map .ok ∧ text = String.join texts

namespace InTurn

variable {parts : List (Except RenderError String)} {whole other : Except RenderError String}

theorem unique (h : InTurn parts whole) (h' : InTurn parts other) : whole = other := by
  cases hw : whole with
  | error e => exact ((h'.fails_iff e).mpr ((h.fails_iff e).mp hw)).symm
  | ok text => exact ((h'.succeeds_iff text).mpr ((h.succeeds_iff text).mp hw)).symm

theorem nil : InTurn [] (.ok "") where
  fails_iff e := by simp
  succeeds_iff text := by simp [eq_comm]

theorem cons_error (e : RenderError) : InTurn (.error e :: parts) (.error e) where
  fails_iff e' := by
    constructor
    · rintro ⟨⟩
      exact ⟨[], parts, rfl⟩
    · rintro ⟨texts, after, hparts⟩
      cases texts with
      | nil => exact (List.cons.inj hparts).1
      | cons text texts => simp at hparts
  succeeds_iff text := by
    constructor
    · rintro ⟨⟩
    · rintro ⟨texts, hparts, -⟩
      cases texts <;> simp at hparts

theorem cons_ok (h : InTurn parts whole) (first : String) :
    InTurn (.ok first :: parts) (whole.map (first ++ ·)) where
  fails_iff e := by
    have hmap : whole.map (first ++ ·) = .error e ↔ whole = .error e := by
      cases whole <;> simp [Except.map]
    rw [hmap, h.fails_iff]
    constructor
    · rintro ⟨texts, after, rfl⟩
      exact ⟨first :: texts, after, rfl⟩
    · rintro ⟨texts, after, hparts⟩
      cases texts with
      | nil => simp at hparts
      | cons text texts => exact ⟨texts, after, (List.cons.inj hparts).2⟩
  succeeds_iff text := by
    constructor
    · intro hwhole
      cases hrest : whole with
      | error e => simp [hrest, Except.map] at hwhole
      | ok rest =>
        obtain ⟨texts, rfl, rfl⟩ := (h.succeeds_iff rest).mp hrest
        refine ⟨first :: texts, rfl, ?_⟩
        simpa [hrest, Except.map, eq_comm] using hwhole
    · rintro ⟨texts, hparts, rfl⟩
      cases texts with
      | nil => simp at hparts
      | cons text texts =>
        simp only [List.map_cons, List.cons.injEq, Except.ok.injEq] at hparts
        obtain ⟨rfl, rfl⟩ := hparts
        rw [(h.succeeds_iff (String.join texts)).mpr ⟨texts, rfl, rfl⟩, String.join_cons]
        rfl

end InTurn

namespace Draft

variable (d : Dialect) (width : Nat)

/-- The text of a draft that lays out lines, on a page of its own. -/
def written (x : Draft Unit) : Except RenderError String :=
  (x.result d).map fun _ => ((Page.blank width).print (x.lines d)).text

theorem text_print_append (ls ms : List Line) :
    ((Page.blank width).print (ls ++ ms)).text =
      ((Page.blank width).print ls).text ++ ((Page.blank width).print ms).text := by
  simp [Page.print, Page.text, Page.blank, String.join_append]

theorem written_eq_run (x : Draft Unit) :
    x.written d width =
      (x.run d (Page.blank width)).2.map fun _ => (x.run d (Page.blank width)).1.text := by
  rw [run_eq, written]

theorem written_bind (x y : Draft Unit) :
    (x >>= fun _ => y).written d width =
      match x.written d width with
      | .ok first => (y.written d width).map (first ++ ·)
      | .error e => .error e := by
  rw [written_eq_run, run_bind, run_eq, written, written]
  cases x.result d with
  | error e => rfl
  | ok _ =>
    simp only [run_eq, ← Page.print_append, text_print_append]
    cases y.result d <;> rfl

theorem written_demand_bind {d : Dialect} {width : Nat} {k : Kind} (hk : d.supports k = true)
    (x : Draft Unit) : (demand k >>= fun _ => x).written d width = x.written d width := by
  rw [written_eq_run, run_demand_bind hk, ← written_eq_run]

theorem written_demand_refused {d : Dialect} {width : Nat} {k : Kind} (hk : d.supports k = false)
    (x : Draft Unit) : (demand k >>= fun _ => x).written d width = .error (.unsupported k d) := by
  have hdemand : (demand k).written d width = .error (.unsupported k d) := by
    rw [written_eq_run, run_demand, hk]
    rfl
  rw [written_bind, hdemand]

theorem written_verbatim (text : String) :
    (verbatim text).written d width = .ok (text ++ "\n") := by
  rw [written_eq_run, run_verbatim]
  simp [Except.map, Page.text, Page.verbatim, Page.indentation, Page.blank, Text.copies]

theorem each_inTurn (xs : List (Draft Unit)) :
    InTurn (xs.map (written d width)) ((each xs).written d width) := by
  induction xs with
  | nil => exact InTurn.nil
  | cons x more ih =>
    rw [List.map_cons, each, written_bind]
    cases x.written d width with
    | error e => exact InTurn.cons_error e
    | ok text => exact ih.cons_ok text

end Draft

namespace Kind

/-- The text of a literal that is a string. -/
def text? : (k : Kind) → Value Node k.shape → Option String
  | .str, (s, _) => some s
  | .constant, (.str s, _) => some s
  | _, _ => none

end Kind

namespace Node

variable {f : Family}

def text? : Node f → Option String
  | .node k fields _ => k.text? fields.values

end Node

/-- The string that a statement consists of, and the kind of its literal. -/
def Kind.docstring? : (k : Kind) → Value Node k.shape → Option (Kind × String)
  | .exprStmt, (value, _) => value.text?.map (value.kind, ·)
  | _, _ => none

namespace Node

variable {f : Family}

def docstring? : Node f → Option (Kind × String)
  | .node k fields _ => k.docstring? fields.values

/-- Imports from the future first, otherwise in the same order. -/
def futureFirst (body : List (Node .stmt)) : List (Node .stmt) :=
  body.filter isFutureImport ++ body.filter (!isFutureImport ·)

/-- The statements of a module in the order in which they are rendered: a docstring stays at
the top, and then the imports from the future come first. -/
def hoisted (body : List (Node .stmt)) : List (Node .stmt) :=
  match body with
  | [] => []
  | first :: rest =>
    if first.docstring?.isSome then first :: futureFirst rest else futureFirst (first :: rest)

/-- A string as a docstring: the statement and the literal have to be supported. -/
def renderDocstring (d : Dialect) (value : Kind) (s : String) : Except RenderError String :=
  if d.supports .exprStmt = false then .error (.unsupported .exprStmt d)
  else if d.supports value = false then .error (.unsupported value d)
  else .ok (Literal.docstring s ++ "\n")

def renderFirst (options : Options) (first : Node .stmt) : Except RenderError String :=
  match first.docstring? with
  | some (value, s) => renderDocstring options.dialect value s
  | none => first.render options

/-- The statements of a module one by one, of which the first may be a docstring. -/
def renderEach (options : Options) : List (Node .stmt) → List (Except RenderError String)
  | [] => []
  | first :: rest => renderFirst options first :: rest.map (render options)

end Node

/-! ### What a root sees of its statements -/

def ExprView.text? (e : ExprView) : Option String :=
  match e.form with
  | .string s => some s
  | _ => none

def StmtView.docstring? (v : StmtView) : Option (Kind × String) :=
  match v.form with
  | .docstring value s => some (value, s)
  | _ => none

namespace Render.Statement

variable {e : ExprView} {source : Option String} {names : List (Draft String)} {level : UInt32}
  {body orelse : List StmtView} {handlers : List (Bool → Draft Unit)}

theorem docstring?_exprStmt : (exprStmt e).docstring? = e.text?.map (e.kind, ·) := by
  obtain ⟨kind, form, text⟩ := e
  cases form <;> rfl

theorem docstring?_importFrom : (importFrom source names level).docstring? = none := by
  simp only [StmtView.docstring?, importFrom, formed]
  split_ifs <;> rfl

theorem docstring?_tryExcept : (tryExcept body handlers orelse).docstring? = none := by
  simp only [StmtView.docstring?, tryExcept, formed]
  split_ifs <;> rfl

theorem isFutureImport_exprStmt : isFutureImport (exprStmt e) = false := by
  obtain ⟨kind, form, text⟩ := e
  cases form <;> rfl

theorem isFutureImport_importFrom :
    isFutureImport (importFrom source names level) = isFuture source level := by
  simp only [isFutureImport, importFrom, formed]
  split_ifs with h <;> simp [h]

theorem isFutureImport_tryExcept : isFutureImport (tryExcept body handlers orelse) = false := by
  simp only [isFutureImport, tryExcept, formed]
  split_ifs <;> rfl

/-- A module without a docstring. -/
theorem module_of_docstring?_eq_none {first : StmtView} {rest : List StmtView}
    (h : first.docstring? = none) :
    module (first :: rest) =
      Draft.demand .module >>= fun _ => drafts (hoisted (first :: rest)) := by
  obtain ⟨kind, form, draft⟩ := first
  cases form with
  | docstring value s => cases h
  | plain => rfl
  | futureImport => rfl
  | tryExcept clauses => rfl

theorem module_of_docstring?_eq_some {first : StmtView} {rest : List StmtView} {value : Kind}
    {s : String} (h : first.docstring? = some (value, s)) :
    module (first :: rest) =
      Draft.demand .module >>= fun _ => docstring value s >>= fun _ => drafts (hoisted rest) := by
  obtain ⟨kind, form, draft⟩ := first
  cases form with
  | docstring value' s' =>
    cases h
    rfl
  | plain => cases h
  | futureImport => cases h
  | tryExcept clauses => cases h

end Render.Statement

namespace View

def text? : (f : Family) → View f → Option String
  | .expr, v => ExprView.text? v
  | _, _ => none

def docstring? : (f : Family) → View f → Option (Kind × String)
  | .stmt, v => StmtView.docstring? v
  | _, _ => none

def isFutureImport : (f : Family) → View f → Bool
  | .stmt, v => Statement.isFutureImport v
  | _, _ => false

end View

namespace Node

variable {f : Family} (t : Node f)

theorem text?_view : View.text? f (view t) = t.text? := by
  cases t with
  | node k fields mark =>
    rw [view_node, Node.text?]
    generalize fields.values = v
    cases k with
    | constant =>
      obtain ⟨value, _⟩ := v
      cases value <;> rfl
    | num =>
      obtain ⟨n, _⟩ := v
      cases n <;> rfl
    | _ => rfl

theorem docstring?_exprStmt (value : Node .expr) :
    (Statement.exprStmt (view value)).docstring? = value.text?.map (value.kind, ·) := by
  have htext : (view value).text? = value.text? := text?_view value
  have hkind : (view value).kind = value.kind := (view_judged value).kind
  rw [Statement.docstring?_exprStmt, hkind, ← htext]
  rfl

theorem docstring?_view : View.docstring? f (view t) = t.docstring? := by
  cases t with
  | node k fields mark =>
    rw [view_node, Node.docstring?]
    generalize fields.values = v
    cases k with
    | exprStmt => exact docstring?_exprStmt v.1
    | importFrom => exact Statement.docstring?_importFrom
    | tryExcept => exact Statement.docstring?_tryExcept
    | _ => rfl

theorem isFutureImport_view : View.isFutureImport f (view t) = t.isFutureImport := by
  cases t with
  | node k fields mark =>
    rw [view_node, Node.isFutureImport]
    cases k with
    | exprStmt => exact Statement.isFutureImport_exprStmt
    | importFrom =>
      change _ = isFuture fields.values.1 fields.values.2.2.1
      obtain ⟨source, names, level, _⟩ := fields.values
      have hview (source : Option String) :
          Statement.isFutureImport (Statement.importFrom source (names.map fun t => view t) level) =
            isFuture source level := Statement.isFutureImport_importFrom
      cases source with
      | none => exact hview none
      | some name => exact hview (some name)
    | tryExcept => exact Statement.isFutureImport_tryExcept
    | _ => rfl

end Node

/-! ### Hoisting -/

namespace Node

section Order

variable {first : Node .stmt} {body : List (Node .stmt)}

theorem futureFirst_perm (body : List (Node .stmt)) : (futureFirst body).Perm body :=
  List.filter_append_perm ..

theorem futureFirst_futureFirst (body : List (Node .stmt)) :
    futureFirst (futureFirst body) = futureFirst body := by
  simp [futureFirst, List.filter_append, List.filter_filter]

theorem docstring?_of_isFutureImport {f : Family} {t : Node f} (h : t.isFutureImport = true) :
    t.docstring? = none := by
  cases t with
  | node k fields mark =>
    cases k with
    | importFrom => rfl
    | _ => cases h

/-- No docstring comes to the top. -/
theorem head_futureFirst (hbody : ∀ t, body.head? = some t → t.docstring? = none) :
    ∀ t, (futureFirst body).head? = some t → t.docstring? = none := by
  intro t ht
  cases hfuture : body.filter isFutureImport with
  | nil =>
    have hnone := List.filter_eq_nil_iff.mp hfuture
    have hall : body.filter (!isFutureImport ·) = body := by
      rw [List.filter_eq_self]
      intro u hu
      simpa using hnone u hu
    rw [futureFirst, hfuture, hall, List.nil_append] at ht
    exact hbody t ht
  | cons u more =>
    rw [futureFirst, hfuture, List.cons_append, List.head?_cons, Option.some.injEq] at ht
    subst ht
    have hu : u ∈ body.filter isFutureImport := by simp [hfuture]
    exact docstring?_of_isFutureImport (List.mem_filter.mp hu).2

theorem hoisted_of_head (hbody : ∀ t, body.head? = some t → t.docstring? = none) :
    hoisted body = futureFirst body := by
  cases body with
  | nil => rfl
  | cons first rest => simp [hoisted, hbody first rfl]

theorem hoisted_of_docstring (h : first.docstring?.isSome = true) :
    hoisted (first :: body) = first :: futureFirst body := by
  simp [hoisted, h]

/-- A body opens with a docstring, or else it does not. -/
theorem head_cases (body : List (Node .stmt)) :
    (∃ first rest, body = first :: rest ∧ first.docstring?.isSome = true) ∨
      ∀ t, body.head? = some t → t.docstring? = none := by
  cases body with
  | nil => exact .inr (by simp)
  | cons first rest =>
    cases h : first.docstring? with
    | none => exact .inr (by simp [h])
    | some doc => exact .inl ⟨first, rest, rfl, by simp [h]⟩

theorem hoisted_perm (body : List (Node .stmt)) : (hoisted body).Perm body := by
  rcases head_cases body with ⟨first, rest, rfl, hdoc⟩ | hnone
  · rw [hoisted_of_docstring hdoc]
    exact (futureFirst_perm rest).cons first
  · rw [hoisted_of_head hnone]
    exact futureFirst_perm body

theorem hoisted_hoisted (body : List (Node .stmt)) : hoisted (hoisted body) = hoisted body := by
  rcases head_cases body with ⟨first, rest, rfl, hdoc⟩ | hnone
  · rw [hoisted_of_docstring hdoc, hoisted_of_docstring hdoc, futureFirst_futureFirst]
  · rw [hoisted_of_head hnone, hoisted_of_head (head_futureFirst hnone), futureFirst_futureFirst]

theorem docstring?_hoisted (body : List (Node .stmt)) :
    (hoisted body).head?.bind docstring? = body.head?.bind docstring? := by
  rcases head_cases body with ⟨first, rest, rfl, hdoc⟩ | hnone
  · rw [hoisted_of_docstring hdoc]
    rfl
  · rw [hoisted_of_head hnone, Option.bind_eq_none_iff.mpr hnone,
      Option.bind_eq_none_iff.mpr (head_futureFirst hnone)]

end Order

/-! ### Rendering a root -/

section Rendering

variable {options : Options}

theorem render_eq_written {f : Family} {t : Node f} {x : Draft Unit}
    (h : t.draft = x >>= fun _ => pure "") :
    t.render options = x.written options.dialect options.width := by
  unfold render
  rw [h, run_bind, written_eq_run]
  rcases x.run options.dialect (Page.blank options.width) with ⟨page, e | _⟩
  · rfl
  · simp [run_pure, Except.map]

theorem render_stmt (t : Node .stmt) :
    t.render options = (view t).draft.written options.dialect options.width :=
  render_eq_written rfl

theorem render_root {t : Node .mod} {k : Kind} {xs : List (Draft Unit)}
    (h : view t = Draft.demand k >>= fun _ => each xs)
    (hk : options.dialect.supports k = true) :
    InTurn (xs.map (Draft.written options.dialect options.width)) (t.render options) := by
  have hdraft : t.draft = (Draft.demand k >>= fun _ => each xs) >>= fun _ => pure "" :=
    congrArg (fun x : Draft Unit => x >>= fun _ => pure "") h
  rw [render_eq_written hdraft, written_demand_bind hk]
  exact each_inTurn options.dialect options.width xs

theorem renderDocstring_eq (value : Kind) (s : String) :
    renderDocstring options.dialect value s =
      (Statement.docstring value s).written options.dialect options.width := by
  unfold renderDocstring Statement.docstring
  split_ifs with hstmt hvalue
  · exact (written_demand_refused hstmt _).symm
  · rw [written_demand_bind (by simpa using hstmt), written_demand_refused hvalue]
  · rw [written_demand_bind (by simpa using hstmt), written_demand_bind (by simpa using hvalue),
      written_verbatim]

/-- The draft of the first statement of a module. -/
def draftFirst (first : Node .stmt) : Draft Unit :=
  match first.docstring? with
  | some (value, s) => Statement.docstring value s
  | none => (view first).draft

def draftEach : List (Node .stmt) → List (Draft Unit)
  | [] => []
  | first :: rest => draftFirst first :: rest.map fun t : Node .stmt => (view t).draft

theorem renderFirst_eq (first : Node .stmt) :
    renderFirst options first = (draftFirst first).written options.dialect options.width := by
  unfold renderFirst draftFirst
  cases first.docstring? with
  | none => exact render_stmt first
  | some doc => exact renderDocstring_eq doc.1 doc.2

theorem map_render (body : List (Node .stmt)) :
    body.map (render options) = (body.map fun t : Node .stmt => (view t).draft).map
      (Draft.written options.dialect options.width) := by
  rw [List.map_map]
  exact List.map_congr_left fun t _ => render_stmt t

theorem renderEach_eq (body : List (Node .stmt)) :
    renderEach options body =
      (draftEach body).map (Draft.written options.dialect options.width) := by
  cases body with
  | nil => rfl
  | cons first rest => rw [renderEach, draftEach, List.map_cons, renderFirst_eq, map_render]

theorem draftEach_of_head {body : List (Node .stmt)}
    (hbody : ∀ t, body.head? = some t → t.docstring? = none) :
    draftEach body = body.map fun t : Node .stmt => (view t).draft := by
  cases body with
  | nil => rfl
  | cons first rest => simp [draftEach, draftFirst, hbody first rfl]

theorem hoisted_views (body : List (Node .stmt)) :
    Statement.hoisted (body.map fun t => view t) = (futureFirst body).map fun t => view t := by
  have hfuture : (Statement.isFutureImport ∘ fun t : Node .stmt => view t) = isFutureImport :=
    funext fun t => isFutureImport_view t
  have hother : ((!Statement.isFutureImport ·) ∘ fun t : Node .stmt => view t) =
      (!isFutureImport ·) :=
    funext fun t => congrArg (!·) (isFutureImport_view t)
  simp only [Statement.hoisted, futureFirst, List.map_append, List.filter_map, hfuture, hother]

theorem drafts_views (body : List (Node .stmt)) :
    Statement.drafts (body.map fun t => view t) =
      each (body.map fun t : Node .stmt => (view t).draft) := by
  rw [Statement.drafts, List.map_map]
  rfl

/-- A module is its statements in hoisted order, one after the other. -/
theorem view_module_hoisted (body : List (Node .stmt)) :
    view (Stmt.module body) =
      Draft.demand .module >>= fun _ => each (draftEach (hoisted body)) := by
  have hview : view (Stmt.module body) = Statement.module (body.map fun t => view t) :=
    view_marked .module (body, ()) .none
  rw [hview]
  rcases head_cases body with ⟨first, rest, rfl, hdoc⟩ | hnone
  · obtain ⟨⟨value, s⟩, hsome⟩ := Option.isSome_iff_exists.mp hdoc
    have hfirst : (view first).docstring? = some (value, s) := (docstring?_view first).trans hsome
    have hdraft : draftFirst first = Statement.docstring value s := by simp only [draftFirst, hsome]
    rw [List.map_cons, Statement.module_of_docstring?_eq_some hfirst, hoisted_views, drafts_views,
      hoisted_of_docstring hdoc, draftEach, hdraft, each]
  · rw [hoisted_of_head hnone, draftEach_of_head (head_futureFirst hnone), ← drafts_views,
      ← hoisted_views]
    cases body with
    | nil => rfl
    | cons first rest =>
      have hfirst : (view first).docstring? = none :=
        (docstring?_view first).trans (hnone first rfl)
      exact Statement.module_of_docstring?_eq_none hfirst

theorem module_inTurn (body : List (Node .stmt)) (hk : options.dialect.supports .module = true) :
    InTurn (renderEach options (hoisted body)) ((Stmt.module body).render options) := by
  rw [renderEach_eq]
  exact render_root (view_module_hoisted body) hk

end Rendering

/-- A module is rendered as its statements are, one after the other, in hoisted order and with the
first of them as a docstring if it is a string; the first failure among them is the failure of the
module. The hoisted statements are those of the body, they begin with a docstring if the body does,
and as a module of their own they are rendered alike. The statements of the other roots stay where
they are. -/
theorem roots_inTurn (options : Options) (body : List (Node .stmt)) :
    (options.dialect.supports .module = true →
      InTurn (renderEach options (hoisted body)) ((Stmt.module body).render options) ∧
      (hoisted body).Perm body ∧
      (hoisted body).head?.bind docstring? = body.head?.bind docstring? ∧
      (Stmt.module (hoisted body)).render options = (Stmt.module body).render options) ∧
    (options.dialect.supports .interactive = true →
      InTurn (body.map (render options))
        ((Node.of .interactive (body, ()) : Node .mod).render options)) ∧
    (options.dialect.supports .suite = true →
      InTurn (body.map (render options))
        ((Node.of .suite (body, ()) : Node .mod).render options)) := by
  refine ⟨?_, ?_, ?_⟩
  · intro hk
    have hturn := module_inTurn body hk
    have hagain := module_inTurn (hoisted body) hk
    rw [hoisted_hoisted] at hagain
    exact ⟨hturn, hoisted_perm body, docstring?_hoisted body, hagain.unique hturn⟩
  · intro hk
    rw [map_render]
    refine render_root ?_ hk
    rw [← drafts_views]
    exact view_marked .interactive (body, ()) .none
  · intro hk
    rw [map_render]
    refine render_root ?_ hk
    rw [← drafts_views]
    exact view_marked .suite (body, ()) .none

/-- Two imports after another statement, of which one is from a package of that name, and a
string that is too late for a docstring. -/
def lateImports : List (Node .stmt) :=
  [Stmt.pass, .of .importFrom (some "__future__", [Stmt.importedName "a" none],
      (1 : UInt32), ()),
    Stmt.importFrom "__future__" [Stmt.importedName "b" none], Stmt.expr (Expr.str "c")]

theorem lateImports_inTurn :
    Dialect.permissive.supports .module = true ∧ Dialect.permissive.supports .interactive = true ∧
    InTurn [.ok "from __future__ import b\n", .ok "pass\n", .ok "from .__future__ import a\n",
      .ok "'c'\n"] ((Stmt.module lateImports).render {}) ∧
    (Stmt.module (hoisted lateImports)).render {} =
      .ok "from __future__ import b\npass\nfrom .__future__ import a\n'c'\n" ∧
    InTurn [.ok "pass\n", .ok "from .__future__ import a\n", .ok "from __future__ import b\n",
      .ok "'c'\n"] ((Node.of .interactive (lateImports, ()) : Node .mod).render {}) := by
  obtain ⟨hmodule, hinteractive, -⟩ := roots_inTurn {} lateImports
  obtain ⟨hturn, -, -, hsame⟩ := hmodule rfl
  exact ⟨rfl, rfl, hturn, hsame.trans rfl, hinteractive rfl⟩

end Node

end Unparse
