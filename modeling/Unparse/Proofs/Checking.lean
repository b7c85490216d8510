import Unparse.Command
import Unparse.Directory
import Unparse.Proofs.Command.Arguments
import Unparse.Proofs.Pipelines

/-! Checking a tree while its positions are shifted. The checked shift and the rendering of a tree
are jobs of their own, but both come down to the same settings, the same document and the same
text: one succeeds exactly if the other does, and they fail for the same reason. -/
namespace Unparse.Command

/-- In the directory `d` an action has this result, and leaves everything as it was. -/
def Settles {A : Type} (d : Directory) (action : ExceptT Failure (StateM Directory) A)
    (result : Except Failure A) : Prop :=
  action.run.run d = (result, d)

namespace Settles

variable {A B : Type} {d : Directory}

theorem pure (a : A) : Settles d (Pure.pure a) (.ok a) :=
  rfl

theorem lift (result : Except Failure A) : Settles d (Command.lift result) result :=
  rfl

/-- The first failure is the failure of the whole. -/
theorem bind {action : ExceptT Failure (StateM Directory) A} {result : Except Failure A}
    {next : A → ExceptT Failure (StateM Directory) B} {results : A → Except Failure B}
    (h : Settles d action result) (hnext : ∀ a, Settles d (next a) (results a)) :
    Settles d (action >>= next) (result >>= results) := by
  unfold Settles at h ⊢
  rw [ExceptT.run_bind, StateT.run_bind, h]
  cases result with
  | ok a => exact hnext a
  | error e => rfl

end Settles

section

variable (d : Directory) (input setting : Option String)

/-- Reading settles, and what is done after it is done with what was read. -/
theorem exists_settles_read_bind {A : Type} (path : String)
    {next : Except FileFault String → ExceptT Failure (StateM Directory) A}
    (hnext : ∀ found, ∃ result, Settles d (next found) result) :
    ∃ result, Settles d (liftM ((Directory.host input setting).read path) >>= next) result :=
  hnext (d.read path)

theorem exists_settles_load (path : String) :
    ∃ text, Settles d ((Directory.host input setting).load path) text := by
  refine exists_settles_read_bind d input setting path fun found => ?_
  cases found with
  | ok text => exact ⟨.ok text, rfl⟩
  | error fault => exact ⟨.error (fault.failure path), rfl⟩

theorem exists_settles_discover (path : Option String) :
    ∃ config, Settles d (Config.discover (Directory.host input setting) path) config := by
  cases path with
  | some path =>
    obtain ⟨text, htext⟩ := exists_settles_load d input setting path
    exact ⟨_, htext.bind fun text => .lift (Config.ofText path text)⟩
  | none =>
    refine exists_settles_read_bind d input setting Config.fileName fun found => ?_
    match found with
    | .ok text => exact ⟨Config.ofText Config.fileName text, rfl⟩
    | .error .missing => exact ⟨.ok {}, rfl⟩
    | .error .other => exact ⟨.error .io, rfl⟩

theorem exists_settles_document (path : String) :
    ∃ text, Settles d ((Directory.host input setting).document path) text := by
  unfold Host.document
  split
  · cases input with
    | some text => exact ⟨.ok text, rfl⟩
    | none => exact ⟨.error .io, rfl⟩
  · exact exists_settles_load d input setting path

theorem exists_settles_readTree (path : String) :
    ∃ t, Settles d (readTree (Directory.host input setting) path) t := by
  obtain ⟨text, htext⟩ := exists_settles_document d input setting path
  exact ⟨_, htext.bind fun text => .lift (treeOf text)⟩

theorem settles_options (config : Config) (asked : Option Dialect) :
    Settles d (options (Directory.host input setting) config asked)
      (config.options asked setting) :=
  rfl

end

/-- A checked shift gives the tree that it gives unchecked, or fails as the rendering does. -/
theorem adjusting_run (offset : Offset) (options : Options) (t : Node .mod) :
    ((adjusting offset (some options)).run t).2 =
      ((t.render options).mapError Failure.render).map fun _ => t.shift offset := by
  have hshift : (t.adjust offset).1 = t.shift offset := t.adjust_fst offset
  have hrender : Node.render options (t.shift offset) = t.render options :=
    t.render_shift options offset
  change (Pipeline.runAll [.shift offset, .tap 0 options] [none] t).2 = _
  simp only [Pipeline.runAll, Pipeline.step, hshift, hrender]
  cases t.render options <;> rfl

theorem adjusting_run_unchecked (offset : Offset) (t : Node .mod) :
    ((adjusting offset none).run t).2 = .ok (t.shift offset) :=
  congrArg Except.ok (t.adjust_fst offset)

/-- What is found in the place where a job is to be done. -/
structure Findings where
  config : Except Failure Config
  tree : Except Failure (Node .mod)

namespace Findings

variable (found : Findings)

/-- What comes of rendering. -/
def rendered (asked : Option Dialect) (setting : Option String) : Except Failure String := do
  let config ← found.config
  let options ← config.options asked setting
  let t ← found.tree
  (t.render options).mapError .render

/-- What comes of a shift. -/
def shifted (offset : Offset) : Except Failure String := do
  let _ ← found.config
  let t ← found.tree
  return page (Node.toJson (t.shift offset))

/-- What can be found when these are the settings and the document that are asked for. -/
structure In (d : Directory) (input setting : Option String) (path : Option String)
    (place : String) : Prop where
  config : Settles d (Config.discover (Directory.host input setting) path) found.config
  tree : Settles d (readTree (Directory.host input setting) place) found.tree

variable {found} {d : Directory} {input setting path : Option String} {place : String}

theorem In.render (h : found.In d input setting path place) (asked : Option Dialect) :
    Settles d (run (Directory.host input setting) ⟨asked, path, .render place none none⟩)
      (found.rendered asked setting) := by
  refine h.config.bind fun config => (settles_options d input setting config asked).bind fun o =>
    h.tree.bind fun t => ?_
  unfold Settles
  cases t.render o <;> rfl

theorem In.adjust_unchecked (h : found.In d input setting path place) (asked : Option Dialect)
    (offset : Offset) :
    Settles d (run (Directory.host input setting) ⟨asked, path, .adjust place offset false⟩)
      (found.shifted offset) := by
  refine h.config.bind fun config => h.tree.bind fun t => ?_
  rw [adjusting_run_unchecked]
  rfl

/-- Step by step: the settings, the options, the document, and what the pipeline does to it. -/
theorem rendered_bind_shifted (asked : Option Dialect) (setting : Option String)
    (offset : Offset) : (found.rendered asked setting >>= fun _ => found.shifted offset) = do
      let config ← found.config
      let options ← config.options asked setting
      let t ← found.tree
      let t ← ((adjusting offset (some options)).run t).2
      return page t.toJson := by
  obtain ⟨config, tree⟩ := found
  cases config with
  | error e => rfl
  | ok config =>
    change (_ >>= _) = (config.options asked setting >>= _)
    simp only [rendered, shifted, adjusting_run]
    change (config.options asked setting >>= _) >>= _ = config.options asked setting >>= _
    cases config.options asked setting with
    | error e => rfl
    | ok options =>
      cases tree with
      | error e => rfl
      | ok t =>
        change (t.render options).mapError _ >>= _ =
          ((t.render options).mapError _).map _ >>= _
        cases t.render options <;> rfl

theorem In.adjust_checked (h : found.In d input setting path place) (asked : Option Dialect)
    (offset : Offset) :
    Settles d (run (Directory.host input setting) ⟨asked, path, .adjust place offset true⟩)
      (found.rendered asked setting >>= fun _ => found.shifted offset) := by
  rw [rendered_bind_shifted]
  refine h.config.bind fun config => ?_
  change Settles d (some <$> options _ config asked >>= _) _
  rw [bind_map_left]
  exact (settles_options d input setting config asked).bind fun options =>
    h.tree.bind fun t => (Settles.lift _).bind fun t => .pure (page t.toJson)

/-- What can be rendered can be shifted. -/
theorem exists_shifted {asked : Option Dialect} {text : String}
    (h : found.rendered asked setting = .ok text) (offset : Offset) :
    ∃ page, found.shifted offset = .ok page := by
  obtain ⟨config, tree⟩ := found
  cases config with
  | error e => cases h
  | ok config =>
    cases tree with
    | ok t => exact ⟨_, rfl⟩
    | error e =>
      change config.options asked setting >>= _ = _ at h
      cases hoptions : config.options asked setting <;> rw [hoptions] at h <;> cases h

end Findings

theorem exists_findings (d : Directory) (input setting path : Option String) (place : String) :
    ∃ found : Findings, found.In d input setting path place := by
  obtain ⟨config, hconfig⟩ := exists_settles_discover d input setting path
  obtain ⟨tree, htree⟩ := exists_settles_readTree d input setting place
  exact ⟨⟨config, tree⟩, hconfig, htree⟩

theorem code_ne_zero (e : Failure) : e.code ≠ 0 := by
  cases e <;> exact nofun

/-- How the program ends in a directory if its words ask for a job. -/
def endingIn (d : Directory) (input setting : Option String) (words : List String) :
    Option Ending :=
  match Arguments.parse words with
  | .job inv => some (ending ((run (Directory.host input setting) inv).run.run d).1)
  | _ => none

theorem endingIn_of_settles {d : Directory} {input setting : Option String} {words : List String}
    {inv : Invocation} {result : Except Failure String} (hwords : Arguments.parse words = .job inv)
    (h : Settles d (run (Directory.host input setting) inv) result) :
    endingIn d input setting words = some (ending result) := by
  unfold Settles at h
  simp only [endingIn, hwords, h]

/-- A checked shift tells whether a tree can be rendered: it ends with the code of the rendering,
with its report if there is one, and otherwise as if nothing had been checked. -/
theorem check_tells_renderable (d : Directory) (input setting : Option String)
    (frame : Arguments.Frame) {lines columns : String}
    (hlines : Arguments.isNumber UInt32.size lines = true)
    (hcolumns : Arguments.isNumber UInt32.size columns = true) :
    ∃ rendered checked shifted : Ending,
      endingIn d input setting (frame.line "render" []) = some rendered ∧
      endingIn d input setting (frame.line "adjust"
        ["--lines", lines, "--cols", columns, "--check"]) = some checked ∧
      endingIn d input setting (frame.line "adjust"
        ["--lines", lines, "--cols", columns]) = some shifted ∧
      checked.code = rendered.code ∧
      (checked.code ≠ 0 → checked = rendered ∧ checked.output = "") ∧
      (checked.code = 0 → checked = shifted) := by
  obtain ⟨found, hfound⟩ :=
    exists_findings d input setting (frame.value? "config") frame.tree
  have hrender := endingIn_of_settles frame.parse_render (hfound.render _)
  have hchecked := endingIn_of_settles (frame.parse_adjust hlines hcolumns true)
    (hfound.adjust_checked _ _)
  have hshifted := endingIn_of_settles (frame.parse_adjust hlines hcolumns false)
    (hfound.adjust_unchecked _ _)
  refine ⟨_, _, _, hrender, hchecked, hshifted, ?_⟩
  -- A checked shift is the rendering and then the shift, so the rendering decides.
  cases hresult : found.rendered ((frame.value? "python-version").bind Dialect.ofText?) setting with
  | error e => exact ⟨rfl, fun _ => ⟨rfl, rfl⟩, fun h => absurd h (code_ne_zero e)⟩
  | ok text =>
    obtain ⟨page, hpage⟩ := Findings.exists_shifted hresult _
    rw [hpage]
    exact ⟨rfl, fun h => absurd rfl h, fun _ => rfl⟩

/-- Options of both kinds around a command that reads the standard input. -/
def streamFrame : Arguments.Frame where
  before := ["--log-level", "warn", "--python-version=2.7"]
  first := ["-", "--log-format=json"]
  second := ["--python-version", "3.8"]
  tree := "-"
  outer := { given := [("log-level", "warn"), ("python-version", "2.7")] }
  middle := { given := [("log-format", "json")], words := ["-"] }
  inner := { given := [("log-format", "json"), ("python-version", "3.8")], words := ["-"] }
  scan_before := by decide
  words_outer := rfl
  isHelp_outer := rfl
  scan_first := by decide
  isHelp_middle := rfl
  dashes_notMem := by decide
  scan_second := by decide
  words_inner := rfl
  isHelp_inner := rfl
  isPath_tree := by decide

/-- A document with one statement, in the third line and indented by four. -/
def statementDocument (fields : String) : String :=
  "\x7b\"kind\":\"Module\",\"body\":[\x7b" ++ fields ++
    ",\"position\":\x7b\"lineno\":3,\"col_offset\":4\x7d\x7d]\x7d"

def passDocument : String :=
  statementDocument "\"kind\":\"Pass\""

/-- A statement that the dialect which is asked for has no more. -/
def printDocument : String :=
  statementDocument "\"kind\":\"Print\",\"values\":[],\"nl\":true"

/-- The words for a command, with what stands between its options. -/
def streamWords (command : String) (asked : List String) : List String :=
  ["--log-level", "warn", "--python-version=2.7", command, "-", "--log-format=json"] ++ asked ++
    ["--python-version", "3.8"]

theorem check_tells_renderable_stream :
    (endingIn ⟨[]⟩ (some passDocument) none (streamWords "render" []) =
        some ⟨0, "pass\n", ""⟩ ∧
      endingIn ⟨[]⟩ (some passDocument) none
        (streamWords "adjust" ["--lines", "+2", "--cols", "0", "--check"]) =
        some ⟨0, page (Stmt.module [.withPosition ⟨5, 4⟩ Stmt.pass]).toJson, ""⟩) ∧
    ∃ refused : Ending, refused.code = 4 ∧ refused.output = "" ∧
      endingIn ⟨[]⟩ (some printDocument) none (streamWords "render" []) = some refused ∧
      endingIn ⟨[]⟩ (some printDocument) none
        (streamWords "adjust" ["--lines", "+2", "--cols", "0", "--check"]) = some refused := by
  have hlines : Arguments.isNumber UInt32.size "+2" = true := by decide
  have hcolumns : Arguments.isNumber UInt32.size "0" = true := by decide
  have hpass : endingIn ⟨[]⟩ (some passDocument) none (streamWords "render" []) =
      some ⟨0, "pass\n", ""⟩ := by decide +kernel
  have hshift : endingIn ⟨[]⟩ (some passDocument) none
      (streamWords "adjust" ["--lines", "+2", "--cols", "0"]) =
      some ⟨0, page (Stmt.module [.withPosition ⟨5, 4⟩ Stmt.pass]).toJson, ""⟩ := by
    decide +kernel
  have hprint : (endingIn ⟨[]⟩ (some printDocument) none (streamWords "render" [])).map
      Ending.code = some 4 := by decide +kernel
  refine ⟨⟨hpass, ?_⟩, ?_⟩
  · obtain ⟨rendered, checked, shifted, hrendered, hchecked, hshifted, hcode, -, hdone⟩ :=
      check_tells_renderable ⟨[]⟩ (some passDocument) none streamFrame hlines hcolumns
    obtain rfl := Option.some.inj (hpass.symm.trans hrendered)
    rw [← hdone hcode] at hshifted
    exact hchecked.trans (hshifted.symm.trans hshift)
  · obtain ⟨refused, checked, -, hrefused, hchecked, -, hcode, hfailed, -⟩ :=
      check_tells_renderable ⟨[]⟩ (some printDocument) none streamFrame hlines hcolumns
    have hfour : refused.code = 4 := Option.some.inj ((congrArg _ hrefused).symm.trans hprint)
    obtain ⟨rfl, houtput⟩ := hfailed (by omega)
    exact ⟨checked, hfour, houtput, hrefused, hchecked⟩

end Unparse.Command
