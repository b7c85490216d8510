import Unparse.Command.Arguments

/-! Command lines as a grammar. `Reads` says without a call for help what a scan does with each
word, so that lines can be put together from parts, and a line with general options only can be
read as well by a command that has options of its own. -/
namespace Unparse.Arguments

/-- From what was found in `s`, the words lead to what is found in the end. -/
inductive Reads (specs : List Spec) (stop : Bool) : Scan → List String → Scan → Prop where
  | nil (s : Scan) : Reads specs stop s [] s
  | dashes (s : Scan) (more : List String) (hstop : stop = false) :
      Reads specs stop s ("--" :: more) { s with words := s.words ++ more }
  /-- The value of an option is attached to it. -/
  | attached {s s' r : Scan} {word : String} {more : List String} {spec : Spec} {value : String}
      (hword : word ≠ "--") (hlike : isOptionLike word = true)
      (hoption : option? specs word = some (spec, some value)) (hvalued : spec.valued = true)
      (hnote : s.note? spec value = some s') (hmore : Reads specs stop s' more r) :
      Reads specs stop s (word :: more) r
  | flag {s s' r : Scan} {word : String} {more : List String} {spec : Spec}
      (hword : word ≠ "--") (hlike : isOptionLike word = true)
      (hoption : option? specs word = some (spec, none)) (hvalued : spec.valued = false)
      (hnote : s.note? spec "" = some s') (hhelp : s'.isHelp = false)
      (hmore : Reads specs stop s' more r) : Reads specs stop s (word :: more) r
  /-- The value of an option is the next word. -/
  | separate {s s' r : Scan} {word value : String} {more : List String} {spec : Spec}
      (hword : word ≠ "--") (hlike : isOptionLike word = true)
      (hoption : option? specs word = some (spec, none)) (hvalued : spec.valued = true)
      (hvalue : isOptionLike value = false) (hnote : s.note? spec value = some s')
      (hmore : Reads specs stop s' more r) : Reads specs stop s (word :: value :: more) r
  | name (s : Scan) {word : String} (more : List String) (hword : word ≠ "--")
      (hlike : isOptionLike word = false) (hstop : stop = true) :
      Reads specs stop s (word :: more) { s with words := [word], rest := more }
  | plain {s r : Scan} {word : String} {more : List String} (hword : word ≠ "--")
      (hlike : isOptionLike word = false) (hstop : stop = false)
      (hmore : Reads specs stop { s with words := s.words ++ [word] } more r) :
      Reads specs stop s (word :: more) r

section

variable {specs : List Spec} {stop : Bool} {s mid r : Scan} {words first second : List String}

theorem Reads.scan_eq (h : Reads specs stop s words r) : scan specs stop s words = some r := by
  induction h with
  | nil s => rfl
  | dashes s more hstop => simp [scan, hstop]
  | attached hword hlike hoption hvalued hnote _ ih =>
    simpa [scan, hword, hlike, hoption, hvalued, hnote] using ih
  | flag hword hlike hoption hvalued hnote hhelp _ ih =>
    simpa [scan, hword, hlike, hoption, hvalued, hnote, hhelp] using ih
  | separate hword hlike hoption hvalued hvalue hnote _ ih =>
    simpa [scan, hword, hlike, hoption, hvalued, hvalue, hnote] using ih
  | name s more hword hlike hstop => simp [scan, hword, hlike, hstop]
  | plain hword hlike hstop _ ih => simpa [scan, hword, hlike, hstop] using ih

theorem reads_of_scan (h : scan specs stop s words = some r) (hhelp : r.isHelp = false) :
    Reads specs stop s words r := by
  fun_induction scan specs stop s words with
  | case1 s =>
    cases h
    exact .nil _
  | case3 s more hstop =>
    cases h
    exact .dashes s more (by simpa using hstop)
  | case5 s word more hword hlike spec value hoption hvalued ih =>
    obtain ⟨s', hnote, h⟩ := Option.bind_eq_some_iff.mp h
    exact .attached hword hlike hoption hvalued hnote (ih s' h)
  | case7 s word more hword hlike spec hoption hvalued ih =>
    obtain ⟨s', hnote, h⟩ := Option.bind_eq_some_iff.mp h
    -- A call for help would end the scan here, and be found in the end.
    cases hasked : s'.isHelp with
    | true =>
      rw [hasked, if_pos rfl, Option.some_inj] at h
      rw [← h, hasked] at hhelp
      cases hhelp
    | false =>
      rw [hasked, if_neg Bool.false_ne_true] at h
      exact .flag hword hlike hoption (by simpa using hvalued) hnote hasked (ih s' h)
  | case10 s word hword hlike spec hoption hvalued value more hvalue ih =>
    obtain ⟨s', hnote, h⟩ := Option.bind_eq_some_iff.mp h
    exact .separate hword hlike hoption (by simpa using hvalued) (by simpa using hvalue) hnote
      (ih s' h)
  | case11 s word more hword hlike hstop =>
    cases h
    exact .name s more hword (by simpa using hlike) hstop
  | case12 s word more hword hlike hstop ih =>
    exact .plain hword (by simpa using hlike) (by simpa using hstop) (ih h)
  -- In the other cases the line is refused.
  | case2 | case4 | case6 | case8 | case9 => cases h

/-- A line may be continued if it ends in neither two hyphens and what follows them nor in the
name of a command. -/
theorem Reads.trans (hfirst : Reads specs stop s first mid) (hdashes : stop = false → "--" ∉ first)
    (hname : stop = true → mid.words = []) (hsecond : Reads specs stop mid second r) :
    Reads specs stop s (first ++ second) r := by
  induction hfirst with
  | nil s => exact hsecond
  | dashes s more hstop => exact absurd (List.mem_cons_self) (hdashes hstop)
  | attached hword hlike hoption hvalued hnote _ ih =>
    exact .attached hword hlike hoption hvalued hnote
      (ih (fun h => fun hmem => hdashes h (.tail _ hmem)) hname hsecond)
  | flag hword hlike hoption hvalued hnote hhelp _ ih =>
    exact .flag hword hlike hoption hvalued hnote hhelp
      (ih (fun h => fun hmem => hdashes h (.tail _ hmem)) hname hsecond)
  | separate hword hlike hoption hvalued hvalue hnote _ ih =>
    exact .separate hword hlike hoption hvalued hvalue hnote
      (ih (fun h => fun hmem => hdashes h (.tail _ (.tail _ hmem))) hname hsecond)
  | name s more hword hlike hstop => cases hname hstop
  | plain hword hlike hstop _ ih =>
    exact .plain hword hlike hstop
      (ih (fun h => fun hmem => hdashes h (.tail _ hmem)) hname hsecond)

end

namespace Scan

theorem note?_eq_some_iff {spec : Spec} {value : String} {s s' : Scan} :
    s.note? spec value = some s' ↔ s.has spec.long = false ∧
      (spec.valued = true → spec.accepts value = true) ∧
        s' = { s with given := s.given ++ [(spec.long, value)] } := by
  unfold note?
  split <;> grind

theorem get?_append (s : Scan) (more : List (String × String)) (name : String) :
    get? { s with given := s.given ++ more } name = (s.get? name).or (more.lookup name) :=
  List.lookup_append

theorem has_append (s : Scan) {more : List (String × String)} {name : String}
    (h : more.lookup name = none) :
    has { s with given := s.given ++ more } name = s.has name := by
  rw [has, get?_append, h, Option.or_none, has]

end Scan

theorem lookup_single_of_ne {name other : String} (h : name ≠ other) (value : String) :
    [(other, value)].lookup name = none := by
  rw [List.lookup_cons, beq_eq_false_iff_ne.mpr h]
  rfl

theorem mem_of_option? {specs : List Spec} {word : String} {spec : Spec} {value : Option String}
    (h : option? specs word = some (spec, value)) : spec ∈ specs := by
  unfold option? at h
  split at h
  · obtain ⟨found, hfound, heq⟩ := Option.map_eq_some_iff.mp h
    cases heq
    exact List.mem_of_find?_eq_some hfound
  · obtain ⟨⟨c, attached⟩, -, h⟩ := Option.bind_eq_some_iff.mp h
    obtain ⟨found, hfound, h⟩ := Option.bind_eq_some_iff.mp h
    cases h
    exact List.mem_of_find?_eq_some hfound

/-- None of the options is taken for a general one. -/
def Apart (specs : List Spec) : Prop :=
  ∀ spec ∈ specs, ∀ other ∈ general,
    spec.long ≠ other.long ∧ (spec.short ≠ none → spec.short ≠ other.short)

instance : DecidablePred Apart := fun specs =>
  inferInstanceAs (Decidable (∀ spec ∈ specs, ∀ other ∈ general,
    spec.long ≠ other.long ∧ (spec.short ≠ none → spec.short ≠ other.short)))

theorem option?_append {specs : List Spec} (hapart : Apart specs) {word : String} {spec : Spec}
    {value : Option String} (h : option? general word = some (spec, value)) :
    option? (specs ++ general) word = some (spec, value) := by
  unfold option? at h ⊢
  split at h
  · obtain ⟨found, hfound, heq⟩ := Option.map_eq_some_iff.mp h
    cases heq
    have hname := List.find?_some hfound
    have hmem := List.mem_of_find?_eq_some hfound
    have hnone : specs.find? (·.long == _) = none := List.find?_eq_none.mpr fun own hown hsame =>
      (hapart own hown spec hmem).1 ((beq_iff_eq.mp hsame).trans (beq_iff_eq.mp hname).symm)
    simp only [List.find?_append, hnone, Option.none_or, hfound, Option.map_some]
  · obtain ⟨⟨c, attached⟩, hshort, h⟩ := Option.bind_eq_some_iff.mp h
    obtain ⟨found, hfound, h⟩ := Option.bind_eq_some_iff.mp h
    cases h
    have hletter := List.find?_some hfound
    have hmem := List.mem_of_find?_eq_some hfound
    have hnone : specs.find? (·.short == some c) = none :=
      List.find?_eq_none.mpr fun own hown hsame => by
        have hshort := beq_iff_eq.mp hsame
        exact (hapart own hown spec hmem).2 (by simp [hshort])
          (hshort.trans (beq_iff_eq.mp hletter).symm)
    simp [hshort, List.find?_append, hnone, hfound]

/-- `s'` holds what `s` holds, which is general, and the options of `extra` besides. -/
structure Alongside (extra : List (String × String)) (s s' : Scan) : Prop where
  words : s'.words = s.words
  get : ∀ name, s'.get? name = (s.get? name).or (extra.lookup name)
  known : ∀ name, s.has name = true → name ∈ general.map Spec.long

namespace Alongside

variable {extra : List (String × String)} {s s' r : Scan}

theorem has_eq (h : Alongside extra s s') {name : String} (hname : extra.lookup name = none) :
    s'.has name = s.has name := by
  rw [Scan.has, h.get, hname, Option.or_none, Scan.has]

theorem isHelp_eq (hextra : ∀ spec ∈ aboutProgram :: general, extra.lookup spec.long = none)
    (h : Alongside extra s s') : s'.isHelp = s.isHelp := by
  have hhelp : extra.lookup "help" = none :=
    hextra { long := "help", short := some 'h', valued := false } (by simp [general])
  have hversion : extra.lookup "version" = none := hextra aboutProgram List.mem_cons_self
  rw [Scan.isHelp, h.has_eq hhelp, h.has_eq hversion, Scan.isHelp]

theorem note (hextra : ∀ spec ∈ aboutProgram :: general, extra.lookup spec.long = none)
    (h : Alongside extra s s') {spec : Spec} (hspec : spec ∈ general) {value : String}
    (hnote : s.note? spec value = some r) :
    ∃ r', s'.note? spec value = some r' ∧ Alongside extra r r' := by
  obtain ⟨hnew, haccepts, rfl⟩ := Scan.note?_eq_some_iff.mp hnote
  have hnone := hextra spec (.tail _ hspec)
  refine ⟨_, Scan.note?_eq_some_iff.mpr ⟨(h.has_eq hnone).trans hnew, haccepts, rfl⟩, h.words,
    fun name => ?_, fun name hname => ?_⟩
  · rw [Scan.get?_append, Scan.get?_append, h.get]
    by_cases hsame : name = spec.long
    · rw [hsame, hnone, Option.or_none, Option.or_none]
    · rw [lookup_single_of_ne hsame, Option.or_none, Option.or_none]
  · by_cases hsame : name = spec.long
    · exact hsame ▸ List.mem_map_of_mem hspec
    · rw [Scan.has_append s (lookup_single_of_ne hsame value)] at hname
      exact h.known name hname

/-- What can be read with general options only is read in the same way with more of them. -/
theorem reads {specs : List Spec} (hapart : Apart specs)
    (hextra : ∀ spec ∈ aboutProgram :: general, extra.lookup spec.long = none)
    {words : List String} (h : Alongside extra s s') (hreads : Reads general false s words r) :
    ∃ r', Reads (specs ++ general) false s' words r' ∧ Alongside extra r r' := by
  induction hreads generalizing s' with
  | nil s => exact ⟨s', .nil s', h⟩
  | dashes s more hstop =>
    exact ⟨_, .dashes s' more hstop, congrArg (· ++ more) h.words, h.get, h.known⟩
  | attached hword hlike hoption hvalued hnote _ ih =>
    obtain ⟨next, hnote', hnext⟩ := h.note hextra (mem_of_option? hoption) hnote
    obtain ⟨r', hr, hside⟩ := ih hnext
    exact ⟨r', .attached hword hlike (option?_append hapart hoption) hvalued hnote' hr, hside⟩
  | flag hword hlike hoption hvalued hnote hhelp _ ih =>
    obtain ⟨next, hnote', hnext⟩ := h.note hextra (mem_of_option? hoption) hnote
    obtain ⟨r', hr, hside⟩ := ih hnext
    exact ⟨r', .flag hword hlike (option?_append hapart hoption) hvalued hnote'
      ((hnext.isHelp_eq hextra).trans hhelp) hr, hside⟩
  | separate hword hlike hoption hvalued hvalue hnote _ ih =>
    obtain ⟨next, hnote', hnext⟩ := h.note hextra (mem_of_option? hoption) hnote
    obtain ⟨r', hr, hside⟩ := ih hnext
    exact ⟨r', .separate hword hlike (option?_append hapart hoption) hvalued hvalue hnote' hr,
      hside⟩
  | name s more hword hlike hstop => cases hstop
  | @plain s r word more hword hlike hstop _ ih =>
    have hnext : Alongside extra { s with words := s.words ++ [word] }
        { s' with words := s'.words ++ [word] } :=
      ⟨congrArg (· ++ [word]) h.words, h.get, h.known⟩
    obtain ⟨r', hr, hside⟩ := ih hnext
    exact ⟨r', .plain hword hlike hstop hr, hside⟩

theorem get?_of_notMem (h : Alongside extra s s') {name : String}
    (hname : name ∉ general.map Spec.long) : s'.get? name = extra.lookup name := by
  cases hfound : s.get? name with
  | none => rw [h.get, hfound, Option.none_or]
  | some value => exact absurd (h.known name (by rw [Scan.has, hfound]; rfl)) hname

end Alongside

theorem isOptionLike_of_isNumber {bound : Nat} {text : String}
    (h : isNumber bound text = true) : isOptionLike text = false := by
  obtain ⟨n, h⟩ := Option.isSome_iff_exists.mp h
  obtain ⟨m, hdigits, -⟩ := Option.bind_eq_some_iff.mp h
  unfold isOptionLike Text.startsWith
  revert hdigits
  cases text.toList with
  | nil => simp
  | cons c cs =>
    by_cases hc : c = '-'
    · subst hc
      simp [Text.digits?, Char.isDigit]
    · simp [Ne.symm hc]

/-- General options around the name of a command, and the path of a tree among those behind it.
Options of the command itself have their place between `first` and `second`. -/
structure Frame where
  before : List String
  first : List String
  second : List String
  tree : String
  /-- What is found before the name. -/
  outer : Scan
  /-- What is found behind the name, up to the place for other options. -/
  middle : Scan
  inner : Scan
  scan_before : scan (aboutProgram :: general) true {} before = some outer
  words_outer : outer.words = []
  isHelp_outer : outer.isHelp = false
  scan_first : scan general false {} first = some middle
  isHelp_middle : middle.isHelp = false
  dashes_notMem : "--" ∉ first
  scan_second : scan general false middle second = some inner
  words_inner : inner.words = [tree]
  isHelp_inner : inner.isHelp = false
  isPath_tree : isPath tree = true

namespace Frame

def line (frame : Frame) (name : String) (own : List String) : List String :=
  frame.before ++ name :: (frame.first ++ own ++ frame.second)

def value? (frame : Frame) (option : String) : Option String :=
  (frame.inner.get? option).or (frame.outer.get? option)

/-- The job that a command is to do with the general options. -/
def job (frame : Frame) (command : Command) : Invocation :=
  ⟨(frame.value? "python-version").bind Dialect.ofText?, frame.value? "config", command⟩

/-- What is known when the name of a command has been reached. -/
def reached (frame : Frame) (name : String) (own : List String) : Scan :=
  { frame.outer with words := [name], rest := frame.first ++ own ++ frame.second }

variable (frame : Frame)

theorem parse_line {name : String} (hname : name ≠ "--") (hlike : isOptionLike name = false)
    (own : List String) :
    parse (frame.line name own) = afterName (frame.reached name own) name := by
  have hbefore := reads_of_scan frame.scan_before frame.isHelp_outer
  have hline : Reads (aboutProgram :: general) true {} (frame.line name own)
      (frame.reached name own) :=
    hbefore.trans nofun (fun _ => frame.words_outer) (.name frame.outer _ hname hlike rfl)
  have hhelp : (frame.reached name own).isHelp = false := frame.isHelp_outer
  rw [parse, hline.scan_eq]
  simp only [hhelp, Bool.false_eq_true, if_false]
  rfl

/-- The options of a command are found beside the general ones. -/
theorem reads_line {specs : List Spec} (hapart : Apart specs) {own : List String}
    (hdashes : "--" ∉ own) {extra : List (String × String)}
    (hextra : ∀ spec ∈ aboutProgram :: general, extra.lookup spec.long = none)
    (hown : ∀ s : Scan, s.isHelp = false → (∀ p ∈ extra, s.has p.1 = false) →
      Reads (specs ++ general) false s own { s with given := s.given ++ extra }) :
    ∃ r, Reads (specs ++ general) false {} (frame.first ++ own ++ frame.second) r ∧
      Alongside extra frame.inner r := by
  -- Nothing else is found before the place of the other options, and `extra` from there on.
  have hstart : Alongside [] {} {} := ⟨rfl, fun _ => rfl, nofun⟩
  obtain ⟨middle, hfirst, hmiddle⟩ :=
    hstart.reads hapart (fun _ _ => rfl) (reads_of_scan frame.scan_first frame.isHelp_middle)
  have hnew : ∀ p ∈ extra, middle.has p.1 = false := by
    intro p hp
    have hother : p.1 ∉ general.map Spec.long := fun hmem => by
      obtain ⟨spec, hspec, hname⟩ := List.mem_map.mp hmem
      have hunlike := List.lookup_eq_none_iff.mp (hextra spec (.tail _ hspec)) p hp
      exact bne_iff_ne.mp hunlike hname
    rw [Scan.has, hmiddle.get?_of_notMem hother]
    rfl
  have hnext : Alongside extra frame.middle { middle with given := middle.given ++ extra } :=
    ⟨hmiddle.words, fun name => by
      rw [Scan.get?_append, hmiddle.get, List.lookup_nil, Option.or_none], hmiddle.known⟩
  obtain ⟨r, hsecond, hr⟩ :=
    hnext.reads hapart hextra (reads_of_scan frame.scan_second frame.isHelp_inner)
  have hhelp : middle.isHelp = false :=
    (hmiddle.isHelp_eq fun _ _ => rfl).trans frame.isHelp_middle
  have hbegun := hfirst.trans (fun _ => frame.dashes_notMem) nofun (hown middle hhelp hnew)
  refine ⟨r, hbegun.trans (fun _ hmem => ?_) nofun hsecond, hr⟩
  rcases List.mem_append.mp hmem with hmem | hmem
  · exact frame.dashes_notMem hmem
  · exact hdashes hmem

/-- A command whose own options can be read does its job with the general ones. -/
theorem parse_line_eq_job {name : String} (hname : name ≠ "--")
    (hlike : isOptionLike name = false) {specs : List Spec} (hspecs : ofCommand? name = some specs)
    (hapart : Apart specs) {own : List String} (hdashes : "--" ∉ own)
    (extra : List (String × String))
    (hextra : ∀ spec ∈ aboutProgram :: general, extra.lookup spec.long = none)
    (hown : ∀ s : Scan, s.isHelp = false → (∀ p ∈ extra, s.has p.1 = false) →
      Reads (specs ++ general) false s own { s with given := s.given ++ extra })
    {command : Command}
    (hcommand : ∀ r, r.words = [frame.tree] → Alongside extra frame.inner r →
      command? name r = some command) :
    parse (frame.line name own) = .job (frame.job command) := by
  obtain ⟨r, hreads, hr⟩ := frame.reads_line hapart hdashes hextra hown
  have hwords : r.words = [frame.tree] := hr.words.trans frame.words_inner
  have hhelp : r.isHelp = false := (hr.isHelp_eq hextra).trans frame.isHelp_inner
  have hscan : scan (specs ++ general) false {} (frame.reached name own).rest = some r :=
    hreads.scan_eq
  have hvalue (spec : Spec) (hspec : spec ∈ general) :
      r.get? spec.long = frame.inner.get? spec.long := by
    rw [hr.get, hextra spec (.tail _ hspec), Option.or_none]
  have hdialect := hvalue { long := "python-version", accepts := _ } List.mem_cons_self
  have hconfig := hvalue { long := "config", accepts := _ } (.tail _ List.mem_cons_self)
  have hinvocation : invocation? (frame.reached name own) r name = some (frame.job command) := by
    simp only [invocation?, hwords, List.all_cons, frame.isPath_tree, hcommand r hwords hr,
      hdialect, hconfig]
    rfl
  rw [frame.parse_line hname hlike own, afterName, hspecs]
  simp only [hscan, hhelp, hinvocation, Bool.false_eq_true, if_false]

theorem parse_render :
    parse (frame.line "render" []) = .job (frame.job (.render frame.tree none none)) := by
  refine frame.parse_line_eq_job (by decide) (by decide) rfl (by decide) List.not_mem_nil []
    (fun _ _ => rfl) (fun s _ _ => ?_) fun r hwords hr => ?_
  · rw [List.append_nil]
    exact .nil s
  · have houtput : r.get? "output" = none := hr.get?_of_notMem (by decide)
    have hwidth : r.get? "indent-width" = none := hr.get?_of_notMem (by decide)
    simp [command?, hwords, Scan.number?, houtput, hwidth]

/-- The words that ask for a shift. -/
def shiftWords (lines columns : String) (check : Bool) : List String :=
  ["--lines", lines, "--cols", columns] ++ if check then ["--check"] else []

/-- The options that are found in them. -/
def shiftOptions (lines columns : String) (check : Bool) : List (String × String) :=
  [("lines", lines), ("cols", columns)] ++ if check then [("check", "")] else []

theorem reads_shiftWords {specs : List Spec} (hspecs : ofCommand? "adjust" = some specs)
    {lines columns : String} (hlines : isNumber UInt32.size lines = true)
    (hcolumns : isNumber UInt32.size columns = true) (check : Bool) (s : Scan)
    (hhelp : s.isHelp = false)
    (hnew : ∀ p ∈ shiftOptions lines columns check, s.has p.1 = false) :
    Reads (specs ++ general) false s (shiftWords lines columns check)
      { s with given := s.given ++ shiftOptions lines columns check } := by
  cases hspecs
  have hcolumnsNew := hnew ("cols", columns) (.tail _ List.mem_cons_self)
  refine .separate (by decide) (by decide) rfl rfl (isOptionLike_of_isNumber hlines)
    (Scan.note?_eq_some_iff.mpr ⟨hnew _ List.mem_cons_self, fun _ => hlines, rfl⟩) ?_
  refine .separate (by decide) (by decide) rfl rfl (isOptionLike_of_isNumber hcolumns)
    (Scan.note?_eq_some_iff.mpr
      ⟨(Scan.has_append _ rfl).trans hcolumnsNew, fun _ => hcolumns, rfl⟩) ?_
  rw [List.append_assoc]
  cases check with
  | false => exact .nil _
  | true =>
    have hcheckNew := hnew ("check", "") (.tail _ (.tail _ List.mem_cons_self))
    refine .flag (by decide) (by decide) rfl rfl (Scan.note?_eq_some_iff.mpr
      ⟨(Scan.has_append _ rfl).trans hcheckNew, nofun, rfl⟩) ?_ ?_
    · rw [List.append_assoc]
      rw [Scan.isHelp, Scan.has_append _ rfl, Scan.has_append _ rfl]
      exact hhelp
    · rw [List.append_assoc]
      exact .nil _

theorem dashes_notMem_shiftWords {lines columns : String}
    (hlines : isNumber UInt32.size lines = true)
    (hcolumns : isNumber UInt32.size columns = true) (check : Bool) :
    "--" ∉ shiftWords lines columns check := by
  have hne {text : String} (htext : isNumber UInt32.size text = true) : "--" ≠ text := by
    rintro rfl
    exact absurd (isOptionLike_of_isNumber htext) (by decide)
  cases check <;> simp [shiftWords, hne hlines, hne hcolumns]

theorem parse_adjust {lines columns : String} (hlines : isNumber UInt32.size lines = true)
    (hcolumns : isNumber UInt32.size columns = true) (check : Bool) :
    parse (frame.line "adjust" (shiftWords lines columns check)) =
      .job (frame.job (.adjust frame.tree
        (offset { given := [("lines", lines), ("cols", columns)] }) check)) := by
  refine frame.parse_line_eq_job (by decide) (by decide) rfl (by decide)
    (dashes_notMem_shiftWords hlines hcolumns check) (shiftOptions lines columns check) ?_
    (reads_shiftWords rfl hlines hcolumns check) fun r hwords hr => ?_
  · cases check <;> simp [shiftOptions, general, aboutProgram, List.lookup_cons]
  · have hfound {name : String} (hname : name ∉ general.map Spec.long) := hr.get?_of_notMem hname
    have hlines : r.get? "lines" = some lines := hfound (by decide)
    have hcolumns : r.get? "cols" = some columns := hfound (by decide)
    have hcheck : r.has "check" = check := by
      rw [Scan.has, hfound (by decide)]
      cases check <;> rfl
    simp only [command?, hwords, offset, Scan.number?, hlines, hcolumns, hcheck]
    rfl

end Frame

end Unparse.Arguments
