import Unparse.Text

/-! Signatures: what the text of a parameter list says. Written out, a signature is a list of
pieces with commas between them. The text is read back where all names, types and defaults in it
are plain words. -/
namespace Unparse

/-- A parameter without its default. -/
structure Declaration where
  name : String
  type : Option String
deriving DecidableEq

structure Parameter extends Declaration where
  default : Option String
deriving DecidableEq

inductive Piece where
  | parameter (p : Parameter)
  /-- The end of the positional-only parameters. -/
  | slash
  /-- The start of the keyword-only parameters, where no variadic one stands there. -/
  | star
  | variadic (d : Declaration)
  | keywords (d : Declaration)
deriving DecidableEq

structure Signature where
  posonly : List Parameter
  args : List Parameter
  vararg : Option Declaration
  kwonly : List Parameter
  kwarg : Option Declaration
deriving DecidableEq

namespace Declaration

def text (d : Declaration) : String :=
  d.name ++ d.type.elim "" (": " ++ ·)

end Declaration

namespace Parameter

def sign (p : Parameter) : String :=
  if p.type.isSome then " = " else "="

def text (p : Parameter) : String :=
  p.toDeclaration.text ++ p.default.elim "" (p.sign ++ ·)

end Parameter

namespace Piece

def text : Piece → String
  | parameter p => p.text
  | slash => "/"
  | star => "*"
  | variadic d => "*" ++ d.text
  | keywords d => "**" ++ d.text

/-- What stands before the keyword-only parameters, if there are any. -/
def beforeKeywords (keywordOnly : Bool) : Option Declaration → List Piece
  | some d => [variadic d]
  | none => if keywordOnly then [star] else []

end Piece

namespace Signature

def positional (σ : Signature) : List Parameter :=
  σ.posonly ++ σ.args

def slash (σ : Signature) : List Piece :=
  if σ.posonly.isEmpty then [] else [.slash]

def star (σ : Signature) : List Piece :=
  Piece.beforeKeywords (!σ.kwonly.isEmpty) σ.vararg

def pieces (σ : Signature) : List Piece :=
  σ.posonly.map .parameter ++ σ.slash ++ σ.args.map .parameter ++ σ.star ++
    σ.kwonly.map .parameter ++ σ.kwarg.toList.map .keywords

def text (σ : Signature) : String :=
  String.intercalate ", " (σ.pieces.map Piece.text)

theorem count_slash (σ : Signature) :
    σ.pieces.count .slash = if σ.posonly = [] then 0 else 1 := by
  have hparameters (ps : List Parameter) : (ps.map Piece.parameter).count .slash = 0 := by
    simp [List.count_eq_zero]
  have hstar : σ.star.count .slash = 0 := by
    unfold star Piece.beforeKeywords
    split
    · rfl
    · split <;> rfl
  have hkwarg : (σ.kwarg.toList.map Piece.keywords).count .slash = 0 := by
    simp [List.count_eq_zero]
  have hslash : σ.slash.count .slash = if σ.posonly = [] then 0 else 1 := by
    simp only [slash, List.isEmpty_iff]
    split <;> rfl
  simp only [pieces, List.count_append, hparameters, hstar, hkwarg, hslash, Nat.zero_add,
    Nat.add_zero]

/-- The slash stands right after the last positional-only parameter. -/
theorem take_pieces {σ : Signature} (h : σ.posonly ≠ []) :
    σ.pieces.take (σ.posonly.length + 1) = σ.posonly.map .parameter ++ [.slash] := by
  have hslash : σ.slash = [.slash] := by simp [slash, h]
  have hlength :
      (σ.posonly.map Piece.parameter ++ [Piece.slash]).length = σ.posonly.length + 1 := by
    simp
  simp only [pieces, hslash, List.append_assoc] at hlength ⊢
  rw [← List.append_assoc, ← hlength]
  exact List.take_left' rfl

theorem star_mem_pieces {σ : Signature} :
    .star ∈ σ.pieces ↔ σ.kwonly ≠ [] ∧ σ.vararg = none := by
  have hslash : .star ∉ σ.slash := by
    unfold slash
    split <;> simp
  have hstar : .star ∈ σ.star ↔ σ.kwonly ≠ [] ∧ σ.vararg = none := by
    unfold star Piece.beforeKeywords
    cases σ.vararg <;> simp
  simp [pieces, hslash, hstar]

/-- Takes in one more piece; the flag says that the parameters have become keyword-only. -/
def add : Bool × Signature → Piece → Bool × Signature
  | (false, σ), .parameter p => (false, { σ with args := σ.args ++ [p] })
  | (true, σ), .parameter p => (true, { σ with kwonly := σ.kwonly ++ [p] })
  | (flag, σ), .slash => (flag, { σ with posonly := σ.args, args := [] })
  | (_, σ), .star => (true, σ)
  | (_, σ), .variadic d => (true, { σ with vararg := some d })
  | (flag, σ), .keywords d => (flag, { σ with kwarg := some d })

def ofPieces (ps : List Piece) : Signature :=
  (ps.foldl add (false, ⟨[], [], none, [], none⟩)).2

section Folding

variable (σ : Signature) (posonly args kwonly ps : List Parameter)
  (vararg kwarg : Option Declaration)

theorem foldl_positional :
    (ps.map Piece.parameter).foldl add (false, ⟨posonly, args, vararg, kwonly, kwarg⟩) =
      (false, ⟨posonly, args ++ ps, vararg, kwonly, kwarg⟩) := by
  induction ps generalizing args with
  | nil => simp
  | cons p ps ih => simp [add, ih]

theorem foldl_keywordOnly :
    (ps.map Piece.parameter).foldl add (true, ⟨posonly, args, vararg, kwonly, kwarg⟩) =
      (true, ⟨posonly, args, vararg, kwonly ++ ps, kwarg⟩) := by
  induction ps generalizing kwonly with
  | nil => simp
  | cons p ps ih => simp [add, ih]

theorem foldl_slash :
    σ.slash.foldl add (false, ⟨[], σ.posonly, none, [], none⟩) =
      (false, ⟨σ.posonly, [], none, [], none⟩) := by
  unfold slash
  cases σ.posonly <;> rfl

/-- After a star or a variadic parameter the parameters are keyword-only; without either there
are no more of them. -/
theorem foldl_star : ∃ flag,
    (σ.kwonly.map Piece.parameter).foldl add
        (σ.star.foldl add (false, ⟨posonly, args, none, [], none⟩)) =
      (flag, ⟨posonly, args, σ.vararg, σ.kwonly, none⟩) := by
  unfold star Piece.beforeKeywords
  cases σ.vararg with
  | some d => exact ⟨true, foldl_keywordOnly posonly args [] σ.kwonly (some d) none⟩
  | none =>
    cases σ.kwonly with
    | nil => exact ⟨false, rfl⟩
    | cons p ps => exact ⟨true, foldl_keywordOnly posonly args [] (p :: ps) none none⟩

end Folding

/-- The pieces tell what group each parameter belongs to. -/
theorem ofPieces_pieces (σ : Signature) : ofPieces σ.pieces = σ := by
  obtain ⟨flag, hstar⟩ := foldl_star σ σ.posonly σ.args
  simp only [ofPieces, pieces, List.foldl_append]
  rw [foldl_positional, List.nil_append, foldl_slash, foldl_positional, List.nil_append, hstar]
  obtain ⟨posonly, args, vararg, kwonly, kwarg⟩ := σ
  cases flag <;> cases kwarg <;> rfl

end Signature

namespace Text

/-- What stands between the words of a signature. -/
def signs : List Char :=
  [' ', ',', ':', '=', '*', '/']

/-- A word without such signs. Every identifier is one. -/
def isPlain (w : String) : Bool :=
  !w.toList.isEmpty && w.toList.all (!signs.contains ·)

/-- The characters of a text but its blanks. -/
def compact (s : String) : List Char :=
  s.toList.filter (· != ' ')

variable {w : String}

theorem not_mem_of_isPlain (hw : isPlain w = true) {c : Char} (hc : c ∈ signs) :
    c ∉ w.toList := by
  intro hmem
  obtain ⟨-, hall⟩ := Bool.and_eq_true_iff.mp hw
  have hfree := List.all_eq_true.mp hall c hmem
  simp [hc] at hfree

theorem compact_append (s t : String) : compact (s ++ t) = compact s ++ compact t := by
  simp [compact]

theorem compact_of_isPlain (hw : isPlain w = true) : compact w = w.toList := by
  refine List.filter_eq_self.mpr fun c hc => ?_
  have hblank := not_mem_of_isPlain hw (c := ' ') (by decide)
  simp only [bne_iff_ne, ne_eq]
  rintro rfl
  exact hblank hc

theorem exists_toList_eq (hw : isPlain w = true) :
    ∃ c cs, w.toList = c :: cs ∧ c ≠ '*' ∧ c ≠ '/' := by
  have hstar := not_mem_of_isPlain hw (c := '*') (by decide)
  have hslash := not_mem_of_isPlain hw (c := '/') (by decide)
  cases hcs : w.toList with
  | nil => simp [isPlain, hcs] at hw
  | cons c cs =>
    rw [hcs, List.mem_cons, not_or] at hstar hslash
    exact ⟨c, cs, rfl, Ne.symm hstar.1, Ne.symm hslash.1⟩

theorem mem_intercalate {x c : Char} {pieces : List (List Char)}
    (h : c ∈ [x].intercalate pieces) : c = x ∨ ∃ piece ∈ pieces, c ∈ piece := by
  induction pieces with
  | nil => simp [List.intercalate] at h
  | cons piece more ih =>
    cases more with
    | nil => exact .inr ⟨piece, List.mem_cons_self .., by simpa [List.intercalate] using h⟩
    | cons next rest =>
      rw [List.intercalate_cons_cons] at h
      rcases List.mem_append.mp h with h | h
      · rcases List.mem_append.mp h with h | h
        · exact .inr ⟨piece, List.mem_cons_self .., h⟩
        · exact .inl (List.mem_singleton.mp h)
      · exact (ih h).imp_right fun ⟨other, hmem, hc⟩ => ⟨other, List.mem_cons_of_mem _ hmem, hc⟩

theorem compact_intercalate (ss : List String) :
    compact (String.intercalate ", " ss) = [','].intercalate (ss.map compact) := by
  induction ss with
  | nil => rfl
  | cons s more ih =>
    cases more with
    | nil => simp [List.intercalate]
    | cons next rest =>
      rw [String.intercalate_cons_cons, compact_append, compact_append, ih]
      simp only [List.map_cons, List.intercalate_cons_cons]
      rfl

end Text

open Text

namespace Declaration

def isPlain (d : Declaration) : Bool :=
  Text.isPlain d.name && d.type.all Text.isPlain

def words (d : Declaration) : List String :=
  d.name :: d.type.toList

def read (cs : List Char) : Declaration :=
  let parts := (cs.splitOn ':').map String.ofList
  ⟨parts.headD "", parts[1]?⟩

variable {d : Declaration}

theorem isPlain_of_mem (hd : d.isPlain = true) {w : String} (hw : w ∈ d.words) :
    Text.isPlain w = true := by
  obtain ⟨hname, htype⟩ := Bool.and_eq_true_iff.mp hd
  rcases List.mem_cons.mp hw with rfl | hw
  · exact hname
  · cases ht : d.type with
    | none => simp [ht] at hw
    | some t => simp_all

theorem compact_text (hd : d.isPlain = true) :
    compact d.text = [':'].intercalate (d.words.map String.toList) := by
  obtain ⟨hname, htype⟩ := Bool.and_eq_true_iff.mp hd
  rw [text, compact_append, compact_of_isPlain hname, words]
  cases ht : d.type with
  | none => rfl
  | some t =>
    rw [ht] at htype
    have hcompact : compact (": " ++ t) = ':' :: t.toList := by
      rw [compact_append, compact_of_isPlain (w := t) (by simpa using htype)]
      rfl
    simp [hcompact, List.intercalate]

theorem read_text (hd : d.isPlain = true) : read (compact d.text) = d := by
  have hcolon : ∀ cs ∈ d.words.map String.toList, ':' ∉ cs := by
    intro cs hcs
    obtain ⟨w, hw, rfl⟩ := List.mem_map.mp hcs
    exact not_mem_of_isPlain (isPlain_of_mem hd hw) (by decide)
  rw [compact_text hd, read, List.splitOn_intercalate ':' hcolon (by simp [words])]
  obtain ⟨name, type⟩ := d
  cases type <;> simp [words]

theorem not_mem_compact (hd : d.isPlain = true) {c : Char} (hc : c ∈ signs) (hcolon : c ≠ ':') :
    c ∉ compact d.text := by
  rw [compact_text hd]
  intro hmem
  obtain ⟨cs, hcs, hmem⟩ := (mem_intercalate hmem).resolve_left hcolon
  obtain ⟨w, hw, rfl⟩ := List.mem_map.mp hcs
  exact not_mem_of_isPlain (isPlain_of_mem hd hw) hc hmem

theorem exists_compact_eq (hd : d.isPlain = true) :
    ∃ c cs, compact d.text = c :: cs ∧ c ≠ '*' ∧ c ≠ '/' := by
  obtain ⟨hname, -⟩ := Bool.and_eq_true_iff.mp hd
  obtain ⟨c, cs, hcs, hc⟩ := exists_toList_eq hname
  rw [text, compact_append, compact_of_isPlain hname, hcs]
  exact ⟨c, _, rfl, hc⟩

end Declaration

namespace Parameter

def isPlain (p : Parameter) : Bool :=
  p.toDeclaration.isPlain && p.default.all Text.isPlain

def read (cs : List Char) : Parameter :=
  let parts := cs.splitOn '='
  { Declaration.read (parts.headD []) with default := parts[1]?.map String.ofList }

variable {p : Parameter}

theorem compact_text (hp : p.isPlain = true) :
    compact p.text =
      ['='].intercalate (compact p.toDeclaration.text :: p.default.toList.map String.toList) := by
  obtain ⟨-, hdefault⟩ := Bool.and_eq_true_iff.mp hp
  rw [text, compact_append]
  cases hd : p.default with
  | none => rfl
  | some value =>
    rw [hd] at hdefault
    have hsign : compact p.sign = ['='] := by
      unfold sign
      split <;> rfl
    have hcompact : compact (p.sign ++ value) = '=' :: value.toList := by
      rw [compact_append, compact_of_isPlain (w := value) (by simpa using hdefault), hsign]
      rfl
    simp [hcompact, List.intercalate]

theorem not_mem_compact (hp : p.isPlain = true) {c : Char} (hc : c ∈ signs) (hcolon : c ≠ ':')
    (hequals : c ≠ '=') : c ∉ compact p.text := by
  obtain ⟨hdeclaration, hdefault⟩ := Bool.and_eq_true_iff.mp hp
  rw [compact_text hp]
  intro hmem
  obtain ⟨cs, hcs, hmem⟩ := (mem_intercalate hmem).resolve_left hequals
  rcases List.mem_cons.mp hcs with rfl | hcs
  · exact Declaration.not_mem_compact hdeclaration hc hcolon hmem
  · obtain ⟨w, hw, rfl⟩ := List.mem_map.mp hcs
    exact not_mem_of_isPlain (w := w) (by simp_all) hc hmem

theorem read_text (hp : p.isPlain = true) : read (compact p.text) = p := by
  obtain ⟨hdeclaration, hdefault⟩ := Bool.and_eq_true_iff.mp hp
  have hequals : ∀ cs ∈ compact p.toDeclaration.text :: p.default.toList.map String.toList,
      '=' ∉ cs := by
    intro cs hcs
    rcases List.mem_cons.mp hcs with rfl | hcs
    · exact Declaration.not_mem_compact hdeclaration (by decide) (by decide)
    · obtain ⟨w, hw, rfl⟩ := List.mem_map.mp hcs
      exact not_mem_of_isPlain (w := w) (by simp_all) (by decide)
  rw [compact_text hp, read, List.splitOn_intercalate '=' hequals (List.cons_ne_nil _ _)]
  dsimp only [List.headD_cons]
  rw [Declaration.read_text hdeclaration]
  obtain ⟨declaration, default⟩ := p
  cases default <;> simp

end Parameter

namespace Piece

def isPlain : Piece → Bool
  | .parameter p => p.isPlain
  | .slash => true
  | .star => true
  | .variadic d => d.isPlain
  | .keywords d => d.isPlain

def read : List Char → Piece
  | ['/'] => .slash
  | ['*'] => .star
  | '*' :: '*' :: cs => .keywords (.read cs)
  | '*' :: cs => .variadic (.read cs)
  | cs => .parameter (.read cs)

theorem read_parameter {c : Char} (cs : List Char) (hstar : c ≠ '*') (hslash : c ≠ '/') :
    read (c :: cs) = .parameter (.read (c :: cs)) := by
  unfold read
  split <;> simp_all

theorem read_variadic {c : Char} (cs : List Char) (hstar : c ≠ '*') :
    read ('*' :: c :: cs) = .variadic (.read (c :: cs)) := by
  unfold read
  split <;> simp_all

variable {p : Piece}

theorem read_text (hp : p.isPlain = true) : read (compact p.text) = p := by
  cases p with
  | parameter p =>
    obtain ⟨hdeclaration, -⟩ := Bool.and_eq_true_iff.mp hp
    obtain ⟨c, cs, hcs, hstar, hslash⟩ := Declaration.exists_compact_eq hdeclaration
    have hread := Parameter.read_text hp
    rw [Parameter.text, compact_append, hcs] at hread
    rw [text, Parameter.text, compact_append, hcs, List.cons_append, read_parameter _ hstar hslash]
    exact congrArg parameter hread
  | slash => rfl
  | star => rfl
  | variadic d =>
    obtain ⟨c, cs, hcs, hstar, -⟩ := Declaration.exists_compact_eq hp
    have hread := Declaration.read_text hp
    rw [hcs] at hread
    rw [text, compact_append, hcs]
    exact (read_variadic cs hstar).trans (congrArg variadic hread)
  | keywords d =>
    rw [text, compact_append]
    exact congrArg keywords (Declaration.read_text hp)

theorem compact_ne_nil (hp : p.isPlain = true) : compact p.text ≠ [] := by
  cases p with
  | parameter p =>
    obtain ⟨hdeclaration, -⟩ := Bool.and_eq_true_iff.mp hp
    obtain ⟨c, cs, hcs, -⟩ := Declaration.exists_compact_eq hdeclaration
    rw [text, Parameter.text, compact_append, hcs]
    exact List.cons_ne_nil _ _
  | slash => decide
  | star => decide
  | variadic d =>
    rw [text, compact_append]
    exact List.cons_ne_nil _ _
  | keywords d =>
    rw [text, compact_append]
    exact List.cons_ne_nil _ _

theorem comma_not_mem (hp : p.isPlain = true) : ',' ∉ compact p.text := by
  cases p with
  | parameter p => exact Parameter.not_mem_compact hp (by decide) (by decide) (by decide)
  | slash => decide
  | star => decide
  | variadic d =>
    have hd := Declaration.not_mem_compact hp (c := ',') (by decide) (by decide)
    rw [text, compact_append, List.mem_append, not_or]
    exact ⟨by decide, hd⟩
  | keywords d =>
    have hd := Declaration.not_mem_compact hp (c := ',') (by decide) (by decide)
    rw [text, compact_append, List.mem_append, not_or]
    exact ⟨by decide, hd⟩

end Piece

namespace Signature

def isPlain (σ : Signature) : Bool :=
  σ.pieces.all Piece.isPlain

theorem isPlain_of {σ : Signature} (hpositional : ∀ q ∈ σ.positional, q.isPlain = true)
    (hvararg : ∀ d ∈ σ.vararg, d.isPlain = true) (hkwonly : ∀ q ∈ σ.kwonly, q.isPlain = true)
    (hkwarg : ∀ d ∈ σ.kwarg, d.isPlain = true) : σ.isPlain = true := by
  have hslash : ∀ p ∈ σ.slash, p.isPlain = true := by
    unfold slash
    split <;> simp [Piece.isPlain]
  have hstar : ∀ p ∈ σ.star, p.isPlain = true := by
    unfold star Piece.beforeKeywords
    split
    · next d hd => simpa [Piece.isPlain] using hvararg d hd
    · split <;> simp [Piece.isPlain]
  rw [positional, List.forall_mem_append] at hpositional
  rw [isPlain, List.all_eq_true, pieces]
  simp only [List.forall_mem_append, List.forall_mem_map]
  exact ⟨⟨⟨⟨⟨hpositional.1, hslash⟩, hpositional.2⟩, hstar⟩, hkwonly⟩,
    fun d hd => hkwarg d (Option.mem_toList.mp hd)⟩

def read (s : String) : Signature :=
  match compact s with
  | [] => ofPieces []
  | c :: cs => ofPieces (((c :: cs).splitOn ',').map Piece.read)

theorem read_of_ne_nil {s : String} (h : compact s ≠ []) :
    read s = ofPieces (((compact s).splitOn ',').map Piece.read) := by
  unfold read
  split
  next hs => exact absurd hs h
  next c cs hs => rw [hs]

/-- A signature of plain words is what its text says. -/
theorem read_text {σ : Signature} (hσ : σ.isPlain = true) : read σ.text = σ := by
  have hplain := List.all_eq_true.mp hσ
  have hcompact : compact σ.text = [','].intercalate (σ.pieces.map fun p => compact p.text) := by
    rw [text, compact_intercalate, List.map_map]
    rfl
  have hcomma : ∀ cs ∈ σ.pieces.map fun p => compact p.text, ',' ∉ cs := by
    intro cs hcs
    obtain ⟨p, hp, rfl⟩ := List.mem_map.mp hcs
    exact Piece.comma_not_mem (hplain p hp)
  have hread : (σ.pieces.map fun p => compact p.text).map Piece.read = σ.pieces := by
    rw [List.map_map]
    exact (List.map_congr_left fun p hp => Piece.read_text (hplain p hp)).trans (List.map_id _)
  -- An empty text splits into one empty piece, which no signature has.
  by_cases hpieces : σ.pieces = []
  · have hempty : compact σ.text = [] := by
      rw [hcompact, hpieces]
      rfl
    rw [read, hempty, ← ofPieces_pieces σ, hpieces]
  · have hsplit : (compact σ.text).splitOn ',' = σ.pieces.map fun p => compact p.text := by
      rw [hcompact]
      exact List.splitOn_intercalate ',' hcomma (by simpa using hpieces)
    have hne : compact σ.text ≠ [] := by
      intro hempty
      have hmem : [] ∈ σ.pieces.map fun p => compact p.text := by
        rw [← hsplit, hempty]
        exact List.mem_singleton.mpr rfl
      obtain ⟨p, hp, hnil⟩ := List.mem_map.mp hmem
      exact Piece.compact_ne_nil (hplain p hp) hnil
    rw [read_of_ne_nil hne, hsplit, hread, ofPieces_pieces]

end Signature

end Unparse
