import Unparse.Json.Reader

/-! The tokens of documents. Every document is read back from its tokens. -/
namespace Unparse.Json

mutual

/-- The tokens of a document. -/
def tokens : Json → List Token
  | arr items => .openArr :: ([Token.comma].intercalate (itemTokens items) ++ [.closeArr])
  | obj members => .openObj :: ([Token.comma].intercalate (memberTokens members) ++ [.closeObj])
  | str s => [.text s]
  | scalar => [.literal scalar]

def itemTokens : List Json → List (List Token)
  | [] => []
  | item :: more => item.tokens :: itemTokens more

def memberTokens : List (String × Json) → List (List Token)
  | [] => []
  | member :: more => tokensOfMember member :: memberTokens more

def tokensOfMember : String × Json → List Token
  | (name, value) => .text name :: .colon :: value.tokens

end

theorem intercalate_comma (ts : List Token) (more : List (List Token)) :
    [Token.comma].intercalate (ts :: more) = ts ++ more.flatMap (.comma :: ·) := by
  induction more generalizing ts with
  | nil => simp
  | cons us more ih =>
    rw [List.intercalate_cons_cons, ih, List.flatMap_cons, List.append_assoc]
    rfl

namespace Parser

/-- The document whose further tokens are read from a state on. -/
def run (p : Parser) (ts : List Token) : Option Json :=
  (ts.foldlM step p).bind finish

theorem run_cons (p : Parser) (t : Token) (ts : List Token) :
    run p (t :: ts) = (step p t).bind fun p => run p ts := by
  unfold run
  rw [List.foldlM_cons]
  cases step p t <;> rfl

/-- The state after a value. -/
def after (v : Json) (stack : List Frame) (rest : List Token) : Option Json :=
  (close v stack).bind fun p => run p rest

variable {stack outer : List Frame} {rest : List Token}

/-- Where an array may close, a value is read as elsewhere. -/
theorem run_valueOrClose (v : Json) :
    run ⟨stack, .valueOrClose⟩ (v.tokens ++ rest) = run ⟨stack, .value⟩ (v.tokens ++ rest) := by
  cases v <;> simp only [tokens, List.cons_append, run_cons] <;> rfl

theorem run_nameOrClose (m : String × Json) :
    run ⟨stack, .nameOrClose⟩ (tokensOfMember m ++ rest) =
      run ⟨stack, .name⟩ (tokensOfMember m ++ rest) := by
  obtain ⟨name, v⟩ := m
  simp only [tokensOfMember, List.cons_append, run_cons]
  rfl

mutual

/-- A value is read from its tokens. -/
theorem run_tokens (stack : List Frame) (rest : List Token) :
    (v : Json) → run ⟨stack, .value⟩ (v.tokens ++ rest) = after v stack rest
  | null | bool _ | int _ | float _ | str _ => by
    simp only [tokens, List.singleton_append, run_cons]
    rfl
  | arr [] => by
    simp only [tokens, itemTokens, List.intercalate_nil, List.cons_append, List.nil_append,
      run_cons]
    rfl
  | arr (v :: items) => by
    have hfirst := run_tokens (.items [] :: stack)
      ((itemTokens items).flatMap (.comma :: ·) ++ .closeArr :: rest) v
    have hmore := run_itemTokens [v] stack rest items
    rw [tokens, itemTokens, intercalate_comma, List.cons_append, run_cons]
    simp only [List.append_assoc, List.singleton_append]
    change run ⟨.items [] :: stack, .valueOrClose⟩ _ = _
    rw [run_valueOrClose, hfirst]
    exact hmore
  | obj [] => by
    simp only [tokens, memberTokens, List.intercalate_nil, List.cons_append, List.nil_append,
      run_cons]
    rfl
  | obj (m :: members) => by
    have hfirst := run_tokensOfMember [] stack
      ((memberTokens members).flatMap (.comma :: ·) ++ .closeObj :: rest) m
    have hmore := run_memberTokens [m] stack rest members
    rw [tokens, memberTokens, intercalate_comma, List.cons_append, run_cons]
    simp only [List.append_assoc, List.singleton_append]
    change run ⟨.members [] :: stack, .nameOrClose⟩ _ = _
    rw [run_nameOrClose, hfirst]
    exact hmore

/-- The items after the first, each with a comma before it. -/
theorem run_itemTokens (read : List Json) (outer : List Frame) (rest : List Token) :
    (items : List Json) → run ⟨.items read :: outer, .separator⟩
      ((itemTokens items).flatMap (.comma :: ·) ++ .closeArr :: rest) =
        after (arr (read.reverse ++ items)) outer rest
  | [] => by
    simp only [itemTokens, List.flatMap_nil, List.nil_append, List.append_nil, run_cons]
    rfl
  | v :: items => by
    have hfirst := run_tokens (.items read :: outer)
      ((itemTokens items).flatMap (.comma :: ·) ++ .closeArr :: rest) v
    have hmore := run_itemTokens (v :: read) outer rest items
    rw [itemTokens, List.flatMap_cons, List.cons_append, List.cons_append, List.append_assoc,
      run_cons]
    change run ⟨.items read :: outer, .value⟩ _ = _
    rw [hfirst]
    rw [List.reverse_cons, List.append_assoc] at hmore
    exact hmore

theorem run_memberTokens (read : List (String × Json)) (outer : List Frame) (rest : List Token) :
    (members : List (String × Json)) → run ⟨.members read :: outer, .separator⟩
      ((memberTokens members).flatMap (.comma :: ·) ++ .closeObj :: rest) =
        after (obj (read.reverse ++ members)) outer rest
  | [] => by
    simp only [memberTokens, List.flatMap_nil, List.nil_append, List.append_nil, run_cons]
    rfl
  | m :: members => by
    have hfirst := run_tokensOfMember read outer
      ((memberTokens members).flatMap (.comma :: ·) ++ .closeObj :: rest) m
    have hmore := run_memberTokens (m :: read) outer rest members
    rw [memberTokens, List.flatMap_cons, List.cons_append, List.cons_append, List.append_assoc,
      run_cons]
    change run ⟨.members read :: outer, .name⟩ _ = _
    rw [hfirst]
    rw [List.reverse_cons, List.append_assoc] at hmore
    exact hmore

theorem run_tokensOfMember (read : List (String × Json)) (outer : List Frame)
    (rest : List Token) : (m : String × Json) →
      run ⟨.members read :: outer, .name⟩ (tokensOfMember m ++ rest) =
        run ⟨.members (m :: read) :: outer, .separator⟩ rest
  | (name, v) => by
    have hvalue := run_tokens (.member read name :: outer) rest v
    rw [tokensOfMember, List.cons_append, List.cons_append, run_cons]
    change run ⟨.member read name :: outer, .colon⟩ _ = _
    rw [run_cons]
    exact hvalue

end

end Parser

/-- Every document is read back from its tokens. -/
theorem ofTokens?_tokens (v : Json) : ofTokens? v.tokens = some v := by
  have hrun := Parser.run_tokens [] [] v
  rw [List.append_nil] at hrun
  exact hrun

end Unparse.Json
