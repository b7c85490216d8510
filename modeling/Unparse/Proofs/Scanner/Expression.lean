import Unparse.Proofs.Scanner.FString
import Unparse.Render.Expression
import Unparse.Render.Parameters

/-! Expressions under the scanner. Each rule puts fragments between texts of its own, which
open and close brackets in pairs and part the fragments from each other. -/
namespace Unparse

open Scanner Draft

theorem Scanner.isInert_of_mem_token {k : Kind} {c : Char} (h : c ∈ k.token.toList) :
    isInert c = true := by
  have htoken : k.token.toList.all isInert = true := by cases k <;> decide
  exact List.all_eq_true.mp htoken c h

theorem Scanner.Fragment.token (k : Kind) : Fragment k.token :=
  Fragment.inert fun _ => isInert_of_mem_token

namespace ExprView

theorem formed_scans {k : Kind} {form : ExprForm} {x : Draft String} (hx : x.Gives Fragment)
    (hform : form.Scans) : (formed k form x).Scans :=
  ⟨Gives.demand_bind hx, hform⟩

theorem plain_scans {k : Kind} {x : Draft String} (hx : x.Gives Fragment) : (plain k x).Scans :=
  formed_scans hx trivial

theorem texts_gives {es : List ExprView} (h : ∀ e ∈ es, e.Scans) :
    (texts es).Gives fun ss => ∀ s ∈ ss, Fragment s := by
  apply Gives.all
  intro x hx
  obtain ⟨e, he, rfl⟩ := List.mem_map.mp hx
  exact (h e he).text

theorem joined_gives {es : List ExprView} (h : ∀ e ∈ es, e.Scans) {separator : String}
    (hbare : startsBare separator.toList = true)
    (hinert : ∀ c ∈ separator.toList, isInert c = true) :
    (joined separator es).Gives Fragment :=
  (texts_gives h).bind_pure fun _ hss => Fragment.intercalate hbare hinert hss

theorem comma_gives {es : List ExprView} (h : ∀ e ∈ es, e.Scans) :
    (joined ", " es).Gives Fragment :=
  joined_gives h (by decide) (List.all_eq_true.mp (by decide))

theorem part_gives {e : Option ExprView} (h : ∀ x ∈ e, x.Scans) {lead : String}
    (hlead : lead.toList.all isInert = true) :
    (part lead e).Gives fun ss => ∀ s ∈ ss, Fragment s := by
  cases e with
  | none => exact Gives.pure (by simp)
  | some e =>
    refine (h e rfl).text.bind_pure fun text htext => List.forall_mem_singleton.mpr ?_
    intro stack
    exact (Reads.inert (List.all_eq_true.mp hlead)).fragment htext

theorem after_gives {e : Option ExprView} (h : ∀ x ∈ e, x.Scans) {lead : String}
    (hbare : startsBare lead.toList = true) (hlead : lead.toList.all isInert = true) :
    (after lead e).Gives fun s => ∀ stack, Trails stack s := by
  cases e with
  | none => exact Gives.pure fun stack => Trails.nil stack
  | some e =>
    refine (h e rfl).text.bind_pure fun text htext stack => ⟨?_, ?_⟩
    · exact (Reads.inert (List.all_eq_true.mp hlead)).fragment htext
    · rw [String.toList_append]
      exact bare_of_startsBare hbare _

theorem bound_gives {e : Option ExprView} (h : ∀ x ∈ e, x.Scans) :
    (after "" e).Gives Fragment := by
  cases e with
  | none => exact Gives.pure Fragment.empty
  | some e =>
    refine (h e rfl).text.bind_pure fun text htext => ?_
    rw [String.empty_append]
    exact htext

end ExprView

namespace Render.Expression

open ExprView

theorem boolOp_scans {op : Kind} {values : List ExprView} (h : ∀ e ∈ values, e.Scans) :
    (boolOp op values).Scans := by
  have hbare : startsBare (" " ++ op.token ++ " ").toList = true := by
    simp [startsBare, isQuote, Literal.singleQuote, Literal.doubleQuote]
  have hinert : ∀ c ∈ (" " ++ op.token ++ " ").toList, isInert c = true := by
    intro c hc
    simp only [String.toList_append, List.mem_append] at hc
    rcases hc with (hc | hc) | hc
    · exact List.all_eq_true.mp (by decide : " ".toList.all isInert = true) c hc
    · exact isInert_of_mem_token hc
    · exact List.all_eq_true.mp (by decide : " ".toList.all isInert = true) c hc
  refine plain_scans (Gives.demand_bind (Gives.refuse_bind fun _ => ?_))
  refine (joined_gives h hbare hinert).bind_pure fun text htext stack => ?_
  exact (((Reads.fixed (by decide) rfl).fragment htext).text (by decide) rfl).toBare

theorem namedExpr_scans {target value : ExprView} (htarget : target.Scans)
    (hvalue : value.Scans) : (namedExpr target value).Scans := by
  refine plain_scans (htarget.text.bind fun t ht => hvalue.text.bind_pure fun v hv stack => ?_)
  exact (((((Reads.fixed (by decide) rfl).fragment ht).text (by decide) rfl).fragment hv).text
    (by decide) rfl).toBare

theorem binOp_scans {left right : ExprView} {op : Kind} (hleft : left.Scans)
    (hright : right.Scans) : (binOp left op right).Scans := by
  refine plain_scans (Gives.demand_bind ?_)
  refine hleft.text.bind fun l hl => hright.text.bind_pure fun r hr stack => ?_
  exact (((((((Reads.fixed (by decide) rfl).fragment hl).text (by decide) rfl).fragment
    (Fragment.token op)).text (by decide) rfl).fragment hr).text (by decide) rfl).toBare

theorem unaryToken_reads (op : Kind) (stack : List Char) :
    Reads Anything stack (unaryToken op) stack := by
  apply Reads.inert
  intro c hc
  unfold unaryToken at hc
  split at hc
  · rw [String.toList_append, List.mem_append] at hc
    rcases hc with hc | hc
    · exact isInert_of_mem_token hc
    · exact List.all_eq_true.mp (by decide : " ".toList.all isInert = true) c hc
  · exact isInert_of_mem_token hc

theorem unaryOp_scans {op : Kind} {operand : ExprView} (h : operand.Scans) :
    (unaryOp op operand).Scans := by
  refine plain_scans (Gives.demand_bind (h.text.bind_pure fun s hs stack => ?_))
  have hlead : Reads Anything stack ("(" ++ unaryToken op) ('(' :: stack) :=
    (Reads.fixed (by decide) rfl).trans (unaryToken_reads op _)
  exact ((hlead.fragment hs).text (by decide) rfl).toBare

theorem lambda_scans {args : Bool → Draft String} {body : ExprView}
    (hargs : ∀ allowed, (args allowed).Gives Fragment) (hbody : body.Scans) :
    (lambda args body).Scans := by
  refine plain_scans ((hargs false).bind fun params hparams => ?_)
  refine hbody.text.bind_pure fun text htext stack => ?_
  have hlead : Reads Anything stack
      (if params.isEmpty then "(lambda: " else "(lambda " ++ params ++ ": ") ('(' :: stack) := by
    split
    · exact Reads.fixed (by decide) rfl
    · exact ((Reads.fixed (by decide) rfl).fragment hparams).text (by decide) rfl
  exact ((hlead.fragment htext).text (by decide) rfl).toBare

theorem ifExp_scans {test body orelse : ExprView} (htest : test.Scans) (hbody : body.Scans)
    (horelse : orelse.Scans) : (ifExp test body orelse).Scans := by
  refine plain_scans (hbody.text.bind fun b hb => htest.text.bind fun t ht => ?_)
  refine horelse.text.bind_pure fun o ho stack => ?_
  exact (((((((Reads.fixed (by decide) rfl).fragment hb).text (by decide) rfl).fragment
    ht).text (by decide) rfl).fragment ho).text (by decide) rfl).toBare

theorem braced_fragment {s : String} (h : Fragment s) : Fragment (braced s) :=
  fun _ => (((Reads.fixed (by decide) rfl).fragment h).text (by decide) rfl).toBare

theorem keyed_gives {key value : ExprView} (hkey : key.Scans) (hvalue : value.Scans) :
    (keyed key value).Gives Fragment :=
  hkey.text.bind fun _ hk => hvalue.text.bind_pure fun _ hv stack =>
    ((hk stack).text (by decide) rfl).fragment hv

theorem dictEntry_gives {key : Option ExprView} {value : ExprView} (hkey : ∀ k ∈ key, k.Scans)
    (hvalue : value.Scans) : (dictEntry key value).Gives Fragment := by
  cases key with
  | none => exact hvalue.text.bind_pure fun v hv stack => (Reads.fixed (by decide) rfl).fragment hv
  | some k => exact keyed_gives (hkey k rfl) hvalue

theorem dict_scans {keys : List (Option ExprView)} {values : List ExprView}
    (hkeys : ∀ key ∈ keys, ∀ k ∈ key, k.Scans) (hvalues : ∀ e ∈ values, e.Scans) :
    (dict keys values).Scans := by
  refine plain_scans (Gives.refuse_bind fun _ => ?_)
  refine (Gives.all (P := Fragment) ?_).bind_pure fun ss hss => ?_
  · intro x hx
    obtain ⟨⟨k, v⟩, hkv, rfl⟩ := List.mem_map.mp hx
    obtain ⟨hk, hv⟩ := List.of_mem_zip hkv
    exact dictEntry_gives (hkeys k hk) (hvalues v hv)
  · exact braced_fragment
      (Fragment.intercalate (by decide) (List.all_eq_true.mp (by decide)) hss)

theorem set_scans {elements : List ExprView} (h : ∀ e ∈ elements, e.Scans) :
    (set elements).Scans := by
  refine plain_scans ?_
  split
  · exact Gives.pure fun _ => (Reads.fixed (by decide) rfl).toBare
  · exact (comma_gives h).bind_pure fun _ hs => braced_fragment hs

theorem comprehension_gives {target iter : ExprView} {conditions : List ExprView} {async : Bool}
    (htarget : target.Scans) (hiter : iter.Scans) (hconditions : ∀ e ∈ conditions, e.Scans) :
    (comprehension target iter conditions async).Gives fun ls => ∀ l ∈ ls, Fragment l := by
  have hrest : ∀ x ∈ conditions.map fun c => (return "if " ++ (← c.text) : Draft String),
      x.Gives Fragment := by
    intro x hx
    obtain ⟨c, hc, rfl⟩ := List.mem_map.mp hx
    exact (hconditions c hc).text.bind_pure fun s hs stack =>
      (Reads.fixed (by decide) rfl).fragment hs
  have hkeyword (stack : List Char) :
      Reads Anything stack (if async then "async for" else "for") stack := by
    split
    · exact Reads.fixed (by decide) rfl
    · exact Reads.fixed (by decide) rfl
  refine Gives.demand_bind (htarget.text.bind fun t ht => hiter.text.bind fun i hi => ?_)
  refine (Gives.all hrest).bind_pure fun ss hss => List.forall_mem_cons.mpr ⟨?_, hss⟩
  intro stack
  exact (((((hkeyword stack).toBare.text (by decide) rfl).fragment ht).text (by decide)
    rfl).fragment hi)

/-- Lines may end between the brackets of a comprehension. -/
theorem comprehended_scans {k : Kind} {left right : String} {head : Draft String}
    {generators : List (Draft (List String))} {bracket : Char}
    (hleft : ∀ stack, Reads Anything stack left (bracket :: stack))
    (hright : ∀ stack, Reads Anything (bracket :: stack) right stack)
    (hhead : head.Gives Fragment)
    (hgenerators : ∀ x ∈ generators, x.Gives fun ls => ∀ l ∈ ls, Fragment l) :
    (comprehended k left head generators right).Scans := by
  refine plain_scans (hhead.bind fun text htext => Gives.refuse_bind fun _ => ?_)
  refine (Gives.all hgenerators).bind_pure fun lines hlines stack => ?_
  have hclauses : Trails (bracket :: stack)
      (String.join (lines.flatten.map ("\n  " ++ ·))) := by
    apply Trails.join
    intro s hs
    obtain ⟨l, hl, rfl⟩ := List.mem_map.mp hs
    obtain ⟨ls, hls, hl⟩ := List.mem_flatten.mp hl
    refine ⟨(Reads.fixed (by decide) rfl).fragment (hlines ls hls l hl), ?_⟩
    rw [String.toList_append]
    exact bare_of_startsBare (by decide) _
  exact (((((hleft stack).toBare.text (by decide) rfl).fragment htext).trail hclauses).text
    (by decide) rfl).trans (hright stack).toBare

theorem await_scans {value : ExprView} (h : value.Scans) : (await value).Scans :=
  plain_scans (h.text.bind_pure fun _ hs _ =>
    (((Reads.fixed (by decide) rfl).fragment hs).text (by decide) rfl).toBare)

theorem yield_scans {value : Option ExprView} (h : ∀ e ∈ value, e.Scans) :
    (yield value).Scans := by
  have hvalue : (after " " value).Gives fun s => ∀ stack, Trails stack s :=
    after_gives h (by decide) (by decide)
  refine plain_scans (hvalue.bind_pure fun s hs stack => ?_)
  exact (((Reads.fixed (by decide) rfl).toBare.trail (hs _)).text (by decide) rfl).toBare

theorem yieldFrom_scans {value : ExprView} (h : value.Scans) : (yieldFrom value).Scans :=
  plain_scans (h.text.bind_pure fun _ hs _ =>
    (((Reads.fixed (by decide) rfl).fragment hs).text (by decide) rfl).toBare)

theorem comparison_gives {op : Kind} {comparator : ExprView} (h : comparator.Scans) :
    (comparison op comparator).Gives fun s => ∀ stack, Trails stack s := by
  refine Gives.demand_bind (h.text.bind_pure fun text htext stack => ⟨?_, ?_⟩)
  · exact ((((Reads.fixed (by decide) rfl).fragment (Fragment.token op)).text (by decide)
      rfl).fragment htext)
  · simp [Bare, isQuote, Literal.singleQuote, Literal.doubleQuote]

theorem compare_scans {left : ExprView} {ops : List Kind} {comparators : List ExprView}
    (hleft : left.Scans) (hcomparators : ∀ e ∈ comparators, e.Scans) :
    (compare left ops comparators).Scans := by
  refine plain_scans (Gives.refuse_bind fun _ => Gives.refuse_bind fun _ => ?_)
  refine hleft.text.bind fun first hfirst => ?_
  refine (Gives.all (P := fun s => ∀ stack, Trails stack s) ?_).bind_pure fun rest hall stack => ?_
  · intro x hx
    obtain ⟨⟨op, c⟩, hoc, rfl⟩ := List.mem_map.mp hx
    exact comparison_gives (hcomparators c (List.of_mem_zip hoc).2)
  · have htrail : Trails ('(' :: stack) (String.join rest) :=
      Trails.join fun s hs => hall s hs _
    exact ((((Reads.fixed (by decide) rfl).fragment hfirst).trail htrail).text
      (by decide) rfl).toBare

theorem keyword_gives {name : Option String} {value : ExprView}
    (hname : ∀ n ∈ name, ∀ c ∈ n.toList, isInert c = true) (hvalue : value.Scans) :
    (keyword name value).Gives Fragment := by
  refine Gives.demand_bind (hvalue.text.bind_pure fun text htext stack => ?_)
  cases name with
  | none => exact (Reads.fixed (by decide) rfl).fragment htext
  | some n =>
    exact ((Reads.inert (hname n rfl)).toBare.text (by decide) rfl).fragment htext

theorem call_scans {func : ExprView} {args : List ExprView} {keywords : List (Draft String)}
    {starargs kwargs : Option ExprView} (hfunc : func.Scans) (hargs : ∀ e ∈ args, e.Scans)
    (hkeywords : ∀ x ∈ keywords, x.Gives Fragment) (hstarargs : ∀ e ∈ starargs, e.Scans)
    (hkwargs : ∀ e ∈ kwargs, e.Scans) : (call func args keywords starargs kwargs).Scans := by
  refine plain_scans ((texts_gives hargs).bind fun positional hpositional => ?_)
  refine (Gives.all hkeywords).bind fun named hnamed => ?_
  refine (part_gives hstarargs (by decide)).bind fun star hstar => ?_
  refine (part_gives hkwargs (by decide)).bind fun doubleStar hdoubleStar => ?_
  refine hfunc.text.bind_pure fun callee hcallee stack => ?_
  have hparts : ∀ s ∈ positional ++ named ++ star ++ doubleStar, Fragment s := by
    intro s hs
    simp only [List.mem_append] at hs
    rcases hs with ((hs | hs) | hs) | hs
    · exact hpositional s hs
    · exact hnamed s hs
    · exact hstar s hs
    · exact hdoubleStar s hs
  have hinside : Fragment (String.intercalate ", " (positional ++ named ++ star ++ doubleStar)) :=
    Fragment.intercalate (by decide) (List.all_eq_true.mp (by decide)) hparts
  exact ((((hcallee stack).text (by decide) rfl).fragment hinside).text (by decide) rfl).toBare

theorem repr_scans {value : ExprView} (h : value.Scans) : (repr value).Scans :=
  plain_scans (h.text.bind_pure fun _ hs _ =>
    (((Reads.fixed (by decide) rfl).fragment hs).text (by decide) rfl).toBare)

theorem constant_scans (value : Constant) : (constant value).Scans := by
  apply formed_scans (Gives.pure (Fragment.constant value))
  cases value <;> trivial

theorem num_scans (n : Number) : (num n).Scans := by
  apply formed_scans (Gives.pure (Fragment.number n))
  cases n <;> trivial

theorem str_scans (s : String) : (str s).Scans :=
  formed_scans (Gives.pure (Fragment.string s)) trivial

theorem bytes_scans (bs : List UInt8) : (bytes bs).Scans :=
  plain_scans (Gives.pure (Fragment.bytes bs))

theorem nameConstant_scans (value : Singleton) : (nameConstant value).Scans :=
  plain_scans (Gives.pure (Fragment.singleton value))

theorem ellipsis_scans : ellipsis.Scans :=
  plain_scans (Gives.pure (Fragment.word (by decide)))

theorem attributeBase_fragment (form : ExprForm) {text : String} (h : Fragment text) :
    Fragment (attributeBase form text) := by
  unfold attributeBase
  split
  · split
    · exact h
    · intro stack
      exact (((Reads.fixed (by decide) rfl).fragment h).text (by decide) rfl).toBare
  · exact h

theorem attributeOf_scans {value : ExprView} {attr : String} (hvalue : value.Scans)
    (hattr : ∀ c ∈ attr.toList, isInert c = true) : (attributeOf value attr).Scans := by
  refine plain_scans (hvalue.text.bind_pure fun text htext stack => ?_)
  exact ((attributeBase_fragment value.form htext stack).text (by decide) rfl).fragment
    (Fragment.inert hattr)

theorem commaList_fragment {ss : List String} (h : ∀ s ∈ ss, Fragment s) :
    Fragment (commaList ss) := by
  unfold commaList
  split
  next single =>
    intro stack
    exact ((h single (List.mem_singleton.mpr rfl) stack).text (by decide) rfl).toBare
  next => exact Fragment.intercalate (by decide) (List.all_eq_true.mp (by decide)) h

theorem subscriptText_gives {slice : ExprView} (h : slice.Scans) :
    (subscriptText slice).Gives Fragment := by
  obtain ⟨k, form, text⟩ := slice
  have hform := h.form
  unfold subscriptText
  cases form with
  | tuple elements =>
    cases elements with
    | nil => exact h.text
    | cons x xs =>
      exact Gives.demand_bind ((Gives.all hform).bind_pure fun _ hss => commaList_fragment hss)
  | plain | integer | string _ | field _ | joined _ => exact h.text

theorem subscript_scans {value slice : ExprView} (hvalue : value.Scans) (hslice : slice.Scans) :
    (subscript value slice).Scans := by
  refine plain_scans ((subscriptText_gives hslice).bind fun inner hinner => ?_)
  refine hvalue.text.bind_pure fun text htext stack => ?_
  exact ((((htext stack).text (by decide) rfl).fragment hinner).text (by decide) rfl).toBare

theorem starred_scans {value : ExprView} (h : value.Scans) : (starred value).Scans :=
  plain_scans (h.text.bind_pure fun _ hs _ => (Reads.fixed (by decide) rfl).fragment hs)

theorem name_scans {id : String} (h : ∀ c ∈ id.toList, isInert c = true) : (name id).Scans :=
  plain_scans (Gives.pure (Fragment.inert h))

theorem list_scans {elements : List ExprView} (h : ∀ e ∈ elements, e.Scans) :
    (list elements).Scans :=
  plain_scans ((comma_gives h).bind_pure fun _ hs _ =>
    (((Reads.fixed (by decide) rfl).fragment hs).text (by decide) rfl).toBare)

theorem tuple_scans {elements : List ExprView} (h : ∀ e ∈ elements, e.Scans) :
    (tuple elements).Scans := by
  apply formed_scans
  · refine (texts_gives h).bind_pure fun ss hss stack => ?_
    exact (((Reads.fixed (by decide) rfl).fragment (commaList_fragment hss)).text (by decide)
      rfl).toBare
  · intro x hx
    obtain ⟨e, he, rfl⟩ := List.mem_map.mp hx
    exact (h e he).text

theorem slice_scans {lower upper step : Option ExprView} (hlower : ∀ e ∈ lower, e.Scans)
    (hupper : ∀ e ∈ upper, e.Scans) (hstep : ∀ e ∈ step, e.Scans) :
    (slice lower upper step).Scans := by
  have hlast : (after ":" step).Gives fun s => ∀ stack, Trails stack s :=
    after_gives hstep (by decide) (by decide)
  refine plain_scans ((bound_gives hlower).bind fun l hl => ?_)
  refine (bound_gives hupper).bind fun u hu => ?_
  refine hlast.bind_pure fun s hs stack => ?_
  exact (((hl stack).text (by decide) rfl).fragment hu).trail (hs stack)

theorem index_scans {value : ExprView} (h : value.Scans) : (index value).Scans :=
  plain_scans h.text

theorem extSlice_scans {dims : List ExprView} (h : ∀ e ∈ dims, e.Scans) :
    (extSlice dims).Scans :=
  plain_scans (Gives.refuse_bind fun _ =>
    (texts_gives h).bind_pure fun _ hss => commaList_fragment hss)

end Render.Expression

namespace Render.Parameters

open ExprView

theorem arg_gives {name : String} {type : Option ExprView}
    (hname : ∀ c ∈ name.toList, isInert c = true) (htype : ∀ e ∈ type, e.Scans) (allowed : Bool) :
    ((arg name type).text allowed).Gives Fragment := by
  refine Gives.demand_bind ?_
  cases type with
  | none => exact Gives.pure (Fragment.inert hname)
  | some t =>
    cases allowed with
    | false => exact Gives.fail
    | true =>
      refine (htype t rfl).text.bind_pure fun text htext stack => ?_
      exact ((Reads.inert hname).toBare.text (by decide) rfl).fragment htext

section

variable {allowed : Bool}

theorem withDefault_gives {a : ArgView} {default : Option ExprView}
    (ha : (a.text allowed).Gives Fragment) (hdefault : ∀ e ∈ default, e.Scans) :
    (withDefault allowed a default).Gives Fragment := by
  have hsign : (after (if a.annotated then " = " else "=") default).Gives
      fun s => ∀ stack, Trails stack s := by
    apply after_gives hdefault
    · split <;> decide
    · split <;> decide
  exact ha.bind fun text htext => hsign.bind_pure fun value hvalue stack =>
    (htext stack).trail (hvalue stack)

theorem withDefaults_gives {args : List ArgView} {defaults : List (Option ExprView)}
    (hargs : ∀ a ∈ args, (a.text allowed).Gives Fragment)
    (hdefaults : ∀ d ∈ defaults, ∀ e ∈ d, e.Scans) :
    (withDefaults allowed args defaults).Gives fun ss => ∀ s ∈ ss, Fragment s := by
  apply Gives.all
  intro x hx
  obtain ⟨⟨a, d⟩, had, rfl⟩ := List.mem_map.mp hx
  obtain ⟨ha, hd⟩ := List.of_mem_zip had
  exact withDefault_gives (hargs a ha) (hdefaults d hd)

theorem star_gives {keywordOnly : Bool} {a : Option ArgView}
    (h : ∀ x ∈ a, (x.text allowed).Gives Fragment) :
    (star allowed keywordOnly a).Gives fun ss => ∀ s ∈ ss, Fragment s := by
  cases a with
  | none =>
    refine Gives.pure ?_
    split
    · exact List.forall_mem_singleton.mpr (Fragment.word (by decide))
    · simp
  | some x =>
    refine (h x rfl).bind_pure fun text htext => List.forall_mem_singleton.mpr fun stack => ?_
    exact (Reads.fixed (by decide) rfl).fragment htext

theorem doubleStar_gives {a : Option ArgView} (h : ∀ x ∈ a, (x.text allowed).Gives Fragment) :
    (doubleStar allowed a).Gives fun ss => ∀ s ∈ ss, Fragment s := by
  cases a with
  | none => exact Gives.pure (by simp)
  | some x =>
    refine (h x rfl).bind_pure fun text htext => List.forall_mem_singleton.mpr fun stack => ?_
    exact (Reads.fixed (by decide) rfl).fragment htext

theorem slashAfter_fragments {count : Nat} {ss : List String} (h : ∀ s ∈ ss, Fragment s) :
    ∀ s ∈ slashAfter count ss, Fragment s := by
  unfold slashAfter
  split
  · exact h
  · intro s hs
    rcases List.mem_append.mp hs with hs | hs
    · exact h s (List.mem_of_mem_take hs)
    · rcases List.mem_cons.mp hs with rfl | hs
      · exact Fragment.word (by decide)
      · exact h s (List.mem_of_mem_drop hs)

theorem arguments_gives {posonly args kwonly : List ArgView} {vararg kwarg : Option ArgView}
    {kwDefaults : List (Option ExprView)} {defaults : List ExprView}
    (hposonly : ∀ a ∈ posonly, (a.text allowed).Gives Fragment)
    (hargs : ∀ a ∈ args, (a.text allowed).Gives Fragment)
    (hvararg : ∀ a ∈ vararg, (a.text allowed).Gives Fragment)
    (hkwonly : ∀ a ∈ kwonly, (a.text allowed).Gives Fragment)
    (hkwDefaults : ∀ d ∈ kwDefaults, ∀ e ∈ d, e.Scans)
    (hkwarg : ∀ a ∈ kwarg, (a.text allowed).Gives Fragment)
    (hdefaults : ∀ e ∈ defaults, e.Scans) :
    (arguments posonly args vararg kwonly kwDefaults kwarg defaults allowed).Gives Fragment := by
  have hpositional : ∀ a ∈ posonly ++ args, (a.text allowed).Gives Fragment := by
    intro a ha
    rcases List.mem_append.mp ha with ha | ha
    · exact hposonly a ha
    · exact hargs a ha
  have haligned : ∀ d ∈ alignDefaults (posonly ++ args).length defaults, ∀ e ∈ d, e.Scans := by
    intro d hd e he
    rcases List.mem_append.mp hd with hd | hd
    · rw [(List.mem_replicate.mp hd).2] at he
      exact absurd he (by simp)
    · obtain ⟨x, hx, rfl⟩ := List.mem_map.mp hd
      exact Option.some.inj he ▸ hdefaults x hx
  have hkeywords : ∀ d ∈ alignKeywordDefaults kwonly.length kwDefaults, ∀ e ∈ d, e.Scans := by
    unfold alignKeywordDefaults
    split
    · intro d hd e he
      rw [(List.mem_replicate.mp hd).2] at he
      exact absurd he (by simp)
    · exact hkwDefaults
  refine Gives.demand_bind (Gives.refuse_bind fun _ => Gives.refuse_bind fun _ => ?_)
  refine (withDefaults_gives hpositional haligned).bind fun first hfirst => ?_
  refine (star_gives hvararg).bind fun variadic hvariadic => ?_
  refine (withDefaults_gives hkwonly hkeywords).bind fun keywords hkeywords => ?_
  refine (doubleStar_gives hkwarg).bind_pure fun last hlast => ?_
  apply Fragment.intercalate (by decide) (List.all_eq_true.mp (by decide))
  intro s hs
  simp only [List.mem_append] at hs
  rcases hs with ((hs | hs) | hs) | hs
  · exact slashAfter_fragments hfirst s hs
  · exact hvariadic s hs
  · exact hkeywords s hs
  · exact hlast s hs

end

end Render.Parameters

end Unparse
