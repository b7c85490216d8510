import Mathlib.Algebra.BigOperators.Group.List.Basic
import Mathlib.Data.List.Forall2
import Mathlib.Tactic.Abel
import Unparse.Proofs.Draft.Settling
import Unparse.Proofs.Form.WellFormed

/-! Verdicts on drafts. What a draft ends with is decided by the form of what it is made of,
and, where f-strings are part of that, by their quotes. A verdict says so beforehand, and
the verdict on a whole is the sum of the verdicts on its parts. The fields of an f-string
inside of another one are among the fields of the outer one, so that a quote that is left to
the outer one is left to the inner one. -/
namespace Unparse

open Render.FString

namespace Render.FString

variable {ss ts : List Segment}

theorem codesContain_of_subset (h : ss ⊆ ts) {needle : String}
    (hss : codesContain ss needle = true) : codesContain ts needle = true := by
  simp only [codesContain, codes, List.any_eq_true, List.mem_filterMap] at hss ⊢
  obtain ⟨code, ⟨s, hs, hcode⟩, hneedle⟩ := hss
  exact ⟨code, ⟨s, h hs, hcode⟩, hneedle⟩

/-- Segments are no less crowded when there are more of them. -/
theorem isCrowded_of_subset (h : ss ⊆ ts) (hts : isCrowded ts = false) : isCrowded ss = false := by
  rw [← Bool.not_eq_true] at hts ⊢
  intro hss
  apply hts
  simp only [isCrowded, List.all_eq_true, Bool.or_eq_true, Bool.and_eq_true] at hss ⊢
  intro q hq
  rcases hss q hq with hquote | ⟨hshort, hline⟩
  · exact .inl (codesContain_of_subset h hquote)
  · exact .inr ⟨hshort, codesContain_of_subset h hline⟩

theorem quote?_eq_none_iff (ss : List Segment) : quote? ss = none ↔ isCrowded ss = true := by
  simp only [quote?, isCrowded, List.find?_eq_none, List.all_eq_true]
  refine forall₂_congr fun q _ => ?_
  cases codesContain ss q.text <;> cases codesContain ss "\n" <;> cases q.triple <;> decide

end Render.FString

/-- Whether something is well formed, whether each f-string in it has a quote left to stand
in, and whether the code of one of these f-strings has a backslash. -/
@[ext] structure Verdict where
  formed : Prop
  quotable : Prop
  slashed : Prop

namespace Verdict

instance : Zero Verdict where
  zero := ⟨True, True, False⟩

instance : Add Verdict where
  add v w := ⟨v.formed ∧ w.formed, v.quotable ∧ w.quotable, v.slashed ∨ w.slashed⟩

/-- Whatever only asks for a condition on the form. -/
def asks (condition : Prop) : Verdict := ⟨condition, True, False⟩

@[simp] theorem formed_zero : (0 : Verdict).formed = True := rfl

@[simp] theorem quotable_zero : (0 : Verdict).quotable = True := rfl

@[simp] theorem slashed_zero : (0 : Verdict).slashed = False := rfl

@[simp] theorem formed_add (v w : Verdict) : (v + w).formed = (v.formed ∧ w.formed) := rfl

@[simp] theorem quotable_add (v w : Verdict) : (v + w).quotable = (v.quotable ∧ w.quotable) := rfl

@[simp] theorem slashed_add (v w : Verdict) : (v + w).slashed = (v.slashed ∨ w.slashed) := rfl

@[simp] theorem formed_asks (p : Prop) : (asks p).formed = p := rfl

@[simp] theorem quotable_asks (p : Prop) : (asks p).quotable = True := rfl

@[simp] theorem slashed_asks (p : Prop) : (asks p).slashed = False := rfl

instance : AddCommMonoid Verdict where
  add_assoc u v w := by ext <;> simp [and_assoc, or_assoc]
  zero_add v := by ext <;> simp
  add_zero v := by ext <;> simp
  add_comm v w := by ext <;> simp [and_comm, or_comm]
  nsmul := nsmulRec

@[simp] theorem asks_true {p : Prop} (h : p) : asks p = 0 := by
  ext <;> simp [h]

theorem asks_and (p q : Prop) : asks (p ∧ q) = asks p + asks q := by
  ext <;> simp

/-- A check of its own, and the verdicts on parts. -/
def of (condition : Bool) (parts : List Verdict) : Verdict :=
  asks (condition = true) + parts.sum

@[simp] theorem of_true (parts : List Verdict) : of true parts = parts.sum := by
  simp [of]

variable {α β : Type}

/-- The verdict on all members of a list. -/
def total (f : α → Verdict) (xs : List α) : Verdict :=
  (xs.map f).sum

/-- The verdict on what may be absent. -/
def maybe (f : α → Verdict) : Option α → Verdict
  | none => 0
  | some x => f x

variable (f : α → Verdict) (g : β → Verdict)

@[simp] theorem total_nil : total f [] = 0 := rfl

@[simp] theorem total_cons (x : α) (xs : List α) : total f (x :: xs) = f x + total f xs := by
  simp [total]

@[simp] theorem total_append (xs ys : List α) : total f (xs ++ ys) = total f xs + total f ys := by
  simp [total]

theorem total_zero (xs : List α) : total (fun _ => 0) xs = 0 := by
  simp [total]

@[simp] theorem maybe_none : maybe f none = 0 := rfl

@[simp] theorem maybe_some (x : α) : maybe f (some x) = f x := rfl

theorem total_toList (o : Option α) : total f o.toList = maybe f o := by
  cases o <;> simp

theorem total_zip {xs : List α} {ys : List β} (h : xs.length = ys.length) :
    total (fun p => f p.1 + g p.2) (xs.zip ys) = total f xs + total g ys := by
  induction xs generalizing ys with
  | nil =>
    cases ys with
    | nil => simp
    | cons y ys => simp at h
  | cons x xs ih =>
    cases ys with
    | nil => simp at h
    | cons y ys =>
      rw [List.zip_cons_cons, total_cons, total_cons, total_cons, ih (by simpa using h)]
      abel

/-- What is asked of each member is asked of the list. -/
theorem total_of (p : α → Bool) (xs : List α) :
    total (fun x => of (p x) [f x]) xs = of (xs.all p) [total f xs] := by
  induction xs with
  | nil => simp
  | cons x xs ih =>
    rw [total_cons, ih]
    simp only [of, List.all_cons, Bool.and_eq_true, asks_and, total_cons, List.sum_cons,
      List.sum_nil]
    abel

end Verdict

section Lists

variable {α β γ δ : Type} {R : α → β → Prop} {S : γ → δ → Prop} {xs : List α} {ys : List β}
  {zs : List γ} {ws : List δ}

theorem forall₂_isEmpty (h : List.Forall₂ R xs ys) : xs.isEmpty = ys.isEmpty := by
  cases h <;> rfl

theorem forall₂_zip (h : List.Forall₂ R xs ys) (h' : List.Forall₂ S zs ws) :
    List.Forall₂ (fun p q => R p.1 q.1 ∧ S p.2 q.2) (xs.zip zs) (ys.zip ws) := by
  induction h generalizing zs ws with
  | nil => exact List.Forall₂.nil
  | cons hhead _ ih =>
    cases h' with
    | nil => exact List.Forall₂.nil
    | cons hhead' htail' => exact List.Forall₂.cons ⟨hhead, hhead'⟩ (ih htail')

end Lists

namespace Draft

variable {A B : Type} {lays : Bool} {v w : Verdict}

/-- The verdict `w` is that on the draft, if the value it ends with still shows the segments
`seen` of f-strings that have not been joined yet. It ends in a value if what it is made of is
well formed and finds its quotes, and only if it is well formed and finds its quotes as long
as those segments do; of well formed material it fails for want of a quote only. A backslash
is demanded or is still to be seen. Unless it may lay out lines, it lays out none. -/
structure JudgedWith (lays : Bool) (seen : A → List Segment) (w : Verdict) (x : Draft A) :
    Prop where
  sound : ∀ a, x.outcome = .ok a → w.formed ∧ (isCrowded (seen a) = false → w.quotable)
  complete : w.formed → w.quotable → ∃ a, x.outcome = .ok a
  blamed : ∀ flaw, x.outcome = .error flaw → w.formed →
    flaw.fault = .everyQuote ∧ flaw.kind.isFString = true
  slashed : ∀ a, x.outcome = .ok a → w.slashed →
    (∃ k, Entry.demand (.backslash k) ∈ x.entries) ∨ codesContain (seen a) "\\" = true
  raised : ∀ k, Entry.demand (.backslash k) ∈ x.entries → w.slashed
  charged : ∀ k, Entry.demand (.backslash k) ∈ x.entries → k.isFString = true
  quiet : lays = false → ∀ l, Entry.line l ∉ x.entries

/-- The verdict on a draft that has no segments left. -/
abbrev Judged (lays : Bool) (w : Verdict) (x : Draft A) : Prop :=
  x.JudgedWith lays (fun _ => []) w

/-- The verdict on a draft of segments. -/
abbrev Gathers (w : Verdict) (x : Draft (List Segment)) : Prop :=
  x.JudgedWith false id w

theorem Judged.accepted {x : Draft A} (h : x.Judged lays w) :
    (∃ a, x.outcome = .ok a) ↔ w.formed ∧ w.quotable := by
  constructor
  · rintro ⟨a, ha⟩
    exact ⟨(h.sound a ha).1, (h.sound a ha).2 (by decide)⟩
  · rintro ⟨hformed, hquotable⟩
    exact h.complete hformed hquotable

theorem Judged.slashed_iff {x : Draft A} (h : x.Judged lays w) {a : A} (ha : x.outcome = .ok a) :
    (∃ k, Entry.demand (.backslash k) ∈ x.entries) ↔ w.slashed := by
  constructor
  · rintro ⟨k, hk⟩
    exact h.raised k hk
  · intro hslashed
    exact (h.slashed a ha hslashed).resolve_right (by decide)

theorem exists_of_map_ok {x : Draft A} {f : A → B} {b : B}
    (h : (x >>= fun a => pure (f a)).outcome = .ok b) : ∃ a, f a = b := by
  cases hx : x.outcome with
  | error flaw => simp [bind_of_error hx] at h
  | ok a =>
    rw [bind_of_ok hx] at h
    exact ⟨a, Except.ok.inj h⟩

namespace JudgedWith

variable {seen : A → List Segment} {seen' : B → List Segment}

theorem congr {x : Draft A} (h : x.JudgedWith lays seen v) (e : v = w) :
    x.JudgedWith lays seen w :=
  e ▸ h

/-- A draft that lays out no lines may stand where lines are laid out. -/
theorem laying {x : Draft A} (h : x.JudgedWith false seen w) : x.JudgedWith lays seen w :=
  { h with quiet := fun _ => h.quiet rfl }

theorem pure {a : A} : (Pure.pure a : Draft A).JudgedWith lays seen 0 where
  sound _ _ := by simp
  complete _ _ := ⟨a, rfl⟩
  blamed flaw h := by cases h
  slashed _ _ h := h.elim
  raised k h := absurd h List.not_mem_nil
  charged k h := absurd h List.not_mem_nil
  quiet _ _ := List.not_mem_nil

/-- A draft may show more segments than there are to be joined. -/
theorem mono {seen' : A → List Segment} {x : Draft A} (h : x.JudgedWith lays seen w)
    (hseen : ∀ a, seen a ⊆ seen' a) : x.JudgedWith lays seen' w where
  sound a ha := (h.sound a ha).imp_right fun hleft hcrowded =>
    hleft (isCrowded_of_subset (hseen a) hcrowded)
  complete := h.complete
  blamed := h.blamed
  slashed a ha hslashed :=
    (h.slashed a ha hslashed).imp_right (codesContain_of_subset (hseen a))
  raised := h.raised
  charged := h.charged
  quiet := h.quiet

/-- If the first draft fails, it does so for all of them. -/
theorem bind_ok {x : Draft A} {f : A → Draft B} (hx : x.JudgedWith lays seen v)
    (hformed : w.formed → v.formed) (hquotable : w.quotable → v.quotable)
    (hslashed : v.slashed → w.slashed)
    (hok : ∀ a, x.outcome = .ok a → (x >>= f).JudgedWith lays seen' w) :
    (x >>= f).JudgedWith lays seen' w := by
  cases h : x.outcome with
  | ok a => exact hok a h
  | error flaw =>
    rw [bind_of_error h]
    constructor
    · intro b hb
      cases hb
    · intro hw hw'
      obtain ⟨a, ha⟩ := hx.complete (hformed hw) (hquotable hw')
      rw [h] at ha
      cases ha
    · intro other hother hw
      cases hother
      exact hx.blamed flaw h (hformed hw)
    · intro b hb
      cases hb
    · intro k hk
      exact hslashed (hx.raised k hk)
    · exact hx.charged
    · exact hx.quiet

/-- The segments that the first draft shows must still be seen in the end. -/
theorem bind_seen {x : Draft A} {f : A → Draft B} (hx : x.JudgedWith lays seen v)
    (hf : ∀ a, (f a).JudgedWith lays seen' w)
    (hseen : ∀ a b, (f a).outcome = .ok b → seen a ⊆ seen' b) :
    (x >>= f).JudgedWith lays seen' (v + w) := by
  refine hx.bind_ok And.left And.left Or.inl fun a h => ?_
  obtain ⟨hformed, hleft⟩ := hx.sound a h
  constructor
  · intro b hb
    rw [outcome_bind_of_ok h] at hb
    obtain ⟨hformed', hleft'⟩ := (hf a).sound b hb
    -- Segments of the first draft are among those in the end, so they leave a quote as well.
    refine ⟨⟨hformed, hformed'⟩, fun hcrowded => ⟨hleft ?_, hleft' hcrowded⟩⟩
    exact isCrowded_of_subset (hseen a b hb) hcrowded
  · intro hboth hquotable
    rw [outcome_bind_of_ok h]
    exact (hf a).complete hboth.2 hquotable.2
  · intro flaw hflaw hboth
    rw [outcome_bind_of_ok h] at hflaw
    exact (hf a).blamed flaw hflaw hboth.2
  · intro b hb hslashed
    rw [outcome_bind_of_ok h] at hb
    simp only [mem_entries_bind_of_ok h, exists_or]
    rcases hslashed with hslashed | hslashed
    · rcases hx.slashed a h hslashed with hdemand | hcode
      · exact .inl (.inl hdemand)
      · exact .inr (codesContain_of_subset (hseen a b hb) hcode)
    · exact ((hf a).slashed b hb hslashed).imp_left .inr
  · intro k hk
    rcases (mem_entries_bind_of_ok h).mp hk with hk | hk
    · exact .inl (hx.raised k hk)
    · exact .inr ((hf a).raised k hk)
  · intro k hk
    rcases (mem_entries_bind_of_ok h).mp hk with hk | hk
    · exact hx.charged k hk
    · exact (hf a).charged k hk
  · intro hlays l hl
    rcases (mem_entries_bind_of_ok h).mp hl with hl | hl
    · exact hx.quiet hlays l hl
    · exact (hf a).quiet hlays l hl

theorem bind {x : Draft A} {f : A → Draft B} (hx : x.Judged lays v)
    (hf : ∀ a, (f a).JudgedWith lays seen' w) : (x >>= f).JudgedWith lays seen' (v + w) :=
  hx.bind_seen hf fun _ _ _ => List.nil_subset _

theorem map {x : Draft A} {f : A → B} (hx : x.JudgedWith lays seen w)
    (hf : ∀ a, seen a ⊆ seen' (f a)) :
    (x >>= fun a => Pure.pure (f a)).JudgedWith lays seen' w := by
  refine (hx.bind_seen (fun a => pure) ?_).congr (add_zero w)
  intro a b hb
  cases hb
  exact hf a

theorem bind_pure {x : Draft A} {f : A → B} (hx : x.Judged lays w) :
    (x >>= fun a => Pure.pure (f a)).Judged lays w :=
  hx.map fun _ => List.nil_subset _

/-- A draft that is bound to fail, for something that is not well formed. -/
theorem fail {k : Kind} {fault : Fault} (h : ¬w.formed) :
    (Draft.fail k fault : Draft A).JudgedWith lays seen w where
  sound _ h := by cases h
  complete hformed := absurd hformed h
  blamed _ _ hformed := absurd hformed h
  slashed _ h := by cases h
  raised _ hk := absurd hk List.not_mem_nil
  charged _ hk := absurd hk List.not_mem_nil
  quiet _ _ := List.not_mem_nil

/-- A draft without demands for backslashes that is sure to end in a value. -/
theorem of_ok {x : Draft A} {a : A} (h : x.outcome = .ok a)
    (hdemand : ∀ k, Entry.demand (.backslash k) ∉ x.entries)
    (hquiet : lays = false → ∀ l, Entry.line l ∉ x.entries) : x.JudgedWith lays seen 0 where
  sound _ _ := by simp
  complete _ _ := ⟨a, h⟩
  blamed flaw hflaw := by
    rw [h] at hflaw
    cases hflaw
  slashed _ _ h := h.elim
  raised k hk := absurd hk (hdemand k)
  charged k hk := absurd hk (hdemand k)
  quiet := hquiet

theorem demand (k : Kind) : (Draft.demand k).Judged lays 0 :=
  of_ok rfl (by simp) (by simp)

theorem emit (text : String) : (Draft.emit text).Judged true 0 :=
  of_ok rfl (by simp) (by simp)

theorem verbatim (text : String) : (Draft.verbatim text).Judged true 0 :=
  of_ok rfl (by simp) (by simp)

theorem demand_bind {k : Kind} {f : Unit → Draft B} (hf : (f ()).JudgedWith lays seen' w) :
    (Draft.demand k >>= f).JudgedWith lays seen' w :=
  ((demand k).bind fun _ => hf).congr (zero_add w)

theorem emit_bind {text : String} {f : Unit → Draft B} (hf : (f ()).Judged true w) :
    (Draft.emit text >>= f).Judged true w :=
  ((emit text).bind fun _ => hf).congr (zero_add w)

theorem bind_emit {x : Draft A} {f : A → String} (hx : x.Judged true w) :
    (x >>= fun a => Draft.emit (f a)).Judged true w :=
  (hx.bind fun a => emit (f a)).congr (add_zero w)

/-- A check fails only where something is not well formed, and what follows it may rely on
that. -/
theorem refuse_bind_of {c : Bool} {k : Kind} {fault : Fault} {f : Unit → Draft B}
    (hf : c = false → (f ()).Judged lays w) (hformed : c = true → ¬w.formed) :
    (Draft.refuse c k fault >>= f).Judged lays w := by
  cases c with
  | true => exact fail (hformed rfl)
  | false =>
    have hpass : (Pure.pure () : Draft Unit).Judged lays 0 := pure
    exact (hpass.bind fun _ => hf rfl).congr (zero_add w)

/-- A check asks that it does not apply. -/
theorem refuse_bind {c : Bool} {k : Kind} {fault : Fault} {f : Unit → Draft B}
    (hf : c = false → (f ()).Judged lays w) :
    (Draft.refuse c k fault >>= f).Judged lays (.asks (c = false) + w) := by
  apply refuse_bind_of
  · intro hc
    exact (hf hc).congr (by rw [Verdict.asks_true hc, zero_add])
  · intro hc hformed
    rw [hc] at hformed
    cases hformed.1

section Checks

variable {α β γ δ : Type} {R : α → β → Prop} {S : γ → δ → Prop} {xs : List α} {ns : List β}
  {ys : List γ} {ms : List δ} {k : Kind} {fault : Fault} {f : Unit → Draft B}

theorem refuse_empty (h : List.Forall₂ R xs ns)
    (hf : xs.isEmpty = false → (f ()).Judged lays w) :
    (Draft.refuse xs.isEmpty k fault >>= f).Judged lays (.asks ((!ns.isEmpty) = true) + w) := by
  refine (refuse_bind hf).congr ?_
  rw [forall₂_isEmpty h, Bool.not_eq_true']

theorem refuse_single (h : List.Forall₂ R xs ns) (hf : (f ()).Judged lays w) :
    (Draft.refuse (xs.length < 2) k fault >>= f).Judged lays
      (.asks (decide (2 ≤ ns.length) = true) + w) := by
  refine (refuse_bind fun _ => hf).congr ?_
  simp [h.length_eq, Nat.succ_le_iff]

theorem refuse_unequal (hxs : List.Forall₂ R xs ns) (hys : List.Forall₂ S ys ms)
    (hf : xs.length = ys.length → (f ()).Judged lays w) :
    (Draft.refuse (xs.length != ys.length) k fault >>= f).Judged lays
      (.asks ((ns.length == ms.length) = true) + w) := by
  refine (refuse_bind fun hc => hf (by simpa using hc)).congr ?_
  rw [hxs.length_eq, hys.length_eq]
  simp

end Checks

theorem block {x : Draft A} (h : x.Judged true w) : (Draft.block x).Judged true w where
  sound := h.sound
  complete := h.complete
  blamed := h.blamed
  slashed a ha hslashed := by
    simp only [demand_mem_block]
    exact h.slashed a ha hslashed
  raised k hk := h.raised k (demand_mem_block.mp hk)
  charged k hk := h.charged k (demand_mem_block.mp hk)
  quiet h := by cases h

section Lists

variable {α β γ δ : Type} {f : α → Verdict}

theorem all_seen {xs : List (Draft A)} {ns : List α}
    (h : List.Forall₂ (fun x n => x.JudgedWith lays seen (f n)) xs ns) :
    (Draft.all xs).JudgedWith lays (List.flatMap seen) (.total f ns) := by
  induction h with
  | nil => exact pure
  | cons hx _ ih =>
    rw [Verdict.total_cons]
    refine hx.bind_seen (fun a => ih.map fun as => ?_) fun a b hb => ?_
    · rw [List.flatMap_cons]
      exact List.subset_append_right _ _
    · obtain ⟨as, rfl⟩ := exists_of_map_ok hb
      rw [List.flatMap_cons]
      exact List.subset_append_left _ _

theorem all {xs : List (Draft A)} {ns : List α}
    (h : List.Forall₂ (fun x n => x.Judged lays (f n)) xs ns) :
    (Draft.all xs).Judged lays (.total f ns) :=
  (all_seen h).mono fun as => by simp

theorem each {xs : List (Draft Unit)} {ns : List α}
    (h : List.Forall₂ (fun x n => x.Judged lays (f n)) xs ns) :
    (Draft.each xs).Judged lays (.total f ns) := by
  induction h with
  | nil => exact pure
  | cons hx _ ih =>
    rw [Verdict.total_cons]
    exact hx.bind fun _ => ih

/-- The drafts of pairs, as long as no member of either list is left over. -/
theorem zip (f : α → Verdict) (g : β → Verdict) {R : γ → α → Prop} {S : δ → β → Prop}
    {xs : List γ} {ns : List α} {ys : List δ} {ms : List β} {draft : γ × δ → Draft A}
    (hxs : List.Forall₂ R xs ns) (hys : List.Forall₂ S ys ms)
    (hlength : xs.length = ys.length)
    (hdraft : ∀ (x : γ × δ) (n : α × β), R x.1 n.1 ∧ S x.2 n.2 →
      (draft x).Judged lays (f n.1 + g n.2)) :
    (Draft.all ((xs.zip ys).map draft)).Judged lays (.total f ns + .total g ms) := by
  rw [← Verdict.total_zip f g (by rw [← hxs.length_eq, ← hys.length_eq, hlength])]
  apply all
  rw [List.forall₂_map_left_iff]
  exact (forall₂_zip hxs hys).imp hdraft

end Lists

end JudgedWith

end Draft

end Unparse
