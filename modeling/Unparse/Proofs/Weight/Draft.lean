import Mathlib.Tactic.Abel
import Unparse.Proofs.Weight.Scale

/-! What a draft weighs: the demands it makes, the lines it lays out and the value it ends
with. A draft that fails may have spent only a part of its weight, never more than it. -/
namespace Unparse

namespace Draft

variable {A B : Type} {m : Scale}

/-- With values that count for `held` already in hand, the draft adds `w`: it demands no
kind that is not in `w`, and when it ends in a value, it has demanded all of them and nothing
of the texts is lost or repeated. -/
structure Weighs (m : Scale) (size : A → Nat) (x : Draft A) (held : Nat) (w : Weight) :
    Prop where
  demanded : ∀ k, Entry.demand (.kind k) ∈ x.entries → k ∈ w.kinds
  complete : ∀ a, x.outcome = .ok a → ∀ k ∈ w.kinds, Entry.demand (.kind k) ∈ x.entries
  settled : ∀ a, x.outcome = .ok a → m.lines x.entries + size a = held + w.count

/-- The weight of a draft that ends with a text. -/
abbrev Says (m : Scale) (x : Draft String) (w : Weight) : Prop :=
  x.Weighs m m.text 0 w

/-- The weight of a draft that ends with several texts. -/
abbrev Lists (m : Scale) (x : Draft (List String)) (w : Weight) : Prop :=
  x.Weighs m m.texts 0 w

/-- The weight of a draft that only lays out lines. -/
abbrev Lays (m : Scale) (x : Draft Unit) (w : Weight) : Prop :=
  x.Weighs m (fun _ => 0) 0 w

namespace Weighs

variable {size : A → Nat} {size' : B → Nat} {held : Nat} {v w : Weight}

theorem congr {x : Draft A} (h : x.Weighs m size held w) (e : w = v) :
    x.Weighs m size held v :=
  e ▸ h

theorem pure {a : A} {n : Nat} (h : size a = held + n) :
    (Pure.pure a : Draft A).Weighs m size held (.said n) where
  demanded k hk := absurd hk (List.not_mem_nil)
  complete _ _ k hk := absurd hk (Set.notMem_empty k)
  settled b hb := by
    cases hb
    change 0 + size a = held + n
    omega

theorem done {a : A} (h : size a = held) : (Pure.pure a : Draft A).Weighs m size held 0 :=
  pure (n := 0) h

/-- The value of the first draft is in hand when the second one is run. -/
theorem bind {x : Draft A} {f : A → Draft B} (hx : x.Weighs m size 0 v)
    (hf : ∀ a, (f a).Weighs m size' (held + size a) w) :
    (x >>= f).Weighs m size' held (v + w) := by
  cases h : x.outcome with
  | error flaw =>
    rw [bind_of_error h]
    exact ⟨fun k hk => .inl (hx.demanded k hk), fun b hb => by simp at hb,
      fun b hb => by simp at hb⟩
  | ok a =>
    refine ⟨fun k hk => ?_, fun b hb k hk => ?_, fun b hb => ?_⟩
    · rcases (mem_entries_bind_of_ok h).mp hk with hk | hk
      · exact .inl (hx.demanded k hk)
      · exact .inr ((hf a).demanded k hk)
    · rw [outcome_bind_of_ok h] at hb
      rw [mem_entries_bind_of_ok h]
      rcases hk with hk | hk
      · exact .inl (hx.complete a h k hk)
      · exact .inr ((hf a).complete b hb k hk)
    · rw [outcome_bind_of_ok h] at hb
      have hfirst := hx.settled a h
      have hsecond := (hf a).settled b hb
      rw [entries_bind_of_ok h, m.lines_append, Weight.count_add]
      omega

theorem bind_pure {x : Draft A} {f : A → B} (hx : x.Weighs m size 0 w)
    (hf : ∀ a, size' (f a) = held + size a) :
    (x >>= fun a => Pure.pure (f a)).Weighs m size' held w :=
  (hx.bind fun a => done (hf a)).congr (add_zero w)

theorem fail {k : Kind} {fault : Fault} :
    (Draft.fail k fault : Draft A).Weighs m size held w where
  demanded k hk := absurd hk (List.not_mem_nil)
  complete a ha := by simp [Draft.fail] at ha
  settled a ha := by simp [Draft.fail] at ha

theorem demand (k : Kind) : (Draft.demand k).Weighs m (fun _ => 0) 0 (.kind k) where
  demanded k hk := by simpa using hk
  complete _ _ k hk := by simpa using hk
  settled _ _ := rfl

theorem demandBackslash (k : Kind) : (Draft.demandBackslash k).Weighs m (fun _ => 0) 0 0 where
  demanded k hk := by simp at hk
  complete _ _ k hk := absurd hk (Set.notMem_empty k)
  settled _ _ := rfl

theorem demand_bind {k : Kind} {f : Unit → Draft B} (hf : (f ()).Weighs m size' held w) :
    (Draft.demand k >>= f).Weighs m size' held (.kind k + w) :=
  (demand k).bind fun _ => hf

/-- What follows a check may rely on it. -/
theorem refuse_bind {c : Bool} {k : Kind} {fault : Fault} {f : Unit → Draft B}
    (hf : c = false → (f ()).Weighs m size' held w) :
    (Draft.refuse c k fault >>= f).Weighs m size' held w := by
  cases c with
  | true =>
    have h : Draft.refuse true k fault >>= f = Draft.fail k fault := rfl
    rw [h]
    exact fail
  | false =>
    have h : (Pure.pure () : Draft Unit).Weighs m (fun _ => 0) 0 0 := done rfl
    exact (h.bind fun _ => hf rfl).congr (zero_add w)

theorem lines_pieces (ss : List String) :
    m.lines (ss.map fun piece => .line ⟨0, piece⟩) = m.texts ss := by
  induction ss with
  | nil => rfl
  | cons s ss ih =>
    rw [List.map_cons, ← List.singleton_append, m.lines_append, ih, m.texts_cons]
    rfl

theorem emit {text : String} {n : Nat} (h : m.text text = held + n) :
    (Draft.emit text).Weighs m (fun _ => 0) held (.said n) where
  demanded k hk := by simp at hk
  complete _ _ k hk := absurd hk (Set.notMem_empty k)
  settled _ _ := by
    rw [entries_emit, lines_pieces, m.texts_lines, h, Weight.count_said, Nat.add_zero]

theorem verbatim {text : String} {n : Nat} (h : m.text text = held + n) :
    (Draft.verbatim text).Weighs m (fun _ => 0) held (.said n) where
  demanded k hk := by simp at hk
  complete _ _ k hk := absurd hk (Set.notMem_empty k)
  settled _ _ := by
    rw [Weight.count_said, ← h]
    simp [Scale.lines, Entry.line?]

theorem bind_emit {x : Draft A} {f : A → String} (hx : x.Weighs m size 0 w)
    (hf : ∀ a, m.text (f a) = held + size a) :
    (x >>= fun a => Draft.emit (f a)).Weighs m (fun _ => 0) held w :=
  (hx.bind fun a => emit (n := 0) (hf a)).congr (add_zero w)

/-- What the first draft lays out is no longer in hand. -/
theorem bind_laid {x : Draft Unit} {f : Unit → Draft B} (hx : x.Weighs m (fun _ => 0) held v)
    (hf : (f ()).Weighs m size' 0 w) : (x >>= f).Weighs m size' held (v + w) := by
  have hx₀ : x.Weighs m (fun _ => 0) 0 (.said held + v) := by
    refine ⟨fun k hk => .inr (hx.demanded k hk), fun a ha k hk => ?_, fun a ha => ?_⟩
    · exact hx.complete a ha k (hk.resolve_left (Set.notMem_empty k))
    · simpa using hx.settled a ha
  have hboth := hx₀.bind fun _ => hf
  rw [add_assoc] at hboth
  refine ⟨fun k hk => ?_, fun b hb k hk => hboth.complete b hb k (.inr hk), fun b hb => ?_⟩
  · exact (hboth.demanded k hk).resolve_left (Set.notMem_empty k)
  · simpa using hboth.settled b hb

theorem emit_bind {text : String} {f : Unit → Draft B} (h : m.text text = held)
    (hf : (f ()).Weighs m size' 0 w) : (Draft.emit text >>= f).Weighs m size' held w :=
  ((emit (n := 0) h).bind_laid hf).congr (zero_add w)

theorem lines_deeper (es : List Entry) : m.lines (es.map Entry.deeper) = m.lines es := by
  induction es with
  | nil => rfl
  | cons e es ih =>
    rw [List.map_cons, ← List.singleton_append, m.lines_append, ih,
      ← List.singleton_append (l := es), m.lines_append]
    cases e <;> rfl

theorem block {x : Draft A} (h : x.Weighs m size held w) :
    (Draft.block x).Weighs m size held w where
  demanded k hk := h.demanded k (demand_mem_block.mp hk)
  complete a ha k hk := demand_mem_block.mpr (h.complete a ha k hk)
  settled a ha := by
    rw [entries_block, lines_deeper]
    exact h.settled a ha

end Weighs

end Draft

/-! Several things on one scale. -/

/-- The members of a list weigh `w` together. -/
def Together {α : Type} (P : α → Weight → Prop) : List α → Weight → Prop
  | [], w => w = 0
  | x :: xs, w => ∃ u v, P x u ∧ Together P xs v ∧ w = u + v

/-- What is absent weighs nothing. -/
def Maybe {α : Type} (P : α → Weight → Prop) : Option α → Weight → Prop
  | none, w => w = 0
  | some x, w => P x w

namespace Together

variable {α β : Type} {P : α → Weight → Prop} {Q : β → Weight → Prop} {u v w : Weight}

theorem map {f : α → β} (hf : ∀ x w, P x w → Q (f x) w) {xs : List α} (h : Together P xs w) :
    Together Q (xs.map f) w := by
  induction xs generalizing w with
  | nil => exact h
  | cons x xs ih =>
    obtain ⟨u, v, hx, hxs, e⟩ := h
    exact ⟨u, v, hf x u hx, ih hxs, e⟩

theorem append {xs ys : List α} (hx : Together P xs u) (hy : Together P ys v) :
    Together P (xs ++ ys) (u + v) := by
  induction xs generalizing u with
  | nil =>
    rw [show u = 0 from hx, zero_add]
    exact hy
  | cons x xs ih =>
    obtain ⟨a, b, hhead, htail, rfl⟩ := hx
    exact ⟨a, b + v, hhead, ih htail, add_assoc a b v⟩

theorem eq_zero {xs : List α} (h : Together (fun _ w => w = 0) xs w) : w = 0 := by
  induction xs generalizing w with
  | nil => exact h
  | cons x xs ih =>
    obtain ⟨u, v, rfl, hxs, rfl⟩ := h
    rw [ih hxs, add_zero]

theorem replicate {x : α} (hx : P x 0) (n : Nat) : Together P (List.replicate n x) 0 := by
  induction n with
  | zero => rfl
  | succ n ih => exact ⟨0, 0, hx, ih, (add_zero 0).symm⟩

/-- Two lists of one length, member by member. -/
theorem zip {xs : List α} {ys : List β} (hx : Together P xs u) (hy : Together Q ys v)
    (hlength : xs.length = ys.length) :
    Together (fun p w => ∃ a b, P p.1 a ∧ Q p.2 b ∧ w = a + b) (xs.zip ys) (u + v) := by
  induction xs generalizing ys u v with
  | nil =>
    cases ys with
    | nil => exact (congrArg₂ _ hx hy).trans (add_zero 0)
    | cons y ys => simp at hlength
  | cons x xs ih =>
    cases ys with
    | nil => simp at hlength
    | cons y ys =>
      obtain ⟨a, u', hhead, htail, rfl⟩ := hx
      obtain ⟨b, v', hhead', htail', rfl⟩ := hy
      have hmore := ih htail htail' (by simpa using hlength)
      exact ⟨a + b, u' + v', ⟨a, b, hhead, hhead', rfl⟩, hmore, by abel⟩

/-- The order of the members does not matter to what they weigh. -/
theorem partition (p : α → Bool) {xs : List α} (h : Together P xs w) :
    Together P (xs.filter p ++ xs.filter (!p ·)) w := by
  have hparts : ∃ a b, Together P (xs.filter p) a ∧ Together P (xs.filter (!p ·)) b ∧
      w = a + b := by
    induction xs generalizing w with
    | nil => exact ⟨0, 0, rfl, rfl, h.trans (add_zero 0).symm⟩
    | cons x xs ih =>
      obtain ⟨u, v, hx, hxs, rfl⟩ := h
      obtain ⟨a, b, ha, hb, rfl⟩ := ih hxs
      by_cases hp : p x = true
      · refine ⟨u + a, b, ?_, ?_, by abel⟩
        · rw [List.filter_cons_of_pos hp]
          exact ⟨u, a, hx, ha, rfl⟩
        · rw [List.filter_cons_of_neg (by simpa using hp)]
          exact hb
      · refine ⟨a, u + b, ?_, ?_, by abel⟩
        · rw [List.filter_cons_of_neg hp]
          exact ha
        · rw [List.filter_cons_of_pos (by simpa using hp)]
          exact ⟨u, b, hx, hb, rfl⟩
  obtain ⟨a, b, ha, hb, rfl⟩ := hparts
  exact ha.append hb

end Together

theorem Maybe.eq_zero {α : Type} {x : Option α} {w : Weight}
    (h : Maybe (fun _ w => w = 0) x w) : w = 0 := by
  cases x with
  | none => exact h
  | some x => exact h

namespace Draft

variable {A : Type} {m : Scale} {size : A → Nat} {w : Weight}

/-- Drafts that are run one after the other. -/
theorem Weighs.all {xs : List (Draft A)} (h : Together (fun x w => x.Weighs m size 0 w) xs w) :
    (Draft.all xs).Weighs m (fun as => (as.map size).sum) 0 w := by
  induction xs generalizing w with
  | nil =>
    rw [show w = 0 from h]
    exact Weighs.done rfl
  | cons x xs ih =>
    obtain ⟨u, v, hx, hxs, rfl⟩ := h
    exact hx.bind fun a => (ih hxs).bind_pure fun as => by simp

theorem Lists.all {xs : List (Draft String)} (h : Together (Says m) xs w) :
    (Draft.all xs).Lists m w :=
  Weighs.all h

theorem Weighs.each {xs : List (Draft Unit)} (h : Together (Lays m) xs w) :
    (Draft.each xs).Lays m w := by
  induction xs generalizing w with
  | nil =>
    rw [show w = 0 from h]
    exact Weighs.done rfl
  | cons x xs ih =>
    obtain ⟨u, v, hx, hxs, rfl⟩ := h
    exact hx.bind fun _ => ih hxs

end Draft

end Unparse
