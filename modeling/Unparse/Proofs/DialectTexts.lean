import Mathlib.Data.List.Forall2
import Unparse.Dialect
import Unparse.Proofs.Text.Grammar

/-! The texts that name a dialect. Between its blanks such a text is the word for the permissive
dialect or two numbers with a period between them. A text names a dialect only if it has one of
these forms, and the written form of a dialect names it again. -/
namespace Unparse

namespace Text

/-! ### Words in any case -/

/-- The letters of a word, each of them in lower or in upper case. -/
def InAnyCase (cs word : List Char) : Prop :=
  List.Forall₂ (fun c d => c = d ∨ c = d.toUpper) cs word

theorem isLower_iff {c : Char} : c.isLower = true ↔ 97 ≤ c.toNat ∧ c.toNat ≤ 122 := by
  change (decide ('a'.val ≤ c.val) && decide (c.val ≤ 'z'.val)) = true ↔ _
  rw [Bool.and_eq_true, decide_eq_true_eq, decide_eq_true_eq]
  exact Iff.rfl

theorem toNat_toLower (c : Char) :
    c.toLower.toNat = if 65 ≤ c.toNat ∧ c.toNat ≤ 90 then c.toNat + 32 else c.toNat := by
  have hgap : ('a'.val - 'A'.val).toNat = 32 := rfl
  unfold Char.toLower
  split
  next h =>
    have hupper : 65 ≤ c.toNat ∧ c.toNat ≤ 90 := h
    rw [if_pos hupper, ← Char.toNat_val, UInt32.toNat_add, Char.toNat_val, hgap]
    exact Nat.mod_eq_of_lt (by omega)
  next h => exact (if_neg h).symm

theorem toNat_toUpper {c : Char} (h : c.isLower = true) : c.toUpper.toNat = c.toNat - 32 := by
  have hgap : ('A'.val - 'a'.val).toNat = 2 ^ 32 - 32 := rfl
  have hlower := isLower_iff.mp h
  have hletter : 'a'.val ≤ c.val ∧ c.val ≤ 'z'.val := hlower
  delta Char.toUpper
  rw [dif_pos hletter, ← Char.toNat_val, UInt32.toNat_add, Char.toNat_val, hgap]
  omega

theorem toLower_eq_iff {c d : Char} (hd : d.isLower = true) :
    c.toLower = d ↔ c = d ∨ c = d.toUpper := by
  have hlower := isLower_iff.mp hd
  rw [← Char.toNat_inj, ← Char.toNat_inj, ← Char.toNat_inj, toNat_toLower, toNat_toUpper hd]
  split <;> omega

theorem map_toLower_eq_iff {cs word : List Char} (hword : ∀ d ∈ word, d.isLower = true) :
    cs.map Char.toLower = word ↔ InAnyCase cs word := by
  unfold InAnyCase
  induction word generalizing cs with
  | nil => simp
  | cons d word ih =>
    obtain ⟨hd, hword⟩ := List.forall_mem_cons.mp hword
    cases cs with
    | nil => simp
    | cons c cs =>
      rw [List.map_cons, List.cons.injEq, toLower_eq_iff hd, ih hword, List.forall₂_cons]

/-! ### Numbers with a plus sign -/

/-- A run of digits, maybe behind a plus sign, denotes a number. -/
inductive Unsigned : List Char → Nat → Prop where
  | bare {cs : List Char} {n : Nat} (h : Digits cs n) : Unsigned cs n
  | plus {cs : List Char} {n : Nat} (h : Digits cs n) : Unsigned ('+' :: cs) n

theorem unsigned?_eq_some_iff {bound n : Nat} {cs : List Char} :
    unsigned? bound cs = some n ↔ Unsigned cs n ∧ n < bound := by
  have hread (digits : List Char) :
      ((digits? digits).bind fun m => if m < bound then some m else none) = some n ↔
        Digits digits n ∧ n < bound := by
    simp only [Option.bind_eq_some_iff, digits?_eq_some_iff, Option.ite_none_right_eq_some,
      Option.some.injEq]
    exact ⟨fun ⟨m, hm, hlt, hmn⟩ => hmn ▸ ⟨hm, hlt⟩, fun ⟨h, hlt⟩ => ⟨n, h, hlt, rfl⟩⟩
  unfold unsigned?
  split
  next rest =>
    refine (hread rest).trans (and_congr_left fun _ => ⟨.plus, fun h => ?_⟩)
    cases h with
    | bare h => exact absurd (h.isDigit '+' List.mem_cons_self) (by decide)
    | plus h => exact h
  next hother =>
    refine (hread cs).trans (and_congr_left fun _ => ⟨.bare, fun h => ?_⟩)
    cases h with
    | bare h => exact h
    | plus h => exact absurd rfl (hother _)

theorem Unsigned.mem {cs : List Char} {n : Nat} (h : Unsigned cs n) {c : Char} (hc : c ∈ cs) :
    c = '+' ∨ c.isDigit = true := by
  cases h with
  | bare h => exact .inr (h.isDigit c hc)
  | plus h => exact (List.mem_cons.mp hc).imp_right (h.isDigit c)

theorem unsigned_decimal (n : Nat) : Unsigned (decimal n).toList n := by
  rw [decimal, String.toList_ofList]
  exact .bare (digits_toDigits n)

end Text

namespace Dialect

open Text (Trimmed InAnyCase Unsigned)

/-- A text without blanks around it names a dialect. -/
inductive Names : List Char → Dialect → Prop where
  | permissive {cs : List Char} (h : InAnyCase cs "permissive".toList) : Names cs .permissive
  | version {major minor : List Char} {v : Version} (hmajor : Unsigned major v.major)
    (hminor : Unsigned minor v.minor) (hmajors : v.major = 2 ∨ v.major = 3)
    (hbyte : v.minor ≤ 255) : Names (major ++ '.' :: minor) (.version v)

theorem names_permissive_iff {cs : List Char} :
    Names cs .permissive ↔ cs.map Char.toLower = "permissive".toList := by
  have hlower : "permissive".toList.all Char.isLower = true := by decide
  rw [Text.map_toLower_eq_iff (List.all_eq_true.mp hlower)]
  exact ⟨fun (.permissive h) => h, .permissive⟩

theorem version?OfChars_append {major minor : List Char} {v : Version}
    (hperiod : ∀ c ∈ major, (c != '.') = true) :
    version?OfChars (major ++ '.' :: minor) = some v ↔
      Unsigned major v.major ∧ Unsigned minor v.minor ∧ (v.major = 2 ∨ v.major = 3) ∧
        v.minor ≤ 255 := by
  have htake : (major ++ '.' :: minor).takeWhile (· != '.') = major := by
    rw [List.takeWhile_append_of_pos hperiod]
    simp
  have hdrop : (major ++ '.' :: minor).dropWhile (· != '.') = '.' :: minor := by
    rw [List.dropWhile_append_of_pos hperiod]
    simp
  have hread : version?OfChars (major ++ '.' :: minor) =
      (Text.unsigned? numberBound major).bind fun a => (Text.unsigned? numberBound minor).bind
        fun b => if a ∈ majors then some ⟨a, b⟩ else none := by
    rw [version?OfChars, hdrop, htake]
    rfl
  simp only [hread, Option.bind_eq_some_iff, Text.unsigned?_eq_some_iff,
    Option.ite_none_right_eq_some, Option.some.injEq]
  constructor
  · rintro ⟨a, ⟨ha, -⟩, b, ⟨hb, hbound⟩, hmajor, rfl⟩
    exact ⟨ha, hb, by simpa [majors] using hmajor, Nat.le_of_lt_succ hbound⟩
  · rintro ⟨ha, hb, hmajor, hbound⟩
    have hsmall : v.major < numberBound := by
      unfold numberBound
      omega
    exact ⟨_, ⟨ha, hsmall⟩, _, ⟨hb, Nat.lt_succ_of_le hbound⟩, by simpa [majors] using hmajor, rfl⟩

/-- What is read as a version is divided at its first period. -/
theorem exists_of_version?OfChars {cs : List Char} {v : Version}
    (h : version?OfChars cs = some v) :
    ∃ major minor, cs = major ++ '.' :: minor ∧ ∀ c ∈ major, (c != '.') = true := by
  have hparts : cs.takeWhile (· != '.') ++ cs.dropWhile (· != '.') = cs :=
    List.takeWhile_append_dropWhile
  cases hrest : cs.dropWhile (· != '.') with
  | nil =>
    rw [version?OfChars, hrest] at h
    cases h
  | cons c minor =>
    have hc := List.head?_dropWhile_not (· != '.') cs
    rw [hrest] at hc
    have hperiod : c = '.' := by simpa using hc
    rw [hperiod] at hrest
    refine ⟨cs.takeWhile (· != '.'), minor, ?_, fun d hd => ?_⟩
    · rw [← hrest, hparts]
    · exact List.mem_takeWhile_imp (p := (· != '.')) hd

theorem version?OfChars_eq_some_iff {cs : List Char} {v : Version} :
    version?OfChars cs = some v ↔ Names cs (.version v) := by
  constructor
  · intro h
    obtain ⟨major, minor, rfl, hperiod⟩ := exists_of_version?OfChars h
    obtain ⟨hmajor, hminor, hmajors, hbyte⟩ := (version?OfChars_append hperiod).mp h
    exact .version hmajor hminor hmajors hbyte
  · rintro (_ | ⟨hmajor, hminor, hmajors, hbyte⟩)
    refine (version?OfChars_append fun c hc => ?_).mpr ⟨hmajor, hminor, hmajors, hbyte⟩
    rw [bne_iff_ne]
    rintro rfl
    exact absurd (hmajor.mem hc) (by decide)

/-- A version has a period, and the word for the permissive dialect has none. -/
theorem Names.not_permissive {cs : List Char} {v : Version} (h : Names cs (.version v)) :
    ¬ Names cs .permissive := by
  rintro hword
  cases h with
  | version =>
    have hmem := congrArg ('.' ∈ ·) (names_permissive_iff.mp hword)
    simp at hmem

theorem ofText?_eq_some_iff {s : String} {d : Dialect} :
    ofText? s = some d ↔ Names (Text.trimChars s.toList) d := by
  unfold ofText?
  dsimp only
  split
  next hword =>
    have hpermissive := names_permissive_iff.mpr hword
    cases d with
    | permissive => exact iff_of_true rfl hpermissive
    | version v => exact iff_of_false (by simp) fun h => h.not_permissive hpermissive
  next hword =>
    rw [Option.map_eq_some_iff]
    cases d with
    | permissive => exact iff_of_false (by simp) fun h => hword (names_permissive_iff.mp h)
    | version v => simp [version?OfChars_eq_some_iff]

theorem ofText_eq_ok_iff {s : String} {d : Dialect} :
    ofText s = .ok d ↔ Names (Text.trimChars s.toList) d := by
  rw [← ofText?_eq_some_iff, ofText]
  cases ofText? s <;> simp

theorem ofText_eq_error_iff {s : String} {e : DialectError} :
    ofText s = .error e ↔ e = ⟨s⟩ ∧ ∀ d, ¬ Names (Text.trimChars s.toList) d := by
  simp only [← ofText?_eq_some_iff, ofText]
  cases ofText? s <;> simp [eq_comm]

theorem Names.text {cs : List Char} {d : Dialect} (h : Names cs d) : Names d.text.toList d := by
  cases h with
  | permissive => exact names_permissive_iff.mpr (by decide)
  | @version _ _ v _ _ hmajors hbyte =>
    have htext : (Dialect.version v).text.toList =
        (Text.decimal v.major).toList ++ '.' :: (Text.decimal v.minor).toList := by
      simp [Dialect.text, Version.text]
    rw [htext]
    exact .version (Text.unsigned_decimal _) (Text.unsigned_decimal _) hmajors hbyte

theorem trimChars_text (d : Dialect) : Text.trimChars d.text.toList = d.text.toList := by
  have hdecimal (n : Nat) : ∀ c ∈ (Text.decimal n).toList, Text.isBlank c = false := by
    rw [Text.decimal, String.toList_ofList]
    exact fun c hc => Text.isBlank_of_isDigit (Text.isDigit_of_mem_toDigits hc)
  cases d with
  | permissive => decide
  | version v =>
    apply Text.trimChars_of_not_blank
    have hperiod : Text.isBlank '.' = false := by decide
    simpa [text, Version.text, or_imp, forall_and, hperiod] using
      ⟨hdecimal v.major, hdecimal v.minor⟩

/-- A text is accepted exactly if what stands between its blanks names a dialect, and this is the
dialect that it gives; any other text is refused as it stands. Hence the text of a dialect that was
read is read as this dialect again, and more blanks around a text change nothing. -/
theorem ofText_grammar (s : String) :
    (∀ d, ofText s = .ok d ↔ ∃ core, Trimmed s.toList core ∧ Names core d) ∧
    (∀ e, ofText s = .error e ↔ e = ⟨s⟩ ∧ ∀ core, Trimmed s.toList core → ∀ d, ¬ Names core d) ∧
    (∀ d, ofText s = .ok d → ofText d.text = .ok d) ∧
    ∀ left right : String, (∀ c ∈ left.toList, Text.isBlank c = true) →
      (∀ c ∈ right.toList, Text.isBlank c = true) →
      ∀ d, ofText (left ++ s ++ right) = .ok d ↔ ofText s = .ok d := by
  refine ⟨fun d => ?_, fun e => ?_, fun d hd => ?_, fun left right hleft hright d => ?_⟩
  · simp only [ofText_eq_ok_iff, ← Text.trimChars_eq_iff, exists_eq_left']
  · simp only [ofText_eq_error_iff, ← Text.trimChars_eq_iff, forall_eq']
  · rw [ofText_eq_ok_iff] at hd ⊢
    rw [trimChars_text]
    exact hd.text
  · rw [ofText_eq_ok_iff, ofText_eq_ok_iff, String.toList_append, String.toList_append,
      Text.trimChars_surrounded hleft hright]

/-- Signs and leading zeros are read and not written again. -/
theorem ofText_grammar_padded :
    ofText " +03.0012\t" = .ok (.version ⟨3, 12⟩) ∧
    (Trimmed " +03.0012\t".toList "+03.0012".toList ∧
      Names "+03.0012".toList (.version ⟨3, 12⟩)) ∧
    ofText (version ⟨3, 12⟩).text = .ok (.version ⟨3, 12⟩) ∧
    ofText ("\n" ++ " +03.0012\t" ++ "\u3000") = .ok (.version ⟨3, 12⟩) := by
  obtain ⟨haccepts, -, hrewrites, hblanks⟩ := ofText_grammar " +03.0012\t"
  have htrimmed : Trimmed " +03.0012\t".toList "+03.0012".toList :=
    Text.trimChars_eq_iff.mp (by decide)
  have hmajor : Unsigned "+03".toList 3 := .plus (Text.digits?_eq_some_iff.mp (by decide))
  have hminor : Unsigned "0012".toList 12 := .bare (Text.digits?_eq_some_iff.mp (by decide))
  have hnames : Names "+03.0012".toList (.version ⟨3, 12⟩) :=
    .version (v := ⟨3, 12⟩) hmajor hminor (.inr rfl) (by decide)
  have hread := (haccepts _).mpr ⟨_, htrimmed, hnames⟩
  exact ⟨hread, ⟨htrimmed, hnames⟩, hrewrites _ hread,
    (hblanks "\n" "\u3000" (by simp; decide) (by simp; decide) _).mpr hread⟩

end Dialect

end Unparse
