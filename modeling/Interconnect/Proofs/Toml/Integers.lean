/-
How integers are written: decimal digits with a sign and no leading zero, or digits of another base
behind a mark, in groups with single underscores between them. A bare value is read as an integer exactly
if it is written so, and as the integer that is written; the decimal text of an integer is one of the
ways to write it.
-/
import Mathlib.Data.List.Induction
import Mathlib.Data.Nat.Digits.Defs
import Interconnect.Toml.Scalar

namespace Interconnect

/-! ## Digits -/

namespace Decimal

/-- The digits of a base, the most significant first, stand for `n`. -/
def HasDigits (base : Nat) (ds : List Char) (n : Nat) : Prop :=
  ∃ vs : List Nat, ds.map digitValue? = vs.map some ∧ (∀ v ∈ vs, v < base) ∧
    n = Nat.ofDigits base vs.reverse

theorem natOfDigits?_append_singleton (base : Nat) (ds : List Char) (c : Char) (n : Nat) :
    natOfDigits? base (ds ++ [c]) = some n ↔ ∃ m v, natOfDigits? base ds = some m ∧
      digitValue? c = some v ∧ v < base ∧ n = m * base + v := by
  unfold natOfDigits?
  rw [List.foldlM_append]
  simp only [List.foldlM_cons, List.foldlM_nil, Option.bind_eq_bind, Option.bind_eq_some_iff,
    Option.ite_none_right_eq_some, Option.some.injEq, bind_pure]
  constructor
  · rintro ⟨m, hm, v, hv, hlt, rfl⟩
    exact ⟨m, v, hm, hv, hlt, rfl⟩
  · rintro ⟨m, v, hm, hv, hlt, rfl⟩
    exact ⟨m, hm, v, hv, hlt, rfl⟩

theorem hasDigits_append_singleton (base : Nat) (ds : List Char) (c : Char) (n : Nat) :
    HasDigits base (ds ++ [c]) n ↔ ∃ m v, HasDigits base ds m ∧ digitValue? c = some v ∧ v < base ∧
      n = m * base + v := by
  have hlast : ∀ (vs : List Nat) (v : Nat),
      Nat.ofDigits base (vs ++ [v]).reverse = Nat.ofDigits base vs.reverse * base + v := by
    intro vs v
    rw [List.reverse_append, List.reverse_singleton, List.singleton_append, Nat.ofDigits_cons,
      Nat.add_comm, Nat.mul_comm]
  constructor
  · rintro ⟨ws, hws, hbelow, rfl⟩
    rw [List.map_append, List.map_singleton] at hws
    obtain ⟨vs, last, rfl, hvs, hlast'⟩ := List.append_eq_map_iff.1 hws
    obtain ⟨v, rfl, hv⟩ := List.map_eq_singleton_iff.1 hlast'
    obtain ⟨hbelow, hlt⟩ := List.forall_mem_append.1 hbelow
    exact ⟨_, v, ⟨vs, hvs.symm, hbelow, rfl⟩, hv.symm, hlt v (List.mem_singleton_self v), hlast vs v⟩
  · rintro ⟨m, v, ⟨vs, hvs, hbelow, rfl⟩, hv, hlt, rfl⟩
    refine ⟨vs ++ [v], by simp [hvs, hv], ?_, (hlast vs v).symm⟩
    exact List.forall_mem_append.2 ⟨hbelow, List.forall_mem_singleton.2 hlt⟩

theorem natOfDigits?_eq_some_iff {base : Nat} {ds : List Char} {n : Nat} :
    natOfDigits? base ds = some n ↔ HasDigits base ds n := by
  -- on the last digit, as the digits are read from the first one on
  induction ds using List.reverseRecOn generalizing n with
  | nil =>
    constructor
    · intro h
      cases h
      exact ⟨[], rfl, nofun, rfl⟩
    · rintro ⟨vs, hvs, -, rfl⟩
      rw [List.map_eq_nil_iff.1 hvs.symm]
      rfl
  | append_singleton ds c ih =>
    rw [natOfDigits?_append_singleton, hasDigits_append_singleton]
    simp only [ih]

/-- Every digit has a value in its base. -/
theorem HasDigits.exists_value {base : Nat} {ds : List Char} {n : Nat} (h : HasDigits base ds n)
    {c : Char} (hc : c ∈ ds) : ∃ v, digitValue? c = some v ∧ v < base := by
  obtain ⟨vs, hvs, hbelow, -⟩ := h
  have hmem : digitValue? c ∈ vs.map some := hvs ▸ List.mem_map_of_mem hc
  obtain ⟨v, hv, heq⟩ := List.mem_map.1 hmem
  exact ⟨v, heq.symm, hbelow v hv⟩

end Decimal

namespace Toml

open Decimal

/-! ## Notation -/

/-- The digits are written in groups, none of them empty, with single underscores between them. -/
def Grouped (cs ds : List Char) : Prop :=
  ∃ groups : List (List Char), groups ≠ [] ∧ (∀ g ∈ groups, g ≠ []) ∧
    cs = ['_'].intercalate groups ∧ ds = groups.flatten

/-- A whole number in digits of a base. -/
def Numeral (base : Nat) (cs : List Char) (n : Nat) : Prop := ∃ ds, Grouped cs ds ∧ HasDigits base ds n

/-- A whole number in decimal digits. Only zero itself starts with a zero. -/
def Whole (cs : List Char) (n : Nat) : Prop :=
  ∃ ds, Grouped cs ds ∧ HasDigits 10 ds n ∧ (ds.head? = some '0' → ds = ['0'])

/-- The marks of bases other than ten. -/
def baseMarks : List (Char × Nat) := [('x', 16), ('o', 8), ('b', 2)]

/-- Texts that are written as integers, with the integers that they stand for. -/
inductive WrittenInteger : List Char → Int → Prop where
  | unsigned {cs : List Char} {n : Nat} (h : Whole cs n) : WrittenInteger cs n
  | plus {cs : List Char} {n : Nat} (h : Whole cs n) : WrittenInteger ('+' :: cs) n
  | minus {cs : List Char} {n : Nat} (h : Whole cs n) : WrittenInteger ('-' :: cs) (-n)
  | based {mark : Char} {base : Nat} (hmark : (mark, base) ∈ baseMarks) {cs : List Char} {n : Nat}
      (h : Numeral base cs n) : WrittenInteger ('0' :: mark :: cs) n

/-! ## Groups -/

/-- Digits without underscores are one group. -/
theorem grouped_self {ds : List Char} (h : ds ≠ []) : Grouped ds ds :=
  ⟨[ds], by simp, by simpa using h, by simp, by simp⟩

/-- Besides digits there are only underscores. -/
theorem Grouped.mem {cs ds : List Char} (h : Grouped cs ds) {c : Char} (hc : c ∈ cs) :
    c = '_' ∨ c ∈ ds := by
  obtain ⟨groups, -, -, rfl, rfl⟩ := h
  induction groups with
  | nil => cases hc
  | cons g rest ih =>
    cases rest with
    | nil => exact .inr (by simpa using hc)
    | cons g' rest =>
      rw [List.intercalate_cons_cons, List.append_assoc] at hc
      rw [List.flatten_cons]
      rcases List.mem_append.1 hc with hc | hc
      · exact .inr (List.mem_append_left _ hc)
      · rcases List.mem_cons.1 hc with rfl | hc
        · exact .inl rfl
        · exact (ih hc).imp_right (List.mem_append_right _)

theorem digits?_eq_some_iff {base : Nat} {cs ds : List Char} {n : Nat} (h : HasDigits base ds n) :
    digits? cs = some ds ↔ Grouped cs ds := by
  simp only [digits?, Option.ite_none_left_eq_some, Bool.not_eq_true, List.any_eq_false,
    List.isEmpty_iff, Option.some.injEq]
  constructor
  · rintro ⟨hgroups, rfl⟩
    exact ⟨_, List.splitOn_ne_nil _ _, hgroups, (List.intercalate_splitOn '_').symm, rfl⟩
  · rintro ⟨groups, hne, hgroups, rfl, rfl⟩
    -- an underscore has no value as a digit
    have hdigits : ∀ g ∈ groups, '_' ∉ g := by
      intro g hg hmem
      obtain ⟨v, hv, -⟩ := h.exists_value (List.mem_flatten.2 ⟨g, hg, hmem⟩)
      cases hv
    rw [List.splitOn_intercalate '_' hdigits hne]
    exact ⟨hgroups, rfl⟩

theorem based?_eq_some_iff {base : Nat} {cs : List Char} {n : Int} :
    based? base cs = some n ↔ ∃ k : Nat, Numeral base cs k ∧ n = k := by
  simp only [based?, Option.bind_eq_bind, Option.bind_eq_some_iff, natOfDigits?_eq_some_iff,
    Option.some.injEq]
  constructor
  · rintro ⟨ds, hds, k, hk, rfl⟩
    exact ⟨k, ⟨ds, (digits?_eq_some_iff hk).1 hds, hk⟩, rfl⟩
  · rintro ⟨k, ⟨ds, hds, hk⟩, rfl⟩
    exact ⟨ds, (digits?_eq_some_iff hk).2 hds, k, hk, rfl⟩

theorem isDigit_of_digitValue? {c : Char} {v : Nat} (h : digitValue? c = some v) (hv : v < 10) :
    isDigit c = true := by
  unfold digitValue? at h
  split at h
  · assumption
  · rename_i hc
    -- letters have values from ten on
    split at h
    · rename_i hletter
      cases h
      simp only [Bool.and_eq_true, decide_eq_true_eq, Char.le_def, UInt32.le_iff_toNat_le] at hletter
      have : 97 ≤ c.toNat := hletter.1
      omega
    · split at h
      · rename_i hletter
        cases h
        simp only [Bool.and_eq_true, decide_eq_true_eq, Char.le_def, UInt32.le_iff_toNat_le] at hletter
        have : 65 ≤ c.toNat := hletter.1
        omega
      · cases h

theorem isDigit_of_hasDigits {ds : List Char} {n : Nat} (h : HasDigits 10 ds n) :
    ∀ c ∈ ds, isDigit c = true := by
  intro c hc
  obtain ⟨v, hv, hlt⟩ := h.exists_value hc
  exact isDigit_of_digitValue? hv hlt

theorem wholeDigits?_eq_some_iff {cs ds : List Char} {n : Nat} (h : HasDigits 10 ds n) :
    wholeDigits? cs = some ds ↔ Grouped cs ds ∧ (ds.head? = some '0' → ds = ['0']) := by
  have hzero : (!(ds.length > 1 && ds.head? = some '0')) = true ↔
      (ds.head? = some '0' → ds = ['0']) := by
    cases ds with
    | nil => simp
    | cons c rest => cases rest <;> simp
  simp only [wholeDigits?, Option.bind_eq_bind, Option.bind_eq_some_iff,
    Option.ite_none_right_eq_some, Option.some.injEq, Bool.and_eq_true]
  constructor
  · rintro ⟨ds, hds, ⟨-, hfirst⟩, rfl⟩
    exact ⟨(digits?_eq_some_iff h).1 hds, hzero.1 hfirst⟩
  · rintro ⟨hds, hfirst⟩
    have hall := List.all_eq_true.2 (isDigit_of_hasDigits h)
    exact ⟨ds, (digits?_eq_some_iff h).2 hds, ⟨hall, hzero.2 hfirst⟩, rfl⟩

theorem whole_iff {cs : List Char} {n : Nat} :
    Whole cs n ↔ ∃ ds, wholeDigits? cs = some ds ∧ natOfDigits? 10 ds = some n := by
  constructor
  · rintro ⟨ds, hds, hn, hfirst⟩
    exact ⟨ds, (wholeDigits?_eq_some_iff hn).2 ⟨hds, hfirst⟩, natOfDigits?_eq_some_iff.2 hn⟩
  · rintro ⟨ds, hds, hn⟩
    have hn := natOfDigits?_eq_some_iff.1 hn
    obtain ⟨hds, hfirst⟩ := (wholeDigits?_eq_some_iff hn).1 hds
    exact ⟨ds, hds, hn, hfirst⟩

/-! ## Integers -/

theorem Whole.mem {cs : List Char} {n : Nat} (h : Whole cs n) {c : Char} (hc : c ∈ cs) :
    c = '_' ∨ isDigit c = true := by
  obtain ⟨ds, hds, hn, -⟩ := h
  exact (hds.mem hc).imp_right (isDigit_of_hasDigits hn c)

/-- A number in decimal digits starts with no sign. -/
theorem Whole.splitSign_eq {cs : List Char} {n : Nat} (h : Whole cs n) : splitSign cs = (false, cs) := by
  unfold splitSign
  split
  · exact absurd (h.mem (List.mem_cons_self ..)) (by decide)
  · exact absurd (h.mem (List.mem_cons_self ..)) (by decide)
  · rfl

/-- What has the mark of a base is written in that base. -/
theorem writtenInteger_based_iff {mark : Char} (base : Nat) (hmark : (mark, base) ∈ baseMarks)
    {cs : List Char} {n : Int} :
    WrittenInteger ('0' :: mark :: cs) n ↔ ∃ k : Nat, Numeral base cs k ∧ n = k := by
  have hmarks : ∀ b ∈ baseMarks, b.1 ≠ '_' ∧ isDigit b.1 = false ∧
      ∀ b' ∈ baseMarks, b.1 = b'.1 → b = b' := by decide
  obtain ⟨hunderscore, hdigit, hunique⟩ := hmarks _ hmark
  constructor
  · intro h
    cases h with
    | unsigned h =>
      -- a mark is no decimal digit
      rcases h.mem (List.mem_cons_of_mem _ (List.mem_cons_self ..)) with hc | hc
      · exact absurd hc hunderscore
      · rw [hdigit] at hc
        cases hc
    | based hmark' h =>
      cases hunique _ hmark' rfl
      exact ⟨_, h, rfl⟩
  · rintro ⟨k, hk, rfl⟩
    exact .based hmark hk

/-- What has no such mark is written in decimal digits, perhaps with a sign. -/
theorem writtenInteger_signed_iff {cs : List Char} {n : Int}
    (hmark : ∀ mark ∈ baseMarks.map Prod.fst, ∀ rest, cs ≠ '0' :: mark :: rest) :
    WrittenInteger cs n ↔
      ∃ k : Nat, Whole (splitSign cs).2 k ∧ n = signed (splitSign cs).1 k := by
  constructor
  · intro h
    cases h with
    | unsigned h =>
      rw [h.splitSign_eq]
      exact ⟨_, h, rfl⟩
    | plus h => exact ⟨_, h, rfl⟩
    | minus h => exact ⟨_, h, rfl⟩
    | based hb h => exact absurd rfl (hmark _ (List.mem_map_of_mem hb) _)
  · rintro ⟨k, hk, rfl⟩
    unfold splitSign at hk ⊢
    split at hk
    · exact .minus hk
    · exact .plus hk
    · exact .unsigned hk

/-- An integer is read exactly where one is written, and it is the one that is written. -/
theorem integer?_eq_some_iff {cs : List Char} {n : Int} :
    integer? cs = some n ↔ WrittenInteger cs n := by
  unfold integer?
  split
  · rw [based?_eq_some_iff, writtenInteger_based_iff 16 (by decide)]
  · rw [based?_eq_some_iff, writtenInteger_based_iff 8 (by decide)]
  · rw [based?_eq_some_iff, writtenInteger_based_iff 2 (by decide)]
  · rename_i hx ho hb
    have hmark : ∀ mark ∈ baseMarks.map Prod.fst, ∀ rest, cs ≠ '0' :: mark :: rest := by
      simpa [baseMarks] using ⟨hx, ho, hb⟩
    rw [writtenInteger_signed_iff hmark]
    simp only [whole_iff, Option.bind_eq_bind, Option.bind_eq_some_iff, Option.some.injEq]
    constructor
    · rintro ⟨ds, hds, k, hk, rfl⟩
      exact ⟨k, ⟨ds, hds, hk⟩, rfl⟩
    · rintro ⟨k, ⟨ds, hds, hk⟩, rfl⟩
      exact ⟨ds, hds, k, hk, rfl⟩

/-- A bare value is an integer exactly if it is written as one. -/
theorem Scalar.read_eq_integer_iff {raw : String} {n : Int} :
    Scalar.read raw = some (.integer n) ↔ WrittenInteger raw.toList n := by
  rw [← integer?_eq_some_iff]
  have hwords : integer? "true".toList = none ∧ integer? "false".toList = none := by decide
  unfold Scalar.read
  split
  · rename_i h
    rw [h, hwords.1]
    simp
  · split
    · rename_i h
      rw [h, hwords.2]
      simp
    · dsimp only
      split
      · rename_i k hk
        rw [hk]
        simp
      · rename_i hnone
        rw [hnone]
        -- a float, a date or nothing
        split <;> simp

/-! ## Decimal texts -/

/-- The decimal digits of a number stand for it. -/
theorem hasDigits_toDigits (n : Nat) : HasDigits 10 (Nat.toDigits 10 n) n := by
  have hvalue : ∀ v < 10, digitValue? (Nat.digitChar v) = some v := by decide
  -- the last digit is split off
  induction n using Nat.strongRecOn with
  | ind n ih =>
    by_cases hn : n < 10
    · rw [Nat.toDigits_of_lt_base hn]
      exact ⟨[n], by simp [hvalue n hn], by simpa using hn, by simp⟩
    · have hten : 10 ≤ n := Nat.le_of_not_lt hn
      have hlast : n % 10 < 10 := Nat.mod_lt _ (by decide)
      have hrest := ih (n / 10) (Nat.div_lt_self (by omega) (by decide))
      rw [Nat.toDigits_of_base_le (by decide) hten, hasDigits_append_singleton]
      exact ⟨n / 10, n % 10, hrest, hvalue _ hlast, hlast, (Nat.div_add_mod' n 10).symm⟩

/-- Only zero has decimal digits that start with a zero. -/
theorem eq_zero_of_head?_toDigits {n : Nat} (h : (Nat.toDigits 10 n).head? = some '0') : n = 0 := by
  have hzero : ∀ v < 10, Nat.digitChar v = '0' → v = 0 := by decide
  induction n using Nat.strongRecOn with
  | ind n ih =>
    by_cases hn : n < 10
    · rw [Nat.toDigits_of_lt_base hn] at h
      exact hzero n hn (Option.some.inj h)
    · have hten : 10 ≤ n := Nat.le_of_not_lt hn
      rw [Nat.toDigits_of_base_le (by decide) hten] at h
      -- there are digits before the last one, and they start with the same one
      have hrest := ih (n / 10) (Nat.div_lt_self (by omega) (by decide)) ?_
      · omega
      · obtain ⟨c, rest, hcons⟩ :=
          List.exists_cons_of_ne_nil (Nat.toDigits_ne_nil (n := n / 10) (b := 10))
        rw [hcons] at h ⊢
        exact h

theorem whole_repr (n : Nat) : Whole n.repr.toList n := by
  rw [Nat.toList_repr]
  refine ⟨_, grouped_self Nat.toDigits_ne_nil, hasDigits_toDigits n, fun h => ?_⟩
  rw [eq_zero_of_head?_toDigits h]
  rfl

/-- The decimal text of an integer is written as that integer. -/
theorem writtenInteger_toString (n : Int) : WrittenInteger (toString n).toList n := by
  cases n with
  | ofNat k => exact .unsigned (whole_repr k)
  | negSucc k =>
    rw [Int.toString_eq_repr, Int.repr, String.toList_append]
    exact .minus (whole_repr (k + 1))

/-- What is written as an integer stands for one only. -/
theorem WrittenInteger.unique {cs : List Char} {n n' : Int} (h : WrittenInteger cs n)
    (h' : WrittenInteger cs n') : n = n' :=
  Option.some.inj ((integer?_eq_some_iff.2 h).symm.trans (integer?_eq_some_iff.2 h'))

/-- It starts with a digit, an underscore or a sign. -/
theorem WrittenInteger.head {cs : List Char} {n : Int} (h : WrittenInteger cs n) {c : Char}
    (hc : cs.head? = some c) : c ∈ ['+', '-', '_'] ∨ isDigit c = true := by
  cases h with
  | unsigned h =>
    refine (h.mem (List.mem_of_head? hc)).imp_left ?_
    rintro rfl
    decide
  | plus h =>
    cases hc
    exact .inl (by decide)
  | minus h =>
    cases hc
    exact .inl (by decide)
  | based hmark h =>
    cases hc
    exact .inr rfl

end Toml

end Interconnect
