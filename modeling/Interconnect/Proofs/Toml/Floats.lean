/-
How floats are written out. The text of a float in digits is a sign, a whole part without leading zeros,
and then a fraction, a power of ten or both; it is read as the decimal with these digits, and so as the
float itself. Where the point is put does not matter.
-/
import Interconnect.Proofs.Number.Shortest
import Interconnect.Proofs.Toml.Integers
import Interconnect.Toml.Mismatch

namespace Interconnect

/-! ## Digits -/

namespace Decimal

theorem ofDigits_reverse_append (base : ℕ) (us us' : List ℕ) :
    Nat.ofDigits base (us ++ us').reverse =
      Nat.ofDigits base us.reverse * base ^ us'.length + Nat.ofDigits base us'.reverse := by
  rw [List.reverse_append, Nat.ofDigits_append, List.length_reverse, Nat.add_comm, Nat.mul_comm]

theorem hasDigits_append {base : ℕ} {ds ds' : List Char} {n : ℕ} :
    HasDigits base (ds ++ ds') n ↔ ∃ a b, HasDigits base ds a ∧ HasDigits base ds' b ∧
      n = a * base ^ ds'.length + b := by
  constructor
  · rintro ⟨vs, hvs, hbelow, rfl⟩
    rw [List.map_append] at hvs
    obtain ⟨us, us', rfl, hus, hus'⟩ := List.append_eq_map_iff.1 hvs
    obtain ⟨hbelow, hbelow'⟩ := List.forall_mem_append.1 hbelow
    have hlength : us'.length = ds'.length := by simpa using congrArg List.length hus'
    refine ⟨_, _, ⟨us, hus.symm, hbelow, rfl⟩, ⟨us', hus'.symm, hbelow', rfl⟩, ?_⟩
    rw [ofDigits_reverse_append, hlength]
  · rintro ⟨_, _, ⟨us, hus, hbelow, rfl⟩, ⟨us', hus', hbelow', rfl⟩, rfl⟩
    have hlength : us'.length = ds'.length := by simpa using congrArg List.length hus'.symm
    refine ⟨us ++ us', by simp [hus, hus'], List.forall_mem_append.2 ⟨hbelow, hbelow'⟩, ?_⟩
    rw [ofDigits_reverse_append, hlength]

theorem hasDigits_zeros (n : ℕ) : HasDigits 10 (List.replicate n '0') 0 := by
  refine ⟨List.replicate n 0, by simp [show digitValue? '0' = some 0 by decide], ?_, ?_⟩
  · intro v hv
    rw [(List.mem_replicate.1 hv).2]
    decide
  · simp

end Decimal

namespace Toml

open Decimal

/-- A float in digits as it is written out: a whole part, a fraction, and a power of ten if there is one. -/
structure FloatParts where
  whole : List Char
  fraction : List Char
  power : Option ℤ

namespace FloatParts

/-- The fraction with its point, unless it is empty. -/
def pointed : List Char → List Char
  | [] => []
  | ds => '.' :: ds

theorem pointed_of_ne_nil {ds : List Char} (h : ds ≠ []) : pointed ds = '.' :: ds := by
  obtain ⟨d, rest, rfl⟩ := List.exists_cons_of_ne_nil h
  rfl

theorem mem_pointed {ds : List Char} {c : Char} (h : c ∈ pointed ds) : c = '.' ∨ c ∈ ds := by
  cases ds with
  | nil => cases h
  | cons d rest => exact List.mem_cons.1 h

/-- The power of ten with its mark, if there is one. -/
def marked : Option ℤ → List Char
  | none => []
  | some power => 'e' :: (toString power).toList

def signChars (negative : Bool) : List Char := if negative then ['-'] else []

def tail (x : FloatParts) : List Char := pointed x.fraction ++ marked x.power

def chars (x : FloatParts) (negative : Bool) : List Char := signChars negative ++ (x.whole ++ x.tail)

/-- The parts stand for `n · 10 ^ k`, and they are parts of a float and not of an integer. -/
structure StandsFor (x : FloatParts) (n : ℕ) (k : ℤ) : Prop where
  digits : HasDigits 10 (x.whole ++ x.fraction) n
  whole_ne_nil : x.whole ≠ []
  leading : x.whole.head? = some '0' → x.whole = ['0']
  tail_ne_nil : x.tail ≠ []
  exponent : k = x.power.getD 0 - x.fraction.length

/-! ## Reading -/

theorem digits?_self {ds : List Char} {n : ℕ} (h : HasDigits 10 ds n) (hne : ds ≠ []) :
    digits? ds = some ds := (digits?_eq_some_iff h).2 (grouped_self hne)

theorem fractionDigits?_self {ds : List Char} {n : ℕ} (h : HasDigits 10 ds n) (hne : ds ≠ []) :
    fractionDigits? ds = some ds := by
  have hall := List.all_eq_true.2 (isDigit_of_hasDigits h)
  unfold fractionDigits?
  rw [digits?_self h hne]
  exact if_pos hall

theorem exponent?_mark (k : ℤ) : exponent? ('e' :: (toString k).toList) = some k := by
  have hdigits : ∀ n, fractionDigits? (Nat.toDigits 10 n) = some (Nat.toDigits 10 n) ∧
      natOfDigits? 10 (Nat.toDigits 10 n) = some n := fun n =>
    ⟨fractionDigits?_self (hasDigits_toDigits n) Nat.toDigits_ne_nil,
      natOfDigits?_eq_some_iff.2 (hasDigits_toDigits n)⟩
  cases k with
  | ofNat n =>
    have htext : (toString (Int.ofNat n)).toList = Nat.toDigits 10 n := Nat.toList_repr
    have hsign : splitSign (Nat.toDigits 10 n) = (false, Nat.toDigits 10 n) := by
      rw [← Nat.toList_repr]
      exact (whole_repr n).splitSign_eq
    simp only [htext, exponent?, hsign, (hdigits n).1, (hdigits n).2, Option.bind_eq_bind,
      Option.bind_some]
    rfl
  | negSucc n =>
    have htext : (toString (Int.negSucc n)).toList = '-' :: Nat.toDigits 10 (n + 1) := by
      rw [Int.toString_eq_repr, Int.repr, String.toList_append, Nat.toList_repr]
      rfl
    simp only [htext, exponent?, splitSign, (hdigits (n + 1)).1, (hdigits (n + 1)).2, Option.bind_eq_bind,
      Option.bind_some]
    rfl

theorem exponent?_marked (power : Option ℤ) : exponent? (marked power) = some (power.getD 0) := by
  cases power with
  | none => rfl
  | some k => exact exponent?_mark k

variable {x : FloatParts} {n : ℕ} {k : ℤ}

namespace StandsFor

theorem isDigit_whole (h : x.StandsFor n k) : ∀ c ∈ x.whole, isDigit c = true :=
  fun c hc => isDigit_of_hasDigits h.digits c (List.mem_append_left _ hc)

theorem isDigit_fraction (h : x.StandsFor n k) : ∀ c ∈ x.fraction, isDigit c = true :=
  fun c hc => isDigit_of_hasDigits h.digits c (List.mem_append_right _ hc)

/-- The whole part starts with a digit. -/
theorem exists_whole (h : x.StandsFor n k) : ∃ c rest, x.whole = c :: rest ∧ isDigit c = true := by
  obtain ⟨c, rest, hwhole⟩ := List.exists_cons_of_ne_nil h.whole_ne_nil
  exact ⟨c, rest, hwhole, h.isDigit_whole c (hwhole ▸ List.mem_cons_self ..)⟩

/-- What is behind the whole part starts with a point or a mark. -/
theorem exists_tail (h : x.StandsFor n k) : ∃ c rest, x.tail = c :: rest ∧ (c = '.' ∨ c = 'e') := by
  obtain ⟨whole, fraction, power⟩ := x
  cases fraction with
  | cons d rest => exact ⟨'.', _, rfl, .inl rfl⟩
  | nil =>
    cases power with
    | some k => exact ⟨'e', _, rfl, .inr rfl⟩
    | none => exact absurd rfl h.tail_ne_nil

theorem exists_chars (h : x.StandsFor n k) (negative : Bool) :
    ∃ c rest, x.chars negative = c :: rest ∧ (c = '-' ∨ isDigit c = true) := by
  obtain ⟨c, rest, hwhole, hdigit⟩ := h.exists_whole
  cases negative with
  | true => exact ⟨'-', _, rfl, .inl rfl⟩
  | false =>
    refine ⟨c, rest ++ x.tail, ?_, .inr hdigit⟩
    rw [chars, hwhole]
    rfl

theorem splitSign_chars (h : x.StandsFor n k) (negative : Bool) :
    splitSign (x.chars negative) = (negative, x.whole ++ x.tail) := by
  obtain ⟨c, rest, hwhole, hdigit⟩ := h.exists_whole
  cases negative with
  | true => rfl
  | false =>
    show splitSign (x.whole ++ x.tail) = _
    rw [hwhole, List.cons_append]
    unfold splitSign
    split
    · rename_i heq
      cases heq
      cases hdigit
    · rename_i heq
      cases heq
      cases hdigit
    · rfl

/-- The power of ten is what is left from the first mark on. -/
theorem cut_mark (h : x.StandsFor n k) :
    (x.whole ++ x.tail).takeWhile (fun c => !(decide (c = 'e') || decide (c = 'E'))) =
        x.whole ++ pointed x.fraction ∧
      (x.whole ++ x.tail).dropWhile (fun c => !(decide (c = 'e') || decide (c = 'E'))) =
        marked x.power := by
  have hmark : ∀ c ∈ x.whole ++ pointed x.fraction, (!(decide (c = 'e') || decide (c = 'E'))) = true := by
    have hdigit : ∀ c, isDigit c = true → (!(decide (c = 'e') || decide (c = 'E'))) = true := by
      intro c hc
      rw [Bool.not_eq_true', ← Bool.decide_or, decide_eq_false_iff_not]
      rintro (rfl | rfl) <;> cases hc
    intro c hc
    rcases List.mem_append.1 hc with hc | hc
    · exact hdigit c (h.isDigit_whole c hc)
    · rcases mem_pointed hc with rfl | hc
      · decide
      · exact hdigit c (h.isDigit_fraction c hc)
  rw [tail, ← List.append_assoc, List.takeWhile_append_of_pos hmark, List.dropWhile_append_of_pos hmark]
  cases x.power <;> exact ⟨List.append_nil _, rfl⟩

/-- The fraction is what is left from the first point on. -/
theorem cut_point (h : x.StandsFor n k) :
    (x.whole ++ pointed x.fraction).takeWhile (fun c => decide (c ≠ '.')) = x.whole ∧
      (x.whole ++ pointed x.fraction).dropWhile (fun c => decide (c ≠ '.')) = pointed x.fraction := by
  have hpoint : ∀ c ∈ x.whole, decide (c ≠ '.') = true := by
    intro c hc
    refine decide_eq_true ?_
    rintro rfl
    cases h.isDigit_whole _ hc
  rw [List.takeWhile_append_of_pos hpoint, List.dropWhile_append_of_pos hpoint]
  cases x.fraction <;> exact ⟨List.append_nil _, rfl⟩

/-- The characters are read as a decimal, and it is the one that the parts stand for. -/
theorem decimal?_chars (h : x.StandsFor n k) (negative : Bool) :
    decimal? (x.chars negative) = some ⟨negative, n, k⟩ := by
  obtain ⟨a, b, ha, hb, -⟩ := hasDigits_append.1 h.digits
  have hwhole : wholeDigits? x.whole = some x.whole :=
    (wholeDigits?_eq_some_iff ha).2 ⟨grouped_self h.whole_ne_nil, h.leading⟩
  have hn := natOfDigits?_eq_some_iff.2 h.digits
  unfold decimal?
  rw [h.splitSign_chars negative]
  simp only [h.cut_mark, h.cut_point, hwhole, exponent?_marked, Option.bind_eq_bind, Option.bind_some,
    h.exponent]
  cases hf : x.fraction with
  | nil =>
    have hpower : ¬ (marked x.power).isEmpty = true := by
      have htail := h.tail_ne_nil
      rw [tail, hf] at htail
      exact mt List.isEmpty_iff.1 htail
    rw [hf] at hn
    simp only [pointed, hpower, hn]
    rfl
  | cons d ds =>
    rw [hf] at hn hb
    simp only [pointed, fractionDigits?_self hb (List.cons_ne_nil _ _), Option.bind_some, hn]

/-- No integer is written with a point or a power of ten. -/
theorem integer?_chars (h : x.StandsFor n k) (negative : Bool) :
    integer? (x.chars negative) = none := by
  obtain ⟨c, rest, hwhole, -⟩ := h.exists_whole
  obtain ⟨t, after, htail, ht⟩ := h.exists_tail
  have hmem : t ∈ x.chars negative := by
    simp [chars, htail]
  have hplain : t ≠ '-' ∧ t ≠ '_' ∧ isDigit t = false ∧ t ∉ baseMarks.map Prod.fst := by
    rcases ht with rfl | rfl <;> decide
  refine Option.eq_none_iff_forall_ne_some.2 fun n' hread => ?_
  have hwritten := integer?_eq_some_iff.1 hread
  generalize hcs : x.chars negative = cs at hmem hwritten
  have hno : ∀ {cs' : List Char} {n' : ℕ}, Whole cs' n' → t ∉ cs' := by
    intro cs' n' hw htmem
    rcases hw.mem htmem with h | h
    · exact hplain.2.1 h
    · rw [hplain.2.2.1] at h
      cases h
  cases hwritten with
  | unsigned hw => exact hno hw hmem
  | plus hw =>
    obtain ⟨c, rest, hchars, hc⟩ := h.exists_chars negative
    cases hchars.symm.trans hcs
    exact absurd hc (by decide)
  | minus hw => exact hno hw ((List.mem_cons.1 hmem).resolve_left hplain.1)
  | @based mark base hb cs' n' hn =>
    cases negative with
    | true => cases hcs
    | false =>
      -- a whole part that starts with a zero is over, and no mark of a base follows it
      have hcs : x.whole ++ x.tail = '0' :: mark :: cs' := hcs
      rw [hwhole, htail] at hcs
      obtain ⟨rfl, hrest⟩ := List.cons.inj hcs
      have hzero := h.leading (by rw [hwhole]; rfl)
      rw [hwhole] at hzero
      rw [(List.cons.inj hzero).2] at hrest
      exact hplain.2.2.2 ((List.cons.inj hrest).1 ▸ List.mem_map_of_mem hb)

theorem float?_chars (h : x.StandsFor n k) (negative : Bool) :
    float? (x.chars negative) = some (.decimal ⟨negative, n, k⟩) := by
  obtain ⟨c, rest, hwhole, hdigit⟩ := h.exists_whole
  have hword : ∀ c' rest', isDigit c' = false → x.whole ++ x.tail ≠ c' :: rest' := by
    intro c' rest' hc' heq
    rw [hwhole, List.cons_append] at heq
    rw [(List.cons.inj heq).1, hc'] at hdigit
    cases hdigit
  unfold float?
  rw [h.splitSign_chars negative]
  dsimp only
  rw [if_neg (hword _ _ (by decide)), if_neg (hword _ _ (by decide)), h.decimal?_chars]
  rfl

theorem read_chars (h : x.StandsFor n k) (negative : Bool) {raw : String}
    (hraw : raw.toList = x.chars negative) :
    Scalar.read raw = some (.float (.decimal ⟨negative, n, k⟩)) := by
  -- it starts with a digit or a sign, and so it is no word
  have hword : raw ≠ "true" ∧ raw ≠ "false" := by
    obtain ⟨c, rest, hchars, hc⟩ := h.exists_chars negative
    rw [hchars] at hraw
    constructor
    · rintro rfl
      cases hraw
      exact absurd hc (by decide)
    · rintro rfl
      cases hraw
      exact absurd hc (by decide)
  unfold Scalar.read
  rw [if_neg hword.1, if_neg hword.2, hraw, h.integer?_chars, h.float?_chars]

end StandsFor

end FloatParts

end Toml

/-! ## Writing -/

namespace FloatLayout

open Decimal Toml FloatParts

/-- What has a point between digits stands for its digits, and the fraction says for which power of ten. -/
theorem exists_standsFor_point {whole fraction : List Char} {n : ℕ}
    (hn : HasDigits 10 (whole ++ fraction) n) (hwhole : whole ≠ [])
    (hlead : whole.head? = some '0' → whole = ['0']) (hfraction : fraction ≠ []) :
    ∃ x : FloatParts, x.StandsFor n (-fraction.length) ∧
      whole ++ '.' :: fraction = x.whole ++ x.tail := by
  have htail : FloatParts.tail ⟨whole, fraction, none⟩ = '.' :: fraction := by
    rw [FloatParts.tail, pointed_of_ne_nil hfraction]
    exact List.append_nil _
  refine ⟨⟨whole, fraction, none⟩, ⟨hn, hwhole, hlead, ?_, (zero_sub _).symm⟩, ?_⟩
  · rw [htail]
    exact List.cons_ne_nil _ _
  · rw [htail]

section

variable {ds : List Char} {n : ℕ} (hn : HasDigits 10 ds n) (hne : ds ≠ []) (hhead : ds.head? ≠ some '0')

include hn hne hhead

/-- Wherever the point is put, the digits keep their value. -/
theorem exists_standsFor_positional (point : ℤ) : ∃ (x : FloatParts) (m : ℕ) (k : ℤ), x.StandsFor m k ∧
    (positional ds point).toList = x.whole ++ x.tail ∧
    (m : ℚ) * 10 ^ k = n * 10 ^ (point - ds.length) := by
  unfold positional zeros
  split
  · rename_i hpoint
    obtain ⟨z, rfl⟩ : ∃ z : ℕ, point = -z := ⟨(-point).toNat, by omega⟩
    have hdigits : HasDigits 10 (['0'] ++ (List.replicate z '0' ++ ds)) n :=
      hasDigits_append.2 ⟨0, n, hasDigits_zeros 1,
        hasDigits_append.2 ⟨0, n, hasDigits_zeros z, hn, by simp⟩, by simp⟩
    obtain ⟨x, hx, htext⟩ := exists_standsFor_point hdigits (List.cons_ne_nil _ _) (fun _ => rfl)
      (List.append_ne_nil_of_right_ne_nil _ hne)
    refine ⟨x, _, _, hx, ?_, ?_⟩
    · rw [← htext]
      simp
    · rw [List.length_append, List.length_replicate, Nat.cast_add, neg_add, sub_eq_add_neg]
  · rename_i hpoint
    obtain ⟨t, rfl⟩ := Int.eq_ofNat_of_zero_le (Int.le_of_lt (Int.not_le.1 hpoint))
    rw [Int.toNat_natCast]
    split
    · rename_i hlength
      obtain ⟨j, rfl⟩ := Nat.exists_eq_add_of_le hlength
      have hdigits : HasDigits 10 (ds ++ List.replicate j '0' ++ ['0']) (n * 10 ^ (j + 1)) :=
        hasDigits_append.2 ⟨n * 10 ^ j, 0, hasDigits_append.2 ⟨n, 0, hn, hasDigits_zeros j, by simp⟩,
          hasDigits_zeros 1, by simp [pow_succ, mul_assoc]⟩
      have hlead : (ds ++ List.replicate j '0').head? = some '0' →
          ds ++ List.replicate j '0' = ['0'] := by
        rw [List.head?_append_of_ne_nil _ hne]
        exact fun h => absurd h hhead
      obtain ⟨x, hx, htext⟩ := exists_standsFor_point hdigits (List.append_ne_nil_of_left_ne_nil hne _)
        hlead (List.cons_ne_nil _ _)
      refine ⟨x, _, _, hx, ?_, ?_⟩
      · rw [← htext]
        simp
      · rw [Nat.cast_add, add_sub_cancel_left, zpow_natCast, List.length_singleton, Nat.cast_one, zpow_neg_one]
        push_cast
        ring
    · rename_i hlength
      have hbetween : 0 < t ∧ t < ds.length := by omega
      have hwhole : ds.take t ≠ [] := by simp [hne]; omega
      have hlead : (ds.take t).head? = some '0' → ds.take t = ['0'] := by
        rw [List.head?_take, if_neg hbetween.1.ne']
        exact fun h => absurd h hhead
      obtain ⟨x, hx, htext⟩ := exists_standsFor_point (by rwa [List.take_append_drop]) hwhole hlead
        (mt List.drop_eq_nil_iff.1 (Nat.not_le.2 hbetween.2))
      refine ⟨x, _, _, hx, ?_, ?_⟩
      · rw [← htext]
        simp
      · rw [List.length_drop, Nat.cast_sub hbetween.2.le, neg_sub]

/-- Digits with a power of ten keep their value, too. -/
theorem exists_standsFor_exponential (power : ℤ) : ∃ x : FloatParts,
    x.StandsFor n (power - (ds.length - 1 : ℕ)) ∧
      (exponential ds power).toList = x.whole ++ x.tail := by
  obtain ⟨d, rest, rfl⟩ := List.exists_cons_of_ne_nil hne
  refine ⟨⟨[d], rest, some power⟩, ⟨hn, List.cons_ne_nil _ _, fun h => absurd h hhead, ?_, by simp⟩, ?_⟩
  · simp [FloatParts.tail, marked]
  · cases rest <;> simp [exponential, FloatParts.tail, pointed, marked]

end

variable (layout : FloatLayout) (negative : Bool)

/-- Zero is read as zero, and its sign is kept. -/
theorem read_zero : ∃ t, Scalar.read (layout.text (.zero negative)) = some (.float t) ∧
    t.value? = some (.zero negative) := by
  have htext : layout.text (.zero negative) = (if negative then "-" else "") ++ "0.0" := rfl
  rw [htext]
  refine ⟨.decimal ⟨negative, 0, -1⟩, ?_, ?_⟩ <;> cases negative <;> decide +kernel

theorem read_infinity : ∃ t, Scalar.read (layout.text (.infinity negative)) = some (.float t) ∧
    t.value? = some (.infinity negative) := by
  have htext : layout.text (.infinity negative) = if negative then "-inf" else "inf" := rfl
  rw [htext]
  exact ⟨.infinity negative, by cases negative <;> decide +kernel, rfl⟩

variable {m : ℕ} {e : ℤ} (hm : 0 < m) (form : Binary64.Representable m e)

include hm

/-- In either layout the digits of the shortest decimal are written, with its value. -/
theorem exists_standsFor_text : ∃ (x : FloatParts) (n : ℕ) (k : ℤ), x.StandsFor n k ∧
    (layout.text (.finite negative m e form)).toList = x.chars negative ∧
    (n : ℚ) * 10 ^ k = (Shortest.decimal m e).1 * 10 ^ (Shortest.decimal m e).2 := by
  have hpos := Shortest.decimal_pos hm form
  simp only [text, if_neg hm.ne']
  generalize Shortest.decimal m e = found at hpos ⊢
  obtain ⟨c, p⟩ := found
  have hhead : (Nat.toDigits 10 c).head? ≠ some '0' :=
    fun h => hpos.ne' (eq_zero_of_head?_toDigits h)
  have hlength : 0 < (Nat.toDigits 10 c).length := List.length_pos_of_ne_nil Nat.toDigits_ne_nil
  have hsign : (if negative = true then "-" else "").toList = signChars negative := by
    cases negative <;> rfl
  rw [String.toList_append, hsign]
  split
  · obtain ⟨x, n, k, hx, hchars, hvalue⟩ := exists_standsFor_positional (hasDigits_toDigits c)
      Nat.toDigits_ne_nil hhead (p + (Nat.toDigits 10 c).length - 1 + 1)
    refine ⟨x, n, k, hx, congrArg _ hchars, hvalue.trans ?_⟩
    congr 2
    ring
  · obtain ⟨x, hx, hchars⟩ := exists_standsFor_exponential (hasDigits_toDigits c)
      Nat.toDigits_ne_nil hhead (p + (Nat.toDigits 10 c).length - 1)
    refine ⟨x, _, _, hx, congrArg _ hchars, ?_⟩
    congr 2
    omega

/-- The digits of a number other than zero are read as that number. -/
theorem read_finite : ∃ t, Scalar.read (layout.text (.finite negative m e form)) = some (.float t) ∧
    t.value? = some (.finite negative m e form) := by
  obtain ⟨x, n, k, hx, hchars, hvalue⟩ := layout.exists_standsFor_text negative hm form
  refine ⟨_, hx.read_chars negative hchars, ?_⟩
  have hof : Binary64.ofDecimal ⟨negative, n, k⟩ = .finite negative m e form := by
    refine Binary64.ofDecimal_eq hm form ?_
    rw [Decimal.value, hvalue]
    exact Shortest.roundsTo_decimal hm form
  rw [FloatText.value?, hof]

omit hm

/-- Every number is read from its text, whatever the layout is. -/
theorem read_text {x : Binary64} (hx : x ≠ .nan) :
    ∃ t, Scalar.read (layout.text x) = some (.float t) ∧ t.value? = some x := by
  cases x with
  | nan => exact absurd rfl hx
  | infinity negative => exact layout.read_infinity negative
  | finite negative m e form =>
    rcases Nat.eq_zero_or_pos m with rfl | hm
    · have he : e = Binary64.minExponent := form.full.resolve_left (by decide)
      cases he
      exact layout.read_zero negative
    · exact layout.read_finite negative hm form

end FloatLayout

end Interconnect
