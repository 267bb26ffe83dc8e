import Agenda.Text.Numeral
import Mathlib.Algebra.Group.Nat.Defs

/-!
A written number is read back, and a row of digits is the written form of its value with leading
zeros.
-/

namespace Agenda.Numeral

theorem value_eq_ofDigitChars (cs : List Char) : value cs = Nat.ofDigitChars 10 cs 0 := rfl

@[simp] theorem value_digits (n : Nat) : value (digits n) = n :=
  Nat.ofDigitChars_ten_toDigits

theorem isDigit_of_mem_digits {n : Nat} {c : Char} (h : c ∈ digits n) : c.isDigit :=
  Nat.isDigit_of_mem_toDigits (by decide) (by decide) h

theorem digits_ne_nil (n : Nat) : digits n ≠ [] := Nat.toDigits_ne_nil

/-- Reading further digits never makes a number smaller. -/
theorem le_ofDigitChars (cs : List Char) (n : Nat) : n ≤ Nat.ofDigitChars 10 cs n := by
  induction cs generalizing n with
  | nil => exact Nat.le_refl n
  | cons c cs ih =>
      rw [Nat.ofDigitChars_cons]
      have := ih (10 * n + (c.toNat - '0'.toNat))
      omega

theorem readOn_of_isDigit {max : Nat} {cs : List Char} {n : Nat} (hcs : ∀ c ∈ cs, c.isDigit)
    (hmax : Nat.ofDigitChars 10 cs n ≤ max) :
    readOn max n cs = .ok (Nat.ofDigitChars 10 cs n) := by
  induction cs generalizing n with
  | nil => rw [readOn, Nat.ofDigitChars_nil]
  | cons c cs ih =>
      rw [Nat.ofDigitChars_cons] at hmax ⊢
      have hstep : 10 * n + digit c ≤ max := Nat.le_trans (le_ofDigitChars cs _) hmax
      rw [readOn, if_pos (hcs c List.mem_cons_self), if_pos hstep]
      exact ih (fun d hd => hcs d (List.mem_cons_of_mem _ hd)) hmax

theorem readOn_eq_ok {max m : Nat} {cs : List Char} {n : Nat} (h : readOn max n cs = .ok m) :
    m = Nat.ofDigitChars 10 cs n := by
  induction cs generalizing n with
  | nil =>
      cases h
      rfl
  | cons c cs ih =>
      rw [readOn] at h
      split at h
      · split at h
        · exact ih h
        · cases h
      · cases h

/-- Reading on never passes the limit. -/
theorem readOn_le {max m : Nat} {cs : List Char} {n : Nat} (hn : n ≤ max)
    (h : readOn max n cs = .ok m) : m ≤ max := by
  induction cs generalizing n with
  | nil =>
      cases h
      exact hn
  | cons c cs ih =>
      rw [readOn] at h
      split at h
      · split at h
        · rename_i hle
          exact ih hle h
        · cases h
      · cases h

theorem natural_le {max m : Nat} {cs : List Char} (h : natural max cs = .ok m) : m ≤ max := by
  rw [natural.eq_def] at h
  split at h
  · cases h
  · cases h
  · exact readOn_le (Nat.zero_le max) h
  · exact readOn_le (Nat.zero_le max) h

theorem natural_eq_readOn {max : Nat} {cs : List Char} (hne : cs ≠ []) (hcs : ∀ c ∈ cs, c.isDigit) :
    natural max cs = readOn max 0 cs := by
  cases cs with
  | nil => exact absurd rfl hne
  | cons c cs =>
      have hplus : c ≠ '+' := by
        rintro rfl
        exact absurd (hcs '+' List.mem_cons_self) (by decide)
      rw [natural]
      · exact List.cons_ne_nil _ _
      · rintro ⟨⟩
        exact hplus rfl
      · rintro _ ⟨⟩
        exact hplus rfl

theorem natural_digits_eq (max n : Nat) : natural max (digits n) = readOn max 0 (digits n) :=
  natural_eq_readOn (digits_ne_nil n) fun _ hc => isDigit_of_mem_digits hc

theorem natural_digits {max n : Nat} (h : n ≤ max) : natural max (digits n) = .ok n := by
  have hvalue : Nat.ofDigitChars 10 (digits n) 0 = n := value_digits n
  rw [natural_digits_eq, readOn_of_isDigit (fun c hc => isDigit_of_mem_digits hc) (by rwa [hvalue]),
    hvalue]

theorem eq_of_natural_digits {max m n : Nat} (h : natural max (digits n) = .ok m) : m = n := by
  rw [natural_digits_eq] at h
  exact (readOn_eq_ok h).trans (value_digits n)

theorem length_digits_le {n k : Nat} (hk : 0 < k) (h : n < 10 ^ k) : (digits n).length ≤ k :=
  (Nat.length_toDigits_le_iff (by decide) hk).2 h

/-! Numbers of a fixed width. -/

theorem toList_padded (width n : Nat) :
    (padded width n).toList = List.replicate (width - (digits n).length) '0' ++ digits n :=
  String.toList_ofList

theorem length_padded {width n : Nat} (hwidth : 0 < width) (h : n < 10 ^ width) :
    (padded width n).toList.length = width := by
  have := length_digits_le hwidth h
  rw [toList_padded, List.length_append, List.length_replicate]
  omega

theorem length_padded_le {width n k : Nat} (hwidth : width ≤ k) (hk : 0 < k) (h : n < 10 ^ k) :
    (padded width n).toList.length ≤ k := by
  have := length_digits_le hk h
  rw [toList_padded, List.length_append, List.length_replicate]
  omega

theorem value_padded (width n : Nat) : value (padded width n).toList = n := by
  rw [toList_padded, value_eq_ofDigitChars, Nat.ofDigitChars_append,
    Nat.ofDigitChars_replicate_zero, Nat.mul_zero, ← value_eq_ofDigitChars, value_digits]

theorem isDigit_of_mem_padded {width n : Nat} {c : Char} (h : c ∈ (padded width n).toList) :
    c.isDigit := by
  rw [toList_padded, List.mem_append] at h
  obtain h | h := h
  · rw [List.eq_of_mem_replicate h]
    decide
  · exact isDigit_of_mem_digits h

theorem digit_lt {c : Char} (h : c.isDigit) : c.toNat - '0'.toNat < 10 := by
  have hzero : '0'.toNat = 48 := rfl
  have hnine : '9'.toNat = 57 := rfl
  have hc := Char.isDigit_iff_toNat.1 h
  omega

theorem eq_of_digit_eq {c d : Char} (hc : c.isDigit) (hd : d.isDigit)
    (h : c.toNat - '0'.toNat = d.toNat - '0'.toNat) : c = d := by
  have hc := Char.isDigit_iff_toNat.1 hc
  have hd := Char.isDigit_iff_toNat.1 hd
  apply Char.toNat_inj.1
  omega

theorem ofDigitChars_lt {cs : List Char} (hcs : ∀ c ∈ cs, c.isDigit) (n : Nat) :
    Nat.ofDigitChars 10 cs n < 10 ^ cs.length * (n + 1) := by
  induction cs generalizing n with
  | nil => rw [Nat.ofDigitChars_nil, List.length_nil, Nat.pow_zero]; omega
  | cons c cs ih =>
      have hc := digit_lt (hcs c List.mem_cons_self)
      have hrest := ih (fun d hd => hcs d (List.mem_cons_of_mem _ hd))
        (10 * n + (c.toNat - '0'.toNat))
      rw [Nat.ofDigitChars_cons, List.length_cons, Nat.pow_succ, Nat.mul_assoc]
      exact Nat.lt_of_lt_of_le hrest (Nat.mul_le_mul_left _ (by omega))

theorem value_lt {cs : List Char} (hcs : ∀ c ∈ cs, c.isDigit) : value cs < 10 ^ cs.length :=
  Nat.lt_of_lt_of_eq (ofDigitChars_lt hcs 0) (Nat.mul_one _)

theorem value_append (cs ds : List Char) :
    value (cs ++ ds) = value cs * 10 ^ ds.length + value ds := by
  simp only [value_eq_ofDigitChars]
  rw [Nat.ofDigitChars_append, Nat.ofDigitChars_eq_ofDigitChars_zero, Nat.mul_comm]

/-- Rows of digits of one length are told apart by what they add to a number. -/
theorem eq_of_ofDigitChars_eq {cs ds : List Char} (hcs : ∀ c ∈ cs, c.isDigit)
    (hds : ∀ d ∈ ds, d.isDigit) (hlen : cs.length = ds.length) {m n : Nat}
    (h : Nat.ofDigitChars 10 cs m = Nat.ofDigitChars 10 ds n) : m = n ∧ cs = ds := by
  induction cs generalizing ds m n with
  | nil =>
      cases List.length_eq_zero_iff.1 hlen.symm
      rw [Nat.ofDigitChars_nil, Nat.ofDigitChars_nil] at h
      exact ⟨h, rfl⟩
  | cons c cs ih =>
      cases ds with
      | nil => cases hlen
      | cons d ds =>
          have hc := hcs c List.mem_cons_self
          have hd := hds d List.mem_cons_self
          have hlc := digit_lt hc
          have hld := digit_lt hd
          rw [Nat.ofDigitChars_cons, Nat.ofDigitChars_cons] at h
          obtain ⟨hfront, rfl⟩ := ih (fun c hc => hcs c (List.mem_cons_of_mem _ hc))
            (fun d hd => hds d (List.mem_cons_of_mem _ hd)) (Nat.succ.inj hlen) h
          have hcd : c = d := eq_of_digit_eq hc hd (by omega)
          exact ⟨by omega, by rw [hcd]⟩

theorem value_cons (c : Char) (cs : List Char) :
    value (c :: cs) = digit c * 10 ^ cs.length + value cs := by
  have hdigit : value [c] = digit c := by
    rw [value, List.foldl_cons, List.foldl_nil, Nat.mul_zero, Nat.zero_add]
  rw [← List.singleton_append, value_append, hdigit]

theorem lt_iff_digit_lt {c d : Char} (hc : c.isDigit) (hd : d.isDigit) :
    c < d ↔ digit c < digit d := by
  have hc := Char.isDigit_iff_toNat.1 hc
  have hd := Char.isDigit_iff_toNat.1 hd
  have hlt : c < d ↔ c.toNat < d.toNat := Iff.rfl
  rw [hlt, digit, digit]
  omega

theorem mul_add_lt_mul_add {a b r p : Nat} (hab : a < b) (hr : r < p) (s : Nat) :
    a * p + r < b * p + s := by
  have hmul := Nat.mul_le_mul_right p (show a + 1 ≤ b from hab)
  rw [Nat.add_mul, Nat.one_mul] at hmul
  omega

/-- Rows of digits of one length stand in the order of their values. -/
theorem lt_iff_value_lt {cs ds : List Char} (hcs : ∀ c ∈ cs, c.isDigit)
    (hds : ∀ d ∈ ds, d.isDigit) (hlen : cs.length = ds.length) :
    cs < ds ↔ value cs < value ds := by
  induction cs generalizing ds with
  | nil =>
      cases List.length_eq_zero_iff.1 hlen.symm
      exact iff_of_false (List.lt_irrefl _) (Nat.lt_irrefl _)
  | cons c cs ih =>
      cases ds with
      | nil => cases hlen
      | cons d ds =>
          have hlen : cs.length = ds.length := Nat.succ.inj hlen
          rw [List.forall_mem_cons] at hcs hds
          have hltc : value cs < 10 ^ ds.length := hlen ▸ value_lt hcs.2
          have hltd := value_lt hds.2
          rw [List.cons_lt_cons_iff, ih hcs.2 hds.2 hlen, lt_iff_digit_lt hcs.1 hds.1, value_cons,
            value_cons, hlen]
          obtain hlt | heq | hgt := Nat.lt_trichotomy (digit c) (digit d)
          · exact iff_of_true (.inl hlt) (mul_add_lt_mul_add hlt hltc _)
          · rw [eq_of_digit_eq hcs.1 hds.1 heq]
            simp only [Nat.lt_irrefl, true_and, false_or, Nat.add_lt_add_iff_left]
          · refine iff_of_false ?_ (Nat.lt_asymm (mul_add_lt_mul_add hgt hltd _))
            rintro (hlt | ⟨rfl, _⟩)
            · exact Nat.lt_asymm hlt hgt
            · exact Nat.lt_irrefl _ hgt

/-- A row of digits is the written form of its value, filled up with zeros. -/
theorem padded_value {width : Nat} {cs : List Char} (hwidth : 0 < width)
    (hlen : cs.length = width) (hcs : ∀ c ∈ cs, c.isDigit) :
    padded width (value cs) = String.ofList cs := by
  have hlt : value cs < 10 ^ width := hlen ▸ value_lt hcs
  have hvalue : Nat.ofDigitChars 10 (padded width (value cs)).toList 0 =
      Nat.ofDigitChars 10 cs 0 := value_padded width (value cs)
  have hchars := eq_of_ofDigitChars_eq (fun c hc => isDigit_of_mem_padded hc) hcs
    ((length_padded hwidth hlt).trans hlen.symm) hvalue
  calc padded width (value cs) = String.ofList (padded width (value cs)).toList :=
        String.ofList_toList.symm
    _ = String.ofList cs := by rw [hchars.2]

end Agenda.Numeral
