import Agenda.Text.Width

/-!
Digits, ASCII letters and the like take one column each.
-/

namespace Agenda.Width

/-- The characters that ASCII can print. -/
def IsPrintable (c : Char) : Prop := 0x20 ≤ c.toNat ∧ c.toNat ≤ 0x7E

instance (c : Char) : Decidable (IsPrintable c) := inferInstanceAs (Decidable (_ ∧ _))

theorem IsPrintable.ne {c d : Char} (h : IsPrintable c) (hd : d.toNat < 0x20) : c ≠ d := by
  rintro rfl
  exact Nat.not_lt.2 h.1 hd

theorem not_mem_of_isPrintable {cs : List Char} (h : ∀ c ∈ cs, IsPrintable c) {d : Char}
    (hd : d.toNat < 0x20) : d ∉ cs :=
  fun hmem => (h d hmem).ne hd rfl

theorem add_of_isPrintable {c : Char} (h : IsPrintable c) : add c .none = (1, .none) := by
  have hle : c.toNat ≤ 0xA0 := Nat.le_trans h.2 (by decide)
  have hfree : add c .none = addFree c .other := rfl
  rw [hfree, addFree, if_pos hle, if_neg (h.ne (by decide)), if_neg]
  exact fun hreturn => h.ne (by decide) hreturn.1

theorem measure_cons (c : Char) (cs : List Char) :
    measure (c :: cs) = ((add c (measure cs).2).1 + (measure cs).1, (add c (measure cs).2).2) := rfl

theorem measure_of_isPrintable {cs : List Char} (h : ∀ c ∈ cs, IsPrintable c) :
    measure cs = ((cs.length : Int), Ahead.none) := by
  induction cs with
  | nil => rfl
  | cons c cs ih =>
      rw [List.forall_mem_cons] at h
      rw [measure_cons, ih h.2, add_of_isPrintable h.1, List.length_cons, Int.natCast_add,
        Int.natCast_one, Int.add_comm]

theorem width_of_isPrintable {cs : List Char} (h : ∀ c ∈ cs, IsPrintable c) :
    width cs = cs.length := by
  rw [width, measure_of_isPrintable h, Int.toNat_natCast]

end Agenda.Width
