import NeonDiff.Lib.Fields
import Mathlib.Data.Nat.Log
import Mathlib.Data.Nat.Find

/-!
# Whole numbers in a binary64

A double holds 53 significant bits. From 2^53 on a whole number is rounded to the nearest multiple of a power of two,
a tie to the even one, and from 2^1024 on it is infinite.
-/

namespace NeonDiff.Lib.Binary64

/-! ## Rounding -/

/-- The multiple of `unit` that is nearest to `v`, of two the even one. -/
def nearestMultiple (unit v : Nat) : Nat :=
  if 2 * (v % unit) < unit ∨ (2 * (v % unit) = unit ∧ v / unit % 2 = 0) then v / unit * unit else (v / unit + 1) * unit

/-- What the last of 53 significant bits stands for. -/
def ulp (v : Nat) : Nat := 2 ^ (Nat.log 2 v - 52)

def rounded (v : Nat) : Nat := nearestMultiple (ulp v) v

theorem ulp_pos (v : Nat) : 0 < ulp v := Nat.pow_pos (by omega)

theorem nearestMultiple_lower (unit v : Nat) : v / unit * unit ≤ nearestMultiple unit v := by
  unfold nearestMultiple
  split
  · exact Nat.le_refl _
  · exact Nat.mul_le_mul_right unit (Nat.le_succ _)

theorem nearestMultiple_upper (unit v : Nat) : nearestMultiple unit v ≤ (v / unit + 1) * unit := by
  unfold nearestMultiple
  split
  · exact Nat.mul_le_mul_right unit (Nat.le_succ _)
  · exact Nat.le_refl _

theorem nearestMultiple_of_dvd {unit v : Nat} (hunit : 0 < unit) (h : unit ∣ v) : nearestMultiple unit v = v := by
  have hmod : v % unit = 0 := Nat.mod_eq_zero_of_dvd h
  unfold nearestMultiple
  rw [if_pos (by omega), Nat.div_mul_cancel h]

theorem dvd_nearestMultiple (unit v : Nat) : unit ∣ nearestMultiple unit v := by
  unfold nearestMultiple
  split
  · exact Nat.dvd_mul_left _ _
  · exact Nat.dvd_mul_left _ _

theorem nearestMultiple_mono {unit v w : Nat} (h : v ≤ w) : nearestMultiple unit v ≤ nearestMultiple unit w := by
  rcases Nat.lt_or_eq_of_le (Nat.div_le_div_right (c := unit) h) with hlt | heq
  · calc nearestMultiple unit v ≤ (v / unit + 1) * unit := nearestMultiple_upper unit v
      _ ≤ w / unit * unit := Nat.mul_le_mul_right unit hlt
      _ ≤ nearestMultiple unit w := nearestMultiple_lower unit w
  · -- in front of the same multiple the remainders are in order
    have hmod : v % unit ≤ w % unit := by
      have hv := Nat.div_add_mod v unit
      have hw := Nat.div_add_mod w unit
      rw [heq] at hv
      omega
    unfold nearestMultiple
    rw [heq]
    split
    · split
      · exact Nat.le_refl _
      · exact Nat.mul_le_mul_right unit (Nat.le_succ _)
    · rw [if_neg (by omega)]

theorem ulp_dvd_pow {v e : Nat} (h : Nat.log 2 v ≤ e) : ulp v ∣ 2 ^ e := Nat.pow_dvd_pow 2 (by omega)

theorem pow_le_rounded {v : Nat} (hv : v ≠ 0) : 2 ^ Nat.log 2 v ≤ rounded v := by
  rw [rounded, ← nearestMultiple_of_dvd (ulp_pos v) (ulp_dvd_pow (Nat.le_refl _))]
  exact nearestMultiple_mono (Nat.pow_log_le_self 2 hv)

theorem rounded_le_pow (v : Nat) : rounded v ≤ 2 ^ (Nat.log 2 v + 1) := by
  rw [rounded, ← nearestMultiple_of_dvd (ulp_pos v) (ulp_dvd_pow (Nat.le_succ _))]
  exact nearestMultiple_mono (Nat.lt_pow_succ_log_self Nat.one_lt_two v).le

theorem rounded_mono {v w : Nat} (h : v ≤ w) : rounded v ≤ rounded w := by
  rcases Nat.lt_or_eq_of_le (Nat.log_mono_right (b := 2) h) with hlt | heq
  · have hw : w ≠ 0 := by
      rintro rfl
      simp at hlt
    calc rounded v ≤ 2 ^ (Nat.log 2 v + 1) := rounded_le_pow v
      _ ≤ 2 ^ Nat.log 2 w := Nat.pow_le_pow_right (by omega) hlt
      _ ≤ rounded w := pow_le_rounded hw
  · unfold rounded ulp
    rw [heq]
    exact nearestMultiple_mono h

theorem rounded_zero : rounded 0 = 0 := by decide

theorem rounded_of_lt {v : Nat} (h : v < 2 ^ 53) : rounded v = v := by
  have hlog : Nat.log 2 v < 53 := Nat.log_lt_of_lt_pow' (by omega) h
  have hulp : ulp v = 1 := by
    rw [ulp, Nat.sub_eq_zero_of_le (by omega), Nat.pow_zero]
  rw [rounded, hulp]
  exact nearestMultiple_of_dvd Nat.one_pos (Nat.one_dvd v)

theorem rounded_rounded (v : Nat) : rounded (rounded v) = rounded v := by
  apply nearestMultiple_of_dvd (ulp_pos _)
  by_cases hv : v = 0
  · rw [hv, rounded_zero]
    exact Nat.dvd_zero _
  · rcases Nat.lt_or_eq_of_le (rounded_le_pow v) with hlt | heq
    · have hlog : Nat.log 2 (rounded v) = Nat.log 2 v :=
        Nat.log_eq_of_pow_le_of_lt_pow (pow_le_rounded hv) hlt
      rw [ulp, hlog]
      exact dvd_nearestMultiple (ulp v) v
    · -- rounded up to the next power of two, which fewer bits hold
      rw [heq]
      exact ulp_dvd_pow (Nat.log_pow Nat.one_lt_two _).le

/-! ## Values -/

/-- A whole number that a double holds. -/
def Held : Type := { n : Nat // rounded n = n ∧ Nat.log 2 n < 1024 }

instance Held.instDecidableEq : DecidableEq Held := inferInstanceAs (DecidableEq (Subtype _))

instance Held.instRepr : Repr Held := inferInstanceAs (Repr (Subtype _))

/-- A double that is neither negative nor a fraction. -/
inductive Whole where
  | finite (n : Held)
  | infinite
  deriving DecidableEq, Repr

namespace Whole

def ofNat (v : Nat) : Whole :=
  if h : Nat.log 2 (rounded v) < 1024 then .finite ⟨rounded v, rounded_rounded v, h⟩ else .infinite

instance instOfNat (n : Nat) : OfNat Whole n := ⟨ofNat n⟩

def isInteger : Whole → Bool
  | finite _ => true
  | infinite => false

@[simp]
theorem isInteger_eq_false {w : Whole} : w.isInteger = false ↔ w = infinite := by
  cases w with
  | finite n => simp [isInteger]
  | infinite => simp [isInteger]

theorem ofNat_eq_finite {v : Nat} {n : Held} : ofNat v = finite n ↔ rounded v = n.1 := by
  unfold ofNat
  constructor
  · intro h
    split at h
    · exact congrArg Subtype.val (Whole.finite.inj h)
    · cases h
  · intro h
    rw [dif_pos (by rw [h]; exact n.2.2)]
    exact congrArg finite (Subtype.ext h)

theorem finite_eq_zero {n : Held} : finite n = 0 ↔ n.1 = 0 := by
  constructor
  · intro h
    have hround : rounded 0 = n.1 := ofNat_eq_finite.mp h.symm
    rw [← hround, rounded_zero]
  · intro h
    have hround : rounded 0 = n.1 := by rw [h, rounded_zero]
    exact (ofNat_eq_finite.mpr hround).symm

end Whole

/-! ## Printing -/

/-- The two multiples of 10^p around `n`, the nearer one first. -/
def candidates (p n : Nat) : List Nat :=
  let down := n / 10 ^ p * 10 ^ p
  let up := down + 10 ^ p
  if nearestMultiple (10 ^ p) n = down then [down, up] else [up, down]

/-- A number with `p` zeros at its end that is read as `n`. -/
def roundDecimal (p n : Nat) : Option Nat := (candidates p n).find? fun v => rounded v = n

/-- The decimal with the fewest digits that is read as `n`, of these the nearest. -/
def shortest (n : Nat) : Nat :=
  (roundDecimal (Nat.findGreatest (fun p => (roundDecimal p n).isSome = true) (Nat.log 2 n)) n).getD n

def Whole.text : Whole → List Char
  | finite n => JsText.numberText (shortest n.1)
  | infinite => "Infinity".toList

theorem Whole.text_finite (n : Held) : (finite n).text = JsText.numberText (shortest n.1) := rfl

theorem rounded_shortest {n : Nat} (h : rounded n = n) : rounded (shortest n) = n := by
  unfold shortest
  cases hdecimal : roundDecimal (Nat.findGreatest (fun p => (roundDecimal p n).isSome = true) (Nat.log 2 n)) n with
  | none => exact h
  | some v => exact of_decide_eq_true (List.find?_some (p := fun v => decide (rounded v = n)) hdecimal)

theorem rounded_pow_ten : rounded (10 ^ 21) = 10 ^ 21 := by decide +kernel

theorem rounded_pred_pow_ten : rounded (10 ^ 21 - 1) = 10 ^ 21 := by decide +kernel

theorem shortest_pow_ten : shortest (10 ^ 21) = 10 ^ 21 := by decide +kernel

theorem shortest_lt_iff {n : Nat} (h : rounded n = n) : shortest n < 10 ^ 21 ↔ n < 10 ^ 21 := by
  constructor
  · intro hlt
    by_contra hge
    -- only 10^21 itself could be read from less, and it prints as it is
    have hle : rounded (shortest n) ≤ rounded (10 ^ 21 - 1) := rounded_mono (by omega)
    rw [rounded_pred_pow_ten, rounded_shortest h] at hle
    have heq : n = 10 ^ 21 := by omega
    rw [heq, shortest_pow_ten] at hlt
    omega
  · intro hlt
    by_contra hge
    have hle : rounded (10 ^ 21) ≤ rounded (shortest n) := rounded_mono (by omega)
    rw [rounded_pow_ten, rounded_shortest h] at hle
    omega

example : Whole.ofNat (2 ^ 53 + 1) = Whole.ofNat (2 ^ 53) := by decide

end NeonDiff.Lib.Binary64
