import EntityStore.Value
import Mathlib.Tactic.Linarith
import Mathlib.Tactic.Ring

/-!
# Whole numbers as doubles

The double nearest to a whole number, by where the whole number lies among the powers of two. The
exponent is known from the binary length alone, and the mantissa is a quotient rounded to the
nearest; a number is too large for every double exactly from half way between the greatest double
and the next power of two on (`isFinite_round_iff`).
-/

set_option autoImplicit false

namespace EntityStore

theorem scaleDown_natCast (n d k : Nat) : scaleDown n d k = (n, d * 2 ^ k) := by
  rw [scaleDown, if_neg (Int.natCast_nonneg k).not_gt, Int.toNat_natCast, Nat.pow_eq]

theorem floorLog2_one {n : Nat} (hn : n ≠ 0) : floorLog2 n 1 = n.log2 := by
  have hle : 2 ^ n.log2 ≤ n := Nat.log2_self_le hn
  have hguess : (n.log2 : Int) - (Nat.log2 1 : Int) = n.log2 := by
    rw [show Nat.log2 1 = 0 by decide]
    exact Int.sub_zero _
  simp only [floorLog2, hguess, scaleDown_natCast, Nat.one_mul, if_pos hle]

/-- A quotient is rounded to one of the whole numbers next to it. -/
theorem nearestEven_le (n d : Nat) : n / d ≤ nearestEven n d ∧ nearestEven n d ≤ n / d + 1 := by
  simp only [nearestEven]
  split
  · omega
  split
  · omega
  split <;> omega

namespace Format

/-- The double nearest to a count with a binary length of at least fifty-three. -/
theorem round_of_log2 (negative : Bool) {n k : Nat} (hn : n ≠ 0) (hk : n.log2 = 52 + k) :
    Format.double.round negative n 1
      = let m := nearestEven n (2 ^ k)
        let (m, e) := if m = 2 ^ 53 then (2 ^ 52, (k : Int) + 1) else (m, (k : Int))
        if 971 < e then .infinity negative else .finite negative m e := by
  have he : max (-1074) ((n.log2 : Int) - 52) = k := by omega
  simp only [round, if_neg hn, floorLog2_one hn, Format.double, Nat.pow_eq]
  norm_num only at he ⊢
  rw [he, scaleDown_natCast, Nat.one_mul]

theorem isFinite_ite {c : Prop} [Decidable c] (negative : Bool) (m : Nat) (e : Int) :
    (if c then Double.infinity negative else .finite negative m e).isFinite = true ↔ ¬ c := by
  split <;> simp [Double.isFinite, *]

/-- It is finite if it is shorter than the greatest double, or as long and with a mantissa that is
not rounded up to the next power of two. -/
theorem isFinite_round_of_log2 (negative : Bool) {n k : Nat} (hn : n ≠ 0) (hk : n.log2 = 52 + k) :
    (Format.double.round negative n 1).isFinite = true
      ↔ k < 971 ∨ k = 971 ∧ nearestEven n (2 ^ k) ≠ 2 ^ 53 := by
  rw [round_of_log2 negative hn hk, isFinite_ite]
  by_cases hm : nearestEven n (2 ^ k) = 2 ^ 53
  · simp only [hm, if_true]
    omega
  · simp only [hm, if_false]
    omega

/-- What is shorter than fifty-three bits has a finite one, too. -/
theorem isFinite_round_of_log2_lt (negative : Bool) {n : Nat} (hlog : n.log2 < 52) :
    (Format.double.round negative n 1).isFinite = true := by
  by_cases hn : n = 0
  · rw [round, if_pos hn]
    rfl
  have hgreatest : Format.double.greatest = 971 := rfl
  have he : max Format.double.least ((n.log2 : Int) - ((Format.double.bits : Int) - 1)) ≤ 970 := by
    simp only [Format.double]
    omega
  simp only [round, if_neg hn, floorLog2_one hn]
  split
  · rw [if_neg (by omega)]
    rfl
  · rw [if_neg (by omega)]
    rfl

/-- A quotient by an even number that is just below a power of two is rounded up from the middle
on. -/
theorem nearestEven_eq_iff {n half q : Nat} (hhalf : 0 < half) (hq : q % 2 = 0)
    (hn : n < 2 * half * q) : nearestEven n (2 * half) = q ↔ 2 * half * q ≤ n + half := by
  have hmod := Nat.div_add_mod n (2 * half)
  have hlt := Nat.mod_lt n (show 0 < 2 * half by omega)
  have hquot : n / (2 * half) < q := Nat.div_lt_of_lt_mul hn
  -- Only from the whole number just below `q` can anything be rounded up to it.
  obtain hlast | hbelow : n / (2 * half) + 1 = q ∨ n / (2 * half) + 1 < q := by omega
  · have hexpand : 2 * half * q = 2 * half * (n / (2 * half)) + 2 * half := by
      rw [← hlast]
      ring
    simp only [nearestEven]
    split
    · omega
    split
    · omega
    · rw [if_neg (by omega)]
      omega
  · have hnear := (nearestEven_le n (2 * half)).2
    have hexpand : 2 * half * (n / (2 * half) + 2) ≤ 2 * half * q :=
      Nat.mul_le_mul_left _ (by omega)
    rw [Nat.mul_add] at hexpand
    omega

theorem add_lt_two_pow {n g : Nat} (h : n < 2 ^ (g + 53)) : n + 2 ^ g < 2 ^ (g + 54) := by
  have hhalf : 2 ^ g ≤ 2 ^ (g + 53) := Nat.pow_le_pow_right (by decide) (by omega)
  have hgreat : 2 ^ (g + 54) = 2 ^ (g + 53) * 2 := pow_succ 2 (g + 53)
  omega

/-- Whether the double nearest to a count is finite depends on its size alone. The last binary place
of the greatest double is `2 ^ (g + 1)`. -/
theorem isFinite_round_iff_lt (negative : Bool) (n : Nat) {g : Nat} (hg : g = 970) :
    (Format.double.round negative n 1).isFinite = true ↔ n + 2 ^ g < 2 ^ (g + 54) := by
  have hhalf : 0 < 2 ^ g := Nat.two_pow_pos g
  have hunit : 2 ^ (g + 1) = 2 * 2 ^ g := Nat.pow_succ'
  have hgreat : 2 ^ (g + 54) = 2 ^ 54 * 2 ^ g := by rw [Nat.pow_add, Nat.mul_comm]
  obtain hshort | ⟨k, hk⟩ : n.log2 < 52 ∨ ∃ k, n.log2 = 52 + k := by
    by_cases h : n.log2 < 52
    · exact .inl h
    · exact .inr ⟨n.log2 - 52, by omega⟩
  · have hle : 2 ^ (n.log2 + 1) ≤ 2 ^ (g + 53) := Nat.pow_le_pow_right (by decide) (by omega)
    exact iff_of_true (isFinite_round_of_log2_lt negative hshort)
      (add_lt_two_pow (Nat.lt_of_lt_of_le Nat.lt_log2_self hle))
  have hn : n ≠ 0 := by
    rintro rfl
    rw [Nat.log2_zero] at hk
    omega
  have hlow : 2 ^ n.log2 ≤ n := Nat.log2_self_le hn
  have hhigh : n < 2 ^ (n.log2 + 1) := Nat.lt_log2_self
  rw [hk] at hlow hhigh
  rw [isFinite_round_of_log2 negative hn hk]
  -- The binary length decides, unless it is that of the greatest double.
  obtain hlt | heq | hlt := Nat.lt_trichotomy k (g + 1)
  · have hle : 2 ^ (52 + k + 1) ≤ 2 ^ (g + 53) := Nat.pow_le_pow_right (by decide) (by omega)
    exact iff_of_true (.inl (by omega)) (add_lt_two_pow (Nat.lt_of_lt_of_le hhigh hle))
  · subst heq
    have hround := nearestEven_eq_iff (n := n) (q := 2 ^ 53) hhalf (by decide) (by
      rw [show 52 + (g + 1) + 1 = g + 54 by omega] at hhigh
      omega)
    rw [hunit, ne_eq, hround]
    omega
  · have hle : 2 ^ (g + 54) ≤ 2 ^ (52 + k) := Nat.pow_le_pow_right (by decide) (by omega)
    exact iff_of_false (by omega) (by omega)

/-- A word of 64 bits has a finite double next to it. -/
theorem lt_of_le_maxNat64 {n : Nat} (h : n ≤ Numeral.maxNat64) : n + 2 ^ 970 < 2 ^ 1024 := by
  have hsmall (g : Nat) (hg : 11 ≤ g) : n < 2 ^ (g + 53) := by
    have hle : 2 ^ 64 ≤ 2 ^ (g + 53) := Nat.pow_le_pow_right (by decide) (by omega)
    rw [Numeral.maxNat64] at h
    omega
  rw [show 1024 = 970 + 54 from rfl]
  exact add_lt_two_pow (hsmall 970 (by decide))

theorem isFinite_round_iff (negative : Bool) (n : Nat) :
    (Format.double.round negative n 1).isFinite = true ↔ n + 2 ^ 970 < 2 ^ 1024 := by
  rw [isFinite_round_iff_lt negative n rfl]

/-- What is rounded keeps its sign, and is a number or too large for one. -/
theorem round_cases (f : Format) (negative : Bool) (num den : Nat) :
    f.round negative num den = .infinity negative
      ∨ ∃ m e, f.round negative num den = .finite negative m e := by
  rw [round]
  split
  · exact .inr ⟨_, _, rfl⟩
  simp only
  split <;> split
  · exact .inl rfl
  · exact .inr ⟨_, _, rfl⟩
  · exact .inl rfl
  · exact .inr ⟨_, _, rfl⟩

theorem round_eq_infinity_iff (negative : Bool) (n : Nat) :
    Format.double.round negative n 1 = .infinity negative ↔ 2 ^ 1024 ≤ n + 2 ^ 970 := by
  rw [← Nat.not_lt, ← isFinite_round_iff negative n]
  obtain h | ⟨m, e, h⟩ := round_cases Format.double negative n 1 <;>
    rw [h] <;> simp [Double.isFinite]

end Format

namespace Double

/-- Digits that write a count are read as the double nearest to it, however many they are. -/
theorem ofDecimal_zero (negative : Bool) {n : Nat} (hn : n ≠ 0) :
    ofDecimal .double negative n 0 = Format.double.round negative n 1 := by
  have hscale : n * Nat.pow 10 (0 : Int).toNat = n := Nat.mul_one n
  have hsize (j k : Nat) (hk : 0 < k) (hj : j ≤ 3 * k) (h : k < (Nat.toDigits 10 n).length) :
      2 ^ j ≤ n := by
    have hten : 10 ^ k ≤ n := by
      rw [← Nat.not_lt, ← Nat.length_toDigits_le_iff (by decide) hk]
      omega
    calc 2 ^ j ≤ 2 ^ (3 * k) := Nat.pow_le_pow_right (by decide) hj
      _ = (2 ^ 3) ^ k := Nat.pow_mul 2 3 k
      _ ≤ 10 ^ k := Nat.pow_le_pow_left (by decide) k
      _ ≤ n := hten
  rw [ofDecimal, if_neg hn, Int.add_zero, hscale]
  by_cases hlong : (400 : Int) < (Nat.toDigits 10 n).length
  · have hgreat := hsize 1024 400 (by decide) (by decide) (by omega)
    rw [if_pos hlong, (Format.round_eq_infinity_iff negative n).mpr (Nat.le_add_right_of_le hgreat)]
  · rw [if_neg hlong, if_neg (by omega)]
    rfl

end Double

end EntityStore
