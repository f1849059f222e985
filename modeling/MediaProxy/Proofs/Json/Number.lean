import MediaProxy.Json.Number
import MediaProxy.Proofs.Json.Lexeme

/-!
This module contains the values of numbers that are given by digits alone. They are read exactly as long
as they fit 64 bits, and no other number is read as a natural one.
-/

namespace MediaProxy.Json

/-!
## Reading
-/

section
variable {ds : List Nat} {n : Nat}

theorem foldl_eq_ofDigits (n : Nat) (ds : List Nat)
    : ds.foldl (fun n d => n * 10 + d) n = n * 10 ^ ds.length + Nat.ofDigits 10 ds.reverse := by
  induction ds generalizing n with
  | nil => simp
  | cons d ds ih =>
    rw [List.foldl_cons, ih, List.reverse_cons, Nat.ofDigits_append, Nat.ofDigits_singleton,
      List.length_reverse, List.length_cons]
    ring

theorem le_foldl (n : Nat) (ds : List Nat) : n ≤ ds.foldl (fun n d => n * 10 + d) n := by
  induction ds generalizing n with
  | nil => exact Nat.le_refl n
  | cons d ds ih =>
    have := ih (n * 10 + d)
    rw [List.foldl_cons]
    omega

theorem pushWhole_of_lt (h : ds.foldl (fun n d => n * 10 + d) n < UInt64.size)
    : Numeral.pushWhole n ds = (ds.foldl (fun n d => n * 10 + d) n, 0) := by
  induction ds generalizing n with
  | nil => rfl
  | cons d ds ih =>
    rw [List.foldl_cons] at h
    have hfits := Nat.lt_of_le_of_lt (le_foldl (n * 10 + d) ds) h
    unfold Numeral.pushWhole Numeral.push?
    rw [if_pos hfits]
    exact ih h

theorem pushWhole_of_le (hn : n < UInt64.size)
    (h : UInt64.size ≤ ds.foldl (fun n d => n * 10 + d) n) : (Numeral.pushWhole n ds).2 ≠ 0 := by
  induction ds generalizing n with
  | nil => exact absurd h (Nat.not_le.2 hn)
  | cons d ds ih =>
    unfold Numeral.pushWhole Numeral.push?
    by_cases hfits : n * 10 + d < UInt64.size
    . rw [if_pos hfits]
      exact ih hfits h
    . rw [if_neg hfits]
      exact Nat.succ_ne_zero _

theorem pushWhole_eq_iff {ds : List Nat}
    : Numeral.pushWhole 0 ds = (n, 0) ↔ Nat.ofDigits 10 ds.reverse = n ∧ n < UInt64.size := by
  have hvalue := foldl_eq_ofDigits 0 ds
  rw [Nat.zero_mul, Nat.zero_add] at hvalue
  constructor
  . intro h
    by_cases hlt : ds.foldl (fun n d => n * 10 + d) 0 < UInt64.size
    . rw [pushWhole_of_lt hlt] at h
      cases h
      exact ⟨hvalue.symm, hlt⟩
    . exact absurd (congrArg Prod.snd h) (pushWhole_of_le (by decide) (Nat.not_lt.1 hlt))
  . rintro ⟨rfl, hlt⟩
    rw [← hvalue] at hlt ⊢
    exact pushWhole_of_lt hlt

end

theorem Numeral.number_eq_natural_iff {numeral : Numeral} {n : Nat}
    : numeral.number = .ok (.natural n) ↔
        numeral.negative = false ∧ numeral.fraction = none ∧ numeral.exponent = none ∧
          pushWhole 0 numeral.whole = (n, 0) := by
  obtain ⟨negative, whole, fraction, exponent⟩ := numeral
  unfold number
  split
  rename_i m left hpush
  dsimp only at hpush ⊢
  rw [hpush]
  split
  . rename_i hdigits
    obtain ⟨hfraction, hexponent, rfl⟩ := hdigits
    rw [Option.isNone_iff_eq_none] at hfraction hexponent
    subst hfraction hexponent
    cases negative with
    | false => simp
    | true =>
      simp only [Bool.not_true, Bool.false_eq_true, if_false, false_and, iff_false, Bool.true_eq_false]
      split <;> nofun
  . rename_i hdigits
    constructor
    . intro h
      split at h <;> cases h
    . rintro ⟨-, rfl, rfl, hleft⟩
      cases hleft
      exact absurd ⟨rfl, rfl, rfl⟩ hdigits

theorem Literal.number_numeral_eq_natural_iff {literal : Literal} {n : Nat}
    : literal.numeral.number = .ok (.natural n) ↔
        literal.natural? = some n ∧ n < UInt64.size := by
  rw [Numeral.number_eq_natural_iff]
  unfold Literal.natural? Literal.numeral Whole.value
  simp only [Option.map_eq_none_iff, pushWhole_eq_iff, List.map_reverse]
  split
  . rename_i hdigits
    simp [hdigits]
  . rename_i hdigits
    simp only [reduceCtorEq, false_and, iff_false]
    rintro ⟨hnegative, hfraction, hexponent, -⟩
    exact hdigits ⟨hnegative, hfraction, hexponent⟩

end MediaProxy.Json
