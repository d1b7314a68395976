/-!
# Words with explicit limits

Addresses, lengths, timestamps and counters are 64-bit words. Sums and products
that may leave the words are taken in the naturals first: a checked operation
then has no result, and a capped one stops at the greatest word. No operation of
this module wraps around.
-/

namespace Footprint.Word

/-- The word that holds the natural number `n`, if there is one. -/
def ofNat? (n : Nat) : Option UInt64 :=
  if n < UInt64.size then some (UInt64.ofNat n) else none

/-- The word nearest to the natural number `n`. -/
def capped (n : Nat) : UInt64 :=
  UInt64.ofNat (min n (UInt64.size - 1))

/-- The exact sum of two words, if it is a word. -/
def add? (a b : UInt64) : Option UInt64 :=
  ofNat? (a.toNat + b.toNat)

/-- The exact product of two words, if it is a word. -/
def mul? (a b : UInt64) : Option UInt64 :=
  ofNat? (a.toNat * b.toNat)

/-- The sum of two words, or the greatest word if the sum is larger. -/
def addCapped (a b : UInt64) : UInt64 :=
  capped (a.toNat + b.toNat)

/-- The product of two words, or the greatest word if the product is larger. -/
def mulCapped (a b : UInt64) : UInt64 :=
  capped (a.toNat * b.toNat)

/-- A word is found exactly for its own value. -/
theorem ofNat?_eq_some_iff {n : Nat} {w : UInt64} : ofNat? n = some w ↔ w.toNat = n := by
  unfold ofNat?
  split
  · rename_i h
    constructor
    · intro he
      rw [← Option.some.inj he, UInt64.toNat_ofNat_of_lt' h]
    · intro he
      rw [← he, UInt64.ofNat_toNat]
  · rename_i h
    constructor
    · intro he
      exact nomatch he
    · intro he
      exact absurd (he ▸ w.toNat_lt_size) h

/-- There is no word exactly for the numbers beyond the greatest word. -/
theorem ofNat?_eq_none_iff {n : Nat} : ofNat? n = none ↔ UInt64.size ≤ n := by
  simp only [ofNat?, ite_eq_right_iff, reduceCtorEq, imp_false, Nat.not_lt]

/-- A capped number is the smaller of the number and the greatest word. -/
theorem toNat_capped (n : Nat) : (capped n).toNat = min n (UInt64.size - 1) :=
  UInt64.toNat_ofNat_of_lt' (by simp only [UInt64.size]; omega)

/-- A checked sum is the sum of the naturals. -/
theorem add?_eq_some_iff {a b c : UInt64} :
    add? a b = some c ↔ c.toNat = a.toNat + b.toNat :=
  ofNat?_eq_some_iff

/-- A checked product is the product of the naturals. -/
theorem mul?_eq_some_iff {a b c : UInt64} :
    mul? a b = some c ↔ c.toNat = a.toNat * b.toNat :=
  ofNat?_eq_some_iff

end Footprint.Word
