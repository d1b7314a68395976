/-!
# Accesses

An access touches the addresses from its start up to, but not including, its
start plus its length. A request of length zero touches nothing and is no
access, so the length carries its positivity.
-/

namespace Footprint

/-- A non-empty stretch of addresses that a request touches. -/
structure Access where
  /-- The first touched address. -/
  start : UInt64
  /-- The number of touched addresses. -/
  length : UInt64
  /-- Every access touches an address. -/
  length_pos : 0 < length
  deriving DecidableEq

namespace Access

/-- The access of a request, unless the request is empty. -/
def ofRequest? (start length : UInt64) : Option Access :=
  if h : 0 < length then some ⟨start, length, h⟩ else none

/-- The address `n` is touched; the end of an access may lie beyond the words. -/
def Touches (a : Access) (n : Nat) : Prop :=
  a.start.toNat ≤ n ∧ n < a.start.toNat + a.length.toNat

/-- The units of an access cannot all be addressed. -/
structure Overflow where
  /-- The start of the access. -/
  start : UInt64
  /-- The length of the access. -/
  length : UInt64
  deriving DecidableEq, Repr

/-- The overflow in words. -/
def Overflow.message (o : Overflow) : String :=
  s!"access at {o.start} with length {o.length} overflows the address space"

/-- A request is empty exactly when its length is zero. -/
theorem ofRequest?_eq_none_iff {start length : UInt64} :
    ofRequest? start length = none ↔ length = 0 := by
  simp only [ofRequest?, dite_eq_right_iff, reduceCtorEq, imp_false, UInt64.not_lt,
    UInt64.le_iff_toNat_le, UInt64.toNat_zero, Nat.le_zero, ← UInt64.toNat_inj]

/-- An access keeps the numbers of its request. -/
theorem ofRequest?_eq_some_iff {start length : UInt64} {a : Access} :
    ofRequest? start length = some a ↔ a.start = start ∧ a.length = length := by
  obtain ⟨s, l, h⟩ := a
  simp only [ofRequest?]
  constructor
  · intro he
    split at he
    · cases he
      exact ⟨rfl, rfl⟩
    · exact nomatch he
  · rintro ⟨rfl, rfl⟩
    rw [dif_pos h]

end Access

end Footprint
