import Mathlib.Data.List.Chain
import Footprint.Synthetic.Request

/-!
# Synthetic requests in exact arithmetic

The sums and products of the generator are taken in words. Taken in the natural numbers they
give the same requests from the same keystream: every draw stays below its bound, so starts and
lengths stay within their regions, and times grow by a bounded step, which a word has room for
as long as the trace is not too long.
-/

namespace Footprint.Synthetic

/-- The numbers of a request without the limit of a word. -/
structure Numbers where
  /-- The time of the request in ticks. -/
  timestamp : Nat
  /-- The first address. -/
  start : Nat
  /-- The number of addresses, possibly zero. -/
  length : Nat
  /-- The request writes and does not read. -/
  write : Bool
  deriving DecidableEq, Repr

/-- The numbers of a request as natural numbers. -/
def Request.numbers (r : Request) : Numbers :=
  { timestamp := r.timestamp.toNat, start := r.start.toNat, length := r.length.toNat,
    write := r.write }

namespace Exact

/-- A natural number from `low` up to, but not including, `low + count`. -/
def among (low count : Nat) : Draw Nat := do
  return low + (← Draw.scaled count)

/-- The start of a request, in natural numbers. -/
def drawStart (pitch : Nat) : Draw Nat := do
  let hot ← Draw.coin 16602069666338596864
  let unit ← among 0 (if hot then hotUnits.toNat else allUnits.toNat)
  let unaligned ← Draw.coin 3689348814741910528
  let offset ← if unaligned then among 0 pitch else pure 0
  return unit * pitch + offset

/-- The length of a request, in natural numbers. -/
def drawLength (pitch : Nat) : Draw Nat := do
  let empty ← Draw.coin 184467440737095520
  if empty then return 0
  let whole ← Draw.coin 12912720851596685312
  if whole then return (← among 1 longestUnits.toNat) * pitch
  among 1 (longestUnits.toNat * pitch)

/-- The request that follows the given time, in natural numbers. -/
def drawRequest (format : Format) (time : Nat) : Draw Numbers := do
  let pitch := format.unitGrid.pitch.toNat
  let step ← among 1 (2 * (millisecondTicks format).toNat)
  let start ← drawStart pitch
  let length ← drawLength pitch
  let write ← Draw.coin 5534023222112865280
  return { timestamp := time + step, start, length, write }

/-- So many requests that follow the given time, in natural numbers. -/
def drawRequests (format : Format) : Nat → Nat → Draw (List Numbers)
  | 0, _ => pure []
  | n + 1, time => do
    let request ← drawRequest format time
    return request :: (← drawRequests format n request.timestamp)

/-- The first requests of the synthetic trace of a seed, in natural numbers. -/
def requests (format : Format) (n : Nat) (seed : UInt64) : List Numbers :=
  (drawRequests format n (firstTime format).toNat (.ofSeed seed)).1

end Exact

namespace Draw

/-- From the same position, two draws come to the same position with related values. -/
def Agrees {α β : Type} (R : α → β → Prop) (d : Draw α) (e : Draw β) : Prop :=
  ∀ k, R (d k).1 (e k).1 ∧ (d k).2 = (e k).2

namespace Agrees

variable {α β γ δ : Type} {R : α → β → Prop} {S : γ → δ → Prop}

/-- Values that are related need no keystream. -/
protected theorem pure {a : α} {b : β} (h : R a b) :
    Agrees R (pure a : Draw α) (pure b : Draw β) :=
  fun _ => ⟨h, rfl⟩

/-- Draws that agree go on to draws that agree. -/
protected theorem bind {d : Draw α} {e : Draw β} {f : α → Draw γ} {g : β → Draw δ}
    (h : Agrees R d e) (hnext : ∀ {a b}, R a b → Agrees S (f a) (g b)) :
    Agrees S (d >>= f) (e >>= g) := by
  intro k
  obtain ⟨hvalue, hposition⟩ := h k
  have hnext := hnext hvalue (d k).2
  change S (f (d k).1 (d k).2).1 (g (e k).1 (e k).2).1 ∧
    (f (d k).1 (d k).2).2 = (g (e k).1 (e k).2).2
  rwa [← hposition]

/-- A relation may be weakened. -/
protected theorem mono {d : Draw α} {e : Draw β} {T : α → β → Prop} (h : Agrees R d e)
    (himp : ∀ {a b}, R a b → T a b) : Agrees T d e :=
  fun k => ⟨himp (h k).1, (h k).2⟩

/-- A draw agrees with itself. -/
protected theorem rfl {d : Draw α} : Agrees Eq d d :=
  fun _ => ⟨rfl, rfl⟩

end Agrees

/-- The word has the value of the number, which lies in a range. -/
def Within (low count : Nat) (w : UInt64) (n : Nat) : Prop :=
  w.toNat = n ∧ low ≤ n ∧ n < low + count

variable {low count : UInt64} {l c : Nat}

/-- Within the words, a number drawn from a range is the same in both arithmetics. -/
theorem agrees_among (hlow : low.toNat = l) (hcount : count.toNat = c) (hpos : 0 < c)
    (hfits : l + c ≤ UInt64.size) : Agrees (Within l c) (among low count) (Exact.among l c) := by
  subst hlow hcount
  refine Agrees.bind (R := fun n m => n = m ∧ n < count.toNat) (fun k => ⟨⟨rfl, ?_⟩, rfl⟩) ?_
  · exact scaled_lt hpos k
  · rintro n _ ⟨rfl, hn⟩
    have hsum : (low + .ofNat n).toNat = low.toNat + n := by
      rw [UInt64.toNat_add, UInt64.toNat_ofNat_of_lt' (by omega), Nat.mod_eq_of_lt]
      exact Nat.lt_of_lt_of_le (Nat.add_lt_add_left hn _) hfits
    exact .pure ⟨hsum, Nat.le_add_right _ _, Nat.add_lt_add_left hn _⟩

end Draw

open Draw (Agrees Within agrees_among)

section Pitch

variable {pitch : UInt64} (hpos : 0 < pitch.toNat) (hsmall : pitch.toNat ≤ 512)

include hpos hsmall

/-- A start is the same in both arithmetics and lies in the larger region. -/
theorem agrees_drawStart :
    Agrees (fun w n => w.toNat = n ∧ n < allUnits.toNat * pitch.toNat)
      (drawStart pitch) (Exact.drawStart pitch.toNat) := by
  have hall : allUnits.toNat = 1048576 := rfl
  have hsize : UInt64.size = 18446744073709551616 := rfl
  refine Agrees.bind Agrees.rfl ?_
  rintro hot _ rfl
  have hunits : Agrees (Within 0 allUnits.toNat)
      (Draw.among 0 (if hot then hotUnits else allUnits))
      (Exact.among 0 (if hot then hotUnits.toNat else allUnits.toNat)) := by
    cases hot with
    | false => exact agrees_among rfl rfl (by decide) (by decide)
    | true =>
      have hmore : hotUnits.toNat ≤ allUnits.toNat := by decide
      refine (agrees_among rfl rfl (by decide) (by decide)).mono ?_
      rintro unit n ⟨hunit, hlow, hn⟩
      exact ⟨hunit, hlow, Nat.lt_of_lt_of_le hn (Nat.add_le_add_left hmore 0)⟩
  refine Agrees.bind hunits ?_
  rintro unit _ ⟨rfl, _, hunit⟩
  refine Agrees.bind Agrees.rfl ?_
  rintro unaligned _ rfl
  have hsum {offset : UInt64} {n : Nat} (h : Within 0 pitch.toNat offset n) :
      Agrees (fun w n => w.toNat = n ∧ n < allUnits.toNat * pitch.toNat)
        (pure (unit * pitch + offset)) (pure (unit.toNat * pitch.toNat + n)) := by
    obtain ⟨rfl, _, hoffset⟩ := h
    have hregion : unit.toNat * pitch.toNat + offset.toNat < allUnits.toNat * pitch.toNat := by
      have hnext : (unit.toNat + 1) * pitch.toNat ≤ allUnits.toNat * pitch.toNat :=
        Nat.mul_le_mul_right _ (by omega)
      rw [Nat.add_mul] at hnext
      omega
    have hword : (unit * pitch + offset).toNat = unit.toNat * pitch.toNat + offset.toNat := by
      rw [UInt64.toNat_add, UInt64.toNat_mul, Nat.mod_add_mod, Nat.mod_eq_of_lt]
      rw [hall] at hregion
      omega
    exact .pure ⟨hword, hregion⟩
  cases unaligned with
  | false => exact Agrees.bind (.pure ⟨rfl, Nat.le_refl 0, by omega⟩) hsum
  | true => exact Agrees.bind (agrees_among rfl rfl hpos (by omega)) hsum

/-- A length is the same in both arithmetics and no longer than the longest request. -/
theorem agrees_drawLength :
    Agrees (fun w n => w.toNat = n ∧ n ≤ longestUnits.toNat * pitch.toNat)
      (drawLength pitch) (Exact.drawLength pitch.toNat) := by
  have hlongest : longestUnits.toNat = 32 := rfl
  have hsize : UInt64.size = 18446744073709551616 := rfl
  have hone : (1 : UInt64).toNat = 1 := rfl
  have hproduct {unit : UInt64} (h : unit.toNat ≤ longestUnits.toNat) :
      (unit * pitch).toNat = unit.toNat * pitch.toNat ∧
        unit.toNat * pitch.toNat ≤ longestUnits.toNat * pitch.toNat := by
    have hle : unit.toNat * pitch.toNat ≤ longestUnits.toNat * pitch.toNat :=
      Nat.mul_le_mul_right _ h
    refine ⟨?_, hle⟩
    rw [UInt64.toNat_mul, Nat.mod_eq_of_lt]
    rw [hlongest] at hle
    omega
  refine Agrees.bind Agrees.rfl ?_
  rintro empty _ rfl
  cases empty with
  | true => exact .pure ⟨rfl, Nat.zero_le _⟩
  | false =>
    refine Agrees.bind Agrees.rfl ?_
    rintro whole _ rfl
    cases whole with
    | true =>
      refine Agrees.bind (agrees_among hone rfl (by decide) (by decide)) ?_
      rintro unit _ ⟨rfl, _, hunit⟩
      exact .pure (hproduct (Nat.le_of_lt_succ (by rwa [Nat.add_comm] at hunit)))
    | false =>
      have hcount := (hproduct (Nat.le_refl _)).1
      have hfits : 1 + longestUnits.toNat * pitch.toNat ≤ UInt64.size := by
        rw [hlongest]
        omega
      refine (agrees_among hone hcount (Nat.mul_pos (by decide) hpos) hfits).mono ?_
      rintro length n ⟨hlength, _, hn⟩
      exact ⟨hlength, by omega⟩

end Pitch

/-- A request is stamped after the given time, by no more than the longest step. -/
def Follows (format : Format) (time stamp : UInt64) : Prop :=
  time.toNat < stamp.toNat ∧ stamp.toNat ≤ time.toNat + 2 * (millisecondTicks format).toNat

/-- A request starts in the larger region and is no longer than the longest request. -/
def Request.Fits (format : Format) (r : Request) : Prop :=
  r.start.toNat < allUnits.toNat * format.unitGrid.pitch.toNat ∧
    r.length.toNat ≤ longestUnits.toNat * format.unitGrid.pitch.toNat

/-- While the longest step stays within the words, a request is the same in both arithmetics. -/
theorem agrees_drawRequest {format : Format} {time : UInt64}
    (h : time.toNat + 2 * (millisecondTicks format).toNat < UInt64.size) :
    Agrees (fun r e => r.numbers = e ∧ Follows format time r.timestamp ∧ r.Fits format)
      (drawRequest format time) (Exact.drawRequest format time.toNat) := by
  have hpos : 0 < format.unitGrid.pitch.toNat := format.unitGrid.toNat_pitch_pos
  have hsmall : format.unitGrid.pitch.toNat ≤ 512 := by cases format <;> decide
  have hticks : (2 * millisecondTicks format).toNat = 2 * (millisecondTicks format).toNat := by
    cases format <;> rfl
  have hsteps : 0 < 2 * (millisecondTicks format).toNat := by cases format <;> decide
  have hone : (1 : UInt64).toNat = 1 := rfl
  refine Agrees.bind (agrees_among hone hticks hsteps (by omega)) ?_
  rintro step _ ⟨rfl, hone, hstep⟩
  refine Agrees.bind (agrees_drawStart hpos hsmall) ?_
  rintro start _ ⟨rfl, hstart⟩
  refine Agrees.bind (agrees_drawLength hpos hsmall) ?_
  rintro length _ ⟨rfl, hlength⟩
  refine Agrees.bind Agrees.rfl ?_
  rintro write _ rfl
  have hstamp : (time + step).toNat = time.toNat + step.toNat := by
    refine (UInt64.toNat_add _ _).trans (Nat.mod_eq_of_lt (Nat.lt_of_le_of_lt ?_ h))
    omega
  refine .pure ⟨?_, ⟨?_, ?_⟩, hstart, hlength⟩
  · rw [Request.numbers, hstamp]
  · change time.toNat < (time + step).toNat
    omega
  · change (time + step).toNat ≤ _
    omega

/-- While so many longest steps stay within the words, requests are the same in both arithmetics. -/
theorem agrees_drawRequests {format : Format} {n : Nat} {time : UInt64}
    (h : time.toNat + n * (2 * (millisecondTicks format).toNat) < UInt64.size) :
    Agrees (fun rs es => rs.map Request.numbers = es ∧ rs.length = n ∧
        (time :: rs.map Request.timestamp).IsChain (Follows format) ∧ ∀ r ∈ rs, r.Fits format)
      (drawRequests format n time) (Exact.drawRequests format n time.toNat) := by
  induction n generalizing time with
  | zero => exact .pure ⟨rfl, rfl, .singleton time, nofun⟩
  | succ n ih =>
    rw [Nat.succ_mul] at h
    refine Agrees.bind (agrees_drawRequest (by omega)) ?_
    rintro request _ ⟨rfl, hfollows, hfits⟩
    refine Agrees.bind (ih ?_) ?_
    · have hstep := hfollows.2
      omega
    · rintro rs _ ⟨rfl, rfl, hchain, hrest⟩
      refine .pure ⟨rfl, rfl, ?_, List.forall_mem_cons.mpr ⟨hfits, hrest⟩⟩
      exact .cons_cons hfollows hchain

/-- A trace of up to `2 ^ 40` requests holds the requests of exact arithmetic, each stamped a
bounded step after the one before, and each within the regions. -/
theorem requests_exact {format : Format} {n : Nat} (h : n ≤ 1099511627776) (seed : UInt64) :
    (requests format n seed).map Request.numbers = Exact.requests format n seed ∧
      (requests format n seed).length = n ∧
      (firstTime format :: (requests format n seed).map Request.timestamp).IsChain
        (Follows format) ∧
      ∀ r ∈ requests format n seed, r.Fits format := by
  have hwords : (firstTime format).toNat + n * (2 * (millisecondTicks format).toNat) <
      UInt64.size := by
    have hsteps : n * (2 * (millisecondTicks format).toNat) ≤
        1099511627776 * (2 * (millisecondTicks format).toNat) := Nat.mul_le_mul_right _ h
    have hlongest : (firstTime format).toNat +
        1099511627776 * (2 * (millisecondTicks format).toNat) < UInt64.size := by
      cases format <;> decide
    omega
  exact (agrees_drawRequests hwords (.ofSeed seed)).1

/-- Later requests are stamped later. -/
theorem pairwise_of_isChain {format : Format} {time : UInt64} {rs : List Request}
    (h : (time :: rs.map Request.timestamp).IsChain (Follows format)) :
    rs.Pairwise fun r s => r.timestamp < s.timestamp := by
  have hless : (rs.map Request.timestamp).IsChain (· < ·) :=
    h.tail.imp fun _ _ hfollows => UInt64.lt_iff_toNat_lt.mpr hfollows.1
  exact List.pairwise_map.mp hless.pairwise

end Footprint.Synthetic
