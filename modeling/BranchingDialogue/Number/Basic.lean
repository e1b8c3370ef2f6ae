/-! Numbers as callers give them: binary floating-point values with 53 significant bits, with exact
conversion to whole numbers and correct rounding of quotients. -/
namespace BranchingDialogue

/-- `finite s m e` is the value `m · 2^e`, negated if `s`. -/
inductive Number
  | finite (negative : Bool) (significand : Nat) (exponent : Int)
  | infinite (negative : Bool)
  | nan
  deriving DecidableEq, Repr, Inhabited

namespace Number

def ofNat (n : Nat) : Number := .finite false n 0

instance : Coe Nat Number := ⟨ofNat⟩

/-- A quotient times a power of two as a quotient. -/
def scale (num den : Nat) (e : Int) : Nat × Nat :=
  if e < 0 then (num, den <<< e.natAbs) else (num <<< e.toNat, den)

/-- The whole number nearest to a quotient; half-way goes to the even one. -/
def roundDiv (num den : Nat) : Nat :=
  let q := num / den
  let r := num % den
  if 2 * r > den || (2 * r == den && q % 2 == 1) then q + 1 else q

/-- The exponent at which the quotient has 53 bits before the point, or the least exponent. -/
def exponentOf (num den : Nat) : Int :=
  let guess : Int := num.log2 - den.log2 - 52
  let (n, d) := scale num den (-guess)
  max (if n / d < 1 <<< 52 then guess - 1 else guess) (-1074)

/-- The number nearest to `num / den`, even significand on a tie; infinite from `2^1024` on. -/
def ofRatio (negative : Bool) (num den : Nat) : Number :=
  if num = 0 then .finite negative 0 0
  else
    let e := exponentOf num den
    let (n, d) := scale num den (-e)
    let m := roundDiv n d
    if m.log2 + e ≥ 1024 then .infinite negative
    else if m = 1 <<< 53 then .finite negative (1 <<< 52) (e + 1)
    else .finite negative m e

/-- The number nearest to `digits · 10^exponent`. -/
def ofDecimal (negative : Bool) (digits : Nat) (exponent : Int) : Number :=
  let size : Int := (Nat.toDigits 10 digits).length + exponent
  if digits = 0 || size < -400 then .finite negative 0 0
  else if size > 400 then .infinite negative
  else if exponent < 0 then ofRatio negative digits (Nat.pow 10 exponent.natAbs)
  else ofRatio negative (digits * Nat.pow 10 exponent.toNat) 1

/-- The natural number that this number is, if it is one. -/
def toNat? : Number → Option Nat
  | .finite negative m e =>
    if m = 0 then some 0
    else if negative then none
    else if 0 ≤ e then some (m <<< e.toNat)
    else if m >>> e.natAbs <<< e.natAbs = m then some (m >>> e.natAbs)
    else none
  | _ => none

@[simp] theorem toNat?_ofNat (n : Nat) : (ofNat n).toNat? = some n := by
  simp only [ofNat, toNat?]
  split <;> simp_all

/-- The nearest number to the difference of two finite ones. -/
def sub : Number → Number → Number
  | .finite s m e, .finite t n f =>
    let low := min e f
    let a : Int := (if s then -1 else 1) * (m <<< (e - low).toNat : Nat)
    let b : Int := (if t then -1 else 1) * (n <<< (f - low).toNat : Nat)
    let (num, den) := scale (a - b).natAbs 1 low
    ofRatio (decide (a - b < 0)) num den
  | .finite .., .infinite s => .infinite (!s)
  | .infinite s, .finite .. => .infinite s
  | .infinite s, .infinite t => if s = t then .nan else .infinite s
  | _, _ => .nan

/-- Less than zero. -/
def isNegative : Number → Bool
  | .finite s m _ => s && m != 0
  | .infinite s => s
  | .nan => false

end Number
end BranchingDialogue
