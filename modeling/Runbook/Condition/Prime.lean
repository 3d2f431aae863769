/-!
# Trial division

Whether an integer is prime, by trying two and then the odd numbers up to the square root.
-/

namespace Runbook.Condition

theorem le_of_mul_self_le {d n : Nat} (h : d * d ≤ n) : d ≤ n := by
  cases d with
  | zero => exact Nat.zero_le n
  | succ d => exact Nat.le_trans (Nat.le_mul_of_pos_left (d + 1) (Nat.succ_pos d)) h

/-- Whether no odd number from `d` up to the square root of `n` divides `n`. -/
def noOddDivisor (n d : Nat) : Bool :=
  if h : d * d ≤ n then
    if n % d = 0 then false
    else
      have : n + 1 - (d + 2) < n + 1 - d := by have := le_of_mul_self_le h; omega
      noOddDivisor n (d + 2)
  else true
termination_by n + 1 - d

/-- Whether a natural number is prime. -/
def isPrimeNat (n : Nat) : Bool :=
  if n < 2 then false
  else if n < 4 then true
  else if n % 2 = 0 then false
  else noOddDivisor n 3

/-- Whether an integer is prime. -/
def isPrime (n : Int) : Bool := 0 ≤ n && isPrimeNat n.toNat

end Runbook.Condition
