import Mathlib.Data.Int.Basic
import Mathlib.Tactic.NormNum

/-!
# Machine integers and the ways a call can end badly

* `wrapInt` — the value of an `int` expression (32 bits, two's complement) whose mathematical
  value is `n`; `toSizeT` — the conversion of an integer to `size_t` (64 bits).
* `Exn` — what leaves a function instead of a result: a `broker_exception` (its four other
  names in `sized_queue.hpp` are typedefs of the same class, so every handler for one of them
  catches all), a thrown string literal, a failed `BOOST_ASSERT`, a failed allocation, a thrown
  `error_code`, an exception of the driver. The last constructor stands for an access outside a buffer, after which the
  behaviour of the program is not defined.
-/

namespace Zbroker

/-- `INT_MIN`, which `BSONObj::getIntField` returns for an absent field. -/
def intMin : Int := -2147483648

/-- `INT_MAX`. -/
def intMax : Int := 2147483647

/-- The number of values of `size_t`. -/
def sizeTCount : Nat := 18446744073709551616

/-- The value an `int` expression has when its mathematical value is `n`. -/
def wrapInt (n : Int) : Int := (n + 2147483648) % 4294967296 - 2147483648

/-- The conversion to `size_t`. -/
def toSizeT (n : Int) : Nat := (n % 18446744073709551616).toNat

/-- What wraps around is in range. -/
theorem wrapInt_mem (n : Int) : intMin ≤ wrapInt n ∧ wrapInt n ≤ intMax := by
  unfold wrapInt intMin intMax
  omega

/-- A nonnegative `int` keeps its value as a `size_t`. -/
theorem toSizeT_of_nonneg {n : Int} (h₁ : 0 ≤ n) (h₂ : n ≤ intMax) : toSizeT n = n.toNat := by
  unfold toSizeT intMax at *
  rw [Int.emod_eq_of_lt h₁ (by omega)]

/-- A negative `int` becomes a `size_t` close to the greatest one. -/
theorem toSizeT_of_neg {n : Int} (h₁ : intMin ≤ n) (h₂ : n < 0) :
    (toSizeT n : Int) = sizeTCount + n := by
  unfold toSizeT intMin sizeTCount at *
  omega

/-- What leaves a function instead of a result. -/
inductive Exn where
  /-- `broker_exception` and its typedefs. -/
  | broker (msg : String)
  /-- `throw "…"`: a `const char*`, not a `std::exception`. -/
  | literal (msg : String)
  /-- A failed `BOOST_ASSERT`. -/
  | assertion (expr : String)
  /-- `std::bad_alloc`. -/
  | badAlloc
  /-- A thrown `boost::system::error_code`. -/
  | errorCode
  /-- An exception of the MongoDB driver, for which there is no handler. -/
  | driver
  /-- An access outside a buffer. -/
  | outOfBounds (access : String)
  deriving Repr, DecidableEq

end Zbroker
