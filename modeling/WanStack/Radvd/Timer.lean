import Mathlib.Algebra.Order.Floor.Ring
import Mathlib.Data.Rat.Floor
import Mathlib.Tactic.Linarith
import Mathlib.Tactic.Ring

set_option autoImplicit false

/-!
# Clock readings

`struct timespec` and the functions of `timer.c`. Doubles are rational numbers.
-/
namespace WanStack.Radvd

structure Timespec where
  tv_sec : ℤ
  tv_nsec : ℤ
deriving DecidableEq, Repr

/-- Nanoseconds of a reading. -/
def Timespec.ns (t : Timespec) : ℤ := t.tv_sec * 10 ^ 9 + t.tv_nsec

/-- The conversion of a double to an integer drops the fraction. -/
def truncate (q : ℚ) : ℤ := if 0 ≤ q then ⌊q⌋ else ⌈q⌉

/-- Milliseconds between two readings; the division is that of C. -/
def timespecdiff (a b : Timespec) : ℤ :=
  (a.tv_sec - b.tv_sec) * 1000 + (a.tv_nsec - b.tv_nsec).tdiv (1000 * 1000)

/-- The reading `ts`, `next` seconds later. -/
def nextTimespec (ts : Timespec) (next : ℚ) : Timespec :=
  { tv_sec := ts.tv_sec + truncate next
    tv_nsec := truncate (ts.tv_nsec + 10 ^ 9 * (next - truncate next)) }

theorem floor_le_truncate (q : ℚ) : ⌊q⌋ ≤ truncate q := by
  unfold truncate
  split_ifs
  · exact le_rfl
  · exact Int.floor_le_ceil q

/-- No whole nanosecond that has come by then is lost. -/
theorem le_nextTimespec (ts : Timespec) (next : ℚ) (z : ℤ)
    (h : (z : ℚ) ≤ ts.ns + 10 ^ 9 * next) : z ≤ (nextTimespec ts next).ns := by
  have hns : (ts.ns : ℚ) = ts.tv_sec * 10 ^ 9 + ts.tv_nsec := by
    unfold Timespec.ns
    push_cast
    ring
  have hfloor : z - (ts.tv_sec + truncate next) * 10 ^ 9 ≤
      ⌊(ts.tv_nsec + 10 ^ 9 * (next - truncate next) : ℚ)⌋ := by
    apply Int.le_floor.2
    push_cast
    rw [hns] at h
    linarith
  have htrunc := floor_le_truncate (ts.tv_nsec + 10 ^ 9 * (next - truncate next))
  unfold Timespec.ns nextTimespec
  dsimp only
  linarith

end WanStack.Radvd
