/-!
# Powers of two and of ten

Bounds of machine numbers are powers of two, and decimals are moved by powers of ten. Both bases are
needed for natural exponents alone.

* `twoPow`, `tenPow` — the powers;
* `twoPow_pos`, `tenPow_pos` — none of them is zero.
-/

namespace AtomicCss

def twoPow (n : Nat) : Nat :=
  Nat.pow 2 n

def tenPow (n : Nat) : Nat :=
  Nat.pow 10 n

/-- A power of two is never zero. -/
theorem twoPow_pos (n : Nat) : 0 < twoPow n :=
  Nat.pow_pos (by decide)

/-- A power of ten is never zero. -/
theorem tenPow_pos (n : Nat) : 0 < tenPow n :=
  Nat.pow_pos (by decide)

end AtomicCss
