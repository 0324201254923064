import Stencil.Number.Binary
/-!
# Cube roots

The double nearest to the cube root of a double, computed exactly: the root of an integer of at most
159 bits has 53 bits, and comparing cubes says whether the next integer is nearer.
-/
namespace Stencil.Number

/-- The greatest number below `2 ^ bits` whose cube is at most `n`. -/
def cubeRootBelow (n : Nat) : Nat → Nat
  | 0 => 0
  | bits + 1 =>
    -- The high bits are found first: they are those of the root of the number without its low bits.
    let high := 2 * cubeRootBelow (n / 8) bits
    if Nat.pow (high + 1) 3 ≤ n then high + 1 else high

/-- The nearest double to the cube root of `m * 2 ^ e`, where `m` is positive. -/
def cubeRootParts (negative : Bool) (m : Nat) (e : Int) : Float :=
  let size : Int := m.log2 + 1 + e
  let q := (size - 157) / 3
  let n := m * Nat.pow 2 (e - 3 * q).toNat
  let root := cubeRootBelow n 53
  ofParts negative (if Nat.pow (2 * root + 1) 3 < 8 * n then root + 1 else root) q

/-- The cube root. -/
def cubeRoot (x : Float) : Float :=
  match Parts.ofFloat x with
  | .finite _ 0 _ => x
  | .finite negative m e => cubeRootParts negative m e
  | _ => x

end Stencil.Number
