import Mathlib.Tactic.Ring

/-!
# Values and pointers

`JSValue` as far as the modelled code tells values apart. A heap pointer says which arena the
memory is in: base is the frozen snapshot, a request pointer is memory of the running request. The
shadow of a snapshot object is request memory too; it is named after the object it stands for, since
a request holds at most one shadow of an object.
-/

namespace ArenaJs

/-- A heap pointer, by the memory it points into. -/
inductive Ptr where
  | base (n : Nat)
  | req (n : Nat)
  | shadow (n : Nat)
deriving DecidableEq, Repr

/-- `js_arena_ptr_is_base`. -/
def Ptr.isBase : Ptr → Bool
  | .base _ => true
  | .req _ => false
  | .shadow _ => false

/-- `JSValue`. A float is kept by its bits, a string by its text. -/
inductive JSValue where
  | undefined
  | null
  | uninitialized
  | exception
  | bool (b : Bool)
  | int (n : Int)
  | float64 (bits : UInt64)
  | bigInt (n : Int)
  | string (s : String)
  | symbol (atom : Nat)
  | object (p : Ptr)
deriving DecidableEq, Repr, Inhabited

/-! ## Numbers -/

/-- The bits of the double equal to `n`, for `n < 2^53`. -/
def float64OfNat (n : Nat) : UInt64 :=
  if n = 0 then 0
  else
    let e := n.log2
    UInt64.ofNat ((e + 1023) * 2 ^ 52 + (n - 2 ^ e) * 2 ^ (52 - e))

/-- `js_uint32`: an integer value when it fits an `int32_t`, a double otherwise. -/
def jsUint32 (n : Nat) : JSValue :=
  if n < 2 ^ 31 then .int n else .float64 (float64OfNat n)

/-- The integral value of a double in the range of `uint32_t`, if it has one. -/
def float64ToUint32 (bits : UInt64) : Option Nat :=
  let e := bits.toNat / 2 ^ 52
  let m := bits.toNat % 2 ^ 52 + 2 ^ 52
  if bits.toNat = 0 ∨ bits.toNat = 2 ^ 63 then some 0
  else if 1023 ≤ e ∧ e < 1023 + 32 ∧ m % 2 ^ (52 - (e - 1023)) = 0 then
    some (m / 2 ^ (52 - (e - 1023)))
  else none

/-- `JS_ToUint32` of the length property of an array, which is always a number. -/
def JSValue.toUint32 : JSValue → Nat
  | .int n => (n % 2 ^ 32).toNat
  | .float64 bits => (float64ToUint32 bits).getD 0
  | _ => 0

end ArenaJs
