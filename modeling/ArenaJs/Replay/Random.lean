import Mathlib.Tactic.Ring

/-!
# The seedable generator

`Math.random` and `JS_FillRandomBytes` draw from one 64-bit state, which in arena mode is the
request's. The generator is an iterated step with an output (`xorshift64star`): a fill is the first
bytes of the outputs of the next states (`fillRandomBytes_eq`), so what is drawn depends on the
number of draws alone. The step is three xor-shifts, each of which can be undone, and a state that
is not zero stays so (`random_stream`).
-/

namespace ArenaJs.Random

/-! ## Xor-shifts -/

section
variable {w k : Nat}

/-- The bits of `x ^ (x >> k)` determine those of `x` from the top bit down. -/
theorem xor_ushiftRight_injective (hk : 0 < k) :
    Function.Injective fun x : BitVec w => x ^^^ x >>> k := by
  intro x y h
  have hbits : ∀ n i, w ≤ i + n → x.getLsbD i = y.getLsbD i := by
    intro n
    induction n with
    | zero => intro i hi; rw [BitVec.getLsbD_of_ge x i hi, BitVec.getLsbD_of_ge y i hi]
    | succ n ih =>
      intro i hi
      have hi' := congrArg (BitVec.getLsbD · i) h
      simp only [BitVec.getLsbD_xor, BitVec.getLsbD_ushiftRight, ih (k + i) (by omega)] at hi'
      simpa using hi'
  exact BitVec.eq_of_getLsbD_eq fun i _ => hbits w i (Nat.le_add_left w i)

/-- The bits of `x ^ (x << k)` determine those of `x` from the lowest bit up. -/
theorem xor_shiftLeft_injective (hk : 0 < k) :
    Function.Injective fun x : BitVec w => x ^^^ x <<< k := by
  intro x y h
  have hbits : ∀ i, x.getLsbD i = y.getLsbD i := by
    intro i
    induction i using Nat.strongRecOn with
    | ind i ih =>
      have hi := congrArg (BitVec.getLsbD · i) h
      simp only [BitVec.getLsbD_xor, BitVec.getLsbD_shiftLeft] at hi
      by_cases hik : i < k
      · simpa [hik] using hi
      · rw [ih (i - k) (by omega)] at hi
        simpa using hi
  exact BitVec.eq_of_getLsbD_eq fun i _ => hbits i

end

/-! ## The generator -/

/-- The state after `xorshift64star`. -/
def step (x : UInt64) : UInt64 :=
  let x := x ^^^ x >>> 12
  let x := x ^^^ x <<< 25
  x ^^^ x >>> 27

/-- `xorshift64star`: the value returned and the new state. -/
def xorshift64star (state : UInt64) : UInt64 × UInt64 :=
  (step state * 0x2545F4914F6CDD1D, step state)

/-- The contexts' part that the generator uses. -/
structure Ctx where
  isArena : Bool
  randomState : UInt64
  randomStateReq : UInt64
  deriving DecidableEq, Repr

/-- `*js_random_state_active`. -/
def Ctx.active (ctx : Ctx) : UInt64 :=
  if ctx.isArena then ctx.randomStateReq else ctx.randomState

/-- An assignment to `*js_random_state_active`. -/
def Ctx.setActive (ctx : Ctx) (x : UInt64) : Ctx :=
  if ctx.isArena then { ctx with randomStateReq := x } else { ctx with randomState := x }

@[simp] theorem Ctx.active_setActive (ctx : Ctx) (x : UInt64) : (ctx.setActive x).active = x := by
  cases h : ctx.isArena <;> simp [active, setActive, h]

@[simp] theorem Ctx.setActive_setActive (ctx : Ctx) (x y : UInt64) :
    (ctx.setActive x).setActive y = ctx.setActive y := by
  cases h : ctx.isArena <;> simp [setActive, h]

/-- `JS_SetRandomSeed`. -/
def setRandomSeed (ctx : Ctx) (seed : UInt64) : Ctx := ctx.setActive (if seed ≠ 0 then seed else 1)

/-- The bytes of a word in memory, the least significant first. -/
def leBytes (v : UInt64) : List UInt8 :=
  (List.range 8).map fun i => (v >>> UInt64.ofNat (8 * i)).toUInt8

/-- The loop over the full words of `JS_FillRandomBytes`. -/
def fillFull : Nat → UInt64 → List UInt8 × UInt64
  | 0, state => ([], state)
  | full + 1, state =>
    let (v, state) := xorshift64star state
    let (dst, state) := fillFull full state
    (leBytes v ++ dst, state)

/-- `JS_FillRandomBytes`: the bytes written to `out`, and the context. -/
def fillRandomBytes (ctx : Ctx) (outLen : Nat) : List UInt8 × Ctx :=
  let full := outLen / 8
  let (dst, state) := fillFull full ctx.active
  let tail := outLen - full * 8
  if tail ≠ 0 then
    let (v, state) := xorshift64star state
    (dst ++ (leBytes v).take tail, ctx.setActive state)
  else (dst, ctx.setActive state)

/-- `js_math_random`: the bits of the double that is one more than the result, and the context. -/
def mathRandom (ctx : Ctx) : UInt64 × Ctx :=
  let (v, state) := xorshift64star ctx.active
  ((0x3ff : UInt64) <<< 52 ||| v >>> 12, ctx.setActive state)

/-- A call that draws. -/
inductive Draw where
  | random
  | fill (outLen : Nat)
  deriving DecidableEq, Repr

/-- The context after a call. -/
def draw (ctx : Ctx) : Draw → Ctx
  | .random => (mathRandom ctx).2
  | .fill outLen => (fillRandomBytes ctx outLen).2

/-! ## The stream -/

/-- The bytes of the next `k` outputs. -/
def stream (k : Nat) (state : UInt64) : List UInt8 :=
  (List.range k).flatMap fun i => leBytes (xorshift64star (step^[i] state)).1

@[simp] theorem length_leBytes (v : UInt64) : (leBytes v).length = 8 := by simp [leBytes]

@[simp] theorem length_stream (k : Nat) (state : UInt64) : (stream k state).length = 8 * k := by
  simp [stream, List.map_const', Nat.mul_comm]

theorem stream_add (j k : Nat) (state : UInt64) :
    stream (j + k) state = stream j state ++ stream k (step^[j] state) := by
  simp only [stream, List.range_add, List.flatMap_append, List.flatMap_map,
    ← Function.iterate_add_apply, Nat.add_comm]

theorem take_stream_add (j k n : Nat) (state : UInt64) :
    (stream (j + k) state).take (8 * j + n) =
      stream j state ++ (stream k (step^[j] state)).take n := by
  rw [stream_add, ← length_stream j state, List.take_length_add_append]

theorem fillFull_eq (full : Nat) (state : UInt64) :
    fillFull full state = (stream full state, step^[full] state) := by
  induction full generalizing state with
  | zero => rfl
  | succ full ih =>
    have hone : stream 1 state = leBytes (xorshift64star state).1 := by simp [stream]
    rw [Nat.add_comm, stream_add, hone, Nat.add_comm, fillFull]
    simp only [ih]
    rfl

/-- A fill takes the first bytes of the stream, and one step for every eight of them. -/
theorem fillRandomBytes_eq (ctx : Ctx) (n : Nat) :
    fillRandomBytes ctx n = ((stream ((n + 7) / 8) ctx.active).take n,
      ctx.setActive (step^[(n + 7) / 8] ctx.active)) := by
  simp only [fillRandomBytes, fillFull_eq]
  split
  next h =>
    -- the last word is cut
    obtain ⟨k, t, rfl, ht, ht'⟩ : ∃ k t, n = 8 * k + t ∧ 0 < t ∧ t < 8 :=
      ⟨n / 8, n % 8, by omega, by omega, by omega⟩
    rw [show (8 * k + t + 7) / 8 = k + 1 by omega, take_stream_add,
      show (8 * k + t) / 8 = k by omega, Nat.mul_comm k, Nat.add_sub_cancel_left,
      Function.iterate_succ_apply']
    simp [stream, xorshift64star]
  next h =>
    have hlen : (n + 7) / 8 = n / 8 := by omega
    rw [hlen, List.take_of_length_le (by simp only [length_stream]; omega)]

/-! ## States -/

theorem step_injective : Function.Injective step := by
  intro x y h
  have h27 := xor_ushiftRight_injective (by decide) (congrArg UInt64.toBitVec h)
  have h25 := xor_shiftLeft_injective (by decide) h27
  exact UInt64.toBitVec_inj.1 (xor_ushiftRight_injective (by decide) h25)

theorem iterate_step_ne_zero (k : Nat) {x : UInt64} (h : x ≠ 0) : step^[k] x ≠ 0 := by
  intro h0
  have hz : ∀ k, step^[k] 0 = 0 := fun k => Function.iterate_fixed (by decide) k
  exact h ((step_injective.iterate k) (h0.trans (hz k).symm))

theorem draw_ne_zero (d : Draw) {ctx : Ctx} (h : ctx.active ≠ 0) : (draw ctx d).active ≠ 0 := by
  cases d with
  | random => simpa [draw, mathRandom, xorshift64star] using iterate_step_ne_zero 1 h
  | fill n => simpa [draw, fillRandomBytes_eq] using iterate_step_ne_zero _ h

theorem foldl_draw_ne_zero (ds : List Draw) {ctx : Ctx} (h : ctx.active ≠ 0) :
    (ds.foldl draw ctx).active ≠ 0 := by
  induction ds generalizing ctx with
  | nil => exact h
  | cons d ds ih => exact ih (draw_ne_zero d h)

theorem setRandomSeed_ne_zero (ctx : Ctx) (seed : UInt64) :
    (setRandomSeed ctx seed).active ≠ 0 := by
  rw [setRandomSeed, Ctx.active_setActive]
  split
  · assumption
  · decide

/-- A fill of `n` bytes makes `⌈n / 8⌉` steps, two fills are one fill if the first ends with a
word, and a seeded state is never zero, the step being injective. -/
theorem random_stream (ctx : Ctx) :
    (∀ n, (fillRandomBytes ctx n).2 = ctx.setActive (step^[(n + 7) / 8] ctx.active)) ∧
    (∀ k n, fillRandomBytes ctx (8 * k + n) =
      ((fillRandomBytes ctx (8 * k)).1 ++ (fillRandomBytes (fillRandomBytes ctx (8 * k)).2 n).1,
        (fillRandomBytes (fillRandomBytes ctx (8 * k)).2 n).2)) ∧
    (∀ seed ds, (List.foldl draw (setRandomSeed ctx seed) ds).active ≠ 0) ∧
    Function.Injective step := by
  refine ⟨fun n => ?_, fun k n => ?_, fun seed ds => ?_, step_injective⟩
  · rw [fillRandomBytes_eq]
  · have hlen : (8 * k + n + 7) / 8 = k + (n + 7) / 8 := by omega
    have hk : (8 * k + 7) / 8 = k := by omega
    have hfirst : (stream k ctx.active).take (8 * k) = stream k ctx.active :=
      List.take_of_length_le (length_stream ..).le
    have hsteps : step^[k + (n + 7) / 8] ctx.active = step^[(n + 7) / 8] (step^[k] ctx.active) := by
      rw [Nat.add_comm, Function.iterate_add_apply]
    simp [fillRandomBytes_eq, hlen, hk, take_stream_add, hfirst, hsteps]
  · exact foldl_draw_ne_zero ds (setRandomSeed_ne_zero ctx seed)

end ArenaJs.Random
