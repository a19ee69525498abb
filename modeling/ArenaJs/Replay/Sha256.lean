import ArenaJs.Lib.Sha256

/-!
# SHA-256 and HMAC of the replay host

`qjs-arena-replay-bindings.c` has its own streaming SHA-256. A context holds the hash value, the
number of bytes so far and a partial block; `Absorbed c m` says that it stands for the message `m`.
`arena_sha256_update` keeps it, whatever the pieces are (`Absorbed.update`), and
`arena_sha256_final`, whose padding loop stops after at most 63 bytes (`Absorbed.padLoop`), gives
the hash of the standard.
-/

namespace ArenaJs.Replay

variable {t : Nat} {p : List UInt8}

open Sha256 (Words rotr compress schedule absorb rest)

/-! ## The code -/

/-- `ARENA_ROR`. -/
def arenaRor (x n : UInt32) : UInt32 := (x >>> n) ||| (x <<< (32 - n))

/-- `arena_sha256`. -/
structure ArenaSha256 where
  s : Words
  n : UInt64
  buf : List UInt8
  len : Nat
  deriving DecidableEq, Repr

/-- `arena_sha256_init`; `buf` is what the memory holds. -/
def arenaSha256Init (buf : List UInt8) : ArenaSha256 where
  s := ⟨0x6a09e667, 0xbb67ae85, 0x3c6ef372, 0xa54ff53a, 0x510e527f, 0x9b05688c,
    0x1f83d9ab, 0x5be0cd19⟩
  n := 0
  buf
  len := 0

/-- `K`. -/
def arenaSha256K : List UInt32 :=
  [0x428a2f98, 0x71374491, 0xb5c0fbcf, 0xe9b5dba5, 0x3956c25b, 0x59f111f1, 0x923f82a4, 0xab1c5ed5,
   0xd807aa98, 0x12835b01, 0x243185be, 0x550c7dc3, 0x72be5d74, 0x80deb1fe, 0x9bdc06a7, 0xc19bf174,
   0xe49b69c1, 0xefbe4786, 0x0fc19dc6, 0x240ca1cc, 0x2de92c6f, 0x4a7484aa, 0x5cb0a9dc, 0x76f988da,
   0x983e5152, 0xa831c66d, 0xb00327c8, 0xbf597fc7, 0xc6e00bf3, 0xd5a79147, 0x06ca6351, 0x14292967,
   0x27b70a85, 0x2e1b2138, 0x4d2c6dfc, 0x53380d13, 0x650a7354, 0x766a0abb, 0x81c2c92e, 0x92722c85,
   0xa2bfe8a1, 0xa81a664b, 0xc24b8b70, 0xc76c51a3, 0xd192e819, 0xd6990624, 0xf40e3585, 0x106aa070,
   0x19a4c116, 0x1e376c08, 0x2748774c, 0x34b0bcb5, 0x391c0cb3, 0x4ed8aa4a, 0x5b9cca4f, 0x682e6ff3,
   0x748f82ee, 0x78a5636f, 0x84c87814, 0x8cc70208, 0x90befffa, 0xa4506ceb, 0xbef9a3f7, 0xc67178f2]

/-- `w[i]` from the block `p`, for `i < 16`. -/
def loadWord (p : List UInt8) (i : Nat) : UInt32 :=
  ((p.getD (i * 4) 0).toUInt32 <<< 24) ||| ((p.getD (i * 4 + 1) 0).toUInt32 <<< 16) |||
    ((p.getD (i * 4 + 2) 0).toUInt32 <<< 8) ||| (p.getD (i * 4 + 3) 0).toUInt32

/-- `w[i]` from the entries before it; `w` holds the `i` entries written so far. -/
def expandWord (w : List UInt32) (i : Nat) : List UInt32 :=
  let s0 := arenaRor (w.getD (i - 15) 0) 7 ^^^ arenaRor (w.getD (i - 15) 0) 18 ^^^
    (w.getD (i - 15) 0 >>> 3)
  let s1 := arenaRor (w.getD (i - 2) 0) 17 ^^^ arenaRor (w.getD (i - 2) 0) 19 ^^^
    (w.getD (i - 2) 0 >>> 10)
  w ++ [w.getD (i - 16) 0 + s0 + w.getD (i - 7) 0 + s1]

/-- The body of the last loop of `arena_sha256_block`. -/
def blockRound (w : List UInt32) (v : Words) (i : Nat) : Words :=
  let S1 := arenaRor v.e 6 ^^^ arenaRor v.e 11 ^^^ arenaRor v.e 25
  let ch := (v.e &&& v.f) ^^^ (~~~v.e &&& v.g)
  let t1 := v.h + S1 + ch + arenaSha256K.getD i 0 + w.getD i 0
  let S0 := arenaRor v.a 2 ^^^ arenaRor v.a 13 ^^^ arenaRor v.a 22
  let maj := (v.a &&& v.b) ^^^ (v.a &&& v.c) ^^^ (v.b &&& v.c)
  let t2 := S0 + maj
  ⟨t1 + t2, v.a, v.b, v.c, v.d + t1, v.e, v.f, v.g⟩

/-- `arena_sha256_block`. -/
def arenaSha256Block (s : Words) (p : List UInt8) : Words :=
  let w := (List.range' 16 48).foldl expandWord ((List.range 16).map (loadWord p))
  s + (List.range 64).foldl (blockRound w) s

/-- `memcpy(dst + off, src, n)` where `src` has `n` bytes. -/
def copyInto (dst : List UInt8) (off : Nat) (src : List UInt8) : List UInt8 :=
  dst.take off ++ src ++ dst.drop (off + src.length)

/-- The loop of `arena_sha256_update`, for at most `fuel` rounds. -/
def updateLoop : Nat → ArenaSha256 → List UInt8 → Option ArenaSha256
  | 0, _, _ => none
  | fuel + 1, c, p =>
    if p.length = 0 then some c
    else
      let take := if 64 - c.len > p.length then p.length else 64 - c.len
      let buf := copyInto c.buf c.len (p.take take)
      let len := c.len + take
      let c :=
        if len = 64 then { c with s := arenaSha256Block c.s buf, buf := buf, len := 0 }
        else { c with buf := buf, len := len }
      updateLoop fuel c (p.drop take)

/-- `arena_sha256_update`. -/
def arenaSha256Update (c : ArenaSha256) (p : List UInt8) : Option ArenaSha256 :=
  updateLoop (p.length + 1) { c with n := c.n + UInt64.ofNat p.length } p

/-- The padding loop of `arena_sha256_final`, for at most `fuel` rounds. -/
def padLoop : Nat → ArenaSha256 → Option ArenaSha256
  | 0, _ => none
  | fuel + 1, c => if c.len = 56 then some c else (arenaSha256Update c [0]).bind (padLoop fuel)

/-- `arena_sha256_final`. -/
def arenaSha256Final (c : ArenaSha256) : Option (List UInt8) := do
  let bits := c.n * 8
  let c ← arenaSha256Update c [0x80]
  let c ← padLoop 64 c
  let lb := (List.range 8).map fun i => (bits >>> (UInt64.ofNat (56 - i * 8))).toUInt8
  let c ← arenaSha256Update c lb
  return [c.s.a, c.s.b, c.s.c, c.s.d, c.s.e, c.s.f, c.s.g, c.s.h].flatMap fun w : UInt32 =>
    [(w >>> 24).toUInt8, (w >>> 16).toUInt8, (w >>> 8).toUInt8, w.toUInt8]

/-- `arena_sha256_init`, the calls of `arena_sha256_update` and `arena_sha256_final`. -/
def arenaSha256 (buf : List UInt8) (chunks : List (List UInt8)) : Option (List UInt8) := do
  let c ← chunks.foldlM arenaSha256Update (arenaSha256Init buf)
  arenaSha256Final c

/-- `arena_hmac_sha256`; `buf` is what the memory of the contexts holds. -/
def arenaHmacSha256 (buf key msg : List UInt8) : Option (List UInt8) := do
  let k := List.replicate 64 0
  let k ← if key.length > 64 then (arenaSha256 buf [key]).map (copyInto k 0)
    else some (copyInto k 0 key)
  let ipad := k.map (· ^^^ 0x36)
  let opad := k.map (· ^^^ 0x5c)
  let ih ← arenaSha256 buf [ipad, msg]
  arenaSha256 buf [opad, ih]

/-! ## The constants -/

/-- The first 64 primes. -/
def primes : List Nat :=
  [2, 3, 5, 7, 11, 13, 17, 19, 23, 29, 31, 37, 41, 43, 47, 53, 59, 61, 67, 71, 73, 79, 83,
    89, 97, 101,
   103, 107, 109, 113, 127, 131, 137, 139, 149, 151, 157, 163, 167, 173, 179, 181, 191,
     193, 197, 199,
   211, 223, 227, 229, 233, 239, 241, 251, 257, 263, 269, 271, 277, 281, 283, 293, 307, 311]

theorem nth_prime (h : t < 64) : Nat.nth Nat.Prime t = primes.getD t 0 := by
  have hall : ∀ t < 64, (primes.getD t 0).Prime ∧ Nat.count Nat.Prime (primes.getD t 0) = t := by
    decide +kernel
  obtain ⟨hp, hc⟩ := hall t h
  rw [← Nat.nth_count hp, hc]

/-- The entries of `K` are those of the standard. -/
theorem arenaSha256K_getD (h : t < 64) :
    arenaSha256K.getD t 0 = Sha256.rootBits 3 t := by
  have hall : ∀ t < 64,
      arenaSha256K.getD t 0 = UInt32.ofNat (Nat.nthRoot 3 (primes.getD t 0 * 2 ^ (32 * 3))) := by
    decide +kernel
  rw [Sha256.rootBits, nth_prime h, hall t h]

/-- And so is the initial hash value. -/
theorem arenaSha256Init_s (buf : List UInt8) : (arenaSha256Init buf).s = Sha256.initial := by
  have hall : ∀ t < 8, [0x6a09e667, 0xbb67ae85, 0x3c6ef372, 0xa54ff53a, 0x510e527f, 0x9b05688c,
      0x1f83d9ab, 0x5be0cd19].getD t 0 =
      UInt32.ofNat (Nat.nthRoot 2 (primes.getD t 0 * 2 ^ (32 * 2))) := by decide +kernel
  have hroot : ∀ t < 8, Sha256.rootBits 2 t = _ := fun t ht => by
    rw [Sha256.rootBits, nth_prime (by omega), ← hall t ht]
  rw [Sha256.initial, hroot 0, hroot 1, hroot 2, hroot 3, hroot 4, hroot 5, hroot 6, hroot 7] <;>
    first | rfl | decide

/-! ## One block -/

/-- `ARENA_ROR` is a rotation. -/
theorem arenaRor_eq {n : Nat} (h0 : 0 < n) (h : n < 32) (x : UInt32) :
    arenaRor x (UInt32.ofNat n) = rotr n x := by
  refine UInt32.toBitVec_inj.1 ?_
  have hn : (UInt32.ofNat n).toNat = n := by simp; omega
  have hs : (32 - UInt32.ofNat n).toNat = 32 - n := by
    rw [UInt32.toNat_sub_of_le _ _ (by rw [UInt32.le_iff_toNat_le, hn]; exact h.le), hn]; rfl
  rw [arenaRor, rotr, BitVec.rotateRight_def, UInt32.toBitVec_or, Nat.mod_eq_of_lt h]
  refine congrArg₂ _ ?_ ?_
  · rw [UInt32.toBitVec_shiftRight]
    refine (BitVec.ushiftRight_eq' ..).trans (congrArg _ ?_)
    rw [BitVec.toNat_umod]
    simpa [hn] using h
  · rw [UInt32.toBitVec_shiftLeft]
    refine (BitVec.shiftLeft_eq' ..).trans (congrArg _ ?_)
    rw [BitVec.toNat_umod, UInt32.toNat_toBitVec, hs]
    exact Nat.mod_eq_of_lt (show 32 - n < 32 by omega)

/-- Four bytes put together. -/
theorem or_bytes (a b c d : UInt8) : (a.toUInt32 <<< 24) ||| (b.toUInt32 <<< 16) |||
    (c.toUInt32 <<< 8) ||| d.toUInt32 = UInt32.ofNat (ofBe [a, b, c, d]) := by
  refine UInt32.toNat_inj.1 ?_
  have ha := a.toNat_lt
  have hb := b.toNat_lt
  have hc := c.toNat_lt
  have hd := d.toNat_lt
  have hor : ((a.toNat <<< 24 ||| b.toNat <<< 16) ||| c.toNat <<< 8) ||| d.toNat =
      ofBe [a, b, c, d] := by
    rw [← Nat.shiftLeft_add_eq_or_of_lt (i := 24) (by rw [Nat.shiftLeft_eq]; omega)]
    rw [show a.toNat <<< 24 + b.toNat <<< 16 = (256 * a.toNat + b.toNat) <<< 16 by
      simp only [Nat.shiftLeft_eq]; omega]
    rw [← Nat.shiftLeft_add_eq_or_of_lt (i := 16) (by rw [Nat.shiftLeft_eq]; omega)]
    rw [show (256 * a.toNat + b.toNat) <<< 16 + c.toNat <<< 8 =
      (256 * (256 * a.toNat + b.toNat) + c.toNat) <<< 8 by simp only [Nat.shiftLeft_eq]; omega]
    rw [← Nat.shiftLeft_add_eq_or_of_lt hd]
    simp only [ofBe, List.foldl_cons, List.foldl_nil, Nat.shiftLeft_eq]
    omega
  rw [← hor]
  simp

/-- The first 16 words of the schedule. -/
theorem loadWord_eq (hp : 64 ≤ p.length) (h : t < 16) :
    loadWord p t = schedule (p.take 64) t := by
  have hbytes : ((p.take 64).drop (4 * t)).take 4 =
      [p.getD (t * 4) 0, p.getD (t * 4 + 1) 0, p.getD (t * 4 + 2) 0, p.getD (t * 4 + 3) 0] := by
    refine List.ext_getElem? fun i => ?_
    rcases i with _ | _ | _ | _ | i
    all_goals simp [List.getElem?_take, List.getElem?_drop, Nat.mul_comm]
    all_goals grind
  rw [schedule, if_pos h, hbytes, loadWord, or_bytes]

/-- Three rotations, as the compression uses them. -/
theorem arenaRor_xor {k l m : Nat} (hk : 0 < k ∧ k < 32) (hl : 0 < l ∧ l < 32) (hm : 0 < m ∧ m < 32)
    (x : UInt32) : arenaRor x (UInt32.ofNat k) ^^^ arenaRor x (UInt32.ofNat l) ^^^
      arenaRor x (UInt32.ofNat m) = rotr k x ^^^ rotr l x ^^^ rotr m x := by
  rw [arenaRor_eq hk.1 hk.2, arenaRor_eq hl.1 hl.2, arenaRor_eq hm.1 hm.2]

/-- Two rotations and a shift, as the schedule uses them. -/
theorem arenaRor_xor_shift {k l : Nat} (hk : 0 < k ∧ k < 32) (hl : 0 < l ∧ l < 32) (x y : UInt32) :
    arenaRor x (UInt32.ofNat k) ^^^ arenaRor x (UInt32.ofNat l) ^^^ y =
      rotr k x ^^^ rotr l x ^^^ y := by
  rw [arenaRor_eq hk.1 hk.2, arenaRor_eq hl.1 hl.2]

/-- One more word of the schedule. -/
theorem expandWord_eq {b : List UInt8} {i : Nat} (h : 16 ≤ i) :
    expandWord ((List.range i).map (schedule b)) i = (List.range (i + 1)).map (schedule b) := by
  have hget : ∀ k, 0 < k → k ≤ 16 →
      ((List.range i).map (schedule b)).getD (i - k) 0 = schedule b (i - k) := fun k h0 hk => by
    rw [List.getD_eq_getElem?_getD, List.getElem?_map, List.getElem?_range (by omega)]
    rfl
  rw [List.range_succ, List.map_append, List.map_singleton, schedule, if_neg (by omega)]
  refine congrArg (_ ++ [·]) ?_
  rw [hget 2 (by decide) (by decide), hget 7 (by decide) (by decide),
    hget 15 (by decide) (by decide),
    hget 16 (by decide) (by decide)]
  rw [show ∀ x, arenaRor x 7 ^^^ arenaRor x 18 ^^^ (x >>> 3) = Sha256.lowerSigma0 x from
    fun x => arenaRor_xor_shift (k := 7) (l := 18) (by decide) (by decide) x _]
  rw [show ∀ x, arenaRor x 17 ^^^ arenaRor x 19 ^^^ (x >>> 10) = Sha256.lowerSigma1 x from
    fun x => arenaRor_xor_shift (k := 17) (l := 19) (by decide) (by decide) x _]
  ac_rfl

/-- `w` is the schedule. -/
theorem foldl_expandWord (hp : 64 ≤ p.length) :
    (List.range' 16 48).foldl expandWord ((List.range 16).map (loadWord p)) =
      (List.range 64).map (schedule (p.take 64)) := by
  have hfirst : (List.range 16).map (loadWord p) = (List.range 16).map (schedule (p.take 64)) :=
    List.map_congr_left fun t ht => loadWord_eq hp (List.mem_range.1 ht)
  have hstep : ∀ k,
    (List.range' 16 k).foldl expandWord ((List.range 16).map (schedule (p.take 64))) =
      (List.range (16 + k)).map (schedule (p.take 64)) := fun k => by
    induction k with
    | zero => rfl
    | succ k ih =>
      rw [List.range'_concat, List.foldl_append, ih, Nat.one_mul]
      exact expandWord_eq (Nat.le_add_right ..)
  rw [hfirst, hstep]

/-- `arena_sha256_block` compresses a block. -/
theorem arenaSha256Block_eq (hp : 64 ≤ p.length) (s : Words) :
    arenaSha256Block s p = compress s (p.take 64) := by
  rw [arenaSha256Block, foldl_expandWord hp, compress]
  refine congrArg (s + ·) (List.foldl_ext _ _ _ fun v t ht => ?_)
  have ht := List.mem_range.1 ht
  have hw : ((List.range 64).map (schedule (p.take 64))).getD t 0 = schedule (p.take 64) t := by
    rw [List.getD_eq_getElem?_getD, List.getElem?_map, List.getElem?_range ht]
    rfl
  rw [blockRound, arenaSha256K_getD ht, hw, Sha256.round]
  rw [show ∀ x, arenaRor x 6 ^^^ arenaRor x 11 ^^^ arenaRor x 25 = Sha256.upperSigma1 x from
    arenaRor_xor (k := 6) (l := 11) (m := 25) (by decide) (by decide) (by decide)]
  rw [show ∀ x, arenaRor x 2 ^^^ arenaRor x 13 ^^^ arenaRor x 22 = Sha256.upperSigma0 x from
    arenaRor_xor (k := 2) (l := 13) (m := 22) (by decide) (by decide) (by decide)]
  rfl

/-! ## Streaming -/

/-- The context stands for the message `m`, but for the count. -/
structure Holds (c : ArenaSha256) (m : List UInt8) : Prop where
  s : c.s = absorb m
  len : c.len = m.length % 64
  buf : c.buf.take c.len = rest m

/-- The context stands for the message `m`. -/
structure Absorbed (c : ArenaSha256) (m : List UInt8) : Prop extends Holds c m where
  n : c.n = UInt64.ofNat m.length

section
variable {c : ArenaSha256} {m p : List UInt8} {fuel : Nat}

/-- The buffer with `src` behind the partial block. -/
theorem Holds.copyInto (h : Holds c m) (src : List UInt8) :
    (copyInto c.buf c.len src).take (c.len + src.length) = rest m ++ src := by
  have hlen : (rest m ++ src).length = c.len + src.length := by
    rw [List.length_append, Sha256.length_rest, h.len]
  rw [Replay.copyInto, h.buf, List.take_append_of_le_length hlen.ge, List.take_of_length_le hlen.le]

/-- The loop takes in all bytes, and needs a round for each of them at most. -/
theorem Holds.updateLoop (h : Holds c m) (hf : p.length < fuel) :
    ∃ c', updateLoop fuel c p = some c' ∧ Holds c' (m ++ p) ∧ c'.n = c.n := by
  induction fuel generalizing c m p with
  | zero => exact absurd hf (Nat.not_lt_zero _)
  | succ fuel ih =>
    rw [Replay.updateLoop]
    split
    · next hp =>
      rw [List.length_eq_zero_iff.1 hp, List.append_nil]
      exact ⟨c, rfl, h, rfl⟩
    next hp =>
    have hlt : c.len < 64 := h.len ▸ Nat.mod_lt _ (by decide)
    simp only
    generalize htake : (if 64 - c.len > p.length then p.length else 64 - c.len) = take
    have hle : take ≤ p.length ∧ 0 < take ∧ c.len + take ≤ 64 := by
      split at htake <;> omega
    have hsrc : (p.take take).length = take := by rw [List.length_take, Nat.min_eq_left hle.1]
    have hbuf := h.copyInto (p.take take)
    rw [hsrc] at hbuf
    -- the context after this round stands for `m` and the bytes taken
    have hnext : Holds (if c.len + take = 64 then
          { c with s := arenaSha256Block c.s (Replay.copyInto c.buf c.len (p.take take)),
                   buf := Replay.copyInto c.buf c.len (p.take take), len := 0 }
        else { c with buf := Replay.copyInto c.buf c.len (p.take take), len := c.len + take })
        (m ++ p.take take) := by
      split
      · next hfull =>
        rw [hfull] at hbuf
        obtain ⟨ha, hr⟩ := Sha256.absorb_append_full (m := m) (c := p.take take)
          (by rw [hsrc, ← h.len, hfull])
        refine ⟨?_, ?_, hr.symm⟩
        · have h64 : 64 ≤ (Replay.copyInto c.buf c.len (p.take take)).length := by
            have := congrArg List.length hbuf
            rw [List.length_take, List.length_append, Sha256.length_rest, ← h.len, hsrc, hfull]
              at this
            omega
          rw [ha, arenaSha256Block_eq h64, hbuf, h.s]
        · show 0 = _
          rw [List.length_append, hsrc]
          have := h.len
          omega
      · next hfull =>
        obtain ⟨ha, hr⟩ := Sha256.absorb_append (m := m) (c := p.take take)
          (by rw [hsrc, ← h.len]; omega)
        refine ⟨h.s.trans ha.symm, ?_, hbuf.trans hr.symm⟩
        show c.len + take = _
        rw [List.length_append, hsrc]
        have := h.len
        omega
    obtain ⟨c', hc', hh, hn⟩ := ih hnext (p := p.drop take) (by rw [List.length_drop]; omega)
    rw [List.append_assoc, List.take_append_drop] at hh
    refine ⟨c', hc', hh, hn.trans ?_⟩
    split <;> rfl

/-- `arena_sha256_update` appends to the message. -/
theorem Absorbed.update (h : Absorbed c m) (p : List UInt8) :
    ∃ c', arenaSha256Update c p = some c' ∧ Absorbed c' (m ++ p) := by
  have hc : Holds { c with n := c.n + UInt64.ofNat p.length } m := ⟨h.s, h.len, h.buf⟩
  obtain ⟨c', hc', hh, hn⟩ := hc.updateLoop (Nat.lt_succ_self p.length)
  refine ⟨c', hc', hh, hn.trans ?_⟩
  rw [List.length_append, UInt64.ofNat_add, h.n]

/-- So do several calls of it. -/
theorem Absorbed.updates (h : Absorbed c m) (chunks : List (List UInt8)) :
    ∃ c', chunks.foldlM arenaSha256Update c = some c' ∧ Absorbed c' (m ++ chunks.flatten) := by
  induction chunks generalizing c m with
  | nil => exact ⟨c, rfl, by rwa [List.flatten_nil, List.append_nil]⟩
  | cons p chunks ih =>
    obtain ⟨c1, h1, ha⟩ := h.update p
    obtain ⟨c', hc', ha'⟩ := ih ha
    refine ⟨c', ?_, by rwa [List.flatten_cons, ← List.append_assoc]⟩
    rw [List.foldlM_cons, h1]
    exact hc'

/-- The padding loop appends the zeros up to the last eight bytes of a block, and stops there. -/
theorem Absorbed.padLoop {z : Nat} (h : Absorbed c m) (hz : z = (120 - m.length % 64) % 64)
    (hf : z < fuel) :
    ∃ c', padLoop fuel c = some c' ∧ Absorbed c' (m ++ List.replicate z 0) := by
  induction fuel generalizing c m z with
  | zero => exact absurd hf (Nat.not_lt_zero _)
  | succ fuel ih =>
    rw [Replay.padLoop, h.len]
    split
    · next h56 =>
      obtain rfl : z = 0 := by omega
      exact ⟨c, rfl, by rwa [List.replicate_zero, List.append_nil]⟩
    · next h56 =>
      obtain ⟨c1, h1, ha⟩ := h.update [0]
      obtain ⟨z, rfl⟩ : ∃ k, z = k + 1 := ⟨z - 1, by omega⟩
      obtain ⟨c', hc', ha'⟩ := ih ha (z := z)
        (by rw [List.length_append, List.length_singleton]; omega) (by omega)
      refine ⟨c', by rw [h1]; exact hc', ?_⟩
      rwa [List.append_assoc, List.singleton_append, ← List.replicate_succ] at ha'

/-- The bytes of the count, times eight. -/
theorem bits_eq (l : Nat) : (List.range 8).map (fun i =>
    ((UInt64.ofNat l * 8) >>> UInt64.ofNat (56 - i * 8)).toUInt8) = beBytes 8 (8 * l) := by
  refine List.map_congr_left fun i hi => UInt8.toNat_inj.1 ?_
  have hi := List.mem_range.1 hi
  have hpow : 256 ^ (8 - 1 - i) = 2 ^ (56 - i * 8) := by
    rw [show 56 - i * 8 = 8 * (8 - 1 - i) by omega, Nat.pow_mul]
  have hshift : (UInt64.ofNat (56 - i * 8)).toNat % 64 = 56 - i * 8 := by
    rw [UInt64.toNat_ofNat_of_lt' (by show _ < 2 ^ 64; omega)]
    omega
  rw [UInt64.toNat_toUInt8, UInt64.toNat_shiftRight, hshift, Nat.shiftRight_eq_div_pow,
    UInt64.toNat_mul, UInt64.toNat_ofNat', UInt8.toNat_ofNat', hpow, Nat.mul_comm 8 l]
  show l % 2 ^ 64 * 8 % 2 ^ 64 / _ % _ = _
  rw [Nat.mod_mul_mod, show 2 ^ 64 = 2 ^ (56 - i * 8) * 2 ^ (64 - (56 - i * 8)) by
    rw [← Nat.pow_add, Nat.add_sub_cancel' (by omega)], Nat.mod_mul_right_div_self]
  exact Nat.mod_mod_of_dvd _ (Nat.pow_dvd_pow 2 (by omega))

theorem bytes_eq (w : UInt32) :
    [(w >>> 24).toUInt8, (w >>> 16).toUInt8, (w >>> 8).toUInt8, w.toUInt8] = beBytes 4 w.toNat := by
  refine List.ext_getElem? fun i => ?_
  rcases i with _ | _ | _ | _ | i
  all_goals simp [beBytes, ← UInt8.toNat_inj, Nat.shiftRight_eq_div_pow]

/-- `arena_sha256_final` gives the hash of the message. -/
theorem Absorbed.final (h : Absorbed c m) : arenaSha256Final c = some (Sha256.hash m) := by
  obtain ⟨c1, h1, ha1⟩ := h.update [0x80]
  obtain ⟨c2, h2, ha2⟩ : ∃ c', Replay.padLoop 64 c1 = some c' ∧ _ :=
    ha1.padLoop (z := (119 - m.length % 64) % 64)
      (by rw [List.length_append, List.length_singleton]; omega) (Nat.mod_lt _ (by decide))
  obtain ⟨c3, h3, ha3⟩ := ha2.update (beBytes 8 (8 * m.length))
  simp only [arenaSha256Final, h.n, bits_eq, h1, h2, h3, bytes_eq, Option.bind_eq_bind,
    Option.bind_some, ha3.s]
  rfl

theorem Absorbed.init (buf : List UInt8) : Absorbed (arenaSha256Init buf) [] where
  s := arenaSha256Init_s buf
  len := rfl
  buf := rfl
  n := rfl

theorem arenaSha256_eq (buf : List UInt8) (chunks : List (List UInt8)) :
    arenaSha256 buf chunks = some (Sha256.hash chunks.flatten) := by
  obtain ⟨c, hc, ha⟩ := (Absorbed.init buf).updates chunks
  rw [arenaSha256, hc]
  exact ha.final

/-- The key filled up with zeros. -/
theorem copyInto_zeros (key : List UInt8) :
    copyInto (List.replicate 64 0) 0 key = key ++ List.replicate (64 - key.length) 0 := by
  rw [copyInto, List.take_zero, List.nil_append, List.drop_replicate, Nat.zero_add]

theorem arenaHmacSha256_eq (buf key msg : List UInt8) :
    arenaHmacSha256 buf key msg = some (Sha256.hmac key msg) := by
  by_cases h : 64 < key.length
  all_goals
    simp only [arenaHmacSha256, Sha256.hmac, arenaSha256_eq, copyInto_zeros, h, if_true, if_false,
      Option.map_some, Option.bind_eq_bind, Option.bind_some, List.flatten_cons,
      List.flatten_nil, List.append_nil]

/-- Streaming SHA-256 and HMAC are the functions of the standard: whatever the memory held and
however the message is cut into calls of `arena_sha256_update`, `arena_sha256_final` returns the
hash of the whole message, and `arena_hmac_sha256` the keyed hash, for every key and message. -/
theorem sha256_streaming (buf : List UInt8) :
    (∀ chunks, arenaSha256 buf chunks = some (Sha256.hash chunks.flatten)) ∧
      ∀ key msg, arenaHmacSha256 buf key msg = some (Sha256.hmac key msg) :=
  ⟨arenaSha256_eq buf, arenaHmacSha256_eq buf⟩

/-- The digest of "abc" in two calls starts with `ba7816bf`. -/
example : (arenaSha256 [] [[97], [98, 99]]).map (List.take 4) = some [0xba, 0x78, 0x16, 0xbf] := by
  decide +kernel

end

end ArenaJs.Replay
