import ArenaJs.Lib.Wire

/-!
# Tape blobs

`rtap.mjs` writes the recorded inputs of a channel as one blob and reads it back. All lengths stand
in front of what they measure, but a payload is read with `subarray`, which ends where the bytes
end: a blob that is cut inside the last payload of its last entry is read without an error, with
that payload cut. Every shorter prefix throws (`parseTapeBlob_take`). The text decoder takes a byte
order mark off the front of a text, and all else comes back as it was
(`parseTapeBlob_serializeTape`).

A text without unpaired surrogates is a list of characters. What the decoder makes of other bytes
than those of a text, and how a large integer is rounded to a number, is left to the `Host`.
-/

namespace ArenaJs.Rtap

open Reader

/-! ## Values -/

/-- A well-formed string. -/
abbrev Text := List Char

/-- `_encoder.encode`. -/
def encode (s : Text) : List UInt8 := s.flatMap String.utf8EncodeChar

/-- The decoder takes one byte order mark off the front. -/
def dropBom : Text → Text
  | c :: s => if c = '\uFEFF' then s else c :: s
  | [] => []

/-- What of the host does not matter here. -/
structure Host where
  lossy : List UInt8 → Text
  round : Int → Int

/-- `_decoder.decode`. -/
def Host.decode (host : Host) (b : List UInt8) : Text :=
  match b.toByteArray.utf8Decode? with
  | some s => dropBom s.toList
  | none => host.lossy b

/-- `Number` of a big integer; the integers up to `2 ** 53` are numbers. -/
def Host.toNumber (host : Host) (n : Int) : Int := if n.natAbs ≤ 2 ^ 53 then n else host.round n

/-- A number by its bits; there is one number that is not a number. -/
def jsNumber (bits : Nat) : Nat :=
  if bits / 2 ^ 52 % 2 ^ 11 = 2 ^ 11 - 1 ∧ bits % 2 ^ 52 ≠ 0 then 0x7FF8000000000000 else bits

inductive Channel
  | kv | date | mathRandom | cryptoRandom | module
  deriving DecidableEq, Repr

/-- `CHANNEL_KV` and the others. -/
def Channel.code : Channel → Nat
  | kv => 0
  | date => 1
  | mathRandom => 2
  | cryptoRandom => 3
  | module => 4

def Channel.ofCode : Nat → Option Channel
  | 0 => some kv
  | 1 => some date
  | 2 => some mathRandom
  | 3 => some cryptoRandom
  | 4 => some module
  | _ => none

@[ext] structure Row where
  key : Text
  value : Text
  deriving DecidableEq

/-- An entry of the store's channel; a field that is not there is `none`. -/
structure KvEntry where
  op : Option UInt8
  outcome : Option UInt8
  key : Text
  value : Option Text
  cursor : Option Text
  limit : Option Nat
  results : Option (List Row)
  deriving DecidableEq

structure ModuleEntry where
  specifier : Text
  sourceHashHex : Text
  deriving DecidableEq

abbrev Entry : Channel → Type
  | .kv => KvEntry
  | .date => Int
  | .mathRandom => Nat
  | .cryptoRandom => List UInt8
  | .module => ModuleEntry

/-- What `parseTapeBlob` returns; a channel it does not know has no entries. -/
inductive Tape
  | of (channel : Channel) (entries : List (Entry channel))
  | unknown (channel : Nat)

/-! ## Writing -/

/-- `Writer.str`. -/
def str (s : Text) : List UInt8 := beBytes 4 (encode s).length ++ encode s

/-- `Writer.u8`. -/
def u8 (v : Option UInt8) : List UInt8 := [v.getD 0]

/-- `KV_OP_PREFIX`. -/
def kvOpPrefix : UInt8 := 3

def encodeKv (e : KvEntry) : List UInt8 :=
  u8 e.op ++ (u8 e.outcome ++ (str e.key ++
    if e.op = some kvOpPrefix then
      str (e.cursor.getD []) ++
        (beBytes 4 (e.limit.getD 0) ++ (beBytes 4 (e.results.getD []).length ++
        (e.results.getD []).flatMap fun p => str p.key ++ str p.value))
    else str (e.value.getD [])))

/-- `encodeEntry`. -/
def encodeEntry : (channel : Channel) → Entry channel → List UInt8
  | .kv, (e : KvEntry) => encodeKv e
  | .date, (ms : Int) => beBytes 8 (ms % 2 ^ 64).toNat
  | .mathRandom, (v : Nat) => beBytes 8 v
  | .cryptoRandom, (b : List UInt8) => beBytes 4 b.length ++ b
  | .module, (e : ModuleEntry) => str e.specifier ++ str e.sourceHashHex

/-- `RTAP_MAGIC` and `RTAP_VERSION`. -/
def rtapMagic : Nat := 0x52544150
def rtapVersion : Nat := 1

/-- An entry with its length. -/
def frame (channel : Channel) (e : Entry channel) : List UInt8 :=
  beBytes 4 (encodeEntry channel e).length ++ encodeEntry channel e

/-- `serializeTape`. -/
def serializeTape (channel : Channel) (entries : List (Entry channel)) : List UInt8 :=
  beBytes 4 rtapMagic ++ (beBytes 2 rtapVersion ++ (beBytes 2 channel.code ++
    (beBytes 4 entries.length ++ entries.flatMap (frame channel))))

/-! ## Reading -/

/-- `bytes[off++]`, which is `undefined` at the end. -/
def byte : Reader (Option UInt8) := fun b => some (b.head?, b.tail)

section
variable (host : Host)

/-- `readLenPrefixed`. -/
def readLenPrefixed : Reader (List UInt8) := do slice (← number 4)

/-- `readUtf8`. -/
def readUtf8 : Reader Text := host.decode <$> readLenPrefixed

def readRow : Reader Row := do
  let k ← readUtf8 host
  (⟨k, ·⟩) <$> readUtf8 host

/-- The rest of a scan of the store. -/
def readScan (op outcome : Option UInt8) (key : Text) : Reader KvEntry := do
  let cursor ← readUtf8 host
  let limit ← number 4
  let count ← number 4
  (⟨op, outcome, key, none, some cursor, some limit, some ·⟩) <$> many (readRow host) count

/-- What follows the key. -/
def readAfterKey (op outcome : Option UInt8) (key : Text) : Reader KvEntry :=
  if op = some kvOpPrefix then readScan host op outcome key
  else (⟨op, outcome, key, some ·, none, none, none⟩) <$> readUtf8 host

def decodeKv : Reader KvEntry := do
  let op ← byte
  let outcome ← byte
  let key ← readUtf8 host
  readAfterKey host op outcome key

/-- `getBigInt64`. -/
def toInt64 (n : Nat) : Int := if n < 2 ^ 63 then n else n - 2 ^ 64

/-- `decodeEntry`. -/
def decodeEntry : (channel : Channel) → Reader (Entry channel)
  | .kv => decodeKv host
  | .date => (fun n => host.toNumber (toInt64 n)) <$> number 8
  | .mathRandom => jsNumber <$> number 8
  | .cryptoRandom => readLenPrefixed
  | .module => do
    let specifier ← readUtf8 host
    (⟨specifier, ·⟩) <$> readUtf8 host

/-- The entries of a channel; the first entry of an unknown one throws. -/
def readEntries (channel count : Nat) : Reader Tape :=
  match Channel.ofCode channel with
  | some c => .of c <$> many (framed (decodeEntry host c)) count
  | none => if count = 0 then pure (.unknown channel) else failure

def readTape : Reader Tape := do
  expect 4 rtapMagic
  expect 2 rtapVersion
  let channel ← number 2
  let count ← number 4
  readEntries host channel count

/-- `parseTapeBlob`, or nothing if it throws. -/
def parseTapeBlob (bytes : List UInt8) : Option Tape := (readTape host bytes).map Prod.fst

end

/-! ## Entries that can be written -/

/-- The length of the text fits in its field. -/
def Fits (s : Text) : Prop := (encode s).length < 2 ^ 32

/-- An entry of the store's channel that can be written: a scan has a cursor, a limit and rows, any
other operation a value. -/
inductive KvEntry.Encodable : KvEntry → Prop
  | value {op outcome : UInt8} {key value : Text} : op ≠ kvOpPrefix → Fits key → Fits value →
      KvEntry.Encodable ⟨some op, some outcome, key, some value, none, none, none⟩
  | scan {outcome : UInt8} {key cursor : Text} {limit : Nat} {results : List Row} : Fits key →
      Fits cursor → limit < 2 ^ 32 → results.length < 2 ^ 32 →
      (∀ p ∈ results, Fits p.key ∧ Fits p.value) →
      KvEntry.Encodable ⟨some kvOpPrefix, some outcome, key, none, some cursor, some limit,
        some results⟩

/-- A date is an integer below `2 ** 53` in magnitude. -/
def Entry.Encodable : (channel : Channel) → Entry channel → Prop
  | .kv, (e : KvEntry) => e.Encodable
  | .date, (ms : Int) => ms.natAbs < 2 ^ 53
  | .mathRandom, (v : Nat) => v < 2 ^ 64 ∧ jsNumber v = v
  | .cryptoRandom, (b : List UInt8) => b.length < 2 ^ 32
  | .module, (e : ModuleEntry) => Fits e.specifier ∧ Fits e.sourceHashHex

/-- The entries can be written, and their lengths and their number fit in their fields. -/
structure Encodable (channel : Channel) (entries : List (Entry channel)) : Prop where
  entry : ∀ e ∈ entries, Entry.Encodable channel e
  size : ∀ e ∈ entries, (encodeEntry channel e).length < 2 ^ 32
  count : entries.length < 2 ^ 32

def KvEntry.cut (e : KvEntry) : Nat :=
  if e.op = some kvOpPrefix then
    Reads.slack (fun p : Row => (encode p.value).length) (e.results.getD [])
  else (encode (e.value.getD [])).length

/-- The bytes of the last payload of an entry. -/
def Entry.cut : (channel : Channel) → Entry channel → Nat
  | .kv, (e : KvEntry) => e.cut
  | .date, _ => 0
  | .mathRandom, _ => 0
  | .cryptoRandom, (b : List UInt8) => b.length
  | .module, (e : ModuleEntry) => (encode e.sourceHashHex).length

def KvEntry.texts (e : KvEntry) : List Text :=
  [e.key] ++ e.value.toList ++ e.cursor.toList ++ (e.results.getD []).flatMap fun p =>
    [p.key, p.value]

/-- The texts of an entry. -/
def Entry.texts : (channel : Channel) → Entry channel → List Text
  | .kv, (e : KvEntry) => e.texts
  | .module, (e : ModuleEntry) => [e.specifier, e.sourceHashHex]
  | _, _ => []

def Row.mapText (f : Text → Text) (p : Row) : Row := ⟨f p.key, f p.value⟩

def KvEntry.mapText (f : Text → Text) (e : KvEntry) : KvEntry :=
  { e with
    key := f e.key
    value := e.value.map f
    cursor := e.cursor.map f
    results := e.results.map (List.map (Row.mapText f)) }

/-- The entry with each text changed. -/
def Entry.mapText (f : Text → Text) : (channel : Channel) → Entry channel → Entry channel
  | .kv, (e : KvEntry) => e.mapText f
  | .module, (e : ModuleEntry) => (⟨f e.specifier, f e.sourceHashHex⟩ : ModuleEntry)
  | _, e => e

section
variable {host : Host} {s : Text} {channel : Channel} {entries : List (Entry channel)}

theorem Host.decode_encode (host : Host) (s : Text) : host.decode (encode s) = dropBom s := by
  have h : (encode s).toByteArray.utf8Decode? = some s.toArray := List.utf8Decode?_utf8Encode
  rw [Host.decode, h]

theorem dropBom_eq_self : dropBom s = s ↔ s.head? ≠ some '\uFEFF' := by
  cases s with
  | nil => simp [dropBom]
  | cons c s =>
    by_cases hc : c = '\uFEFF'
    · simp [dropBom, hc]
    · simp [dropBom, hc]

theorem KvEntry.mapText_eq_self {f : Text → Text} {e : KvEntry} :
    e.mapText f = e ↔ ∀ s ∈ e.texts, f s = s := by
  obtain ⟨op, outcome, key, value, cursor, limit, results⟩ := e
  have hopt : ∀ o : Option Text, o.map f = o ↔ ∀ s ∈ o.toList, f s = s := by
    rintro (_ | s) <;> simp
  have hlist : ∀ l : List Row, l.map (Row.mapText f) = l ↔
      ∀ s ∈ l.flatMap fun p => [p.key, p.value], f s = s := fun l => by
    induction l with
    | nil => simp
    | cons p l ih =>
      rw [List.map_cons, List.cons.injEq, ih, Row.mapText, Row.ext_iff]
      simp [and_assoc]
  have hrows : results.map (List.map (Row.mapText f)) = results ↔
      ∀ s ∈ (results.getD []).flatMap fun p => [p.key, p.value], f s = s := by
    cases results with
    | none => simp
    | some l => simpa using hlist l
  rw [KvEntry.mapText, KvEntry.mk.injEq, KvEntry.texts]
  simp only [hopt, hrows, List.mem_append, or_imp, forall_and, List.mem_singleton,
    forall_eq, true_and,
    and_assoc]

theorem Entry.mapText_eq_self {f : Text → Text} {e : Entry channel} :
    Entry.mapText f channel e = e ↔ ∀ s ∈ Entry.texts channel e, f s = s := by
  cases channel with
  | kv => exact KvEntry.mapText_eq_self
  | module =>
    obtain ⟨specifier, hash⟩ := e
    simp [Entry.mapText, Entry.texts]
  | _ => simp [Entry.mapText, Entry.texts]

theorem length_str (s : Text) : (str s).length = 4 + (encode s).length := by
  rw [str, List.length_append, length_beBytes]

theorem reads_byte (x : UInt8) : Reads byte [x] (some x) 0 where
  le := Nat.zero_le _
  full _ := rfl
  short _ h := absurd h (Nat.not_lt_zero _)
  long t _ ht := by
    obtain rfl : t = 0 := Nat.lt_one_iff.1 ht
    exact ⟨none, rfl⟩

theorem reads_utf8 (hs : Fits s) : Reads (readUtf8 host) (str s) (dropBom s) 4 := by
  have := (Reads.lenPrefixed hs).map host.decode
  rwa [host.decode_encode] at this

theorem readAfterKey_nil {op outcome : Option UInt8} {key : Text} :
    readAfterKey host op outcome key [] = none := by
  unfold readAfterKey
  split <;> rfl

/-- Two texts, as a row or a module entry has them. -/
theorem reads_two {α : Type} {f : Text → Text → α} {s1 s2 : Text} (h1 : Fits s1) (h2 : Fits s2) :
    Reads (do let a ← readUtf8 host; (f a ·) <$> readUtf8 host) (str s1 ++ str s2)
      (f (dropBom s1) (dropBom s2)) ((str s1 ++ str s2).length - (encode s2).length) ∧
      (encode s2).length < (str s1 ++ str s2).length := by
  have hlen : (str s1 ++ str s2).length = (str s1).length + 4 + (encode s2).length := by
    rw [List.length_append, length_str s2, Nat.add_assoc]
  refine ⟨?_, by omega⟩
  rw [hlen, Nat.add_sub_cancel]
  exact (reads_utf8 h1).bind ((reads_utf8 h2).map _) (.inr ⟨by decide, fun _ => rfl⟩)

/-- The rest of a scan. -/
theorem reads_scan {op outcome : Option UInt8} {key cursor : Text} {limit : Nat}
    {results : List Row}
    (hcursor : Fits cursor) (hlimit : limit < 2 ^ 32) (hcount : results.length < 2 ^ 32)
    (hrows : ∀ p ∈ results, Fits p.key ∧ Fits p.value) {w : List UInt8} {cut : Nat}
    (hw : str cursor ++ (beBytes 4 limit ++ (beBytes 4 results.length ++
      results.flatMap fun p => str p.key ++ str p.value)) = w)
    (hcut : Reads.slack (fun p : Row => (encode p.value).length) results = cut) :
    Reads (readScan host op outcome key) w
      ⟨op, outcome, key, none, some (dropBom cursor), some limit,
        some (results.map (Row.mapText dropBom))⟩ (w.length - cut) ∧ cut < w.length := by
  obtain ⟨hmany, hpos⟩ := Reads.many (r := readRow host) (Row.mapText dropBom)
    (fun p => str p.key ++ str p.value) (fun p => (encode p.value).length) rfl
    fun p hp => reads_two (hrows p hp).1 (hrows p hp).2
  have h : Reads (readScan host op outcome key) _ _ _ :=
    (reads_utf8 hcursor).bind ((Reads.number (k := 4) hlimit).bind
      ((Reads.number (k := 4) hcount).bind (hmany.map _) (.inl (length_beBytes ..).symm))
      (.inl (length_beBytes ..).symm)) (.inr ⟨by rw [length_beBytes]; omega, fun _ => rfl⟩)
  rw [hw, hcut] at h
  have hle : cut ≤ (results.flatMap fun p => str p.key ++ str p.value).length := by
    cases results with
    | nil => exact hcut ▸ Nat.le_refl 0
    | cons p l => exact hcut ▸ (hpos (List.cons_ne_nil p l)).le
  have hlen := congrArg List.length hw
  simp only [List.length_append, length_beBytes] at hlen h
  refine ⟨?_, by omega⟩
  rwa [show w.length - cut = (str cursor).length + (4 + (4 + ((results.flatMap fun p =>
    str p.key ++ str p.value).length - cut))) by omega]

/-- The operation, the outcome and the key, and what follows. -/
theorem reads_head {op outcome : UInt8} {key : Text} {w : List UInt8} {e : KvEntry} {n : Nat}
    (hkey : Fits key) (h : Reads (readAfterKey host (some op) (some outcome) (dropBom key)) w e n)
    (hn : 0 < n) : Reads (decodeKv host) ([op] ++ ([outcome] ++ (str key ++ w))) e
      (1 + (1 + ((str key).length + n))) :=
  (reads_byte op).bind ((reads_byte outcome).bind ((reads_utf8 hkey).bind h
    (.inr ⟨hn, fun _ => readAfterKey_nil⟩))
    (.inr ⟨by omega, fun _ => rfl⟩)) (.inr ⟨by omega, fun _ => rfl⟩)

/-- An entry of the store's channel: a scan, or an operation with a value. -/
theorem reads_kv {e : KvEntry} (h : e.Encodable) :
    Reads (decodeKv host) (encodeKv e) (e.mapText dropBom) ((encodeKv e).length - e.cut) ∧
      e.cut < (encodeKv e).length := by
  cases h with
  | @value op outcome key value hop hkey hvalue =>
    have hno : some op ≠ some kvOpPrefix := fun h => hop (Option.some.inj h)
    have hlast : Reads (readAfterKey host (some op) (some outcome) (dropBom key)) (str value)
        ⟨some op, some outcome, dropBom key, some (dropBom value), none, none, none⟩ 4 := by
      rw [readAfterKey, if_neg hno]
      exact (reads_utf8 hvalue).map _
    have henc : encodeKv ⟨some op, some outcome, key, some value, none, none, none⟩ =
        [op] ++ ([outcome] ++ (str key ++ str value)) := by
      rw [encodeKv, if_neg hno]
      rfl
    have hcut : KvEntry.cut ⟨some op, some outcome, key, some value, none, none, none⟩ =
        (encode value).length := if_neg hno
    have hlen : ([op] ++ ([outcome] ++ (str key ++ str value))).length =
        1 + (1 + ((str key).length + 4)) + (encode value).length := by
      simp only [List.length_append, List.length_singleton, length_str value]
      omega
    rw [henc, hcut, hlen, Nat.add_sub_cancel]
    exact ⟨reads_head hkey hlast (by decide), by omega⟩
  | @scan outcome key cursor limit results hkey hcursor hlimit hcount hrows =>
    have henc : encodeKv ⟨some kvOpPrefix, some outcome, key, none, some cursor, some limit,
      some results⟩ =
        [kvOpPrefix] ++ ([outcome] ++ (str key ++ (str cursor ++ (beBytes 4 limit ++
          (beBytes 4 results.length ++ results.flatMap fun p => str p.key ++ str p.value))))) := by
      rw [encodeKv, if_pos rfl]
      rfl
    generalize hw : str cursor ++ (beBytes 4 limit ++ (beBytes 4 results.length ++
      results.flatMap fun p => str p.key ++ str p.value)) = w at henc
    generalize hcut : KvEntry.cut
      ⟨some kvOpPrefix, some outcome, key, none, some cursor, some limit,
      some results⟩ = cut
    obtain ⟨hlast, hlt⟩ : Reads (readAfterKey host (some kvOpPrefix) (some outcome) (dropBom key))
      w _ _ ∧
      _ := reads_scan hcursor hlimit hcount hrows hw hcut
    have hlen : ([kvOpPrefix] ++ ([outcome] ++ (str key ++ w))).length =
        1 + (1 + ((str key).length + w.length)) := by
      simp only [List.length_append, List.length_singleton]
    rw [henc, hlen]
    refine ⟨?_, by omega⟩
    rw [show 1 + (1 + ((str key).length + w.length)) - cut =
      1 + (1 + ((str key).length + (w.length - cut))) by omega]
    exact reads_head hkey hlast (by omega)

/-- An entry. -/
theorem reads_entry {e : Entry channel} (h : Entry.Encodable channel e) :
    Reads (decodeEntry host channel) (encodeEntry channel e) (Entry.mapText dropBom channel e)
      ((encodeEntry channel e).length - Entry.cut channel e) ∧
      Entry.cut channel e < (encodeEntry channel e).length := by
  cases channel with
  | kv => exact reads_kv h
  | date =>
    have hr := (Reads.number (k := 8) (v := (e % 2 ^ 64).toNat) (by omega)).map fun n =>
      host.toNumber (toInt64 n)
    have hval : host.toNumber (toInt64 (e % 2 ^ 64).toNat) = e := by
      have hmag : e.natAbs < 2 ^ 53 := h
      have hint : toInt64 (e % 2 ^ 64).toNat = e := by
        rw [toInt64]
        split <;> omega
      rw [hint, Host.toNumber, if_pos hmag.le]
    rw [hval] at hr
    rw [show (encodeEntry .date e).length = 8 from length_beBytes ..]
    exact ⟨hr, Nat.zero_lt_succ 7⟩
  | mathRandom =>
    have hr := (Reads.number (k := 8) h.1).map jsNumber
    rw [h.2] at hr
    rw [show (encodeEntry .mathRandom e).length = 8 from length_beBytes ..]
    exact ⟨hr, Nat.zero_lt_succ 7⟩
  | cryptoRandom =>
    have hlen : (encodeEntry .cryptoRandom e).length = 4 + e.length := by simp [encodeEntry]
    refine ⟨?_, by rw [hlen]; show e.length < _; omega⟩
    rw [hlen, show 4 + e.length - Entry.cut .cryptoRandom e = 4 from Nat.add_sub_cancel ..]
    exact Reads.lenPrefixed h
  | module => exact reads_two h.1 h.2

/-! ## Blobs -/

theorem Channel.ofCode_code (channel : Channel) : Channel.ofCode channel.code = some channel := by
  cases channel <;> rfl

theorem readEntries_code (channel : Channel) (count : Nat) : readEntries host channel.code count =
    Tape.of channel <$> many (framed (decodeEntry host channel)) count := by
  rw [readEntries, Channel.ofCode_code]

/-- The blob. -/
theorem reads_blob (h : Encodable channel entries) :
    Reads (readTape host) (serializeTape channel entries)
      (.of channel (entries.map (Entry.mapText dropBom channel)))
      ((serializeTape channel entries).length - Reads.slack (Entry.cut channel) entries) ∧
      Reads.slack (Entry.cut channel) entries < (serializeTape channel entries).length := by
  obtain ⟨hmany, hpos⟩ := Reads.many (r := framed (decodeEntry host channel))
    (Entry.mapText dropBom channel) (frame channel) (Entry.cut channel) rfl (l := entries)
    fun e he => by
      obtain ⟨hread, hlt⟩ : Reads (decodeEntry host channel) _ _ _ ∧ _ := reads_entry (h.entry e he)
      have hlen : (frame channel e).length = 4 + (encodeEntry channel e).length := by
        rw [frame, List.length_append, length_beBytes]
      rw [hlen, Nat.add_sub_assoc hlt.le]
      exact ⟨hread.framed (h.size e he), by omega⟩
  have hentries := hmany.map (Tape.of channel)
  rw [← readEntries_code] at hentries
  have hcode : channel.code < 256 ^ 2 := by cases channel <;> decide
  have hread : Reads (readTape host) (serializeTape channel entries) _ _ :=
    (Reads.expect (k := 4) (by decide)).bind ((Reads.expect (k := 2) (by decide)).bind
      ((Reads.number hcode).bind ((Reads.number (k := 4) h.count).bind hentries
        (.inl (length_beBytes ..).symm)) (.inl (length_beBytes ..).symm))
      (.inl (length_beBytes ..).symm)) (.inl (length_beBytes ..).symm)
  have hle : Reads.slack (Entry.cut channel) entries ≤
    (entries.flatMap (frame channel)).length := by
    cases entries with
    | nil => exact Nat.le_refl 0
    | cons e l => exact (hpos (List.cons_ne_nil e l)).le
  have hlen : (serializeTape channel entries).length =
      4 + (2 + (2 + (4 + (entries.flatMap (frame channel)).length))) := by
    simp [serializeTape, length_beBytes]
  simp only [length_beBytes] at hread
  rw [hlen]
  refine ⟨?_, by omega⟩
  rwa [show 4 + (2 + (2 + (4 + (entries.flatMap (frame channel)).length))) -
    Reads.slack (Entry.cut channel) entries = 4 + (2 + (2 + (4 +
      ((entries.flatMap (frame channel)).length - Reads.slack (Entry.cut channel) entries)))) by
        omega]

/-- A blob is read back, each text without its byte order mark. -/
theorem parseTapeBlob_serializeTape (host : Host) (h : Encodable channel entries) :
    parseTapeBlob host (serializeTape channel entries) =
      some (.of channel (entries.map (Entry.mapText dropBom channel))) := by
  have hr : Reads (readTape host) _ _ _ := (reads_blob h).1
  have hfull := hr.full []
  rw [List.append_nil] at hfull
  rw [parseTapeBlob, hfull]
  rfl

/-- A prefix of a blob throws unless it is cut inside the last payload. -/
theorem parseTapeBlob_take (host : Host) (h : Encodable channel entries) {t : Nat}
    (ht : t < (serializeTape channel entries).length) :
    parseTapeBlob host ((serializeTape channel entries).take t) = none ↔
      t < (serializeTape channel entries).length - Reads.slack (Entry.cut channel) entries := by
  have hr : Reads (readTape host) _ _ _ := (reads_blob h).1
  rw [parseTapeBlob]
  rcases Nat.lt_or_ge t ((serializeTape channel entries).length -
    Reads.slack (Entry.cut channel) entries) with hlt | hge
  · simp [hr.short t hlt, hlt]
  · obtain ⟨a, ha⟩ := hr.long t hge ht
    simp [ha, Nat.not_lt.2 hge]

/-- A tape comes back from its blob, and no strict prefix of the blob is read. -/
def SelfDelimiting (host : Host) (channel : Channel) (entries : List (Entry channel)) : Prop :=
  parseTapeBlob host (serializeTape channel entries) = some (.of channel entries) ∧
    ∀ t < (serializeTape channel entries).length,
      parseTapeBlob host ((serializeTape channel entries).take t) = none

/-- A blob is self-delimiting exactly when no text starts with a byte order mark and the last entry
has nothing in its last payload. -/
theorem selfDelimiting_iff (host : Host) (h : Encodable channel entries) :
    SelfDelimiting host channel entries ↔
      (∀ e ∈ entries, ∀ s ∈ Entry.texts channel e, s.head? ≠ some '\uFEFF') ∧
        ∀ e ∈ entries.getLast?, Entry.cut channel e = 0 := by
  have hsame : parseTapeBlob host (serializeTape channel entries) = some (.of channel entries) ↔
      ∀ e ∈ entries, ∀ s ∈ Entry.texts channel e, s.head? ≠ some '\uFEFF' := by
    have hmap : entries.map (Entry.mapText dropBom channel) = entries ↔
        ∀ e ∈ entries, Entry.mapText dropBom channel e = e := by
      simpa using List.map_inj_left (f := Entry.mapText dropBom channel) (g := id) (l := entries)
    rw [parseTapeBlob_serializeTape host h, Option.some.injEq, Tape.of.injEq]
    simp [heq_eq_eq, hmap, Entry.mapText_eq_self, dropBom_eq_self]
  have hcut : (∀ t < (serializeTape channel entries).length,
      parseTapeBlob host ((serializeTape channel entries).take t) = none) ↔
      ∀ e ∈ entries.getLast?, Entry.cut channel e = 0 := by
    have hpos : Reads.slack (Entry.cut channel) entries < (serializeTape channel entries).length :=
      (@reads_blob host _ _ h).2
    have hslack : Reads.slack (Entry.cut channel) entries = 0 ↔
        ∀ e ∈ entries.getLast?, Entry.cut channel e = 0 := by
      rw [Reads.slack]
      cases entries.getLast? <;> simp
    rw [← hslack]
    constructor
    · intro hall
      have := (parseTapeBlob_take host h (Nat.sub_lt (Nat.zero_lt_of_lt hpos) Nat.one_pos)).1
        (hall _ (Nat.sub_lt (Nat.zero_lt_of_lt hpos) Nat.one_pos))
      omega
    · intro h0 t ht
      exact (parseTapeBlob_take host h ht).2 (by omega)
  exact and_congr hsame hcut

/-- A store entry without a value, for example. -/
theorem selfDelimiting_delete : SelfDelimiting ⟨fun _ => [], id⟩ .kv
    [⟨some 2, some 0, ['a'], some [], none, none, none⟩] := by
  have hfits : Fits ['a'] ∧ Fits [] := ⟨by unfold Fits; decide, by unfold Fits; decide⟩
  have henc : KvEntry.Encodable ⟨some 2, some 0, ['a'], some [], none, none, none⟩ :=
    .value (by decide) hfits.1 hfits.2
  refine (selfDelimiting_iff _ ⟨fun e he => ?_, fun e he => ?_, by decide⟩).2
    ⟨by simp [Entry.texts, KvEntry.texts], fun e he => ?_⟩
  · obtain rfl := List.mem_singleton.1 he
    exact henc
  · obtain rfl := List.mem_singleton.1 he
    decide
  · cases he
    decide

/-- A blob that is cut inside its only payload is read as a shorter one, and a byte order mark is
lost. -/
theorem tape_cut_and_bom :
    Encodable .cryptoRandom [[1]] ∧
    parseTapeBlob ⟨fun _ => [], id⟩ ((serializeTape .cryptoRandom [[1]]).take 20) =
      some (.of .cryptoRandom [[]]) ∧
    (serializeTape .cryptoRandom [[1]]).length = 21 ∧
    Encodable .module [⟨['\uFEFF', 'a'], []⟩] ∧
    parseTapeBlob ⟨fun _ => [], id⟩ (serializeTape .module [⟨['\uFEFF', 'a'], []⟩]) =
      some (.of .module [⟨['a'], []⟩]) := by
  have hmod : Encodable .module [⟨['\uFEFF', 'a'], []⟩] :=
    ⟨by simp [Entry.Encodable]; unfold Fits; decide, by simp; decide, by decide⟩
  exact ⟨⟨by simp [Entry.Encodable], by simp; decide, by decide⟩, rfl, rfl, hmod,
    parseTapeBlob_serializeTape _ hmod⟩

end

end ArenaJs.Rtap
