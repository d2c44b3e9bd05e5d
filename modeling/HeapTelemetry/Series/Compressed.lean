import HeapTelemetry.Bytes

/-! The block format of compressed payloads: literal runs and copies of earlier
output, behind the output's length. Reading takes every block; which runs and
copies are written is up to the compressor. -/

namespace HeapTelemetry.Compressed

/-- What a length beyond 14 adds after the token: bytes of 255 and a rest. -/
def extension (n : Nat) : Bytes := List.replicate (n / 255) 255 ++ [UInt8.ofNat (n % 255)]

/-- One run of literals. -/
def literals (raw : Bytes) : Bytes :=
  if raw.length < 15 then UInt8.ofNat (16 * raw.length) :: raw
  else 0xf0 :: extension (raw.length - 15) ++ raw

/-- A payload without copies: the length of the output, then one run. -/
def compress (raw : Bytes) : Bytes := Bytes.word 4 raw.length ++ literals raw

/-- Adds up the bytes of an extension. -/
def extension? : Bytes → Option (Nat × Bytes)
  | [] => none
  | b :: rest =>
    if b = 255 then (extension? rest).map fun (n, r) => (n + 255, r) else some (b.toNat, rest)

/-- A four-bit length, extended if it is 15. -/
def length? (nibble : Nat) (s : Bytes) : Option (Nat × Bytes) :=
  if nibble = 15 then (extension? s).map fun (n, r) => (n + 15, r) else some (nibble, s)

/-- Appends `n` bytes to an output kept in reverse, each the one `offset` before
its place, so a copy may read what it writes. -/
def copy (offset : Nat) : Nat → Bytes → Bytes
  | 0, out => out
  | n + 1, out => copy offset n (out.getD (offset - 1) 0 :: out)

/-- Reads tokens with a bound on their number. The output, kept in reverse, may
have at most `limit` bytes, and a block ends with literals. -/
def tokens? (limit : Nat) : Nat → Bytes → Bytes → Option Bytes
  | 0, _, _ => none
  | _ + 1, _, [] => none
  | fuel + 1, out, token :: s => do
    let (n, s) ← length? (token.toNat / 16) s
    let (run, s) ← Bytes.take? n s
    let out := run.reverse ++ out
    if out.length > limit then none
    else if s.isEmpty then some out
    else
      let (offset, s) ← Bytes.readWord 2 s
      let (n, s) ← length? (token.toNat % 16) s
      if offset = 0 ∨ offset > out.length ∨ out.length + (n + 4) > limit then none
      else tokens? limit fuel (copy offset (n + 4) out) s

/-- The output of a payload. Every token takes a byte. -/
def decompress? (payload : Bytes) : Option Bytes := do
  let (limit, s) ← Bytes.readWord 4 payload
  let out ← tokens? limit (s.length + 1) [] s
  return out.reverse

theorem extension?_extension (n : Nat) (rest : Bytes) :
    extension? (extension n ++ rest) = some (n, rest) := by
  have hb : (UInt8.ofNat (n % 255)).toNat = n % 255 := by simp; omega
  have hne : UInt8.ofNat (n % 255) ≠ 255 := by
    intro h
    have := congrArg UInt8.toNat h
    rw [hb] at this
    simp at this
    omega
  have key : ∀ k m : Nat, extension? (List.replicate k 255 ++ UInt8.ofNat (n % 255) :: rest)
      = some (255 * k + n % 255, rest) := by
    intro k _
    induction k with
    | zero => simp [extension?, hne, hb]
    | succ k ih => simp [List.replicate_succ, extension?, ih]; omega
  have := key (n / 255) 0
  simp only [extension, List.append_assoc, List.singleton_append, this]
  congr 2
  omega

theorem decompress?_compress (raw : Bytes) (h : raw.length < UInt32.size) :
    decompress? (compress raw) = some raw := by
  have hw := Bytes.readWord_word 4 raw.length (literals raw) h
  have hs : length? ((if raw.length < 15 then UInt8.ofNat (16 * raw.length) else 0xf0).toNat / 16)
      ((if raw.length < 15 then [] else extension (raw.length - 15)) ++ raw)
      = some (raw.length, raw) := by
    by_cases hl : raw.length < 15
    · have : (UInt8.ofNat (16 * raw.length)).toNat = 16 * raw.length := by simp; omega
      simp only [hl, ↓reduceIte, this, length?]
      rw [Nat.mul_div_cancel_left _ (by decide), if_neg (by omega)]
      rfl
    · simp only [hl, ↓reduceIte, length?]
      rw [extension?_extension]
      simp
      omega
  have ht := Bytes.take?_append raw []
  rw [List.append_nil] at ht
  simp only [decompress?, compress, hw, Option.bind_eq_bind, Option.bind_some, bind_pure_comp]
  by_cases hl : raw.length < 15
  · simp only [hl, ↓reduceIte, List.nil_append] at hs
    simp only [literals, hl, ↓reduceIte, tokens?, hs]
    simp [ht]
  · simp only [hl, ↓reduceIte] at hs
    simp only [literals, hl, ↓reduceIte, List.cons_append, tokens?, hs]
    simp [ht]

theorem length_tokens?_le {limit fuel : Nat} {out s raw : Bytes}
    (h : tokens? limit fuel out s = some raw) : raw.length ≤ limit := by
  induction fuel generalizing out s with
  | zero => cases h
  | succ fuel ih =>
    cases s with
    | nil => cases h
    | cons token s =>
      simp only [tokens?, Option.bind_eq_bind, Option.bind_eq_some_iff] at h
      obtain ⟨⟨n, s₁⟩, _, ⟨run, s₂⟩, _, h⟩ := h
      simp only at h
      split at h
      · cases h
      · split at h
        · rename_i hroom _
          cases h
          exact Nat.le_of_not_lt hroom
        · simp only [Option.bind_eq_some_iff] at h
          obtain ⟨⟨offset, s₃⟩, _, ⟨m, s₄⟩, _, h⟩ := h
          split at h
          · cases h
          · exact ih h

theorem length_compress (raw : Bytes) : (compress raw).length =
    if raw.length < 15 then raw.length + 5 else raw.length + (raw.length - 15) / 255 + 6 := by
  rw [compress, literals, List.length_append, Bytes.length_word]
  split
  · rw [List.length_cons]
    omega
  · rw [List.length_append, List.length_cons, extension, List.length_append,
      List.length_replicate, List.length_singleton]
    omega

/-- Whatever a payload gives, its length fits the word in front. -/
theorem length_lt_of_decompress? {payload raw : Bytes} (h : decompress? payload = some raw) :
    raw.length < UInt32.size := by
  simp only [decompress?, Option.bind_eq_bind, Option.bind_eq_some_iff] at h
  obtain ⟨⟨limit, s⟩, hlimit, out, hout, h⟩ := h
  cases h
  rw [List.length_reverse]
  exact Nat.lt_of_le_of_lt (length_tokens?_le hout) (Bytes.readWord_lt hlimit)

end HeapTelemetry.Compressed

namespace HeapTelemetry

/-- Turns bytes into a payload. A payload that fits a frame gives the bytes back, and it is
longer than they are by a tenth and 24 bytes at most. -/
class Compressor where
  compress : Bytes → Bytes
  decompress?_compress : ∀ raw, (compress raw).length < UInt32.size →
    Compressed.decompress? (compress raw) = some raw
  length_compress_le : ∀ raw, (compress raw).length ≤ raw.length + raw.length / 10 + 24

/-- Finds no copies. -/
instance : Compressor where
  compress := Compressed.compress
  decompress?_compress raw h := by
    have hlen := Compressed.length_compress raw
    exact Compressed.decompress?_compress raw (by split at hlen <;> omega)
  length_compress_le raw := by
    have hlen := Compressed.length_compress raw
    split at hlen <;> omega

end HeapTelemetry
