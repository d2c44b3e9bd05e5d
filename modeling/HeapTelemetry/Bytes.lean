/-! Byte sequences: UTF-8 text, lines, decimal digits and little-endian words.
Files, records and requests are all handled as lists of bytes. -/

namespace HeapTelemetry

abbrev Bytes := List UInt8

namespace Bytes

def ofText (s : String) : Bytes := s.toUTF8.data.toList

/-- The text with these UTF-8 bytes, if they are well formed. -/
def text? (b : Bytes) : Option String := String.fromUTF8? ⟨b.toArray⟩

theorem text?_ofText (s : String) : text? (ofText s) = some s := by
  have h : (⟨(ofText s).toArray⟩ : ByteArray) = s.toByteArray := by
    simp [ofText]
  simp only [text?, h, String.fromUTF8?, s.isValidUTF8, dite_true]
  rfl

theorem ofText_injective {s t : String} (h : ofText s = ofText t) : s = t := by
  have := congrArg text? h
  simpa [text?_ofText] using this

def newline : UInt8 := 10

/-- Space, tab, line feed, form feed and carriage return. -/
def isSpace (b : UInt8) : Bool := b == 32 || b == 9 || b == 10 || b == 12 || b == 13

def isBlank (line : Bytes) : Bool := line.all isSpace

/-- The lines of a text, each with its newline; the last one may lack it. -/
def lines : Bytes → List Bytes
  | [] => []
  | b :: rest =>
    if b = newline then [b] :: lines rest
    else match lines rest with
      | [] => [[b]]
      | line :: more => (b :: line) :: more

theorem flatten_lines (b : Bytes) : (lines b).flatten = b := by
  induction b with
  | nil => rfl
  | cons x rest ih =>
    unfold lines
    split
    · simp [ih]
    · split <;> rename_i h <;> rw [h] at ih <;> simp at ih ⊢ <;> exact ih

def isDigit (b : UInt8) : Bool := 48 ≤ b && b ≤ 57

/-- The value of a run of decimal digits, most significant first. -/
def decimal (digits : Bytes) : Nat :=
  digits.foldl (fun n b => 10 * n + (b.toNat - 48)) 0

/-- The first `k` bytes and what follows, if there are that many. -/
def take? : Nat → Bytes → Option (Bytes × Bytes)
  | 0, b => some ([], b)
  | _ + 1, [] => none
  | k + 1, x :: b => (take? k b).map fun (w, rest) => (x :: w, rest)

theorem take?_eq (k : Nat) (b : Bytes) :
    take? k b = if k ≤ b.length then some (b.take k, b.drop k) else none := by
  induction b generalizing k with
  | nil => cases k <;> simp [take?]
  | cons x b ih =>
    cases k with
    | zero => simp [take?]
    | succ k => simp only [take?, ih]; split <;> simp_all

theorem take?_append (a b : Bytes) : take? a.length (a ++ b) = some (a, b) := by
  simp [take?_eq]

/-- `n` in `k` bytes, least significant first; higher bytes are dropped. -/
def word : (k n : Nat) → Bytes
  | 0, _ => []
  | k + 1, n => UInt8.ofNat n :: word k (n / 256)

def ofWord : Bytes → Nat
  | [] => 0
  | b :: rest => b.toNat + 256 * ofWord rest

@[simp] theorem length_word (k n : Nat) : (word k n).length = k := by
  induction k generalizing n <;> simp_all [word]

theorem ofWord_word (k n : Nat) (h : n < Nat.pow 256 k) : ofWord (word k n) = n := by
  induction k generalizing n with
  | zero => simp at h; simp [word, ofWord, h]
  | succ k ih =>
    have hq : n / 256 < Nat.pow 256 k :=
      Nat.div_lt_of_lt_mul (by rw [Nat.mul_comm]; exact h)
    simp [word, ofWord, ih _ hq]
    omega

theorem ofWord_lt (b : Bytes) : ofWord b < Nat.pow 256 b.length := by
  induction b with
  | nil => decide
  | cons x rest ih =>
    have hx := x.toNat_lt
    have hpow : Nat.pow 256 (rest.length + 1) = Nat.pow 256 rest.length * 256 := rfl
    rw [ofWord, List.length_cons, hpow]
    omega

/-- Reads a `k`-byte word. -/
def readWord (k : Nat) (b : Bytes) : Option (Nat × Bytes) :=
  (take? k b).map fun (w, rest) => (ofWord w, rest)

theorem readWord_word (k n : Nat) (rest : Bytes) (h : n < Nat.pow 256 k) :
    readWord k (word k n ++ rest) = some (n, rest) := by
  have := take?_append (word k n) rest
  rw [length_word] at this
  simp [readWord, this, ofWord_word k n h]

theorem readWord_lt {k n : Nat} {b rest : Bytes} (h : readWord k b = some (n, rest)) :
    n < Nat.pow 256 k := by
  rw [readWord, take?_eq] at h
  split at h
  · rename_i hk
    cases h
    have hlt := ofWord_lt (b.take k)
    rwa [List.length_take_of_le hk] at hlt
  · cases h

end Bytes
end HeapTelemetry
