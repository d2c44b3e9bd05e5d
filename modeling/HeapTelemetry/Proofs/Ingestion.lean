import HeapTelemetry.Ingest
import HeapTelemetry.Proofs.Json.Endings
import HeapTelemetry.Proofs.Steps

/-! Bodies in chunks. However a body is cut, also within a line or a character, its lines
are handled as if it had come in one piece: what is pending after a chunk, and how far it
was searched, shows in no call of the protocol. -/

namespace HeapTelemetry

theorem Step.throw_bind {σ α β : Type} (e : Error) (f : α → Step σ β) :
    (throw e : Step σ α) >>= f = throw e := rfl

theorem Record.decodeRequest_newline (line : Bytes) :
    decodeRequest (line ++ [Bytes.newline]) = decodeRequest line := by
  rw [decodeRequest, decodeRequest, Json.parse?_ending (Or.inr rfl)]

namespace Ingest
variable {σ : Type}

/-! ## The lines of a body -/

/-- The lines of a body without their newlines. What is behind the last newline is a line
unless it is empty. -/
def contents (body : Bytes) : List Bytes :=
  let parts := body.splitOn Bytes.newline
  if parts.getLast? = some [] then parts.dropLast else parts

theorem contents_of_not_mem {line : Bytes} (h : Bytes.newline ∉ line) :
    contents line = if line.isEmpty then [] else [line] := by
  rw [contents, List.splitOn_eq_singleton h]
  cases line <;> rfl

theorem contents_append {line : Bytes} (h : Bytes.newline ∉ line) (rest : Bytes) :
    contents (line ++ Bytes.newline :: rest) = line :: contents rest := by
  rw [contents, contents, List.splitOn_append_cons_self_of_not_mem h]
  obtain ⟨part, parts, hcons⟩ :=
    List.exists_cons_of_ne_nil (List.splitOn_ne_nil Bytes.newline rest)
  rw [hcons, List.getLast?_cons_cons, List.dropLast_cons_cons]
  split <;> rfl

/-- What comes behind a line that has no newline yet can only make it longer. -/
theorem contents_grown {pending : Bytes} (h : Bytes.newline ∉ pending) (hne : pending ≠ [])
    (more : Bytes) : ∃ line lines, contents (pending ++ more) = line :: lines ∧
      pending.length ≤ line.length := by
  by_cases hmore : Bytes.newline ∈ more
  · obtain ⟨start, rest, rfl, hstart⟩ := List.eq_append_cons_of_mem hmore
    have hline : Bytes.newline ∉ pending ++ start := fun hmem =>
      (List.mem_append.1 hmem).elim h hstart
    rw [← List.append_assoc]
    refine ⟨_, _, contents_append hline rest, ?_⟩
    rw [List.length_append]
    exact Nat.le_add_right _ _
  · have hline : Bytes.newline ∉ pending ++ more := fun hmem =>
      (List.mem_append.1 hmem).elim h hmore
    have hne' : (pending ++ more).isEmpty = false :=
      List.isEmpty_eq_false_iff.2 (List.append_ne_nil_of_left_ne_nil hne more)
    rw [contents_of_not_mem hline, hne']
    refine ⟨_, _, rfl, ?_⟩
    rw [List.length_append]
    exact Nat.le_add_right _ _

/-! ## Line by line -/

/-- Goes through lines in order. One that is too long is refused before it is read, one
that is blank is skipped, every other one is read and handled; the first failure ends it. -/
def handleEach (limit : Nat) (handle : Request → Step σ Unit) : List Bytes → Step σ Unit
  | [] => pure ()
  | line :: rest => do
    if limit < line.length then throw (.longLine limit)
    if !line.all Bytes.isSpace then handle (← Step.ofExcept (Record.decodeRequest line))
    handleEach limit handle rest

variable {limit : Nat} {handle : Request → Step σ Unit}

theorem handleEach_cons (line : Bytes) (rest : List Bytes) :
    handleEach limit handle (line :: rest) = (do
      checkLength limit line.length
      handleLine handle line
      handleEach limit handle rest) := by
  rw [handleEach, checkLength, handleLine, Bytes.isBlank]
  by_cases hlong : limit < line.length
  · rw [if_pos hlong, if_pos hlong]
    rfl
  · rw [if_neg hlong, if_neg hlong]
    cases line.all Bytes.isSpace
    · simp only [Bool.not_false, if_true, pure_bind, bind_assoc]
    · rfl

theorem checkLength_of_lt {length : Nat} (h : limit < length) :
    (checkLength limit length : Step σ Unit) = throw (.longLine limit) := if_pos h

theorem checkLength_of_le {length : Nat} (h : length ≤ limit) :
    (checkLength limit length : Step σ Unit) = pure () := if_neg (Nat.not_lt.2 h)

/-- A line is read the same with the newline that ends it. -/
theorem handleLine_newline (line : Bytes) :
    handleLine handle (line ++ [Bytes.newline]) = handleLine handle line := by
  have hblank : Bytes.isBlank (line ++ [Bytes.newline]) = Bytes.isBlank line := by
    rw [Bytes.isBlank, List.all_append]
    exact Bool.and_true _
  rw [handleLine, handleLine, hblank, Record.decodeRequest_newline]

/-- A body is refused as soon as a line has grown too long. -/
theorem handleEach_overlong (pending : Tail) (hlong : limit < pending.bytes.length)
    (more : Bytes) :
    handleEach limit handle (contents (pending.bytes ++ more)) = throw (.longLine limit) := by
  have hne : pending.bytes ≠ [] := List.ne_nil_of_length_pos (Nat.zero_lt_of_lt hlong)
  obtain ⟨line, lines, hcontents, hle⟩ := contents_grown pending.unended hne more
  rw [hcontents, handleEach_cons, checkLength_of_lt (Nat.lt_of_lt_of_le hlong hle),
    Step.throw_bind]

theorem handleEach_finish (pending : Tail) (hle : pending.bytes.length ≤ limit) :
    handleEach limit handle (contents pending.bytes) = finish handle pending := by
  rw [contents_of_not_mem pending.unended, finish]
  cases pending.bytes.isEmpty
  · simp only [Bool.false_eq_true, if_false]
    rw [handleEach_cons, checkLength_of_le hle, pure_bind]
    exact bind_pure _
  · rfl

/-! ## Chunk by chunk -/

/-- The line that the first newline of a buffer ends. -/
theorem Scanned.line {buffer : Bytes} {scanned i : Nat} (h : Scanned buffer scanned)
    (hi : (buffer.drop scanned).idxOf? Bytes.newline = some i) : ∃ line, Bytes.newline ∉ line ∧
      buffer.take (scanned + i + 1) = line ++ [Bytes.newline] := by
  obtain ⟨hlt, hfound, hfirst⟩ := List.idxOf?_eq_some_iff.1 hi
  refine ⟨buffer.take (scanned + i), ?_, ?_⟩
  · rw [List.take_add, List.mem_append, not_or]
    refine ⟨h, fun hmem => ?_⟩
    obtain ⟨j, hj, hnewline⟩ := List.mem_take_iff_getElem.1 hmem
    exact hfirst j (by omega) hnewline
  · rw [List.take_add_one, ← List.getElem?_drop, List.getElem?_eq_getElem hlt, hfound]
    rfl

/-- The lines of a buffer with more behind it are those that are handled when it is drained,
and after these the lines of what is left with that behind it. -/
theorem drain_bind (buffer : Bytes) (scanned : Nat) (clear : Scanned buffer scanned)
    (more : Bytes) :
    (do let rest ← drain limit handle buffer scanned clear
        handleEach limit handle (contents (rest.bytes ++ more))) =
      handleEach limit handle (contents (buffer ++ more)) := by
  induction buffer, scanned, clear using drain.induct with
  | case1 buffer scanned clear hnone =>
    rw [drain]
    split
    · rw [pure_bind]
    · rename_i hsome
      rw [hnone] at hsome
      cases hsome
  | case2 buffer scanned clear i hsome ih =>
    obtain ⟨content, hcontent, htake⟩ := clear.line hsome
    have hbuffer : buffer ++ more =
        content ++ Bytes.newline :: (buffer.drop (scanned + i + 1) ++ more) := by
      rw [List.append_cons, ← htake, ← List.append_assoc, List.take_append_drop]
    rw [hbuffer, contents_append hcontent, handleEach_cons, ← ih, drain]
    split
    · rename_i hnone
      rw [hsome] at hnone
      cases hnone
    · rename_i j hj
      obtain rfl : i = j := Option.some.inj (hsome.symm.trans hj)
      simp only [htake, bind_assoc, handleLine_newline, List.length_append, List.length_singleton,
        Nat.add_sub_cancel]

theorem feed_bind (pending : Tail) (bytes more : Bytes) {next : Tail → Step σ Unit}
    (hnext : ∀ rest : Tail, rest.bytes.length ≤ limit →
      next rest = handleEach limit handle (contents (rest.bytes ++ more))) :
    (do let rest ← feed limit handle pending bytes
        next rest) = handleEach limit handle (contents (pending.bytes ++ bytes ++ more)) := by
  rw [← drain_bind _ _ (pending.scanned_append bytes) more, feed, bind_assoc]
  refine bind_congr fun rest => ?_
  rw [bind_assoc]
  by_cases hle : rest.bytes.length ≤ limit
  · rw [checkLength_of_le hle, pure_bind, pure_bind]
    exact hnext rest hle
  · have hlong := Nat.not_le.1 hle
    rw [checkLength_of_lt hlong, Step.throw_bind, handleEach_overlong rest hlong]

/-- Induction on the chunks; each is added to a line that is not too long so far. -/
theorem feedAll_bind (chunks : List Bytes) (pending : Tail)
    (hle : pending.bytes.length ≤ limit) :
    (do let rest ← feedAll limit handle none (chunks.map .data) pending
        finish handle rest) =
      handleEach limit handle (contents (pending.bytes ++ chunks.flatten)) := by
  induction chunks generalizing pending with
  | nil =>
    rw [List.flatten_nil, List.append_nil, handleEach_finish pending hle]
    exact pure_bind _ _
  | cons bytes chunks ih =>
    have hcons : feedAll limit handle none ((bytes :: chunks).map .data) pending = (do
        feedAll limit handle none (chunks.map .data) (← feed limit handle pending bytes)) := rfl
    rw [hcons, bind_assoc, List.flatten_cons, ← List.append_assoc]
    exact feed_bind pending bytes chunks.flatten ih

/-- A body that is neither cancelled nor broken is handled line by line, in whatever chunks
it comes: the protocol gets the same calls in the same order, and the outcome is the same. -/
theorem run_handles_lines (limit : Nat) (handle : Request → Step σ Unit) (count : σ → Nat)
    (chunks : List Bytes) :
    run limit handle count none (chunks.map .data) = (do
      handleEach limit handle (contents chunks.flatten)
      return count (← get)) := by
  rw [run, ← bind_assoc, feedAll_bind chunks Tail.none (Nat.zero_le _)]
  rfl

end Ingest
end HeapTelemetry
