import Keyzori.Sdk.WireAgreement

namespace Keyzori.Sdk

abbrev Bytes := List UInt8

structure BodyReader where
  chunks : List Bytes := []
  length : Nat := 0

def limitError : String := "License server response exceeded the safety limit"

def collectChunks : List Bytes → BodyReader → BodyReader × Except String Unit
  | [], reader => (reader, .ok ())
  | value :: rest, reader =>
      let length := reader.length + value.length
      if length > maxResponseBodyBytes then ({ reader with length }, .error limitError)
      else collectChunks rest ⟨reader.chunks ++ [value], length⟩

def setBytes (bytes chunk : Bytes) (offset : Nat) : Except String Bytes :=
  if offset + chunk.length > bytes.length then .error "RangeError: offset is out of bounds"
  else .ok (bytes.take offset ++ chunk ++ bytes.drop (offset + chunk.length))

def assembleChunks : List Bytes → Bytes → Nat → Except String Bytes
  | [], bytes, _ => .ok bytes
  | chunk :: chunks, bytes, offset => do
      let bytes ← setBytes bytes chunk offset
      assembleChunks chunks bytes (offset + chunk.length)

/-- `readJson`, with the finite number that a header is, if it is one, and what the bytes
parse to, if they do. -/
def readBody {Payload : Type} (number : String → Option Rat) (parse : Bytes → Option Payload)
    (declaredLength : Option String) (body : Option (List Bytes)) :
    BodyReader × Except String (Option Payload) :=
  if (declaredLength.bind number).any fun declared => declared > (maxResponseBodyBytes : Rat) then
    ({}, .error limitError)
  else match body with
    | none => ({}, .ok none)
    | some chunks =>
        match collectChunks chunks {} with
        | (reader, .error error) => (reader, .error error)
        | (reader, .ok ()) =>
            (reader, (assembleChunks reader.chunks (List.replicate reader.length 0) 0).map parse)

section Loops

theorem collectChunks_lengths (chunks : List Bytes) (reader : BodyReader) :
    (collectChunks chunks reader).2 = readChunks reader.length (chunks.map List.length) := by
  induction chunks generalizing reader with
  | nil => rfl
  | cons value rest ih =>
      rw [collectChunks, List.map_cons, readChunks]
      split
      · rfl
      · exact ih _

/-- The buffer holds what has been counted, up to the limit. -/
structure Buffered (reader : BodyReader) : Prop where
  counted : reader.chunks.flatten.length = reader.length
  within : reader.length ≤ maxResponseBodyBytes

theorem collectChunks_buffer (chunks : List Bytes) {reader : BodyReader} (buffered : Buffered reader) :
    (collectChunks chunks reader).1.chunks.flatten.length ≤ maxResponseBodyBytes ∧
      ((collectChunks chunks reader).2 = .ok () →
        (collectChunks chunks reader).1.chunks = reader.chunks ++ chunks ∧
          Buffered (collectChunks chunks reader).1) := by
  induction chunks generalizing reader with
  | nil => exact ⟨buffered.counted ▸ buffered.within, fun _ => ⟨(List.append_nil _).symm, buffered⟩⟩
  | cons value rest ih =>
      rw [collectChunks]
      split
      · exact ⟨buffered.counted ▸ buffered.within, fun ok => by cases ok⟩
      · next small =>
        have step : Buffered ⟨reader.chunks ++ [value], reader.length + value.length⟩ :=
          ⟨by simp [buffered.counted], Nat.not_lt.mp small⟩
        obtain ⟨bounded, kept⟩ := ih step
        refine ⟨bounded, fun ok => ?_⟩
        obtain ⟨same, last⟩ := kept ok
        exact ⟨by rw [same, List.append_assoc]; rfl, last⟩

theorem assembleChunks_filled (chunks : List Bytes) (filled : Bytes) :
    assembleChunks chunks (filled ++ List.replicate chunks.flatten.length 0) filled.length =
      .ok (filled ++ chunks.flatten) := by
  induction chunks generalizing filled with
  | nil => simp [assembleChunks]
  | cons chunk chunks ih =>
      have zeros : (List.replicate (chunk :: chunks).flatten.length 0 : Bytes) =
          List.replicate chunk.length 0 ++ List.replicate chunks.flatten.length 0 := by
        rw [List.replicate_append_replicate, List.flatten_cons, List.length_append]
      have set : setBytes (filled ++ List.replicate (chunk :: chunks).flatten.length 0) chunk filled.length =
          .ok (filled ++ chunk ++ List.replicate chunks.flatten.length 0) := by
        rw [setBytes, if_neg (by simp), List.take_left' rfl, zeros, ← List.append_assoc,
          List.drop_left' (by simp)]
      have rest := ih (filled ++ chunk)
      rw [List.length_append] at rest
      rw [assembleChunks, set, List.flatten_cons, ← List.append_assoc]
      exact rest

end Loops

section Bodies

variable {Payload : Type} {number : String → Option Rat} {parse : Bytes → Option Payload}
  {declaredLength : Option String}

theorem readBody_exact (small : (declaredLength.bind number).any
    (fun declared => declared > (maxResponseBodyBytes : Rat)) = false) (chunks : List Bytes) :
    (readBody number parse declaredLength (some chunks)).1.chunks.flatten.length ≤ maxResponseBodyBytes ∧
      (readBody number parse declaredLength (some chunks)).2 =
        if chunks.flatten.length > maxResponseBodyBytes then .error limitError
        else .ok (parse chunks.flatten) := by
  have start : Buffered {} := ⟨rfl, Nat.zero_le _⟩
  obtain ⟨bounded, kept⟩ := collectChunks_buffer chunks start
  have lengths := collectChunks_lengths chunks {}
  rw [readChunks_ok 0 _ (Nat.zero_le _), Nat.zero_add, ← List.length_flatten] at lengths
  rw [readBody, small, if_neg Bool.false_ne_true]
  cases read : collectChunks chunks {} with
  | mk reader result =>
      rw [read] at bounded kept lengths
      simp only at bounded kept lengths
      refine ⟨?_, ?_⟩
      · cases result <;> exact bounded
      · by_cases large : chunks.flatten.length > maxResponseBodyBytes
        · rw [if_neg (Nat.not_le.mpr large)] at lengths
          rw [lengths, if_pos large]
          rfl
        · rw [if_pos (Nat.not_lt.mp large)] at lengths
          obtain ⟨same, last⟩ := kept lengths
          have filled := assembleChunks_filled reader.chunks []
          have length := last.counted
          simp only [List.nil_append, List.length_nil, length] at filled
          rw [same, List.nil_append] at filled
          rw [lengths, if_neg large]
          simp only [same, List.nil_append, filled, Except.map]

/-- A body is refused just when it is over the limit, is buffered within it, and parses as
the concatenation of its chunks: two divisions of one body give the same result. -/
theorem body_chunking (small : (declaredLength.bind number).any
    (fun declared => declared > (maxResponseBodyBytes : Rat)) = false) (chunks : List Bytes) :
    ((readBody number parse declaredLength (some chunks)).2 = .error limitError ↔
        chunks.flatten.length > maxResponseBodyBytes) ∧
      (readBody number parse declaredLength (some chunks)).1.chunks.flatten.length ≤ maxResponseBodyBytes ∧
      (chunks.flatten.length ≤ maxResponseBodyBytes →
        (readBody number parse declaredLength (some chunks)).2 = .ok (parse chunks.flatten)) ∧
      ∀ others : List Bytes, others.flatten = chunks.flatten →
        (readBody number parse declaredLength (some others)).2 =
          (readBody number parse declaredLength (some chunks)).2 := by
  obtain ⟨bounded, result⟩ := @readBody_exact _ number parse _ small chunks
  refine ⟨?_, bounded, fun within => ?_, fun others same => ?_⟩
  · rw [result]
    split
    · next large => exact iff_of_true rfl large
    · next within => exact iff_of_false nofun within
  · rw [result, if_neg (Nat.not_lt.mpr within)]
  · rw [result, (readBody_exact small others).2, same]

theorem body_chunking_sample :
    ((readBody (fun _ => some 3) some (some "3") (some [[1], [], [2, 3]])).2 = .error limitError ↔
        ([[1], [], [2, 3]] : List Bytes).flatten.length > maxResponseBodyBytes) ∧
      (readBody (fun _ => some 3) some (some "3") (some [[1], [], [2, 3]])).1.chunks.flatten.length ≤
        maxResponseBodyBytes ∧
      (([[1], [], [2, 3]] : List Bytes).flatten.length ≤ maxResponseBodyBytes →
        (readBody (fun _ => some 3) some (some "3") (some [[1], [], [2, 3]])).2 = .ok (some [1, 2, 3])) ∧
      ∀ others : List Bytes, others.flatten = [1, 2, 3] →
        (readBody (fun _ => some 3) some (some "3") (some others)).2 =
          (readBody (fun _ => some 3) some (some "3") (some [[1], [], [2, 3]])).2 :=
  body_chunking (by decide) [[1], [], [2, 3]]

end Bodies

end Keyzori.Sdk
