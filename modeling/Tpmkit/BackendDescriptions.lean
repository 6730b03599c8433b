import Tpmkit.ErrorTranslation

/-!
# Descriptions of backend errors

The decoder of a function table returns no string, or a C string of any length
and content.  `sanitizeFrom_eq` gives the exact value of the loop over memory of
any length, and from it what the loop has to read: on memory that ends one byte
after the last byte it looks at, it does the same.
-/

namespace Tpmkit

open Checked ByteStrings

/-! ## The loop -/

/-- What the loop stores for a byte. -/
def sanitizedByte (byte : UInt8) : UInt8 := if isPrintableAscii byte then byte else 0x5f

/-- A byte that is not printable is replaced by one that is. -/
theorem isPrintableAscii_sanitizedByte (byte : UInt8) :
    isPrintableAscii (sanitizedByte byte) = true := by
  unfold sanitizedByte
  split
  · assumption
  · decide

/-- The number of bytes that the loop copies when it starts at `index`. -/
def copiedFrom (index : Nat) (memory : List UInt8) : Nat :=
  min (memory.takeWhile (· ≠ 0)).length (maxBackendErrorDescriptionSize - index)

/-- Inside the text and the bound one more byte is copied. -/
theorem copiedFrom_cons {index : Nat} {byte : UInt8} {rest : List UInt8}
    (h : byte ≠ 0 ∧ index < maxBackendErrorDescriptionSize) :
    copiedFrom index (byte :: rest) = copiedFrom (index + 1) rest + 1 := by
  have htake : (byte :: rest).takeWhile (· ≠ 0) = byte :: rest.takeWhile (· ≠ 0) := by
    simp [h.1]
  rw [copiedFrom, copiedFrom, htake, List.length_cons]
  omega

/-- The terminator and the bound both end the copy. -/
theorem copiedFrom_eq_zero {index : Nat} {byte : UInt8} {rest : List UInt8}
    (h : ¬(byte ≠ 0 ∧ index < maxBackendErrorDescriptionSize)) :
    copiedFrom index (byte :: rest) = 0 := by
  by_cases hbyte : byte = 0
  · simp [copiedFrom, hbyte]
  · have hindex : ¬index < maxBackendErrorDescriptionSize := fun hlt => h ⟨hbyte, hlt⟩
    have hzero : maxBackendErrorDescriptionSize - index = 0 := by omega
    rw [copiedFrom, hzero, Nat.min_zero]

/-- **The loop on any memory.**  It copies the bytes in front of the first NUL and of
the limit, and reads one byte more. -/
theorem sanitizeFrom_eq (index : Nat) (memory : List UInt8) :
    sanitizeFrom index memory =
      if copiedFrom index memory < memory.length then
        .value ((memory.take (copiedFrom index memory)).map sanitizedByte)
      else .fault .outOfBounds := by
  induction memory generalizing index with
  | nil => rfl
  | cons byte rest ih =>
      by_cases hcontinue : byte ≠ 0 ∧ index < maxBackendErrorDescriptionSize
      · rw [sanitizeFrom, if_pos hcontinue, ih, copiedFrom_cons hcontinue]
        by_cases hreach : copiedFrom (index + 1) rest < rest.length
        · have hreach' : copiedFrom (index + 1) rest + 1 < (byte :: rest).length := by
            simpa using hreach
          rw [if_pos hreach, if_pos hreach']
          rfl
        · have hreach' : ¬copiedFrom (index + 1) rest + 1 < (byte :: rest).length := by
            simpa using hreach
          rw [if_neg hreach, if_neg hreach']
          rfl
      · have hreach : copiedFrom index (byte :: rest) < (byte :: rest).length := by
          rw [copiedFrom_eq_zero hcontinue]
          exact Nat.succ_pos _
        rw [sanitizeFrom, if_neg hcontinue, if_pos hreach, copiedFrom_eq_zero hcontinue]
        rfl

/-! ## C strings -/

/-- The bytes of a string stop in front of a NUL in its memory. -/
theorem length_contents_lt (s : CString) : s.contents.length < s.memory.length := by
  have hprefix : s.contents <+: s.memory := List.takeWhile_prefix _
  refine Nat.lt_of_le_of_ne hprefix.length_le ?_
  intro hlength
  have hall : s.contents = s.memory := hprefix.eq_of_length hlength
  have hzero : (0 : UInt8) ∈ s.contents := hall ▸ s.terminated
  simpa using List.mem_takeWhile_imp hzero

/-- What is copied is the string, cut at the bound: the loop stops at the first zero, as `c_str`
readers do. -/
theorem take_copiedFrom (s : CString) :
    s.memory.take (copiedFrom 0 s.memory) =
      s.contents.take maxBackendErrorDescriptionSize := by
  have hcontents : s.memory.take s.contents.length = s.contents :=
    List.prefix_iff_eq_take.mp (List.takeWhile_prefix _) |>.symm
  have hcopied : copiedFrom 0 s.memory = min maxBackendErrorDescriptionSize s.contents.length :=
    Nat.min_comm _ _
  rw [hcopied, ← List.take_take, hcontents]

/-- The loop maps each byte that it copies and never reads past the terminator. -/
theorem sanitizeFrom_memory (s : CString) :
    sanitizeFrom 0 s.memory =
      .value ((s.contents.take maxBackendErrorDescriptionSize).map sanitizedByte) := by
  have hreach : copiedFrom 0 s.memory < s.memory.length :=
    Nat.lt_of_le_of_lt (Nat.min_le_left _ _) (length_contents_lt s)
  rw [sanitizeFrom_eq, if_pos hreach, take_copiedFrom]

/-- The loop does the same on the first bytes of a string exactly when they include the
one behind the last that it copies. -/
theorem sanitizeFrom_take (s : CString) (n : Nat) :
    sanitizeFrom 0 (s.memory.take n) =
      if min s.contents.length maxBackendErrorDescriptionSize < n then sanitizeFrom 0 s.memory
      else .fault .outOfBounds := by
  have hlt := length_contents_lt s
  have hcopied : copiedFrom 0 (s.memory.take n) =
      min (min n s.contents.length) maxBackendErrorDescriptionSize := by
    rw [copiedFrom, ← List.take_takeWhile, List.length_take]
    rfl
  rw [sanitizeFrom_eq, hcopied, List.length_take]
  by_cases hn : min s.contents.length maxBackendErrorDescriptionSize < n
  · have hreach : min (min n s.contents.length) maxBackendErrorDescriptionSize <
        min n s.memory.length := by omega
    have hsame : min (min n s.contents.length) maxBackendErrorDescriptionSize =
        copiedFrom 0 s.memory := by
      have hcopied' : copiedFrom 0 s.memory =
        min s.contents.length maxBackendErrorDescriptionSize := rfl
      omega
    have hprefix : min (copiedFrom 0 s.memory) n = copiedFrom 0 s.memory := by omega
    rw [if_pos hreach, if_pos hn, hsame, List.take_take, hprefix, take_copiedFrom,
      sanitizeFrom_memory]
  · have hreach : ¬min (min n s.contents.length) maxBackendErrorDescriptionSize <
        min n s.memory.length := by omega
    rw [if_neg hreach, if_neg hn]

/-! ## The description -/

/-- An empty text is as good as none. -/
theorem sanitizedBackendErrorDescription_of_nil {s : CString} (h : s.contents = []) :
    sanitizedBackendErrorDescription (some s) = .value unavailableBackendErrorDescription := by
  have hlength : 0 < s.memory.length := List.length_pos_of_mem s.terminated
  have hfirst : s.memory[0] = 0 := by simpa using List.takeWhile_eq_nil_iff.mp h hlength
  simp [sanitizedBackendErrorDescription, hlength, hfirst]

/-- Of any other text the first 128 bytes are kept, each one sanitized. -/
theorem sanitizedBackendErrorDescription_of_ne_nil {s : CString} (h : s.contents ≠ []) :
    sanitizedBackendErrorDescription (some s) =
      .value ((s.contents.take maxBackendErrorDescriptionSize).map sanitizedByte) := by
  have hlength : 0 < s.memory.length := List.length_pos_of_mem s.terminated
  have hfirst : s.memory[0] ≠ 0 := by
    intro hzero
    exact h (List.takeWhile_eq_nil_iff.mpr fun _ => by simp [hzero])
  have hsome : ((s.contents.take maxBackendErrorDescriptionSize).map sanitizedByte).isEmpty =
      false := by
    simp [maxBackendErrorDescriptionSize, h]
  rw [sanitizedBackendErrorDescription, spanAt_of_lt hlength, Result.value_bind, if_neg hfirst,
    sanitizeFrom_memory, Result.value_bind, hsome]
  rfl

/-- What a record quotes: the default text, or the sanitized start of what the decoder
returned. -/
theorem backendErrorDescription_cases (rc : TssRc) (decoder : Option TssErrorDecoder) :
    backendErrorDescription rc decoder = unavailableBackendErrorDescription ∨
      ∃ s : CString, s.contents ≠ [] ∧ backendErrorDescription rc decoder =
        (s.contents.take maxBackendErrorDescriptionSize).map sanitizedByte := by
  have hvalue := decodeBackendErrorDescription_eq rc decoder
  cases decoder with
  | none => exact Or.inl rfl
  | some decoder =>
      rw [decodeBackendErrorDescription] at hvalue
      cases hdecoded : decoder rc with
      | none =>
          rw [hdecoded] at hvalue
          exact Or.inl (Result.value.inj hvalue).symm
      | some s =>
          rw [hdecoded] at hvalue
          by_cases hcontents : s.contents = []
          · rw [sanitizedBackendErrorDescription_of_nil hcontents] at hvalue
            exact Or.inl (Result.value.inj hvalue).symm
          · rw [sanitizedBackendErrorDescription_of_ne_nil hcontents] at hvalue
            exact Or.inr ⟨s, hcontents, (Result.value.inj hvalue).symm⟩

/-- What is logged of a code that the decoder has a text for. -/
theorem backendErrorDescription_of_decoded {rc : TssRc} {decoder : TssErrorDecoder} {s : CString}
    (hdecoded : decoder rc = some s) (h : s.contents ≠ []) :
    backendErrorDescription rc (some decoder) =
      (s.contents.take maxBackendErrorDescriptionSize).map sanitizedByte := by
  have hvalue := decodeBackendErrorDescription_eq rc (some decoder)
  rw [decodeBackendErrorDescription, hdecoded,
    sanitizedBackendErrorDescription_of_ne_nil h] at hvalue
  exact (Result.value.inj hvalue).symm

/-- The printable bytes are those from the space to the tilde. -/
theorem isPrintableAscii_iff (byte : UInt8) :
    isPrintableAscii byte = true ↔ 0x20 ≤ byte ∧ byte ≤ 0x7e := by
  have hbound : byte < 0x7f ↔ byte ≤ 0x7e := by
    rw [UInt8.lt_iff_toNat_lt, UInt8.le_iff_toNat_le]
    exact Nat.lt_succ_iff
  simp [isPrintableAscii, hbound]

/-- The text that stands for a missing one is printable itself. -/
theorem unavailable_printable :
    ∀ byte ∈ unavailableBackendErrorDescription, isPrintableAscii byte = true := by
  decide +kernel

/-- **The description of a backend error.**  It is non-empty, bounded and printable.  A
string that the decoder returns is quoted byte for byte up to the bound, and the loop
reads up to the byte behind the last that it copies and no further. -/
theorem backendErrorDescription_laws :
    (∀ (rc : TssRc) (decoder : Option TssErrorDecoder),
      decodeBackendErrorDescription rc decoder = .value (backendErrorDescription rc decoder) ∧
        backendErrorDescription rc decoder ≠ [] ∧
        (backendErrorDescription rc decoder).length ≤ 128 ∧
        ∀ byte ∈ backendErrorDescription rc decoder, 0x20 ≤ byte ∧ byte ≤ 0x7e) ∧
    (∀ (rc : TssRc) (decoder : TssErrorDecoder) (s : CString), decoder rc = some s →
      s.contents ≠ [] →
      (backendErrorDescription rc (some decoder)).length = min s.contents.length 128 ∧
        ∀ (i : Nat) (hi : i < (backendErrorDescription rc (some decoder)).length)
          (hs : i < s.contents.length), (backendErrorDescription rc (some decoder))[i] =
            if 0x20 ≤ s.contents[i] ∧ s.contents[i] ≤ 0x7e then s.contents[i] else 0x5f) ∧
    (∀ (s : CString) (n : Nat), sanitizeFrom 0 (s.memory.take n) =
      if min s.contents.length 128 < n then sanitizeFrom 0 s.memory else .fault .outOfBounds) := by
  refine ⟨?_, ?_, sanitizeFrom_take⟩
  · intro rc decoder
    refine ⟨decodeBackendErrorDescription_eq rc decoder, ?_⟩
    rcases backendErrorDescription_cases rc decoder with h | ⟨s, hs, h⟩
    · rw [h]
      refine ⟨by decide, by decide, ?_⟩
      intro byte hbyte
      exact (isPrintableAscii_iff byte).mp (unavailable_printable byte hbyte)
    · rw [h]
      refine ⟨?_, ?_, ?_⟩
      · simp [maxBackendErrorDescriptionSize, hs]
      · rw [List.length_map]
        exact List.length_take_le 128 s.contents
      · intro byte hbyte
        obtain ⟨source, _, rfl⟩ := List.mem_map.mp hbyte
        exact (isPrintableAscii_iff _).mp (isPrintableAscii_sanitizedByte source)
  · intro rc decoder s hdecoded hs
    have hlaw := backendErrorDescription_of_decoded hdecoded hs
    constructor
    · rw [hlaw, List.length_map, List.length_take]
      exact Nat.min_comm _ _
    · intro i hi hlt
      simp only [hlaw, List.getElem_map, List.getElem_take]
      simp only [sanitizedByte, isPrintableAscii_iff]

/-- A line feed in what the decoder returns is quoted as `_`. -/
theorem backendErrorDescription_laws_line_feed :
    (backendErrorDescription 1 (some fun _ => some (cStr [0x61, 0x0a])))[1]? = some 0x5f := by
  obtain ⟨_, hquoted, _⟩ := backendErrorDescription_laws
  obtain ⟨hlength, hbytes⟩ := hquoted 1 (fun _ => some (cStr [0x61, 0x0a])) (cStr [0x61, 0x0a])
    rfl (by decide)
  have hcontents : (cStr [0x61, 0x0a]).contents = [0x61, 0x0a] := by decide
  have hlt : 1 < (backendErrorDescription 1 (some fun _ => some (cStr [0x61, 0x0a]))).length := by
    rw [hlength, hcontents]
    decide
  rw [List.getElem?_eq_getElem hlt, hbytes 1 hlt (by decide)]
  rfl

end Tpmkit
