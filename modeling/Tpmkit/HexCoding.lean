import Tpmkit.ErrorTranslation

/-!
# Hexadecimal text

`encode_hex` and `decode_hex`.  A text is a `std::string_view`, whose size fits in
`std::size_t`; a `char` is signed.  `encodeHex_eq` and `decodeHex_cases` say what
the two compute, and `hexCoding` puts them together.
-/

namespace Tpmkit

open Checked ByteStrings

/-! ## The code -/

/-- `std::numeric_limits<std::size_t>::max()`. -/
def sizeMax : Nat := 2 ^ 64 - 1

/-- `std::vector<std::uint8_t>::max_size()`, the largest difference of two pointers. -/
def vectorMaxSize : Nat := 2 ^ 63 - 1

/-- `std::string_view`. -/
structure StringView where
  chars : ByteString
  length_le : chars.length ≤ sizeMax
deriving DecidableEq, Repr

/-- The exception of the standard library that encoding throws. -/
inductive StdException where
  | lengthError (what : String)
deriving DecidableEq, Repr

/-- `hex_digits`, without its terminator. -/
def hexDigits : List UInt8 := ascii "0123456789abcdef"

/-- `hex_digits_per_byte`. -/
def hexDigitsPerByte : Nat := 2

/-- The value of a `char`. -/
def charValue (ch : UInt8) : Int := ch.toInt8.toInt

/-- `decode_hex_digit`. -/
def decodeHexDigit (ch : UInt8) : Option UInt8 :=
  if charValue ch ≥ 0x30 ∧ charValue ch ≤ 0x39 then
    some (UInt8.ofInt (charValue ch - 0x30))
  else if charValue ch ≥ 0x61 ∧ charValue ch ≤ 0x66 then
    some (UInt8.ofInt (10 + (charValue ch - 0x61)))
  else if charValue ch ≥ 0x41 ∧ charValue ch ≤ 0x46 then
    some (UInt8.ofInt (10 + (charValue ch - 0x41)))
  else none

/-- The loop of `encode_hex`. -/
def encodeHexBytes : List UInt8 → Result Error StdException ByteString
  | [] => return []
  | byte :: rest => do
      let high ← spanAt hexDigits ((byte >>> 4) &&& 0x0f).toNat
      let low ← spanAt hexDigits (byte &&& 0x0f).toNat
      let text ← encodeHexBytes rest
      return high :: low :: text

/-- `encode_hex`; `maxSize` is `std::string::max_size()`. -/
def encodeHex (maxSize : Nat) (bytes : List UInt8) : Result Error StdException ByteString :=
  if bytes.length > sizeMax / hexDigitsPerByte then
    .fault (.thrown (.lengthError "hex output size overflow"))
  else if bytes.length * hexDigitsPerByte > maxSize then
    .fault (.thrown (.lengthError "hex output size overflow"))
  else encodeHexBytes bytes

/-- One pass of the loop of `decode_hex`, at the characters `2 * pass` and
`2 * pass + 1`. -/
def decodeHexPass (text : ByteString) (pass : Nat) (bytes : List UInt8) :
    Result Error StdException (List UInt8) := do
  let index := pass * hexDigitsPerByte
  let high := decodeHexDigit (← spanAt text index)
  let low := decodeHexDigit (← spanAt text (index + 1))
  match high, low with
  | some high, some low => return bytes ++ [((high.toUInt32 <<< 4) ||| low.toUInt32).toUInt8]
  | _, _ => .unexpected ⟨.inputError, "hex input contains a non-hex character"⟩

/-- `decode_hex`.  The loop makes a pass for every second index in front of the end of
the text. -/
def decodeHex (text : StringView) : Result Error StdException (List UInt8) :=
  if text.chars.length % hexDigitsPerByte ≠ 0 then
    .unexpected ⟨.inputError, "hex input must contain an even number of digits"⟩
  else if text.chars.length / hexDigitsPerByte > vectorMaxSize then
    .unexpected ⟨.inputError, "hex input is too large"⟩
  else
    forIndex (decodeHexPass text.chars) ((text.chars.length + 1) / hexDigitsPerByte) 0 []

/-! ## Digits -/

/-- A character of `0-9a-fA-F`. -/
def IsHexDigit (ch : UInt8) : Prop :=
  (0x30 ≤ ch ∧ ch ≤ 0x39) ∨ (0x41 ≤ ch ∧ ch ≤ 0x46) ∨ (0x61 ≤ ch ∧ ch ≤ 0x66)

instance (ch : UInt8) : Decidable (IsHexDigit ch) :=
  inferInstanceAs (Decidable
    ((0x30 ≤ ch ∧ ch ≤ 0x39) ∨ (0x41 ≤ ch ∧ ch ≤ 0x46) ∨ (0x61 ≤ ch ∧ ch ≤ 0x66)))

/-- `A-F` lowered. -/
def lowerHex (ch : UInt8) : UInt8 := if 0x41 ≤ ch ∧ ch ≤ 0x46 then ch + 0x20 else ch

/-- The encoder's table has the digit of every nibble. -/
theorem getElem_hexDigits :
    ∀ d < 16, (spanAt hexDigits d : Result Error StdException UInt8) = .value (hexDigit d) := by
  decide

/-- Its digits are lower-case hexadecimal digits. -/
theorem hexDigit_mem : ∀ d < 16, hexDigit d ∈ hexDigits := by
  decide

/-- The decoder reads them back. -/
theorem decodeHexDigit_hexDigit : ∀ d < 16, decodeHexDigit (hexDigit d) = some (UInt8.ofNat d) := by
  decide

/-- So they are told apart. -/
theorem hexDigit_injective {d e : Nat} (hd : d < 16) (he : e < 16) (h : hexDigit d = hexDigit e) :
    d = e := by
  have hdecoded : some (UInt8.ofNat d) = some (UInt8.ofNat e) := by
    rw [← decodeHexDigit_hexDigit d hd, h, decodeHexDigit_hexDigit e he]
  have hvalue := congrArg UInt8.toNat (Option.some.inj hdecoded)
  simp only [UInt8.toNat_ofNat'] at hvalue
  omega

/-- A hexadecimal digit is decoded to the number whose digit is the lowered character. -/
theorem decodeHexDigit_of_isHexDigit :
    ∀ ch : UInt8, IsHexDigit ch → ∃ d < 16, decodeHexDigit ch = some (UInt8.ofNat d) ∧
      hexDigit d = lowerHex ch :=
  forall_byte (by decide +kernel)

/-- Any other byte is refused. -/
theorem decodeHexDigit_of_not_isHexDigit :
    ∀ ch : UInt8, ¬IsHexDigit ch → decodeHexDigit ch = none :=
  forall_byte (by decide +kernel)

/-- The digits of the encoder are hexadecimal and lower-case. -/
theorem isHexDigit_of_mem_hexDigits :
    ∀ ch ∈ hexDigits, IsHexDigit ch ∧ lowerHex ch = ch := by
  decide +kernel

/-! ## Encoding -/

/-- The two digits of a byte. -/
def hexText (byte : UInt8) : ByteString := [hexDigit (byte.toNat / 16), hexDigit (byte.toNat % 16)]

/-- Both halves of a byte are nibbles. -/
theorem toNat_div_lt (byte : UInt8) : byte.toNat / 16 < 16 := by
  have hbyte := byte.toNat_lt
  omega

/-- The lower half of a byte is a nibble. -/
theorem toNat_mod_lt (byte : UInt8) : byte.toNat % 16 < 16 := Nat.mod_lt _ (by decide)

/-- The two nibbles that the encoder masks out of a byte. -/
theorem nibbles (byte : UInt8) : ((byte >>> 4) &&& 0x0f).toNat = byte.toNat / 16 ∧
    (byte &&& 0x0f).toNat = byte.toNat % 16 := by
  have hlow : ∀ n : Nat, n &&& 15 = n % 16 := fun n => Nat.and_two_pow_sub_one_eq_mod n 4
  constructor
  · have hhigh : (byte >>> 4).toNat = byte.toNat / 16 := by
      rw [UInt8.toNat_shiftRight]
      exact Nat.shiftRight_eq_div_pow byte.toNat 4
    rw [UInt8.toNat_and, hhigh]
    exact (hlow _).trans (Nat.mod_eq_of_lt (toNat_div_lt byte))
  · rw [UInt8.toNat_and]
    exact hlow _

/-- The loop of the encoder writes two digits for each byte and does not leave its table. -/
theorem encodeHexBytes_eq (bytes : List UInt8) :
    encodeHexBytes bytes = .value (bytes.flatMap hexText) := by
  induction bytes with
  | nil => rfl
  | cons byte rest ih =>
      obtain ⟨hhigh, hlow⟩ := nibbles byte
      rw [encodeHexBytes, hhigh, hlow, getElem_hexDigits _ (toNat_div_lt byte),
        getElem_hexDigits _ (toNat_mod_lt byte), ih]
      rfl

/-- Encoding writes two digits for each byte unless the text is too large. -/
theorem encodeHex_eq (maxSize : Nat) (bytes : List UInt8) :
    encodeHex maxSize bytes =
      if 2 * bytes.length ≤ sizeMax ∧ 2 * bytes.length ≤ maxSize then
        .value (bytes.flatMap hexText)
      else .fault (.thrown (.lengthError "hex output size overflow")) := by
  have hsize : bytes.length > sizeMax / hexDigitsPerByte ↔ ¬2 * bytes.length ≤ sizeMax := by
    unfold sizeMax hexDigitsPerByte
    omega
  have hmax : bytes.length * hexDigitsPerByte > maxSize ↔ ¬2 * bytes.length ≤ maxSize := by
    unfold hexDigitsPerByte
    omega
  rw [encodeHex, encodeHexBytes_eq]
  by_cases h : 2 * bytes.length ≤ sizeMax
  · by_cases h' : 2 * bytes.length ≤ maxSize
    · rw [if_neg (mt hsize.mp (not_not.mpr h)), if_neg (mt hmax.mp (not_not.mpr h')),
        if_pos ⟨h, h'⟩]
    · rw [if_neg (mt hsize.mp (not_not.mpr h)), if_pos (hmax.mpr h'),
        if_neg fun hboth => h' hboth.2]
  · rw [if_pos (hsize.mpr h), if_neg fun hboth => h hboth.1]

/-- The text is twice as long as the bytes. -/
theorem length_flatMap_hexText (bytes : List UInt8) :
    (bytes.flatMap hexText).length = 2 * bytes.length := by
  induction bytes with
  | nil => rfl
  | cons byte rest ih =>
      rw [List.flatMap_cons, List.length_append, ih, List.length_cons, hexText]
      simp only [List.length_cons, List.length_nil]
      omega

/-- Only digits are written. -/
theorem mem_hexDigits_of_mem_flatMap {bytes : List UInt8} {ch : UInt8}
    (h : ch ∈ bytes.flatMap hexText) : ch ∈ hexDigits := by
  obtain ⟨byte, _, hch⟩ := List.mem_flatMap.mp h
  simp only [hexText, List.mem_cons, List.not_mem_nil, or_false] at hch
  rcases hch with rfl | rfl
  · exact hexDigit_mem _ (toNat_div_lt byte)
  · exact hexDigit_mem _ (toNat_mod_lt byte)

/-- Bytes are told apart by their digits. -/
theorem hexText_injective {byte byte' : UInt8} (h : hexText byte = hexText byte') :
    byte = byte' := by
  obtain ⟨hhigh, htail⟩ := List.cons.inj h
  obtain ⟨hlow, _⟩ := List.cons.inj htail
  have hdiv := hexDigit_injective (toNat_div_lt byte) (toNat_div_lt byte') hhigh
  have hmod := hexDigit_injective (toNat_mod_lt byte) (toNat_mod_lt byte') hlow
  apply UInt8.toNat_inj.mp
  omega

/-- Bytes that are encoded alike are equal. -/
theorem flatMap_hexText_injective {bytes bytes' : List UInt8}
    (h : bytes.flatMap hexText = bytes'.flatMap hexText) : bytes = bytes' := by
  induction bytes generalizing bytes' with
  | nil =>
      cases bytes' with
      | nil => rfl
      | cons _ _ => simp [hexText] at h
  | cons byte rest ih =>
      cases bytes' with
      | nil => simp [hexText] at h
      | cons byte' rest' =>
          rw [List.flatMap_cons, List.flatMap_cons] at h
          obtain ⟨hbyte, hrest⟩ := List.append_inj h rfl
          rw [hexText_injective hbyte, ih hrest]

/-! ## Decoding -/

/-- Two decoded digits make up the byte that they are the text of. -/
theorem combine_digits : ∀ d < 16, ∀ e < 16,
    hexText (((UInt8.ofNat d).toUInt32 <<< 4) ||| (UInt8.ofNat e).toUInt32).toUInt8 =
      [hexDigit d, hexDigit e] := by
  decide +kernel

/-- A pass over two hexadecimal digits. -/
theorem decodeHexPass_of_digits {text : ByteString} {pass : Nat} (bytes : List UInt8)
    (hlt : 2 * pass + 1 < text.length) (hhigh : IsHexDigit text[2 * pass])
    (hlow : IsHexDigit text[2 * pass + 1]) :
    ∃ byte, decodeHexPass text pass bytes = .value (bytes ++ [byte]) ∧
      hexText byte = [lowerHex text[2 * pass], lowerHex text[2 * pass + 1]] := by
  obtain ⟨d, hd, hdecoded, hdlower⟩ := decodeHexDigit_of_isHexDigit _ hhigh
  obtain ⟨e, he, hdecoded', helower⟩ := decodeHexDigit_of_isHexDigit _ hlow
  refine ⟨_, ?_, (combine_digits d hd e he).trans (by rw [hdlower, helower])⟩
  have hindex : pass * hexDigitsPerByte = 2 * pass := Nat.mul_comm _ _
  rw [decodeHexPass]
  simp only [hindex, spanAt_of_lt hlt, spanAt_of_lt (Nat.lt_of_succ_lt hlt), Result.value_bind,
    hdecoded, hdecoded', Result.pure_eq]

/-- A pass over another character. -/
theorem decodeHexPass_of_not_digits {text : ByteString} {pass : Nat} (bytes : List UInt8)
    (hlt : 2 * pass + 1 < text.length)
    (h : ¬(IsHexDigit text[2 * pass] ∧ IsHexDigit text[2 * pass + 1])) :
    decodeHexPass text pass bytes =
      .unexpected ⟨.inputError, "hex input contains a non-hex character"⟩ := by
  have hindex : pass * hexDigitsPerByte = 2 * pass := Nat.mul_comm _ _
  rw [decodeHexPass]
  simp only [hindex, spanAt_of_lt hlt, spanAt_of_lt (Nat.lt_of_succ_lt hlt), Result.value_bind]
  by_cases hhigh : IsHexDigit text[2 * pass]
  · have hlow := decodeHexDigit_of_not_isHexDigit _ fun hlow => h ⟨hhigh, hlow⟩
    rw [hlow]
    cases decodeHexDigit text[2 * pass] <;> rfl
  · rw [decodeHexDigit_of_not_isHexDigit _ hhigh]

/-- The texts that the decoder accepts: pairs of hexadecimal digits. -/
def StringView.IsHex (text : StringView) : Prop :=
  text.chars.length % 2 = 0 ∧ ∀ ch ∈ text.chars, IsHexDigit ch

instance (text : StringView) : Decidable text.IsHex :=
  inferInstanceAs (Decidable (text.chars.length % 2 = 0 ∧ ∀ ch ∈ text.chars, IsHexDigit ch))

/-- No text is too large for a vector. -/
theorem StringView.half_le (text : StringView) :
    text.chars.length / hexDigitsPerByte ≤ vectorMaxSize := by
  have hlength := text.length_le
  unfold sizeMax at hlength
  unfold hexDigitsPerByte vectorMaxSize
  omega

/-- A pass of the decoder takes two characters more. -/
theorem take_pass {text : ByteString} {pass : Nat} (h : 2 * pass + 1 < text.length) :
    text.take (2 * (pass + 1)) = text.take (2 * pass) ++ [text[2 * pass], text[2 * pass + 1]] := by
  have hnext : 2 * (pass + 1) = 2 * pass + 1 + 1 := by omega
  rw [hnext, List.take_succ_eq_append_getElem h,
    List.take_succ_eq_append_getElem (Nat.lt_of_succ_lt h), List.append_assoc]
  rfl

/-- The loop on a text of pairs: it writes the bytes that the lowered text encodes, or it
meets a character that is no digit. -/
theorem decodeHexLoop_cases {text : ByteString} {count : Nat} (h : text.length = 2 * count) :
    ((∀ ch ∈ text, IsHexDigit ch) ∧ ∃ bytes,
      forIndex (decodeHexPass text) count 0 [] = .value bytes ∧
        bytes.flatMap hexText = text.map lowerHex) ∨
    ((∃ ch ∈ text, ¬IsHexDigit ch) ∧
      ∃ e, forIndex (decodeHexPass text) count 0 [] = .unexpected e) := by
  have hrun := forIndex_exact (decodeHexPass text)
    (fun pass bytes => bytes.flatMap hexText = (text.take (2 * pass)).map lowerHex)
    (fun pass => ∀ hlt : 2 * pass + 1 < text.length,
      IsHexDigit text[2 * pass] ∧ IsHexDigit text[2 * pass + 1]) count 0 []
    (fun pass bytes _ hpass hbytes hdigits => by
      have hlt : 2 * pass + 1 < text.length := by omega
      obtain ⟨byte, hvalue, htext⟩ :=
        decodeHexPass_of_digits bytes hlt (hdigits hlt).1 (hdigits hlt).2
      refine ⟨_, hvalue, ?_⟩
      rw [List.flatMap_append, List.flatMap_singleton, hbytes, htext, take_pass hlt,
        List.map_append]
      rfl)
    (fun pass bytes _ hpass _ hdigits => by
      obtain ⟨hlt, hnot⟩ := not_forall.mp hdigits
      exact ⟨_, decodeHexPass_of_not_digits bytes hlt hnot⟩)
    rfl
  rcases hrun with ⟨hall, bytes, hvalue, hbytes⟩ | ⟨⟨pass, _, hpass, hnot⟩, e, herror⟩
  · refine Or.inl ⟨?_, bytes, hvalue, ?_⟩
    · intro ch hch
      obtain ⟨i, hi, rfl⟩ := List.getElem_of_mem hch
      have hlt : 2 * (i / 2) + 1 < text.length := by omega
      have hpair := hall (i / 2) (Nat.zero_le _) (by omega) hlt
      -- An index is the first or the second of its pass.
      rcases Nat.mod_two_eq_zero_or_one i with hmod | hmod
      · have hindex : 2 * (i / 2) = i := by omega
        simpa only [hindex] using hpair.1
      · have hindex : 2 * (i / 2) + 1 = i := by omega
        simpa only [hindex] using hpair.2
    · rw [Nat.zero_add, ← h, List.take_length] at hbytes
      exact hbytes
  · obtain ⟨hlt, hpair⟩ := not_forall.mp hnot
    refine Or.inr ⟨?_, e, herror⟩
    by_contra hnone
    refine hpair ⟨?_, ?_⟩
    · by_contra hdigit
      exact hnone ⟨_, List.getElem_mem _, hdigit⟩
    · by_contra hdigit
      exact hnone ⟨_, List.getElem_mem hlt, hdigit⟩

/-- A pass that fails blames the input. -/
theorem decodeHexPass_fails (text : ByteString) (pass : Nat) (bytes : List UInt8) :
    (decodeHexPass text pass bytes).FailsWithin fun e => e.category = .inputError := by
  refine (failsWithin_spanAt _ _).bind fun first => ?_
  refine (failsWithin_spanAt _ _).bind fun second => ?_
  dsimp only
  split
  · exact Result.failsWithin_value _
  · exact Result.failsWithin_unexpected rfl

/-- The decoder accepts exactly the pairs of hexadecimal digits. -/
theorem decodeHex_cases (text : StringView) :
    (text.IsHex ∧ ∃ bytes, decodeHex text = .value bytes ∧
      bytes.flatMap hexText = text.chars.map lowerHex) ∨
    (¬text.IsHex ∧ ∃ message, decodeHex text = .unexpected ⟨.inputError, message⟩) := by
  by_cases heven : text.chars.length % hexDigitsPerByte = 0
  · have hcount : (text.chars.length + 1) / hexDigitsPerByte = text.chars.length / 2 := by
      unfold hexDigitsPerByte at heven ⊢
      omega
    have hlength : text.chars.length = 2 * (text.chars.length / 2) := by
      unfold hexDigitsPerByte at heven
      omega
    have hloop : decodeHex text =
        forIndex (decodeHexPass text.chars) (text.chars.length / 2) 0 [] := by
      rw [decodeHex, if_neg (not_not.mpr heven), if_neg (Nat.not_lt.mpr text.half_le), hcount]
    rcases decodeHexLoop_cases hlength with ⟨hall, bytes, hvalue, hbytes⟩ | ⟨⟨ch, hch, hnot⟩, e, he⟩
    · exact Or.inl ⟨⟨heven, hall⟩, bytes, hloop.trans hvalue, hbytes⟩
    · have hcategory := failsWithin_forIndex (decodeHexPass_fails text.chars) _ _ _ e he
      cases e with
      | mk category message =>
          obtain rfl : category = .inputError := hcategory
          exact Or.inr ⟨fun hhex => hnot (hhex.2 ch hch), message, hloop.trans he⟩
  · exact Or.inr ⟨fun hhex => heven hhex.1, _, by rw [decodeHex, if_pos heven]⟩

/-- **Hexadecimal coding.**  The text of some bytes is canonical and decodes to them,
unless it is too large for a string.  The decoder accepts the pairs of hexadecimal
digits and nothing else, and encodes back to the lowered text.  Neither call faults
on an index. -/
theorem hexCoding :
    (∀ (maxSize : Nat) (bytes : List UInt8),
      (2 * bytes.length ≤ sizeMax ∧ 2 * bytes.length ≤ maxSize →
        ∃ text : StringView, encodeHex maxSize bytes = .value text.chars ∧
          text.chars.length = 2 * bytes.length ∧ (∀ ch ∈ text.chars, ch ∈ hexDigits) ∧
          decodeHex text = .value bytes) ∧
      (¬(2 * bytes.length ≤ sizeMax ∧ 2 * bytes.length ≤ maxSize) →
        encodeHex maxSize bytes = .fault (.thrown (.lengthError "hex output size overflow")))) ∧
    ∀ text : StringView,
      (text.IsHex → ∃ bytes, decodeHex text = .value bytes ∧
        bytes.length = text.chars.length / 2 ∧
        ∀ maxSize, text.chars.length ≤ maxSize →
          encodeHex maxSize bytes = .value (text.chars.map lowerHex)) ∧
      (¬text.IsHex → ∃ message, decodeHex text = .unexpected ⟨.inputError, message⟩) := by
  constructor
  · intro maxSize bytes
    constructor
    · intro hfits
      have hsize : (bytes.flatMap hexText).length ≤ sizeMax := by
        rw [length_flatMap_hexText]
        exact hfits.1
      have hdigits : ∀ ch ∈ bytes.flatMap hexText, ch ∈ hexDigits :=
        fun ch hch => mem_hexDigits_of_mem_flatMap hch
      refine ⟨⟨bytes.flatMap hexText, hsize⟩, ?_, length_flatMap_hexText bytes, hdigits, ?_⟩
      · rw [encodeHex_eq, if_pos hfits]
      · have hhex : (⟨bytes.flatMap hexText, hsize⟩ : StringView).IsHex := by
          refine ⟨?_, fun ch hch => (isHexDigit_of_mem_hexDigits ch (hdigits ch hch)).1⟩
          rw [length_flatMap_hexText]
          exact Nat.mul_mod_right 2 _
        have hlower : (bytes.flatMap hexText).map lowerHex = bytes.flatMap hexText := by
          rw [List.map_congr_left (g := id) fun ch hch =>
            (isHexDigit_of_mem_hexDigits ch (hdigits ch hch)).2, List.map_id]
        rcases decodeHex_cases ⟨bytes.flatMap hexText, hsize⟩ with
          ⟨_, decoded, hvalue, htext⟩ | ⟨hnot, _⟩
        · rw [hvalue, flatMap_hexText_injective (htext.trans hlower)]
        · exact absurd hhex hnot
    · intro hlarge
      rw [encodeHex_eq, if_neg hlarge]
  · intro text
    constructor
    · intro hhex
      rcases decodeHex_cases text with ⟨_, bytes, hvalue, htext⟩ | ⟨hnot, _⟩
      · have hlength : 2 * bytes.length = text.chars.length := by
          rw [← length_flatMap_hexText, htext, List.length_map]
        refine ⟨bytes, hvalue, by omega, ?_⟩
        intro maxSize hmax
        have hfits : 2 * bytes.length ≤ sizeMax ∧ 2 * bytes.length ≤ maxSize := by
          rw [hlength]
          exact ⟨text.length_le, hmax⟩
        rw [encodeHex_eq, if_pos hfits, htext]
      · exact absurd hhex hnot
    · intro hnot
      rcases decodeHex_cases text with ⟨hhex, _⟩ | ⟨_, hmessage⟩
      · exact absurd hhex hnot
      · exact hmessage

/-- Upper-case digits are encoded back in lower case. -/
theorem hexCoding_mixed_case :
    ∃ bytes, decodeHex ⟨ascii "0aBf", by decide⟩ = .value bytes ∧
      encodeHex 15 bytes = .value (ascii "0abf") := by
  obtain ⟨bytes, hvalue, _, hencode⟩ := (hexCoding.2 ⟨ascii "0aBf", by decide⟩).1
    (by decide +kernel)
  exact ⟨bytes, hvalue, hencode 15 (by decide)⟩

end Tpmkit
