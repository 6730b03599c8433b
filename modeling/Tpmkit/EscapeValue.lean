import Tpmkit.DelimitedText
import Tpmkit.HexCoding
import Tpmkit.LogRecords

/-!
# Rendering of log fields

`escape_value.h`: a value is written as it is, or quoted with escapes when it holds
whitespace, a delimiter or a control character.  `readFields` takes a rendered list
of fields apart again (`readFields_fieldsText`).
-/

namespace Tpmkit

open ByteStrings DelimitedText

namespace LogFormat

/-! ## The characters of the format -/

def space : UInt8 := 0x20
def equals : UInt8 := 0x3d
def quote : UInt8 := 0x22
def backslash : UInt8 := 0x5c
def lineFeed : UInt8 := 0x0a
def carriageReturn : UInt8 := 0x0d
def tab : UInt8 := 0x09

/-- `hex`. -/
def hex : ByteString := ascii "0123456789abcdef"

/-! ## Escaping -/

/-- A character that makes a value need quotes. -/
def needsQuotingAt (c : UInt8) : Bool :=
  c < 0x20 || c == space || c == equals || c == quote || c == backslash

/-- One pass of the second loop of `escape_value`; the masks keep the indices inside
`hex`. -/
def escapeChar (c : UInt8) : ByteString :=
  if c = quote then [backslash, quote]
  else if c = backslash then [backslash, backslash]
  else if c = lineFeed then backslash :: ascii "n"
  else if c = carriageReturn then backslash :: ascii "r"
  else if c = tab then backslash :: ascii "t"
  else if c < 0x20 then
    backslash :: ascii "x" ++
      [hex.getD ((c >>> 4) &&& 0xf).toNat 0, hex.getD (c &&& 0xf).toNat 0]
  else [c]

/-- `escape_value`. -/
def escapeValue (value : ByteString) : ByteString :=
  let needsQuoting := value.any needsQuotingAt
  if !needsQuoting then value
  else [quote] ++ value.flatMap escapeChar ++ [quote]

/-- What a logger writes for a field. -/
def fieldText (field : LogField) : ByteString :=
  [space] ++ field.key ++ [equals] ++ escapeValue field.value

/-- What a logger writes for a list of fields. -/
def fieldsText (fields : List LogField) : ByteString := fields.flatMap fieldText

/-! ## Reading back -/

/-- Reads one character of quoted text. -/
def readChar : Reader UInt8 UInt8
  | [] => none
  | c :: rest =>
      if c ≠ backslash then some (c, rest)
      else match rest with
        | [] => none
        | code :: rest =>
            if code = quote then some (quote, rest)
            else if code = backslash then some (backslash, rest)
            else if code = 0x6e then some (lineFeed, rest)
            else if code = 0x72 then some (carriageReturn, rest)
            else if code = 0x74 then some (tab, rest)
            else if code = 0x78 then
              match rest with
              | high :: low :: rest => do
                  let high ← decodeHexDigit high
                  let low ← decodeHexDigit low
                  return (high * 16 + low, rest)
              | _ => none
            else none

/-- Reads a value up to its closing quote, or up to a space. -/
def readValue : Reader UInt8 ByteString
  | [] => some ([], [])
  | c :: rest =>
      if c = quote then readQuoted quote readChar rest
      else readUntil (· == space) (c :: rest)

/-- The decoder of `escape_value`. -/
def unescapeValue (text : ByteString) : Option ByteString := do
  let (value, rest) ← readValue text
  if rest.isEmpty then some value else none

/-- Reads a field. -/
def readField : Reader UInt8 LogField
  | [] => none
  | c :: rest =>
      if c ≠ space then none
      else do
        let (key, rest) ← readUntil (· == equals) rest
        let (value, rest) ← readValue (rest.drop 1)
        return (⟨key, value⟩, rest)

/-- The parser of a rendered list of fields. -/
def readFields (text : ByteString) : Option (List LogField) := readAll readField text

/-! ## Characters -/

/-- The string `hex` is the table of the digits. -/
theorem getD_hex : ∀ d < 16, hex.getD d 0 = hexDigit d := by
  decide

/-- A control character without an escape of its own is written as its two digits. -/
theorem escapeChar_control {c : UInt8} (hcontrol : c < 0x20) (hlineFeed : c ≠ lineFeed)
    (hcarriageReturn : c ≠ carriageReturn) (htab : c ≠ tab) :
    escapeChar c = [backslash, 0x78, hexDigit (c.toNat / 16), hexDigit (c.toNat % 16)] := by
  have hquote : c ≠ quote := fun h => absurd (h ▸ hcontrol) (by decide)
  have hbackslash : c ≠ backslash := fun h => absurd (h ▸ hcontrol) (by decide)
  obtain ⟨hhigh, hlow⟩ := nibbles c
  rw [escapeChar, if_neg hquote, if_neg hbackslash, if_neg hlineFeed, if_neg hcarriageReturn,
    if_neg htab, if_pos hcontrol, hhigh, hlow, getD_hex _ (toNat_div_lt c),
    getD_hex _ (toNat_mod_lt c)]
  rfl

/-- A byte is put together from its two digits. -/
theorem join_nibbles :
    ∀ c : UInt8, UInt8.ofNat (c.toNat / 16) * 16 + UInt8.ofNat (c.toNat % 16) = c :=
  forall_byte (by decide +kernel)

/-- Every character is read back from its escape, whatever follows. -/
theorem readChar_escapeChar (c : UInt8) (rest : ByteString) :
    readChar (escapeChar c ++ rest) = some (c, rest) := by
  by_cases hquote : c = quote
  · subst hquote
    rfl
  by_cases hbackslash : c = backslash
  · subst hbackslash
    rfl
  by_cases hlineFeed : c = lineFeed
  · subst hlineFeed
    rfl
  by_cases hcarriageReturn : c = carriageReturn
  · subst hcarriageReturn
    rfl
  by_cases htab : c = tab
  · subst htab
    rfl
  by_cases hcontrol : c < 0x20
  · rw [escapeChar_control hcontrol hlineFeed hcarriageReturn htab]
    have hread : readChar (backslash :: 0x78 :: hexDigit (c.toNat / 16) ::
        hexDigit (c.toNat % 16) :: rest) = (do
          let high ← decodeHexDigit (hexDigit (c.toNat / 16))
          let low ← decodeHexDigit (hexDigit (c.toNat % 16))
          return (high * 16 + low, rest)) := rfl
    simp only [List.cons_append, List.nil_append]
    rw [hread, decodeHexDigit_hexDigit _ (toNat_div_lt c),
      decodeHexDigit_hexDigit _ (toNat_mod_lt c)]
    simp only [Option.bind_eq_bind, Option.bind_some, join_nibbles]
    rfl
  · have hplain : escapeChar c = [c] := by
      simp only [escapeChar, hquote, hbackslash, hlineFeed, hcarriageReturn, htab, hcontrol,
        if_false]
    rw [hplain, List.singleton_append, readChar.eq_def]
    exact if_pos hbackslash

/-- No escape starts with a quote. -/
theorem escapeChar_head :
    ∀ c : UInt8, (escapeChar c).head? ≠ none ∧ (escapeChar c).head? ≠ some quote :=
  forall_byte (by decide +kernel)

/-- What is written for a byte never starts with a quote, so the closing quote is found. -/
theorem escapeChar_cons (c : UInt8) :
    ∃ first tail, escapeChar c = first :: tail ∧ first ≠ quote := by
  have hhead := escapeChar_head c
  cases hescape : escapeChar c with
  | nil => exact absurd (by rw [hescape]; rfl) hhead.1
  | cons first tail =>
      refine ⟨first, tail, rfl, ?_⟩
      intro hfirst
      exact hhead.2 (by rw [hescape, hfirst]; rfl)

/-! ## Values -/

/-- A value that needs no quotes holds neither a quote nor a space. -/
theorem plain_of_needsQuotingAt :
    ∀ c : UInt8, needsQuotingAt c = false → c ≠ quote ∧ (c == space) = false :=
  forall_byte (by decide +kernel)

/-- **Every value is read back** in front of a space and at the end of the text. -/
theorem recovers_readValue :
    Recovers readValue escapeValue (fun _ => True) (EndsAt (· == space)) := by
  intro value rest _ hrest
  by_cases hquoting : value.any needsQuotingAt
  · have hescape : escapeValue value ++ rest =
        quote :: (value.flatMap escapeChar ++ [quote] ++ rest) := by
      simp [escapeValue, hquoting]
    rw [hescape, readValue, if_pos rfl]
    exact recovers_readQuoted readChar_escapeChar escapeChar_cons value rest trivial trivial
  · have hescape : escapeValue value = value := by simp [escapeValue, hquoting]
    have hplain : ∀ c ∈ value, c ≠ quote ∧ (c == space) = false := by
      intro c hc
      apply plain_of_needsQuotingAt
      by_contra hneeds
      exact hquoting (List.any_eq_true.mpr ⟨c, hc, by simpa using hneeds⟩)
    have hread := recovers_readUntil (· == space) value rest (fun c hc => (hplain c hc).2) hrest
    rw [hescape]
    cases value with
    | nil =>
        cases rest with
        | nil => rfl
        | cons b rest =>
            obtain rfl : b = space := eq_of_beq hrest
            rfl
    | cons c value =>
        rw [List.cons_append, readValue, if_neg (hplain c List.mem_cons_self).1]
        exact hread

/-- **Escaping is undone by reading.** Every value is read back, whether it was quoted or
written as it is. -/
theorem unescapeValue_escapeValue (value : ByteString) :
    unescapeValue (escapeValue value) = some value := by
  have hread := recovers_readValue value [] trivial trivial
  rw [List.append_nil] at hread
  rw [unescapeValue, hread]
  rfl

/-! ## Fields -/

/-- A non-empty token of lower-case letters, digits and underscores. -/
def IsSnakeCase (key : ByteString) : Prop :=
  key ≠ [] ∧ ∀ c ∈ key, (0x61 ≤ c ∧ c ≤ 0x7a) ∨ (0x30 ≤ c ∧ c ≤ 0x39) ∨ c = 0x5f

instance (key : ByteString) : Decidable (IsSnakeCase key) :=
  inferInstanceAs (Decidable
    (key ≠ [] ∧ ∀ c ∈ key, (0x61 ≤ c ∧ c ≤ 0x7a) ∨ (0x30 ≤ c ∧ c ≤ 0x39) ∨ c = 0x5f))

/-- A key in snake case has no `=`, so the first one ends it. -/
theorem ne_equals_of_snakeCase :
    ∀ c : UInt8, (0x61 ≤ c ∧ c ≤ 0x7a) ∨ (0x30 ≤ c ∧ c ≤ 0x39) ∨ c = 0x5f →
      (c == equals) = false :=
  forall_byte (by decide +kernel)

/-- A field is read back when its key holds no `=`. -/
theorem recovers_readField :
    Recovers readField fieldText (fun field => ∀ c ∈ field.key, (c == equals) = false)
      (EndsAt (· == space)) := by
  intro field rest hkey hrest
  have hkeyRead := recovers_readUntil (· == equals) field.key
    (equals :: (escapeValue field.value ++ rest)) hkey rfl
  have hvalueRead := recovers_readValue field.value rest trivial hrest
  have htext : fieldText field ++ rest =
      space :: (id field.key ++ equals :: (escapeValue field.value ++ rest)) := by
    simp [fieldText]
  rw [htext, readField, if_neg (not_not.mpr rfl), hkeyRead]
  simp only [Option.bind_eq_bind, Option.bind_some, List.drop_one, List.tail_cons, hvalueRead]
  rfl

/-- A rendered list of fields is taken apart again when no key holds an `=`. -/
theorem readFields_of_keys {fields : List LogField}
    (h : ∀ field ∈ fields, ∀ c ∈ field.key, (c == equals) = false) :
    readFields (fieldsText fields) = some fields := by
  apply readAll_flatMap recovers_readField trivial ?_ ?_ fields h
  · intro field rest _
    rfl
  · intro field
    exact List.cons_ne_nil _ _

/-- **Rendered fields determine the list.** -/
theorem readFields_fieldsText {fields : List LogField}
    (h : ∀ field ∈ fields, IsSnakeCase field.key) :
    readFields (fieldsText fields) = some fields := by
  apply readFields_of_keys
  intro field hfield c hc
  exact ne_equals_of_snakeCase c ((h field hfield).2 c hc)

end LogFormat

end Tpmkit
