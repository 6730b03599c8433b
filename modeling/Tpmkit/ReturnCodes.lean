import Tpmkit.EsysWorld
import Tpmkit.FixedDigits

/-!
# The laws of return code translation

What a caller can tell from a translated code, for every code of 32 bits.  The
layer and the base of the code select at most one entry of the table, and the
message says no more than the category.  `translateTssRc_laws` puts this together
with what the logger is handed.
-/

namespace Tpmkit

open Checked ByteStrings

/-! ## Layer and base -/

/-- The bits of a format-one code that name a parameter, a handle or a session. -/
def decorationMask : TssRc := 0xf40

/-- A code of the TPM layer that carries the format-one bit. -/
def IsFormatOne (rc : TssRc) : Prop := rcLayer rc = tss2TpmRcLayer ∧ rc &&& tpm2RcFmt1 ≠ 0

instance (rc : TssRc) : Decidable (IsFormatOne rc) :=
  inferInstanceAs (Decidable (rcLayer rc = tss2TpmRcLayer ∧ rc &&& tpm2RcFmt1 ≠ 0))

/-- The layer of a code is its bits 16 to 23. -/
theorem rcLayer_toNat (rc : TssRc) : (rcLayer rc).toNat = rc.toNat / 2 ^ 16 % 2 ^ 8 * 2 ^ 16 := by
  have hmask : tss2RcLayerMask.toNat = (2 ^ 8 - 1) <<< 16 := by decide
  rw [rcLayer, UInt32.toNat_and, hmask, ← Nat.shiftRight_eq_div_pow,
    ← Nat.and_two_pow_sub_one_eq_mod, ← Nat.shiftLeft_eq]
  apply Nat.eq_of_testBit_eq
  intro i
  by_cases hi : 16 ≤ i
  · have hsum : 16 + (i - 16) = i := by omega
    simp only [Nat.testBit_and, Nat.testBit_shiftLeft, Nat.testBit_shiftRight, hi, decide_true,
      Bool.true_and, hsum]
  · simp only [Nat.testBit_and, Nat.testBit_shiftLeft, hi, decide_false, Bool.false_and,
      Bool.and_false]

/-- A code that is not of format one is compared by its low 16 bits. -/
theorem rcBase_toNat {rc : TssRc} (h : ¬IsFormatOne rc) :
    (rcBase rc (rcLayer rc)).toNat = rc.toNat % 2 ^ 16 := by
  have hplain : rcBase rc (rcLayer rc) = rc &&& 0xffff := by
    by_cases hlayer : rcLayer rc = tss2TpmRcLayer
    · have hfmt1 : rc &&& tpm2RcFmt1 = 0 := not_not.mp fun hset => h ⟨hlayer, hset⟩
      have hmasked : (rc &&& 0xffff) &&& tpm2RcFmt1 = 0 := by
        rw [UInt32.and_assoc]
        exact hfmt1
      rw [rcBase, if_pos hlayer, normalizeTpmBase, if_pos hmasked]
    · rw [rcBase, if_neg hlayer]
  rw [hplain, UInt32.toNat_and]
  exact Nat.and_two_pow_sub_one_eq_mod rc.toNat 16

/-- A change of bits outside a mask is not seen through it. -/
theorem xor_and_eq {mask changed : TssRc} (h : changed &&& mask = 0) (rc change : TssRc) :
    (rc ^^^ (change &&& changed)) &&& mask = rc &&& mask := by
  have hbits : changed.toNat &&& mask.toNat = 0 := by
    rw [← UInt32.toNat_and, h]
    rfl
  apply UInt32.toNat_inj.mp
  rw [UInt32.toNat_and, UInt32.toNat_xor, UInt32.toNat_and, UInt32.toNat_and,
    Nat.and_xor_distrib_right, Nat.and_assoc, hbits, Nat.and_zero, Nat.xor_zero]

/-- A change of the decoration leaves the translation of a format-one code alone. -/
theorem translatedError_decoration {rc : TssRc} (h : IsFormatOne rc) (change : TssRc) :
    translatedError (rc ^^^ (change &&& decorationMask)) = translatedError rc := by
  obtain ⟨hlayer, hfmt1⟩ := h
  have hlayer' : rcLayer (rc ^^^ (change &&& decorationMask)) = rcLayer rc :=
    xor_and_eq (by decide) rc change
  have hfmt1' : (rc ^^^ (change &&& decorationMask)) &&& tpm2RcFmt1 ≠ 0 := by
    rw [xor_and_eq (by decide)]
    exact hfmt1
  have hbase : ∀ {code : TssRc}, code &&& tpm2RcFmt1 ≠ 0 →
      rcBase code tss2TpmRcLayer = code &&& (tpm2RcFmt1 ||| 0x3f) := by
    intro code hset
    have hmasked : (code &&& 0xffff) &&& tpm2RcFmt1 ≠ 0 := by
      rw [UInt32.and_assoc]
      exact hset
    rw [rcBase, if_pos rfl, normalizeTpmBase, if_neg hmasked, UInt32.and_assoc]
    rfl
  rw [translatedError, translatedError, hlayer', hlayer, hbase hfmt1', hbase hfmt1,
    xor_and_eq (by decide)]

/-- Such a change keeps the code a failure. -/
theorem decorated_ne_success {rc : TssRc} (h : IsFormatOne rc) (change : TssRc) :
    rc ^^^ (change &&& decorationMask) ≠ tss2RcSuccess := by
  intro hzero
  have hset : (rc ^^^ (change &&& decorationMask)) &&& tpm2RcFmt1 ≠ 0 := by
    rw [xor_and_eq (by decide)]
    exact h.2
  rw [hzero] at hset
  exact hset (by decide)

/-! ## The table -/

/-- The entry is the one for the layer and the base of a code. -/
def MappingEntry.Covers (entry : MappingEntry) (rc : TssRc) : Prop :=
  entry.layer = rcLayer rc ∧ entry.base = rcBase rc (rcLayer rc)

instance (entry : MappingEntry) (rc : TssRc) : Decidable (entry.Covers rc) :=
  inferInstanceAs (Decidable (entry.layer = rcLayer rc ∧ entry.base = rcBase rc (rcLayer rc)))

/-- The one message of a category. -/
def categoryMessage : ErrorCategory → String
  | .inputError => inputError.message
  | .securityFailure => securityError.message
  | .resourceError => resourceError.message
  | .backendError => backendError.message

/-- No two entries have the same key. -/
theorem documentedMappings_unique :
    ∀ entry ∈ documentedMappings, ∀ other ∈ documentedMappings,
      entry.layer = other.layer → entry.base = other.base → entry = other := by
  decide +kernel

/-- The message of an error depends on its category only. -/
theorem documentedMappings_message :
    ∀ entry ∈ documentedMappings, entry.error.message = categoryMessage entry.error.category := by
  decide

/-- A found entry is the one that covers the code. -/
theorem translatedError_cases (rc : TssRc) :
    (∃ entry ∈ documentedMappings, entry.Covers rc ∧ translatedError rc = entry.error) ∨
      ((∀ entry ∈ documentedMappings, ¬entry.Covers rc) ∧ translatedError rc = backendError) := by
  rw [translatedError, translateLayerBase]
  split
  · rename_i entry hfound
    have hcovers : entry.Covers rc := by simpa [MappingEntry.Covers] using List.find?_some hfound
    exact Or.inl ⟨entry, List.mem_of_find?_eq_some hfound, hcovers, rfl⟩
  · rename_i hnone
    refine Or.inr ⟨?_, rfl⟩
    intro entry hentry hcovers
    have hkey := List.find?_eq_none.mp hnone entry hentry
    simp [hcovers.1, hcovers.2] at hkey

/-- A code that an entry of the table covers is translated by that entry; no second one
disagrees. -/
theorem translatedError_of_covers {rc : TssRc} {entry : MappingEntry}
    (h : entry ∈ documentedMappings) (hcovers : entry.Covers rc) :
    translatedError rc = entry.error := by
  rcases translatedError_cases rc with ⟨found, hfound, hkey, herror⟩ | ⟨hnone, _⟩
  · have hlayer : found.layer = entry.layer := hkey.1.trans hcovers.1.symm
    have hbase : found.base = entry.base := hkey.2.trans hcovers.2.symm
    rw [herror, documentedMappings_unique found hfound entry h hlayer hbase]
  · exact absurd hcovers (hnone entry h)

/-- Every other code is an error of the backend. -/
theorem translatedError_of_not_covered {rc : TssRc}
    (h : ∀ entry ∈ documentedMappings, ¬entry.Covers rc) : translatedError rc = backendError := by
  rcases translatedError_cases rc with ⟨entry, hentry, hcovers, _⟩ | ⟨_, herror⟩
  · exact absurd hcovers (h entry hentry)
  · exact herror

/-- The message says no more than the category. -/
theorem translatedError_message (rc : TssRc) :
    (translatedError rc).message = categoryMessage (translatedError rc).category := by
  rcases translatedError_cases rc with ⟨entry, hentry, _, herror⟩ | ⟨_, herror⟩
  · rw [herror]
    exact documentedMappings_message entry hentry
  · rw [herror]
    rfl

/-! ## The record -/

/-- The eight digits of a logged code denote the code. -/
theorem formatHex_digits (rc : TssRc) :
    ∃ digits : List Nat, formatHex rc = ascii "0x" ++ digits.map hexDigit ∧ digits.length = 8 ∧
      (∀ d ∈ digits, d < 16) ∧ FixedDigits.value 16 digits = rc.toNat := by
  refine ⟨FixedDigits.digits 16 8 rc.toNat, ?_, FixedDigits.length_digits 8 _, ?_, ?_⟩
  · rw [formatHex, FixedDigits.digits_eq_map, List.map_map]
    rfl
  · intro d hd
    exact FixedDigits.lt_of_mem_digits (by decide) hd
  · exact FixedDigits.value_digits_of_lt rc.toNat_lt

/-- What a call does with a code: it returns the error, and a logger is handed one
record with the code and the category. -/
structure TranslatesTo (σ : Type) (rc : TssRc) (e : Error) : Prop where
  returned : ∀ (operation : ByteString) (log : Option Logger) (errorEvent : EventDescriptor)
    (decoder : Option TssErrorDecoder) (w : World σ),
    (translateTssRc rc operation log errorEvent decoder w).1 = .unexpected e
  silent : ∀ (operation : ByteString) (errorEvent : EventDescriptor)
    (decoder : Option TssErrorDecoder) (w : World σ),
    (translateTssRc rc operation none errorEvent decoder w).2 = w
  logged : ∀ (operation : ByteString) (log : Logger) (errorEvent : EventDescriptor)
    (decoder : Option TssErrorDecoder) (w : World σ),
    ∃ entry, (translateTssRc rc operation (some log) errorEvent decoder w).2 =
        w.after w.backend [.log log entry] ∧
      entry.field Events.Fields.errorCode = some (formatHex rc) ∧
      entry.field Events.Fields.errorCategory = some (categoryName e.category)

variable {σ : Type}

/-- A failing code is translated and logged, with the whole code in the record. -/
theorem translatesTo_of_ne_success {rc : TssRc} (h : rc ≠ tss2RcSuccess) :
    TranslatesTo σ rc (translatedError rc) where
  returned operation log errorEvent decoder w := by
    rw [translateTssRc_of_ne_success h]
  silent operation errorEvent decoder w := by
    rw [translateTssRc_of_ne_success h]
    exact World.after_nil w
  logged operation log errorEvent decoder w := by
    refine ⟨failedCallRecord rc operation errorEvent decoder, ?_,
      failedCallRecord_errorCode .., failedCallRecord_errorCategory ..⟩
    rw [translateTssRc_of_ne_success h, failureEvents_some]
    rfl

/-- A code is translated to success exactly when it is the one for success. -/
theorem translateTssRc_eq_value (rc : TssRc) (operation : ByteString) (log : Option Logger)
    (errorEvent : EventDescriptor) (decoder : Option TssErrorDecoder) (w : World σ) :
    (translateTssRc rc operation log errorEvent decoder w).1 = .value () ↔ rc = tss2RcSuccess := by
  constructor
  · intro hvalue
    by_contra hfailed
    rw [(translatesTo_of_ne_success hfailed).returned] at hvalue
    cases hvalue
  · intro hsuccess
    rw [translateTssRc, if_pos hsuccess]
    rfl

/-- Success is not translated, and nothing is logged. -/
theorem translateTssRc_success (operation : ByteString) (log : Option Logger)
    (errorEvent : EventDescriptor) (decoder : Option TssErrorDecoder) (w : World σ) :
    translateTssRc tss2RcSuccess operation log errorEvent decoder w = (.value (), w) := by
  rw [translateTssRc, if_pos rfl]
  rfl

end Tpmkit
