import Tpmkit.DigestCodec

/-!
# Request structures

What the unchecked encoders write when their arguments fit: each request
structure is named as a function of the arguments, the encoder is shown to
produce it without leaving an array, and the structure is read back entry by
entry.  Counts and sizes are narrowed to 32 and 16 bits; the bounds of the
arrays keep their values.
-/

namespace Tpmkit

open Checked ByteBitmap Pcr

variable {build : BuildOptions}

/-! ## Allocations -/

/-- The entry that asks for all PCRs of a bank. -/
def encodedBank (build : BuildOptions) (bank : Bank build) : TpmsPcrSelection :=
  ⟨algorithmToTpm build bank.algorithm, pcrSelectMinSize, #v[0xff, 0xff, 0xff, 0]⟩

/-- The structure that an allocation sends: one entry with every PCR for each bank. -/
def encodedAllocation (build : BuildOptions) (banks : List (Bank build)) : TpmlPcrSelection :=
  ⟨UInt32.ofNat banks.length,
    overlay (banks.map (encodedBank build)) TpmlPcrSelection.zeroed.pcrSelections⟩

/-- Every bit that the loop over the PCRs sets in a fresh entry. -/
theorem selectAllPcrs_zeroed (hash : TpmiAlgHash) :
    selectAllPcrs { TpmsPcrSelection.zeroed with hash := hash } =
      .value ⟨hash, pcrSelectMinSize, #v[0xff, 0xff, 0xff, 0]⟩ := rfl

/-- An allocation entry selects the PCRs 0 to 23. -/
theorem encodedBank_selects (bank : Bank build) (pcr : Nat) :
    (encodedBank build bank).selects pcr ↔ pcr < 24 := by
  have hsize : (encodedBank build bank).sizeofSelect.toNat = 3 := rfl
  unfold TpmsPcrSelection.selects
  rw [hsize]
  constructor
  · rintro ⟨hbyte, _⟩
    omega
  · intro hlt
    have hall : ∀ i, i < 24 → bit (#v[(0xff : UInt8), 0xff, 0xff, 0]) i = true := by decide
    exact ⟨by omega, hall pcr hlt⟩

/-- The encoder of an allocation stays in its array of 16 entries and produces the named
structure. -/
theorem toTpmAllocation_of_length {banks : List (Bank build)} (h : banks.length ≤ 16) :
    toTpmAllocation build banks = .value (encodedAllocation build banks) := by
  have hloop : forIndex (encodeBank build banks) banks.length 0
      TpmlPcrSelection.zeroed.pcrSelections =
        (.value (encodedAllocation build banks).pcrSelections :
          Outcome (Vector TpmsPcrSelection 16)) := by
    have hfill := forIndex_fill (encodeBank build banks) (banks.map (encodedBank build))
      TpmlPcrSelection.zeroed.pcrSelections (by simpa using h)
      (fun i hi selections hzeroed => by
        have hbank : i < banks.length := by simpa using hi
        have hentry : i < 16 := by omega
        have hfirst : selections[i] = .zeroed := by simpa [TpmlPcrSelection.zeroed] using hzeroed
        simp [encodeBank, hentry, hbank, hfirst, selectAllPcrs_zeroed, encodedBank])
    simpa [encodedAllocation] using hfill
  simp [toTpmAllocation, hloop, encodedAllocation]

/-- The wire form of an allocation: one entry per bank, in order, each
selecting PCRs 0 to 23, and nothing else. -/
structure ImageOfBanks (banks : List (Bank build)) (t : TpmlPcrSelection) : Prop where
  count_eq : t.count.toNat = banks.length
  hash_eq : ∀ i (_ : i < 16) (_ : i < banks.length),
    t.pcrSelections[i].hash = bankId banks[i].algorithm
  selects_iff : ∀ i (_ : i < 16) (_ : i < banks.length) pcr,
    t.pcrSelections[i].selects pcr ↔ pcr < 24
  beyond_eq : ∀ i (_ : i < 16) (_ : i < banks.length),
    t.pcrSelections[i].sizeofSelect = 3 ∧ t.pcrSelections[i].pcrSelect[3] = 0
  unused_eq : ∀ i (_ : i < 16), banks.length ≤ i → t.pcrSelections[i] = .zeroed

/-- The allocation sent is read back as the banks, in their order. -/
theorem imageOfBanks_encodedAllocation {banks : List (Bank build)} (h : banks.length ≤ 16) :
    ImageOfBanks banks (encodedAllocation build banks) := by
  have hentry : ∀ i (_ : i < 16) (_ : i < banks.length),
      (encodedAllocation build banks).pcrSelections[i] = encodedBank build banks[i] := by
    intro i hi hbank
    simp [encodedAllocation, getElem_overlay hi, List.getD_eq_getElem?_getD, hbank]
  refine ⟨?_, fun i hi hbank => ?_, fun i hi hbank pcr => ?_, fun i hi hbank => ?_,
    fun i hi hunused => ?_⟩
  · simp only [encodedAllocation, UInt32.toNat_ofNat', Nat.reducePow]
    omega
  · rw [hentry i hi hbank, encodedBank, algorithmToTpm_eq_bankId banks[i].enabled]
  · rw [hentry i hi hbank, encodedBank_selects]
  · rw [hentry i hi hbank]
    exact ⟨rfl, rfl⟩
  · simp [encodedAllocation, getElem_overlay hi, List.getD_eq_getElem?_getD, hunused,
      TpmlPcrSelection.zeroed]

/-! ## Digest lists -/

/-- The wire form of a digest list: one tagged union per digest, in order, with
the digest's bytes first and zeros in every unused place. -/
structure ImageOfDigests (digests : List DigestValue) (t : TpmlDigestValues) : Prop where
  count_eq : t.count.toNat = digests.length
  id_eq : ∀ i (_ : i < 16) (_ : i < digests.length),
    t.digests[i].hashAlg = bankId digests[i].algorithm
  byte_eq : ∀ i (_ : i < 16) (_ : i < digests.length) j (_ : j < 64),
    t.digests[i].digest[j] = digests[i].digest.getD j 0
  unused_eq : ∀ i (_ : i < 16), digests.length ≤ i → t.digests[i] = .zeroed

/-- The digests sent are read back as the arguments, each with the identifier of its bank and
its bytes. -/
theorem imageOfDigests_encodedDigests {digests : List DigestValue} (h : digests.length ≤ 16)
    (hdigests : ∀ d ∈ digests, d.WellFormed build) :
    ImageOfDigests digests (encodedDigests build digests) := by
  refine ⟨encodedDigests_count h, fun i hi hdigest => ?_, fun i hi hdigest j hj => ?_,
    fun i hi hunused => ?_⟩
  · rw [encodedDigests_getElem hdigest hi, encodedDigest,
      algorithmToTpm_eq_bankId (hdigests _ (List.getElem_mem hdigest)).enabled]
  · simp only [encodedDigests_getElem hdigest hi]
    simp [encodedDigest, getElem_overlay hj, TpmtHa.zeroed]
  · simp [encodedDigests, getElem_overlay hi, List.getD_eq_getElem?_getD, hunused,
      TpmlDigestValues.zeroed]

/-! ## Sized buffers -/

/-- The structure that an event sends: the data at the front of a zeroed buffer. -/
def encodedEvent (eventData : List UInt8) : Tpm2bEvent :=
  ⟨UInt16.ofNat eventData.length, overlay eventData Tpm2bEvent.zeroed.buffer⟩

/-- The structure that carries a policy digest. -/
def encodedSizedDigest (bytes : List UInt8) : Tpm2bDigest :=
  ⟨UInt16.ofNat bytes.length, overlay bytes Tpm2bDigest.zeroed.buffer⟩

/-- Up to 1024 bytes the encoder of an event does not leave its buffer. -/
theorem toTpmEvent_of_length {eventData : List UInt8} (h : eventData.length ≤ 1024) :
    toTpmEvent eventData = .value (encodedEvent eventData) := by
  simp [toTpmEvent, copyInto_of_le h h, encodedEvent]

/-- Up to 64 bytes the encoder of a digest does not leave its buffer. -/
theorem toTpmSizedDigest_of_length {bytes : List UInt8} (h : bytes.length ≤ 64) :
    toTpmSizedDigest bytes = .value (encodedSizedDigest bytes) := by
  simp [toTpmSizedDigest, copyInto_of_le h h, encodedSizedDigest]

/-- A sized buffer holds these bytes, with zeros after them. -/
structure ImageOfBytes {n : Nat} (bytes : List UInt8) (size : UInt16) (buffer : Vector UInt8 n) :
    Prop where
  size_eq : size.toNat = bytes.length
  byte_eq : ∀ j (_ : j < n), buffer[j] = bytes.getD j 0

/-- Bytes laid over a zeroed buffer are read back at their size; it is narrowed to 16 bits,
which loses nothing below `2 ^ 16`. -/
theorem imageOfBytes_overlay {n : Nat} {bytes : List UInt8} (h : bytes.length < 2 ^ 16) :
    ImageOfBytes bytes (UInt16.ofNat bytes.length) (overlay bytes (Vector.replicate n 0)) := by
  refine ⟨?_, fun j hj => ?_⟩
  · simp only [UInt16.toNat_ofNat', Nat.mod_eq_of_lt h]
  · simp [getElem_overlay hj]

/-- The event sent is read back as its data. -/
theorem imageOfBytes_encodedEvent {eventData : List UInt8} (h : eventData.length ≤ 1024) :
    ImageOfBytes eventData (encodedEvent eventData).size (encodedEvent eventData).buffer :=
  imageOfBytes_overlay (by omega)

/-- The policy digest sent is read back as its bytes. -/
theorem imageOfBytes_encodedSizedDigest {bytes : List UInt8} (h : bytes.length ≤ 64) :
    ImageOfBytes bytes (encodedSizedDigest bytes).size (encodedSizedDigest bytes).buffer :=
  imageOfBytes_overlay (by omega)

end Tpmkit
