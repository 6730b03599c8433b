import Tpmkit.PcrValues
import Tpmkit.TssTypes

/-!
# PCR marshalling

`pcr_marshalling.cpp`: the mapping of hash algorithms to TPM identifiers, the
three response parsers and the five request encoders.  Every array access goes
through a checked read or write, so an access past an array is a fault of the
call and not a silent default.
-/

namespace Tpmkit

open Checked AscendingSet ByteBitmap Pcr

variable (build : BuildOptions)

/-! ## Algorithm identifiers -/

/-- `algorithm_from_tpm`: an identifier of a disabled SHA-1 and an unknown one are refused with
different texts. -/
def algorithmFromTpm (algorithm : TpmiAlgHash) : Outcome HashAlgorithm :=
  if algorithm = tpm2AlgSha1 then
    if build.legacySha1PcrEnabled then .value .sha1
    else fail .backendError "TPM returned disabled legacy SHA-1 PCR bank"
  else if algorithm = tpm2AlgSha256 then .value .sha256
  else if algorithm = tpm2AlgSha384 then .value .sha384
  else if algorithm = tpm2AlgSha512 then .value .sha512
  else fail .backendError "TPM returned unsupported PCR hash algorithm"

/-- `algorithm_to_tpm`: `TPM2_ALG_ERROR` stands for an algorithm that the build has not got. -/
def algorithmToTpm : HashAlgorithm → TpmiAlgHash
  | .sha1 => if build.legacySha1PcrEnabled then tpm2AlgSha1 else tpm2AlgError
  | .sha256 => tpm2AlgSha256
  | .sha384 => tpm2AlgSha384
  | .sha512 => tpm2AlgSha512
  | .unlisted _ => tpm2AlgError

/-- `is_supported_algorithm`, by the identifier. -/
def isSupportedAlgorithm (algorithm : HashAlgorithm) : Bool :=
  algorithmToTpm build algorithm ≠ tpm2AlgError

/-- `pcr_handle`: the handles of the PCRs are consecutive. -/
def pcrHandle (index : Index) : EsysTr := esysTrPcr0 + index.value.toUInt32

/-! ## Response parsers -/

/-- A pointer to the first byte of an array member of `capacity` bytes. -/
structure MemberPointer where
  capacity : Nat
  bytes : Vector UInt8 64

/-- `make_digest_value(algorithm, data, size)`: `size` bytes from `data` on make a digest value.
-/
def makeDigestValue (algorithm : HashAlgorithm) (data : Option MemberPointer) (size : Nat) :
    Outcome DigestValue :=
  if data.isNone ∧ size > 0 then
    fail .backendError "TPM returned malformed PCR digest"
  else do
    let expected ← digestSize build algorithm
    if size ≠ expected then
      fail .backendError "TPM returned PCR digest with unexpected size"
    else
      let bytes ← match data with
        | some member => readPrefix member.capacity size member.bytes
        | none => pure []
      DigestValue.make build algorithm bytes

/-- The member of `TPMU_HA` that an algorithm names, by its length in bytes. -/
def unionMemberSize : HashAlgorithm → Option Nat
  | .sha1 => some tpm2Sha1DigestSize
  | .sha256 => some tpm2Sha256DigestSize
  | .sha384 => some tpm2Sha384DigestSize
  | .sha512 => some tpm2Sha512DigestSize
  | .unlisted _ => none

/-- `make_digest_value(const TPMT_HA&)`: the identifier decides which member of the union is
read. -/
def makeTaggedDigestValue (digest : TpmtHa) : Outcome DigestValue := do
  let algorithm ← algorithmFromTpm build digest.hashAlg
  match unionMemberSize algorithm with
  | some size => makeDigestValue build algorithm (some ⟨size, digest.digest⟩) size
  | none => fail .backendError "TPM returned unsupported PCR hash algorithm"

/-- `should_skip_disabled_pcr_algorithm`: digests of a disabled SHA-1 are passed over and not
refused. -/
def shouldSkipDisabledPcrAlgorithm (algorithm : TpmiAlgHash) : Bool :=
  !build.legacySha1PcrEnabled && algorithm = tpm2AlgSha1

/-- One iteration of `to_domain_digests`: the entry is passed over, parsed, or refused, which
ends the loop. -/
def appendDomainDigest (digests : TpmlDigestValues) (index : Nat)
    (result : List DigestValue) : Outcome (List DigestValue) := do
  let entry ← readAt digests.digests index
  if shouldSkipDisabledPcrAlgorithm build entry.hashAlg then
    return result
  else
    let value ← makeTaggedDigestValue build entry
    return result ++ [value]

/-- `to_domain_digests`: the digests of an event, at most as many as the array holds.  Banks are
not compared, so one may appear twice. -/
def toDomainDigests (digests : TpmlDigestValues) : Outcome (List DigestValue) :=
  if digests.count.toNat > digests.digests.size then
    fail .backendError "TPM returned too many PCR event digests"
  else
    forIndex (appendDomainDigest build digests) digests.count.toNat 0 []

/-- One iteration of `to_domain_read_values`; `selected` is the enumeration
that the iterator `selected_index` walks. -/
def appendReadValue (values : TpmlDigest) (algorithm : HashAlgorithm)
    (selected : List Index) (index : Nat) (result : List Value) :
    Outcome (List Value) := do
  let digest ← readAt values.digests index
  let value ← makeDigestValue build algorithm (some ⟨64, digest.buffer⟩) digest.size.toNat
  let selectedIndex ← spanAt selected index
  return result ++ [⟨selectedIndex, value⟩]

/-- `to_domain_read_values`: the values go with the registers of the selection in ascending
order, and there must be as many. -/
def toDomainReadValues (values : TpmlDigest) (selection : Selection build) :
    Outcome (List Value) :=
  if values.count.toNat > values.digests.size then
    fail .backendError "TPM returned too many PCR read digests"
  else if values.count.toNat ≠ selection.indices.card then
    fail .backendError "TPM returned PCR digest count mismatch"
  else
    forIndex (appendReadValue build values selection.algorithm (ascending selection.indices))
      values.count.toNat 0 []

/-- The inner loop body of `to_domain_selection`: a bit that is set makes an index, whose
constructor would throw above 31. -/
def collectSelectedBit (selection : TpmsPcrSelection) (byteIndex bit : Nat)
    (indices : Finset Index) : Outcome (Finset Index) := do
  let byte ← readAt selection.pcrSelect byteIndex
  if !isSet byte bit then
    return indices
  else
    let pcrNumber := byteIndex * 8 + bit
    if pcrNumber > Index.maxValue then
      fail .backendError "TPM returned invalid PCR index"
    else
      let index ← Index.make (UInt32.ofNat pcrNumber)
      return insert index indices

/-- The outer loop body of `to_domain_selection`: the eight bits of one byte. -/
def collectSelectedByte (selection : TpmsPcrSelection) (byteIndex : Nat)
    (indices : Finset Index) : Outcome (Finset Index) :=
  forIndex (collectSelectedBit selection byteIndex) 8 0 indices

/-- `to_domain_selection`: the first entry of the answer; without one, the empty selection of
the bank that was asked for. -/
def toDomainSelection (selection : TpmlPcrSelection) (fallbackAlgorithm : HashAlgorithm) :
    Outcome (Selection build) :=
  if selection.count = 0 then
    Selection.make build fallbackAlgorithm ∅
  else if selection.count ≠ 1 then
    fail .backendError "TPM returned multiple PCR selections"
  else do
    let tpmSelection ← readAt selection.pcrSelections 0
    let algorithm ← algorithmFromTpm build tpmSelection.hash
    if tpmSelection.sizeofSelect > tpm2PcrSelectMax then
      fail .backendError "TPM returned malformed PCR selection size"
    else
      let indices ← forIndex (collectSelectedByte tpmSelection)
        tpmSelection.sizeofSelect.toNat 0 ∅
      Selection.make build algorithm indices

/-! ## Request encoders -/

def pcrSelectMinSize : UInt8 := 3

/-- `selection_size_for_pcr`: the bytes that reach up to a PCR, and at least three. -/
def selectionSizeForPcr (pcr : UInt8) : UInt8 :=
  max pcrSelectMinSize (pcr.toUInt32 / 8 + 1).toUInt8

/-- `select_all_pcrs`: the first three bytes are filled. -/
def selectAllPcrs (selection : TpmsPcrSelection) : Outcome TpmsPcrSelection := do
  let pcrSelect ← forIndex (fun index select => writeAt select index 0xff)
    pcrSelectMinSize.toNat 0 selection.pcrSelect
  return { selection with sizeofSelect := pcrSelectMinSize, pcrSelect := pcrSelect }

/-- One iteration of `to_tpm_allocation`: the entry of one bank, with every PCR. -/
def encodeBank (banks : List (Bank build)) (index : Nat)
    (selections : Vector TpmsPcrSelection 16) : Outcome (Vector TpmsPcrSelection 16) := do
  let selection ← readAt selections index
  let bank ← spanAt banks index
  let selected ← selectAllPcrs { selection with hash := algorithmToTpm build bank.algorithm }
  writeAt selections index selected

/-- `to_tpm_allocation`: one entry for each bank.  Its caller has checked that they fit into the
array. -/
def toTpmAllocation (banks : List (Bank build)) : Outcome TpmlPcrSelection := do
  let selections ← forIndex (encodeBank build banks) banks.length 0
    TpmlPcrSelection.zeroed.pcrSelections
  return ⟨UInt32.ofNat banks.length, selections⟩

/-- `set_digest_bytes`: the identifier and the bytes, into the member of the union that the
algorithm names. -/
def setDigestBytes (destination : TpmtHa) (source : DigestValue) : Outcome TpmtHa :=
  let hashAlg := algorithmToTpm build source.algorithm
  match unionMemberSize source.algorithm with
  | some size => do
      let digest ← copyInto size source.digest destination.digest
      return ⟨hashAlg, digest⟩
  | none => return ⟨hashAlg, destination.digest⟩

/-- One iteration of `to_tpm_digest_values`: one digest goes to its place. -/
def encodeDigestValue (digests : List DigestValue) (index : Nat)
    (encoded : Vector TpmtHa 16) : Outcome (Vector TpmtHa 16) := do
  let destination ← readAt encoded index
  let source ← spanAt digests index
  let entry ← setDigestBytes build destination source
  writeAt encoded index entry

/-- `to_tpm_digest_values`: one entry for each digest.  Its caller has checked that they fit
into the array. -/
def toTpmDigestValues (digests : List DigestValue) : Outcome TpmlDigestValues := do
  let encoded ← forIndex (encodeDigestValue build digests) digests.length 0
    TpmlDigestValues.zeroed.digests
  return ⟨UInt32.ofNat digests.length, encoded⟩

/-- `to_tpm_event`; copying an empty span writes nothing. -/
def toTpmEvent (eventData : List UInt8) : Outcome Tpm2bEvent := do
  let buffer ← copyInto 1024 eventData Tpm2bEvent.zeroed.buffer
  return ⟨UInt16.ofNat eventData.length, buffer⟩

/-- The loop body of `to_tpm_selection`: the bit of one PCR is set, and `sizeofSelect` grows to
its byte. -/
def addSelectedPcr (tpmSelection : TpmsPcrSelection) (index : Index) :
    Outcome TpmsPcrSelection := do
  let value := index.value
  let sizeofSelect := max tpmSelection.sizeofSelect (selectionSizeForPcr value)
  let byte ← readAt tpmSelection.pcrSelect (value.toNat / 8)
  let pcrSelect ← writeAt tpmSelection.pcrSelect (value.toNat / 8)
    (withBit byte (value.toNat % 8))
  return { tpmSelection with sizeofSelect := sizeofSelect, pcrSelect := pcrSelect }

/-- `to_tpm_selection`: one entry, for the bank and the PCRs of the selection in their order. -/
def toTpmSelection (selection : Selection build) : Outcome TpmlPcrSelection := do
  let first ← readAt TpmlPcrSelection.zeroed.pcrSelections 0
  let tpmSelection ← (ascending selection.indices).foldlM addSelectedPcr
    { first with
      hash := algorithmToTpm build selection.algorithm
      sizeofSelect := pcrSelectMinSize }
  let selections ← writeAt TpmlPcrSelection.zeroed.pcrSelections 0 tpmSelection
  return ⟨1, selections⟩

/-- `to_tpm_sized_digest`; copying an empty span writes nothing. -/
def toTpmSizedDigest (bytes : List UInt8) : Outcome Tpm2bDigest := do
  let buffer ← copyInto 64 bytes Tpm2bDigest.zeroed.buffer
  return ⟨UInt16.ofNat bytes.length, buffer⟩

/-! ## What the mappings and the parsers' leaves do -/

variable {build}

/-- The identifiers a response may carry are those of the enabled algorithms. -/
theorem algorithmFromTpm_eq_value {t : TpmiAlgHash} {a : HashAlgorithm} :
    algorithmFromTpm build t = .value a ↔
      a.Enabled build ∧ algorithmToTpm build a = t := by
  constructor
  · intro h
    unfold algorithmFromTpm at h
    split at h
    · split at h
      · next hbuild =>
          cases h
          exact ⟨hbuild, by simp_all [algorithmToTpm]⟩
      · cases h
    · repeat' split at h
      all_goals cases h
      all_goals exact ⟨trivial, by simp_all [algorithmToTpm]⟩
  · rintro ⟨ha, rfl⟩
    cases a with
    | unlisted raw => cases ha
    | sha1 =>
        have hbuild : build.legacySha1PcrEnabled = true := ha
        simp [algorithmFromTpm, algorithmToTpm, hbuild]
    | _ => rfl

/-- The texts with which an identifier is refused. -/
def refusedAlgorithmMessages : List String :=
  ["TPM returned disabled legacy SHA-1 PCR bank", "TPM returned unsupported PCR hash algorithm"]

/-- An identifier of no enabled algorithm is a backend error. -/
theorem algorithmFromTpm_cases (t : TpmiAlgHash) :
    (∃ a, algorithmFromTpm build t = .value a) ∨
      ∃ message ∈ refusedAlgorithmMessages,
        algorithmFromTpm build t = fail .backendError message := by
  unfold algorithmFromTpm
  repeat' split
  all_goals first
    | exact Or.inl ⟨_, rfl⟩
    | exact Or.inr ⟨_, by simp [refusedAlgorithmMessages], rfl⟩

/-- The identifier of a bank on the wire. -/
def bankId : HashAlgorithm → TpmiAlgHash
  | .sha1 => tpm2AlgSha1
  | .sha256 => tpm2AlgSha256
  | .sha384 => tpm2AlgSha384
  | .sha512 => tpm2AlgSha512
  | .unlisted _ => tpm2AlgError

theorem algorithmToTpm_eq_bankId {a : HashAlgorithm} (ha : a.Enabled build) :
    algorithmToTpm build a = bankId a := by
  cases a with
  | sha1 =>
      have hbuild : build.legacySha1PcrEnabled = true := ha
      simp [algorithmToTpm, bankId, hbuild]
  | unlisted raw => cases ha
  | _ => rfl

/-- `id` is the identifier of an algorithm the build enables. -/
def EnabledId (build : BuildOptions) (id : TpmiAlgHash) : Prop :=
  ∃ a : HashAlgorithm, a.Enabled build ∧ id = algorithmToTpm build a

theorem enabledId_iff {id : TpmiAlgHash} :
    EnabledId build id ↔ ∃ a, algorithmFromTpm build id = .value a := by
  constructor
  · rintro ⟨a, ha, rfl⟩
    exact ⟨a, algorithmFromTpm_eq_value.mpr ⟨ha, rfl⟩⟩
  · rintro ⟨a, ha⟩
    exact ⟨a, (algorithmFromTpm_eq_value.mp ha).1, (algorithmFromTpm_eq_value.mp ha).2.symm⟩

theorem isSupportedAlgorithm_iff {a : HashAlgorithm} :
    isSupportedAlgorithm build a = true ↔ a.Enabled build := by
  cases a with
  | sha1 =>
      by_cases hbuild : build.legacySha1PcrEnabled <;>
        simp [isSupportedAlgorithm, algorithmToTpm, HashAlgorithm.Enabled, hbuild,
          tpm2AlgSha1, tpm2AlgError]
  | unlisted raw => simp [isSupportedAlgorithm, algorithmToTpm, HashAlgorithm.Enabled]
  | _ =>
      simp [isSupportedAlgorithm, algorithmToTpm, HashAlgorithm.Enabled, tpm2AlgError,
        tpm2AlgSha256, tpm2AlgSha384, tpm2AlgSha512]

theorem unionMemberSize_of_enabled {a : HashAlgorithm} (ha : a.Enabled build) :
    unionMemberSize a = some a.size := by
  cases a with
  | unlisted raw => cases ha
  | _ => rfl

end Tpmkit
