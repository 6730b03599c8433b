import Tpmkit.AscendingSet
import Tpmkit.HashAlgorithm

/-!
# PCR value objects

`pcr::index`, `bank`, `digest_value`, `selection` and the result records.
An index, a bank and a selection carry their class invariant.  A
`digest_value` does not: its implicit move leaves the algorithm behind with an
empty vector, so the object stores any bytes and `WellFormed` names what the
constructor established.
-/

namespace Tpmkit.Pcr

open Checked AscendingSet

/-- `index::max_value`. -/
def Index.maxValue : Nat := 31

/-- `pcr::index`: the class keeps its number in range, as `Fin` does. -/
abbrev Index : Type := Fin (Index.maxValue + 1)

/-- `index::firmware_0`. -/
def Index.firmware0 : Index := ⟨0, by decide⟩

/-- `index::firmware_7`. -/
def Index.firmware7 : Index := ⟨7, by decide⟩

/-- `index::debug`. -/
def Index.debug : Index := ⟨16, by decide⟩

/-- `index::index(std::uint32_t)`: it throws above 31. -/
def Index.make (value : UInt32) : Outcome Index :=
  if h : value.toNat > Index.maxValue then
    .fault (.thrown (.inputValidationError "PCR index must be in the range 0-31"))
  else .value ⟨value.toNat, by omega⟩

/-- `index::value()`. -/
def Index.value (index : Index) : UInt8 := UInt8.ofNat index.val

/-- The number of an index fits into the byte that it is kept in. -/
@[simp] theorem Index.value_toNat (index : Index) : index.value.toNat = index.val := by
  have h : index.val < 32 := index.isLt
  simp only [Index.value, UInt8.toNat_ofNat']
  omega

/-- Up to the bound an index is made. -/
theorem Index.make_ofNat {n : Nat} (h : n ≤ Index.maxValue) :
    Index.make (UInt32.ofNat n) = .value ⟨n, by omega⟩ := by
  have hnat : (UInt32.ofNat n).toNat = n := by
    unfold Index.maxValue at h
    simp only [UInt32.toNat_ofNat']
    omega
  simp only [Index.make, hnat, gt_iff_lt, Nat.not_lt.mpr h, dite_false]

section Algorithms

variable (build : BuildOptions)

/-- `validate_digest_size` and `validate_algorithm`: the constructors report a
rejected algorithm as invalid input, each with its own message. -/
def validateDigestSize (algorithm : HashAlgorithm) (message : String) : Outcome Nat :=
  match digestSize build algorithm with
  | .fault (.thrown (.tpmkitError _)) =>
      .fault (.thrown (.inputValidationError message))
  | result => result

variable {build} {a : HashAlgorithm} {message : String}

/-- An algorithm of the build has its size. -/
theorem validateDigestSize_of_enabled (h : a.Enabled build) :
    validateDigestSize build a message = .value a.size := by
  simp [validateDigestSize, digestSize_of_enabled h]

/-- The check returns the size that it looked up. -/
theorem digestSize_of_validateDigestSize {n : Nat}
    (h : validateDigestSize build a message = .value n) : digestSize build a = .value n := by
  unfold validateDigestSize at h
  split at h
  · cases h
  · exact h

variable (build)

/-- `pcr::bank`: an algorithm of the build and its digest size. -/
structure Bank where
  algorithm : HashAlgorithm
  digestSize : Nat
  supported : Tpmkit.digestSize build algorithm = .value digestSize

/-- `bank::bank(hash_algorithm)`: it throws for an algorithm that the build has not got. -/
def Bank.make (algorithm : HashAlgorithm) : Outcome (Bank build) :=
  match h : validateDigestSize build algorithm "unsupported PCR bank hash algorithm" with
  | .value n => .value ⟨algorithm, n, digestSize_of_validateDigestSize h⟩
  | .unexpected e => .unexpected e
  | .fault f => .fault f

variable {build} in
/-- A bank that was made is one of the build. -/
theorem Bank.enabled (bank : Bank build) :
    bank.algorithm.Enabled build :=
  (enabled_of_digestSize bank.supported).1

end Algorithms

/-- `pcr::digest_value`: any bytes, since the implicit moves can leave a value without its own;
`WellFormed` and `Stored` say what holds of objects. -/
structure DigestValue where
  algorithm : HashAlgorithm
  digest : List UInt8
deriving DecidableEq, Repr

/-- `digest_value::digest_value(hash_algorithm, std::vector<std::uint8_t>)`: it throws for an
algorithm that the build has not got, and for bytes of another number. -/
def DigestValue.make (build : BuildOptions) (algorithm : HashAlgorithm)
    (digest : List UInt8) : Outcome DigestValue := do
  let size ← validateDigestSize build algorithm "unsupported PCR digest hash algorithm"
  if digest.length ≠ size then
    .fault (.thrown (.inputValidationError "PCR digest size does not match hash algorithm"))
  else
    return ⟨algorithm, digest⟩

/-- The class invariant of a digest value that was not moved from. -/
structure DigestValue.WellFormed (build : BuildOptions) (d : DigestValue) : Prop where
  enabled : d.algorithm.Enabled build
  length_eq : d.digest.length = d.algorithm.size

/-- The class invariant of any digest value: a move takes all bytes and leaves
the algorithm. -/
structure DigestValue.Stored (build : BuildOptions) (d : DigestValue) : Prop where
  enabled : d.algorithm.Enabled build
  bytes : d.digest = [] ∨ d.digest.length = d.algorithm.size

/-- A well-formed digest value can be stored. -/
theorem DigestValue.WellFormed.stored {build : BuildOptions} {d : DigestValue}
    (h : d.WellFormed build) : d.Stored build :=
  ⟨h.enabled, Or.inr h.length_eq⟩

/-- What is stored is never longer than its algorithm says, moved from or not. -/
theorem DigestValue.Stored.length_le {build : BuildOptions} {d : DigestValue}
    (h : d.Stored build) : d.digest.length ≤ d.algorithm.size := by
  rcases h.bytes with hempty | hlength
  · simp [hempty]
  · exact Nat.le_of_eq hlength

/-- Bytes of the right number make a digest value. -/
theorem DigestValue.make_of_length {build : BuildOptions} {a : HashAlgorithm}
    {digest : List UInt8} (ha : a.Enabled build) (hlength : digest.length = a.size) :
    DigestValue.make build a digest = .value ⟨a, digest⟩ := by
  simp [DigestValue.make, validateDigestSize_of_enabled ha, hlength]

/-- The constructor establishes the invariant. -/
theorem DigestValue.wellFormed_of_make {build : BuildOptions} {a : HashAlgorithm}
    {digest : List UInt8} {d : DigestValue} (h : DigestValue.make build a digest = .value d) :
    d.WellFormed build := by
  obtain ⟨size, hsize, h⟩ := Result.bind_eq_value.mp h
  obtain ⟨henabled, rfl⟩ := enabled_of_digestSize (digestSize_of_validateDigestSize hsize)
  split at h
  · cases h
  next hlength =>
    cases h
    exact ⟨henabled, not_not.mp hlength⟩

/-- `pcr::selection`: an enabled algorithm and an ordered set of indices. -/
structure Selection (build : BuildOptions) where
  algorithm : HashAlgorithm
  indices : Finset Index
  enabled : algorithm.Enabled build
deriving DecidableEq

/-- `selection::selection(hash_algorithm, std::set<index>)`: it throws for an algorithm that the
build has not got. -/
def Selection.make (build : BuildOptions) (algorithm : HashAlgorithm)
    (indices : Finset Index) : Outcome (Selection build) :=
  match h : validateDigestSize build algorithm "unsupported PCR selection hash algorithm" with
  | .value _ =>
      .value ⟨algorithm, indices, (enabled_of_digestSize (digestSize_of_validateDigestSize h)).1⟩
  | .unexpected e => .unexpected e
  | .fault f => .fault f

/-- A selection of a bank of the build is made. -/
theorem Selection.make_of_enabled {build : BuildOptions} {a : HashAlgorithm}
    {indices : Finset Index} (ha : a.Enabled build) :
    Selection.make build a indices = .value ⟨a, indices, ha⟩ := by
  unfold Selection.make
  split
  · rfl
  all_goals simp_all [validateDigestSize_of_enabled ha]

/-- It keeps what it was made of. -/
theorem Selection.of_make_eq_value {build : BuildOptions} {a : HashAlgorithm}
    {indices : Finset Index} {selection : Selection build}
    (h : Selection.make build a indices = .value selection) :
    selection.algorithm = a ∧ selection.indices = indices := by
  unfold Selection.make at h
  split at h
  · cases h
    exact ⟨rfl, rfl⟩
  all_goals cases h

/-- `pcr::value`: a PCR and its digest. -/
structure Value where
  index : Index
  digest : DigestValue
deriving DecidableEq, Repr

/-- `pcr::read_result`: what the TPM says it has read, which can be less than was asked for. -/
structure ReadResult (build : BuildOptions) where
  actualSelection : Selection build
  updateCounter : UInt32
  values : List Value
deriving DecidableEq

/-- `pcr::event_result`: the digests that the TPM extended by. -/
structure EventResult where
  digests : List DigestValue
deriving DecidableEq, Repr

/-- `pcr::allocate_result`: whether the allocation takes effect at the next restart, and the
sizes that went into the decision. -/
structure AllocateResult where
  allocationSuccess : Bool
  maxPcr : UInt32
  sizeNeeded : UInt32
  sizeAvailable : UInt32
deriving DecidableEq, Repr

end Tpmkit.Pcr
