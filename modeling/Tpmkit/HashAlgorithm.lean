import Tpmkit.CheckedProgram

/-!
# Errors, exceptions and hash algorithms

The vocabulary shared by every later module: the error categories an
`outcome<T>` carries, the two exceptions the library throws, the build option
for legacy SHA-1 banks, and the hash algorithms with their digest sizes.

`hash_algorithm` is an `enum class` over `int`, so a caller can hold any
32-bit value.  The values that name no enumerator are kept as `unlisted`.
-/

namespace Tpmkit

open Checked

/-- `error_category`. -/
inductive ErrorCategory where
  | inputError
  | securityFailure
  | resourceError
  | backendError
deriving DecidableEq, Repr

/-- `error`: the category callers branch on and a diagnostic text. -/
structure Error where
  category : ErrorCategory
  message : String
deriving DecidableEq, Repr

/-- The exceptions of `tpmkit/exception.h`. -/
inductive TpmkitException where
  | tpmkitError (message : String)
  | inputValidationError (message : String)
deriving DecidableEq, Repr

/-- A pure call of the library: it returns, returns an `error`, or faults. -/
abbrev Outcome := Result Error TpmkitException

/-- `tl::unexpected(error{category, message})`. -/
def fail {α : Type} (category : ErrorCategory) (message : String) : Outcome α :=
  .unexpected ⟨category, message⟩

/-- `src/support/build_options.h`. -/
structure BuildOptions where
  legacySha1PcrEnabled : Bool
deriving DecidableEq, Repr

/-- `hash_algorithm`; the enumerators are the integers 0 to 3. -/
inductive HashAlgorithm where
  | sha1
  | sha256
  | sha384
  | sha512
  | unlisted (raw : {raw : BitVec 32 // 3 < raw.toNat})
deriving DecidableEq, Repr

/-- `hash_algorithm_name`. -/
def hashAlgorithmName : HashAlgorithm → String
  | .sha1 => "sha1"
  | .sha256 => "sha256"
  | .sha384 => "sha384"
  | .sha512 => "sha512"
  | .unlisted _ => "unknown"

/-- `digest_size`; it throws for a disabled or unlisted algorithm. -/
def digestSize (build : BuildOptions) : HashAlgorithm → Outcome Nat
  | .sha1 =>
      if build.legacySha1PcrEnabled then .value 20
      else .fault (.thrown (.tpmkitError
        "SHA-1 PCR support requires TPMKIT_ENABLE_LEGACY_SHA1_PCR"))
  | .sha256 => .value 32
  | .sha384 => .value 48
  | .sha512 => .value 64
  | .unlisted _ => .fault (.thrown (.tpmkitError "unsupported hash algorithm"))

namespace HashAlgorithm

/-- The digest length of an algorithm, whatever the build enables. -/
def size : HashAlgorithm → Nat
  | sha1 => 20
  | sha256 => 32
  | sha384 => 48
  | sha512 => 64
  | unlisted _ => 0

/-- The build accepts digests of this algorithm. -/
def Enabled (build : BuildOptions) : HashAlgorithm → Prop
  | sha1 => build.legacySha1PcrEnabled = true
  | unlisted _ => False
  | _ => True

instance (build : BuildOptions) (a : HashAlgorithm) : Decidable (a.Enabled build) := by
  cases a <;> unfold Enabled <;> infer_instance

/-- No digest is longer than 64 bytes. -/
theorem size_le (a : HashAlgorithm) : a.size ≤ 64 := by
  cases a <;> simp [size]

/-- The digests of an enabled algorithm have bytes. -/
theorem size_pos {build : BuildOptions} {a : HashAlgorithm} (h : a.Enabled build) : 0 < a.size := by
  cases a with
  | unlisted raw => cases h
  | _ => decide

end HashAlgorithm

variable {build : BuildOptions} {a : HashAlgorithm}

/-- The algorithms with a digest size are the enabled ones. -/
theorem digestSize_of_enabled (h : a.Enabled build) : digestSize build a = .value a.size := by
  cases a <;> simp_all [digestSize, HashAlgorithm.Enabled, HashAlgorithm.size]

/-- An algorithm that has a size is in the build. -/
theorem enabled_of_digestSize {n : Nat} (h : digestSize build a = .value n) :
    a.Enabled build ∧ n = a.size := by
  cases a with
  | sha1 =>
      by_cases hbuild : build.legacySha1PcrEnabled
      · simp [digestSize, hbuild] at h
        exact ⟨hbuild, h.symm⟩
      · simp [digestSize, hbuild] at h
  | unlisted raw => simp [digestSize] at h
  | _ => simp_all [digestSize, HashAlgorithm.Enabled, HashAlgorithm.size]

/-- Every algorithm without a digest size makes `digest_size` throw. -/
theorem digestSize_of_not_enabled (h : ¬a.Enabled build) :
    ∃ message, digestSize build a = .fault (.thrown (.tpmkitError message)) := by
  cases a with
  | sha1 => exact ⟨_, if_neg h⟩
  | unlisted raw => exact ⟨_, rfl⟩
  | _ => exact absurd trivial h

end Tpmkit
