import Tpmkit.ByteBitmap

/-!
# TSS wire structures

The structures and constants of the TSS headers that the adapter exchanges
with its backend, with the array lengths those headers fix: 16 selections and
tagged digests in a list, 4 select bytes, 8 digests, 64 digest bytes and 1024
event bytes.  `zeroed` is the value-initialised structure `T{}`.
-/

namespace Tpmkit

/-- Return codes, algorithm identifiers and object handles of the TSS. -/
abbrev TssRc : Type := UInt32
abbrev TpmiAlgHash : Type := UInt16
abbrev EsysTr : Type := UInt32

def tss2RcSuccess : TssRc := 0

def tpm2AlgError : TpmiAlgHash := 0x0000
def tpm2AlgSha1 : TpmiAlgHash := 0x0004
def tpm2AlgSha256 : TpmiAlgHash := 0x000b
def tpm2AlgSha384 : TpmiAlgHash := 0x000c
def tpm2AlgSha512 : TpmiAlgHash := 0x000d

def tpm2Sha1DigestSize : Nat := 20
def tpm2Sha256DigestSize : Nat := 32
def tpm2Sha384DigestSize : Nat := 48
def tpm2Sha512DigestSize : Nat := 64

def tpm2NumPcrBanks : Nat := 16
def tpm2PcrSelectMax : UInt8 := 4
def tpm2HrPcr : UInt32 := 0

def esysTrNone : EsysTr := 0xfff
def esysTrPassword : EsysTr := 0x0ff
def esysTrPcr0 : EsysTr := 0
def esysTrRhPlatform : EsysTr := 0x10c

/-- `TPMS_PCR_SELECTION`. -/
structure TpmsPcrSelection where
  hash : TpmiAlgHash
  sizeofSelect : UInt8
  pcrSelect : Vector UInt8 4
deriving DecidableEq, Repr

/-- A value-initialised entry of a selection. -/
def TpmsPcrSelection.zeroed : TpmsPcrSelection := ⟨0, 0, Vector.replicate 4 0⟩

/-- The PCRs a selection names: the set bits below `sizeofSelect` bytes. -/
def TpmsPcrSelection.selects (selection : TpmsPcrSelection) (pcr : Nat) : Prop :=
  pcr / 8 < selection.sizeofSelect.toNat ∧ ByteBitmap.bit selection.pcrSelect pcr = true

instance (selection : TpmsPcrSelection) (pcr : Nat) : Decidable (selection.selects pcr) :=
  inferInstanceAs (Decidable (_ ∧ _))

/-- `TPML_PCR_SELECTION`. -/
structure TpmlPcrSelection where
  count : UInt32
  pcrSelections : Vector TpmsPcrSelection 16
deriving DecidableEq, Repr

/-- A value-initialised list of selections. -/
def TpmlPcrSelection.zeroed : TpmlPcrSelection :=
  ⟨0, Vector.replicate 16 TpmsPcrSelection.zeroed⟩

/-- The entry of a list of one. -/
abbrev TpmlPcrSelection.first (t : TpmlPcrSelection) : TpmsPcrSelection := t.pcrSelections[0]

/-- A list of one entry. -/
def TpmlPcrSelection.single (entry : TpmsPcrSelection) : TpmlPcrSelection :=
  ⟨1, zeroed.pcrSelections.set 0 entry⟩

/-- The one entry of a list of one. -/
theorem TpmlPcrSelection.first_single (entry : TpmsPcrSelection) : (single entry).first = entry :=
  Vector.getElem_set_self ..

/-- `TPM2B_DIGEST`. -/
structure Tpm2bDigest where
  size : UInt16
  buffer : Vector UInt8 64
deriving DecidableEq, Repr

/-- A value-initialised digest. -/
def Tpm2bDigest.zeroed : Tpm2bDigest := ⟨0, Vector.replicate 64 0⟩

/-- `TPM2B_AUTH` is another name of `TPM2B_DIGEST`. -/
abbrev Tpm2bAuth : Type := Tpm2bDigest

/-- `TPML_DIGEST`. -/
structure TpmlDigest where
  count : UInt32
  digests : Vector Tpm2bDigest 8
deriving DecidableEq, Repr

/-- `TPMT_HA`.  The union `TPMU_HA` is its storage; the member of an algorithm
is the storage's first bytes, as many as that algorithm's digest has. -/
structure TpmtHa where
  hashAlg : TpmiAlgHash
  digest : Vector UInt8 64
deriving DecidableEq, Repr

/-- A value-initialised digest with its algorithm. -/
def TpmtHa.zeroed : TpmtHa := ⟨0, Vector.replicate 64 0⟩

/-- `TPML_DIGEST_VALUES`. -/
structure TpmlDigestValues where
  count : UInt32
  digests : Vector TpmtHa 16
deriving DecidableEq, Repr

/-- A value-initialised list of digests. -/
def TpmlDigestValues.zeroed : TpmlDigestValues := ⟨0, Vector.replicate 16 TpmtHa.zeroed⟩

/-- `TPM2B_EVENT`. -/
structure Tpm2bEvent where
  size : UInt16
  buffer : Vector UInt8 1024
deriving DecidableEq, Repr

/-- A value-initialised event. -/
def Tpm2bEvent.zeroed : Tpm2bEvent := ⟨0, Vector.replicate 1024 0⟩

end Tpmkit
