import Tpmkit.AlgorithmGate
import Tpmkit.MeasurementReplay

/-!
# Programs that scan the banks

What the programs of `examples/pcr` share, and three of them from the provider on.  They
ask for PCR 16 of every bank in turn, and take a bank for active when a digest comes back.
An error that a program prints before it ends is the error of the call here.

`pcr::selection` throws for SHA-1 in a build without it, and SHA-1 is asked for first: in
such a build no scan gets as far as a command (`bank_scans_iff`).  With SHA-1 built in, what
`multi_bank_extend_debug` and `event_all_banks` print is what the TPM makes of a reset and
one measurement.
-/

namespace Tpmkit.Examples

open Checked ByteStrings Pcr ExtendRegisters

variable {σ : Type} {build : BuildOptions}

/-! ## The programs -/

/-- `all_hash_algorithms`: the banks that a scan asks for, in this order. -/
def allHashAlgorithms : List HashAlgorithm := [.sha1, .sha256, .sha384, .sha512]

/-- `make_event_bytes`. -/
def makeEventBytes (text : ByteString) : List UInt8 :=
  text.foldl (fun bytes ch => bytes ++ [ch]) []

/-- The loop of `make_event_bytes` copies the characters, so what is measured is the text
itself. -/
theorem makeEventBytes_eq (text : ByteString) : makeEventBytes text = text := by
  have hfold : ∀ bytes, text.foldl (fun bytes ch => bytes ++ [ch]) bytes = bytes ++ text := by
    induction text with
    | nil => exact fun bytes => (List.append_nil bytes).symm
    | cons ch text ih =>
        intro bytes
        rw [List.foldl_cons, ih, List.append_assoc, List.singleton_append]
  exact hfold []

section Programs

variable (build) (provider : EsysPcrProvider σ)

/-- `read_pcr_digest`: one register of one bank is read; an answer without a value is an
error. -/
def readPcrDigest (algorithm : HashAlgorithm) (index : Index) : Adapter σ (List UInt8) := do
  let selection ← .lift (Selection.make build algorithm {index})
  let read ← provider.read build selection
  match read.values with
  | [] => .returnError ⟨.resourceError, "requested PCR bank did not return a value"⟩
  | value :: _ => return value.digest.digest

/-- One pass of the loop of `active_pcr_algorithms`: a bank counts as active when PCR 16 can be
read from it. -/
def scanBank (active : List HashAlgorithm) (algorithm : HashAlgorithm) :
    Adapter σ (List HashAlgorithm) := do
  let digest ← (readPcrDigest build provider algorithm Index.debug).attempt
  match digest with
  | .ok _ => return active ++ [algorithm]
  | .error _ => return active

/-- `active_pcr_algorithms`. -/
def activePcrAlgorithms : Adapter σ (List HashAlgorithm) :=
  allHashAlgorithms.foldlM (scanBank build provider) []

/-- One pass of the loop that reads the current values; here an error ends the program. -/
def readBank (current : List (HashAlgorithm × List UInt8)) (algorithm : HashAlgorithm) :
    Adapter σ (List (HashAlgorithm × List UInt8)) := do
  let digest ← readPcrDigest build provider algorithm Index.debug
  return current ++ [(algorithm, digest)]

/-- The current values of PCR 16 that a program prints. -/
def readCurrent (active : List HashAlgorithm) : Adapter σ (List (HashAlgorithm × List UInt8)) :=
  active.foldlM (readBank build provider) []

/-- `make_digest_bytes`. -/
def makeDigestBytes (algorithm : HashAlgorithm) (fill : UInt8) : Outcome (List UInt8) := do
  let size ← digestSize build algorithm
  return List.replicate size fill

/-- The digests that `multi_bank_extend_debug` makes, from the bank at `offset` on. -/
def makeDigests : List HashAlgorithm → Nat → Outcome (List DigestValue)
  | [], _ => return []
  | algorithm :: rest, offset => do
      let bytes ← makeDigestBytes build algorithm (UInt8.ofNat (0x10 + offset))
      let digest ← DigestValue.make build algorithm bytes
      let digests ← makeDigests rest (offset + 1)
      return digest :: digests

/-- What `multi_bank_extend_debug` prints: that there is no active bank, or the digests it
extended by and the values after that. -/
inductive MultiBankReport where
  | noActiveBanks
  | extended (digests : List DigestValue) (current : List (HashAlgorithm × List UInt8))
deriving DecidableEq, Repr

/-- `main` of `multi_bank_extend_debug`, once it has its provider. -/
def multiBankExtendDebug : Adapter σ MultiBankReport := do
  let active ← activePcrAlgorithms build provider
  if active.isEmpty then
    return .noActiveBanks
  else
    provider.reset Index.debug
    let digests ← .lift (makeDigests build active 0)
    provider.extend build Index.debug digests
    let current ← readCurrent build provider active
    return .extended digests current

/-- `main` of `event_all_banks`, once it has its provider. -/
def eventAllBanks (eventText : ByteString) :
    Adapter σ (EventResult × List (HashAlgorithm × List UInt8)) := do
  provider.reset Index.debug
  let event ← provider.event build Index.debug (makeEventBytes eventText)
  let active ← activePcrAlgorithms build provider
  let current ← readCurrent build provider active
  return (event, current)

/-- The banks that `allocate_banks` asks for: those that are active, and on demand SHA-384 if
it is none of them. -/
def requestedBanks (active : List HashAlgorithm) (addSha384 : Bool) : List HashAlgorithm :=
  if addSha384 && !active.contains .sha384 then active ++ [.sha384] else active

/-- The banks that `allocate_banks` constructs; the first one whose constructor fails ends the
program. -/
def makeBanks : List HashAlgorithm → Outcome (List (Bank build))
  | [] => return []
  | algorithm :: rest => do
      let bank ← Bank.make build algorithm
      let banks ← makeBanks rest
      return bank :: banks

/-- `main` of `allocate_banks`, once it has its provider; `none` when it found no bank. -/
def allocateBanks (addSha384 : Bool) :
    Adapter σ (Option (List HashAlgorithm × AllocateResult)) := do
  let active ← activePcrAlgorithms build provider
  if active.isEmpty then
    return none
  else
    let requested := requestedBanks active addSha384
    let banks ← .lift (makeBanks build requested)
    let allocation ← provider.allocate build banks
    return some (requested, allocation)

end Programs

/-! ## One bank -/

section Scans

variable {provider : EsysPcrProvider σ} {algorithm : HashAlgorithm} {w w' : World σ}

/-- The world was reached by reads alone, successful or not. -/
def ReadsOnly (build : BuildOptions) (provider : EsysPcrProvider σ) : World σ → World σ → Prop :=
  Relation.ReflTransGen fun w w' =>
    ∃ selection : Selection build, w' = (provider.perform (.read selection) w).2

/-- The exception of the constructor of a selection. -/
def unsupportedSelection : Fault TpmkitException :=
  .thrown (.inputValidationError "unsupported PCR selection hash algorithm")

/-- The constructor of a selection throws for an algorithm that is not in the build. The
programs catch nothing, which is what makes the scan fatal. -/
theorem makeSelection_of_not_enabled (h : ¬algorithm.Enabled build) (indices : Finset Index) :
    Selection.make build algorithm indices = .fault unsupportedSelection := by
  obtain ⟨message, hsize⟩ := digestSize_of_not_enabled h
  have hthrows : validateDigestSize build algorithm "unsupported PCR selection hash algorithm" =
      .fault unsupportedSelection := by
    rw [validateDigestSize, hsize]
    rfl
  unfold Selection.make
  split
  next hvalue =>
    rw [hthrows] at hvalue
    cases hvalue
  next herror =>
    rw [hthrows] at herror
    cases herror
  next hfault =>
    rw [hthrows] at hfault
    rw [Result.fault.inj hfault]

variable (provider) in
/-- So a read of such a bank ends the program before a command is sent. -/
theorem readPcrDigest_of_not_enabled (h : ¬algorithm.Enabled build) (index : Index) (w : World σ) :
    readPcrDigest build provider algorithm index w = (.fault unsupportedSelection, w) := by
  rw [readPcrDigest, makeSelection_of_not_enabled h]
  rfl

variable (provider) in
/-- The digest of a bank is read with one read, which returns it or leads to an error. -/
theorem readPcrDigest_cases (h : algorithm.Enabled build) (index : Index) (w : World σ) :
    let selection : Selection build := ⟨algorithm, {index}, h⟩
    let after := (provider.perform (.read selection) w).2
    (∃ digest result, readPcrDigest build provider algorithm index w = (.value digest, after) ∧
        (provider.read build selection w).1 = .value result ∧
        ∃ v ∈ result.values, v.digest.digest = digest) ∨
      ∃ e, readPcrDigest build provider algorithm index w = (.unexpected e, after) := by
  intro selection after
  have hstored : (ProviderOp.read selection).Stored := trivial
  have hnofault := (perform_gate provider hstored w).2.1
  have hafter : after = (provider.read build selection w).2 := by
    simp only [after, EsysPcrProvider.perform, Program.map_apply]
  rw [EsysPcrProvider.perform, Program.map_apply] at hnofault
  simp only [readPcrDigest, Selection.make_of_enabled h, Program.bind_apply, Program.lift_apply,
    Program.resume_value, hafter]
  rcases hread : provider.read build selection w with ⟨result, w'⟩
  rw [hread] at hnofault
  cases result with
  | value result =>
      rcases hvalues : result.values with _ | ⟨v, values⟩
      · exact Or.inr ⟨⟨.resourceError, "requested PCR bank did not return a value"⟩,
          by simp [hvalues]⟩
      · exact Or.inl ⟨v.digest.digest, result, by simp [hvalues], rfl, v, by simp [hvalues], rfl⟩
  | unexpected e => exact Or.inr ⟨e, by simp⟩
  | fault f => exact absurd rfl (hnofault f)

/-- One read more is a run of reads. -/
theorem ReadsOnly.read {selection : Selection build} (h : ReadsOnly build provider w w') :
    ReadsOnly build provider w (provider.perform (.read selection) w').2 :=
  h.tail ⟨selection, rfl⟩

/-- A provider that a digest was read from has its context.  So once a scan has found a bank,
the commands that follow pass that check. -/
theorem isSome_of_readPcrDigest {index : Index} {digest : List UInt8}
    (h : readPcrDigest build provider algorithm index w = (.value digest, w')) :
    provider.esys.isSome = true := by
  by_contra hesys
  by_cases henabled : algorithm.Enabled build
  · obtain ⟨e, hrun⟩ : (provider.read build ⟨algorithm, {index}, henabled⟩).Rejects w :=
      EsysPcrProvider.read_rejected w hesys
    simp [readPcrDigest, Selection.make_of_enabled henabled, hrun] at h
  · rw [readPcrDigest_of_not_enabled provider henabled] at h
    cases h

/-- Of a bank of the build a digest is read without an exception: what is missing or has another
size is an error. -/
theorem noFault_readPcrDigest (h : algorithm.Enabled build) (index : Index) (w : World σ) :
    (readPcrDigest build provider algorithm index w).1.NoFault := by
  rcases readPcrDigest_cases provider h index w with ⟨digest, _, hrun, _⟩ | ⟨e, hrun⟩
  · rw [hrun]
    exact Result.noFault_value digest
  · rw [hrun]
    exact Result.noFault_unexpected e

/-! ## Scans -/

/-- With SHA-1 built in, all four banks that a scan asks for are in the build. -/
theorem enabled_of_mem_allHashAlgorithms (hbuild : build.legacySha1PcrEnabled = true) :
    ∀ a ∈ allHashAlgorithms, a.Enabled build := by
  intro a ha
  simp only [allHashAlgorithms, List.mem_cons, List.not_mem_nil, or_false] at ha
  rcases ha with rfl | rfl | rfl | rfl
  · exact hbuild
  all_goals trivial

/-- What a scan found after it asked for some banks. -/
structure Scanned (build : BuildOptions) (provider : EsysPcrProvider σ) (w : World σ)
    (asked active : List HashAlgorithm) (w' : World σ) : Prop where
  sublist : active.Sublist asked
  readsOnly : ReadsOnly build provider w w'
  context : active ≠ [] → provider.esys.isSome = true

/-- The pass for one bank: it reads once, and keeps the bank if a digest came back. An error of
the read only leaves the bank out. -/
theorem Scanned.scanBank {asked active : List HashAlgorithm} (h : algorithm.Enabled build)
    (hscanned : Scanned build provider w asked active w') :
    ∃ active' w₁, Examples.scanBank build provider active algorithm w' = (.value active', w₁) ∧
      Scanned build provider w (asked ++ [algorithm]) active' w₁ := by
  let selection : Selection build := ⟨algorithm, {Index.debug}, h⟩
  let after := (provider.perform (.read selection) w').2
  rcases readPcrDigest_cases provider h Index.debug w' with
    ⟨digest, _, hrun, _⟩ | ⟨e, hrun⟩
  · refine ⟨active ++ [algorithm], after, ?_, ?_⟩
    · simp only [Examples.scanBank, Program.bind_apply, Program.attempt_of_value hrun,
        Program.resume_value]
      rfl
    · exact ⟨hscanned.sublist.append (.refl _), hscanned.readsOnly.read,
        fun _ => isSome_of_readPcrDigest hrun⟩
  · refine ⟨active, after, ?_, ?_⟩
    · simp only [Examples.scanBank, Program.bind_apply, Program.attempt_of_unexpected hrun,
        Program.resume_value]
      rfl
    · exact ⟨hscanned.sublist.trans (List.sublist_append_left asked [algorithm]),
        hscanned.readsOnly.read, hscanned.context⟩

variable (provider) in
/-- With SHA-1 built in, a scan always comes to its end: it is the four passes one after
another, none of which throws. -/
theorem activePcrAlgorithms_scanned (hbuild : build.legacySha1PcrEnabled = true) (w : World σ) :
    ∃ active w', activePcrAlgorithms build provider w = (.value active, w') ∧
      Scanned build provider w allHashAlgorithms active w' :=
  Program.foldlM_of_total (Scanned build provider w)
    (fun _ ha _ _ _ hscanned =>
      hscanned.scanBank (enabled_of_mem_allHashAlgorithms hbuild _ ha))
    ⟨.refl [], .refl, fun h => absurd rfl h⟩

variable (provider) in
/-- Without it, a scan throws at the first bank, which is SHA-1. -/
theorem activePcrAlgorithms_of_not_legacy (hbuild : build.legacySha1PcrEnabled = false)
    (w : World σ) :
    activePcrAlgorithms build provider w = (.fault unsupportedSelection, w) := by
  have hsha1 : ¬HashAlgorithm.sha1.Enabled build := by
    rw [HashAlgorithm.Enabled, hbuild]
    exact Bool.false_ne_true
  have hfirst := readPcrDigest_of_not_enabled provider hsha1 Index.debug w
  simp [activePcrAlgorithms, allHashAlgorithms, Examples.scanBank, Program.attempt, hfirst]

/-- A scan that found banks was made in a build with SHA-1. -/
theorem legacy_of_activePcrAlgorithms {active : List HashAlgorithm}
    (h : activePcrAlgorithms build provider w = (.value active, w')) :
    build.legacySha1PcrEnabled = true ∧
      Scanned build provider w allHashAlgorithms active w' := by
  cases hbuild : build.legacySha1PcrEnabled with
  | false =>
      rw [activePcrAlgorithms_of_not_legacy provider hbuild] at h
      cases h
  | true =>
      obtain ⟨active', w₁, hrun, hscanned⟩ :=
        activePcrAlgorithms_scanned provider hbuild w
      rw [h] at hrun
      cases hrun
      exact ⟨rfl, hscanned⟩

/-! ## What the programs make of a scan -/

/-- For banks of the build the loop makes one digest each, of the size of its bank, in the order
of the banks. -/
theorem makeDigests_of_enabled {active : List HashAlgorithm} (h : ∀ a ∈ active, a.Enabled build)
    (offset : Nat) :
    ∃ digests, makeDigests build active offset = .value digests ∧
      digests.map DigestValue.algorithm = active ∧ ∀ d ∈ digests, d.WellFormed build := by
  induction active generalizing offset with
  | nil => exact ⟨[], rfl, rfl, fun d hd => nomatch hd⟩
  | cons a rest ih =>
      obtain ⟨digests, hrun, halgorithms, hwell⟩ :=
        ih (fun a' ha' => h a' (List.mem_cons_of_mem a ha')) (offset + 1)
      have ha := h a List.mem_cons_self
      have hlength : (List.replicate a.size (UInt8.ofNat (0x10 + offset))).length = a.size :=
        List.length_replicate
      refine ⟨⟨a, List.replicate a.size (UInt8.ofNat (0x10 + offset))⟩ :: digests, ?_,
        by rw [List.map_cons, halgorithms], ?_⟩
      · simp only [makeDigests, makeDigestBytes, digestSize_of_enabled ha, Result.value_bind,
          Result.pure_eq, DigestValue.make_of_length ha hlength, hrun]
      · intro d hd
        rcases List.mem_cons.mp hd with rfl | hd
        · exact ⟨ha, hlength⟩
        · exact hwell d hd

/-- An algorithm of the build makes a bank. -/
theorem makeBank_of_enabled (h : algorithm.Enabled build) :
    ∃ bank, Bank.make build algorithm = .value bank ∧ bank.algorithm = algorithm := by
  have hsize : validateDigestSize build algorithm "unsupported PCR bank hash algorithm" =
      .value algorithm.size := validateDigestSize_of_enabled h
  unfold Bank.make
  split
  next n hvalue => exact ⟨_, rfl, rfl⟩
  next e herror =>
    rw [hsize] at herror
    cases herror
  next f hfault =>
    rw [hsize] at hfault
    cases hfault

/-- So do several, in their order. -/
theorem makeBanks_of_enabled {requested : List HashAlgorithm}
    (h : ∀ a ∈ requested, a.Enabled build) :
    ∃ banks, makeBanks build requested = .value banks ∧
      banks.map Bank.algorithm = requested := by
  induction requested with
  | nil => exact ⟨[], rfl, rfl⟩
  | cons a rest ih =>
      obtain ⟨banks, hrun, halgorithms⟩ := ih fun a' ha' => h a' (List.mem_cons_of_mem a ha')
      obtain ⟨bank, hbank, halgorithm⟩ := makeBank_of_enabled (h a List.mem_cons_self)
      refine ⟨bank :: banks, ?_, by rw [List.map_cons, halgorithm, halgorithms]⟩
      simp [makeBanks, hbank, hrun]

/-- The banks asked for are distinct, and each of them is one of the four, so that an
allocation of them passes its checks. -/
theorem requestedBanks_spec {active : List HashAlgorithm} (h : active.Sublist allHashAlgorithms)
    (addSha384 : Bool) :
    (requestedBanks active addSha384).Nodup ∧
      ∀ a ∈ requestedBanks active addSha384, a ∈ allHashAlgorithms := by
  have hnodup : active.Nodup := h.nodup (by decide)
  unfold requestedBanks
  split
  next hadd =>
    have habsent : HashAlgorithm.sha384 ∉ active := by simpa using (Bool.and_eq_true_iff.mp hadd).2
    refine ⟨List.nodup_append.mpr ⟨hnodup, by simp, ?_⟩, fun a ha => ?_⟩
    · intro a ha a' ha' heq
      obtain rfl := List.mem_singleton.mp ha'
      exact habsent (heq ▸ ha)
    · rcases List.mem_append.mp ha with ha | ha
      · exact h.subset ha
      · obtain rfl := List.mem_singleton.mp ha
        decide
  next => exact ⟨hnodup, fun a ha => h.subset ha⟩

/-- The loop that reads the current values throws nothing, and the first read that fails ends it
with an error. -/
theorem noFault_readCurrent {active : List HashAlgorithm} (h : ∀ a ∈ active, a.Enabled build)
    (w : World σ) : (readCurrent build provider active w).1.NoFault := by
  refine Program.foldlM_noFault (fun a ha current w₁ => ?_) [] w
  refine Program.noFault_bind (noFault_readPcrDigest (h a ha) Index.debug w₁) fun digest w₂ _ => ?_
  exact Result.noFault_value (current ++ [(a, digest)])

/-- No call of the provider throws, as long as its digests can be stored: each of its functions
is `perform` on its operation, up to the wrapping of the value. -/
theorem noFault_call {α : Type} {program : Adapter σ α} {op : ProviderOp build}
    {value : α → ProviderValue build} (hop : provider.perform op = value <$> program)
    (hstored : op.Stored) (w : World σ) : (program w).1.NoFault := by
  have hperform := (perform_gate provider hstored w).2.1
  rw [hop] at hperform
  exact Program.noFault_of_map hperform

/-- A reset does not throw. -/
theorem noFault_reset (index : Index) (w : World σ) : (provider.reset index w).1.NoFault := by
  have hop : provider.perform (.reset index : ProviderOp ⟨true⟩) =
      (fun _ => .completed) <$> provider.reset index := rfl
  exact noFault_call hop trivial w

/-- With SHA-1 built in, `multi_bank_extend_debug` throws nothing. -/
theorem noFault_multiBankExtendDebug (hbuild : build.legacySha1PcrEnabled = true) (w : World σ) :
    (multiBankExtendDebug build provider w).1.NoFault := by
  obtain ⟨active, w₁, hscan, hscanned⟩ :=
    activePcrAlgorithms_scanned provider hbuild w
  have henabled : ∀ a ∈ active, a.Enabled build := fun a ha =>
    enabled_of_mem_allHashAlgorithms hbuild a (hscanned.sublist.subset ha)
  obtain ⟨digests, hdigests, _, hwell⟩ := makeDigests_of_enabled henabled 0
  simp only [multiBankExtendDebug, Program.bind_apply, hscan, Program.resume_value]
  split
  · exact Result.noFault_value _
  · refine Program.noFault_bind (noFault_reset Index.debug w₁) fun _ w₂ _ => ?_
    rw [hdigests]
    change ((provider.extend build Index.debug digests >>= fun _ => _) w₂).1.NoFault
    have hstored : (ProviderOp.extend Index.debug digests : ProviderOp build).Stored :=
      fun d hd => (hwell d hd).stored
    refine Program.noFault_bind (noFault_call rfl hstored w₂) fun _ w₃ _ => ?_
    refine Program.noFault_bind (noFault_readCurrent henabled w₃) fun current w₄ _ => ?_
    exact Result.noFault_value _

/-- Nor does `event_all_banks`. -/
theorem noFault_eventAllBanks (hbuild : build.legacySha1PcrEnabled = true) (eventText : ByteString)
    (w : World σ) : (eventAllBanks build provider eventText w).1.NoFault := by
  refine Program.noFault_bind (noFault_reset Index.debug w) fun _ w₁ _ => ?_
  have hstored : (ProviderOp.event Index.debug (makeEventBytes eventText) :
      ProviderOp build).Stored := trivial
  refine Program.noFault_bind (noFault_call rfl hstored w₁) fun event w₂ _ => ?_
  obtain ⟨active, w₃, hscan, hscanned⟩ :=
    activePcrAlgorithms_scanned provider hbuild w₂
  have henabled : ∀ a ∈ active, a.Enabled build := fun a ha =>
    enabled_of_mem_allHashAlgorithms hbuild a (hscanned.sublist.subset ha)
  simp only [Program.bind_apply, hscan, Program.resume_value]
  refine Program.noFault_bind (noFault_readCurrent henabled w₃) fun current w₄ _ => ?_
  exact Result.noFault_value _

/-- The command `Esys_PCR_Allocate` for some banks, under the authorization of the platform. -/
def allocationRequest (provider : EsysPcrProvider σ) (banks : List (Bank build)) : EsysRequest :=
  .pcrAllocate provider.esys esysTrRhPlatform esysTrPassword esysTrNone esysTrNone
    (encodedAllocation build banks)

variable (provider) in
/-- How `allocate_banks` goes on after its scan: it found no bank and gives up, or it sends one
request and returns what the answer comes to. -/
theorem allocateBanks_cases (hbuild : build.legacySha1PcrEnabled = true) (addSha384 : Bool)
    (w : World σ) :
    ∃ active w₁, activePcrAlgorithms build provider w = (.value active, w₁) ∧
      ReadsOnly build provider w w₁ ∧
      ((active = [] ∧ allocateBanks build provider addSha384 w = (.value none, w₁)) ∨
        (active ≠ [] ∧ ∃ (banks : List (Bank build)) (answer : AllocateAnswer)
          (events : List Event) (b : σ),
          banks.map Bank.algorithm = requestedBanks active addSha384 ∧
          requests events = [(allocationRequest provider banks, answer.rc)] ∧
          allocateBanks build provider addSha384 w =
            ((fun allocation => some (requestedBanks active addSha384, allocation)) <$>
              EsysPcrProvider.allocateResult answer, w₁.after b events))) := by
  obtain ⟨active, w₁, hscan, hscanned⟩ :=
    activePcrAlgorithms_scanned provider hbuild w
  obtain ⟨hnodup, hmem⟩ := requestedBanks_spec hscanned.sublist addSha384
  have henabled : ∀ a ∈ requestedBanks active addSha384, a.Enabled build := fun a ha =>
    enabled_of_mem_allHashAlgorithms hbuild a (hmem a ha)
  obtain ⟨banks, hbanks, halgorithms⟩ := makeBanks_of_enabled henabled
  refine ⟨active, w₁, hscan, hscanned.readsOnly, ?_⟩
  simp only [allocateBanks, Program.bind_apply, hscan, Program.resume_value]
  cases active with
  | nil => exact Or.inl ⟨rfl, rfl⟩
  | cons a rest =>
      have hvalid : banks ≠ [] ∧ (banks.map Bank.algorithm).Nodup := by
        refine ⟨fun hnil => ?_, halgorithms ▸ hnodup⟩
        rw [hnil] at halgorithms
        unfold requestedBanks at halgorithms
        split at halgorithms <;> simp at halgorithms
      rcases hanswer : provider.api.pcrAllocate provider.esys esysTrRhPlatform esysTrPassword
        esysTrNone esysTrNone (encodedAllocation build banks) w₁.backend with ⟨answer, b⟩
      obtain ⟨events, hrun, hrequests⟩ : ∃ events, provider.allocate build banks w₁ =
          (EsysPcrProvider.allocateResult answer, w₁.after b events) ∧
            requests events = [(allocationRequest provider banks, answer.rc)] := by
        refine ⟨_, EsysPcrProvider.allocate_run w₁ (hscanned.context (List.cons_ne_nil a rest))
          hvalid hanswer, ?_⟩
        rw [requests_esys, provider.requests_statusEvents _ _ _ (requests_logger_events _ _)]
        rfl
      refine Or.inr ⟨List.cons_ne_nil a rest, banks, answer, events, b, halgorithms, hrequests, ?_⟩
      simp only [List.isEmpty_cons, Bool.false_eq_true, if_false, hbanks, Program.bind_apply,
        Program.lift_apply, Program.resume_value, hrun]
      cases EsysPcrProvider.allocateResult answer <;> rfl

/-- **SHA-1 decides about the scans.**  In a build without it, every program that scans the
banks ends with an exception: two of them before they sent a command, and
`event_all_banks` at the latest when it has measured its event.  In a build with it none of
them throws, and a scan sends nothing but reads.  `allocate_banks` gives up when the scan
found no bank; else it sends one allocation of the banks found, and of SHA-384 on demand,
and an error that it ends with is that of this command, refused. -/
theorem bank_scans_iff (provider : EsysPcrProvider σ) (addSha384 : Bool) (eventText : ByteString)
    (w : World σ) :
    (build.legacySha1PcrEnabled = false →
      activePcrAlgorithms build provider w = (.fault unsupportedSelection, w) ∧
      multiBankExtendDebug build provider w = (.fault unsupportedSelection, w) ∧
      allocateBanks build provider addSha384 w = (.fault unsupportedSelection, w) ∧
      ¬(eventAllBanks build provider eventText w).1.Succeeds) ∧
    (build.legacySha1PcrEnabled = true →
      (∃ active w₁, activePcrAlgorithms build provider w = (.value active, w₁) ∧
        active.Sublist allHashAlgorithms ∧ ReadsOnly build provider w w₁ ∧
        (active = [] → allocateBanks build provider addSha384 w = (.value none, w₁)) ∧
        (active ≠ [] → ∃ (banks : List (Bank build)) (answer : AllocateAnswer) (w₂ : World σ),
          banks.map Bank.algorithm = requestedBanks active addSha384 ∧
          requests (w₁.eventsSince w₂) = [(allocationRequest provider banks, answer.rc)] ∧
          allocateBanks build provider addSha384 w =
            ((fun allocation => some (requestedBanks active addSha384, allocation)) <$>
              EsysPcrProvider.allocateResult answer, w₂))) ∧
      (multiBankExtendDebug build provider w).1.NoFault ∧
      (eventAllBanks build provider eventText w).1.NoFault ∧
      (allocateBanks build provider addSha384 w).1.NoFault ∧
      ∀ e w₂, allocateBanks build provider addSha384 w = (.unexpected e, w₂) →
        ∃ (w₁ : World σ) (banks : List (Bank build)) (rc : TssRc),
          ReadsOnly build provider w w₁ ∧
          requests (w₁.eventsSince w₂) = [(allocationRequest provider banks, rc)] ∧
          rc ≠ tss2RcSuccess ∧ e = translatedError rc) := by
  refine ⟨fun hbuild => ?_, fun hbuild => ?_⟩
  · have hscan := activePcrAlgorithms_of_not_legacy provider hbuild
    refine ⟨hscan w, by simp [multiBankExtendDebug, hscan], by simp [allocateBanks, hscan], ?_⟩
    intro hvalue
    obtain ⟨value, hvalue⟩ := hvalue
    have hrun := Program.eq_of_fst_eq hvalue
    obtain ⟨_, w₁, _, hrun⟩ := Program.bind_eq_value.mp hrun
    obtain ⟨_, w₂, _, hrun⟩ := Program.bind_eq_value.mp hrun
    obtain ⟨active, w₃, hactive, _⟩ := Program.bind_eq_value.mp hrun
    rw [hscan] at hactive
    cases hactive
  · obtain ⟨active, w₁, hscan, hreads, hcases⟩ := allocateBanks_cases provider hbuild addSha384 w
    have hscanned := (legacy_of_activePcrAlgorithms hscan).2
    refine ⟨⟨active, w₁, hscan, hscanned.sublist, hreads, fun hnil => ?_, fun hne => ?_⟩,
      noFault_multiBankExtendDebug hbuild w, noFault_eventAllBanks hbuild eventText w, ?_, ?_⟩
    · exact (hcases.resolve_right fun hfound => hfound.1 hnil).2
    · obtain ⟨_, banks, answer, events, b, halgorithms, hrequests, hrun⟩ :=
        hcases.resolve_left fun hnone => hne hnone.1
      exact ⟨banks, answer, w₁.after b events, halgorithms,
        by rw [World.eventsSince_after, hrequests], hrun⟩
    · rcases hcases with ⟨_, hnone⟩ | ⟨_, banks, answer, events, b, _, _, hrun⟩
      · rw [hnone]
        exact Result.noFault_value none
      · rw [hrun]
        exact (EsysPcrProvider.noFault_allocateResult answer).map _
    · intro e w₃ herror
      rcases hcases with ⟨_, hnone⟩ | ⟨_, banks, answer, events, b, _, hrequests, hrun⟩
      · rw [hnone] at herror
        cases herror
      · obtain ⟨hresult, rfl⟩ := Prod.mk.inj (hrun.symm.trans herror)
        refine ⟨w₁, banks, answer.rc, hreads, by rw [World.eventsSince_after, hrequests], ?_⟩
        by_cases hrc : answer.rc = tss2RcSuccess
        · simp [EsysPcrProvider.allocateResult, hrc] at hresult
        · simp only [EsysPcrProvider.allocateResult, hrc, ne_eq, not_false_eq_true, if_true,
            Result.map_unexpected, Result.unexpected.injEq] at hresult
          exact ⟨hrc, hresult.symm⟩

/-! ## On a TPM that measures -/

variable (tpm : MeasuringTpm provider.api)

/-- Reads leave the registers alone. -/
theorem registers_of_readsOnly (h : ReadsOnly build provider w w') :
    tpm.registers w'.backend = tpm.registers w.backend := by
  induction h with
  | refl => rfl
  | tail _ hread ih =>
      obtain ⟨selection, rfl⟩ := hread
      refine Eq.trans ?_ ih
      apply tpm.follows_quiet (.read selection)
      intro prepared hprepare c hc
      exact (of_prepare_eq_value hprepare c hc).2

/-- A digest that was read is what the register holds; the read changed nothing. -/
theorem readPcrDigest_register {index : Index} {digest : List UInt8}
    (h : readPcrDigest build provider algorithm index w = (.value digest, w')) :
    ReadsOnly build provider w w' ∧
      (tpm.active algorithm → digest = (tpm.registers w.backend).digest algorithm index) := by
  by_cases henabled : algorithm.Enabled build
  swap
  · rw [readPcrDigest_of_not_enabled provider henabled] at h
    cases h
  rcases readPcrDigest_cases provider henabled index w with
    ⟨digest', result, hrun, hread, v, hv, hdigest⟩ | ⟨e, hrun⟩
  swap
  · rw [hrun] at h
    cases h
  rw [hrun] at h
  obtain ⟨hvalue, rfl⟩ := Prod.mk.inj h
  obtain rfl := Result.value.inj hvalue
  refine ⟨ReadsOnly.read .refl, fun hactive => ?_⟩
  have hbank : tpm.active (⟨algorithm, {index}, henabled⟩ : Selection build).algorithm := hactive
  obtain ⟨hindex, hregister⟩ := tpm.read_returns_registers hbank hread v hv
  obtain rfl := Finset.mem_singleton.mp hindex
  rw [← hdigest, hregister]

/-- What a program read, bank by bank: it changed nothing, and has a value for each bank that
it asked for. -/
structure CurrentRead (build : BuildOptions) {provider : EsysPcrProvider σ}
    (tpm : MeasuringTpm provider.api) (w : World σ) (asked : List HashAlgorithm)
    (current : List (HashAlgorithm × List UInt8)) (w' : World σ) : Prop where
  asked_eq : current.map Prod.fst = asked
  readsOnly : ReadsOnly build provider w w'
  register : ∀ entry ∈ current, tpm.active entry.1 →
    entry.2 = (tpm.registers w.backend).digest entry.1 Index.debug

/-- The current values are what the registers hold; the invariant of the loop says so of the
banks that were read so far. -/
theorem readCurrent_registers {active : List HashAlgorithm}
    {current : List (HashAlgorithm × List UInt8)}
    (h : readCurrent build provider active w = (.value current, w')) :
    CurrentRead build tpm w active current w' := by
  refine Program.foldlM_invariant (CurrentRead build tpm w) ?_
    ⟨rfl, .refl, by simp⟩ h
  intro past a current w₁ current' w₂ hread hpass
  obtain ⟨digest, w₃, hdigest, hpass⟩ := Program.bind_eq_value.mp hpass
  obtain ⟨hvalue, rfl⟩ := Prod.mk.inj hpass
  obtain rfl := Result.value.inj hvalue
  obtain ⟨hreads, hregister⟩ := readPcrDigest_register tpm hdigest
  refine ⟨by rw [List.map_append, hread.asked_eq]; rfl, hread.readsOnly.trans hreads, ?_⟩
  intro entry hentry hactive
  rcases List.mem_append.mp hentry with hentry | hentry
  · exact hread.register entry hentry hactive
  · obtain rfl := List.mem_singleton.mp hentry
    rw [hregister hactive, registers_of_readsOnly tpm hread.readsOnly]

/-- An operation that returned a value was refused nothing, so the results on runs apply to it
without a condition on return codes. -/
theorem refusedByTpm_of_value {op : ProviderOp build} {value : ProviderValue build}
    (h : (provider.perform op w).1 = .value value) :
    RefusedByTpm (w.eventsSince (provider.perform op w).2) := by
  rcases provider.perform_cases op with ⟨prepared, _, hperform⟩ | ⟨hstops, hperform⟩
  · rw [hperform] at h ⊢
    obtain ⟨x, hx⟩ : ∃ x, provider.api.exchange prepared.1 prepared.2 w.backend = x := ⟨_, rfl⟩
    have hlast : x.last.2.rc = tss2RcSuccess := by
      by_contra hrc
      have hconclude : EsysPcrProvider.conclude op x.last.2 = .value value := hx ▸ h
      rw [EsysPcrProvider.conclude_of_ne_success op hrc] at hconclude
      cases hconclude
    simp only [EsysPcrProvider.carryOut, World.eventsSince_after, hx]
    intro answered hanswered
    rw [requests_append, requests_append, requests_announce, requests_freeEvents_response,
      List.append_nil, List.append_nil, requests_calls] at hanswered
    obtain ⟨call, hcall, rfl⟩ := List.mem_map.mp hanswered
    left
    rcases List.mem_append.mp hcall with hcall | hcall
    · exact EsysApi.rc_of_mem_earlier call (hx ▸ hcall)
    · obtain rfl := List.mem_singleton.mp hcall
      exact hlast
  · rw [hperform] at h
    exact absurd h (EsysPcrProvider.stopped_ne_value hstops value)

/-- A register that was reset holds its first value. -/
theorem register_of_reset {index : Index} (h : provider.reset index w = (.value (), w'))
    (hactive : tpm.active algorithm) :
    (tpm.registers w'.backend).digest algorithm index = tpm.initial algorithm index := by
  have hperform : provider.perform (.reset index : ProviderOp ⟨true⟩) w = (.value .completed, w') :=
    Program.map_of_value _ h
  have hfollows := tpm.follows_reset index w hactive
    (refusedByTpm_of_value (congrArg Prod.fst hperform))
  rw [hperform] at hfollows
  refine (congrFun hfollows index).trans ?_
  simp [actionsOf, Rule.run, Rule.act, pcrRule]

/-- A register that was extended holds the digests of its bank, folded onto what it held. -/
theorem register_of_extend {index : Index} {digests : List DigestValue}
    (h : provider.extend build index digests w = (.value (), w'))
    (hwell : ∀ d ∈ digests, d.WellFormed build) (hactive : tpm.active algorithm)
    (henabled : algorithm.Enabled build) :
    (tpm.registers w'.backend).digest algorithm index =
      tpm.rule.chain algorithm (digestsOf algorithm (digests.map DigestValue.entry))
        ((tpm.registers w.backend).digest algorithm index) := by
  have hperform : provider.perform (.extend index digests : ProviderOp build) w =
      (.value .completed, w') := Program.map_of_value _ h
  have hfollows := tpm.follows_extend index w hwell hactive henabled
    (refusedByTpm_of_value (congrArg Prod.fst hperform))
  rw [hperform] at hfollows
  refine (congrFun hfollows index).trans ?_
  simp [actionsOf, Rule.run, Rule.act]

/-- A register that an event was measured into holds the hash of what it held and the hash of
the data.  The result was returned, so nothing has to be known of the other banks. -/
theorem register_of_event {index : Index} {eventData : List UInt8} {result : EventResult}
    (h : provider.event build index eventData w = (.value result, w'))
    (hactive : tpm.active algorithm) (henabled : algorithm.Enabled build) :
    (tpm.registers w'.backend).digest algorithm index =
      tpm.hash algorithm ((tpm.registers w.backend).digest algorithm index ++
        tpm.hash algorithm eventData) := by
  have hvalue := congrArg Prod.fst h
  have hfollows := tpm.follows_measured hvalue hactive henabled
  have hdigests := tpm.event_digests hactive henabled hvalue
  rw [h] at hfollows
  refine (congrFun hfollows index).trans ?_
  simp [Rule.run, Rule.act, hdigests, Rule.chain, pcrRule]

/-- Distinct banks bring a register one digest each: of the list a bank takes its own alone. -/
theorem digestsOf_of_mem {digests : List DigestValue}
    (hnodup : (digests.map DigestValue.algorithm).Nodup) {d : DigestValue} (hd : d ∈ digests) :
    digestsOf d.algorithm (digests.map DigestValue.entry) = [d.digest] := by
  induction digests with
  | nil => cases hd
  | cons first rest ih =>
      obtain ⟨hfirst, hrest⟩ := List.nodup_cons.mp hnodup
      rcases List.mem_cons.mp hd with rfl | hd
      · have hnone : digestsOf d.algorithm (rest.map DigestValue.entry) = [] := by
          refine List.map_eq_nil_iff.mpr (List.filter_eq_nil_iff.mpr fun entry hentry => ?_)
          obtain ⟨d', hd', rfl⟩ := List.mem_map.mp hentry
          rw [decide_eq_true_iff]
          exact fun heq => hfirst (List.mem_map.mpr ⟨d', hd', heq⟩)
        rw [List.map_cons, ← List.singleton_append, digestsOf_append, hnone]
        simp [digestsOf, DigestValue.entry]
      · have hne : first.algorithm ≠ d.algorithm := fun heq =>
          hfirst (heq ▸ List.mem_map_of_mem hd)
        rw [List.map_cons, ← List.singleton_append, digestsOf_append, ih hrest hd]
        simp [digestsOf, DigestValue.entry, hne]

/-- **What `multi_bank_extend_debug` prints.**  On a TPM that measures, a program that comes
to its end prints one digest and one value for each bank that its scan found, and of a bank
that is active the value is what the TPM makes of the digest: the hash of the reset value
followed by it. -/
theorem extended_banks_printed {digests : List DigestValue}
    {current : List (HashAlgorithm × List UInt8)}
    (h : multiBankExtendDebug build provider w = (.value (.extended digests current), w')) :
    (∃ w₁, activePcrAlgorithms build provider w = (.value (current.map Prod.fst), w₁)) ∧
      digests.map DigestValue.algorithm = current.map Prod.fst ∧
      (current.map Prod.fst).Sublist allHashAlgorithms ∧
      ∀ d ∈ digests, ∀ value, (d.algorithm, value) ∈ current → tpm.active d.algorithm →
        value = tpm.hash d.algorithm (tpm.initial d.algorithm Index.debug ++ d.digest) := by
  obtain ⟨active, w₁, hscan, h⟩ := Program.bind_eq_value.mp h
  obtain ⟨hbuild, hscanned⟩ := legacy_of_activePcrAlgorithms hscan
  split at h
  · cases h
  obtain ⟨_, w₂, hreset, h⟩ := Program.bind_eq_value.mp h
  obtain ⟨made, w₃, hmade, h⟩ := Program.bind_eq_value.mp h
  obtain ⟨_, w₄, hextend, h⟩ := Program.bind_eq_value.mp h
  obtain ⟨read, w₅, hread, h⟩ := Program.bind_eq_value.mp h
  cases h
  have henabled : ∀ a ∈ active, a.Enabled build := fun a ha =>
    enabled_of_mem_allHashAlgorithms hbuild a (hscanned.sublist.subset ha)
  obtain ⟨digests', hdigests, halgorithms, hwell⟩ := makeDigests_of_enabled henabled 0
  rw [hdigests] at hmade
  cases hmade
  have hcurrent := readCurrent_registers tpm hread
  refine ⟨⟨w₁, hcurrent.asked_eq ▸ hscan⟩, halgorithms.trans hcurrent.asked_eq.symm,
    hcurrent.asked_eq ▸ hscanned.sublist, ?_⟩
  intro d hd value hvalue hactive
  have hnodup : (digests.map DigestValue.algorithm).Nodup :=
    halgorithms ▸ hscanned.sublist.nodup (by decide)
  calc value = (tpm.registers w₄.backend).digest d.algorithm Index.debug :=
        hcurrent.register _ hvalue hactive
    _ = tpm.rule.chain d.algorithm (digestsOf d.algorithm (digests.map DigestValue.entry))
          ((tpm.registers w₂.backend).digest d.algorithm Index.debug) :=
        register_of_extend tpm hextend hwell hactive (hwell d hd).enabled
    _ = tpm.hash d.algorithm (tpm.initial d.algorithm Index.debug ++ d.digest) := by
        rw [digestsOf_of_mem hnodup hd, register_of_reset tpm hreset hactive]
        rfl

/-- The digests that the program makes for a TPM with two banks. -/
def twoBankDigests : List DigestValue :=
  [⟨.sha1, List.replicate 20 0x10⟩, ⟨.sha256, List.replicate 32 0x11⟩]

/-- A run on a TPM with both banks active: one value for each, and each the fold of its digest. -/
theorem extended_banks_printed_two_banks :
    ∃ current w', multiBankExtendDebug ⟨true⟩ twoBankProvider twoBankWorld =
        (.value (.extended twoBankDigests current), w') ∧
      current.map Prod.fst = [.sha1, .sha256] ∧
      ∀ d ∈ twoBankDigests, ∀ value, (d.algorithm, value) ∈ current →
        twoBankTpm.active d.algorithm →
          value = foldedHash d.algorithm (zeroRegister d.algorithm Index.debug ++ d.digest) := by
  have hresult : (multiBankExtendDebug ⟨true⟩ twoBankProvider twoBankWorld).1 =
      .value (.extended twoBankDigests [(.sha1, 135 :: List.replicate 19 0),
        (.sha256, 7 :: List.replicate 31 0)]) := by
    decide +kernel
  have hrun := Program.eq_of_fst_eq hresult
  exact ⟨_, _, hrun, rfl, (extended_banks_printed twoBankTpm hrun).2.2.2⟩

/-- **What `event_all_banks` prints.**  On a TPM that measures, a program that comes to its
end prints a current value for each bank that its scan found, after the reset and the event;
and of a bank that is active the digest is the hash of the event text, and the current value
the hash of the reset value followed by it. -/
theorem event_banks_printed {eventText : ByteString} {event : EventResult}
    {current : List (HashAlgorithm × List UInt8)}
    (h : eventAllBanks build provider eventText w = (.value (event, current), w')) :
    (∃ w₁ w₂ w₃, provider.reset Index.debug w = (.value (), w₁) ∧
      provider.event build Index.debug (makeEventBytes eventText) w₁ = (.value event, w₂) ∧
      activePcrAlgorithms build provider w₂ = (.value (current.map Prod.fst), w₃)) ∧
    (current.map Prod.fst).Sublist allHashAlgorithms ∧
      ∀ a value, (a, value) ∈ current → tpm.active a →
        digestsOf a (event.digests.map DigestValue.entry) = [tpm.hash a eventText] ∧
        value = tpm.hash a (tpm.initial a Index.debug ++ tpm.hash a eventText) := by
  obtain ⟨_, w₁, hreset, h⟩ := Program.bind_eq_value.mp h
  obtain ⟨measured, w₂, hevent, h⟩ := Program.bind_eq_value.mp h
  obtain ⟨active, w₃, hscan, h⟩ := Program.bind_eq_value.mp h
  obtain ⟨read, w₄, hread, h⟩ := Program.bind_eq_value.mp h
  cases h
  obtain ⟨hbuild, hscanned⟩ := legacy_of_activePcrAlgorithms hscan
  have hcurrent := readCurrent_registers tpm hread
  have hsublist : (current.map Prod.fst).Sublist allHashAlgorithms :=
    hcurrent.asked_eq ▸ hscanned.sublist
  refine ⟨⟨w₁, w₂, w₃, hreset, hevent, hcurrent.asked_eq ▸ hscan⟩, hsublist,
    fun a value hvalue hactive => ?_⟩
  have henabled : a.Enabled build := enabled_of_mem_allHashAlgorithms hbuild a
    (hsublist.subset (List.mem_map_of_mem hvalue))
  rw [makeEventBytes_eq] at hevent
  refine ⟨tpm.event_digests hactive henabled (congrArg Prod.fst hevent), ?_⟩
  calc value = (tpm.registers w₃.backend).digest a Index.debug :=
        hcurrent.register _ hvalue hactive
    _ = (tpm.registers w₂.backend).digest a Index.debug := by
        rw [registers_of_readsOnly tpm hscanned.readsOnly]
    _ = tpm.hash a ((tpm.registers w₁.backend).digest a Index.debug ++ tpm.hash a eventText) :=
        register_of_event tpm hevent hactive henabled
    _ = tpm.hash a (tpm.initial a Index.debug ++ tpm.hash a eventText) := by
        rw [register_of_reset tpm hreset hactive]

/-- A run on the same TPM: the event measures the same text into both banks. -/
theorem event_banks_printed_two_banks :
    ∃ event current w', eventAllBanks ⟨true⟩ twoBankProvider (ascii "abc") twoBankWorld =
        (.value (event, current), w') ∧
      current.map Prod.fst = [.sha1, .sha256] ∧
      ∀ a value, (a, value) ∈ current → twoBankTpm.active a →
        digestsOf a (event.digests.map DigestValue.entry) = [foldedHash a (ascii "abc")] ∧
        value = foldedHash a (zeroRegister a Index.debug ++ foldedHash a (ascii "abc")) := by
  have hresult : (eventAllBanks ⟨true⟩ twoBankProvider (ascii "abc") twoBankWorld).1 =
      .value (⟨[⟨.sha1, 220 :: List.replicate 19 0⟩, ⟨.sha256, 220 :: List.replicate 31 0⟩]⟩,
        [(.sha1, 43 :: List.replicate 19 0), (.sha256, 171 :: List.replicate 31 0)]) := by
    decide +kernel
  have hrun := Program.eq_of_fst_eq hresult
  exact ⟨_, _, _, hrun, rfl, (event_banks_printed twoBankTpm hrun).2.2⟩

end Scans

end Tpmkit.Examples
