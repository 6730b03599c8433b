import Tpmkit.EventDigests
import Tpmkit.MeasuringTpm

/-!
# Replaying the measurement log

The in-memory observer keeps a record of each measurement that succeeded.  From
these records a verifier recomputes the PCRs: the records of an index, folded
onto the value that the register had when the observer was cleared, give what a
later `read` returns for it (`read_replays_log`).  The records of events can be
checked against the event data, and no other records give the same value unless
the hash function fails (`log_bound_by_register`).
-/

namespace Tpmkit

open Checked Pcr ExtendRegisters

variable {σ : Type} {build : BuildOptions}

/-! ## Records -/

/-- A record as an entry of a log. -/
def PcrMeasurementRecord.entry (r : PcrMeasurementRecord) :
    Entry HashAlgorithm Index (List UInt8) :=
  (r.index, r.digests.map DigestValue.entry)

/-- The digests that some records hold for a bank, in order. -/
def recordedDigests (a : HashAlgorithm) (records : List PcrMeasurementRecord) :
    List (List UInt8) :=
  records.flatMap fun r => digestsOf a (r.digests.map DigestValue.entry)

/-- What a verifier makes of some records and the first value of a register. -/
def replayRecords (hash : HashAlgorithm → List UInt8 → List UInt8) (a : HashAlgorithm)
    (records : List PcrMeasurementRecord) (first : List UInt8) : List UInt8 :=
  (recordedDigests a records).foldl (fun old digest => hash a (old ++ digest)) first

/-- The byte strings that a verifier hashes on the way: each value of the register
with the digest that comes next. -/
def hashedStrings (hash : HashAlgorithm → List UInt8 → List UInt8) (a : HashAlgorithm) :
    List (List UInt8) → List UInt8 → List (List UInt8)
  | [], _ => []
  | digest :: digests, old =>
      (old ++ digest) :: hashedStrings hash a digests (hash a (old ++ digest))

/-- They are the extensions of the register, written out. -/
theorem hashedStrings_eq (hash : HashAlgorithm → List UInt8 → List UInt8)
    (initial : HashAlgorithm → Index → List UInt8) (a : HashAlgorithm)
    (digests : List (List UInt8)) (old : List UInt8) :
    hashedStrings hash a digests old =
      ((pcrRule hash initial).taken a digests old).map fun x => x.1 ++ x.2 := by
  induction digests generalizing old with
  | nil => rfl
  | cons digest digests ih => exact congrArg ((old ++ digest) :: ·) (ih (hash a (old ++ digest)))

/-- The records of a run are the measurements among its actions. -/
theorem logOf_actionsOf (op : ProviderOp build) (result : Outcome (ProviderValue build)) :
    logOf (actionsOf op result) =
      (InMemoryPcrObserver.recordsOf op result).map PcrMeasurementRecord.entry := by
  rcases result with value | e | f
  · cases op <;> cases value <;> rfl
  · cases op <;> rfl
  · cases op <;> rfl

/-- The records that a run calls for. -/
def runRecords (ops : List (ProviderOp build)) (results : List (Outcome (ProviderValue build))) :
    List PcrMeasurementRecord :=
  (ops.zip results).flatMap fun entry => InMemoryPcrObserver.recordsOf entry.1 entry.2

/-- What a run does to the registers and what the observer records of it bring each bank the
same digests. -/
theorem logOf_runActions (ops : List (ProviderOp build))
    (results : List (Outcome (ProviderValue build))) :
    logOf (runActions ops results) = (runRecords ops results).map PcrMeasurementRecord.entry := by
  unfold runActions runRecords
  induction ops.zip results with
  | nil => rfl
  | cons entry entries ih =>
      rw [List.flatMap_cons, List.flatMap_cons, List.map_append, ← ih, ← logOf_actionsOf]
      exact List.filterMap_append

/-- The digests of an index in a log are those of its records. -/
theorem loggedDigests_map_entry (a : HashAlgorithm) (index : Index)
    (records : List PcrMeasurementRecord) :
    loggedDigests a index (records.map PcrMeasurementRecord.entry) =
      recordedDigests a (records.filter fun r => r.index = index) := by
  induction records with
  | nil => rfl
  | cons r records ih =>
      rw [List.map_cons, loggedDigests_cons, ih]
      by_cases hindex : r.index = index <;>
        simp [PcrMeasurementRecord.entry, recordedDigests, hindex]

/-- What the cleared observer holds after a run. -/
theorem entriesByIndex_of_run (provider : EsysPcrProvider σ) {observer : Observer}
    (hobserver : provider.observer = some observer) (ops : List (ProviderOp build)) (w : World σ)
    (o : InMemoryPcrObserver) (index : Index) :
    ((w.eventsSince (Program.series provider.perform ops w).2).foldl
        InMemoryPcrObserver.receive o.clear).entriesByIndex index =
      (runRecords ops (Program.series provider.perform ops w).1).filter
        fun r => r.index = index := by
  rw [InMemoryPcrObserver.records_of_run provider observer hobserver ops w o.clear]
  simp [InMemoryPcrObserver.entriesByIndex, InMemoryPcrObserver.clear, runRecords]

/-- Only a reset that succeeded resets a register. -/
theorem not_reset_of_run {ops : List (ProviderOp build)}
    {results : List (Outcome (ProviderValue build))} {index : Index}
    (h : ∀ value, (ProviderOp.reset index, Result.value value) ∉ ops.zip results) :
    ∀ action ∈ runActions ops results, action ≠ .reset index := by
  intro action haction hreset
  obtain ⟨⟨op, result⟩, hmem, hop⟩ := List.mem_flatMap.mp haction
  subst hreset
  rcases result with value | e | f
  · cases op with
    | reset index' =>
        obtain rfl : index = index' := by simpa [actionsOf] using hop
        exact h value hmem
    | event index' eventData => cases value <;> simp [actionsOf] at hop
    | _ => simp [actionsOf] at hop
  · cases op <;> simp [actionsOf] at hop
  · cases op <;> simp [actionsOf] at hop

/-- A register that was not reset holds what a verifier makes of its records. -/
theorem register_eq_replay {provider : EsysPcrProvider σ} (tpm : MeasuringTpm provider.api)
    (hknown : KnownBanks build provider.api) {ops : List (ProviderOp build)}
    (hops : ∀ op ∈ ops, op.WellFormed) (w : World σ)
    (hrc : RefusedByTpm (w.eventsSince (Program.series provider.perform ops w).2))
    {a : HashAlgorithm} (ha : tpm.active a) (henabled : a.Enabled build) {index : Index}
    (hreset : ∀ value, (ProviderOp.reset index, Result.value value) ∉
      ops.zip (Program.series provider.perform ops w).1) :
    (tpm.registers (Program.series provider.perform ops w).2.backend).digest a index =
      replayRecords tpm.hash a ((runRecords ops (Program.series provider.perform ops w).1).filter
        fun r => r.index = index) ((tpm.registers w.backend).digest a index) := by
  have hfollows := tpm.follows_series hknown hops ha henabled w hrc
  have hreplay := tpm.rule.run_eq_replay (a := a) (not_reset_of_run hreset)
    (tpm.registers w.backend).digest
  rw [Rule.replay, logOf_runActions, loggedDigests_map_entry] at hreplay
  exact (congrFun hfollows index).trans hreplay

/-! ## Reading the registers -/

/-- A read of an active bank returns what the registers hold. -/
theorem MeasuringTpm.read_returns_registers {provider : EsysPcrProvider σ}
    (tpm : MeasuringTpm provider.api) {selection : Selection build}
    (hactive : tpm.active selection.algorithm) {w : World σ} {result : ReadResult build}
    (hread : (provider.read build selection w).1 = .value result) :
    ∀ v ∈ result.values, v.index ∈ selection.indices ∧
      v.digest = ⟨selection.algorithm,
        (tpm.registers w.backend).digest selection.algorithm v.index⟩ := by
  obtain ⟨t, ht, hencodes⟩ := toTpmSelection_encodes selection
  have hexact := hencodes.selectsExactly
  have hsize := hencodes.size_eq
  have hmin : 3 ≤ canonicalSize selection.indices := by
    rw [canonicalSize_eq_sup]
    exact le_max_left ..
  have hmax := canonicalSize_le selection.indices
  by_cases hesys : provider.esys.isSome = true
  swap
  · obtain ⟨e, hrun⟩ : (provider.read build selection).Rejects w :=
      EsysPcrProvider.read_rejected w hesys
    rw [hrun] at hread
    cases hread
  have hreports := tpm.read_reports provider.esys t selection.algorithm w.backend hactive
    hexact.count_eq hexact.hash_eq (by omega) (by omega)
  rcases hanswer : provider.api.pcrRead provider.esys esysTrNone esysTrNone esysTrNone t w.backend
    with ⟨answer, b⟩
  rw [hanswer] at hreports
  rw [EsysPcrProvider.read_run w ht hesys hanswer] at hread
  obtain ⟨hrc, _⟩ := of_readResult_eq_value hread
  obtain ⟨reported, hcard, hselected, hreported⟩ := hreports hrc
  have hresult := hreported.readResult_eq hcard
  rw [hresult] at hread
  cases hread
  intro v hv
  obtain ⟨index, hindex, rfl⟩ := List.mem_map.mp hv
  have hmem : index ∈ reported := by simpa using hindex
  exact ⟨(hencodes.selects_iff index).mp (hselected index hmem), rfl⟩

/-! ## Events -/

/-- The digests of a measured event are hashes of its data. -/
theorem MeasuringTpm.event_digests {provider : EsysPcrProvider σ}
    (tpm : MeasuringTpm provider.api) {a : HashAlgorithm} (ha : tpm.active a)
    (henabled : a.Enabled build) {index : Index} {eventData : List UInt8} {w : World σ}
    {result : EventResult}
    (h : (provider.event build index eventData w).1 = .value result) :
    digestsOf a (result.digests.map DigestValue.entry) = [tpm.hash a eventData] := by
  obtain ⟨t, hmeasured, rfl⟩ := (event_value_iff provider w index eventData result).mp h
  obtain ⟨t', ht', _, hbanks⟩ := tpm.event_eq provider.esys index esysTrPassword esysTrNone
    esysTrNone (encodedEvent eventData) w.backend hmeasured.rc
  obtain rfl : t = t' := Option.some.inj (hmeasured.digests.symm.trans ht')
  rw [digestsOf_domainDigests henabled, (hbanks a ha).1, data_encodedEvent hmeasured.size]

/-- A record that can be checked: its digests are well formed, and a record of an
event holds the hash of its data. -/
def PcrMeasurementRecord.Checkable (build : BuildOptions)
    (hash : HashAlgorithm → List UInt8 → List UInt8) (active : HashAlgorithm → Prop)
    (r : PcrMeasurementRecord) : Prop :=
  (∀ d ∈ r.digests, d.WellFormed build) ∧
  (r.operation = .event → ∀ a : HashAlgorithm, active a → a.Enabled build →
    recordedDigests a [r] = [hash a r.eventData])

/-- The record of one operation can be checked: the digests are the caller's, or those that the
TPM answered, which hash the event. -/
theorem MeasuringTpm.checkable_of_perform {provider : EsysPcrProvider σ}
    (tpm : MeasuringTpm provider.api) {op : ProviderOp build} (hop : op.WellFormed) (w : World σ) :
    ∀ r ∈ InMemoryPcrObserver.recordsOf op (provider.perform op w).1,
      r.Checkable build tpm.hash tpm.active := by
  intro r hr
  cases op with
  | extend index digests =>
      cases hresult : (provider.perform (.extend index digests : ProviderOp build) w).1 with
      | value value =>
          rw [hresult] at hr
          obtain rfl := List.mem_singleton.mp hr
          exact ⟨hop, fun hevent => by cases hevent⟩
      | unexpected e =>
          rw [hresult] at hr
          cases hr
      | fault f =>
          rw [hresult] at hr
          cases hr
  | event index eventData =>
      rw [EsysPcrProvider.perform, Program.map_apply] at hr
      cases hresult : (provider.event build index eventData w).1 with
      | value result =>
          rw [hresult] at hr
          obtain rfl := List.mem_singleton.mp hr
          refine ⟨fun d hd => ?_, fun _ a ha henabled => ?_⟩
          · obtain ⟨t, _, rfl⟩ := (event_value_iff provider w index eventData result).mp hresult
            exact wellFormed_of_mem_domainDigests hd
          · simpa [recordedDigests, InMemoryPcrObserver.makeEventRecord] using
              tpm.event_digests ha henabled hresult
      | unexpected e =>
          rw [hresult] at hr
          cases hr
      | fault f =>
          rw [hresult] at hr
          cases hr
  | _ => simp [InMemoryPcrObserver.recordsOf] at hr

/-- Every record of a run can be checked. -/
theorem MeasuringTpm.checkable_of_run {provider : EsysPcrProvider σ}
    (tpm : MeasuringTpm provider.api) {ops : List (ProviderOp build)}
    (hops : ∀ op ∈ ops, op.WellFormed) (w : World σ) :
    ∀ r ∈ runRecords ops (Program.series provider.perform ops w).1,
      r.Checkable build tpm.hash tpm.active := by
  induction ops generalizing w with
  | nil => simp [runRecords]
  | cons op ops ih =>
      intro r hr
      rw [Program.series_cons, runRecords, List.zip_cons_cons, List.flatMap_cons,
        List.mem_append] at hr
      rcases hr with hfirst | hrest
      · exact tpm.checkable_of_perform (hops op List.mem_cons_self) w r hfirst
      · exact ih (fun o ho => hops o (List.mem_cons_of_mem _ ho)) _ r hrest

/-! ## The log and the registers -/

/-- **A read returns the replay of the log.**  Clear the observer, run any
operations, read any selection of an active bank: each value returned for an
index that was not reset is what a verifier makes of the observer's entries for
that index, and the entries of events hold the hashes of their data. -/
theorem read_replays_log {provider : EsysPcrProvider σ} (tpm : MeasuringTpm provider.api)
    (hknown : KnownBanks build provider.api) {observer : Observer}
    (hobserver : provider.observer = some observer) {ops : List (ProviderOp build)}
    (hops : ∀ op ∈ ops, op.WellFormed) (w : World σ)
    (hrc : RefusedByTpm (w.eventsSince (Program.series provider.perform ops w).2))
    (o : InMemoryPcrObserver) {selection : Selection build}
    (hactive : tpm.active selection.algorithm) {result : ReadResult build}
    (hread : (provider.read build selection (Program.series provider.perform ops w).2).1 =
      .value result) :
    let run := Program.series provider.perform ops w
    let log := (w.eventsSince run.2).foldl InMemoryPcrObserver.receive o.clear
    (∀ r ∈ log.entries, r.Checkable build tpm.hash tpm.active) ∧
    ∀ v ∈ result.values,
      (∀ value, (ProviderOp.reset v.index, Result.value value) ∉ ops.zip run.1) →
        v.digest = ⟨selection.algorithm, replayRecords tpm.hash selection.algorithm
          (log.entriesByIndex v.index)
          ((tpm.registers w.backend).digest selection.algorithm v.index)⟩ := by
  intro run log
  refine ⟨fun r hr => ?_, fun v hv hreset => ?_⟩
  · have hlog : log = ⟨runRecords ops run.1⟩ := by
      simp only [log]
      rw [InMemoryPcrObserver.records_of_run provider observer hobserver ops w o.clear]
      simp [InMemoryPcrObserver.clear, runRecords, run]
    rw [hlog] at hr
    exact tpm.checkable_of_run hops w r hr
  · obtain ⟨_, hdigest⟩ := tpm.read_returns_registers hactive hread v hv
    rw [hdigest, register_eq_replay tpm hknown hops w hrc hactive selection.enabled hreset,
      entriesByIndex_of_run provider hobserver]

/-! ### The log of a TPM with two banks -/

/-- Two measurements of PCR 16 and one of PCR 7. -/
def loggedOps : List (ProviderOp ⟨false⟩) :=
  [.extend .debug [⟨.sha256, List.replicate 32 9⟩], .event .firmware7 [4, 5],
    .event .debug [1, 2, 3]]

/-- The run of these operations on a TPM with two banks. -/
def loggedRun : List (Outcome (ProviderValue ⟨false⟩)) × World PcrRegisters :=
  Program.series twoBankProvider.perform loggedOps twoBankWorld

/-- Its digest values were not moved from. -/
theorem wellFormed_loggedOps : ∀ op ∈ loggedOps, op.WellFormed := by
  intro op hop
  simp only [loggedOps, List.mem_cons, List.not_mem_nil, or_false] at hop
  rcases hop with rfl | rfl | rfl
  · intro d hd
    obtain rfl := List.mem_singleton.mp hd
    exact ⟨trivial, rfl⟩
  · trivial
  · trivial

/-- What failed in it was refused by the TPM. -/
theorem refusedByTpm_loggedOps : RefusedByTpm (twoBankWorld.eventsSince
    (Program.series twoBankProvider.perform loggedOps twoBankWorld).2) := by
  unfold RefusedByTpm
  decide +kernel

/-- It resets nothing. -/
theorem not_reset_loggedOps (index : Index) : ∀ value, (ProviderOp.reset index,
    Result.value value) ∉ loggedOps.zip
      (Program.series twoBankProvider.perform loggedOps twoBankWorld).1 := by
  intro value hmem
  have hop := (List.of_mem_zip hmem).1
  simp [loggedOps] at hop

/-- The value read from PCR 16 is the replay of its two records. -/
theorem read_replays_log_two_banks :
    let log := (twoBankWorld.eventsSince loggedRun.2).foldl InMemoryPcrObserver.receive ⟨[]⟩
    ∃ v, (twoBankProvider.read ⟨false⟩ ⟨.sha256, {.debug}, trivial⟩ loggedRun.2).1 =
        .value ⟨⟨.sha256, {.debug}, trivial⟩, 1, [v]⟩ ∧
      log.count = 3 ∧ (log.entriesByIndex .debug).length = 2 ∧
      v.digest = ⟨.sha256, replayRecords foldedHash .sha256 (log.entriesByIndex .debug)
        (List.replicate 32 0)⟩ := by
  intro log
  have hread : (twoBankProvider.read ⟨false⟩ ⟨.sha256, {.debug}, trivial⟩ loggedRun.2).1 =
      .value ⟨⟨.sha256, {.debug}, trivial⟩, 1,
        [⟨.debug, ⟨.sha256, 36 :: List.replicate 31 0⟩⟩]⟩ := by
    decide +kernel
  have hactive : twoBankTpm.active .sha256 := rfl
  have hlog := (read_replays_log twoBankTpm knownBanks_twoBankApi rfl wellFormed_loggedOps
    twoBankWorld refusedByTpm_loggedOps ⟨[]⟩ hactive hread).2
  exact ⟨_, hread, by decide +kernel, by decide +kernel,
    hlog _ List.mem_cons_self (not_reset_loggedOps .debug)⟩

/-- The digests of a bank among well-formed records have its size. -/
theorem length_of_mem_recordedDigests {a : HashAlgorithm} {records : List PcrMeasurementRecord}
    (hrecords : ∀ r ∈ records, ∀ d ∈ r.digests, d.WellFormed build) :
    ∀ digest ∈ recordedDigests a records, digest.length = a.size := by
  intro digest hdigest
  obtain ⟨r, hr, hmem⟩ := List.mem_flatMap.mp hdigest
  obtain ⟨entry, hentry, rfl⟩ := List.mem_map.mp hmem
  obtain ⟨hentry, hbank⟩ := List.mem_filter.mp hentry
  obtain ⟨d, hd, rfl⟩ := List.mem_map.mp hentry
  have halgorithm : d.algorithm = a := of_decide_eq_true hbank
  rw [← halgorithm]
  exact (hrecords r hr d hd).length_eq

/-- Two lists of digests of one size that replay to one value are the same, unless two
of the strings hashed on the way collide, or one of them hashes to the first value. -/
theorem digests_eq_of_replay {hash : HashAlgorithm → List UInt8 → List UInt8} {a : HashAlgorithm}
    {digests digests' : List (List UInt8)} {first : List UInt8}
    (hsizes : ∀ digest ∈ digests, digest.length = a.size)
    (hsizes' : ∀ digest ∈ digests', digest.length = a.size)
    (h : digests.foldl (fun old digest => hash a (old ++ digest)) first =
      digests'.foldl (fun old digest => hash a (old ++ digest)) first) :
    digests = digests' ∨
    (∃ x ∈ hashedStrings hash a digests first, ∃ y ∈ hashedStrings hash a digests' first,
      x ≠ y ∧ hash a x = hash a y) ∨
    ∃ x ∈ hashedStrings hash a digests first ++ hashedStrings hash a digests' first,
      hash a x = first := by
  let rule := pcrRule hash fun _ _ => []
  simp only [hashedStrings_eq hash fun _ _ => []]
  rcases rule.chain_eq_cases a h with hsame | ⟨x, hx, y, hy, hne, hcollides⟩ | ⟨x, hx, hreturns⟩
  · exact Or.inl hsame
  · refine Or.inr (Or.inl ⟨_, List.mem_map_of_mem hx, _, List.mem_map_of_mem hy,
      fun happend => hne ?_, hcollides⟩)
    have hlength := hsizes x.2 (rule.snd_mem_of_mem_taken hx)
    have hlength' := hsizes' y.2 (rule.snd_mem_of_mem_taken hy)
    obtain ⟨hold, hdigest⟩ := List.append_inj' happend (hlength.trans hlength'.symm)
    exact Prod.ext hold hdigest
  · refine Or.inr (Or.inr ⟨x.1 ++ x.2, ?_, hreturns⟩)
    rw [← List.map_append]
    exact List.mem_map_of_mem hx

/-- **The register binds the log.**  Whatever records a verifier is handed, if they
replay to what the register holds then they bring the bank the very digests of the
observer's entries, in order; unless the two replays show a collision, of a string
hashed in the one with a string hashed in the other, or one of these strings hashes to
the first value of the register. -/
theorem log_bound_by_register {provider : EsysPcrProvider σ} (tpm : MeasuringTpm provider.api)
    (hknown : KnownBanks build provider.api) {observer : Observer}
    (hobserver : provider.observer = some observer) {ops : List (ProviderOp build)}
    (hops : ∀ op ∈ ops, op.WellFormed) (w : World σ)
    (hrc : RefusedByTpm (w.eventsSince (Program.series provider.perform ops w).2))
    (o : InMemoryPcrObserver) {a : HashAlgorithm} (ha : tpm.active a) (henabled : a.Enabled build)
    {index : Index}
    (hreset : ∀ value, (ProviderOp.reset index, Result.value value) ∉
      ops.zip (Program.series provider.perform ops w).1)
    {records : List PcrMeasurementRecord}
    (hrecords : ∀ r ∈ records, ∀ d ∈ r.digests, d.WellFormed build)
    (hreplay : replayRecords tpm.hash a records ((tpm.registers w.backend).digest a index) =
      (tpm.registers (Program.series provider.perform ops w).2.backend).digest a index) :
    let first := (tpm.registers w.backend).digest a index
    let log := (w.eventsSince (Program.series provider.perform ops w).2).foldl
      InMemoryPcrObserver.receive o.clear
    let offered := recordedDigests a records
    let logged := recordedDigests a (log.entriesByIndex index)
    offered = logged ∨
    (∃ x ∈ hashedStrings tpm.hash a offered first, ∃ y ∈ hashedStrings tpm.hash a logged first,
      x ≠ y ∧ tpm.hash a x = tpm.hash a y) ∨
    ∃ x ∈ hashedStrings tpm.hash a offered first ++ hashedStrings tpm.hash a logged first,
      tpm.hash a x = first := by
  intro first log offered logged
  have hentries : log.entriesByIndex index =
      (runRecords ops (Program.series provider.perform ops w).1).filter fun r => r.index = index :=
    entriesByIndex_of_run provider hobserver ops w o index
  have hregister := register_eq_replay tpm hknown hops w hrc ha henabled hreset
  rw [hregister, ← hentries] at hreplay
  have hlogged : ∀ r ∈ log.entriesByIndex index, ∀ d ∈ r.digests, d.WellFormed build := by
    rw [hentries]
    exact fun r hr => (tpm.checkable_of_run hops w r (List.mem_of_mem_filter hr)).1
  exact digests_eq_of_replay (length_of_mem_recordedDigests hrecords)
    (length_of_mem_recordedDigests hlogged) hreplay

/-- One record with both digests replays to the same value. -/
def mergedRecord : PcrMeasurementRecord :=
  ⟨.debug, .extend, [⟨.sha256, List.replicate 32 9⟩, ⟨.sha256, foldedHash .sha256 [1, 2, 3]⟩], []⟩

/-- The strings hashed in the two replays neither collide nor hash to the first value, so the
digests are the same. -/
theorem log_bound_by_register_two_banks :
    recordedDigests .sha256 [mergedRecord] = recordedDigests .sha256
      (((twoBankWorld.eventsSince loggedRun.2).foldl InMemoryPcrObserver.receive
        ⟨[]⟩).entriesByIndex .debug) := by
  have hmerged : ∀ r ∈ [mergedRecord], ∀ d ∈ r.digests, d.WellFormed ⟨false⟩ := by
    intro r hr d hd
    obtain rfl := List.mem_singleton.mp hr
    simp only [mergedRecord, List.mem_cons, List.not_mem_nil, or_false] at hd
    rcases hd with rfl | rfl
    · exact ⟨trivial, rfl⟩
    · exact ⟨trivial, rfl⟩
  have hactive : twoBankTpm.active .sha256 := rfl
  have hbound := log_bound_by_register twoBankTpm knownBanks_twoBankApi rfl wellFormed_loggedOps
    twoBankWorld refusedByTpm_loggedOps ⟨[]⟩ hactive trivial (not_reset_loggedOps .debug) hmerged
    (by decide +kernel)
  refine hbound.resolve_right (not_or.mpr ⟨?_, ?_⟩)
  · decide +kernel
  · decide +kernel

end Tpmkit
