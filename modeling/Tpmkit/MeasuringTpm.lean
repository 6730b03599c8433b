import Tpmkit.DispatchFidelity
import Tpmkit.ExtendRegisters
import Tpmkit.ObserverFidelity
import Tpmkit.PcrReadRefinement
import Tpmkit.PreparedRequests

/-!
# A TPM that measures

What the TPM makes of the requests of the provider, as far as its registers go:
`pcr_extend` and `pcr_event` extend the active banks, `pcr_reset` takes a
register back, nothing else touches them, and a code of the TPM itself says
that nothing was done.  A code of a layer below says nothing: the answer may
have been lost on its way.

`registers_of_run` follows the registers through a run: each holds the digests
of the measurements that the provider reported, folded in order from its last
reset on.
-/

namespace Tpmkit

open Checked AscendingSet Pcr ExtendRegisters

variable {σ : Type} {build : BuildOptions}

/-! ## Registers and requests -/

/-- An action on the PCRs. -/
abbrev PcrAction : Type := Action HashAlgorithm Index (List UInt8)

/-- A digest with the bank that it is for. -/
def Pcr.DigestValue.entry (d : DigestValue) : HashAlgorithm × List UInt8 := (d.algorithm, d.digest)

/-- The PCR rule of the TCG: the new value is the hash of the old value followed
by the digest. -/
def pcrRule (hash : HashAlgorithm → List UInt8 → List UInt8)
    (initial : HashAlgorithm → Index → List UInt8) :
    Rule HashAlgorithm Index (List UInt8) where
  extend a old digest := hash a (old ++ digest)
  initial := initial

/-- The used entries. -/
def TpmlDigestValues.entries (t : TpmlDigestValues) : List TpmtHa :=
  t.digests.toList.take t.count.toNat

/-- The digests for one bank among some entries, in order. -/
def bankDigests (a : HashAlgorithm) (entries : List TpmtHa) : List (List UInt8) :=
  (entries.filter fun entry => entry.hashAlg = bankId a).map fun entry =>
    entry.digest.toList.take a.size

/-- The bytes of an event. -/
def Tpm2bEvent.data (t : Tpm2bEvent) : List UInt8 := t.buffer.toList.take t.size.toNat

/-- A TPM with some active banks, and what it does to their registers. -/
structure MeasuringTpm (api : EsysApi σ) where
  hash : HashAlgorithm → List UInt8 → List UInt8
  initial : HashAlgorithm → Index → List UInt8
  active : HashAlgorithm → Prop
  registers : σ → PcrRegisters
  extend_eq : ∀ esys index shandle1 shandle2 shandle3 digests b,
    (api.pcrExtend esys (pcrHandle index) shandle1 shandle2 shandle3 digests b).1 =
        tss2RcSuccess → ∀ a, active a → ∀ i,
      (registers (api.pcrExtend esys (pcrHandle index) shandle1 shandle2 shandle3 digests
        b).2).digest a i =
        if index = i then
          (pcrRule hash initial).chain a (bankDigests a digests.entries) ((registers b).digest a i)
        else (registers b).digest a i
  event_eq : ∀ esys index shandle1 shandle2 shandle3 eventData b,
    (api.pcrEvent esys (pcrHandle index) shandle1 shandle2 shandle3 eventData b).1.rc =
        tss2RcSuccess → ∃ t,
      (api.pcrEvent esys (pcrHandle index) shandle1 shandle2 shandle3 eventData b).1.digests =
          some t ∧ t.count.toNat ≤ 16 ∧ ∀ a, active a →
        bankDigests a t.entries = [hash a eventData.data] ∧ ∀ i,
          (registers (api.pcrEvent esys (pcrHandle index) shandle1 shandle2 shandle3 eventData
            b).2).digest a i =
            if index = i then hash a ((registers b).digest a i ++ hash a eventData.data)
            else (registers b).digest a i
  reset_eq : ∀ esys index shandle1 shandle2 shandle3 b,
    (api.pcrReset esys (pcrHandle index) shandle1 shandle2 shandle3 b).1 =
        tss2RcSuccess → ∀ a, active a → ∀ i,
      (registers (api.pcrReset esys (pcrHandle index) shandle1 shandle2 shandle3 b).2).digest a i =
        if index = i then initial a i else (registers b).digest a i
  refused_eq : ∀ request b, (api.respond request b).1.rc ≠ tss2RcSuccess →
    rcLayer (api.respond request b).1.rc = tss2TpmRcLayer →
      registers (api.respond request b).2 = registers b
  quiet_eq : ∀ request b, request.measures = false →
    registers (api.respond request b).2 = registers b
  free_eq : ∀ buffer b, registers (api.free buffer b) = registers b
  read_reports : ∀ esys t a b, active a → t.count = 1 → t.first.hash = bankId a →
    3 ≤ t.first.sizeofSelect.toNat → t.first.sizeofSelect.toNat ≤ 4 →
    (api.pcrRead esys esysTrNone esysTrNone esysTrNone t b).1.rc = tss2RcSuccess →
      ∃ reported : Finset Index, reported.card ≤ 8 ∧
        (∀ index ∈ reported, t.first.selects index.val) ∧
        ReportsRegisters (registers b) a reported
          (api.pcrRead esys esysTrNone esysTrNone esysTrNone t b).1

/-- The banks of the TPM are all known to the library: an event is answered with
digests of these alone. -/
def KnownBanks (build : BuildOptions) (api : EsysApi σ) : Prop :=
  ∀ esys handle shandle1 shandle2 shandle3 eventData b t,
    (api.pcrEvent esys handle shandle1 shandle2 shandle3 eventData b).1.digests = some t →
      ∀ entry ∈ t.entries, EnabledId build entry.hashAlg ∨ DisabledSha1Id build entry.hashAlg

/-- Every call that failed was refused by the TPM itself. -/
def RefusedByTpm (events : List Event) : Prop :=
  ∀ answered ∈ requests events,
    answered.2 = tss2RcSuccess ∨ rcLayer answered.2 = tss2TpmRcLayer

/-- The parts of a run in which the TPM refused what failed are such runs. -/
theorem RefusedByTpm.append {events events' : List Event}
    (h : RefusedByTpm (events ++ events')) : RefusedByTpm events ∧ RefusedByTpm events' := by
  rw [RefusedByTpm, requests_append] at h
  exact ⟨fun answered hmem => h answered (List.mem_append_left _ hmem),
    fun answered hmem => h answered (List.mem_append_right _ hmem)⟩

/-- The digest values of an operation were not moved from. -/
def ProviderOp.WellFormed : ProviderOp build → Prop
  | .extend _ digests => ∀ d ∈ digests, d.WellFormed build
  | _ => True

/-- What an operation with this result did to the registers. -/
def actionsOf : ProviderOp build → Outcome (ProviderValue build) → List PcrAction
  | .extend index digests, .value _ => [.measure index (digests.map DigestValue.entry)]
  | .event index _, .value (.measured result) =>
      [.measure index (result.digests.map DigestValue.entry)]
  | .reset index, .value _ => [.reset index]
  | _, _ => []

/-! ## Digests on the wire -/

/-- Algorithms of the build are told apart by their identifiers. -/
theorem enabled_algorithm_eq_iff {a a' : HashAlgorithm} (ha : a.Enabled build)
    (ha' : a'.Enabled build) : algorithmToTpm build a' = bankId a ↔ a' = a := by
  rw [← algorithmToTpm_eq_bankId ha]
  refine ⟨fun heq => ?_, fun heq => heq ▸ rfl⟩
  have hvalue := algorithmFromTpm_eq_value.mpr ⟨ha', rfl⟩
  rw [heq, algorithmFromTpm_eq_value.mpr ⟨ha, rfl⟩] at hvalue
  exact (Result.value.inj hvalue).symm

/-- The decoder takes over the digests of an enabled bank. -/
theorem digestsOf_taggedDigests {a : HashAlgorithm} (ha : a.Enabled build)
    (entries : List TpmtHa) :
    digestsOf a ((entries.filterMap (taggedDigest build)).map DigestValue.entry) =
      bankDigests a entries := by
  induction entries with
  | nil => rfl
  | cons entry entries ih =>
      rcases algorithmFromTpm_cases entry.hashAlg with ⟨a', ha'⟩ | ⟨message, _, hrefused⟩
      · obtain ⟨henabled, hid⟩ := algorithmFromTpm_eq_value.mp ha'
        rw [List.filterMap_cons_some (taggedDigest_of_enabled henabled hid.symm), List.map_cons]
        by_cases heq : a' = a
        · have hkeep : entry.hashAlg = bankId a := by
            rw [← hid]
            exact (enabled_algorithm_eq_iff ha henabled).mpr heq
          subst heq
          simpa [digestsOf, bankDigests, DigestValue.entry, hkeep] using ih
        · have hdrop : entry.hashAlg ≠ bankId a := by
            rw [← hid]
            exact fun h => heq ((enabled_algorithm_eq_iff ha henabled).mp h)
          simpa [digestsOf, bankDigests, DigestValue.entry, hdrop, heq] using ih
      · have hnone : taggedDigest build entry = none := by
          simp [taggedDigest, hrefused, fail]
        have hdrop : entry.hashAlg ≠ bankId a := by
          intro heq
          rw [heq, ← algorithmToTpm_eq_bankId ha,
            algorithmFromTpm_eq_value.mpr ⟨ha, rfl⟩] at hrefused
          cases hrefused
        rw [List.filterMap_cons_none hnone]
        simpa [bankDigests, hdrop] using ih

/-- Of a bank that is in the build the parser keeps every digest: the entries that it skips are
those of a disabled SHA-1. -/
theorem digestsOf_domainDigests {a : HashAlgorithm} (ha : a.Enabled build)
    (t : TpmlDigestValues) :
    digestsOf a ((domainDigests build t t.count.toNat).map DigestValue.entry) =
      bankDigests a t.entries :=
  digestsOf_taggedDigests ha t.entries

/-- The encoder writes the digests of an enabled bank. -/
theorem bankDigests_encodedDigests {a : HashAlgorithm} (ha : a.Enabled build)
    {digests : List DigestValue} (hlength : digests.length ≤ 16)
    (hdigests : ∀ d ∈ digests, d.WellFormed build) :
    bankDigests a (encodedDigests build digests).entries =
      digestsOf a (digests.map DigestValue.entry) := by
  rw [← digestsOf_domainDigests ha, encodedDigests_count hlength,
    domainDigests_encodedDigests hlength hdigests]

/-- The event sent carries the caller's data. -/
theorem data_encodedEvent {eventData : List UInt8} (h : eventData.length ≤ 1024) :
    (encodedEvent eventData).data = eventData := by
  have hsize : (encodedEvent eventData).size.toNat = eventData.length :=
    (imageOfBytes_encodedEvent h).size_eq
  rw [Tpm2bEvent.data, hsize]
  exact take_overlay h

/-! ## One operation -/

namespace MeasuringTpm

variable {provider : EsysPcrProvider σ} (tpm : MeasuringTpm provider.api)

/-- The rule of the registers. -/
abbrev rule : Rule HashAlgorithm Index (List UInt8) := pcrRule tpm.hash tpm.initial

/-- The registers of a bank went through these actions. -/
def Follows (a : HashAlgorithm) (b b' : σ) (actions : List PcrAction) : Prop :=
  (tpm.registers b').digest a = tpm.rule.run actions (tpm.registers b).digest a

/-- A call that leaves the registers alone reports nothing. -/
theorem Follows.nil {a : HashAlgorithm} {b b' : σ} (h : tpm.registers b' = tpm.registers b) :
    tpm.Follows a b b' [] := by
  rw [Follows, h]
  rfl

/-- Freeing a buffer leaves the registers alone. -/
theorem registers_freed {τ : Type} (buffer : ResponseBuffer) (pointer : Option τ) (b : σ) :
    tpm.registers (provider.api.freed buffer pointer b) = tpm.registers b := by
  cases pointer with
  | none => rfl
  | some t => exact tpm.free_eq buffer b

/-- So does freeing a whole response. -/
theorem registers_dispose (response : Response) (b : σ) :
    tpm.registers (provider.api.dispose response b) = tpm.registers b := by
  cases response with
  | event answer => exact tpm.registers_freed _ _ _
  | read answer =>
      rw [EsysApi.dispose, tpm.registers_freed, tpm.registers_freed]
  | allocate answer => rfl
  | status rc => rfl

/-- An exchange of requests that change no register. -/
theorem registers_exchange (call : Call) (rest : List Call) (b : σ)
    (h : ∀ c ∈ call :: rest, c.request.measures = false) :
    tpm.registers (provider.api.exchange call rest b).backend = tpm.registers b := by
  induction rest generalizing call b with
  | nil => exact tpm.quiet_eq _ _ (h call List.mem_cons_self)
  | cons next rest ih =>
      have hfirst := tpm.quiet_eq call.request b (h call List.mem_cons_self)
      have hrest := ih next (provider.api.respond call.request b).2
        fun c hc => h c (List.mem_cons_of_mem _ hc)
      unfold EsysApi.exchange
      by_cases hrc : (provider.api.respond call.request b).1.rc = tss2RcSuccess
      · simpa [hrc] using hrest.trans hfirst
      · simpa [hrc] using hfirst

/-- The operations that change no register. -/
theorem follows_quiet (op : ProviderOp build) (w : World σ)
    (hop : ∀ prepared, provider.prepare op = .value prepared →
      ∀ c ∈ prepared.1 :: prepared.2, c.request.measures = false) :
    tpm.registers (provider.perform op w).2.backend = tpm.registers w.backend := by
  rcases provider.perform_cases op with ⟨prepared, hprepare, hperform⟩ | ⟨_, hperform⟩
  · rw [hperform]
    simp only [EsysPcrProvider.carryOut, World.after_backend]
    rw [tpm.registers_dispose]
    exact tpm.registers_exchange _ _ _ (hop prepared hprepare)
  · rw [hperform]

/-- A request that the TPM refused. -/
theorem registers_refused {request : EsysRequest} {response : Response} {b b' : σ}
    {events : List Event} (hanswer : provider.api.respond request b = (response, b'))
    (hfails : response.rc ≠ tss2RcSuccess)
    (hrc : RefusedByTpm (.esys request response.rc :: events)) :
    tpm.registers b' = tpm.registers b := by
  have hlayer := (hrc _ List.mem_cons_self).resolve_left hfails
  have hsame := tpm.refused_eq request b
  rw [hanswer] at hsame
  exact hsame hfails hlayer

variable {a : HashAlgorithm}

/-- A reset that succeeds restores its register, and one that fails was refused and does
nothing. -/
theorem follows_reset (index : Index) (w : World σ) (ha : tpm.active a)
    (hrc : RefusedByTpm (w.eventsSince (provider.perform (.reset index : ProviderOp build) w).2)) :
    tpm.Follows a w.backend (provider.perform (.reset index : ProviderOp build) w).2.backend
      (actionsOf (.reset index) (provider.perform (.reset index : ProviderOp build) w).1) := by
  by_cases hesys : provider.esys.isSome = true
  swap
  · obtain ⟨e, hrun⟩ : (provider.reset index).Rejects w := EsysPcrProvider.reset_rejected w hesys
    simpa [EsysPcrProvider.perform, hrun, actionsOf] using Follows.nil tpm rfl
  rcases hanswer : provider.api.pcrReset provider.esys (pcrHandle index) esysTrPassword esysTrNone
    esysTrNone w.backend with ⟨rc, b⟩
  have hrun := EsysPcrProvider.reset_run w hesys hanswer
  simp only [EsysPcrProvider.perform, Program.map_apply, hrun, World.eventsSince_after,
    World.after_backend] at hrc ⊢
  by_cases hsuccess : rc = tss2RcSuccess
  · have hreset := tpm.reset_eq provider.esys index esysTrPassword esysTrNone esysTrNone w.backend
    rw [hanswer] at hreset
    simp only [EsysPcrProvider.statusResult, hsuccess, ne_eq, not_true_eq_false, if_false,
      Result.map_value, actionsOf]
    funext i
    exact hreset hsuccess a ha i
  · have hrespond : provider.api.respond (.pcrReset provider.esys (pcrHandle index) esysTrPassword
        esysTrNone esysTrNone) w.backend = (.status rc, b) := by
      rw [EsysApi.respond, hanswer]
    simp only [EsysPcrProvider.statusResult, hsuccess, ne_eq, not_false_eq_true, if_true,
      Result.map_unexpected, actionsOf]
    exact Follows.nil tpm (tpm.registers_refused hrespond hsuccess hrc)

/-- An extend that succeeds measures its digests into its register, and one that fails was
refused. The bank finds exactly its own digests in the request. -/
theorem follows_extend (index : Index) {digests : List DigestValue} (w : World σ)
    (hdigests : ∀ d ∈ digests, d.WellFormed build) (ha : tpm.active a) (henabled : a.Enabled build)
    (hrc : RefusedByTpm
      (w.eventsSince (provider.perform (.extend index digests : ProviderOp build) w).2)) :
    tpm.Follows a w.backend
      (provider.perform (.extend index digests : ProviderOp build) w).2.backend
      (actionsOf (.extend index digests)
        (provider.perform (.extend index digests : ProviderOp build) w).1) := by
  have hstored : ∀ d ∈ digests, d.Stored build := fun d hd => (hdigests d hd).stored
  by_cases hvalid : provider.esys.isSome = true ∧ digests ≠ [] ∧
      (digests.map DigestValue.algorithm).Nodup
  swap
  · obtain ⟨e, hrun⟩ : (provider.extend build index digests).Rejects w :=
      EsysPcrProvider.extend_rejected w hstored hvalid
    simpa [EsysPcrProvider.perform, hrun, actionsOf] using Follows.nil tpm rfl
  obtain ⟨hesys, hcount⟩ := hvalid
  have hlength : digests.length ≤ 16 := EsysPcrProvider.length_le_of_map_nodup
    (fun d hd => (hdigests d hd).enabled) hcount.2
  rcases hanswer : provider.api.pcrExtend provider.esys (pcrHandle index) esysTrPassword
    esysTrNone esysTrNone (encodedDigests build digests) w.backend with ⟨rc, b⟩
  have hrun := EsysPcrProvider.extend_run w hstored hesys hcount hanswer
  simp only [EsysPcrProvider.perform, Program.map_apply, hrun, World.eventsSince_after,
    World.after_backend] at hrc ⊢
  by_cases hsuccess : rc = tss2RcSuccess
  · have hextend := tpm.extend_eq provider.esys index esysTrPassword esysTrNone esysTrNone
      (encodedDigests build digests) w.backend
    rw [hanswer] at hextend
    simp only [EsysPcrProvider.statusResult, hsuccess, ne_eq, not_true_eq_false, if_false,
      Result.map_value, actionsOf]
    funext i
    refine (hextend hsuccess a ha i).trans ?_
    rw [bankDigests_encodedDigests henabled hlength hdigests]
    rfl
  · have hrespond : provider.api.respond (.pcrExtend provider.esys (pcrHandle index)
        esysTrPassword esysTrNone esysTrNone (encodedDigests build digests)) w.backend =
          (.status rc, b) := by
      rw [EsysApi.respond, hanswer]
    simp only [EsysPcrProvider.statusResult, hsuccess, ne_eq, not_false_eq_true, if_true,
      Result.map_unexpected, actionsOf]
    exact Follows.nil tpm (tpm.registers_refused hrespond hsuccess hrc)

/-- What an accepted response makes of an event. -/
theorem eventResult_of_known {answer : EventAnswer} {t : TpmlDigestValues}
    (hrc : answer.rc = tss2RcSuccess) (ht : answer.digests = some t) (hcount : t.count.toNat ≤ 16)
    (hknown : ∀ entry ∈ t.entries,
      EnabledId build entry.hashAlg ∨ DisabledSha1Id build entry.hashAlg) :
    EsysPcrProvider.eventResult build answer = .value ⟨domainDigests build t t.count.toNat⟩ := by
  have haccepts : AcceptsDigests build t := by
    refine ⟨hcount, fun i hi hlt => hknown _ ?_⟩
    have hlength : i < t.entries.length := by simpa [TpmlDigestValues.entries, hi] using hlt
    have hget : t.digests[i] = t.entries[i] := by simp [TpmlDigestValues.entries]
    rw [hget]
    exact List.getElem_mem hlength
  rcases toDomainDigests_exact build t with ⟨_, hrun⟩ | ⟨hrefused, _⟩
  · simp [EsysPcrProvider.eventResult, hrc, ht, hrun]
  · exact absurd haccepts hrefused

/-- An answer that was accepted carries digests, and these are returned. -/
theorem of_eventResult_eq_value {answer : EventAnswer} {result : EventResult}
    (h : EsysPcrProvider.eventResult build answer = .value result) :
    answer.rc = tss2RcSuccess ∧
      ∃ t, answer.digests = some t ∧ result = ⟨domainDigests build t t.count.toNat⟩ := by
  unfold EsysPcrProvider.eventResult at h
  split at h
  next => cases h
  next hrc =>
    refine ⟨not_not.mp hrc, ?_⟩
    split at h
    next => cases h
    next t ht =>
      rcases toDomainDigests_exact build t with ⟨_, hdigests⟩ | ⟨_, e, hrefused⟩
      · rw [hdigests] at h
        cases h
        exact ⟨t, ht, rfl⟩
      · rw [hrefused] at h
        cases h

/-- An event that returned its digests was measured with them. -/
theorem follows_measured {index : Index} {eventData : List UInt8} {w : World σ}
    {result : EventResult} (h : (provider.event build index eventData w).1 = .value result)
    (ha : tpm.active a) (henabled : a.Enabled build) :
    tpm.Follows a w.backend (provider.event build index eventData w).2.backend
      [.measure index (result.digests.map DigestValue.entry)] := by
  by_cases hvalid : provider.esys.isSome = true ∧ eventData.length ≤ 1024
  swap
  · obtain ⟨e, hrun⟩ : (provider.event build index eventData).Rejects w :=
      EsysPcrProvider.event_rejected w hvalid
    rw [hrun] at h
    cases h
  obtain ⟨hesys, hsize⟩ := hvalid
  rcases hanswer : provider.api.pcrEvent provider.esys (pcrHandle index) esysTrPassword esysTrNone
    esysTrNone (encodedEvent eventData) w.backend with ⟨answer, b⟩
  have hrun : provider.event build index eventData w = _ :=
    EsysPcrProvider.event_run w hesys hsize hanswer
  rw [hrun] at h ⊢
  obtain ⟨hsuccess, t, ht, rfl⟩ := of_eventResult_eq_value h
  have hevent := tpm.event_eq provider.esys index esysTrPassword esysTrNone esysTrNone
    (encodedEvent eventData) w.backend
  rw [hanswer] at hevent
  obtain ⟨t', ht', _, hbanks⟩ := hevent hsuccess
  obtain rfl : t = t' := Option.some.inj (ht.symm.trans ht')
  obtain ⟨hdigest, hregisters⟩ := hbanks a ha
  funext i
  rw [World.after_backend, tpm.registers_freed]
  refine (hregisters i).trans ?_
  simp only [Rule.run, List.foldl_cons, List.foldl_nil, Rule.act,
    digestsOf_domainDigests henabled, hdigest]
  rfl

/-- An event that succeeds measures the hash of its data. One that was measured returns its
digests: the banks of the TPM are known, so the answer is accepted and no measurement is lost to
an error. -/
theorem follows_event (index : Index) (eventData : List UInt8) (w : World σ)
    (hknown : KnownBanks build provider.api) (ha : tpm.active a) (henabled : a.Enabled build)
    (hrc : RefusedByTpm
      (w.eventsSince (provider.perform (.event index eventData : ProviderOp build) w).2)) :
    tpm.Follows a w.backend
      (provider.perform (.event index eventData : ProviderOp build) w).2.backend
      (actionsOf (.event index eventData)
        (provider.perform (.event index eventData : ProviderOp build) w).1) := by
  by_cases hvalid : provider.esys.isSome = true ∧ eventData.length ≤ 1024
  swap
  · obtain ⟨e, hrun⟩ : (provider.event build index eventData).Rejects w :=
      EsysPcrProvider.event_rejected w hvalid
    simpa [EsysPcrProvider.perform, hrun, actionsOf] using Follows.nil tpm rfl
  obtain ⟨hesys, hsize⟩ := hvalid
  rcases hanswer : provider.api.pcrEvent provider.esys (pcrHandle index) esysTrPassword esysTrNone
    esysTrNone (encodedEvent eventData) w.backend with ⟨answer, b⟩
  have hrun : provider.event build index eventData w = _ :=
    EsysPcrProvider.event_run w hesys hsize hanswer
  by_cases hsuccess : answer.rc = tss2RcSuccess
  · -- with known banks the answer is accepted
    have hevent := tpm.event_eq provider.esys index esysTrPassword esysTrNone esysTrNone
      (encodedEvent eventData) w.backend
    have hentries := hknown provider.esys (pcrHandle index) esysTrPassword esysTrNone esysTrNone
      (encodedEvent eventData) w.backend
    rw [hanswer] at hevent hentries
    obtain ⟨t, ht, hcount, _⟩ := hevent hsuccess
    have hresult : (provider.event build index eventData w).1 =
        .value ⟨domainDigests build t t.count.toNat⟩ := by
      rw [hrun]
      exact eventResult_of_known hsuccess ht hcount (hentries t ht)
    simp only [EsysPcrProvider.perform, Program.map_apply, hresult, Result.map_value, actionsOf]
    exact tpm.follows_measured hresult ha henabled
  · simp only [EsysPcrProvider.perform, Program.map_apply, hrun, World.eventsSince_after,
      World.after_backend] at hrc ⊢
    have hrespond : provider.api.respond (.pcrEvent provider.esys (pcrHandle index)
        esysTrPassword esysTrNone esysTrNone (encodedEvent eventData)) w.backend =
          (.event answer, b) := by
      rw [EsysApi.respond, hanswer]
    simp only [EsysPcrProvider.eventResult, hsuccess, ne_eq, not_false_eq_true, if_true,
      Result.map_unexpected, actionsOf]
    apply Follows.nil tpm
    rw [tpm.registers_freed]
    exact tpm.registers_refused hrespond hsuccess hrc

/-- **One operation.**  The registers of an active bank go through the actions
that the operation reports. -/
theorem follows_perform (op : ProviderOp build) (w : World σ) (hop : op.WellFormed)
    (hknown : KnownBanks build provider.api) (ha : tpm.active a) (henabled : a.Enabled build)
    (hrc : RefusedByTpm (w.eventsSince (provider.perform op w).2)) :
    tpm.Follows a w.backend (provider.perform op w).2.backend
      (actionsOf op (provider.perform op w).1) := by
  have hquiet : op.measures = false → (∀ result, actionsOf op result = []) →
      tpm.Follows a w.backend (provider.perform op w).2.backend
        (actionsOf op (provider.perform op w).1) := by
    intro hop hactions
    rw [hactions]
    apply Follows.nil tpm
    apply tpm.follows_quiet op w
    intro prepared hprepare c hc
    exact (of_prepare_eq_value hprepare c hc).2.trans hop
  cases op with
  | event index eventData => exact tpm.follows_event index eventData w hknown ha henabled hrc
  | extend index digests => exact tpm.follows_extend index w hop ha henabled hrc
  | reset index => exact tpm.follows_reset index w ha hrc
  | _ => exact hquiet rfl fun _ => rfl

end MeasuringTpm

/-! ## Whole runs -/

/-- A run only adds to what was seen. -/
theorem series_after (provider : EsysPcrProvider σ) (ops : List (ProviderOp build)) (w : World σ) :
    ∃ b events, (Program.series provider.perform ops w).2 = w.after b events := by
  induction ops generalizing w with
  | nil => exact ⟨w.backend, [], by simp⟩
  | cons op ops ih =>
      obtain ⟨b, events, hfirst, _⟩ := perform_observed provider op w
      obtain ⟨b', events', hrest⟩ := ih (provider.perform op w).2
      refine ⟨b', events ++ events', ?_⟩
      rw [Program.series_cons, hrest, hfirst, World.after_after]

/-- What a run did to the registers. -/
def runActions (ops : List (ProviderOp build)) (results : List (Outcome (ProviderValue build))) :
    List PcrAction :=
  (ops.zip results).flatMap fun entry => actionsOf entry.1 entry.2

/-- The registers of an active bank go through what the run reports. -/
theorem MeasuringTpm.follows_series {provider : EsysPcrProvider σ}
    (tpm : MeasuringTpm provider.api) (hknown : KnownBanks build provider.api)
    {ops : List (ProviderOp build)} (hops : ∀ op ∈ ops, op.WellFormed) {a : HashAlgorithm}
    (ha : tpm.active a) (henabled : a.Enabled build) (w : World σ)
    (hrc : RefusedByTpm (w.eventsSince (Program.series provider.perform ops w).2)) :
    tpm.Follows a w.backend (Program.series provider.perform ops w).2.backend
      (runActions ops (Program.series provider.perform ops w).1) := by
  induction ops generalizing w with
  | nil => exact Follows.nil tpm rfl
  | cons op ops ih =>
      obtain ⟨b, events, hfirst, _⟩ := perform_observed provider op w
      obtain ⟨b', events', hrest⟩ := series_after provider ops (provider.perform op w).2
      rw [Program.series_cons, hrest, hfirst, World.after_after, World.eventsSince_after] at hrc
      obtain ⟨hrcFirst, hrcRest⟩ := hrc.append
      have hstep := tpm.follows_perform op w (hops op List.mem_cons_self) hknown ha henabled
        (by rwa [hfirst, World.eventsSince_after])
      have hrun := ih (fun o ho => hops o (List.mem_cons_of_mem _ ho)) (provider.perform op w).2
        (by rwa [hrest, World.eventsSince_after])
      calc (tpm.registers (Program.series provider.perform (op :: ops) w).2.backend).digest a
          = tpm.rule.run (runActions ops (Program.series provider.perform ops
              (provider.perform op w).2).1)
              (tpm.registers (provider.perform op w).2.backend).digest a := hrun
        _ = tpm.rule.run (runActions ops (Program.series provider.perform ops
              (provider.perform op w).2).1)
              (tpm.rule.run (actionsOf op (provider.perform op w).1)
                (tpm.registers w.backend).digest) a := tpm.rule.run_congr hstep _
        _ = _ := by
          rw [← Rule.run_append]
          rfl

/-- **A register holds what was measured since its last reset.**  For every run of
operations whose digest values were not moved from, on a TPM that refuses what it
does not do: each register of an active bank holds the digests that the run
reports for it, folded in order onto its reset value, or onto its first value if
no reset succeeded. -/
theorem registers_of_run {provider : EsysPcrProvider σ} (tpm : MeasuringTpm provider.api)
    (hknown : KnownBanks build provider.api) {ops : List (ProviderOp build)}
    (hops : ∀ op ∈ ops, op.WellFormed) (w : World σ)
    (hrc : RefusedByTpm (w.eventsSince (Program.series provider.perform ops w).2))
    {a : HashAlgorithm} (ha : tpm.active a) (henabled : a.Enabled build) (index : Index) :
    let run := Program.series provider.perform ops w
    let past := history a index (runActions ops run.1)
    (tpm.registers run.2.backend).digest a index =
      past.digests.foldl (fun old digest => tpm.hash a (old ++ digest))
        (if past.wasReset then tpm.initial a index
          else (tpm.registers w.backend).digest a index) := by
  intro run past
  have hfollows := tpm.follows_series hknown hops ha henabled w hrc
  calc (tpm.registers run.2.backend).digest a index
      = tpm.rule.run (runActions ops run.1) (tpm.registers w.backend).digest a index :=
        congrFun hfollows index
    _ = _ := tpm.rule.run_eq_history _ _ a index

/-! ### A TPM with two banks -/

/-- A checksum of the bytes, padded to the size of a digest. -/
def foldedHash (a : HashAlgorithm) (data : List UInt8) : List UInt8 :=
  (data.foldl (fun sum byte => sum * 31 + byte + 1) 7 :: List.replicate a.size 0).take a.size

/-- A register of zeros. -/
def zeroRegister (a : HashAlgorithm) (_ : Index) : List UInt8 := List.replicate a.size 0

/-- The banks of SHA-1 and SHA-256. -/
def twoBanks (a : HashAlgorithm) : Bool := a = .sha1 || a = .sha256

/-- Folding digests onto a register keeps its length. -/
theorem length_chain_foldedHash {a : HashAlgorithm} (digests : List (List UInt8))
    {d : List UInt8} (hd : d.length = a.size) :
    ((pcrRule foldedHash zeroRegister).chain a digests d).length = a.size := by
  induction digests generalizing d with
  | nil => exact hd
  | cons digest digests ih =>
      apply ih
      simp [pcrRule, foldedHash]

/-- The register of an index, extended with some entries. -/
def PcrRegisters.extended (r : PcrRegisters) (index : Index) (entries : List TpmtHa) :
    PcrRegisters where
  digest a i :=
    if twoBanks a ∧ index = i then
      (pcrRule foldedHash zeroRegister).chain a (bankDigests a entries) (r.digest a i)
    else r.digest a i
  length_eq a i := by
    split
    · exact length_chain_foldedHash _ (r.length_eq a i)
    · exact r.length_eq a i

/-- The registers with one set to zeros in every bank. -/
def PcrRegisters.resetAt (r : PcrRegisters) (index : Index) : PcrRegisters where
  digest a i := if index = i then zeroRegister a i else r.digest a i
  length_eq a i := by
    split
    · simp [zeroRegister]
    · exact r.length_eq a i

/-- All registers at zero. -/
def zeroRegisters : PcrRegisters where
  digest := zeroRegister
  length_eq := by simp [zeroRegister]

/-- The register that a handle stands for. -/
def indexOfHandle (handle : EsysTr) : Index := Fin.ofNat 32 handle.toNat

@[simp] theorem indexOfHandle_pcrHandle (index : Index) :
    indexOfHandle (pcrHandle index) = index := by
  have hlt : index.val < 32 := index.isLt
  apply Fin.ext
  simp only [indexOfHandle, pcrHandle_toNat, Fin.val_ofNat]
  exact Nat.mod_eq_of_lt hlt

/-- The digests of an event, one for each bank. -/
def eventEntries (data : List UInt8) : List TpmtHa :=
  [⟨tpm2AlgSha1, overlay (foldedHash .sha1 data) TpmtHa.zeroed.digest⟩,
    ⟨tpm2AlgSha256, overlay (foldedHash .sha256 data) TpmtHa.zeroed.digest⟩]

/-- The answer to an event: the hash of its data for each of the two banks. -/
def eventDigests (data : List UInt8) : TpmlDigestValues :=
  ⟨2, overlay (eventEntries data) TpmlDigestValues.zeroed.digests⟩

/-- Its entries are those two. -/
theorem entries_eventDigests (data : List UInt8) :
    (eventDigests data).entries = eventEntries data := by
  have hlength : (eventEntries data).length ≤ 16 := by simp [eventEntries]
  exact take_overlay hlength

/-- Each bank finds its own. -/
theorem bankDigests_eventEntries {a : HashAlgorithm} (ha : twoBanks a = true)
    (data : List UInt8) : bankDigests a (eventEntries data) = [foldedHash a data] := by
  have htake : ∀ a : HashAlgorithm, ((overlay (foldedHash a data)
      TpmtHa.zeroed.digest).toList.take a.size) = foldedHash a data := by
    intro a
    have hlength : (foldedHash a data).length = a.size := by simp [foldedHash]
    rw [← hlength]
    exact take_overlay (hlength ▸ a.size_le)
  have hbanks : a = .sha1 ∨ a = .sha256 := by simpa [twoBanks] using ha
  rcases hbanks with rfl | rfl
  · simp [bankDigests, eventEntries, bankId, tpm2AlgSha1, tpm2AlgSha256, htake]
  · simp [bankDigests, eventEntries, bankId, tpm2AlgSha1, tpm2AlgSha256, htake]

/-- It echoes a selection of at most eight registers, and reports none of a
larger one. -/
def PcrRegisters.answer (r : PcrRegisters) (t : TpmlPcrSelection) : ReadAnswer :=
  let a := if t.first.hash = tpm2AlgSha1 then HashAlgorithm.sha1 else .sha256
  { rc := tss2RcSuccess
    pcrUpdateCounter := 1
    pcrSelectionOut := some (if (selectedSet t.first).card ≤ 8 then t else .zeroed)
    pcrValues := some ⟨UInt32.ofNat (labelledPick t).card, Vector.ofFn fun k =>
      ⟨UInt16.ofNat a.size, overlay
        (r.digest a ((ascending (labelledPick t)).getD k.val Index.firmware0))
        (Vector.replicate 64 0)⟩⟩ }

/-- A backend over the two banks that does what it is told. -/
def twoBankApi : EsysApi PcrRegisters :=
  { EsysApi.inert with
    pcrEvent := fun _ handle _ _ _ eventData r =>
      (⟨tss2RcSuccess, some (eventDigests eventData.data)⟩,
        r.extended (indexOfHandle handle) (eventEntries eventData.data))
    pcrExtend := fun _ handle _ _ _ digests r =>
      (tss2RcSuccess, r.extended (indexOfHandle handle) digests.entries)
    pcrRead := fun _ _ _ _ t r => (r.answer t, r)
    pcrReset := fun _ handle _ _ _ r => (tss2RcSuccess, r.resetAt (indexOfHandle handle)) }

/-- Its answer to a read labels the registers that it reports. -/
theorem PcrRegisters.answer_reports (r : PcrRegisters) {t : TpmlPcrSelection} {a : HashAlgorithm}
    (ha : twoBanks a = true) (hcount : t.count = 1) (hhash : t.first.hash = bankId a)
    (hsize : t.first.sizeofSelect.toNat ≤ 4) :
    ReportsRegisters r a (labelledPick t) (r.answer t) := by
  have hcard := card_labelledPick_le t
  have hbanks : a = .sha1 ∨ a = .sha256 := by simpa [twoBanks] using ha
  have hbank : (if t.first.hash = tpm2AlgSha1 then HashAlgorithm.sha1 else .sha256) = a := by
    rcases hbanks with rfl | rfl
    · simp [hhash, bankId]
    · simp [hhash, bankId, tpm2AlgSha1, tpm2AlgSha256]
  refine ⟨rfl, ⟨_, rfl, ?_⟩, ⟨_, rfl, ?_, fun k hk hlt => ?_⟩⟩
  · by_cases hfits : (selectedSet t.first).card ≤ 8
    · rw [if_pos hfits, labelledPick, if_pos hfits]
      exact Or.inr ⟨hcount, hhash, hsize, selects_iff_mem_selectedSet hsize⟩
    · rw [if_neg hfits, labelledPick, if_neg hfits]
      exact Or.inl ⟨rfl, rfl⟩
  · simp only [UInt32.toNat_ofNat', Nat.reducePow]
    omega
  · have hget : (ascending (labelledPick t)).getD k Index.firmware0 =
        (ascending (labelledPick t))[k] := by
      rw [List.getD_eq_getElem?_getD, List.getElem?_eq_getElem hlt, Option.getD_some]
    have hlength := r.length_eq a (ascending (labelledPick t))[k]
    have hmax := a.size_le
    simp only [Vector.getElem_ofFn, hbank, hget, UInt16.toNat_ofNat']
    refine ⟨by omega, ?_⟩
    rw [← hlength]
    exact take_overlay (hlength ▸ hmax)

/-- A provider over it, with an observer. -/
def twoBankProvider : EsysPcrProvider PcrRegisters := ⟨twoBankApi, some ⟨0⟩, .noop, some ⟨0⟩⟩

/-- The world before the first command. -/
def twoBankWorld : World PcrRegisters := ⟨zeroRegisters, 1, []⟩

/-- It measures. -/
def twoBankTpm : MeasuringTpm twoBankProvider.api where
  hash := foldedHash
  initial := zeroRegister
  active a := twoBanks a = true
  registers r := r
  extend_eq := by
    intro esys index _ _ _ digests r _ a ha i
    simp [twoBankProvider, twoBankApi, PcrRegisters.extended, ha]
  event_eq := by
    intro esys index _ _ _ eventData r _
    have hcount : (eventDigests eventData.data).count.toNat ≤ 16 := (by decide : 2 ≤ 16)
    refine ⟨eventDigests eventData.data, rfl, hcount, fun a ha => ⟨?_, fun i => ?_⟩⟩
    · rw [entries_eventDigests, bankDigests_eventEntries ha]
    · simp [twoBankProvider, twoBankApi, PcrRegisters.extended, ha, bankDigests_eventEntries ha,
        Rule.chain, pcrRule]
  reset_eq := by
    intro esys index _ _ _ r _ a _ i
    simp [twoBankProvider, twoBankApi, PcrRegisters.resetAt]
  refused_eq := by
    intro request r hfails
    cases request <;> exact absurd rfl hfails
  quiet_eq := by
    intro request r hquiet
    cases request <;> first | rfl | cases hquiet
  free_eq _ _ := rfl
  read_reports := by
    intro esys t a r ha hcount hhash _ hsize _
    refine ⟨labelledPick t, card_labelledPick_le t, fun index hindex => ?_,
      r.answer_reports ha hcount hhash hsize⟩
    unfold labelledPick at hindex
    split at hindex
    · exact mem_selectedSet.mp hindex
    · simp at hindex

/-- Its banks are known to the library in every build. -/
theorem knownBanks_twoBankApi : KnownBanks build twoBankProvider.api := by
  intro esys handle _ _ _ eventData r t ht entry hentry
  obtain rfl : eventDigests eventData.data = t := Option.some.inj ht
  rw [entries_eventDigests] at hentry
  simp only [eventEntries, List.mem_cons, List.not_mem_nil, or_false] at hentry
  rcases hentry with rfl | rfl
  · cases hbuild : build.legacySha1PcrEnabled with
    | false => exact Or.inr ⟨hbuild, rfl⟩
    | true =>
        have hsha1 : HashAlgorithm.sha1.Enabled build := hbuild
        exact Or.inl ⟨.sha1, hsha1, (algorithmToTpm_eq_bankId hsha1).symm⟩
  · exact Or.inl ⟨.sha256, trivial, rfl⟩

/-- A measurement, a reset that discards it, and another measurement. -/
def resetOps : List (ProviderOp ⟨false⟩) :=
  [.event .debug [1, 2, 3], .reset .debug, .extend .debug [⟨.sha256, List.replicate 32 9⟩]]

theorem wellFormed_resetOps : ∀ op ∈ resetOps, op.WellFormed := by
  intro op hop
  simp only [resetOps, List.mem_cons, List.not_mem_nil, or_false] at hop
  rcases hop with rfl | rfl | rfl
  · trivial
  · trivial
  · intro d hd
    obtain rfl := List.mem_singleton.mp hd
    exact ⟨trivial, rfl⟩

theorem refusedByTpm_resetOps : RefusedByTpm (twoBankWorld.eventsSince
    (Program.series twoBankProvider.perform resetOps twoBankWorld).2) := by
  unfold RefusedByTpm
  decide +kernel

/-- Only the measurement after the reset counts. -/
theorem registers_of_run_two_banks :
    (Program.series twoBankProvider.perform resetOps twoBankWorld).2.backend.digest .sha256
        .debug =
      foldedHash .sha256 (List.replicate 32 0 ++ List.replicate 32 9) :=
  (registers_of_run twoBankTpm knownBanks_twoBankApi wellFormed_resetOps twoBankWorld
    refusedByTpm_resetOps (a := .sha256) rfl trivial .debug).trans (by decide +kernel)

end Tpmkit
