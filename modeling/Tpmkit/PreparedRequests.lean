import Tpmkit.ProviderExchange

/-!
# Prepared requests

When an operation passes its checks, and what its requests then look like from
outside: the names under which their failures are logged, and the algorithm
identifiers they carry.
-/

namespace Tpmkit

open Checked ByteStrings Pcr

variable {σ : Type} {build : BuildOptions}

/-! ## Identifiers on the wire -/

/-- The identifiers of the used entries. -/
def TpmlPcrSelection.ids (t : TpmlPcrSelection) : List TpmiAlgHash :=
  (t.pcrSelections.toList.take t.count.toNat).map TpmsPcrSelection.hash

/-- The identifiers of the used entries. -/
def TpmlDigestValues.ids (t : TpmlDigestValues) : List TpmiAlgHash :=
  (t.digests.toList.take t.count.toNat).map TpmtHa.hashAlg

/-- The algorithm identifiers that a request sends to the backend. -/
def EsysRequest.ids : EsysRequest → List TpmiAlgHash
  | .pcrAllocate _ _ _ _ _ allocation => allocation.ids
  | .pcrExtend _ _ _ _ _ digests => digests.ids
  | .pcrRead _ _ _ _ pcrSelectionIn => pcrSelectionIn.ids
  | .pcrSetAuthPolicy _ _ _ _ _ _ hashAlg _ => [hashAlg]
  | _ => []

/-- The first entry of a selection. -/
theorem TpmlPcrSelection.take_one (t : TpmlPcrSelection) :
    t.pcrSelections.toList.take 1 = [t.first] := by
  have hlength : 0 < t.pcrSelections.toList.length := by simp
  rw [List.take_succ_eq_append_getElem hlength]
  simp [TpmlPcrSelection.first]

/-- An algorithm of the build has an identifier of the build. -/
theorem enabledId_of_enabled {a : HashAlgorithm} (ha : a.Enabled build) :
    EnabledId build (algorithmToTpm build a) :=
  ⟨a, ha, rfl⟩

/-- An allocation names the banks that it was asked for. -/
theorem ids_encodedAllocation {banks : List (Bank build)} (h : banks.length ≤ 16) :
    (encodedAllocation build banks).ids =
      banks.map fun bank => algorithmToTpm build bank.algorithm := by
  have hcount : (encodedAllocation build banks).count.toNat = banks.length :=
    (imageOfBanks_encodedAllocation h).count_eq
  have htake : (encodedAllocation build banks).pcrSelections.toList.take banks.length =
      banks.map (encodedBank build) := by
    have hlength : (banks.map (encodedBank build)).length ≤ 16 := by simpa using h
    have hread : (overlay (banks.map (encodedBank build))
        TpmlPcrSelection.zeroed.pcrSelections).toList.take (banks.map (encodedBank build)).length =
          banks.map (encodedBank build) := take_overlay hlength
    simpa [encodedAllocation] using hread
  rw [TpmlPcrSelection.ids, hcount, htake, List.map_map]
  rfl

/-- An extend names the algorithms of its digests. -/
theorem ids_encodedDigests {digests : List DigestValue} (h : digests.length ≤ 16) :
    (encodedDigests build digests).ids =
      digests.map fun d => algorithmToTpm build d.algorithm := by
  have htake : (encodedDigests build digests).digests.toList.take digests.length =
      digests.map (encodedDigest build) := by
    have hlength : (digests.map (encodedDigest build)).length ≤ 16 := by simpa using h
    have hread : (overlay (digests.map (encodedDigest build))
        TpmlDigestValues.zeroed.digests).toList.take (digests.map (encodedDigest build)).length =
          digests.map (encodedDigest build) := take_overlay hlength
    simpa [encodedDigests] using hread
  rw [TpmlDigestValues.ids, encodedDigests_count h, htake, List.map_map]
  rfl

/-- A read names the bank of its selection. -/
theorem EncodesSelection.ids_eq {selection : Selection build} {t : TpmlPcrSelection}
    (h : EncodesSelection selection t) : t.ids = [algorithmToTpm build selection.algorithm] := by
  have hcount : t.count.toNat = 1 := by
    rw [h.count_eq]
    rfl
  rw [TpmlPcrSelection.ids, hcount, t.take_one, List.map_singleton, h.hash_eq]

/-! ## The operations from outside -/

namespace ProviderOp

/-- The digest values were built by their constructor, whether or not they were
moved from later. -/
def Stored : ProviderOp build → Prop
  | .extend _ digests => ∀ d ∈ digests, d.Stored build
  | _ => True

/-- The names of the calls of an operation, in order. -/
def operations : ProviderOp build → List ByteString
  | .allocate _ => [ascii "pcr_allocate"]
  | .event _ _ => [ascii "pcr_event"]
  | .extend _ _ => [ascii "pcr_extend"]
  | .read _ => [ascii "pcr_read"]
  | .reset _ => [ascii "pcr_reset"]
  | .setAuthPolicy _ _ _ => [ascii "pcr_set_auth_policy"]
  | .setAuthValue _ _ => [ascii "pcr_set_auth_value_set_current_auth",
      ascii "pcr_set_auth_value", ascii "pcr_set_auth_value_update_current_auth"]

/-- The operation passes its checks at a provider with this context. -/
def Admitted (esys : Option EsysContext) : ProviderOp build → Prop
  | .allocate banks => esys.isSome = true ∧ banks ≠ [] ∧ (banks.map Bank.algorithm).Nodup
  | .event _ eventData => esys.isSome = true ∧ eventData.length ≤ 1024
  | .extend _ digests =>
      esys.isSome = true ∧ digests ≠ [] ∧ (digests.map DigestValue.algorithm).Nodup
  | .read _ => esys.isSome = true
  | .reset _ => esys.isSome = true
  | .setAuthPolicy _ policyAlg policyDigest =>
      esys.isSome = true ∧ policyAlg.Enabled build ∧ policyDigest.length = policyAlg.size
  | .setAuthValue _ auth => esys.isSome = true ∧ auth = []

end ProviderOp

/-- The preparation passes exactly when `p` holds, with calls of these names that
carry identifiers of enabled algorithms only. -/
def Prepares (build : BuildOptions) (x : Outcome (Call × List Call)) (p : Prop)
    (operations : List ByteString) : Prop :=
  (p ∧ ∃ call rest, x = .value (call, rest) ∧ (call :: rest).map Call.operation = operations ∧
    ∀ c ∈ call :: rest, ∀ id ∈ c.request.ids, EnabledId build id) ∨
  (¬p ∧ ∃ e, x = .unexpected e)

/-- A check in front of a preparation. -/
theorem Prepares.guard {check : Outcome Unit} {p q : Prop} {rest : Unit → Outcome (Call × List Call)}
    {operations : List ByteString} (hcheck : check.Decides p)
    (hrest : p → Prepares build (rest ()) q operations) :
    Prepares build (check >>= rest) (p ∧ q) operations := by
  by_cases hp : p
  · rw [hcheck.of_holds hp, Result.value_bind]
    exact (hrest hp).imp (fun h => ⟨⟨hp, h.1⟩, h.2⟩) fun h => ⟨fun hpq => h.1 hpq.2, h.2⟩
  · obtain ⟨e, he⟩ := hcheck.of_not hp
    exact Or.inr ⟨fun hpq => hp hpq.1, e, by rw [he, Result.unexpected_bind]⟩

/-- The last check, in front of calls that are at hand. -/
theorem Prepares.send {check : Outcome Unit} {p : Prop} {calls : Call × List Call}
    {operations : List ByteString} (hcheck : check.Decides p)
    (hnames : (calls.1 :: calls.2).map Call.operation = operations)
    (hids : p → ∀ c ∈ calls.1 :: calls.2, ∀ id ∈ c.request.ids, EnabledId build id) :
    Prepares build (check >>= fun _ => pure calls) p operations := by
  by_cases hp : p
  · exact Or.inl ⟨hp, calls.1, calls.2, by rw [hcheck.of_holds hp]; rfl, hnames, hids hp⟩
  · obtain ⟨e, he⟩ := hcheck.of_not hp
    exact Or.inr ⟨hp, e, by rw [he, Result.unexpected_bind]⟩

/-- The last check, in front of an encoder that then cannot fail. -/
theorem Prepares.encode {τ : Type} {check : Outcome Unit} {p : Prop} {encode : Outcome τ}
    {t : τ} {calls : τ → Call × List Call} {operations : List ByteString}
    (hcheck : check.Decides p) (hencode : p → encode = .value t)
    (hnames : ((calls t).1 :: (calls t).2).map Call.operation = operations)
    (hids : p → ∀ c ∈ (calls t).1 :: (calls t).2, ∀ id ∈ c.request.ids, EnabledId build id) :
    Prepares build (check >>= fun _ => encode >>= fun t => pure (calls t)) p operations := by
  by_cases hp : p
  · refine Or.inl ⟨hp, (calls t).1, (calls t).2, ?_, hnames, hids hp⟩
    rw [hcheck.of_holds hp, Result.value_bind, hencode hp]
    rfl
  · obtain ⟨e, he⟩ := hcheck.of_not hp
    exact Or.inr ⟨hp, e, by rw [he, Result.unexpected_bind]⟩

/-- The condition of a preparation can be put in other words. -/
theorem Prepares.congr {x : Outcome (Call × List Call)} {p q : Prop}
    {operations : List ByteString} (h : Prepares build x p operations) (hiff : p ↔ q) :
    Prepares build x q operations :=
  h.imp (fun hholds => ⟨hiff.mp hholds.1, hholds.2⟩)
    fun hnot => ⟨fun hq => hnot.1 (hiff.mpr hq), hnot.2⟩

/-- Distinct identifiers of enabled algorithms. -/
theorem enabledId_of_mem_map {τ : Type} {xs : List τ} {algorithm : τ → HashAlgorithm}
    (h : ∀ x ∈ xs, (algorithm x).Enabled build) :
    ∀ id ∈ xs.map fun x => algorithmToTpm build (algorithm x), EnabledId build id := by
  intro id hid
  obtain ⟨x, hx, rfl⟩ := List.mem_map.mp hid
  exact enabledId_of_enabled (h x hx)

/-- **When an operation passes its checks.** -/
theorem prepare_exact (provider : EsysPcrProvider σ) {op : ProviderOp build} (h : op.Stored) :
    Prepares build (provider.prepare op) (op.Admitted provider.esys) op.operations := by
  have hesys : (ensureEsysAvailable provider.esys).Decides (provider.esys.isSome = true) :=
    ensureEsysAvailable_decides provider.esys
  cases op with
  | allocate banks =>
      have hlength : (banks ≠ [] ∧ (banks.map Bank.algorithm).Nodup) → banks.length ≤ 16 :=
        fun hbanks =>
          EsysPcrProvider.length_le_of_map_nodup (fun bank _ => bank.enabled) hbanks.2
      refine .guard hesys fun _ => .encode (ensureBankCount_decides banks)
        (fun hbanks => toTpmAllocation_of_length (hlength hbanks)) rfl fun hbanks c hc => ?_
      obtain rfl := List.mem_singleton.mp hc
      rw [EsysRequest.ids, ids_encodedAllocation (hlength hbanks)]
      exact enabledId_of_mem_map fun bank _ => bank.enabled
  | event index eventData =>
      refine .guard hesys fun _ => .encode (ensureEventSize_decides eventData)
        (fun hsize => toTpmEvent_of_length hsize) rfl fun _ c hc => ?_
      obtain rfl := List.mem_singleton.mp hc
      simp [EsysRequest.ids]
  | extend index digests =>
      have hlength : (digests ≠ [] ∧ (digests.map DigestValue.algorithm).Nodup) →
          digests.length ≤ 16 := fun hcount =>
        EsysPcrProvider.length_le_of_map_nodup (fun d hd => (h d hd).enabled) hcount.2
      refine .guard hesys fun _ => .encode (ensureDigestCount_decides h)
        (fun hcount => toTpmDigestValues_of_stored (hlength hcount) h) rfl fun hcount c hc => ?_
      obtain rfl := List.mem_singleton.mp hc
      rw [EsysRequest.ids, ids_encodedDigests (hlength hcount)]
      exact enabledId_of_mem_map fun d hd => (h d hd).enabled
  | read selection =>
      obtain ⟨t, ht, hencodes⟩ := toTpmSelection_encodes selection
      refine .encode hesys (fun _ => ht) rfl fun _ c hc => ?_
      obtain rfl := List.mem_singleton.mp hc
      rw [EsysRequest.ids, hencodes.ids_eq]
      simpa using enabledId_of_enabled selection.enabled
  | reset index =>
      refine .send hesys rfl fun _ c hc => ?_
      obtain rfl := List.mem_singleton.mp hc
      simp [EsysRequest.ids]
  | setAuthPolicy index policyAlg policyDigest =>
      refine .guard hesys fun _ => .encode (ensurePolicyDigestSize_decides policyAlg policyDigest)
        (fun hpolicy => toTpmSizedDigest_of_length (hpolicy.2 ▸ policyAlg.size_le)) rfl
        fun hpolicy c hc => ?_
      obtain rfl := List.mem_singleton.mp hc
      simpa [EsysRequest.ids] using enabledId_of_enabled hpolicy.1
  | setAuthValue index auth =>
      refine (Prepares.guard hesys fun _ => Prepares.guard
        (ensureSizedBufferFits_decides auth.length _) fun hsize => Prepares.encode
        (ensureSecureAuthValueTransport_decides auth)
        (fun _ => toTpmSizedDigest_of_length hsize) rfl fun _ c hc => ?_).congr ?_
      · rcases List.mem_cons.mp hc with rfl | hc
        · simp [EsysRequest.ids]
        · rcases List.mem_cons.mp hc with rfl | hc
          · simp [EsysRequest.ids]
          · obtain rfl := List.mem_singleton.mp hc
            simp [EsysRequest.ids]
      · constructor
        · exact fun hall => ⟨hall.1, hall.2.2⟩
        · intro hadmitted
          obtain ⟨hsome, rfl⟩ := hadmitted
          exact ⟨hsome, Nat.zero_le 64, rfl⟩

/-! ## What the requests are calls on -/

/-- The ESYS context of a request. -/
def EsysRequest.esys : EsysRequest → Option EsysContext
  | .pcrAllocate esys _ _ _ _ _ => esys
  | .pcrEvent esys _ _ _ _ _ => esys
  | .pcrExtend esys _ _ _ _ _ => esys
  | .pcrRead esys _ _ _ _ => esys
  | .pcrReset esys _ _ _ _ => esys
  | .pcrSetAuthPolicy esys _ _ _ _ _ _ _ => esys
  | .pcrSetAuthValue esys _ _ _ _ _ => esys
  | .startup esys _ => esys
  | .trSetAuth esys _ _ => esys

/-- The requests that may change a register. -/
def EsysRequest.measures : EsysRequest → Bool
  | .pcrEvent .. => true
  | .pcrExtend .. => true
  | .pcrReset .. => true
  | _ => false

/-- The operations that may change a register. -/
def ProviderOp.measures : ProviderOp build → Bool
  | .event .. => true
  | .extend .. => true
  | .reset .. => true
  | _ => false

/-- An operation makes its calls on the context of its provider, and those that
change a register are the calls of an operation that may. -/
theorem of_prepare_eq_value {provider : EsysPcrProvider σ} {op : ProviderOp build}
    {prepared : Call × List Call} (h : provider.prepare op = .value prepared) :
    ∀ c ∈ prepared.1 :: prepared.2,
      c.request.esys = provider.esys ∧ c.request.measures = op.measures := by
  intro c hc
  cases op with
  | setAuthValue index auth =>
      obtain ⟨_, _, h⟩ := Result.bind_eq_value.mp h
      obtain ⟨_, _, h⟩ := Result.bind_eq_value.mp h
      obtain ⟨_, _, h⟩ := Result.bind_eq_value.mp h
      obtain ⟨_, _, h⟩ := Result.bind_eq_value.mp h
      cases h
      simp only [List.mem_cons, List.not_mem_nil, or_false] at hc
      rcases hc with rfl | rfl | rfl <;> exact ⟨rfl, rfl⟩
  | read selection =>
      obtain ⟨_, _, h⟩ := Result.bind_eq_value.mp h
      obtain ⟨_, _, h⟩ := Result.bind_eq_value.mp h
      cases h
      obtain rfl := List.mem_singleton.mp hc
      exact ⟨rfl, rfl⟩
  | reset index =>
      obtain ⟨_, _, h⟩ := Result.bind_eq_value.mp h
      cases h
      obtain rfl := List.mem_singleton.mp hc
      exact ⟨rfl, rfl⟩
  | _ =>
      obtain ⟨_, _, h⟩ := Result.bind_eq_value.mp h
      obtain ⟨_, _, h⟩ := Result.bind_eq_value.mp h
      obtain ⟨_, _, h⟩ := Result.bind_eq_value.mp h
      cases h
      obtain rfl := List.mem_singleton.mp hc
      exact ⟨rfl, rfl⟩

end Tpmkit
