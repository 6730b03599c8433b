import Tpmkit.PreparedRequests

/-!
# Logs and secrets

What the provider logs depends on public data alone: indices, algorithms,
lengths, return codes and the shape of the responses.  Two runs whose
operations and responses agree on these, and differ in the measured and secret
bytes however they like, produce the same records.  Runs that differ only in
the bytes of authorization values cannot be told apart at all.
-/

namespace Tpmkit

open Checked ByteStrings Pcr

variable {σ σ' : Type} {build : BuildOptions}

/-! ## Public data -/

/-- The operations agree on everything but measured and secret bytes. -/
def ProviderOp.SamePublic : ProviderOp build → ProviderOp build → Prop
  | .allocate banks, .allocate banks' => banks.map Bank.algorithm = banks'.map Bank.algorithm
  | .event index eventData, .event index' eventData' =>
      index = index' ∧ eventData.length = eventData'.length
  | .extend index digests, .extend index' digests' =>
      index = index' ∧ digests.map DigestValue.algorithm = digests'.map DigestValue.algorithm
  | .read selection, .read selection' => selection = selection'
  | .reset index, .reset index' => index = index'
  | .setAuthPolicy index policyAlg policyDigest, .setAuthPolicy index' policyAlg' policyDigest' =>
      index = index' ∧ policyAlg = policyAlg' ∧ policyDigest.length = policyDigest'.length
  | .setAuthValue index auth, .setAuthValue index' auth' =>
      index = index' ∧ auth.length = auth'.length
  | _, _ => False

/-- Both pointers are null, or both point to related structures. -/
def SamePointer {τ : Type} (related : τ → τ → Prop) : Option τ → Option τ → Prop
  | none, none => True
  | some t, some t' => related t t'
  | _, _ => False

/-- The used entries of a selection. -/
def TpmlPcrSelection.used (t : TpmlPcrSelection) : List TpmsPcrSelection :=
  t.pcrSelections.toList.take t.count.toNat

/-- The sizes of the used digests. -/
def TpmlDigest.sizes (t : TpmlDigest) : List UInt16 :=
  (t.digests.toList.take t.count.toNat).map Tpm2bDigest.size

/-- The responses agree on null pointers, counts, algorithm identifiers, sizes,
selected PCRs and the success of an allocation. -/
def Response.SameShape : Response → Response → Prop
  | .allocate answer, .allocate answer' =>
      answer.rc = answer'.rc ∧ answer.allocationSuccess = answer'.allocationSuccess
  | .event answer, .event answer' =>
      answer.rc = answer'.rc ∧
        SamePointer (fun t t' => t.count = t'.count ∧ t.ids = t'.ids) answer.digests answer'.digests
  | .read answer, .read answer' =>
      answer.rc = answer'.rc ∧
        SamePointer (fun t t' => t.count = t'.count ∧ t.used = t'.used)
          answer.pcrSelectionOut answer'.pcrSelectionOut ∧
        SamePointer (fun t t' => t.count = t'.count ∧ t.sizes = t'.sizes)
          answer.pcrValues answer'.pcrValues
  | .status rc, .status rc' => rc = rc'
  | _, _ => False

/-- The responses that an operation gets. -/
def EsysPcrProvider.responses (provider : EsysPcrProvider σ) (op : ProviderOp build)
    (w : World σ) : List Response :=
  match provider.prepare op with
  | .value (call, rest) => (provider.api.exchange call rest w.backend).calls.map Prod.snd
  | _ => []

/-! ## Public results -/

/-- The values agree on what is logged of them. -/
def ProviderValue.SameShape : ProviderValue build → ProviderValue build → Prop
  | .allocated result, .allocated result' => result.allocationSuccess = result'.allocationSuccess
  | .measured result, .measured result' => result.digests.length = result'.digests.length
  | .valuesRead result, .valuesRead result' =>
      result.actualSelection = result'.actualSelection ∧
        result.values.length = result'.values.length
  | .completed, .completed => True
  | _, _ => False

/-- Both calls return related values, or neither returns one. -/
def SameOutcome {τ : Type} (related : τ → τ → Prop) (x x' : Outcome τ) : Prop :=
  (∃ a a', x = .value a ∧ x' = .value a' ∧ related a a') ∨
    ((∀ a, x ≠ .value a) ∧ ∀ a, x' ≠ .value a)

section Outcomes

variable {τ ρ : Type} {related : τ → τ → Prop}

/-- Errors are compared by their kind alone. -/
theorem SameOutcome.of_unexpected {x x' : Outcome τ} {e e' : Error} (hx : x = .unexpected e)
    (hx' : x' = .unexpected e') : SameOutcome related x x' :=
  Or.inr ⟨by simp [hx], by simp [hx']⟩

/-- Two calls that succeed under the same condition. -/
theorem SameOutcome.of_exact {x x' : Outcome τ} {p p' : Prop} {a a' : τ}
    (hx : (p ∧ x = .value a) ∨ (¬p ∧ ∃ e, x = .unexpected e))
    (hx' : (p' ∧ x' = .value a') ∨ (¬p' ∧ ∃ e, x' = .unexpected e)) (hiff : p ↔ p')
    (hrelated : p → related a a') : SameOutcome related x x' := by
  rcases hx with ⟨hp, hx⟩ | ⟨hp, e, hx⟩ <;> rcases hx' with ⟨hp', hx'⟩ | ⟨hp', e', hx'⟩
  · exact Or.inl ⟨a, a', hx, hx', hrelated hp⟩
  · exact absurd (hiff.mp hp) hp'
  · exact absurd (hiff.mpr hp') hp
  · exact .of_unexpected hx hx'

/-- Related outcomes stay related under functions that keep the relation. -/
theorem SameOutcome.map {related' : ρ → ρ → Prop} {x x' : Outcome τ} {g g' : τ → ρ}
    (h : SameOutcome related x x') (hg : ∀ a a', related a a' → related' (g a) (g' a')) :
    SameOutcome related' (g <$> x) (g' <$> x') := by
  rcases h with ⟨a, a', rfl, rfl, hrelated⟩ | ⟨hx, hx'⟩
  · exact Or.inl ⟨g a, g' a', rfl, rfl, hg a a' hrelated⟩
  · refine Or.inr ⟨fun b hb => ?_, fun b hb => ?_⟩
    · obtain ⟨a, ha, _⟩ := Result.map_eq_value.mp hb
      exact hx a ha
    · obtain ⟨a, ha, _⟩ := Result.map_eq_value.mp hb
      exact hx' a ha

end Outcomes

/-! ### Event digests -/

/-- Whether the digests of an answer are accepted depends on their count and their identifiers
only. -/
theorem acceptsDigests_iff_ids {t : TpmlDigestValues} :
    AcceptsDigests build t ↔
      t.count.toNat ≤ 16 ∧ ∀ id ∈ t.ids, EnabledId build id ∨ DisabledSha1Id build id := by
  unfold AcceptsDigests
  refine and_congr_right fun hcount => ⟨fun h id hid => ?_, fun h i hi hused => ?_⟩
  · obtain ⟨entry, hentry, rfl⟩ := List.mem_map.mp hid
    obtain ⟨i, hi, rfl⟩ := List.getElem_of_mem hentry
    have hlt : i < t.count.toNat ∧ i < 16 := by simpa using hi
    simpa using h i hlt.2 hlt.1
  · refine h _ (List.mem_map.mpr ⟨t.digests[i], ?_, rfl⟩)
    refine List.mem_iff_getElem.mpr ⟨i, by simpa using ⟨hused, hi⟩, by simp⟩

/-- The algorithms of the digests that a list decodes to, from its identifiers. -/
theorem map_algorithm_domainDigests (t : TpmlDigestValues) :
    (domainDigests build t t.count.toNat).map DigestValue.algorithm =
      t.ids.filterMap fun id =>
        match algorithmFromTpm build id with
        | .value a => some a
        | _ => none := by
  rw [domainDigests, TpmlDigestValues.ids, List.map_filterMap, List.filterMap_map]
  refine List.filterMap_congr fun entry _ => ?_
  simp only [taggedDigest, Function.comp]
  split <;> simp_all

/-- So the same identifiers lead to outcomes of the same kind, with as many digests, whatever
the bytes are. -/
theorem toDomainDigests_sameOutcome {t t' : TpmlDigestValues} (hcount : t.count = t'.count)
    (hids : t.ids = t'.ids) :
    SameOutcome (fun digests digests' => digests.length = digests'.length)
      (toDomainDigests build t) (toDomainDigests build t') := by
  refine .of_exact (toDomainDigests_exact build t) (toDomainDigests_exact build t') ?_ fun _ => ?_
  · rw [acceptsDigests_iff_ids, acceptsDigests_iff_ids, hcount, hids]
  · have halgorithms : (domainDigests build t t.count.toNat).map DigestValue.algorithm =
        (domainDigests build t' t'.count.toNat).map DigestValue.algorithm := by
      rw [map_algorithm_domainDigests, map_algorithm_domainDigests, hids]
    simpa using congrArg List.length halgorithms

/-! ### Read responses -/

/-- A selection is parsed from its used entries; the rest of the array does not matter. -/
theorem toDomainSelection_congr {t t' : TpmlPcrSelection} (hcount : t.count = t'.count)
    (hused : t.used = t'.used) (fallback : HashAlgorithm) :
    toDomainSelection build t fallback = toDomainSelection build t' fallback := by
  by_cases hone : t.count = 1
  · have hfirst : t.first = t'.first := by
      have hone' : t'.count = 1 := hcount ▸ hone
      rw [TpmlPcrSelection.used, TpmlPcrSelection.used, hone, hone'] at hused
      exact (List.cons.inj (t.take_one ▸ t'.take_one ▸ hused)).1
    simp only [toDomainSelection, ← hcount, readAt_of_lt (Nat.zero_lt_succ 15)]
    simp only [TpmlPcrSelection.first] at hfirst
    rw [hfirst]
  · simp only [toDomainSelection, ← hcount, hone, ne_eq, not_false_eq_true, if_true]

/-- Whether the values of a read are accepted depends on their count and their sizes only. -/
theorem acceptsValues_iff_sizes {values : TpmlDigest} {selection : Selection build} :
    AcceptsValues build values selection ↔
      values.count.toNat ≤ 8 ∧ values.count.toNat = selection.indices.card ∧
        ∀ size ∈ values.sizes, digestSize build selection.algorithm = .value size.toNat := by
  unfold AcceptsValues
  refine and_congr_right fun hcount => and_congr_right fun hcard =>
    ⟨fun h size hsize => ?_, fun h i hi hused => ?_⟩
  · obtain ⟨digest, hdigest, rfl⟩ := List.mem_map.mp hsize
    obtain ⟨i, hi, rfl⟩ := List.getElem_of_mem hdigest
    have hlt : i < values.count.toNat ∧ i < 8 := by simpa using hi
    simpa using h i hlt.2 hlt.1
  · refine h _ (List.mem_map.mpr ⟨values.digests[i], ?_, rfl⟩)
    refine List.mem_iff_getElem.mpr ⟨i, by simpa using ⟨hused, hi⟩, by simp⟩

/-- So the same sizes lead to outcomes of the same kind, with as many values. -/
theorem toDomainReadValues_sameOutcome {values values' : TpmlDigest}
    (hcount : values.count = values'.count) (hsizes : values.sizes = values'.sizes)
    (selection : Selection build) :
    SameOutcome (fun read read' => read.length = read'.length)
      (toDomainReadValues build values selection)
      (toDomainReadValues build values' selection) := by
  refine .of_exact (toDomainReadValues_exact values selection)
    (toDomainReadValues_exact values' selection) ?_ fun haccepts => ?_
  · rw [acceptsValues_iff_sizes, acceptsValues_iff_sizes, hcount, hsizes]
  · have hcard : selection.indices.card ≤ 8 := haccepts.2.1 ▸ haccepts.1
    rw [length_readValues hcard, length_readValues hcard]

/-! ### Results of operations -/

/-- Answers of one shape have one return code. -/
theorem Response.SameShape.rc_eq {response response' : Response}
    (h : response.SameShape response') : response.rc = response'.rc := by
  cases response <;> cases response' <;> simp only [SameShape] at h
  · exact h.1
  · exact h.1
  · exact h.1
  · exact h

/-- A return code has one outcome. -/
theorem statusResult_sameOutcome (rc : TssRc) :
    SameOutcome ProviderValue.SameShape
      ((fun _ => (.completed : ProviderValue build)) <$> EsysPcrProvider.statusResult rc)
      ((fun _ => .completed) <$> EsysPcrProvider.statusResult rc) := by
  unfold EsysPcrProvider.statusResult
  split
  · exact .of_unexpected rfl rfl
  · exact Or.inl ⟨_, _, rfl, rfl, trivial⟩

/-- Allocations answered alike report the same success. -/
theorem allocateResult_sameOutcome {answer answer' : AllocateAnswer}
    (h : (Response.allocate answer).SameShape (.allocate answer')) :
    SameOutcome (fun result result' => result.allocationSuccess = result'.allocationSuccess)
      (EsysPcrProvider.allocateResult answer) (EsysPcrProvider.allocateResult answer') := by
  obtain ⟨hrc, hsuccess⟩ := h
  unfold EsysPcrProvider.allocateResult
  rw [hrc]
  split
  · exact .of_unexpected rfl rfl
  · exact Or.inl ⟨_, _, rfl, rfl, by rw [hsuccess]⟩

/-- Events answered alike end alike, with as many digests. -/
theorem eventResult_sameOutcome {answer answer' : EventAnswer}
    (h : (Response.event answer).SameShape (.event answer')) :
    SameOutcome (fun result result' => result.digests.length = result'.digests.length)
      (EsysPcrProvider.eventResult build answer)
      (EsysPcrProvider.eventResult build answer') := by
  obtain ⟨rc, pointer⟩ := answer
  obtain ⟨rc', pointer'⟩ := answer'
  obtain ⟨rfl, hpointer⟩ : rc = rc' ∧ _ := h
  by_cases hrc : rc = tss2RcSuccess
  · rcases pointer with _ | t <;> rcases pointer' with _ | t'
    · simp only [EsysPcrProvider.eventResult, hrc]
      exact .of_unexpected rfl rfl
    · exact hpointer.elim
    · exact hpointer.elim
    · obtain ⟨hcount, hids⟩ := hpointer
      simp only [EsysPcrProvider.eventResult, hrc, ne_eq, not_true_eq_false, if_false]
      exact (toDomainDigests_sameOutcome hcount hids).map fun _ _ hlength => hlength
  · simp only [EsysPcrProvider.eventResult, hrc, ne_eq, not_false_eq_true, if_true]
    exact .of_unexpected rfl rfl

/-- Reads answered alike end alike, with the same selection and as many values. -/
theorem readResult_sameOutcome {answer answer' : ReadAnswer} (selection : Selection build)
    (h : (Response.read answer).SameShape (.read answer')) :
    SameOutcome
      (fun result result' => result.actualSelection = result'.actualSelection ∧
        result.values.length = result'.values.length)
      (EsysPcrProvider.readResult build selection answer)
      (EsysPcrProvider.readResult build selection answer') := by
  obtain ⟨rc, counter, pointer, values⟩ := answer
  obtain ⟨rc', counter', pointer', values'⟩ := answer'
  obtain ⟨rfl, hpointer, hvalues⟩ : rc = rc' ∧ _ := h
  by_cases hrc : rc = tss2RcSuccess
  · rcases pointer with _ | t <;> rcases pointer' with _ | t'
    · simp only [EsysPcrProvider.readResult, hrc]
      exact .of_unexpected rfl rfl
    · exact hpointer.elim
    · exact hpointer.elim
    · rcases values with _ | v <;> rcases values' with _ | v'
      · simp only [EsysPcrProvider.readResult, hrc]
        exact .of_unexpected rfl rfl
      · exact hvalues.elim
      · exact hvalues.elim
      · simp only [EsysPcrProvider.readResult, hrc, ne_eq, not_true_eq_false, if_false]
        rw [toDomainSelection_congr hpointer.1 hpointer.2]
        cases toDomainSelection build t' selection.algorithm with
        | value domainSelection =>
            have hread := toDomainReadValues_sameOutcome hvalues.1 hvalues.2 domainSelection
            exact SameOutcome.map hread fun _ _ hlength => ⟨rfl, hlength⟩
        | unexpected e => exact .of_unexpected rfl rfl
        | fault f => exact Or.inr ⟨fun _ h => (by cases h), fun _ h => (by cases h)⟩
  · simp only [EsysPcrProvider.readResult, hrc, ne_eq, not_false_eq_true, if_true]
    exact .of_unexpected rfl rfl

/-- What an operation returns has the shape that public data gives it. -/
theorem conclude_sameOutcome {op op' : ProviderOp build} (hop : op.SamePublic op')
    {response response' : Response} (h : response.SameShape response') :
    SameOutcome ProviderValue.SameShape (EsysPcrProvider.conclude op response)
      (EsysPcrProvider.conclude op' response') := by
  -- a response of another kind gives no more than its status
  have hstatus : SameOutcome ProviderValue.SameShape
      ((fun _ => (.completed : ProviderValue build)) <$>
        EsysPcrProvider.statusResult response.rc)
      ((fun _ => .completed) <$> EsysPcrProvider.statusResult response'.rc) := by
    rw [h.rc_eq]
    exact statusResult_sameOutcome response'.rc
  cases op <;> cases op' <;> try exact hop.elim
  case allocate banks banks' =>
    cases response <;> cases response' <;> first | exact h.elim | skip
    case allocate => exact (allocateResult_sameOutcome h).map fun _ _ hsuccess => hsuccess
    all_goals exact hstatus
  case event =>
    cases response <;> cases response' <;> first | exact h.elim | skip
    case event => exact (eventResult_sameOutcome h).map fun _ _ hlength => hlength
    all_goals exact hstatus
  case read selection selection' =>
    obtain rfl : selection = selection' := hop
    cases response <;> cases response' <;> first | exact h.elim | skip
    case read => exact (readResult_sameOutcome selection h).map fun _ _ hread => hread
    all_goals exact hstatus
  all_goals exact hstatus

/-! ## Records -/

section Announcements

variable (provider : EsysPcrProvider σ) (provider' : EsysPcrProvider σ')

/-- The observer is no logger. -/
@[simp] theorem records_notify_onEvent (index : Index) (eventData : List UInt8)
    (result : EventResult) :
    records (provider.notifyEvents fun observer => .onEvent observer index eventData result) =
      [] := by
  cases hobserver : provider.observer <;> simp [EsysPcrProvider.notifyEvents, hobserver]

/-- Calling the observer logs nothing. -/
@[simp] theorem records_notify_onExtend (index : Index) (digests : List DigestValue) :
    records (provider.notifyEvents fun observer => .onExtend observer index digests) = [] := by
  cases hobserver : provider.observer <;> simp [EsysPcrProvider.notifyEvents, hobserver]

/-- The record of a failure quotes its code and names its call. -/
theorem records_tssErrorEvents_congr (hdecode : provider.api.decodeError = provider'.api.decodeError)
    (rc : TssRc) (operation : ByteString) :
    records (provider.tssErrorEvents rc operation) =
      records (provider'.tssErrorEvents rc operation) := by
  rw [EsysPcrProvider.tssErrorEvents, EsysPcrProvider.tssErrorEvents, hdecode,
    failureEvents_some, failureEvents_some]
  rfl

/-- The record of a success quotes the shape of its value. -/
theorem records_completedEvents_congr {op op' : ProviderOp build} (hop : op.SamePublic op')
    {value value' : ProviderValue build} (hvalue : value.SameShape value') :
    records (provider.completedEvents op value) =
      records (provider'.completedEvents op' value') := by
  cases op <;> cases op' <;> try exact hop.elim
  case allocate.allocate banks banks' =>
    have hlength : banks.length = banks'.length := by simpa using congrArg List.length hop
    cases value <;> cases value' <;> try exact hvalue.elim
    case allocated.allocated result result' =>
      have hsuccess : result.allocationSuccess = result'.allocationSuccess := hvalue
      simp [EsysPcrProvider.completedEvents, hlength, hsuccess]
    all_goals rfl
  case event.event index eventData index' eventData' =>
    obtain ⟨rfl, hsize⟩ : index = index' ∧ eventData.length = eventData'.length := hop
    cases value <;> cases value' <;> try exact hvalue.elim
    case measured.measured result result' =>
      have hcount : result.digests.length = result'.digests.length := hvalue
      simp [EsysPcrProvider.completedEvents, hsize, hcount]
    all_goals rfl
  case extend.extend index digests index' digests' =>
    obtain ⟨rfl, halgorithms⟩ : index = index' ∧ _ := hop
    have hlength : digests.length = digests'.length := by
      simpa using congrArg List.length halgorithms
    simp [EsysPcrProvider.completedEvents, hlength]
  case read.read =>
    cases value <;> cases value' <;> try exact hvalue.elim
    case valuesRead.valuesRead result result' =>
      obtain ⟨hselection, hcount⟩ : result.actualSelection = result'.actualSelection ∧ _ := hvalue
      simp [EsysPcrProvider.completedEvents, hselection, hcount]
    all_goals rfl
  case reset.reset index index' =>
    obtain rfl : index = index' := hop
    rfl
  case setAuthPolicy.setAuthPolicy index policyAlg _ index' policyAlg' _ =>
    obtain ⟨rfl, rfl, _⟩ : index = index' ∧ policyAlg = policyAlg' ∧ _ := hop
    rfl
  case setAuthValue.setAuthValue index _ index' _ =>
    obtain ⟨rfl, _⟩ : index = index' ∧ _ := hop
    rfl

/-- What an operation announces quotes public data only. -/
theorem records_announce_congr (hdecode : provider.api.decodeError = provider'.api.decodeError)
    {op op' : ProviderOp build} (hop : op.SamePublic op') {last last' : AnsweredCall}
    (hoperation : last.1.operation = last'.1.operation) (hresponse : last.2.SameShape last'.2) :
    records (provider.announce op last) = records (provider'.announce op' last') := by
  have hrc : last.2.rc = last'.2.rc := hresponse.rc_eq
  by_cases hsuccess : last.2.rc = tss2RcSuccess
  · rw [provider.announce_success op hsuccess, provider'.announce_success op' (hrc ▸ hsuccess)]
    rcases conclude_sameOutcome hop hresponse with ⟨value, value', h, h', hvalue⟩ | ⟨h, h'⟩
    · rw [h, h']
      exact records_completedEvents_congr provider provider' hop hvalue
    · rw [provider.resultEvents_of_ne_value op h, provider'.resultEvents_of_ne_value op' h']
  · rw [provider.announce_failure op hsuccess,
      provider'.announce_failure op' fun h => hsuccess (hrc.trans h), hrc, hoperation]
    exact records_tssErrorEvents_congr provider provider' hdecode _ _

end Announcements

/-! ## Exchanges -/

/-- The last answers of two exchanges that are answered alike have one shape. -/
theorem Exchange.last_sameShape {x : Exchange σ} {x' : Exchange σ'}
    (h : List.Forall₂ Response.SameShape (x.calls.map Prod.snd) (x'.calls.map Prod.snd)) :
    x.last.2.SameShape x'.last.2 := by
  have hreverse := List.forall₂_reverse_iff.mpr h
  rw [Exchange.calls, Exchange.calls] at hreverse
  simp only [List.map_append, List.map_cons, List.map_nil, List.reverse_append,
    List.reverse_singleton, List.singleton_append] at hreverse
  exact (List.forall₂_cons.mp hreverse).1

/-- Exchanges of the same length stop at calls of the same name. -/
theorem exchange_last_operation {api : EsysApi σ} {api' : EsysApi σ'} {call call' : Call}
    {rest rest' : List Call} {b : σ} {b' : σ'}
    (hnames : (call :: rest).map Call.operation = (call' :: rest').map Call.operation)
    (hlength : (api.exchange call rest b).calls.length =
      (api'.exchange call' rest' b').calls.length) :
    (api.exchange call rest b).last.1.operation = (api'.exchange call' rest' b').last.1.operation := by
  have hprefix := (api.exchange_prefix call rest b).map Call.operation
  have hprefix' := (api'.exchange_prefix call' rest' b').map Call.operation
  rw [← hnames] at hprefix'
  have hlength' : (((api.exchange call rest b).calls.map Prod.fst).map Call.operation).length =
      (((api'.exchange call' rest' b').calls.map Prod.fst).map Call.operation).length := by
    simpa using hlength
  have heq := (List.prefix_of_prefix_length_le hprefix hprefix' hlength'.le).eq_of_length hlength'
  simpa [Exchange.calls] using congrArg List.getLast? heq

/-! ## One operation -/

/-- Operations with the same public arguments make the same calls. -/
theorem ProviderOp.SamePublic.operations_eq {op op' : ProviderOp build} (h : op.SamePublic op') :
    op.operations = op'.operations := by
  cases op <;> cases op' <;> first | exact h.elim | rfl

/-- They pass the same checks: none of these looks at the contents of a secret. -/
theorem ProviderOp.SamePublic.admitted_iff {op op' : ProviderOp build} (h : op.SamePublic op')
    {esys esys' : Option EsysContext} (hesys : esys.isSome = esys'.isSome) :
    op.Admitted esys ↔ op'.Admitted esys' := by
  have hempty {τ : Type} {xs ys : List τ} (hlength : xs.length = ys.length) :
      xs = [] ↔ ys = [] := by
    rw [← List.length_eq_zero_iff, hlength, List.length_eq_zero_iff]
  cases op <;> cases op' <;> try exact h.elim
  case allocate.allocate =>
    have hlength := by simpa using congrArg List.length h
    simp only [Admitted, hesys, ne_eq, hempty hlength, show _ = _ from h]
  case event.event => simp only [Admitted, hesys, h.2]
  case extend.extend =>
    have hlength := by simpa using congrArg List.length h.2
    simp only [Admitted, hesys, ne_eq, hempty hlength, h.2]
  case read.read => simp only [Admitted, hesys]
  case reset.reset => simp only [Admitted, hesys]
  case setAuthPolicy.setAuthPolicy => simp only [Admitted, hesys, h.2.1, h.2.2]
  case setAuthValue.setAuthValue => simp only [Admitted, hesys, hempty h.2]

/-- Both worlds were reached with the same records. -/
def SameRecords (w : World σ) (w' : World σ') (reached : World σ) (reached' : World σ') : Prop :=
  ∃ b events b' events', reached = w.after b events ∧ reached' = w'.after b' events' ∧
    records events = records events'

/-- A part of a run in which nothing happens logs nothing. -/
theorem SameRecords.refl (w : World σ) (w' : World σ') : SameRecords w w' w w' :=
  ⟨w.backend, [], w'.backend, [], by simp, by simp, rfl⟩

/-- Two parts that log the same make one that does. -/
theorem SameRecords.trans {w v u : World σ} {w' v' u' : World σ'} (h : SameRecords w w' v v')
    (hnext : SameRecords v v' u u') : SameRecords w w' u u' := by
  obtain ⟨b, events, b', events', rfl, rfl, hrecords⟩ := h
  obtain ⟨c, later, c', later', rfl, rfl, hlater⟩ := hnext
  refine ⟨c, events ++ later, c', events' ++ later', by simp, by simp, ?_⟩
  rw [records_append, records_append, hrecords, hlater]

section OneOperation

variable (provider : EsysPcrProvider σ) (provider' : EsysPcrProvider σ')

/-- Two operations that agree on public data, and are answered alike, log the
same. -/
theorem perform_sameRecords (hesys : provider.esys.isSome = provider'.esys.isSome)
    (hdecode : provider.api.decodeError = provider'.api.decodeError) {op op' : ProviderOp build}
    (hop : op.SamePublic op') (hstored : op.Stored) (hstored' : op'.Stored) (w : World σ)
    (w' : World σ') (hresponses : List.Forall₂ Response.SameShape (provider.responses op w)
      (provider'.responses op' w')) :
    SameRecords w w' (provider.perform op w).2 (provider'.perform op' w').2 := by
  rw [provider.perform_eq, provider'.perform_eq]
  have hadmitted := hop.admitted_iff hesys
  rcases prepare_exact provider hstored with
      ⟨hholds, call, rest, hprepare, hnames, _⟩ | ⟨hnot, e, hprepare⟩ <;>
    rcases prepare_exact provider' hstored' with
      ⟨hholds', call', rest', hprepare', hnames', _⟩ | ⟨hnot', e', hprepare'⟩
  · simp only [EsysPcrProvider.responses, hprepare, hprepare'] at hresponses
    have hsame : (call :: rest).map Call.operation = (call' :: rest').map Call.operation := by
      rw [hnames, hnames', hop.operations_eq]
    have hoperation := exchange_last_operation hsame (by simpa using hresponses.length_eq)
    rw [hprepare, hprepare']
    refine ⟨_, _, _, _, rfl, rfl, ?_⟩
    simp only [records_append, AnsweredCall.records_events, Response.records_freeEvents,
      List.nil_append, List.append_nil]
    exact records_announce_congr provider provider' hdecode hop hoperation
      (Exchange.last_sameShape hresponses)
  · exact absurd (hadmitted.mp hholds) hnot'
  · exact absurd (hadmitted.mpr hholds') hnot
  · rw [hprepare, hprepare']
    exact SameRecords.refl w w'

/-! ## Authorization values -/

/-- The operations differ at most in the bytes of an authorization value. -/
def ProviderOp.SameButAuth : ProviderOp build → ProviderOp build → Prop
  | .setAuthValue index auth, .setAuthValue index' auth' =>
      index = index' ∧ auth.length = auth'.length
  | op, op' => op = op'

/-- An operation asks nothing of an authorization value but whether it is empty, so its requests
do not depend on the bytes. -/
theorem prepare_sameButAuth {op op' : ProviderOp build} (h : op.SameButAuth op') :
    provider.prepare op = provider.prepare op' ∧ provider.carryOut op = provider.carryOut op' := by
  cases op with
  | setAuthValue index auth =>
      cases op' with
      | setAuthValue index' auth' =>
          obtain ⟨rfl, hlength⟩ : index = index' ∧ auth.length = auth'.length := h
          refine ⟨?_, rfl⟩
          -- a value that is not empty is turned away whatever its bytes are
          by_cases hempty : auth = []
          · have hempty' : auth' = [] := List.length_eq_zero_iff.mp (by rw [← hlength, hempty]; rfl)
            rw [hempty, hempty']
          · have hempty' : auth' ≠ [] := fun h => hempty (List.length_eq_zero_iff.mp (by
              rw [hlength, h]; rfl))
            simp only [EsysPcrProvider.prepare, ensureSecureAuthValueTransport, hlength, ne_eq,
              hempty, hempty', not_false_eq_true, if_true]
            rfl
      | _ => cases h
  | _ => rw [show _ = op' from h]; exact ⟨rfl, rfl⟩

/-- Nor does anything else that it does. -/
theorem perform_sameButAuth {op op' : ProviderOp build} (h : op.SameButAuth op') :
    provider.perform op = provider.perform op' := by
  obtain ⟨hprepare, hcarryOut⟩ := prepare_sameButAuth provider h
  rw [provider.perform_eq, provider.perform_eq, hprepare, hcarryOut]

/-- Nor do the answers that it gets. -/
theorem responses_sameButAuth {op op' : ProviderOp build} (h : op.SameButAuth op') (w : World σ) :
    provider.responses op w = provider.responses op' w := by
  rw [EsysPcrProvider.responses, EsysPcrProvider.responses, (prepare_sameButAuth provider h).1]

/-- What is sent depends on the operation and the ESYS context only. -/
theorem prepare_congr (hesys : provider.esys = provider'.esys) (op : ProviderOp build) :
    provider.prepare op = provider'.prepare op := by
  cases op <;> simp only [EsysPcrProvider.prepare, hesys]

/-- What is announced depends on the logger, the observer and the decoder only. -/
theorem announce_congr (hlog : provider.log = provider'.log)
    (hobserver : provider.observer = provider'.observer)
    (hdecode : provider.api.decodeError = provider'.api.decodeError) (op : ProviderOp build)
    (last : AnsweredCall) : provider.announce op last = provider'.announce op last := by
  have hcompleted : ∀ value, provider.completedEvents op value = provider'.completedEvents op value := by
    intro value
    cases op <;> cases value <;>
      simp only [EsysPcrProvider.completedEvents, EsysPcrProvider.notifyEvents, hlog, hobserver]
  have hresult : ∀ result, provider.resultEvents op result = provider'.resultEvents op result := by
    intro result
    cases result with
    | value value => exact hcompleted value
    | unexpected e => rfl
    | fault f => rfl
  simp only [EsysPcrProvider.announce, EsysPcrProvider.tssErrorEvents, hlog, hdecode, hresult]

variable {provider provider'} in
/-- The responses determine the answered calls. -/
theorem exchange_calls_eq {call : Call} {rest : List Call} {b : σ} {b' : σ'}
    (h : (provider.api.exchange call rest b).calls.map Prod.snd =
      (provider'.api.exchange call rest b').calls.map Prod.snd) :
    (provider.api.exchange call rest b).calls = (provider'.api.exchange call rest b').calls := by
  have hlength : ((provider.api.exchange call rest b).calls.map Prod.fst).length =
      ((provider'.api.exchange call rest b').calls.map Prod.fst).length := by
    simpa using congrArg List.length h
  have hfst := (List.prefix_of_prefix_length_le (provider.api.exchange_prefix call rest b)
    (provider'.api.exchange_prefix call rest b') hlength.le).eq_of_length hlength
  rw [← List.zip_unzip (provider.api.exchange call rest b).calls,
    ← List.zip_unzip (provider'.api.exchange call rest b').calls]
  simp only [List.unzip_fst, List.unzip_snd, h, hfst]

/-- Two backends that give the same responses are told apart by nothing else. -/
theorem perform_of_responses (hesys : provider.esys = provider'.esys)
    (hlog : provider.log = provider'.log) (hobserver : provider.observer = provider'.observer)
    (hdecode : provider.api.decodeError = provider'.api.decodeError) (op : ProviderOp build)
    {w : World σ} {w' : World σ'} (h : provider.responses op w = provider'.responses op w') :
    (∃ b b' events, (provider.perform op w).2 = w.after b events ∧
      (provider'.perform op w').2 = w'.after b' events) ∧
    (provider.perform op w).1 = (provider'.perform op w').1 := by
  rw [provider.perform_eq, provider'.perform_eq, ← prepare_congr provider provider' hesys]
  cases hprepare : provider.prepare op with
  | value prepared =>
      simp only [EsysPcrProvider.responses, ← prepare_congr provider provider' hesys, hprepare] at h
      have hcalls := exchange_calls_eq h
      have hlast : (provider.api.exchange prepared.1 prepared.2 w.backend).last =
          (provider'.api.exchange prepared.1 prepared.2 w'.backend).last := by
        simpa [Exchange.calls] using congrArg List.getLast? hcalls
      refine ⟨⟨_, provider'.api.dispose (provider'.api.exchange prepared.1 prepared.2
        w'.backend).last.2 (provider'.api.exchange prepared.1 prepared.2 w'.backend).backend, _, rfl,
        congrArg (w'.after _) ?_⟩, ?_⟩
      · rw [← hcalls, ← hlast, ← announce_congr provider provider' hlog hobserver hdecode]
      · exact congrArg (fun last : AnsweredCall => EsysPcrProvider.conclude op last.2) hlast
  | unexpected e => exact ⟨⟨w.backend, w'.backend, [], by simp, by simp⟩, rfl⟩
  | fault f => exact ⟨⟨w.backend, w'.backend, [], by simp, by simp⟩, rfl⟩

end OneOperation

/-! ## Whole runs -/

/-- The responses of a run, operation by operation. -/
def EsysPcrProvider.responsesAlong (provider : EsysPcrProvider σ) (ops : List (ProviderOp build))
    (w : World σ) : List (List Response) :=
  Program.along provider.perform provider.responses ops w

/-- Two runs that agree on public data log the same. -/
theorem series_sameRecords (provider : EsysPcrProvider σ) (provider' : EsysPcrProvider σ')
    (hesys : provider.esys.isSome = provider'.esys.isSome)
    (hdecode : provider.api.decodeError = provider'.api.decodeError)
    {ops ops' : List (ProviderOp build)} (hops : List.Forall₂ ProviderOp.SamePublic ops ops')
    (hstored : ∀ op ∈ ops, op.Stored) (hstored' : ∀ op ∈ ops', op.Stored) {w : World σ}
    {w' : World σ'} (hresponses : List.Forall₂ (List.Forall₂ Response.SameShape)
      (provider.responsesAlong ops w) (provider'.responsesAlong ops' w')) :
    SameRecords w w' (Program.series provider.perform ops w).2
      (Program.series provider'.perform ops' w').2 := by
  have hall : List.Forall₂ (fun op op' : ProviderOp build =>
      op.SamePublic op' ∧ op.Stored ∧ op'.Stored) ops ops' := by
    clear hresponses
    induction hops with
    | nil => exact .nil
    | cons hop _ ih =>
        obtain ⟨hfirst, hrest⟩ := List.forall_mem_cons.mp hstored
        obtain ⟨hfirst', hrest'⟩ := List.forall_mem_cons.mp hstored'
        exact .cons ⟨hop, hfirst, hfirst'⟩ (ih hrest hrest')
  have hcall : ∀ (op op' : ProviderOp build) (v : World σ) (v' : World σ'),
      (op.SamePublic op' ∧ op.Stored ∧ op'.Stored) → SameRecords w w' v v' →
      List.Forall₂ Response.SameShape (provider.responses op v) (provider'.responses op' v') →
      SameRecords w w' (provider.perform op v).2 (provider'.perform op' v').2 ∧ True := by
    intro op op' v v' hops hrel hobs
    obtain ⟨hop, hfirst, hfirst'⟩ := hops
    exact ⟨hrel.trans (perform_sameRecords provider provider' hesys hdecode hop hfirst hfirst' v v'
      hobs), trivial⟩
  have hrelated : SameRecords w w' _ _ ∧ List.Forall₂ (fun _ _ => True) _ _ :=
    Program.series_related hcall hall (SameRecords.refl w w') hresponses
  exact hrelated.1

/-- Both worlds were reached with the same events. -/
def SameEvents (w : World σ) (w' : World σ') (reached : World σ) (reached' : World σ') : Prop :=
  ∃ b b' events, reached = w.after b events ∧ reached' = w'.after b' events

/-- Two runs that differ in authorization values only make the same calls and
callbacks, and return the same. -/
theorem series_sameButAuth (provider : EsysPcrProvider σ) (provider' : EsysPcrProvider σ')
    (hesys : provider.esys = provider'.esys) (hlog : provider.log = provider'.log)
    (hobserver : provider.observer = provider'.observer)
    (hdecode : provider.api.decodeError = provider'.api.decodeError)
    {ops ops' : List (ProviderOp build)} (hops : List.Forall₂ ProviderOp.SameButAuth ops ops')
    {w : World σ} {w' : World σ'}
    (hresponses : provider.responsesAlong ops w = provider'.responsesAlong ops' w') :
    SameEvents w w' (Program.series provider.perform ops w).2
        (Program.series provider'.perform ops' w').2 ∧
      (Program.series provider.perform ops w).1 = (Program.series provider'.perform ops' w').1 := by
  have hcall : ∀ (op op' : ProviderOp build) (v : World σ) (v' : World σ'), op.SameButAuth op' →
      SameEvents w w' v v' → provider.responses op v = provider'.responses op' v' →
      SameEvents w w' (provider.perform op v).2 (provider'.perform op' v').2 ∧
        (provider.perform op v).1 = (provider'.perform op' v').1 := by
    intro op op' v v' hop hsame hobs
    obtain ⟨b, b', events, rfl, rfl⟩ := hsame
    rw [← responses_sameButAuth provider' hop] at hobs
    rw [← perform_sameButAuth provider' hop]
    obtain ⟨⟨c, c', later, hworld, hworld'⟩, hresult⟩ :=
      perform_of_responses provider provider' hesys hlog hobserver hdecode op hobs
    exact ⟨⟨c, c', events ++ later, by simp [hworld], by simp [hworld']⟩, hresult⟩
  have hobs : List.Forall₂ (· = ·) (provider.responsesAlong ops w)
      (provider'.responsesAlong ops' w') := by
    rw [hresponses]
    exact List.forall₂_same.mpr fun _ _ => rfl
  obtain ⟨hevents, hresults⟩ := Program.series_related hcall hops
    ⟨w.backend, w'.backend, [], by simp, by simp⟩ hobs
  rw [List.forall₂_eq_eq_eq] at hresults
  exact ⟨hevents, hresults⟩

/-- Against one backend they are the same run. -/
theorem series_sameButAuth_self (provider : EsysPcrProvider σ) {ops ops' : List (ProviderOp build)}
    (hops : List.Forall₂ ProviderOp.SameButAuth ops ops') (w : World σ) :
    Program.series provider.perform ops w = Program.series provider.perform ops' w := by
  induction hops generalizing w with
  | nil => rfl
  | cons hop _ ih =>
      rw [Program.series_cons, Program.series_cons, perform_sameButAuth provider hop, ih]

/-- **Logs are independent of measured and secret bytes.**  Two runs of the
provider, against any two backends, whose operations and responses agree on
public data log the same records.  Where the operations differ in authorization
values only, runs that are answered alike also make the same calls and callbacks
and return the same, and against one backend they are one and the same run. -/
theorem logs_independent_of_secrets (provider : EsysPcrProvider σ) (provider' : EsysPcrProvider σ')
    (ops ops' : List (ProviderOp build)) (w : World σ) (w' : World σ') :
    let run := Program.series provider.perform ops w
    let run' := Program.series provider'.perform ops' w'
    (provider.esys.isSome = provider'.esys.isSome →
      provider.api.decodeError = provider'.api.decodeError →
      List.Forall₂ ProviderOp.SamePublic ops ops' →
      (∀ op ∈ ops, op.Stored) → (∀ op ∈ ops', op.Stored) →
      List.Forall₂ (List.Forall₂ Response.SameShape) (provider.responsesAlong ops w)
        (provider'.responsesAlong ops' w') →
      records (w.eventsSince run.2) = records (w'.eventsSince run'.2)) ∧
    (provider.esys = provider'.esys → provider.log = provider'.log →
      provider.observer = provider'.observer →
      provider.api.decodeError = provider'.api.decodeError →
      List.Forall₂ ProviderOp.SameButAuth ops ops' →
      provider.responsesAlong ops w = provider'.responsesAlong ops' w' →
      w.eventsSince run.2 = w'.eventsSince run'.2 ∧ run.1 = run'.1) ∧
    (List.Forall₂ ProviderOp.SameButAuth ops ops' →
      run = Program.series provider.perform ops' w) := by
  intro run run'
  refine ⟨fun hesys hdecode hops hstored hstored' hresponses => ?_,
    fun hesys hlog hobserver hdecode hops hresponses => ?_,
    fun hops => series_sameButAuth_self provider hops w⟩
  · obtain ⟨b, events, b', events', hrun, hrun', hrecords⟩ :=
      series_sameRecords provider provider' hesys hdecode hops hstored hstored' hresponses
    rw [hrun, hrun', World.eventsSince_after, World.eventsSince_after, hrecords]
  · obtain ⟨⟨b, b', events, hrun, hrun'⟩, hresults⟩ :=
      series_sameButAuth provider provider' hesys hlog hobserver hdecode hops hresponses
    exact ⟨by rw [hrun, hrun', World.eventsSince_after, World.eventsSince_after], hresults⟩

/-- Two runs that extend the same PCR with different digests. -/
theorem logs_independent_of_secrets_extended :
    let provider : EsysPcrProvider Unit := ⟨.inert, some ⟨0⟩, .client 0, none⟩
    let ops : UInt8 → List (ProviderOp ⟨false⟩) := fun byte =>
      [.extend ⟨7, by decide⟩ [⟨.sha256, List.replicate 32 byte⟩]]
    let logged : UInt8 → List LogRecord := fun byte =>
      records (World.eventsSince ⟨(), 0, []⟩
        (Program.series provider.perform (ops byte) ⟨(), 0, []⟩).2)
    logged 1 = logged 2 ∧ logged 1 = [logExtendCompleted ⟨7, by decide⟩ 1] := by
  intro provider ops logged
  have hstored : ∀ byte, ∀ op ∈ ops byte, op.Stored := by
    intro byte op hop
    obtain rfl := List.mem_singleton.mp hop
    intro d hd
    obtain rfl := List.mem_singleton.mp hd
    exact ⟨trivial, Or.inr rfl⟩
  have hlogged := (logs_independent_of_secrets provider provider (ops 1) (ops 2)
    ⟨(), 0, []⟩ ⟨(), 0, []⟩).1 rfl rfl (.cons ⟨rfl, rfl⟩ .nil) (hstored 1) (hstored 2)
    (.cons (.cons rfl .nil) .nil)
  exact ⟨hlogged, rfl⟩

end Tpmkit
