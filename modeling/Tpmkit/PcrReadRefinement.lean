import Tpmkit.ProviderRuns

/-!
# What a PCR read reports

Two views of `read`.  Against a conforming TPM the operation is a lookup in
the TPM's registers: each value carries the register of its own index
(`read_refines_registers`).  Against an arbitrary backend the operation returns
whatever well-formed response it is given; `read_answers_request_iff` says
which responses make the result answer the request.
-/

namespace Tpmkit

open Checked ByteBitmap AscendingSet Pcr

variable {σ : Type} {build : BuildOptions}

/-! ## Registers -/

/-- The PCRs of a TPM: in each bank, a digest of the bank's size per index. -/
structure PcrRegisters where
  digest : HashAlgorithm → Index → List UInt8
  length_eq : ∀ a index, (digest a index).length = a.size

/-- The values of some registers of a bank, in ascending order of index. -/
def registerValues (registers : PcrRegisters) (a : HashAlgorithm) (reported : Finset Index) :
    List Value :=
  (ascending reported).map fun index => ⟨index, ⟨a, registers.digest a index⟩⟩

/-- An answer that reports a set of registers of one bank. -/
structure ReportsRegisters (registers : PcrRegisters) (a : HashAlgorithm)
    (reported : Finset Index) (answer : ReadAnswer) : Prop where
  rc_eq : answer.rc = tss2RcSuccess
  selection_eq : ∃ t, answer.pcrSelectionOut = some t ∧
    (t.count = 0 ∧ reported = ∅ ∨
      t.count = 1 ∧ t.first.hash = bankId a ∧
        t.first.sizeofSelect.toNat ≤ 4 ∧
        ∀ pcr, t.first.selects pcr ↔ ∃ index ∈ reported, index.val = pcr)
  values_eq : ∃ values, answer.pcrValues = some values ∧ values.count.toNat = reported.card ∧
    ∀ k (_ : k < 8) (h : k < (ascending reported).length),
      values.digests[k].size.toNat = a.size ∧
      values.digests[k].buffer.toList.take a.size = registers.digest a (ascending reported)[k]

/-- A backend whose `pcr_read` decodes the request it is given, picks at most
eight of the selected indices and reports their registers. -/
structure ConformingTpm (build : BuildOptions) (api : EsysApi σ) where
  registers : σ → PcrRegisters
  pick : TpmlPcrSelection → σ → Finset Index
  pick_selected : ∀ t b, ∀ index ∈ pick t b, t.first.selects index.val
  card_pick_le : ∀ t b, (pick t b).card ≤ 8
  reports : ∀ esys t a b, t.count = 1 → a.Enabled build → t.first.hash = bankId a →
    3 ≤ t.first.sizeofSelect.toNat → t.first.sizeofSelect.toNat ≤ 4 →
      ReportsRegisters (registers b) a (pick t b)
        (api.pcrRead esys esysTrNone esysTrNone esysTrNone t b).1

/-! ## Reading a conforming TPM -/

/-- The reported selection decodes to the reported set. -/
theorem ReportsRegisters.toDomainSelection_eq {registers : PcrRegisters} {a : HashAlgorithm}
    {reported : Finset Index} {answer : ReadAnswer} {t : TpmlPcrSelection}
    (h : ReportsRegisters registers a reported answer) (ht : answer.pcrSelectionOut = some t)
    (ha : a.Enabled build) : toDomainSelection build t a = .value ⟨a, reported, ha⟩ := by
  obtain ⟨t', ht', hshape⟩ := h.selection_eq
  obtain rfl : t = t' := Option.some.inj (ht.symm.trans ht')
  rcases hshape with ⟨hcount, rfl⟩ | ⟨hcount, hhash, hsize, hbits⟩
  · exact toDomainSelection_of_empty hcount ha
  · have hset : selectedSet t.first = reported := selectedSet_eq_of_selects hbits
    rw [toDomainSelection_of_one hcount ha (hhash.trans (algorithmToTpm_eq_bankId ha).symm) hsize]
    simp only [hset]

/-- The reported digests decode to the registers of their own indices. -/
theorem ReportsRegisters.toDomainReadValues_eq {registers : PcrRegisters} {a : HashAlgorithm}
    {reported : Finset Index} {answer : ReadAnswer} {values : TpmlDigest}
    (h : ReportsRegisters registers a reported answer) (hvalues : answer.pcrValues = some values)
    (hcard : reported.card ≤ 8) (ha : a.Enabled build) :
    toDomainReadValues build values ⟨a, reported, ha⟩ =
      .value (registerValues registers a reported) := by
  obtain ⟨values', hvalues', hcount, hdigests⟩ := h.values_eq
  obtain rfl : values = values' := Option.some.inj (hvalues.symm.trans hvalues')
  have haccepts : AcceptsValues build values ⟨a, reported, ha⟩ := by
    refine ⟨hcount ▸ hcard, hcount, fun i hi hlt => ?_⟩
    rw [digestSize_of_enabled ha, (hdigests i hi (by rw [length_ascending]; omega)).1]
  have hread : readValues values ⟨a, reported, ha⟩ = registerValues registers a reported := by
    apply List.ext_getElem
    · simp [length_readValues, registerValues, hcard]
    · intro k hk hlength
      have hlt : k < (ascending reported).length := by simpa [registerValues] using hlength
      have height : k < 8 := by
        rw [length_ascending] at hlt
        omega
      simpa [readValues, readValue, registerValues] using (hdigests k height hlt).2
  rcases toDomainReadValues_exact values ⟨a, reported, ha⟩ with ⟨_, hrun⟩ | ⟨hrefused, _⟩
  · rw [hrun, hread]
  · exact absurd haccepts hrefused

/-- An answer that reports registers is returned as exactly those registers. -/
theorem ReportsRegisters.readResult_eq {registers : PcrRegisters} {selection : Selection build}
    {reported : Finset Index} {answer : ReadAnswer}
    (h : ReportsRegisters registers selection.algorithm reported answer)
    (hcard : reported.card ≤ 8) :
    EsysPcrProvider.readResult build selection answer =
      .value ⟨⟨selection.algorithm, reported, selection.enabled⟩, answer.pcrUpdateCounter,
        registerValues registers selection.algorithm reported⟩ := by
  obtain ⟨t, ht, _⟩ := h.selection_eq
  obtain ⟨values, hvalues, _⟩ := h.values_eq
  simp [EsysPcrProvider.readResult, h.rc_eq, ht, hvalues,
    h.toDomainSelection_eq ht selection.enabled,
    h.toDomainReadValues_eq hvalues hcard selection.enabled]

/-- A request that selects exactly these registers. -/
structure SelectsExactly (selection : Selection build) (t : TpmlPcrSelection) : Prop where
  count_eq : t.count = 1
  hash_eq : t.first.hash = bankId selection.algorithm
  selects_iff : ∀ pcr, t.first.selects pcr ↔
    ∃ index ∈ selection.indices, index.val = pcr

/-- The encoder's structure asks for the registers of the selection and no others. -/
theorem EncodesSelection.selectsExactly {selection : Selection build} {t : TpmlPcrSelection}
    (h : EncodesSelection selection t) : SelectsExactly selection t := by
  refine ⟨h.count_eq, h.hash_eq.trans (algorithmToTpm_eq_bankId selection.enabled),
    fun pcr => ⟨fun hselects => ?_, ?_⟩⟩
  · exact (h.bit_iff pcr).mp hselects.2
  · rintro ⟨index, hindex, rfl⟩
    exact (h.selects_iff index).mpr hindex

/-- The set that it selects is that of the selection. -/
theorem SelectsExactly.selectedSet_eq {selection : Selection build} {t : TpmlPcrSelection}
    (h : SelectsExactly selection t) : selectedSet t.first = selection.indices :=
  selectedSet_eq_of_selects h.selects_iff

/-- **A read is a lookup in the TPM's registers.**  On a conforming TPM the
request selects exactly the caller's registers, and the read succeeds with the
registers the TPM picked, each paired with its own index. -/
theorem read_refines_registers (provider : EsysPcrProvider σ)
    (tpm : ConformingTpm build provider.api) (selection : Selection build) (w : World σ)
    (hesys : provider.esys.isSome = true) :
    ∃ t, SelectsExactly selection t ∧
      requests (w.eventsSince (provider.read build selection w).2) =
        [(.pcrRead provider.esys esysTrNone esysTrNone esysTrNone t, tss2RcSuccess)] ∧
      tpm.pick t w.backend ⊆ selection.indices ∧
      (provider.read build selection w).1 =
        .value ⟨⟨selection.algorithm, tpm.pick t w.backend, selection.enabled⟩,
          (provider.api.pcrRead provider.esys esysTrNone esysTrNone esysTrNone t
            w.backend).1.pcrUpdateCounter,
          registerValues (tpm.registers w.backend) selection.algorithm
            (tpm.pick t w.backend)⟩ := by
  obtain ⟨t, ht, hencodes⟩ := toTpmSelection_encodes selection
  have hexact := hencodes.selectsExactly
  have hsize := hencodes.size_eq
  have hmin : 3 ≤ canonicalSize selection.indices := by
    rw [canonicalSize_eq_sup]
    exact le_max_left ..
  have hmax := canonicalSize_le selection.indices
  have hreports := tpm.reports provider.esys t selection.algorithm w.backend hexact.count_eq
    selection.enabled hexact.hash_eq (by omega) (by omega)
  have hresult := hreports.readResult_eq (tpm.card_pick_le t w.backend)
  rcases hanswer : provider.api.pcrRead provider.esys esysTrNone esysTrNone esysTrNone t w.backend
    with ⟨answer, b⟩
  rw [hanswer] at hreports hresult
  have hrun := EsysPcrProvider.read_run w ht hesys hanswer
  refine ⟨t, hexact, ?_, fun index hindex => ?_, ?_⟩
  · simpa [hrun] using hreports.rc_eq
  · exact (hencodes.selects_iff index).mp (tpm.pick_selected t w.backend index hindex)
  · rw [hrun, hanswer]
    exact hresult

/-! ### A TPM whose registers hold their own index -/

/-- Registers whose first byte is their number. -/
def labelledRegisters : PcrRegisters where
  digest a index := List.replicate a.size (Index.value index)
  length_eq := by simp

/-- The registers that the backend answers with: the first eight that are asked for. -/
def labelledPick (t : TpmlPcrSelection) : Finset Index :=
  if (selectedSet t.first).card ≤ 8 then selectedSet t.first else ∅

/-- The size that the backend gives the digests of a bank. -/
def labelledSize (hash : TpmiAlgHash) : UInt16 :=
  if hash = tpm2AlgSha1 then 20 else if hash = tpm2AlgSha256 then 32
  else if hash = tpm2AlgSha384 then 48 else 64

/-- It echoes a selection of at most eight registers, and reports none of a
larger one. -/
def labelledAnswer (t : TpmlPcrSelection) : ReadAnswer where
  rc := tss2RcSuccess
  pcrUpdateCounter := 21
  pcrSelectionOut := some (if (selectedSet t.first).card ≤ 8 then t else .zeroed)
  pcrValues := some ⟨UInt32.ofNat (labelledPick t).card, Vector.ofFn fun k =>
    ⟨labelledSize t.first.hash,
      Vector.replicate 64 (Index.value ((ascending (labelledPick t)).getD k.val 0))⟩⟩

/-- A backend that answers every read from these registers. -/
def labelledApi : EsysApi Unit :=
  { EsysApi.inert with pcrRead := fun _ _ _ _ t b => (labelledAnswer t, b) }

/-- It never answers with more than eight. -/
theorem card_labelledPick_le (t : TpmlPcrSelection) : (labelledPick t).card ≤ 8 := by
  unfold labelledPick
  split
  · assumption
  · simp

/-- The sizes are those of the algorithms. -/
theorem labelledSize_bankId {a : HashAlgorithm} (ha : a.Enabled build) :
    (labelledSize (bankId a)).toNat = a.size := by
  cases a with
  | unlisted raw => cases ha
  | _ => rfl

/-- It conforms. -/
def labelledTpm (build : BuildOptions) : ConformingTpm build labelledApi where
  registers _ := labelledRegisters
  pick t _ := labelledPick t
  pick_selected t _ index hindex := by
    unfold labelledPick at hindex
    split at hindex
    · exact mem_selectedSet.mp hindex
    · simp at hindex
  card_pick_le t _ := card_labelledPick_le t
  reports := by
    intro esys t a b hcount ha hhash _ hsize
    have hcard := card_labelledPick_le t
    refine ⟨rfl, ⟨_, rfl, ?_⟩, ⟨_, rfl, ?_, fun k hk hlt => ?_⟩⟩
    · by_cases hfits : (selectedSet t.first).card ≤ 8
      · rw [if_pos hfits, labelledPick, if_pos hfits]
        exact Or.inr ⟨hcount, hhash, hsize, selects_iff_mem_selectedSet hsize⟩
      · rw [if_neg hfits, labelledPick, if_neg hfits]
        exact Or.inl ⟨rfl, rfl⟩
    · simp only [UInt32.toNat_ofNat', Nat.reducePow]
      omega
    · have hget : (ascending (labelledPick t)).getD k 0 = (ascending (labelledPick t))[k] := by
        rw [List.getD_eq_getElem?_getD, List.getElem?_eq_getElem hlt, Option.getD_some]
      have hmin : min a.size 64 = a.size := Nat.min_eq_left a.size_le
      simp only [Vector.getElem_ofFn, hhash, labelledSize_bankId ha, hget, Vector.toList_replicate,
        List.take_replicate, hmin, labelledRegisters, and_self]

/-- Reading PCRs 3 and 17 of its SHA-256 bank pairs each with its own register. -/
theorem read_refines_registers_labelled :
    (EsysPcrProvider.read ⟨false⟩ ⟨labelledApi, some ⟨0⟩, .noop, none⟩
      ⟨.sha256, {3, 17}, trivial⟩ ⟨(), 1, []⟩).1 =
      .value ⟨⟨.sha256, {3, 17}, trivial⟩, 21,
        [⟨3, ⟨.sha256, List.replicate 32 3⟩⟩, ⟨17, ⟨.sha256, List.replicate 32 17⟩⟩]⟩ := by
  obtain ⟨t, hexact, _, _, hread⟩ := read_refines_registers
    ⟨labelledApi, some ⟨0⟩, .noop, none⟩ (labelledTpm ⟨false⟩) ⟨.sha256, {3, 17}, trivial⟩
    ⟨(), 1, []⟩ rfl
  have hpick : labelledPick t = {3, 17} := by
    rw [labelledPick, hexact.selectedSet_eq]
    decide
  have hvalues : registerValues labelledRegisters .sha256 {3, 17} =
      [⟨3, ⟨.sha256, List.replicate 32 3⟩⟩, ⟨17, ⟨.sha256, List.replicate 32 17⟩⟩] := by decide
  simp only [labelledTpm, hpick, hvalues] at hread
  exact hread

/-! ## Reading an arbitrary backend -/

/-- A result that answers the request it was asked. -/
structure AnswersRequest (selection : Selection build) (result : ReadResult build) : Prop where
  algorithm_eq : result.actualSelection.algorithm = selection.algorithm
  indices_subset : result.actualSelection.indices ⊆ selection.indices
  nodup_index : (result.values.map Value.index).Nodup
  mem_index_iff : ∀ index,
    index ∈ result.values.map Value.index ↔ index ∈ result.actualSelection.indices
  digest_eq : ∀ v ∈ result.values,
    v.digest.algorithm = selection.algorithm ∧ v.digest.WellFormed build

/-- A result that answers an empty request is empty. -/
theorem AnswersRequest.of_empty {selection : Selection build} {result : ReadResult build}
    (h : AnswersRequest selection result) (hempty : selection.indices = ∅) :
    result.actualSelection.indices = ∅ ∧ result.values = [] := by
  have hindices : result.actualSelection.indices = ∅ :=
    Finset.subset_empty.mp (hempty ▸ h.indices_subset)
  have hnone : ∀ v, v ∉ result.values := by
    intro v hv
    have hmem := (h.mem_index_iff v.index).mp (List.mem_map_of_mem hv)
    rw [hindices] at hmem
    simp at hmem
  exact ⟨hindices, List.eq_nil_iff_forall_not_mem.mpr hnone⟩

/-- When the answer is one that the decoders accept and it names one bank, that
bank and all its selected registers were requested. -/
def MatchesRequest (build : BuildOptions) (selection : Selection build) (answer : ReadAnswer) :
    Prop :=
  ∀ (t : TpmlPcrSelection) (values : TpmlDigest) (a : HashAlgorithm),
    answer.rc = tss2RcSuccess → answer.pcrSelectionOut = some t → answer.pcrValues = some values →
    t.count = 1 → a.Enabled build → t.first.hash = algorithmToTpm build a →
    t.first.sizeofSelect.toNat ≤ 4 →
    values.count.toNat ≤ 8 → values.count.toNat = (selectedSet t.first).card →
    (∀ i (_ : i < 8), i < values.count.toNat → values.digests[i].size.toNat = a.size) →
      a = selection.algorithm ∧
      ∀ index : Index, t.first.selects index.val → index ∈ selection.indices

/-- What a returned result says about the answer. -/
theorem of_readResult_eq_value {selection : Selection build} {answer : ReadAnswer}
    {result : ReadResult build}
    (h : EsysPcrProvider.readResult build selection answer = .value result) :
    answer.rc = tss2RcSuccess ∧ ∃ t values, answer.pcrSelectionOut = some t ∧
      answer.pcrValues = some values ∧
      toDomainSelection build t selection.algorithm = .value result.actualSelection ∧
      AcceptsValues build values result.actualSelection ∧
      result.values = readValues values result.actualSelection := by
  unfold EsysPcrProvider.readResult at h
  split at h
  · cases h
  next hrc =>
    split at h
    swap
    · cases h
    next t values ht hvalues =>
      obtain ⟨decoded, hdecoded, hrest⟩ := Result.bind_eq_value.mp h
      obtain ⟨list, hlist, hresult⟩ := Result.bind_eq_value.mp hrest
      cases hresult
      refine ⟨not_not.mp hrc, t, values, ht, hvalues, hdecoded, ?_⟩
      rcases toDomainReadValues_exact values decoded with ⟨haccepts, hrun⟩ | ⟨_, e, hrun⟩
      · rw [hrun] at hlist
        exact ⟨haccepts, (Result.value.inj hlist).symm⟩
      · rw [hrun] at hlist
        cases hlist

/-- An accepted answer that names one bank is returned as it is. -/
theorem readResult_of_one {selection : Selection build} {answer : ReadAnswer}
    {t : TpmlPcrSelection} {values : TpmlDigest} {a : HashAlgorithm}
    (hrc : answer.rc = tss2RcSuccess) (ht : answer.pcrSelectionOut = some t)
    (hvalues : answer.pcrValues = some values) (hcount : t.count = 1) (ha : a.Enabled build)
    (hhash : t.first.hash = algorithmToTpm build a)
    (hsize : t.first.sizeofSelect.toNat ≤ 4)
    (haccepts : AcceptsValues build values ⟨a, selectedSet t.first, ha⟩) :
    EsysPcrProvider.readResult build selection answer =
      .value ⟨⟨a, selectedSet t.first, ha⟩, answer.pcrUpdateCounter,
        readValues values ⟨a, selectedSet t.first, ha⟩⟩ := by
  rcases toDomainReadValues_exact values ⟨a, selectedSet t.first, ha⟩ with
    ⟨_, hrun⟩ | ⟨hrefused, _⟩
  · simp [EsysPcrProvider.readResult, hrc, ht, hvalues,
      toDomainSelection_of_one hcount ha hhash hsize, hrun]
  · exact absurd haccepts hrefused

/-- A matching answer makes every returned result answer the request. -/
theorem MatchesRequest.answersRequest {selection : Selection build} {answer : ReadAnswer}
    {result : ReadResult build} (h : MatchesRequest build selection answer)
    (hresult : EsysPcrProvider.readResult build selection answer = .value result) :
    AnswersRequest selection result := by
  obtain ⟨hrc, t, values, ht, hvalues, hdecoded, haccepts, hread⟩ := of_readResult_eq_value hresult
  have hcard : result.actualSelection.indices.card ≤ 8 := haccepts.2.1 ▸ haccepts.1
  have hindex : result.values.map Value.index = ascending result.actualSelection.indices := by
    rw [hread, map_index_readValues hcard]
  have hactual : result.actualSelection.algorithm = selection.algorithm ∧
      result.actualSelection.indices ⊆ selection.indices := by
    rcases of_toDomainSelection_eq_value hdecoded with
      ⟨_, halgorithm, hempty⟩ | ⟨hcount, hhash, hsize, hindices⟩
    · exact ⟨halgorithm, hempty ▸ Finset.empty_subset _⟩
    · have hsizes : ∀ i (_ : i < 8), i < values.count.toNat →
          values.digests[i].size.toNat = result.actualSelection.algorithm.size := by
        intro i hi hlt
        have hdigest := haccepts.2.2 i hi hlt
        rw [digestSize_of_enabled result.actualSelection.enabled] at hdigest
        exact (Result.value.inj hdigest).symm
      obtain ⟨halgorithm, hsubset⟩ := h t values result.actualSelection.algorithm hrc ht hvalues
        hcount result.actualSelection.enabled hhash hsize haccepts.1 (hindices ▸ haccepts.2.1)
        hsizes
      refine ⟨halgorithm, fun index hmem => hsubset index ?_⟩
      rw [hindices, mem_selectedSet] at hmem
      exact hmem
  refine ⟨hactual.1, hactual.2, hindex ▸ nodup_ascending _, fun index => ?_, fun v hv => ?_⟩
  · rw [hindex, mem_ascending]
  · rw [hread] at hv
    obtain ⟨halgorithm, hwellFormed⟩ := wellFormed_of_mem_readValues hv
    exact ⟨halgorithm.trans hactual.1, hwellFormed⟩

/-- **When a read answers its request.**  Every result that `read` returns
answers the request exactly when the backend's answer matches it. -/
theorem read_answers_request_iff (build : BuildOptions) (provider : EsysPcrProvider σ)
    (selection : Selection build) (w : World σ) :
    ∃ t, toTpmSelection build selection = .value t ∧
      ((∀ result, (provider.read build selection w).1 = .value result →
          AnswersRequest selection result) ↔
        (provider.esys.isSome = true → MatchesRequest build selection
          (provider.api.pcrRead provider.esys esysTrNone esysTrNone esysTrNone t w.backend).1)) := by
  obtain ⟨t, ht, _⟩ := toTpmSelection_encodes selection
  refine ⟨t, ht, ?_⟩
  rcases hanswer : provider.api.pcrRead provider.esys esysTrNone esysTrNone esysTrNone t w.backend
    with ⟨answer, b⟩
  by_cases hesys : provider.esys.isSome = true
  swap
  · obtain ⟨e, he⟩ : (provider.read build selection).Rejects w :=
      EsysPcrProvider.read_rejected w hesys
    simp [he, hesys]
  rw [EsysPcrProvider.read_run w ht hesys hanswer]
  constructor
  · intro hanswers _ t' values a hrc ht' hvalues hcount ha hhash hsize hle hcard hsizes
    have haccepts : AcceptsValues build values ⟨a, selectedSet t'.first, ha⟩ :=
      ⟨hle, hcard, fun i hi hlt => by rw [digestSize_of_enabled ha, hsizes i hi hlt]⟩
    have hresult := hanswers _ (readResult_of_one hrc ht' hvalues hcount ha hhash hsize haccepts)
    exact ⟨hresult.algorithm_eq, fun index hindex =>
      hresult.indices_subset (mem_selectedSet.mpr hindex)⟩
  · exact fun hmatches result hresult => (hmatches hesys).answersRequest hresult

/-! ### A backend that answers a question of its own -/

/-- PCR 0 of the SHA-256 bank, whatever was requested. -/
def unaskedAnswer : ReadAnswer where
  rc := tss2RcSuccess
  pcrUpdateCounter := 1
  pcrSelectionOut := some (.single ⟨tpm2AlgSha256, 3, #v[1, 0, 0, 0]⟩)
  pcrValues := some ⟨1, Vector.replicate 8 ⟨32, Vector.replicate 64 0xaa⟩⟩

/-- A backend that answers with a register that nobody asked for. -/
def unaskedApi : EsysApi Unit :=
  { EsysApi.inert with pcrRead := fun _ _ _ _ _ b => (unaskedAnswer, b) }

/-- A successful read of an empty selection returns a value of PCR 0. -/
theorem read_answers_unasked :
    (EsysPcrProvider.read ⟨false⟩ ⟨unaskedApi, some ⟨0⟩, .noop, none⟩
      ⟨.sha256, ∅, trivial⟩ ⟨(), 1, []⟩).1 =
      .value ⟨⟨.sha256, {0}, trivial⟩, 1, [⟨0, ⟨.sha256, List.replicate 32 0xaa⟩⟩]⟩ ∧
    ¬AnswersRequest (⟨.sha256, ∅, trivial⟩ : Selection ⟨false⟩)
      ⟨⟨.sha256, {0}, trivial⟩, 1, [⟨0, ⟨.sha256, List.replicate 32 0xaa⟩⟩]⟩ := by
  constructor
  · decide +kernel
  · intro h
    have hempty := (h.of_empty rfl).2
    cases hempty

end Tpmkit
