import Tpmkit.SelectionCodec

/-!
# The response parsers on arbitrary backend structures

Counts, sizes and identifiers of a response are the backend's to choose.  For
each parser this file names the structures it accepts and the value it returns
on them, and shows that every other structure is a backend error: no parser
faults, whatever it is given.
-/

namespace Tpmkit

open Checked AscendingSet ByteBitmap Pcr

variable {build : BuildOptions}

/-! ## One digest -/

/-- Of a pointer to enough bytes those of the digest are read. -/
theorem makeDigestValue_of_size {a : HashAlgorithm} (member : MemberPointer)
    (ha : a.Enabled build) (hcapacity : a.size ≤ member.capacity) :
    makeDigestValue build a (some member) a.size =
      .value ⟨a, member.bytes.toList.take a.size⟩ := by
  have hlength : (member.bytes.toList.take a.size).length = a.size := by
    simpa using a.size_le
  simp [makeDigestValue, digestSize_of_enabled ha, readPrefix_of_le hcapacity a.size_le,
    DigestValue.make_of_length ha hlength]

/-- A size other than that of the algorithm is an error before a byte is read. -/
theorem makeDigestValue_of_size_ne {a : HashAlgorithm} {member : MemberPointer} {size : Nat}
    (ha : a.Enabled build) (hsize : size ≠ a.size) :
    makeDigestValue build a (some member) size =
      fail .backendError "TPM returned PCR digest with unexpected size" := by
  simp [makeDigestValue, digestSize_of_enabled ha, hsize]

/-- The digest that a tagged union holds, when its identifier is enabled. -/
def taggedDigest (build : BuildOptions) (entry : TpmtHa) : Option DigestValue :=
  match algorithmFromTpm build entry.hashAlg with
  | .value a => some ⟨a, entry.digest.toList.take a.size⟩
  | _ => none

/-- An entry of an algorithm of the build has a digest. -/
theorem taggedDigest_of_enabled {entry : TpmtHa} {a : HashAlgorithm} (ha : a.Enabled build)
    (hid : entry.hashAlg = algorithmToTpm build a) :
    taggedDigest build entry = some ⟨a, entry.digest.toList.take a.size⟩ := by
  simp [taggedDigest, algorithmFromTpm_eq_value.mpr ⟨ha, hid.symm⟩]

/-- It is as long as the algorithm says. -/
theorem wellFormed_of_mem_taggedDigest {entry : TpmtHa} {d : DigestValue}
    (h : taggedDigest build entry = some d) : d.WellFormed build := by
  unfold taggedDigest at h
  split at h
  · next a ha =>
      cases h
      exact ⟨(algorithmFromTpm_eq_value.mp ha).1, by simpa using a.size_le⟩
  · cases h

/-- An entry is either known and read or an error with its message; reading it never faults. -/
theorem makeTaggedDigestValue_cases (build : BuildOptions) (entry : TpmtHa) :
    (∃ a d, algorithmFromTpm build entry.hashAlg = .value a ∧
      taggedDigest build entry = some d ∧ makeTaggedDigestValue build entry = .value d) ∨
    (∃ message, algorithmFromTpm build entry.hashAlg = fail .backendError message ∧
      taggedDigest build entry = none ∧
      makeTaggedDigestValue build entry = fail .backendError message) := by
  rcases algorithmFromTpm_cases entry.hashAlg with ⟨a, ha⟩ | ⟨message, _, hrefused⟩
  · left
    have henabled : a.Enabled build := (algorithmFromTpm_eq_value.mp ha).1
    refine ⟨a, ⟨a, entry.digest.toList.take a.size⟩, ha, by simp [taggedDigest, ha], ?_⟩
    simp [makeTaggedDigestValue, ha, unionMemberSize_of_enabled henabled,
      makeDigestValue_of_size _ henabled]
  · right
    exact ⟨message, hrefused, by simp [taggedDigest, hrefused, fail],
      by simp [makeTaggedDigestValue, hrefused, fail]⟩

/-! ## Event digests -/

/-- `id` is SHA-1 in a build that does not enable it. -/
def DisabledSha1Id (build : BuildOptions) (id : TpmiAlgHash) : Prop :=
  build.legacySha1PcrEnabled = false ∧ id = tpm2AlgSha1

/-- Skipped is what names a SHA-1 that the build has disabled. -/
theorem shouldSkip_iff {id : TpmiAlgHash} :
    shouldSkipDisabledPcrAlgorithm build id = true ↔ DisabledSha1Id build id := by
  simp [shouldSkipDisabledPcrAlgorithm, DisabledSha1Id]

/-- Nothing else is skipped. -/
theorem shouldSkip_of_not {id : TpmiAlgHash} (h : ¬DisabledSha1Id build id) :
    shouldSkipDisabledPcrAlgorithm build id = false :=
  Bool.eq_false_iff.mpr fun hskip => h (shouldSkip_iff.mp hskip)

/-- An entry that is skipped holds no digest. -/
theorem taggedDigest_of_disabled {entry : TpmtHa} (h : DisabledSha1Id build entry.hashAlg) :
    taggedDigest build entry = none := by
  simp [taggedDigest, algorithmFromTpm, h.1, h.2, fail]

/-- The lists of event digests that `to_domain_digests` accepts. -/
def AcceptsDigests (build : BuildOptions) (t : TpmlDigestValues) : Prop :=
  t.count.toNat ≤ 16 ∧ ∀ i (h : i < 16), i < t.count.toNat →
    EnabledId build t.digests[i].hashAlg ∨ DisabledSha1Id build t.digests[i].hashAlg

/-- The digests of the first `n` entries, in order, without the skipped ones. -/
def domainDigests (build : BuildOptions) (t : TpmlDigestValues) (n : Nat) : List DigestValue :=
  (t.digests.toList.take n).filterMap (taggedDigest build)

/-- One more entry brings at most one more digest. -/
theorem domainDigests_succ {t : TpmlDigestValues} {i : Nat} (hi : i < 16) :
    domainDigests build t (i + 1) =
      domainDigests build t i ++ (taggedDigest build t.digests[i]).toList := by
  have hlength : i < t.digests.toList.length := by simpa using hi
  rw [domainDigests, List.take_succ_eq_append_getElem hlength, List.filterMap_append]
  cases h : taggedDigest build t.digests[i] <;> simp [domainDigests, h]

/-- An entry that is skipped or decoded extends the result by its digest. -/
theorem appendDomainDigest_of_accepted {t : TpmlDigestValues} {i : Nat} (hi : i < 16)
    (h : EnabledId build t.digests[i].hashAlg ∨ DisabledSha1Id build t.digests[i].hashAlg)
    (result : List DigestValue) :
    appendDomainDigest build t i result =
      .value (result ++ (taggedDigest build t.digests[i]).toList) := by
  by_cases hskip : DisabledSha1Id build t.digests[i].hashAlg
  · have hnone := taggedDigest_of_disabled hskip
    simp [appendDomainDigest, hi, shouldSkip_iff.mpr hskip, hnone]
  · obtain ⟨a, ha⟩ := enabledId_iff.mp (h.resolve_right hskip)
    have hkeep := shouldSkip_of_not hskip
    rcases makeTaggedDigestValue_cases build t.digests[i] with
      ⟨_, d, _, hd, hmake⟩ | ⟨message, hrefused, _⟩
    · simp [appendDomainDigest, hi, hkeep, hmake, hd]
    · rw [ha] at hrefused
      cases hrefused

/-- An entry that is neither known nor skipped ends the loop with an error. -/
theorem appendDomainDigest_of_refused {t : TpmlDigestValues} {i : Nat} (hi : i < 16)
    (h : ¬(EnabledId build t.digests[i].hashAlg ∨ DisabledSha1Id build t.digests[i].hashAlg))
    (result : List DigestValue) :
    ∃ e, appendDomainDigest build t i result = .unexpected e := by
  obtain ⟨hid, hskip⟩ := not_or.mp h
  have hkeep := shouldSkip_of_not hskip
  rcases makeTaggedDigestValue_cases build t.digests[i] with
    ⟨a, _, ha, _⟩ | ⟨message, _, _, hmake⟩
  · exact absurd (enabledId_iff.mpr ⟨a, ha⟩) hid
  · exact ⟨⟨.backendError, message⟩, by simp [appendDomainDigest, hi, hkeep, hmake, fail]⟩

/-- **Event digests.**  An accepted list decodes to its digests; any other list
is refused. -/
theorem toDomainDigests_exact (build : BuildOptions) (t : TpmlDigestValues) :
    (AcceptsDigests build t ∧
      toDomainDigests build t = .value (domainDigests build t t.count.toNat)) ∨
    (¬AcceptsDigests build t ∧ ∃ e, toDomainDigests build t = .unexpected e) := by
  by_cases hcount : t.count.toNat ≤ 16
  · have hrun : toDomainDigests build t =
        forIndex (appendDomainDigest build t) t.count.toNat 0 [] := by
      simp [toDomainDigests, hcount]
    let accepted : Nat → Prop := fun i => ∀ h : i < 16,
      EnabledId build t.digests[i].hashAlg ∨ DisabledSha1Id build t.digests[i].hashAlg
    have hgood : ∀ i result, 0 ≤ i → i < 0 + t.count.toNat → result = domainDigests build t i →
        accepted i → ∃ next, appendDomainDigest build t i result = .value next ∧
          next = domainDigests build t (i + 1) := by
      intro i result _ hi hresult haccepted
      have hlt : i < 16 := by omega
      refine ⟨_, appendDomainDigest_of_accepted hlt (haccepted hlt) result, ?_⟩
      rw [domainDigests_succ hlt, hresult]
    have hrefused : ∀ i result, 0 ≤ i → i < 0 + t.count.toNat → result = domainDigests build t i →
        ¬accepted i → ∃ e, appendDomainDigest build t i result = .unexpected e := by
      intro i result _ hi _
      have hlt : i < 16 := by omega
      intro hbad
      exact appendDomainDigest_of_refused hlt (fun h => hbad fun _ => h) result
    have hstart : [] = domainDigests build t 0 := by
      simp [domainDigests]
    rcases forIndex_exact _ _ accepted _ 0 [] hgood hrefused hstart with
      ⟨hall, result, hloop, hresult⟩ | ⟨⟨i, _, hi, hbad⟩, e, hloop⟩
    · refine Or.inl ⟨⟨hcount, fun i h hi => hall i (by omega) (by omega) h⟩, ?_⟩
      rw [hrun, hloop, hresult, Nat.zero_add]
    · have hlt : i < t.count.toNat := by
        clear hbad
        omega
      exact Or.inr ⟨fun haccepts => hbad fun h => haccepts.2 i h hlt, e, hrun.trans hloop⟩
  · refine Or.inr ⟨fun haccepts => hcount haccepts.1,
      ⟨.backendError, "TPM returned too many PCR event digests"⟩, ?_⟩
    simp [toDomainDigests, Nat.lt_of_not_le hcount, fail]

/-- Every digest that is returned is as long as its algorithm says. -/
theorem wellFormed_of_mem_domainDigests {t : TpmlDigestValues} {n : Nat} {d : DigestValue}
    (h : d ∈ domainDigests build t n) : d.WellFormed build := by
  obtain ⟨entry, _, hentry⟩ := List.mem_filterMap.mp h
  exact wellFormed_of_mem_taggedDigest hentry

/-! ## Read values -/

/-- The lists of digests that `to_domain_read_values` accepts for a selection. -/
def AcceptsValues (build : BuildOptions) (values : TpmlDigest) (selection : Selection build) :
    Prop :=
  values.count.toNat ≤ 8 ∧ values.count.toNat = selection.indices.card ∧
    ∀ i (h : i < 8), i < values.count.toNat →
      digestSize build selection.algorithm = .value values.digests[i].size.toNat

/-- The value that pairs an index with one digest of the response. -/
def readValue (a : HashAlgorithm) (index : Index) (digest : Tpm2bDigest) : Value :=
  ⟨index, ⟨a, digest.buffer.toList.take a.size⟩⟩

/-- The selected indices in ascending order, each with the digest at its position. -/
def readValues (values : TpmlDigest) (selection : Selection build) : List Value :=
  List.zipWith (readValue selection.algorithm) (ascending selection.indices)
    values.digests.toList

/-- A read returns one value for each PCR of the selection. -/
theorem length_readValues {values : TpmlDigest} {selection : Selection build}
    (h : selection.indices.card ≤ 8) :
    (readValues values selection).length = selection.indices.card := by
  simp [readValues, h]

/-- Each index of the selection occurs in the values once, in ascending order. -/
theorem map_index_readValues {values : TpmlDigest} {selection : Selection build}
    (h : selection.indices.card ≤ 8) :
    (readValues values selection).map Value.index = ascending selection.indices := by
  apply List.ext_getElem
  · simp [length_readValues h]
  · intro i hi hselected
    simp [readValues, readValue]

/-- Its values are digests of the selection's bank. -/
theorem wellFormed_of_mem_readValues {values : TpmlDigest} {selection : Selection build}
    {v : Value} (h : v ∈ readValues values selection) :
    v.digest.algorithm = selection.algorithm ∧ v.digest.WellFormed build := by
  obtain ⟨i, hi, rfl⟩ := List.getElem_of_mem h
  simp only [readValues, List.getElem_zipWith, readValue, true_and]
  exact ⟨selection.enabled, by simpa using selection.algorithm.size_le⟩

/-- One iteration reads the digest and the index at the same position. -/
theorem appendReadValue_of_size {values : TpmlDigest} {selection : Selection build} {i : Nat}
    (hi : i < 8) (hcard : i < selection.indices.card)
    (hsize : values.digests[i].size.toNat = selection.algorithm.size) :
    appendReadValue build values selection.algorithm (ascending selection.indices) i
        ((readValues values selection).take i) =
      .value ((readValues values selection).take (i + 1)) := by
  have hlength : i < (readValues values selection).length := by
    simp [readValues, hcard, hi]
  have hmake := makeDigestValue_of_size (⟨64, values.digests[i].buffer⟩)
    selection.enabled selection.algorithm.size_le
  rw [List.take_succ_eq_append_getElem hlength]
  simp [appendReadValue, hi, hcard, hsize, hmake, readValues, readValue]

/-- A value of another size ends the loop with an error. -/
theorem appendReadValue_of_size_ne {values : TpmlDigest} {a : HashAlgorithm} {i : Nat}
    (hi : i < 8) (ha : a.Enabled build) (hsize : values.digests[i].size.toNat ≠ a.size)
    (indices : List Index) (result : List Value) :
    ∃ e, appendReadValue build values a indices i result = .unexpected e := by
  have hmake : makeDigestValue build a (some ⟨64, values.digests[i].buffer⟩)
      values.digests[i].size.toNat =
        fail .backendError "TPM returned PCR digest with unexpected size" :=
    makeDigestValue_of_size_ne ha hsize
  exact ⟨_, by simp [appendReadValue, hi, hmake, fail]; rfl⟩

/-- **Read values.**  An accepted list decodes to the selected indices paired
with its digests; any other list is refused. -/
theorem toDomainReadValues_exact (values : TpmlDigest) (selection : Selection build) :
    (AcceptsValues build values selection ∧
      toDomainReadValues build values selection = .value (readValues values selection)) ∨
    (¬AcceptsValues build values selection ∧
      ∃ e, toDomainReadValues build values selection = .unexpected e) := by
  by_cases hcount : values.count.toNat ≤ 8
  swap
  · refine Or.inr ⟨fun haccepts => hcount haccepts.1,
      ⟨.backendError, "TPM returned too many PCR read digests"⟩, ?_⟩
    simp [toDomainReadValues, Nat.lt_of_not_le hcount, fail]
  by_cases hcard : values.count.toNat = selection.indices.card
  swap
  · refine Or.inr ⟨fun haccepts => hcard haccepts.2.1,
      ⟨.backendError, "TPM returned PCR digest count mismatch"⟩, ?_⟩
    simp [toDomainReadValues, hcount, hcard, fail]
  have hrun : toDomainReadValues build values selection =
      forIndex (appendReadValue build values selection.algorithm (ascending selection.indices))
        values.count.toNat 0 [] := by
    simp [toDomainReadValues, ← hcard, hcount]
  have hdigest := digestSize_of_enabled selection.enabled
  let accepted : Nat → Prop := fun i => ∀ h : i < 8,
    values.digests[i].size.toNat = selection.algorithm.size
  have hgood : ∀ i result, 0 ≤ i → i < 0 + values.count.toNat →
      result = (readValues values selection).take i → accepted i →
      ∃ next, appendReadValue build values selection.algorithm (ascending selection.indices) i
          result = .value next ∧ next = (readValues values selection).take (i + 1) := by
    intro i result _ hi hresult haccepted
    have hlt : i < 8 := by omega
    subst hresult
    exact ⟨_, appendReadValue_of_size hlt (by omega) (haccepted hlt), rfl⟩
  have hrefused : ∀ i result, 0 ≤ i → i < 0 + values.count.toNat →
      result = (readValues values selection).take i → ¬accepted i →
      ∃ e, appendReadValue build values selection.algorithm (ascending selection.indices) i
          result = .unexpected e := by
    intro i result _ hi _
    have hlt : i < 8 := by omega
    intro hbad
    exact appendReadValue_of_size_ne hlt selection.enabled (fun h => hbad fun _ => h) _ result
  rcases forIndex_exact _ _ accepted _ 0 [] hgood hrefused List.take_zero.symm with
    ⟨hall, result, hloop, hresult⟩ | ⟨⟨i, _, hi, hbad⟩, e, hloop⟩
  · refine Or.inl ⟨⟨hcount, hcard, fun i h hi => ?_⟩, ?_⟩
    · rw [hdigest, hall i (by omega) (by omega) h]
    · have hlength : (readValues values selection).length ≤ 0 + values.count.toNat := by
        rw [length_readValues (hcard ▸ hcount), hcard]
        omega
      rw [hrun, hloop, hresult, List.take_of_length_le hlength]
  · have hlt : i < values.count.toNat := by
      clear hbad
      omega
    refine Or.inr ⟨fun haccepts => hbad fun h => ?_, e, hrun.trans hloop⟩
    have hsize := haccepts.2.2 i h hlt
    rw [hdigest] at hsize
    exact (Result.value.inj hsize).symm

/-! ## The three parsers together -/

/-- Each text of a refused selection differs from that of the branch that no
response reaches. -/
theorem ne_invalidIndex_of_mem_refusedSelectionMessages {message : String}
    (h : message ∈ refusedSelectionMessages) :
    message ≠ "TPM returned invalid PCR index" := by
  intro htext
  subst htext
  revert h
  decide

/-- The numbers a decoded selection holds, written byte by byte. -/
theorem selectedSet_exact {selection : TpmsPcrSelection}
    (hsize : selection.sizeofSelect.toNat ≤ 4) (pcr : Nat) :
    (∃ index ∈ selectedSet selection, index.val = pcr) ↔
      ∃ (b k : Nat) (_ : b < 4), b < selection.sizeofSelect.toNat ∧ k < 8 ∧
        selection.pcrSelect[b].toNat.testBit k = true ∧ pcr = 8 * b + k := by
  rw [← selects_iff_mem_selectedSet hsize]
  constructor
  · rintro ⟨hlt, hbit⟩
    have hbyte : pcr / 8 < 4 := by omega
    rw [bit_of_lt hbyte] at hbit
    exact ⟨pcr / 8, pcr % 8, hbyte, hlt, by omega, hbit, by omega⟩
  · rintro ⟨b, k, hb, hlt, hk, hbit, rfl⟩
    have hdiv : (8 * b + k) / 8 = b := by omega
    have hmul : 8 * b + k = b * 8 + k := by omega
    refine ⟨hdiv.symm ▸ hlt, ?_⟩
    rw [hmul, bit_mul_add hb hk]
    exact hbit

/-- **The parsers are total and exact.**  On every structure a backend can
return, a parser returns a value or a backend error: it indexes past no array
and throws nothing.  What it accepts, and the value it then returns, are
decided by the counts, identifiers and sizes alone. -/
theorem response_parsers_exact (build : BuildOptions) :
    (∀ (t : TpmlPcrSelection) (requested : Selection build),
      (toDomainSelection build t requested.algorithm).NoFault ∧
      ((toDomainSelection build t requested.algorithm).Succeeds ↔
        t.count = 0 ∨ t.count = 1 ∧ EnabledId build t.first.hash ∧
          t.first.sizeofSelect.toNat ≤ 4) ∧
      (t.count = 0 → toDomainSelection build t requested.algorithm =
        .value ⟨requested.algorithm, ∅, requested.enabled⟩) ∧
      (∀ selection, t.count = 1 →
        toDomainSelection build t requested.algorithm = .value selection →
          t.first.hash = algorithmToTpm build selection.algorithm ∧
          ∀ pcr : Nat, (∃ index ∈ selection.indices, index.val = pcr) ↔
            ∃ (b k : Nat) (_ : b < 4), b < t.first.sizeofSelect.toNat ∧ k < 8 ∧
              t.first.pcrSelect[b].toNat.testBit k = true ∧ pcr = 8 * b + k) ∧
      toDomainSelection build t requested.algorithm ≠
        fail .backendError "TPM returned invalid PCR index") ∧
    (∀ (values : TpmlDigest) (selection : Selection build),
      (toDomainReadValues build values selection).NoFault ∧
      ((toDomainReadValues build values selection).Succeeds ↔
        values.count.toNat ≤ 8 ∧ values.count.toNat = selection.indices.card ∧
          ∀ i (_ : i < 8), i < values.count.toNat →
            digestSize build selection.algorithm = .value values.digests[i].size.toNat) ∧
      (∀ result, toDomainReadValues build values selection = .value result →
        result = readValues values selection)) ∧
    (∀ t : TpmlDigestValues,
      (toDomainDigests build t).NoFault ∧
      ((toDomainDigests build t).Succeeds ↔
        t.count.toNat ≤ 16 ∧ ∀ i (_ : i < 16), i < t.count.toNat →
          EnabledId build t.digests[i].hashAlg ∨ DisabledSha1Id build t.digests[i].hashAlg) ∧
      (∀ result, toDomainDigests build t = .value result →
        result = domainDigests build t t.count.toNat)) := by
  refine ⟨fun t requested => ?_, fun values selection => ?_, fun t => ?_⟩
  · by_cases haccepts : AcceptsSelection build t
    · rcases haccepts with hcount | ⟨hcount, ⟨a, ha, hhash⟩, hsize⟩
      · rw [toDomainSelection_of_empty hcount requested.enabled]
        refine ⟨by simp, by simp [hcount], fun _ => rfl, fun selection hone => ?_,
          fun h => by cases h⟩
        rw [hcount] at hone
        cases hone
      · rw [toDomainSelection_of_one hcount ha hhash hsize]
        refine ⟨by simp, ?_, fun hzero => ?_, fun selection _ hvalue => ?_, fun h => by cases h⟩
        · exact iff_of_true (Result.succeeds_value _) (Or.inr ⟨hcount, ⟨a, ha, hhash⟩, hsize⟩)
        · rw [hcount] at hzero
          cases hzero
        · cases hvalue
          exact ⟨hhash, fun pcr => selectedSet_exact hsize pcr⟩
    · obtain ⟨message, hmessage, hrun⟩ :=
        toDomainSelection_of_not_accepts haccepts requested.algorithm
      rw [hrun]
      refine ⟨Result.noFault_unexpected _, ⟨fun h => absurd h (by simp [fail]), fun h =>
        absurd h haccepts⟩, fun hzero => absurd (Or.inl hzero) haccepts,
        fun _ _ h => (by cases h), ?_⟩
      intro heq
      exact ne_invalidIndex_of_mem_refusedSelectionMessages hmessage
        (congrArg Error.message (Result.unexpected.inj heq))
  · rcases toDomainReadValues_exact values selection with ⟨haccepts, hrun⟩ | ⟨hrefused, e, hrun⟩
    · rw [hrun]
      exact ⟨by simp, ⟨fun _ => haccepts, fun _ => by simp⟩, fun result h => by cases h; rfl⟩
    · rw [hrun]
      exact ⟨by simp, ⟨fun h => absurd h (by simp), fun h => absurd h hrefused⟩,
        fun _ h => by cases h⟩
  · rcases toDomainDigests_exact build t with ⟨haccepts, hrun⟩ | ⟨hrefused, e, hrun⟩
    · rw [hrun]
      exact ⟨by simp, ⟨fun _ => haccepts, fun _ => by simp⟩, fun result h => by cases h; rfl⟩
    · rw [hrun]
      exact ⟨by simp, ⟨fun h => absurd h (by simp), fun h => absurd h hrefused⟩,
        fun _ h => by cases h⟩

end Tpmkit
