import Mathlib.Order.Lattice.Nat
import Tpmkit.PcrMarshalling

/-!
# PCR selections on the wire

The encoder ORs one bit per index into the select bytes while it grows the
declared size; the decoder walks every bit of the declared bytes into an
ordered set.  Both are related to the set of PCRs that a `TPMS_PCR_SELECTION`
names (`selectedSet`), and compose to the identity in one direction and to the
canonical form in the other.
-/

namespace Tpmkit

open Checked AscendingSet ByteBitmap Pcr

variable {build : BuildOptions}

/-! ## The set a wire selection names -/

/-- The PCR indices named by a wire selection. -/
def selectedSet (selection : TpmsPcrSelection) : Finset Index :=
  Finset.univ.filter fun index => selection.selects index.val

/-- An index is selected when its bit is. -/
@[simp] theorem mem_selectedSet {selection : TpmsPcrSelection} {index : Index} :
    index ∈ selectedSet selection ↔ selection.selects index.val := by
  simp [selectedSet]

/-- A bitmap that selects the positions of some indices denotes their set. -/
theorem selectedSet_eq_of_selects {selection : TpmsPcrSelection} {indices : Finset Index}
    (h : ∀ pcr, selection.selects pcr ↔ ∃ index ∈ indices, index.val = pcr) :
    selectedSet selection = indices := by
  ext index
  rw [mem_selectedSet, h]
  constructor
  · intro hselected
    obtain ⟨other, hother, heq⟩ := hselected
    exact Fin.ext heq ▸ hother
  · exact fun hindex => ⟨index, hindex, rfl⟩

/-- A wire selection of at most four bytes names no number past the indices. -/
theorem selects_iff_mem_selectedSet {selection : TpmsPcrSelection}
    (hsize : selection.sizeofSelect.toNat ≤ 4) (pcr : Nat) :
    selection.selects pcr ↔ ∃ index ∈ selectedSet selection, index.val = pcr := by
  constructor
  · intro hselects
    have hlt : pcr < Index.maxValue + 1 := by
      have hdiv := hselects.1
      unfold Index.maxValue
      omega
    exact ⟨⟨pcr, hlt⟩, mem_selectedSet.mpr hselects, rfl⟩
  · rintro ⟨index, hindex, rfl⟩
    exact mem_selectedSet.mp hindex

/-- The size a selection of these indices is sent with: at least three bytes,
and enough to hold the highest index. -/
def canonicalSize (indices : Finset Index) : Nat :=
  if h : indices.Nonempty then max 3 ((indices.max' h).val / 8 + 1) else 3

/-- Four bytes hold the bits of all 32 registers. -/
theorem canonicalSize_le (indices : Finset Index) : canonicalSize indices ≤ 4 := by
  unfold canonicalSize
  split
  · next h =>
      have hlt : (indices.max' h).val < 32 := (indices.max' h).isLt
      omega
  · omega

/-- The byte of every selected register is among those that are used. -/
theorem div_lt_canonicalSize {indices : Finset Index} {index : Index} (h : index ∈ indices) :
    index.val / 8 < canonicalSize indices := by
  have hmax : index.val ≤ (indices.max' ⟨index, h⟩).val := indices.le_max' index h
  rw [canonicalSize, dif_pos ⟨index, h⟩]
  omega

/-- The canonical size is the largest size any one index asks for. -/
theorem canonicalSize_eq_sup (indices : Finset Index) :
    canonicalSize indices = max 3 (indices.sup fun index => index.val / 8 + 1) := by
  unfold canonicalSize
  split
  · next h =>
      congr 1
      apply Nat.le_antisymm
      · exact Finset.le_sup (f := fun index : Index => index.val / 8 + 1) (indices.max'_mem h)
      · apply Finset.sup_le
        intro index hindex
        have hle : index.val ≤ (indices.max' h).val := indices.le_max' index hindex
        omega
  · next h => simp [Finset.not_nonempty_iff_eq_empty.mp h]

/-- Growing by one index at a time ends at the canonical size. -/
theorem max_sup_eq_canonicalSize (indices : Finset Index) :
    max 3 (indices.sup fun index => max 3 (index.val / 8 + 1)) = canonicalSize indices := by
  have hle : (indices.sup fun index => max 3 (index.val / 8 + 1)) ≤
      max 3 (indices.sup fun index => index.val / 8 + 1) := by
    apply Finset.sup_le
    intro index hindex
    have hone : index.val / 8 + 1 ≤ indices.sup fun index => index.val / 8 + 1 :=
      Finset.le_sup (f := fun index : Index => index.val / 8 + 1) hindex
    exact max_le_max le_rfl hone
  have hge : (indices.sup fun index => index.val / 8 + 1) ≤
      indices.sup fun index => max 3 (index.val / 8 + 1) := by
    apply Finset.sup_mono_fun
    intro index _
    exact le_max_right ..
  rw [canonicalSize_eq_sup]
  omega

/-! ## The encoder -/

/-- At least three bytes, as the specification of the platform asks, and as many as the register
needs. -/
theorem selectionSizeForPcr_toNat (index : Index) :
    (selectionSizeForPcr index.value).toNat = max 3 (index.val / 8 + 1) := by
  revert index
  decide

/-- What one index adds to a wire selection. -/
structure AddsPcr (before after : TpmsPcrSelection) (index : Index) : Prop where
  hash_eq : after.hash = before.hash
  size_eq : after.sizeofSelect.toNat = max before.sizeofSelect.toNat (max 3 (index.val / 8 + 1))
  bit_eq : ∀ pcr, bit after.pcrSelect pcr = (bit before.pcrSelect pcr || decide (pcr = index.val))

/-- Adding a register sets its bit, leaves the others, and does not leave the array. -/
theorem addSelectedPcr_spec (selection : TpmsPcrSelection) (index : Index) :
    ∃ after, addSelectedPcr selection index = .value after ∧ AddsPcr selection after index := by
  have hlt : index.val < 32 := index.isLt
  have hbyte : index.val / 8 < 4 := by omega
  let after : TpmsPcrSelection :=
    { selection with
      sizeofSelect := max selection.sizeofSelect (selectionSizeForPcr index.value)
      pcrSelect := selection.pcrSelect.set (index.val / 8)
        (withBit selection.pcrSelect[index.val / 8] (index.val % 8)) }
  refine ⟨after, ?_, rfl, ?_, ?_⟩
  · simp [addSelectedPcr, hbyte, after]
  · rw [← selectionSizeForPcr_toNat index]
    exact UInt8.toNat_max ..
  · exact bit_set_withBit hbyte

/-- The encoder's loop adds every index of the list to the selection. -/
theorem foldlM_addSelectedPcr (indices : List Index) (selection : TpmsPcrSelection) :
    ∃ after, indices.foldlM addSelectedPcr selection = .value after ∧
      after.hash = selection.hash ∧
      after.sizeofSelect.toNat =
        max selection.sizeofSelect.toNat (indices.toFinset.sup fun i => max 3 (i.val / 8 + 1)) ∧
      ∀ pcr, bit after.pcrSelect pcr = true ↔
        bit selection.pcrSelect pcr = true ∨ ∃ i ∈ indices, i.val = pcr := by
  induction indices generalizing selection with
  | nil => exact ⟨selection, rfl, rfl, by simp, by simp⟩
  | cons index rest ih =>
      obtain ⟨next, hadd, hnext⟩ := addSelectedPcr_spec selection index
      obtain ⟨after, hrest, hhash, hsize, hbits⟩ := ih next
      refine ⟨after, ?_, hhash.trans hnext.hash_eq, ?_, ?_⟩
      · rw [List.foldlM_cons, hadd, Result.value_bind, hrest]
      · rw [hsize, hnext.size_eq, List.toFinset_cons, Finset.sup_insert]
        exact Nat.max_assoc ..
      · intro pcr
        rw [hbits, hnext.bit_eq]
        simp only [Bool.or_eq_true, decide_eq_true_eq, List.mem_cons, exists_eq_or_imp]
        grind

/-- `t` is the wire form of a selection: one entry with a set bit exactly for
each index, everything else zero. -/
structure EncodesSelection (selection : Selection build) (t : TpmlPcrSelection) : Prop where
  count_eq : t.count = 1
  hash_eq : t.first.hash = algorithmToTpm build selection.algorithm
  size_eq : t.first.sizeofSelect.toNat = canonicalSize selection.indices
  bit_iff : ∀ pcr, bit t.first.pcrSelect pcr = true ↔
    ∃ index ∈ selection.indices, index.val = pcr
  unused_eq : ∀ entry (h : entry < 16), 0 < entry → t.pcrSelections[entry] = .zeroed

/-- The loop over the registers encodes the selection, whatever its order. -/
theorem toTpmSelection_encodes (selection : Selection build) :
    ∃ t, toTpmSelection build selection = .value t ∧ EncodesSelection selection t := by
  obtain ⟨entry, hloop, hhash, hsize, hbits⟩ :=
    foldlM_addSelectedPcr (ascending selection.indices)
      { TpmsPcrSelection.zeroed with
        hash := algorithmToTpm build selection.algorithm
        sizeofSelect := pcrSelectMinSize }
  refine ⟨.single entry, ?_, rfl, ?_, ?_, ?_, ?_⟩
  · simp [toTpmSelection, TpmlPcrSelection.single, TpmlPcrSelection.zeroed, hloop]
  · rw [TpmlPcrSelection.first_single, hhash]
  · have hset : (ascending selection.indices).toFinset = selection.indices := by
      ext index
      simp
    have hmin : pcrSelectMinSize.toNat = 3 := rfl
    rw [TpmlPcrSelection.first_single, hsize, hset, hmin, max_sup_eq_canonicalSize]
  · intro pcr
    simp [TpmlPcrSelection.first_single, hbits, TpmsPcrSelection.zeroed]
  · intro k hk hpos
    have hne : 0 ≠ k := by omega
    simp [TpmlPcrSelection.single, Vector.getElem_set_ne, hne, TpmlPcrSelection.zeroed]

/-- The bits of an encoded selection lie below its declared size. -/
theorem EncodesSelection.selects_iff {selection : Selection build} {t : TpmlPcrSelection}
    (h : EncodesSelection selection t) (index : Index) :
    t.first.selects index.val ↔ index ∈ selection.indices := by
  unfold TpmsPcrSelection.selects
  rw [h.bit_iff, h.size_eq]
  constructor
  · rintro ⟨_, other, hother, heq⟩
    exact Fin.ext heq ▸ hother
  · intro hindex
    exact ⟨div_lt_canonicalSize hindex, index, hindex, rfl⟩

/-- What was encoded is selected. -/
theorem EncodesSelection.selectedSet_eq {selection : Selection build} {t : TpmlPcrSelection}
    (h : EncodesSelection selection t) :
    selectedSet t.first = selection.indices := by
  ext index
  rw [mem_selectedSet, h.selects_iff]

/-! ## The decoder -/

/-- The inner loop never reports an invalid index: four select bytes hold no
bit above PCR 31. -/
theorem collectSelectedBit_spec (selection : TpmsPcrSelection) {byteIndex k : Nat}
    (hbyte : byteIndex < 4) (hk : k < 8) (indices : Finset Index) :
    ∃ after, collectSelectedBit selection byteIndex k indices = .value after ∧
      ∀ index : Index, index ∈ after ↔ index ∈ indices ∨
        (index.val = byteIndex * 8 + k ∧ bit selection.pcrSelect index.val = true) := by
  have hbit : bit selection.pcrSelect (byteIndex * 8 + k) =
      selection.pcrSelect[byteIndex].toNat.testBit k := bit_mul_add hbyte hk
  cases hset : isSet selection.pcrSelect[byteIndex] k with
  | false =>
      refine ⟨indices, by simp [collectSelectedBit, hbyte, hset], fun index => ?_⟩
      rw [isSet_eq_testBit _ hk] at hset
      grind
  | true =>
      have hle : byteIndex * 8 + k ≤ Index.maxValue := by
        unfold Index.maxValue
        omega
      refine ⟨insert ⟨byteIndex * 8 + k, by omega⟩ indices, ?_, fun index => ?_⟩
      · simp only [collectSelectedBit, readAt_of_lt hbyte, Result.value_bind, hset, Bool.not_true,
          Bool.false_eq_true, if_false, gt_iff_lt, Nat.not_lt.mpr hle, Index.make_ofNat hle,
          Result.pure_eq]
      · rw [isSet_eq_testBit _ hk] at hset
        rw [Finset.mem_insert, Fin.ext_iff]
        grind

/-- A byte of the answer adds the registers whose bits it has. -/
theorem collectSelectedByte_spec (selection : TpmsPcrSelection) {byteIndex : Nat}
    (hbyte : byteIndex < 4) (indices : Finset Index) :
    ∃ after, collectSelectedByte selection byteIndex indices = .value after ∧
      ∀ index : Index, index ∈ after ↔ index ∈ indices ∨
        (index.val / 8 = byteIndex ∧ bit selection.pcrSelect index.val = true) := by
  let collected : Nat → Finset Index → Prop := fun k s => ∀ index : Index,
    index ∈ s ↔ index ∈ indices ∨
      (index.val / 8 = byteIndex ∧ index.val % 8 < k ∧ bit selection.pcrSelect index.val = true)
  have hstep : ∀ k s, 0 ≤ k → k < 0 + 8 → collected k s →
      ∃ next, collectSelectedBit selection byteIndex k s = .value next ∧
        collected (k + 1) next := by
    intro k s _ hk hs
    obtain ⟨next, hnext, hmem⟩ := collectSelectedBit_spec selection hbyte (by omega) s
    refine ⟨next, hnext, ?_⟩
    intro index
    rw [hmem, hs]
    grind
  have hstart : collected 0 indices := by
    intro index
    simp
  obtain ⟨after, hloop, hafter⟩ := forIndex_invariant _ collected 8 0 indices hstep hstart
  refine ⟨after, hloop, ?_⟩
  intro index
  rw [hafter]
  grind

/-- The decoder's loops collect exactly the PCRs the selection names. -/
theorem collectSelected_spec (selection : TpmsPcrSelection)
    (hsize : selection.sizeofSelect.toNat ≤ 4) :
    forIndex (collectSelectedByte selection) selection.sizeofSelect.toNat 0 ∅ =
      (.value (selectedSet selection) : Outcome (Finset Index)) := by
  let collected : Nat → Finset Index → Prop := fun b s => ∀ index : Index,
    index ∈ s ↔ index.val / 8 < b ∧ bit selection.pcrSelect index.val = true
  have hstep : ∀ b s, 0 ≤ b → b < 0 + selection.sizeofSelect.toNat → collected b s →
      ∃ next, collectSelectedByte selection b s = .value next ∧ collected (b + 1) next := by
    intro b s _ hb hs
    have hbyte : b < 4 := by omega
    obtain ⟨next, hnext, hmem⟩ := collectSelectedByte_spec selection hbyte s
    refine ⟨next, hnext, ?_⟩
    intro index
    rw [hmem, hs]
    grind
  have hstart : collected 0 ∅ := by
    intro index
    simp
  obtain ⟨after, hloop, hafter⟩ := forIndex_invariant _ collected _ 0 ∅ hstep hstart
  have heq : after = selectedSet selection := by
    ext index
    rw [hafter, mem_selectedSet, TpmsPcrSelection.selects, Nat.zero_add]
  rw [hloop, heq]

/-- An answer without an entry is the empty selection of the bank that was asked. -/
theorem toDomainSelection_of_empty {t : TpmlPcrSelection} {fallback : HashAlgorithm}
    (hcount : t.count = 0) (hfallback : fallback.Enabled build) :
    toDomainSelection build t fallback = .value ⟨fallback, ∅, hfallback⟩ := by
  rw [toDomainSelection, if_pos hcount, Selection.make_of_enabled hfallback]

/-- A response with one well-formed entry decodes to the PCRs it names. -/
theorem toDomainSelection_of_one {t : TpmlPcrSelection} {fallback a : HashAlgorithm}
    (hcount : t.count = 1) (ha : a.Enabled build)
    (hhash : t.first.hash = algorithmToTpm build a)
    (hsize : t.first.sizeofSelect.toNat ≤ 4) :
    toDomainSelection build t fallback =
      .value ⟨a, selectedSet t.first, ha⟩ := by
  have halgorithm := algorithmFromTpm_eq_value.mpr ⟨ha, hhash.symm⟩
  have hmax : ¬t.first.sizeofSelect > tpm2PcrSelectMax := by
    rw [gt_iff_lt, UInt8.lt_iff_toNat_lt]
    exact Nat.not_lt.mpr hsize
  simp [toDomainSelection, hcount, halgorithm, hmax, collectSelected_spec _ hsize,
    Selection.make_of_enabled ha]

/-- The list shapes that `to_domain_selection` accepts. -/
def AcceptsSelection (build : BuildOptions) (t : TpmlPcrSelection) : Prop :=
  t.count = 0 ∨ t.count = 1 ∧ EnabledId build t.first.hash ∧
    t.first.sizeofSelect.toNat ≤ 4

/-- The texts with which a selection is refused. -/
def refusedSelectionMessages : List String :=
  ["TPM returned multiple PCR selections", "TPM returned malformed PCR selection size"] ++
    refusedAlgorithmMessages

/-- A response of any other shape is a backend error. -/
theorem toDomainSelection_of_not_accepts {t : TpmlPcrSelection}
    (h : ¬AcceptsSelection build t) (fallback : HashAlgorithm) :
    ∃ message ∈ refusedSelectionMessages,
      toDomainSelection build t fallback = fail .backendError message := by
  have hzero : ¬t.count = 0 := fun hcount => h (Or.inl hcount)
  by_cases hone : t.count = 1
  · rcases algorithmFromTpm_cases t.first.hash with
      ⟨a, ha⟩ | ⟨message, hmessage, hrefused⟩
    · obtain ⟨henabled, hhash⟩ := algorithmFromTpm_eq_value.mp ha
      have hsize : tpm2PcrSelectMax < t.first.sizeofSelect := by
        rw [UInt8.lt_iff_toNat_lt]
        exact Nat.lt_of_not_le fun hle => h (Or.inr ⟨hone, ⟨a, henabled, hhash.symm⟩, hle⟩)
      exact ⟨"TPM returned malformed PCR selection size", by simp [refusedSelectionMessages],
        by simp [toDomainSelection, hone, ha, hsize]⟩
    · exact ⟨message, List.mem_append_right _ hmessage,
        by simp [toDomainSelection, hone, hrefused, fail]⟩
  · exact ⟨"TPM returned multiple PCR selections", by simp [refusedSelectionMessages],
      by simp [toDomainSelection, hzero, hone]⟩

/-- A response decodes or is refused; nothing faults. -/
theorem toDomainSelection_cases (t : TpmlPcrSelection) {fallback : HashAlgorithm}
    (hfallback : fallback.Enabled build) :
    (∃ selection, toDomainSelection build t fallback = .value selection) ∨
      ∃ e, toDomainSelection build t fallback = .unexpected e := by
  by_cases haccepts : AcceptsSelection build t
  · rcases haccepts with hcount | ⟨hcount, ⟨a, ha, hhash⟩, hsize⟩
    · exact Or.inl ⟨_, toDomainSelection_of_empty hcount hfallback⟩
    · exact Or.inl ⟨_, toDomainSelection_of_one hcount ha hhash hsize⟩
  · obtain ⟨message, _, hfail⟩ := toDomainSelection_of_not_accepts haccepts fallback
    exact Or.inr ⟨_, hfail⟩

/-- What a decoded selection says about the response it came from. -/
theorem of_toDomainSelection_eq_value {t : TpmlPcrSelection} {fallback : HashAlgorithm}
    {selection : Selection build}
    (h : toDomainSelection build t fallback = .value selection) :
    (t.count = 0 ∧ selection.algorithm = fallback ∧ selection.indices = ∅) ∨
    (t.count = 1 ∧ t.first.hash = algorithmToTpm build selection.algorithm ∧
      t.first.sizeofSelect.toNat ≤ 4 ∧
      selection.indices = selectedSet t.first) := by
  by_cases haccepts : AcceptsSelection build t
  · rcases haccepts with hcount | ⟨hcount, ⟨a, ha, hhash⟩, hsize⟩
    · rw [toDomainSelection, if_pos hcount] at h
      exact Or.inl ⟨hcount, Selection.of_make_eq_value h⟩
    · rw [toDomainSelection_of_one hcount ha hhash hsize] at h
      cases h
      exact Or.inr ⟨hcount, hhash, hsize, rfl⟩
  · obtain ⟨message, _, hfail⟩ := toDomainSelection_of_not_accepts haccepts fallback
    rw [hfail] at h
    cases h

/-! ## Round trips -/

/-- `t'` is the canonical form of a one-entry list `t`. -/
structure CanonicalForm (t t' : TpmlPcrSelection) : Prop where
  count_eq : t'.count = 1
  hash_eq : t'.first.hash = t.first.hash
  bit_iff : ∀ pcr, bit t'.first.pcrSelect pcr = true ↔
    t.first.selects pcr
  size_eq : t'.first.sizeofSelect.toNat =
    canonicalSize (selectedSet t.first)
  beyond_eq : ∀ b (h : b < 4), t'.first.sizeofSelect.toNat ≤ b →
    t'.first.pcrSelect[b] = 0
  unused_eq : ∀ entry (h : entry < 16), 0 < entry → t'.pcrSelections[entry] = .zeroed

/-- Bytes past the declared size of an encoded selection are zero. -/
theorem EncodesSelection.beyond_eq {selection : Selection build} {t : TpmlPcrSelection}
    (h : EncodesSelection selection t) {b : Nat} (hb : b < 4)
    (hsize : t.first.sizeofSelect.toNat ≤ b) :
    t.first.pcrSelect[b] = 0 := by
  apply byte_eq_zero hb
  intro k hk
  apply Bool.eq_false_iff.mpr
  intro hbit
  obtain ⟨index, hindex, heq⟩ := (h.bit_iff _).mp hbit
  have hlt := div_lt_canonicalSize hindex
  rw [h.size_eq] at hsize
  omega

/-- Re-encoding a decoded one-entry list gives its canonical form. -/
theorem EncodesSelection.canonical {selection : Selection build} {t t' : TpmlPcrSelection}
    (h : EncodesSelection selection t')
    (hhash : t.first.hash = algorithmToTpm build selection.algorithm)
    (hsize : t.first.sizeofSelect.toNat ≤ 4)
    (hindices : selection.indices = selectedSet t.first) : CanonicalForm t t' where
  count_eq := h.count_eq
  hash_eq := h.hash_eq.trans hhash.symm
  bit_iff := by
    intro pcr
    rw [h.bit_iff, hindices, selects_iff_mem_selectedSet hsize]
  size_eq := hindices ▸ h.size_eq
  beyond_eq := fun _ hb hle => h.beyond_eq hb hle
  unused_eq := h.unused_eq

/-- **Encoding and decoding are inverse on the whole format.**  A selection
survives the round trip through its wire form; a one-entry list that decodes
re-encodes to its canonical form. -/
theorem selection_codec_inverse (build : BuildOptions) :
    (∀ (selection : Selection build) (fallback : HashAlgorithm),
      ∃ t, toTpmSelection build selection = .value t ∧ EncodesSelection selection t ∧
        toDomainSelection build t fallback = .value selection) ∧
    (∀ (t : TpmlPcrSelection) (fallback : HashAlgorithm) (selection : Selection build),
      t.count = 1 → toDomainSelection build t fallback = .value selection →
        ∃ t', toTpmSelection build selection = .value t' ∧ CanonicalForm t t') := by
  constructor
  · intro selection fallback
    obtain ⟨t, hencode, ht⟩ := toTpmSelection_encodes selection
    refine ⟨t, hencode, ht, ?_⟩
    have hsize : t.first.sizeofSelect.toNat ≤ 4 :=
      ht.size_eq ▸ canonicalSize_le selection.indices
    rw [toDomainSelection_of_one ht.count_eq selection.enabled ht.hash_eq hsize]
    simp only [ht.selectedSet_eq]
  · intro t fallback selection hcount hdecode
    obtain ⟨t', hencode, ht'⟩ := toTpmSelection_encodes selection
    refine ⟨t', hencode, ?_⟩
    rcases of_toDomainSelection_eq_value hdecode with
      ⟨hzero, _⟩ | ⟨_, hhash, hsize, hindices⟩
    · rw [hcount] at hzero
      cases hzero
    · exact ht'.canonical hhash hsize hindices

end Tpmkit
