import Tpmkit.ResponseParsers

/-!
# Digest lists on the wire

A digest list travels as a counted array of tagged unions.  The encoder picks
the union member by algorithm, the decoder by identifier, and the identifier
mapping is a third switch; `encodedDigest` and `taggedDigest` name what the
three do to one entry, and the laws for lists follow entry by entry.
-/

namespace Tpmkit

open Checked Pcr

variable {build : BuildOptions}

/-! ## The encoder -/

/-- The tagged union that a digest is sent in. -/
def encodedDigest (build : BuildOptions) (d : DigestValue) : TpmtHa :=
  ⟨algorithmToTpm build d.algorithm, overlay d.digest TpmtHa.zeroed.digest⟩

/-- The wire form of a digest list; unused entries stay zero. -/
def encodedDigests (build : BuildOptions) (digests : List DigestValue) : TpmlDigestValues :=
  ⟨UInt32.ofNat digests.length,
    overlay (digests.map (encodedDigest build)) TpmlDigestValues.zeroed.digests⟩

/-- The bytes of a digest fit the union member of its algorithm. -/
theorem setDigestBytes_of_stored {d : DigestValue} (h : d.Stored build) :
    setDigestBytes build .zeroed d = .value (encodedDigest build d) := by
  have hmember : d.digest.length ≤ d.algorithm.size := h.length_le
  have hstorage : d.digest.length ≤ 64 := Nat.le_trans hmember d.algorithm.size_le
  simp [setDigestBytes, unionMemberSize_of_enabled h.enabled,
    copyInto_of_le hmember hstorage, encodedDigest]

/-- The encoder does not leave its arrays on the digests that an object can hold, a moved-from
one included. -/
theorem toTpmDigestValues_of_stored {digests : List DigestValue}
    (hlength : digests.length ≤ 16) (hdigests : ∀ d ∈ digests, d.Stored build) :
    toTpmDigestValues build digests = .value (encodedDigests build digests) := by
  have hloop : forIndex (encodeDigestValue build digests) digests.length 0
      TpmlDigestValues.zeroed.digests =
        (.value (encodedDigests build digests).digests : Outcome (Vector TpmtHa 16)) := by
    have hfill := forIndex_fill (encodeDigestValue build digests)
      (digests.map (encodedDigest build)) TpmlDigestValues.zeroed.digests (by simpa using hlength)
      (fun i hi encoded hzeroed => by
        have hsource : i < digests.length := by simpa using hi
        have hentry : i < 16 := by omega
        have hfirst : encoded[i] = .zeroed := by simpa [TpmlDigestValues.zeroed] using hzeroed
        have hset := setDigestBytes_of_stored (hdigests _ (List.getElem_mem hsource))
        simp [encodeDigestValue, hentry, hsource, hfirst, hset])
    simpa [encodedDigests] using hfill
  simp [toTpmDigestValues, hloop, encodedDigests]

/-- In particular not on well-formed ones. -/
theorem toTpmDigestValues_of_wellFormed {digests : List DigestValue}
    (hlength : digests.length ≤ 16) (hdigests : ∀ d ∈ digests, d.WellFormed build) :
    toTpmDigestValues build digests = .value (encodedDigests build digests) :=
  toTpmDigestValues_of_stored hlength fun d hd => (hdigests d hd).stored

/-- The count is the number of the digests, not cut off to 32 bits. -/
theorem encodedDigests_count {digests : List DigestValue} (h : digests.length ≤ 16) :
    (encodedDigests build digests).count.toNat = digests.length := by
  simp only [encodedDigests, UInt32.toNat_ofNat', Nat.reducePow]
  omega

/-- The entry of a digest stands at its place. -/
theorem encodedDigests_getElem {digests : List DigestValue} {i : Nat} (hi : i < digests.length)
    (hentry : i < 16) :
    (encodedDigests build digests).digests[i] = encodedDigest build digests[i] := by
  simp [encodedDigests, getElem_overlay hentry, List.getD_eq_getElem?_getD, hi]

/-! ## From the list to the wire and back -/

/-- The decoder finds the digest that was encoded. -/
theorem taggedDigest_encodedDigest {d : DigestValue} (h : d.WellFormed build) :
    taggedDigest build (encodedDigest build d) = some d := by
  have hstorage : d.digest.length ≤ 64 := h.length_eq ▸ d.algorithm.size_le
  rw [taggedDigest_of_enabled h.enabled rfl, encodedDigest, ← h.length_eq,
    take_overlay hstorage]

/-- What the encoder makes is accepted by the parser. -/
theorem acceptsDigests_encodedDigests {digests : List DigestValue} (hlength : digests.length ≤ 16)
    (hdigests : ∀ d ∈ digests, d.WellFormed build) :
    AcceptsDigests build (encodedDigests build digests) := by
  refine ⟨by rwa [encodedDigests_count hlength], fun i hentry hi => Or.inl ?_⟩
  rw [encodedDigests_count hlength] at hi
  rw [encodedDigests_getElem hi hentry]
  exact ⟨_, (hdigests _ (List.getElem_mem hi)).enabled, rfl⟩

/-- And it is parsed back as the digests, in their order. -/
theorem domainDigests_encodedDigests {digests : List DigestValue} (hlength : digests.length ≤ 16)
    (hdigests : ∀ d ∈ digests, d.WellFormed build) :
    domainDigests build (encodedDigests build digests) digests.length = digests := by
  have htake : (encodedDigests build digests).digests.toList.take digests.length =
      digests.map (encodedDigest build) := by
    have hmap : (digests.map (encodedDigest build)).length ≤ 16 := by simpa using hlength
    have hread : (overlay (digests.map (encodedDigest build))
        TpmlDigestValues.zeroed.digests).toList.take (digests.map (encodedDigest build)).length =
          digests.map (encodedDigest build) := take_overlay hmap
    simpa [encodedDigests] using hread
  rw [domainDigests, htake, List.filterMap_map]
  calc digests.filterMap (taggedDigest build ∘ encodedDigest build)
      = digests.filterMap some := List.filterMap_congr fun d hd =>
        taggedDigest_encodedDigest (hdigests d hd)
    _ = digests := List.filterMap_some

/-! ## From the wire to the list and back -/

/-- `t'` has the count of `t`, its identifiers, and the bytes of its digests. -/
structure AgreesOnDigests (build : BuildOptions) (t t' : TpmlDigestValues) : Prop where
  count_eq : t'.count = t.count
  id_eq : ∀ i (_ : i < 16), i < t.count.toNat → t'.digests[i].hashAlg = t.digests[i].hashAlg
  byte_eq : ∀ i (_ : i < 16) a size j (_ : j < 64), i < t.count.toNat →
    algorithmFromTpm build t.digests[i].hashAlg = .value a → digestSize build a = .value size →
      j < size → t'.digests[i].digest[j] = t.digests[i].digest[j]

/-- A list in which nothing is skipped decodes one digest per entry. -/
theorem domainDigests_of_enabled {t : TpmlDigestValues} {n : Nat} (hn : n ≤ 16)
    (henabled : ∀ i (_ : i < 16), i < n → EnabledId build t.digests[i].hashAlg) :
    (domainDigests build t n).length = n ∧
      ∀ i (_ : i < 16), i < n → (domainDigests build t n)[i]? = taggedDigest build t.digests[i] := by
  induction n with
  | zero => exact ⟨by simp [domainDigests], fun i _ hi => absurd hi (Nat.not_lt_zero i)⟩
  | succ n ih =>
      have hentry : n < 16 := by omega
      obtain ⟨hlength, hget⟩ := ih (by omega) fun i h hi => henabled i h (by omega)
      obtain ⟨a, ha, hid⟩ := henabled n hentry (by omega)
      have hlast := taggedDigest_of_enabled ha hid
      rw [domainDigests_succ hentry, hlast]
      refine ⟨by simp [hlength], fun i h hi => ?_⟩
      by_cases heq : i = n
      · subst heq
        simp [hlength, hlast]
      · rw [List.getElem?_append_left (by omega)]
        exact hget i h (by omega)

/-- Encoding the digest of an entry restores its identifier and its digest bytes. -/
theorem encodedDigest_of_taggedDigest {entry : TpmtHa} {d : DigestValue}
    (h : taggedDigest build entry = some d) :
    (encodedDigest build d).hashAlg = entry.hashAlg ∧
      ∀ a j (_ : j < 64), algorithmFromTpm build entry.hashAlg = .value a → j < a.size →
        (encodedDigest build d).digest[j] = entry.digest[j] := by
  unfold taggedDigest at h
  split at h
  · next a ha =>
      cases h
      refine ⟨(algorithmFromTpm_eq_value.mp ha).2, fun a' j hj ha' hsize => ?_⟩
      obtain rfl : a = a' := by
        rw [ha] at ha'
        exact Result.value.inj ha'
      simp [encodedDigest, getElem_overlay hj, List.getD_eq_getElem?_getD, hsize, hj]
  · cases h

/-- An accepted structure of which no entry is skipped is encoded again as itself, up to the
bytes that no entry uses. -/
theorem agreesOnDigests_of_accepts {t : TpmlDigestValues} (haccepts : AcceptsDigests build t)
    (hkept : ∀ i (_ : i < 16), i < t.count.toNat → ¬DisabledSha1Id build t.digests[i].hashAlg) :
    AgreesOnDigests build t (encodedDigests build (domainDigests build t t.count.toNat)) := by
  obtain ⟨hlength, hget⟩ := domainDigests_of_enabled haccepts.1
    fun i h hi => (haccepts.2 i h hi).resolve_right (hkept i h hi)
  have hentry : ∀ i (_ : i < 16), i < t.count.toNat → ∃ d,
      taggedDigest build t.digests[i] = some d ∧
      (encodedDigests build (domainDigests build t t.count.toNat)).digests[i] =
        encodedDigest build d := by
    intro i h hi
    have hin : i < (domainDigests build t t.count.toNat).length := by omega
    refine ⟨_, ?_, encodedDigests_getElem hin h⟩
    rw [← hget i h hi, List.getElem?_eq_getElem hin]
  refine ⟨?_, fun i h hi => ?_, fun i h a size j hj hi ha hsize hlt => ?_⟩
  · simp [encodedDigests, hlength]
  · obtain ⟨d, hd, heq⟩ := hentry i h hi
    rw [heq, (encodedDigest_of_taggedDigest hd).1]
  · obtain ⟨d, hd, heq⟩ := hentry i h hi
    have hsize' : size = a.size := (enabled_of_digestSize hsize).2
    simp only [heq, (encodedDigest_of_taggedDigest hd).2 a j hj ha (hsize' ▸ hlt)]

/-- **Digest lists survive the wire.**  A list of at most 16 well-formed digests
decodes to itself; a list that decodes without a skipped entry re-encodes to
the same count, identifiers and digest bytes. -/
theorem digest_codec_inverse (build : BuildOptions) :
    (∀ digests : List DigestValue, digests.length ≤ 16 →
      (∀ d ∈ digests, d.WellFormed build) →
        ∃ t, toTpmDigestValues build digests = .value t ∧
          toDomainDigests build t = .value digests) ∧
    (∀ (t : TpmlDigestValues) (digests : List DigestValue),
      toDomainDigests build t = .value digests →
      (∀ i (_ : i < 16), i < t.count.toNat →
        shouldSkipDisabledPcrAlgorithm build t.digests[i].hashAlg = false) →
        ∃ t', toTpmDigestValues build digests = .value t' ∧ AgreesOnDigests build t t') := by
  constructor
  · intro digests hlength hdigests
    refine ⟨_, toTpmDigestValues_of_wellFormed hlength hdigests, ?_⟩
    rcases toDomainDigests_exact build (encodedDigests build digests) with ⟨_, hrun⟩ | ⟨hrefused, _⟩
    · rw [hrun, encodedDigests_count hlength, domainDigests_encodedDigests hlength hdigests]
    · exact absurd (acceptsDigests_encodedDigests hlength hdigests) hrefused
  · intro t digests hdecode hskip
    have hkept : ∀ i (_ : i < 16), i < t.count.toNat →
        ¬DisabledSha1Id build t.digests[i].hashAlg := fun i h hi hdisabled => by
      have hkeep := hskip i h hi
      rw [shouldSkip_iff.mpr hdisabled] at hkeep
      cases hkeep
    rcases toDomainDigests_exact build t with ⟨haccepts, hrun⟩ | ⟨_, e, hrun⟩
    · rw [hrun] at hdecode
      cases hdecode
      have hlength := (domainDigests_of_enabled haccepts.1
        fun i h hi => (haccepts.2 i h hi).resolve_right (hkept i h hi)).1
      exact ⟨_, toTpmDigestValues_of_wellFormed (hlength.symm ▸ haccepts.1)
        fun d hd => wellFormed_of_mem_domainDigests hd, agreesOnDigests_of_accepts haccepts hkept⟩
    · rw [hrun] at hdecode
      cases hdecode

end Tpmkit
