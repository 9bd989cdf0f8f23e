import Npunlock.ActDpuCover

/-!
# Scans over DPU addresses

`dpu_address_is_first` and `dpu_address_field_mask` are two scans over the address table of
a DPU invariant. The first accepts the addresses of `firstAddresses`
(`map_get_acceptedAddresses`), so every place that is not ambiguous is listed once ; the
fields of the second are those with the same place (`testBit_dpuAddressFieldMaskAt_iff`).
`dpu_addresses_enumerated` : the masks of the accepted addresses divide the fields that are
not ambiguous among them.
-/

namespace Npunlock

/-! ## The source -/

section Scans

variable (addresses : List DpuCmxAddressObservation) (addressIndex : Fin addresses.length)
  (ambiguousFieldsRaw : ℕ)

/-- `dpu_address_is_first`. -/
def dpuAddressIsFirst : Bool :=
  let address := addresses.get addressIndex
  if ambiguousFieldsRaw &&& 1 <<< address.fieldIndex ≠ 0 then false
  else !(addresses.take addressIndex).any fun earlier =>
    ambiguousFieldsRaw &&& 1 <<< earlier.fieldIndex = 0 ∧
      earlier.dataSymbolRaw = address.dataSymbolRaw ∧
      earlier.dataAddendRaw = address.dataAddendRaw

/-- `dpu_address_field_mask` at an index of the table. -/
def dpuAddressFieldMaskAt : ℕ :=
  let address := addresses.get addressIndex
  addresses.foldl (fun mask other =>
    if ambiguousFieldsRaw &&& 1 <<< other.fieldIndex = 0 ∧
        other.dataSymbolRaw = address.dataSymbolRaw ∧
        other.dataAddendRaw = address.dataAddendRaw then mask ||| 1 <<< other.fieldIndex
    else mask) 0

/-- The indices that the first scan accepts, in the order of the table. -/
def acceptedAddresses : List (Fin addresses.length) :=
  (List.finRange addresses.length).filter fun addressIndex =>
    dpuAddressIsFirst addresses addressIndex ambiguousFieldsRaw

end Scans

/-! ## Tests of the scans -/

theorem and_one_shiftLeft_eq_zero_iff {flags field : ℕ} :
    flags &&& 1 <<< field = 0 ↔ flags.testBit field = false := by
  rw [Nat.one_shiftLeft, Nat.and_two_pow]
  cases flags.testBit field <;> simp

theorem place_eq_iff {left right : DpuCmxAddressObservation} :
    left.place = right.place ↔ left.dataSymbolRaw = right.dataSymbolRaw ∧
      left.dataAddendRaw = right.dataAddendRaw :=
  Prod.mk.injEq .. ▸ Iff.rfl

variable {addresses : List DpuCmxAddressObservation} {ambiguousFieldsRaw : ℕ}

theorem dpuAddressIsFirst_iff {addressIndex : Fin addresses.length} :
    dpuAddressIsFirst addresses addressIndex ambiguousFieldsRaw = true ↔
      ambiguousFieldsRaw.testBit (addresses.get addressIndex).fieldIndex = false ∧
        ∀ earlier ∈ addresses.take addressIndex,
          ambiguousFieldsRaw.testBit earlier.fieldIndex = false →
            earlier.place ≠ (addresses.get addressIndex).place := by
  unfold dpuAddressIsFirst
  simp only [ne_eq, and_one_shiftLeft_eq_zero_iff, ← place_eq_iff]
  split_ifs with h <;> simp_all

/-! ## The accepted addresses -/

/-- The first records of a filtered list, by the records before them. -/
theorem firstsFrom_filter {α κ : Type} [DecidableEq κ] (key : α → κ) (p : α → Bool) :
    ∀ earlier l : List α, firstsFrom key (earlier.filter p) (l.filter p) =
      ((List.finRange l.length).filter fun i =>
        decide (p (l.get i) = true ∧
          ∀ b ∈ earlier ++ l.take i, p b = true → key b ≠ key (l.get i))).map l.get
  | earlier, [] => rfl
  | earlier, a :: l => by
    have ih := firstsFrom_filter key p (earlier ++ [a]) l
    let first (i : Fin (a :: l).length) : Bool := decide (p ((a :: l).get i) = true ∧
      ∀ b ∈ earlier ++ (a :: l).take i, p b = true → key b ≠ key ((a :: l).get i))
    have htail : (((List.finRange l.length).map Fin.succ).filter first).map (a :: l).get =
        firstsFrom key ((earlier ++ [a]).filter p) (l.filter p) := by
      rw [ih, List.filter_map, List.map_map]
      simp only [first, Function.comp_def, List.append_assoc, List.singleton_append,
        Fin.val_succ, List.take_succ_cons]
      rfl
    have hhead : first 0 = true ↔ p a = true ∧ ¬∃ b ∈ earlier.filter p, key b = key a := by
      simp [first]
    have hrange : List.finRange (a :: l).length = 0 :: (List.finRange l.length).map Fin.succ :=
      List.finRange_succ
    change _ = ((List.finRange (a :: l).length).filter first).map (a :: l).get
    rw [hrange, List.filter_cons, List.filter_cons]
    by_cases hp : p a = true
    · have hearlier : (earlier ++ [a]).filter p = earlier.filter p ++ [a] := by
        simp [List.filter_append, hp]
      rw [if_pos hp, firstsFrom, ← hearlier, ← htail]
      by_cases hseen : ∃ b ∈ earlier.filter p, key b = key a
      · rw [if_pos hseen, if_neg fun h => (hhead.1 h).2 hseen, List.nil_append]
      · rw [if_neg hseen, if_pos (hhead.2 ⟨hp, hseen⟩)]
        rfl
    · have hearlier : (earlier ++ [a]).filter p = earlier.filter p := by
        simp [List.filter_append, hp]
      rw [if_neg hp, ← hearlier, ← htail, if_neg fun h => hp (hhead.1 h).1]

/-- The scan accepts `firstAddresses`. -/
theorem map_get_acceptedAddresses :
    (acceptedAddresses addresses ambiguousFieldsRaw).map addresses.get =
      firstAddresses addresses ambiguousFieldsRaw := by
  unfold firstAddresses firsts classifiedAddresses
  rw [← List.filter_nil, firstsFrom_filter]
  congr 1
  refine List.filter_congr fun i _ => ?_
  rw [Bool.eq_iff_iff, dpuAddressIsFirst_iff]
  simp

theorem mem_acceptedAddresses {addressIndex : Fin addresses.length} :
    addressIndex ∈ acceptedAddresses addresses ambiguousFieldsRaw ↔
      dpuAddressIsFirst addresses addressIndex ambiguousFieldsRaw = true := by
  simp [acceptedAddresses]

/-- Every place that is not ambiguous is the place of an accepted address. -/
theorem exists_acceptedAddress {address : DpuCmxAddressObservation} (h : address ∈ addresses)
    (hfield : ambiguousFieldsRaw.testBit address.fieldIndex = false) :
    ∃ i ∈ acceptedAddresses addresses ambiguousFieldsRaw,
      (addresses.get i).place = address.place := by
  have hfirst : ∃ first ∈ firstAddresses addresses ambiguousFieldsRaw,
      first.place = address.place :=
    exists_mem_firsts (List.mem_filter.2 ⟨h, decide_eq_true hfield⟩)
  obtain ⟨first, hfirst, hplace⟩ := hfirst
  rw [← map_get_acceptedAddresses] at hfirst
  obtain ⟨i, hi, rfl⟩ := List.mem_map.1 hfirst
  exact ⟨i, hi, hplace⟩

/-! ## The masks -/

/-- A scan that collects flags. -/
theorem foldl_or_eq {α : Type} (p : α → Bool) (f : α → ℕ) : ∀ (l : List α) (mask : ℕ),
    l.foldl (fun mask a => if p a then mask ||| f a else mask) mask =
      mask ||| orAll ((l.filter p).map f)
  | [], mask => by simp [orAll]
  | a :: l, mask => by
    rw [List.foldl_cons, foldl_or_eq p f l, List.filter_cons]
    split_ifs
    · rw [List.map_cons, Nat.or_assoc]
      rfl
    · rfl

/-- The scan at an index finds the mask of its address. -/
theorem dpuAddressFieldMaskAt_eq (addressIndex : Fin addresses.length) :
    dpuAddressFieldMaskAt addresses addressIndex ambiguousFieldsRaw =
      dpuAddressFieldMask addresses ambiguousFieldsRaw (addresses.get addressIndex) := by
  have hscan := foldl_or_eq (fun other : DpuCmxAddressObservation =>
    decide (ambiguousFieldsRaw.testBit other.fieldIndex = false ∧
      other.place = (addresses.get addressIndex).place))
    (fun other => 1 <<< other.fieldIndex) addresses 0
  unfold dpuAddressFieldMaskAt dpuAddressFieldMask classifiedAddresses
  simp only [and_one_shiftLeft_eq_zero_iff, ← place_eq_iff]
  simp only [decide_eq_true_eq, Nat.zero_or] at hscan
  rw [hscan, List.filter_filter]
  congr 2
  refine List.filter_congr fun other _ => ?_
  rw [Bool.decide_and, Bool.and_comm]

/-- The fields of a mask : those of the addresses with the same place. -/
theorem testBit_dpuAddressFieldMaskAt_iff {addressIndex : Fin addresses.length} {field : ℕ} :
    (dpuAddressFieldMaskAt addresses addressIndex ambiguousFieldsRaw).testBit field = true ↔
      ∃ other ∈ addresses, ambiguousFieldsRaw.testBit other.fieldIndex = false ∧
        other.place = (addresses.get addressIndex).place ∧ other.fieldIndex = field := by
  rw [dpuAddressFieldMaskAt_eq, dpuAddressFieldMask, testBit_orAll]
  simp [classifiedAddresses, Nat.one_shiftLeft, Nat.testBit_two_pow, and_assoc, and_left_comm]

/-! ## The enumeration -/

/-- The accepted addresses list every place that is not ambiguous once, and their masks are
apart and together hold the fields that are not ambiguous. -/
structure EnumeratesAddresses (addresses : List DpuCmxAddressObservation)
    (ambiguousFieldsRaw : ℕ) : Prop where
  once : ((acceptedAddresses addresses ambiguousFieldsRaw).map fun i =>
    (addresses.get i).place).Nodup
  place_iff : ∀ place : ℕ × ℤ,
    (∃ i ∈ acceptedAddresses addresses ambiguousFieldsRaw, (addresses.get i).place = place) ↔
      ∃ address ∈ addresses, ambiguousFieldsRaw.testBit address.fieldIndex = false ∧
        address.place = place
  apart : (acceptedAddresses addresses ambiguousFieldsRaw).Pairwise fun i j =>
    dpuAddressFieldMaskAt addresses i ambiguousFieldsRaw &&&
      dpuAddressFieldMaskAt addresses j ambiguousFieldsRaw = 0
  field_iff : ∀ field,
    (∃ i ∈ acceptedAddresses addresses ambiguousFieldsRaw,
      (dpuAddressFieldMaskAt addresses i ambiguousFieldsRaw).testBit field = true) ↔
      ∃ address ∈ addresses, address.fieldIndex = field ∧
        ambiguousFieldsRaw.testBit field = false
  mask_lt : ∀ i, dpuAddressFieldMaskAt addresses i ambiguousFieldsRaw < 2 ^ 32

theorem nodup_acceptedPlaces : ((acceptedAddresses addresses ambiguousFieldsRaw).map fun i =>
    (addresses.get i).place).Nodup := by
  have h := nodup_firsts (fun a : DpuCmxAddressObservation => a.place)
    (classifiedAddresses addresses ambiguousFieldsRaw)
  rw [← firstAddresses, ← map_get_acceptedAddresses, List.map_map] at h
  exact h

/-- Addresses with distinct fields are enumerated, whatever fields are ambiguous. -/
theorem dpu_addresses_enumerated (hfields : (addresses.map (·.fieldIndex)).Nodup)
    (hbound : ∀ address ∈ addresses, address.fieldIndex < 32) (ambiguousFieldsRaw : ℕ) :
    EnumeratesAddresses addresses ambiguousFieldsRaw := by
  have hsame {a b : DpuCmxAddressObservation} (ha : a ∈ addresses) (hb : b ∈ addresses)
      (heq : a.fieldIndex = b.fieldIndex) : a = b := List.inj_on_of_nodup_map hfields ha hb heq
  refine ⟨nodup_acceptedPlaces, fun place => ⟨?_, ?_⟩, ?_, fun field => ⟨?_, ?_⟩, fun i => ?_⟩
  · rintro ⟨i, hi, rfl⟩
    exact ⟨_, List.get_mem .., (dpuAddressIsFirst_iff.1 (mem_acceptedAddresses.1 hi)).1, rfl⟩
  · rintro ⟨address, hmem, hfield, rfl⟩
    exact exists_acceptedAddress hmem hfield
  · refine (List.pairwise_map.1 nodup_acceptedPlaces).imp fun {i j} hne => ?_
    refine Nat.eq_of_testBit_eq fun field => ?_
    rw [Nat.testBit_and, Nat.zero_testBit, Bool.and_eq_false_iff, ← Bool.not_eq_true,
      ← Bool.not_eq_true, ← not_and_or]
    rintro ⟨hi, hj⟩
    obtain ⟨a, ha, _, hplacei, hfielda⟩ := testBit_dpuAddressFieldMaskAt_iff.1 hi
    obtain ⟨b, hb, _, hplacej, hfieldb⟩ := testBit_dpuAddressFieldMaskAt_iff.1 hj
    obtain rfl := hsame ha hb (hfielda.trans hfieldb.symm)
    exact hne (hplacei.symm.trans hplacej)
  · rintro ⟨i, _, hbit⟩
    obtain ⟨other, hmem, hclear, _, rfl⟩ := testBit_dpuAddressFieldMaskAt_iff.1 hbit
    exact ⟨other, hmem, rfl, hclear⟩
  · rintro ⟨address, hmem, rfl, hclear⟩
    obtain ⟨i, hi, hplace⟩ := exists_acceptedAddress hmem hclear
    exact ⟨i, hi, testBit_dpuAddressFieldMaskAt_iff.2 ⟨address, hmem, hclear, hplace.symm, rfl⟩⟩
  · refine Nat.lt_pow_two_of_testBit _ fun field hfield => ?_
    rw [← Bool.not_eq_true]
    intro hbit
    obtain ⟨other, hmem, _, _, rfl⟩ := testBit_dpuAddressFieldMaskAt_iff.1 hbit
    exact absurd (hbound other hmem) (by omega)

/-- Two fields with one place, an ambiguous field, and a field with another place. -/
theorem dpu_addresses_enumerated_example :
    EnumeratesAddresses [⟨3, 0, 7, 64⟩, ⟨5, 0, 7, 64⟩, ⟨0, 0, 7, 64⟩, ⟨31, 0, 7, 128⟩] 1 :=
  dpu_addresses_enumerated (by decide) (by decide) 1

end Npunlock
