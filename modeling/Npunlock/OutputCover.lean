import Npunlock.Observations

/-!
# Output covers

`derive_act_output_slice_candidates` finds, for each invocation, the routes that copy its
output to the network outputs, and `npunlock_derive_act_output_cover_observations` compares,
for each output symbol, the bytes of the routes and the bytes of the slices.
`output_cover_sound` : on an exact cover every routed byte is a byte of exactly one slice.
The converse holds where no route and no slice of the symbol is empty
(`output_cover_not_complete` : an empty route inside another one counts as an overlap).
-/

namespace Npunlock

/-! ## Slices -/

/-- `npunlock_act_output_slice_candidate_observation`. -/
structure ActOutputSliceCandidateObservation where
  actGroupIndex : ℕ
  actInvocationIndex : ℕ
  actTensorRecordIndex : ℕ
  dmaSectionIndex : ℕ
  dmaTaskIndex : ℕ
  routeCandidateCount : ℕ
  cmxSourceSymbolRaw : ℕ
  actDataAddendRaw : ℤ
  actSpanBytes : ℕ
  routeCmxSourceAddendRaw : ℤ
  routeLengthBytes : ℕ
  outputSymbolRaw : ℕ
  routeOutputAddendRaw : ℤ
  outputSliceAddendCandidate : ℕ
  deriving DecidableEq

/-- `act_output_slice_candidate_matches` : the place of the slice in the output. -/
def actOutputSliceCandidateMatches (act : InvocationRoutingObservation)
    (route : NetworkOutputRouteObservation) : Option ℕ :=
  let routing := act.routing (act.tensorCount - 1)
  let tensor := act.contract (act.tensorCount - 1)
  let actStart := routing.dataAddend.toNat
  let routeStart := route.cmxSourceAddendRaw.toNat
  let routeOutputStart := route.outputAddendRaw.toNat
  if act.tensorCount = 0 then none
  else if routing.dataAddend < 0 ∨ route.cmxSourceAddendRaw < 0 ∨ route.outputAddendRaw < 0 ∨
      tensor.spanBytes = 0 ∨ route.lengthBytes = 0 ∨
      routing.dataSymbol ≠ route.cmxSourceSymbolRaw then none
  else if actStart < routeStart ∨ uint64Max - tensor.spanBytes < actStart ∨
      uint64Max - route.lengthBytes < routeStart ∨
      routeStart + route.lengthBytes < actStart + tensor.spanBytes then none
  else if uint64Max - (actStart - routeStart) < routeOutputStart ∨
      uint64Max - tensor.spanBytes < routeOutputStart + (actStart - routeStart) then none
  else some (routeOutputStart + (actStart - routeStart))

/-- The record that is written for a match. -/
def actOutputSliceCandidate (act : InvocationRoutingObservation) (localCount : ℕ)
    (route : NetworkOutputRouteObservation) (outputSliceAddendCandidate : ℕ) :
    ActOutputSliceCandidateObservation where
  actGroupIndex := act.groupIndex
  actInvocationIndex := act.invocationIndex
  actTensorRecordIndex := act.tensorCount - 1
  dmaSectionIndex := route.dmaSectionIndex
  dmaTaskIndex := route.dmaTaskIndex
  routeCandidateCount := localCount
  cmxSourceSymbolRaw := route.cmxSourceSymbolRaw
  actDataAddendRaw := (act.routing (act.tensorCount - 1)).dataAddend
  actSpanBytes := (act.contract (act.tensorCount - 1)).spanBytes
  routeCmxSourceAddendRaw := route.cmxSourceAddendRaw
  routeLengthBytes := route.lengthBytes
  outputSymbolRaw := route.outputSymbolRaw
  routeOutputAddendRaw := route.outputAddendRaw
  outputSliceAddendCandidate := outputSliceAddendCandidate

section Slices

variable (invocations : List InvocationRoutingObservation)
  (routes : List NetworkOutputRouteObservation)

/-- The first pass : the numbers of comparisons and of matches. -/
def countOutputSlices : Result (ℕ × ℕ) :=
  invocations.foldlM (fun counts act =>
    routes.foldlM (fun counts route =>
      countMatch "ACT output-slice candidate analysis exceeds its work bound"
        "ACT output-slice candidate count overflows"
        (actOutputSliceCandidateMatches act route).isSome counts) counts) (0, 0)

/-- `local_count` : the number of routes that copy the output of an invocation. -/
def routeMatchCount (act : InvocationRoutingObservation) : ℕ :=
  routes.countP fun route => (actOutputSliceCandidateMatches act route).isSome

/-- The slices of an invocation. -/
def outputSlicesOf (act : InvocationRoutingObservation) :
    List ActOutputSliceCandidateObservation :=
  routes.filterMap fun route => (actOutputSliceCandidateMatches act route).map
    (actOutputSliceCandidate act (routeMatchCount routes act) route)

/-- `derive_act_output_slice_candidates`. -/
def deriveActOutputSliceCandidates : Result (List ActOutputSliceCandidateObservation) := do
  let (_, resultCount) ← countOutputSlices invocations routes
  if resultCount = 0 then .ok []
  else do
    refuseIf (∃ act ∈ invocations, act.tensorCount ≠ 0 ∧ uint32Max < routeMatchCount routes act)
      (unsupported "ACT output-slice route ambiguity exceeds the supported range")
    refuseIf ((invocations.flatMap (outputSlicesOf routes)).length ≠ resultCount)
      (unsupported "ACT output-slice candidate count changed during inspection")
    .ok (invocations.flatMap (outputSlicesOf routes))

variable {invocations routes}

theorem length_outputSlicesOf (act : InvocationRoutingObservation) :
    (outputSlicesOf routes act).length = routeMatchCount routes act := by
  unfold outputSlicesOf routeMatchCount
  simp only [List.length_filterMap_eq_countP, Option.isSome_map]

/-- The first pass counts what the second pass writes. -/
theorem of_countOutputSlices {counts : ℕ × ℕ}
    (h : countOutputSlices invocations routes = .ok counts) :
    counts.2 = (invocations.flatMap (outputSlicesOf routes)).length := by
  unfold countOutputSlices at h
  simp only [List.length_flatMap, length_outputSlicesOf]
  refine (foldlM_adds Prod.snd (fun counts act counts' hstep => ?_) h).trans (Nat.zero_add _)
  unfold routeMatchCount
  rw [countP_eq_sum]
  refine foldlM_adds Prod.snd (fun counts route counts' hstep => ?_) hstep
  rw [countMatch_eq_ok hstep]

theorem deriveActOutputSliceCandidates_spec {slices : List ActOutputSliceCandidateObservation}
    (h : deriveActOutputSliceCandidates invocations routes = .ok slices) :
    slices = invocations.flatMap (outputSlicesOf routes) := by
  unfold deriveActOutputSliceCandidates at h
  obtain ⟨counts, hcounts, h⟩ := bind_eq_ok_iff.1 h
  have hcount := of_countOutputSlices hcounts
  dsimp only at h
  exact eq_of_counted hcount h

theorem mem_outputSlicesOf {act : InvocationRoutingObservation}
    {slice : ActOutputSliceCandidateObservation} :
    slice ∈ outputSlicesOf routes act ↔ ∃ route ∈ routes, ∃ place,
      actOutputSliceCandidateMatches act route = some place ∧
        actOutputSliceCandidate act (routeMatchCount routes act) route place = slice := by
  unfold outputSlicesOf
  simp only [List.mem_filterMap, Option.map_eq_some_iff]

end Slices

/-! ## Covers -/

/-- `npunlock_act_output_cover_observation`. -/
structure ActOutputCoverObservation where
  outputSymbolRaw : ℕ
  actGroupCount : ℕ
  groupInvocationCount : ℕ
  routedInvocationCount : ℕ
  unroutedInvocationCount : ℕ
  routeCount : ℕ
  sliceCandidateCount : ℕ
  unresolvedFlags : ℕ
  routeSpanBytes : ℕ
  sliceSpanBytes : ℕ
  exactCover : Bool
  deriving DecidableEq

/-- `NPUNLOCK_OUTPUT_COVER_ROUTE_AMBIGUITY`. -/
def outputCoverRouteAmbiguity : ℕ := 1

/-- `NPUNLOCK_OUTPUT_COVER_ROUTE_OVERLAP`. -/
def outputCoverRouteOverlap : ℕ := 2

/-- `NPUNLOCK_OUTPUT_COVER_SLICE_OVERLAP`. -/
def outputCoverSliceOverlap : ℕ := 4

/-- `NPUNLOCK_OUTPUT_COVER_UNION_MISMATCH`. -/
def outputCoverUnionMismatch : ℕ := 8

/-- The bytes of the output that a route writes, if they are addressable. -/
def routeInterval (route : NetworkOutputRouteObservation) : Option OutputByteInterval :=
  if route.outputAddendRaw < 0 then none
  else byteInterval route.outputAddendRaw.toNat route.lengthBytes

/-- The bytes of the output that a slice holds, if they are addressable. -/
def sliceInterval (slice : ActOutputSliceCandidateObservation) : Option OutputByteInterval :=
  byteInterval slice.outputSliceAddendCandidate slice.actSpanBytes

/-- The routes to an output. -/
def routesTo (routes : List NetworkOutputRouteObservation) (symbol : ℕ) :
    List NetworkOutputRouteObservation :=
  routes.filter fun route => route.outputSymbolRaw = symbol

/-- The slices of an output. -/
def slicesTo (slices : List ActOutputSliceCandidateObservation) (symbol : ℕ) :
    List ActOutputSliceCandidateObservation :=
  slices.filter fun slice => slice.outputSymbolRaw = symbol

/-- A running sum of the lengths of intervals, which must not overflow. -/
def sumSpans (message : String) (intervals : List OutputByteInterval) : Result ℕ :=
  intervals.foldlM (fun span interval => do
    refuseIf (uint64Max - (interval.stop - interval.start) < span) (unsupported message)
    .ok (span + (interval.stop - interval.start))) 0

section Covers

variable (invocations : List InvocationRoutingObservation)
  (routes : List NetworkOutputRouteObservation)
  (slices : List ActOutputSliceCandidateObservation)

/-- The invocations of the groups with a slice of the output. -/
def participatingInvocations (symbol : ℕ) : List InvocationRoutingObservation :=
  invocations.filter fun invocation =>
    ∃ slice ∈ slicesTo slices symbol, slice.actGroupIndex = invocation.groupIndex

/-- The participating invocations with a slice of the output. -/
def routedInvocations (symbol : ℕ) : List InvocationRoutingObservation :=
  (participatingInvocations invocations slices symbol).filter fun invocation =>
    ∃ slice ∈ slicesTo slices symbol, slice.actInvocationIndex = invocation.invocationIndex

/-- The flags of an output. -/
def outputCoverFlags (symbol : ℕ) : ℕ :=
  let routeMerge := mergeOutputByteIntervals ((routesTo routes symbol).filterMap routeInterval)
  let sliceMerge := mergeOutputByteIntervals ((slicesTo slices symbol).filterMap sliceInterval)
  orAll ((routesTo routes symbol).map fun route =>
      flagIf (routeInterval route = none) outputCoverUnionMismatch) |||
    orAll ((slicesTo slices symbol).map fun slice =>
      flagIf (slice.routeCandidateCount ≠ 1) outputCoverRouteAmbiguity |||
        flagIf (sliceInterval slice = none) outputCoverUnionMismatch) |||
    flagIf (routeMerge.2 = true) outputCoverRouteOverlap |||
    flagIf (sliceMerge.2 = true) outputCoverSliceOverlap |||
    flagIf (routeMerge.1 ≠ sliceMerge.1) outputCoverUnionMismatch

/-- The observation of an output symbol. -/
def actOutputCover (symbol : ℕ) : Result ActOutputCoverObservation := do
  let actGroups := (firsts (·.actGroupIndex) (slicesTo slices symbol)).length
  let groupInvocations := (participatingInvocations invocations slices symbol).length
  let routedCount := (routedInvocations invocations slices symbol).length
  let routeIntervals := (routesTo routes symbol).filterMap routeInterval
  let sliceIntervals := (slicesTo slices symbol).filterMap sliceInterval
  let routeSpanBytes ← sumSpans "ACT output-cover route span overflows" routeIntervals
  let sliceSpanBytes ← sumSpans "ACT output-cover slice span overflows" sliceIntervals
  refuseIf (uint32Max < actGroups ∨ uint32Max < groupInvocations ∨ uint32Max < routedCount ∨
      uint32Max < routeIntervals.length ∨ uint32Max < sliceIntervals.length)
    (unsupported "ACT output-cover count exceeds the supported range")
  .ok
    { outputSymbolRaw := symbol
      actGroupCount := actGroups
      groupInvocationCount := groupInvocations
      routedInvocationCount := routedCount
      unroutedInvocationCount := groupInvocations - routedCount
      routeCount := routeIntervals.length
      sliceCandidateCount := sliceIntervals.length
      unresolvedFlags := outputCoverFlags routes slices symbol
      routeSpanBytes := routeSpanBytes
      sliceSpanBytes := sliceSpanBytes
      exactCover := outputCoverFlags routes slices symbol = 0 }

/-- `work_bound` of the output covers. -/
def actOutputCoverWorkBound (resultCount invocationCount routeCount sliceCount : ℕ) :
    Option ℕ := do
  let workBound ← checkedMulSize sliceCount sliceCount
  let workTerm ← checkedMulSize resultCount invocationCount
  let workTerm ← checkedMulSize workTerm sliceCount
  let workBound ← checkedAddSize workBound workTerm
  let workTerm ← checkedMulSize resultCount routeCount
  let workBound ← checkedAddSize workBound workTerm
  let workTerm ← checkedMulSize resultCount sliceCount
  checkedAddSize workBound workTerm

/-- `npunlock_derive_act_output_cover_observations`. -/
def deriveActOutputCoverObservations : Result (List ActOutputCoverObservation) := do
  let symbols := (firsts (·.outputSymbolRaw) slices).map (·.outputSymbolRaw)
  refuseIf (¬withinWorkBound (checkedMulSize slices.length slices.length))
    (unsupported "ACT output-cover analysis exceeds its work bound")
  refuseIf (sizeMax < symbols.length)
    (unsupported "ACT output-cover observation count overflows")
  if symbols.length = 0 then .ok []
  else do
    refuseIf (¬withinWorkBound (actOutputCoverWorkBound symbols.length invocations.length
        routes.length slices.length))
      (unsupported "ACT output-cover analysis exceeds its work bound")
    let covers ← symbols.mapM (actOutputCover invocations routes slices)
    refuseIf (symbols.length < covers.length)
      (unsupported "ACT output-cover observation count changed during inspection")
    .ok covers

end Covers

/-! ## Exact covers -/

/-- The routes and the slices of an output are addressable, disjoint and unambiguous, and
they hold the same bytes. -/
structure OutputCovered (routes : List NetworkOutputRouteObservation)
    (slices : List ActOutputSliceCandidateObservation) (symbol : ℕ) : Prop where
  routes_valid : ∀ route ∈ routesTo routes symbol, routeInterval route ≠ none
  routes_apart : ((routesTo routes symbol).filterMap routeInterval).Pairwise Interval.Apart
  unambiguous : ∀ slice ∈ slicesTo slices symbol, slice.routeCandidateCount = 1
  slices_valid : ∀ slice ∈ slicesTo slices symbol, sliceInterval slice ≠ none
  slices_apart : ((slicesTo slices symbol).filterMap sliceInterval).Pairwise Interval.Apart
  union_eq : Interval.covered ((routesTo routes symbol).filterMap routeInterval) =
    Interval.covered ((slicesTo slices symbol).filterMap sliceInterval)

variable {invocations : List InvocationRoutingObservation}
  {routes : List NetworkOutputRouteObservation}
  {slices : List ActOutputSliceCandidateObservation} {symbol : ℕ}

theorem of_routeInterval {route : NetworkOutputRouteObservation} {interval : OutputByteInterval}
    (h : routeInterval route = some interval) :
    interval = ⟨route.outputAddendRaw.toNat, route.outputAddendRaw.toNat + route.lengthBytes⟩ := by
  unfold routeInterval at h
  split_ifs at h
  exact byteInterval_eq_some h

theorem of_sliceInterval {slice : ActOutputSliceCandidateObservation}
    {interval : OutputByteInterval} (h : sliceInterval slice = some interval) :
    interval = ⟨slice.outputSliceAddendCandidate,
      slice.outputSliceAddendCandidate + slice.actSpanBytes⟩ :=
  byteInterval_eq_some h

theorem sumSpans_eq_ok {message : String} {intervals : List OutputByteInterval} {span : ℕ}
    (h : sumSpans message intervals = .ok span) : span = Interval.total intervals := by
  unfold sumSpans at h
  refine (foldlM_adds id (fun span interval span' hstep => ?_) h).trans (Nat.zero_add _)
  obtain ⟨-, hstep⟩ := refuseIf_bind_eq_ok_iff.1 hstep
  exact (Except.ok.inj hstep).symm

theorem outputCoverFlags_eq_zero_iff : outputCoverFlags routes slices symbol = 0 ↔
    (∀ route ∈ routesTo routes symbol, routeInterval route ≠ none) ∧
    (∀ slice ∈ slicesTo slices symbol,
      slice.routeCandidateCount = 1 ∧ sliceInterval slice ≠ none) ∧
    (mergeOutputByteIntervals ((routesTo routes symbol).filterMap routeInterval)).2 = false ∧
    (mergeOutputByteIntervals ((slicesTo slices symbol).filterMap sliceInterval)).2 = false ∧
    (mergeOutputByteIntervals ((routesTo routes symbol).filterMap routeInterval)).1 =
      (mergeOutputByteIntervals ((slicesTo slices symbol).filterMap sliceInterval)).1 := by
  unfold outputCoverFlags
  simp only [or_eq_zero_iff, orAll_map_eq_zero_iff,
    flagIf_eq_zero_iff (show outputCoverUnionMismatch ≠ 0 by decide),
    flagIf_eq_zero_iff (show outputCoverRouteAmbiguity ≠ 0 by decide),
    flagIf_eq_zero_iff (show outputCoverRouteOverlap ≠ 0 by decide),
    flagIf_eq_zero_iff (show outputCoverSliceOverlap ≠ 0 by decide),
    not_not, Bool.not_eq_true, ne_eq, and_assoc]

/-- Without flags the output is covered. -/
theorem outputCovered_of_flags (h : outputCoverFlags routes slices symbol = 0) :
    OutputCovered routes slices symbol := by
  obtain ⟨hroutes, hslices, hrouteOverlap, hsliceOverlap, hmerge⟩ :=
    outputCoverFlags_eq_zero_iff.1 h
  refine ⟨hroutes, Interval.apart_of_not_overlap hrouteOverlap,
    fun slice hs => (hslices slice hs).1, fun slice hs => (hslices slice hs).2,
    Interval.apart_of_not_overlap hsliceOverlap, ?_⟩
  unfold mergeOutputByteIntervals at hmerge
  rw [← Interval.covered_merge, hmerge, Interval.covered_merge]

/-- A covered output of nonempty routes and slices has no flags. -/
theorem flags_of_outputCovered (h : OutputCovered routes slices symbol)
    (hroutes : ∀ route ∈ routesTo routes symbol, route.lengthBytes ≠ 0)
    (hslices : ∀ slice ∈ slicesTo slices symbol, slice.actSpanBytes ≠ 0) :
    outputCoverFlags routes slices symbol = 0 := by
  have hrouteLt : ∀ x ∈ (routesTo routes symbol).filterMap routeInterval, x.start < x.stop := by
    intro x hx
    obtain ⟨route, hroute, heq⟩ := List.mem_filterMap.1 hx
    have hpos := hroutes route hroute
    rw [of_routeInterval heq]
    dsimp only
    omega
  have hsliceLt : ∀ x ∈ (slicesTo slices symbol).filterMap sliceInterval, x.start < x.stop := by
    intro x hx
    obtain ⟨slice, hslice, heq⟩ := List.mem_filterMap.1 hx
    have hpos := hslices slice hslice
    rw [of_sliceInterval heq]
    dsimp only
    omega
  exact outputCoverFlags_eq_zero_iff.2 ⟨h.routes_valid,
    fun slice hs => ⟨h.unambiguous slice hs, h.slices_valid slice hs⟩,
    (Interval.overlap_merge_iff hrouteLt).2 h.routes_apart,
    (Interval.overlap_merge_iff hsliceLt).2 h.slices_apart,
    (Interval.merge_eq_merge_iff hrouteLt hsliceLt).2 h.union_eq⟩

/-- The sum of the lengths of addressable routes. -/
theorem total_routeIntervals (h : ∀ route ∈ routes, routeInterval route ≠ none) :
    Interval.total (routes.filterMap routeInterval) = (routes.map (·.lengthBytes)).sum := by
  induction routes with
  | nil => rfl
  | cons route routes ih =>
    obtain ⟨hroute, hrest⟩ := List.forall_mem_cons.1 h
    obtain ⟨interval, heq⟩ := Option.ne_none_iff_exists'.1 hroute
    rw [List.filterMap_cons_some heq, Interval.total_cons, ih hrest, of_routeInterval heq,
      List.map_cons, List.sum_cons]
    dsimp only
    omega

theorem start_le_routeIntervals : ∀ x ∈ routes.filterMap routeInterval, x.start ≤ x.stop := by
  intro x hx
  obtain ⟨route, -, heq⟩ := List.mem_filterMap.1 hx
  rw [of_routeInterval heq]
  exact Nat.le_add_right _ _

theorem start_le_sliceIntervals : ∀ x ∈ slices.filterMap sliceInterval, x.start ≤ x.stop := by
  intro x hx
  obtain ⟨slice, -, heq⟩ := List.mem_filterMap.1 hx
  rw [of_sliceInterval heq]
  exact Nat.le_add_right _ _

/-- Without flags the routes and the slices are as long together. -/
theorem total_eq_of_flags (h : outputCoverFlags routes slices symbol = 0) :
    Interval.total ((routesTo routes symbol).filterMap routeInterval) =
      Interval.total ((slicesTo slices symbol).filterMap sliceInterval) := by
  obtain ⟨-, -, hroutes, hslices, hmerge⟩ := outputCoverFlags_eq_zero_iff.1 h
  unfold mergeOutputByteIntervals at hroutes hslices hmerge
  rw [← Interval.total_merge start_le_routeIntervals hroutes, hmerge,
    Interval.total_merge start_le_sliceIntervals hslices]

theorem actOutputCover_eq_ok {cover : ActOutputCoverObservation}
    (h : actOutputCover invocations routes slices symbol = .ok cover) :
    cover.outputSymbolRaw = symbol ∧
    (cover.exactCover = true ↔ outputCoverFlags routes slices symbol = 0) ∧
    cover.routeSpanBytes = Interval.total ((routesTo routes symbol).filterMap routeInterval) ∧
    cover.sliceSpanBytes = Interval.total ((slicesTo slices symbol).filterMap sliceInterval) := by
  unfold actOutputCover at h
  obtain ⟨routeSpan, hrouteSpan, h⟩ := bind_eq_ok_iff.1 h
  obtain ⟨sliceSpan, hsliceSpan, h⟩ := bind_eq_ok_iff.1 h
  obtain ⟨-, h⟩ := refuseIf_bind_eq_ok_iff.1 h
  obtain rfl := (Except.ok.inj h).symm
  exact ⟨rfl, decide_eq_true_iff, sumSpans_eq_ok hrouteSpan, sumSpans_eq_ok hsliceSpan⟩

theorem deriveActOutputCoverObservations_eq_ok {covers : List ActOutputCoverObservation}
    (h : deriveActOutputCoverObservations invocations routes slices = .ok covers) :
    ((firsts (·.outputSymbolRaw) slices).map (·.outputSymbolRaw)).mapM
      (actOutputCover invocations routes slices) = .ok covers := by
  unfold deriveActOutputCoverObservations at h
  obtain ⟨-, h⟩ := refuseIf_bind_eq_ok_iff.1 h
  obtain ⟨-, h⟩ := refuseIf_bind_eq_ok_iff.1 h
  split_ifs at h with hnone
  · rw [List.eq_nil_of_length_eq_zero hnone]
    exact h
  · obtain ⟨-, h⟩ := refuseIf_bind_eq_ok_iff.1 h
    obtain ⟨covers', hcovers, h⟩ := bind_eq_ok_iff.1 h
    obtain ⟨-, h⟩ := refuseIf_bind_eq_ok_iff.1 h
    rwa [← Except.ok.inj h]

/-- A cover is derived for each output with a slice. An exact cover is sound, and the bytes
of the output are in one slice each ; without empty routes and slices the converse holds. -/
theorem output_cover_sound {covers : List ActOutputCoverObservation}
    (h : deriveActOutputCoverObservations invocations routes slices = .ok covers) :
    (covers.map (·.outputSymbolRaw)).Nodup ∧
    (∀ symbol, symbol ∈ covers.map (·.outputSymbolRaw) ↔
      ∃ slice ∈ slices, slice.outputSymbolRaw = symbol) ∧
    ∀ cover ∈ covers,
      (cover.exactCover = true →
        OutputCovered routes slices cover.outputSymbolRaw ∧
        (∀ byte, (∃ route ∈ routesTo routes cover.outputSymbolRaw,
            Interval.within routeInterval byte route = true) →
          (slicesTo slices cover.outputSymbolRaw).countP
            (Interval.within sliceInterval byte) = 1) ∧
        (∀ byte, (∃ slice ∈ slicesTo slices cover.outputSymbolRaw,
            Interval.within sliceInterval byte slice = true) →
          (routesTo routes cover.outputSymbolRaw).countP
            (Interval.within routeInterval byte) = 1) ∧
        cover.routeSpanBytes =
          ((routesTo routes cover.outputSymbolRaw).map (·.lengthBytes)).sum ∧
        cover.routeSpanBytes = cover.sliceSpanBytes) ∧
      ((∀ route ∈ routesTo routes cover.outputSymbolRaw, route.lengthBytes ≠ 0) →
        (∀ slice ∈ slicesTo slices cover.outputSymbolRaw, slice.actSpanBytes ≠ 0) →
        OutputCovered routes slices cover.outputSymbolRaw → cover.exactCover = true) := by
  have hmap := deriveActOutputCoverObservations_eq_ok h
  have hsymbols := map_eq_of_mapM (fun _ _ hcover => (actOutputCover_eq_ok hcover).1) hmap
  refine ⟨?_, fun symbol => ?_, fun cover hcover => ?_⟩
  · rw [hsymbols]
    exact nodup_firsts _ _
  · rw [hsymbols, List.mem_map]
    constructor
    · rintro ⟨slice, hslice, rfl⟩
      exact ⟨slice, mem_of_mem_firsts hslice, rfl⟩
    · rintro ⟨slice, hslice, rfl⟩
      exact exists_mem_firsts hslice
  · obtain ⟨symbol, -, hsymbol⟩ := exists_of_mapM hmap hcover
    obtain ⟨rfl, hexact, hrouteSpan, hsliceSpan⟩ := actOutputCover_eq_ok hsymbol
    refine ⟨fun hcovered => ?_, fun hroutes hslices hcovered =>
      hexact.2 (flags_of_outputCovered hcovered hroutes hslices)⟩
    have hflags := hexact.1 hcovered
    have hcovered := outputCovered_of_flags hflags
    refine ⟨hcovered, fun byte hbyte => ?_, fun byte hbyte => ?_, ?_, ?_⟩
    · exact Interval.countP_within hcovered.slices_apart
        (hcovered.union_eq ▸ Interval.mem_covered_filterMap.2 hbyte)
    · exact Interval.countP_within hcovered.routes_apart
        (hcovered.union_eq ▸ Interval.mem_covered_filterMap.2 hbyte)
    · rw [hrouteSpan, total_routeIntervals hcovered.routes_valid]
    · rw [hrouteSpan, hsliceSpan, total_eq_of_flags hflags]

/-- A route of a number of bytes to an output. -/
def exampleRoute (place length : ℕ) : NetworkOutputRouteObservation :=
  ⟨1, 0, 4, place, 1, place, length⟩

/-- A slice of ten bytes of the same output. -/
def exampleSlice : ActOutputSliceCandidateObservation :=
  ⟨0, 0, 1, 1, 0, 1, 4, 0, 10, 0, 10, 1, 0, 0⟩

/-- Four invocations with outputs of two bytes, one behind another. -/
def coverInvocations : List InvocationRoutingObservation :=
  [exampleInvocation 0 0 0 100 0 0 1, exampleInvocation 0 1 1 102 2 0 1,
    exampleInvocation 1 2 0 104 4 1 2, exampleInvocation 1 3 1 106 6 1 2]

/-- Routes that copy three of them to one output, and the last one to half of another. -/
def coverRoutes : List NetworkOutputRouteObservation :=
  [exampleRoute 0 4, exampleRoute 4 2, ⟨1, 2, 4, 6, 2, 0, 2⟩, ⟨1, 3, 4, 8, 2, 2, 2⟩]

/-- The first output is covered and the second one is not. -/
theorem output_cover_sound_example : ∃ slices,
    deriveActOutputSliceCandidates coverInvocations coverRoutes = .ok slices ∧
      OutputCovered coverRoutes slices 1 ∧ ¬OutputCovered coverRoutes slices 2 := by
  have hslices : deriveActOutputSliceCandidates coverInvocations coverRoutes =
      .ok (coverInvocations.flatMap (outputSlicesOf coverRoutes)) := by
    decide +kernel
  have hcovers : deriveActOutputCoverObservations coverInvocations coverRoutes
      (coverInvocations.flatMap (outputSlicesOf coverRoutes)) =
        .ok [⟨1, 2, 4, 3, 1, 2, 3, 0, 6, 6, true⟩, ⟨2, 1, 2, 1, 1, 2, 1, 8, 4, 2, false⟩] := by
    decide +kernel
  obtain ⟨-, -, hsound⟩ := output_cover_sound hcovers
  refine ⟨_, hslices, ((hsound _ List.mem_cons_self).1 rfl).1, fun hcovered => ?_⟩
  have hexact := (hsound _ (List.mem_cons_of_mem _ List.mem_cons_self)).2 (by decide +kernel)
    (by decide +kernel) hcovered
  exact Bool.false_ne_true hexact

/-- An empty route inside another route is apart from it, and counts as an overlap. -/
theorem output_cover_not_complete : ¬∀ (invocations : List InvocationRoutingObservation)
    (routes : List NetworkOutputRouteObservation)
    (slices : List ActOutputSliceCandidateObservation) (covers : List ActOutputCoverObservation),
    deriveActOutputCoverObservations invocations routes slices = .ok covers →
    ∀ cover ∈ covers,
      cover.exactCover = true ↔ OutputCovered routes slices cover.outputSymbolRaw := by
  intro h
  have hcovers : deriveActOutputCoverObservations [] [exampleRoute 0 10, exampleRoute 5 0]
      [exampleSlice] = .ok [⟨1, 1, 0, 0, 0, 2, 1, 2, 10, 10, false⟩] := by
    decide +kernel
  have hempty : Interval.points (⟨5, 5⟩ : OutputByteInterval) = ∅ := Set.Ico_self _
  have hroutes : (routesTo [exampleRoute 0 10, exampleRoute 5 0] 1).filterMap routeInterval =
      [⟨0, 10⟩, ⟨5, 5⟩] := by
    decide
  have hslices : (slicesTo [exampleSlice] 1).filterMap sliceInterval = [⟨0, 10⟩] := by
    decide
  have hcovered : OutputCovered [exampleRoute 0 10, exampleRoute 5 0] [exampleSlice] 1 := by
    refine ⟨by decide, ?_, by decide, by decide, ?_, ?_⟩
    · rw [hroutes, List.pairwise_pair]
      unfold Interval.Apart
      rw [hempty]
      exact disjoint_bot_right
    · rw [hslices]
      exact List.pairwise_singleton _ _
    · rw [hroutes, hslices, Interval.covered_cons, Interval.covered_cons, hempty,
        Interval.covered_cons, Set.empty_union]
  exact absurd ((h _ _ _ _ hcovers _ List.mem_cons_self).2 hcovered) (by decide)

end Npunlock
