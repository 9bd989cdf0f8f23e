import Mathlib.Data.List.Nodup
import Mathlib.Data.List.Perm.Subperm
import Mathlib.Logic.Function.Basic
import Mathlib.Logic.Relation
import Npunlock.Loop

/-!
# Traversals of a graph

`visit` is the depth-first visit that lists a vertex behind all its dependencies. It
refuses a vertex that depends on itself, and a chain of dependencies longer than the
depth it is given. What it lists is a topological order (`IsTopological`) of the vertices
that the roots depend on (`visitAll_spec`).

`dependencyTable` collects what each listed vertex depends on, as one goes through the
list (`IsTopological.mem_dependencyTable_iff`).

`closure` is the worklist search for the vertices that are reached from a list of
vertices. It ends in as many steps as there are vertices to start from and edges
(`mem_reachedFrom_iff`).
-/

namespace Npunlock

variable {α : Type} [DecidableEq α]

/-! ## Depth-first order -/

/-- How a depth-first visit fails. -/
inductive VisitError
  | cycle
  | depth
  deriving DecidableEq

section Visit

variable (deps : α → List α)

/-- Lists the dependencies of `a` that are not listed yet, then `a`. The vertices that are
being visited are `active`, the ones that are complete are those listed. -/
def visit : ℕ → List α → List α → α → Except VisitError (List α)
  | 0, _, _, _ => .error .depth
  | depth + 1, active, listed, a => do
    if a ∈ listed then .ok listed
    else do
      refuseIf (a ∈ active) VisitError.cycle
      let listed ← (deps a).foldlM (visit depth (a :: active)) listed
      .ok (listed ++ [a])

/-- The visits of several roots. -/
def visitAll (depth : ℕ) (roots : List α) : Except VisitError (List α) :=
  roots.foldlM (visit deps depth []) []

/-- A vertex that `a` depends on, or `a`. -/
def DependsOn (a b : α) : Prop :=
  Relation.ReflTransGen (fun x y => y ∈ deps x) a b

/-- A vertex that `a` depends on through one dependency or more. -/
def StrictlyDependsOn (a b : α) : Prop :=
  Relation.TransGen (fun x y => y ∈ deps x) a b

/-- Each vertex is listed once, behind its dependencies. -/
inductive IsTopological : List α → Prop
  | nil : IsTopological []
  | snoc {l : List α} {a : α} (hl : IsTopological l) (ha : a ∉ l) (hdeps : ∀ b ∈ deps a, b ∈ l) :
      IsTopological (l ++ [a])

variable {deps}

omit [DecidableEq α] in
theorem IsTopological.nodup {l : List α} (h : IsTopological deps l) : l.Nodup := by
  induction h with
  | nil => exact List.nodup_nil
  | snoc _ ha _ ih => exact List.nodup_append.2 ⟨ih, List.nodup_singleton _, by
      rintro x hx _ hy rfl
      exact ha (List.mem_singleton.1 hy ▸ hx)⟩

omit [DecidableEq α] in
/-- The dependencies of a listed vertex stand in front of it. -/
theorem IsTopological.mem_front {l : List α} (h : IsTopological deps l) :
    ∀ {front : List α} {a : α} {back : List α}, l = front ++ a :: back →
      ∀ b ∈ deps a, b ∈ front := by
  induction h with
  | nil =>
    intro front a back heq
    simp at heq
  | @snoc l a' _ _ hdeps ih =>
    intro front a back heq
    rcases List.eq_nil_or_concat back with rfl | ⟨back, c, rfl⟩
    · obtain ⟨rfl, rfl⟩ : l = front ∧ a' = a := by simpa using heq
      exact hdeps
    · rw [List.concat_eq_append, ← List.cons_append, ← List.append_assoc] at heq
      exact ih (List.append_inj_left' heq rfl)

/-- A vertex comes later than its dependencies. -/
theorem IsTopological.idxOf_lt {l : List α} (h : IsTopological deps l) {a b : α} (ha : a ∈ l)
    (hb : b ∈ deps a) : l.idxOf b < l.idxOf a := by
  obtain ⟨front, back, rfl, hnot⟩ := List.eq_append_cons_of_mem ha
  have hfront : b ∈ front := h.mem_front rfl b hb
  rw [List.idxOf_append_of_mem hfront, List.idxOf_append_of_notMem hnot, List.idxOf_cons_self]
  exact List.idxOf_lt_length_iff.2 hfront

omit [DecidableEq α] in
theorem IsTopological.mem_of_dependsOn {l : List α} (h : IsTopological deps l) {a b : α}
    (ha : a ∈ l) (hab : DependsOn deps a b) : b ∈ l := by
  induction hab with
  | refl => exact ha
  | tail _ hdep ih =>
    obtain ⟨front, back, rfl⟩ := List.append_of_mem ih
    exact List.mem_append_left _ (h.mem_front rfl _ hdep)

omit [DecidableEq α] in
theorem StrictlyDependsOn.dependsOn {a b : α} (h : StrictlyDependsOn deps a b) :
    DependsOn deps a b :=
  Relation.TransGen.to_reflTransGen h

omit [DecidableEq α] in
theorem strictlyDependsOn_iff {a b : α} :
    StrictlyDependsOn deps a b ↔ ∃ c ∈ deps a, b = c ∨ StrictlyDependsOn deps c b := by
  rw [StrictlyDependsOn, Relation.TransGen.head'_iff]
  simp only [Relation.reflTransGen_iff_eq_or_transGen, StrictlyDependsOn]

omit [DecidableEq α] in
/-- No vertex depends on itself or on a vertex listed behind it. -/
theorem IsTopological.not_strictlyDependsOn {l : List α} (h : IsTopological deps l) :
    l.Pairwise (fun a b => ¬StrictlyDependsOn deps a b) ∧
      ∀ a ∈ l, ¬StrictlyDependsOn deps a a := by
  induction h with
  | nil => simp
  | @snoc l a hl ha hdeps ih =>
    have hnot : ∀ b ∈ l, ¬StrictlyDependsOn deps b a := fun b hb hba =>
      ha (hl.mem_of_dependsOn hb hba.dependsOn)
    refine ⟨List.pairwise_append.2 ⟨ih.1, List.pairwise_singleton _ _, by simpa using hnot⟩, ?_⟩
    intro b hb hbb
    rcases List.mem_append.1 hb with hb | hb
    · exact ih.2 b hb hbb
    · obtain rfl := List.mem_singleton.1 hb
      obtain ⟨c, hc, hcb | hcb⟩ := strictlyDependsOn_iff.1 hbb
      · exact ha (hcb ▸ hdeps c hc)
      · exact hnot c (hdeps c hc) hcb

section Table

variable (deps)

/-- For each listed vertex the vertices it strictly depends on, found from its dependencies. -/
def dependencyTable (l : List α) : α → List α :=
  l.foldl (fun table a => Function.update table a ((deps a).flatMap fun b => b :: table b))
    fun _ => []

variable {deps}

/-- In a topological order the table is complete. -/
theorem IsTopological.mem_dependencyTable_iff {l : List α} (h : IsTopological deps l) {a b : α}
    (ha : a ∈ l) : b ∈ dependencyTable deps l a ↔ StrictlyDependsOn deps a b := by
  induction h generalizing a b with
  | nil => simp at ha
  | @snoc l a' hl ha' hdeps ih =>
    rw [dependencyTable, List.foldl_append, List.foldl_cons, List.foldl_nil]
    rcases List.mem_append.1 ha with ha | ha
    · have hne : a ≠ a' := fun heq => ha' (heq ▸ ha)
      rw [Function.update_of_ne hne]
      exact ih ha
    · obtain rfl := List.mem_singleton.1 ha
      rw [Function.update_self, strictlyDependsOn_iff, List.mem_flatMap]
      refine exists_congr fun c => and_congr_right fun hc => ?_
      rw [List.mem_cons]
      exact or_congr_right (ih (hdeps c hc))

end Table

/-- What one visit adds. -/
structure VisitSpec (deps : α → List α) (active listed : List α) (roots : List α)
    (listed' : List α) : Prop where
  topological : IsTopological deps listed'
  extends_listed : List.IsPrefix listed listed'
  roots_listed : ∀ a ∈ roots, a ∈ listed'
  not_active : ∀ a ∈ active, a ∉ listed'
  needed : ∀ b ∈ listed', b ∈ listed ∨ ∃ a ∈ roots, DependsOn deps a b

omit [DecidableEq α] in
/-- Visits of a list of roots, one after another, from what one visit does. -/
theorem foldlM_visit_spec {active : List α} {step : List α → α → Except VisitError (List α)}
    (hstep : ∀ {listed a listed'}, step listed a = .ok listed' → IsTopological deps listed →
      (∀ b ∈ active, b ∉ listed) → VisitSpec deps active listed [a] listed') :
    ∀ {roots listed listed' : List α}, roots.foldlM step listed = .ok listed' →
      IsTopological deps listed → (∀ b ∈ active, b ∉ listed) →
        VisitSpec deps active listed roots listed'
  | [], listed, listed', h, htopological, hactive => by
    obtain rfl : listed = listed' := by simpa [pure, Except.pure] using h
    exact ⟨htopological, List.prefix_rfl, by simp, hactive, fun b hb => Or.inl hb⟩
  | a :: roots, listed, listed', h, htopological, hactive => by
    rw [List.foldlM_cons, bind_eq_ok_iff] at h
    obtain ⟨middle, hfirst, hrest⟩ := h
    have hspec := hstep hfirst htopological hactive
    have hspec' := foldlM_visit_spec hstep hrest hspec.topological hspec.not_active
    refine ⟨hspec'.topological, hspec.extends_listed.trans hspec'.extends_listed, ?_,
      hspec'.not_active, ?_⟩
    · intro b hb
      rcases List.mem_cons.1 hb with rfl | hb
      · exact hspec'.extends_listed.subset (hspec.roots_listed b (by simp))
      · exact hspec'.roots_listed b hb
    · intro b hb
      rcases hspec'.needed b hb with hb | ⟨c, hc, hcb⟩
      · rcases hspec.needed b hb with hb | ⟨c, hc, hcb⟩
        · exact Or.inl hb
        · exact Or.inr ⟨c, by simpa using Or.inl (List.mem_singleton.1 hc), hcb⟩
      · exact Or.inr ⟨c, by simp [hc], hcb⟩

theorem visit_spec :
    ∀ {depth : ℕ} {active listed : List α} {a : α} {listed' : List α},
      visit deps depth active listed a = .ok listed' → IsTopological deps listed →
        (∀ b ∈ active, b ∉ listed) → VisitSpec deps active listed [a] listed'
  | 0, active, listed, a, listed', h, _, _ => by
    simp [visit] at h
  | depth + 1, active, listed, a, listed', h, htopological, hactive => by
    rw [visit] at h
    split_ifs at h with hlisted
    · obtain rfl := Except.ok.inj h
      exact ⟨htopological, List.prefix_rfl, by simpa using hlisted, hactive,
        fun b hb => Or.inl hb⟩
    · rw [refuseIf_bind_eq_ok_iff, bind_eq_ok_iff] at h
      obtain ⟨hnot, middle, hdeps, heq⟩ := h
      obtain rfl := Except.ok.inj heq
      have hspec := foldlM_visit_spec visit_spec hdeps htopological (by
        intro b hb
        rcases List.mem_cons.1 hb with rfl | hb
        · exact hlisted
        · exact hactive b hb)
      refine ⟨.snoc hspec.topological (hspec.not_active a (by simp)) hspec.roots_listed,
        hspec.extends_listed.trans (List.prefix_append _ _), by simp, ?_, ?_⟩
      · intro b hb hmem
        rcases List.mem_append.1 hmem with hmem | hmem
        · exact hspec.not_active b (by simp [hb]) hmem
        · exact hnot (List.mem_singleton.1 hmem ▸ hb)
      · intro b hb
        rcases List.mem_append.1 hb with hb | hb
        · rcases hspec.needed b hb with hb | ⟨c, hc, hcb⟩
          · exact Or.inl hb
          · exact Or.inr ⟨a, by simp, Relation.ReflTransGen.head hc hcb⟩
        · exact Or.inr ⟨a, by simp, List.mem_singleton.1 hb ▸ Relation.ReflTransGen.refl⟩

/-- The visits of the roots list, each once and behind its dependencies, the vertices that
some root depends on. -/
theorem visitAll_spec {depth : ℕ} {roots listed : List α}
    (h : visitAll deps depth roots = .ok listed) :
    IsTopological deps listed ∧ ∀ b, b ∈ listed ↔ ∃ a ∈ roots, DependsOn deps a b := by
  have hspec := foldlM_visit_spec visit_spec h .nil (by simp)
  refine ⟨hspec.topological, fun b => ⟨fun hb => ?_, ?_⟩⟩
  · exact (hspec.needed b hb).resolve_left (by simp)
  · rintro ⟨a, ha, hab⟩
    exact hspec.topological.mem_of_dependsOn (hspec.roots_listed a ha) hab

/-! ## Failing visits -/

variable (deps) in
/-- A path of dependencies from `a` with more vertices than the depth. Its vertices other
than the last are distinct. -/
structure IsDeepPath (depth : ℕ) (a : α) (path : List α) : Prop where
  length_eq : path.length = depth + 1
  head_eq : path.head? = some a
  chain : path.IsChain fun x y => y ∈ deps x
  nodup : path.dropLast.Nodup

omit [DecidableEq α] in
theorem dependsOn_of_isChain : ∀ {path : List α} {a b : α}, path.head? = some a →
    (path.IsChain fun x y => y ∈ deps x) → b ∈ path → DependsOn deps a b
  | [c], a, b, hhead, _, hb => by
    obtain rfl : c = a := by simpa using hhead
    rw [List.mem_singleton.1 hb]
    exact .refl
  | c :: d :: path, a, b, hhead, hchain, hb => by
    obtain rfl : c = a := by simpa using hhead
    obtain ⟨hcd, hchain⟩ := List.isChain_cons_cons.1 hchain
    rcases List.mem_cons.1 hb with rfl | hb
    · exact .refl
    · exact .head hcd (dependsOn_of_isChain rfl hchain hb)

omit [DecidableEq α] in
/-- Visits of several roots fail at one of them. -/
theorem foldlM_eq_error {step : List α → α → Except VisitError (List α)} {error : VisitError} :
    ∀ {roots listed : List α}, roots.foldlM step listed = .error error →
      ∃ a ∈ roots, ∃ listed', step listed' a = .error error
  | [], listed, h => by
    simp [pure, Except.pure] at h
  | a :: roots, listed, h => by
    rw [List.foldlM_cons] at h
    cases hstep : step listed a with
    | error error' =>
      rw [hstep] at h
      obtain rfl := Except.error.inj h
      exact ⟨a, by simp, listed, hstep⟩
    | ok middle =>
      rw [hstep] at h
      obtain ⟨b, hb, listed', hstep'⟩ := foldlM_eq_error h
      exact ⟨b, List.mem_cons_of_mem _ hb, listed', hstep'⟩

/-- A visit that fails finds an active vertex, or fails at a dependency. -/
theorem visit_succ_eq_error {depth : ℕ} {active listed : List α} {a : α} {error : VisitError}
    (h : visit deps (depth + 1) active listed a = .error error) :
    a ∈ active ∧ error = .cycle ∨ a ∉ active ∧
      ∃ b ∈ deps a, ∃ listed', visit deps depth (a :: active) listed' b = .error error := by
  rw [visit] at h
  split_ifs at h with hlisted
  by_cases hactive : a ∈ active
  · rw [refuseIf_of _ hactive] at h
    exact .inl ⟨hactive, (Except.error.inj h).symm⟩
  · rw [refuseIf_of_not _ hactive] at h
    cases hfold : (deps a).foldlM (visit deps depth (a :: active)) listed with
    | error error' =>
      obtain rfl : error' = error := by
        rw [hfold] at h
        exact Except.error.inj h
      exact .inr ⟨hactive, foldlM_eq_error hfold⟩
    | ok middle =>
      rw [hfold] at h
      exact absurd h (by simp [bind, Except.bind])

/-- A visit reports a cycle where the active vertices lead to the visited one. -/
theorem visit_cycle :
    ∀ {depth : ℕ} {active listed : List α} {a : α},
      visit deps depth active listed a = .error .cycle →
        (∀ b ∈ active, StrictlyDependsOn deps b a) →
          ∃ b, DependsOn deps a b ∧ StrictlyDependsOn deps b b
  | 0, active, listed, a, h, _ => by
    simp [visit] at h
  | depth + 1, active, listed, a, h, hactive => by
    rcases visit_succ_eq_error h with ⟨ha, -⟩ | ⟨-, b, hb, listed', h⟩
    · exact ⟨a, .refl, hactive a ha⟩
    · obtain ⟨c, hbc, hcc⟩ := visit_cycle h (by
        intro c hc
        rcases List.mem_cons.1 hc with rfl | hc
        · exact .single hb
        · exact (hactive c hc).tail hb)
      exact ⟨c, .head hb hbc, hcc⟩

/-- A visit that runs out of depth went down a path of that many vertices. -/
theorem visit_depth :
    ∀ {depth : ℕ} {active listed : List α} {a : α},
      visit deps depth active listed a = .error .depth →
        ∃ path, IsDeepPath deps depth a path ∧ ∀ b ∈ path.dropLast, b ∉ active
  | 0, active, listed, a, _ =>
    ⟨[a], ⟨rfl, rfl, .singleton a, by simp⟩, by simp⟩
  | depth + 1, active, listed, a, h => by
    rcases visit_succ_eq_error h with ⟨-, herror⟩ | ⟨ha, b, hb, listed', h⟩
    · cases herror
    · obtain ⟨path, hpath, hactive⟩ := visit_depth h
      obtain ⟨b', rest, rfl⟩ := List.exists_cons_of_length_eq_add_one hpath.length_eq
      obtain rfl : b' = b := by simpa using hpath.head_eq
      have hnot : a ∉ (b' :: rest).dropLast := fun hmem => hactive a hmem (by simp)
      refine ⟨a :: b' :: rest, ⟨by simp [hpath.length_eq], rfl,
        List.isChain_cons_cons.2 ⟨hb, hpath.chain⟩, ?_⟩, ?_⟩
      · rw [List.dropLast_cons_cons]
        exact List.nodup_cons.2 ⟨hnot, hpath.nodup⟩
      · rw [List.dropLast_cons_cons]
        intro c hc
        rcases List.mem_cons.1 hc with rfl | hc
        · exact ha
        · exact fun hmem => hactive c hc (List.mem_cons_of_mem _ hmem)

variable (deps) in
/-- Some root depends on a vertex that depends on itself. -/
def IsCyclic (roots : List α) : Prop :=
  ∃ a ∈ roots, ∃ b, DependsOn deps a b ∧ StrictlyDependsOn deps b b

/-- The visits do not succeed where a root leads to a cycle. -/
theorem IsCyclic.visitAll_ne_ok {roots : List α} (h : IsCyclic deps roots) {depth : ℕ}
    {listed : List α} : visitAll deps depth roots ≠ .ok listed := by
  intro hlisted
  obtain ⟨htopological, hmem⟩ := visitAll_spec hlisted
  obtain ⟨a, ha, b, hab, hbb⟩ := h
  exact htopological.not_strictlyDependsOn.2 b ((hmem b).2 ⟨a, ha, hab⟩) hbb

theorem isCyclic_of_visitAll {depth : ℕ} {roots : List α}
    (h : visitAll deps depth roots = .error .cycle) : IsCyclic deps roots := by
  obtain ⟨a, ha, listed, h⟩ := foldlM_eq_error h
  obtain ⟨b, hab, hbb⟩ := visit_cycle h (by simp)
  exact ⟨a, ha, b, hab, hbb⟩

theorem exists_isDeepPath_of_visitAll {depth : ℕ} {roots : List α}
    (h : visitAll deps depth roots = .error .depth) :
    ∃ a ∈ roots, ∃ path, IsDeepPath deps depth a path := by
  obtain ⟨a, ha, listed, h⟩ := foldlM_eq_error h
  obtain ⟨path, hpath, -⟩ := visit_depth h
  exact ⟨a, ha, path, hpath⟩

omit [DecidableEq α] in
/-- A path has at most as many distinct vertices as there are. -/
theorem IsDeepPath.depth_le {depth : ℕ} {a : α} {path vertices : List α}
    (h : IsDeepPath deps depth a path) (hvertices : ∀ b, DependsOn deps a b → b ∈ vertices) :
    depth ≤ vertices.length := by
  have hsubset : path.dropLast ⊆ vertices := fun b hb =>
    hvertices b (dependsOn_of_isChain h.head_eq h.chain (List.dropLast_subset _ hb))
  have hlength := (List.subperm_of_subset h.nodup hsubset).length_le
  rw [List.length_dropLast, h.length_eq] at hlength
  omega

/-- A depth beyond the number of vertices is enough : the visits fail at a cycle only. -/
theorem exists_visitAll_eq_error_iff {depth : ℕ} {roots vertices : List α}
    (hvertices : ∀ a ∈ roots, ∀ b, DependsOn deps a b → b ∈ vertices)
    (hdepth : vertices.length < depth) :
    (∃ error, visitAll deps depth roots = .error error) ↔ IsCyclic deps roots := by
  constructor
  · rintro ⟨error, h⟩
    cases error with
    | cycle => exact isCyclic_of_visitAll h
    | depth =>
      obtain ⟨a, ha, path, hpath⟩ := exists_isDeepPath_of_visitAll h
      have := hpath.depth_le (hvertices a ha)
      omega
  · intro h
    cases hvisit : visitAll deps depth roots with
    | error error => exact ⟨error, rfl⟩
    | ok listed => exact absurd hvisit h.visitAll_ne_ok

end Visit

/-! ## Reached vertices -/

section Reached

variable (edges : List (α × α))

/-- The vertices one edge behind `a`. -/
def successors (a : α) : List α :=
  (edges.filter fun edge => edge.1 = a).map Prod.snd

/-- The loop over the vertices that wait, with those reached so far. -/
def closure : ℕ → List α → List α → List α
  | 0, _, reached => reached
  | _ + 1, [], reached => reached
  | fuel + 1, a :: pending, reached =>
    if a ∈ reached then closure fuel pending reached
    else closure fuel (successors edges a ++ pending) (a :: reached)

/-- The vertices reached from `a` by one edge or more. -/
def reachedFrom (a : α) : List α :=
  closure edges (2 * edges.length) (successors edges a) []

/-- Two vertices linked by an edge. -/
def Linked (a b : α) : Prop :=
  (a, b) ∈ edges

variable {edges}

theorem mem_successors_iff {a b : α} : b ∈ successors edges a ↔ Linked edges a b := by
  simp [successors, Linked]

/-- What waits, and the edges from what is not reached yet. -/
def waiting (edges : List (α × α)) (pending reached : List α) : ℕ :=
  pending.length + edges.countP fun edge => edge.1 ∉ reached

/-- The edges from a vertex that is reached now leave the count. -/
theorem countP_not_mem_cons {a : α} {reached : List α} (ha : a ∉ reached) :
    ∀ edges : List (α × α),
      edges.countP (fun edge => edge.1 = a) + edges.countP (fun edge => edge.1 ∉ a :: reached) =
        edges.countP fun edge => edge.1 ∉ reached
  | [] => rfl
  | edge :: edges => by
    have ih := countP_not_mem_cons ha edges
    by_cases hedge : edge.1 = a
    · rw [List.countP_cons_of_pos (by simpa using hedge),
        List.countP_cons_of_neg (by simp [hedge]),
        List.countP_cons_of_pos (by simpa [hedge] using ha)]
      omega
    · by_cases hmem : edge.1 ∈ reached
      · rw [List.countP_cons_of_neg (by simpa using hedge),
          List.countP_cons_of_neg (by simp [hmem]), List.countP_cons_of_neg (by simpa using hmem)]
        exact ih
      · rw [List.countP_cons_of_neg (by simpa using hedge),
          List.countP_cons_of_pos (by simp [hedge, hmem]),
          List.countP_cons_of_pos (by simpa using hmem)]
        omega

theorem waiting_step {a : α} {pending reached : List α} (ha : a ∉ reached) :
    waiting edges (successors edges a ++ pending) (a :: reached) + 1 ≤
      waiting edges (a :: pending) reached := by
  have hcount := countP_not_mem_cons ha edges
  rw [waiting, waiting, List.length_append, List.length_cons, successors, List.length_map,
    ← List.countP_eq_length_filter]
  omega

theorem mem_of_mem_closure :
    ∀ {fuel : ℕ} {pending reached : List α} {b : α}, b ∈ closure edges fuel pending reached →
      b ∈ reached ∨ ∃ a ∈ pending, Relation.ReflTransGen (Linked edges) a b
  | 0, pending, reached, b, h => Or.inl h
  | fuel + 1, [], reached, b, h => Or.inl h
  | fuel + 1, a :: pending, reached, b, h => by
    rw [closure] at h
    split_ifs at h with ha
    · rcases mem_of_mem_closure h with h | ⟨c, hc, hcb⟩
      · exact Or.inl h
      · exact Or.inr ⟨c, by simp [hc], hcb⟩
    · rcases mem_of_mem_closure h with h | ⟨c, hc, hcb⟩
      · rcases List.mem_cons.1 h with rfl | h
        · exact Or.inr ⟨b, by simp, .refl⟩
        · exact Or.inl h
      · rcases List.mem_append.1 hc with hc | hc
        · exact Or.inr ⟨a, by simp, .head (mem_successors_iff.1 hc) hcb⟩
        · exact Or.inr ⟨c, by simp [hc], hcb⟩

/-- With enough turns the loop reaches everything that waits, and is closed under edges. -/
theorem closure_closed :
    ∀ {fuel : ℕ} {pending reached : List α}, waiting edges pending reached ≤ fuel →
      (∀ a ∈ reached, ∀ b, Linked edges a b → b ∈ reached ∨ b ∈ pending) →
        (∀ b, b ∈ reached ∨ b ∈ pending → b ∈ closure edges fuel pending reached) ∧
          ∀ a ∈ closure edges fuel pending reached, ∀ b, Linked edges a b →
            b ∈ closure edges fuel pending reached
  | 0, pending, reached, hfuel, hclosed => by
    obtain rfl : pending = [] := List.length_eq_zero_iff.1 (by rw [waiting] at hfuel; omega)
    exact ⟨by simp [closure], by simpa [closure] using hclosed⟩
  | fuel + 1, [], reached, _, hclosed =>
    ⟨by simp [closure], by simpa [closure] using hclosed⟩
  | fuel + 1, a :: pending, reached, hfuel, hclosed => by
    rw [closure]
    split_ifs with ha
    · have hfuel' : waiting edges pending reached ≤ fuel := by
        rw [waiting, List.length_cons] at hfuel
        rw [waiting]
        omega
      have ih := closure_closed hfuel' fun c hc b hb => by
        rcases hclosed c hc b hb with h | h
        · exact Or.inl h
        · rcases List.mem_cons.1 h with rfl | h
          · exact Or.inl ha
          · exact Or.inr h
      refine ⟨fun b hb => ih.1 b ?_, ih.2⟩
      rcases hb with hb | hb
      · exact Or.inl hb
      · rcases List.mem_cons.1 hb with rfl | hb
        · exact Or.inl ha
        · exact Or.inr hb
    · have hfuel' : waiting edges (successors edges a ++ pending) (a :: reached) ≤ fuel :=
        Nat.le_of_succ_le_succ ((waiting_step ha).trans hfuel)
      have ih := closure_closed hfuel' fun c hc b hb => by
        rcases List.mem_cons.1 hc with rfl | hc
        · exact Or.inr (List.mem_append_left _ (mem_successors_iff.2 hb))
        · rcases hclosed c hc b hb with h | h
          · exact Or.inl (List.mem_cons_of_mem _ h)
          · rcases List.mem_cons.1 h with rfl | h
            · exact Or.inl (by simp)
            · exact Or.inr (List.mem_append_right _ h)
      refine ⟨fun b hb => ih.1 b ?_, ih.2⟩
      rcases hb with hb | hb
      · exact Or.inl (List.mem_cons_of_mem _ hb)
      · rcases List.mem_cons.1 hb with rfl | hb
        · exact Or.inl (by simp)
        · exact Or.inr (List.mem_append_right _ hb)

/-- The search reaches exactly the vertices at the end of a path. -/
theorem mem_reachedFrom_iff {a b : α} :
    b ∈ reachedFrom edges a ↔ Relation.TransGen (Linked edges) a b := by
  have hfuel : waiting edges (successors edges a) [] ≤ 2 * edges.length := by
    have hlength : (successors edges a).length ≤ edges.length := by
      rw [successors, List.length_map]
      exact List.length_filter_le _ _
    have hcount : edges.countP (fun edge => edge.1 ∉ ([] : List α)) ≤ edges.length :=
      List.countP_le_length
    rw [waiting]
    omega
  obtain ⟨hreached, hclosed⟩ := closure_closed hfuel (by simp)
  constructor
  · intro h
    obtain ⟨c, hc, hcb⟩ := (mem_of_mem_closure h).resolve_left (by simp)
    exact Relation.TransGen.head' (mem_successors_iff.1 hc) hcb
  · intro h
    induction h with
    | single hab => exact hreached _ (Or.inr (mem_successors_iff.2 hab))
    | tail _ hbc ih => exact hclosed _ ih _ hbc

end Reached

end Npunlock
