import Npunlock.ArtifactGraph
import Npunlock.Counting
import Npunlock.Forest

/-!
# Runs of artifact graphs

`ArtifactGraph.WellFormed` is what every run of operations keeps : ids are unique, the
containment is a forest whose nodes resolve, and so do the ends of every link.

Every operation checks its arguments before it changes the graph, with one exception.
`node` adds its node and only then asks `contain` for the parent, so a node whose parent
is refused stays in the graph although the operation raised. `run_wellFormed` gives both
directions : a run keeps the invariant whatever it is given, and an operation is atomic
exactly when it is not such a call.
-/

namespace Npunlock

namespace ArtifactGraph

/-- The ids of the nodes. -/
def nodeIds (graph : ArtifactGraph) : List String :=
  graph.nodes.map Prod.fst

/-- What holds of a graph after any run. -/
structure WellFormed (graph : ArtifactGraph) : Prop where
  artifactIds : (graph.artifacts.map Prod.fst).Nodup
  nodeIds : graph.nodeIds.Nodup
  /-- A node is kept under its own id. -/
  named : ∀ entry ∈ graph.nodes, entry.2.id = entry.1
  /-- No node has two parents. -/
  parents : ParentMap graph.parents
  resolves : ∀ child parent, IsParent graph.parents child parent →
    child ∈ graph.nodeIds ∧ parent ∈ graph.nodeIds
  ranked : Ranked graph.parents
  links : ∀ link ∈ graph.links, link.source ∈ graph.nodeIds ∧ link.target ∈ graph.nodeIds

/-- An operation that raises leaves the graph as it was. -/
def Atomic (graph : ArtifactGraph) (operation : Operation) : Prop :=
  ∀ error after, operation.apply graph = (.error error, after) → after = graph

/-- A parent given to `node` is not given at all or names a node of the graph. -/
def NamesNode (graph : ArtifactGraph) : Option Reference → Prop
  | none => True
  | some reference => ∃ id, nodeId reference = .ok id ∧ id ∈ graph.nodeIds

/-- An operation that adds a node below one that is there. Other operations, and calls of
`node` that are refused for another argument, are not restricted. -/
def Grounded (graph : ArtifactGraph) : Operation → Prop
  | .node arguments =>
    ∀ made, makeNode graph arguments = .ok made → NamesNode graph arguments.parent
  | _ => True

/-! ## Operations -/

/-- How an operation that checks first ends : in the changed graph, or in the graph as
it was. -/
def settle {α : Type} (graph : ArtifactGraph) (checked : Except ArtifactError α)
    (change : α → ArtifactGraph) : Except ArtifactError Unit × ArtifactGraph :=
  match checked with
  | .ok made => (.ok (), change made)
  | .error error => (.error error, graph)

theorem apply_contain (graph : ArtifactGraph) (parent child : Reference) :
    contain parent child graph = settle graph (containment graph parent child) fun edge =>
      { graph with parents := (edge.2, edge.1) :: graph.parents } := by
  have hfirst : contain parent child graph =
      (Effect.ofExcept (containment graph parent child) >>= fun edge => Effect.modify fun graph =>
        { graph with parents := (edge.2, edge.1) :: graph.parents }) graph := rfl
  rw [hfirst]
  cases containment graph parent child <;> rfl

theorem apply_link (graph : ArtifactGraph) (arguments : LinkArguments) :
    link arguments graph = settle graph (makeLink graph arguments) fun made =>
      { graph with links := graph.links ++ [made] } := by
  have hfirst : link arguments graph =
      (Effect.ofExcept (makeLink graph arguments) >>= fun made => Effect.modify fun graph =>
        { graph with links := graph.links ++ [made] }) graph := rfl
  rw [hfirst]
  cases makeLink graph arguments <;> rfl

theorem apply_artifact (graph : ArtifactGraph) (id name mediaType : Argument)
    (source : ArtifactSource) :
    artifact id name mediaType source graph =
      settle graph (newArtifact graph id >>= fun _ => makeArtifact id name mediaType source)
        fun made => { graph with artifacts := graph.artifacts ++ [(made.id, made)] } := by
  have hfirst : artifact id name mediaType source graph =
      (Effect.ofExcept (newArtifact graph id) >>= fun _ =>
        Effect.ofExcept (makeArtifact id name mediaType source) >>= fun made =>
          Effect.modify fun graph =>
            { graph with artifacts := graph.artifacts ++ [(made.id, made)] }) graph := rfl
  rw [hfirst]
  cases newArtifact graph id with
  | error error => rfl
  | ok _ => cases makeArtifact id name mediaType source <;> rfl

theorem apply_node_error {graph : ArtifactGraph} {arguments : NodeArguments}
    {error : ArtifactError} (h : makeNode graph arguments = .error error) :
    node arguments graph = (.error error, graph) := by
  have hfirst : node arguments graph = (Effect.ofExcept (makeNode graph arguments) >>= fun made =>
      Effect.modify (insertNode made) >>= fun _ => match arguments.parent with
        | none => pure ()
        | some parent => contain parent (.node made.id)) graph := rfl
  rw [hfirst, h]
  rfl

/-- A node whose arguments are accepted is added, and its parent is looked at then. -/
theorem apply_node {graph : ArtifactGraph} {arguments : NodeArguments} {made : ArtifactNode}
    (h : makeNode graph arguments = .ok made) :
    node arguments graph = match arguments.parent with
      | none => (.ok (), insertNode made graph)
      | some parent => contain parent (.node made.id) (insertNode made graph) := by
  have hfirst : node arguments graph = (Effect.ofExcept (makeNode graph arguments) >>= fun made =>
      Effect.modify (insertNode made) >>= fun _ => match arguments.parent with
        | none => pure ()
        | some parent => contain parent (.node made.id)) graph := rfl
  rw [hfirst, h]
  cases arguments.parent <;> rfl

/-! ## Climbing -/

section Climb

variable {parents : List (String × String)} {parent child : String}

theorem isParent_of_lookup {cursor next : String} (h : parents.lookup cursor = some next) :
    IsParent parents cursor next := by
  obtain ⟨front, back, rfl, _⟩ := List.lookup_eq_some_iff.1 h
  exact List.mem_append_right _ List.mem_cons_self

theorem not_isParent_of_lookup {cursor : String} (hmap : ParentMap parents)
    (h : parents.lookup cursor = none) (next : String) : ¬IsParent parents cursor next := by
  intro hnext
  rw [lookup_eq_some_of_mem hmap hnext] at h
  exact Option.some_ne_none _ h

/-- What a climb has seen : if the child is above `parent`, it is still above `cursor`. -/
def Climbing (parents : List (String × String)) (parent child cursor : String) : Prop :=
  Relation.ReflTransGen (IsParent parents) parent child →
    Relation.TransGen (IsParent parents) cursor child

theorem Climbing.next (hmap : ParentMap parents) {cursor next : String}
    (h : Climbing parents parent child cursor) (hnext : IsParent parents cursor next)
    (hne : next ≠ child) : Climbing parents parent child next := by
  intro hunder
  obtain ⟨first, hfirst, hrest⟩ := Relation.TransGen.head'_iff.1 (h hunder)
  obtain rfl : first = next := hmap.unique hfirst hnext
  rcases Relation.reflTransGen_iff_eq_or_transGen.1 hrest with heq | htrans
  · exact absurd heq.symm hne
  · exact htrans

/-- The climb comes to an end, and refuses a child that is above the parent. -/
theorem meets_climb (hmap : ParentMap parents) (hranked : Ranked parents)
    (hne : parent ≠ child) :
    Meets (· = .unending)
      (whileLoop .unending (climb parents child) (parents.length + 1) parent)
      fun _ => ¬Relation.ReflTransGen (IsParent parents) parent child := by
  obtain ⟨rank, hrank⟩ := hranked
  refine Meets.whileLoop (Climbing parents parent child) (below rank parents) ?_ ?_ ?_
  · intro cursor hcursor
    unfold climb
    cases hlookup : parents.lookup cursor with
    | none =>
      refine Meets.ok fun hunder => ?_
      obtain ⟨first, hfirst, _⟩ := Relation.TransGen.head'_iff.1 (hcursor hunder)
      exact not_isParent_of_lookup hmap hlookup first hfirst
    | some next =>
      have hnext := isParent_of_lookup hlookup
      refine Meets.refuseIf_bind (by simp) fun hne => Meets.ok ?_
      exact ⟨hcursor.next hmap hnext hne, below_lt hrank hnext⟩
  · intro hunder
    rcases Relation.reflTransGen_iff_eq_or_transGen.1 hunder with heq | htrans
    · exact absurd heq.symm hne
    · exact htrans
  · exact Nat.lt_succ_of_le (below_le rank parent)

/-- Nothing refuses a climb that cannot meet the child. -/
theorem returns_climb (hranked : Ranked parents) (hchild : ∀ c, ¬IsParent parents c child) :
    Returns (whileLoop .unending (climb parents child) (parents.length + 1) parent)
      fun _ => True := by
  obtain ⟨rank, hrank⟩ := hranked
  refine Meets.whileLoop (fun _ => True) (below rank parents) ?_ trivial
    (Nat.lt_succ_of_le (below_le rank parent))
  intro cursor _
  unfold climb
  cases hlookup : parents.lookup cursor with
  | none => exact Meets.ok trivial
  | some next =>
    have hnext := isParent_of_lookup hlookup
    refine Meets.refuseIf_never ?_ (Meets.ok ⟨trivial, below_lt hrank hnext⟩)
    rintro rfl
    exact hchild cursor hnext

end Climb

/-! ## Checks -/

/-- What an accepted containment satisfies. -/
structure Containable (graph : ArtifactGraph) (edge : String × String) : Prop where
  parent_mem : edge.1 ∈ graph.nodeIds
  child_mem : edge.2 ∈ graph.nodeIds
  no_parent : edge.2 ∉ graph.parents.map Prod.fst
  not_under : ¬Relation.ReflTransGen (IsParent graph.parents) edge.1 edge.2

theorem meets_nodeId (reference : Reference) :
    Meets (· = .unending) (nodeId reference) fun _ => True := by
  cases reference with
  | node id => exact Meets.ok trivial
  | value argument =>
    cases argument with
    | text value =>
      unfold nodeId identifier
      exact Meets.ite (fun _ => Meets.ok trivial) fun _ => Meets.error (by simp)
    | none => exact Meets.error (by simp)
    | other shown => exact Meets.error (by simp)

theorem meets_containment {graph : ArtifactGraph} (h : WellFormed graph)
    (parent child : Reference) :
    Meets (· = .unending) (containment graph parent child) (Containable graph) := by
  unfold containment
  refine (meets_nodeId parent).bind fun parentId _ => ?_
  refine (meets_nodeId child).bind fun childId _ => ?_
  refine Meets.refuseIf_bind (by simp) fun hknown => ?_
  refine Meets.refuseIf_bind (by simp) fun hne => ?_
  refine Meets.refuseIf_bind (by simp) fun hfree => ?_
  refine (meets_climb h.parents h.ranked hne).bind fun _ hunder => Meets.ok ?_
  push Not at hknown
  exact ⟨hknown.1, hknown.2, hfree, hunder⟩

/-- The id of an accepted node is new. -/
theorem id_notMem_of_makeNode {graph : ArtifactGraph} {arguments : NodeArguments}
    {made : ArtifactNode} (h : makeNode graph arguments = .ok made) :
    made.id ∉ graph.nodeIds := by
  unfold makeNode at h
  obtain ⟨id, _, h⟩ := bind_eq_ok_iff.1 h
  obtain ⟨hnew, h⟩ := refuseIf_bind_eq_ok_iff.1 h
  obtain ⟨label, _, h⟩ := bind_eq_ok_iff.1 h
  obtain ⟨description, _, h⟩ := bind_eq_ok_iff.1 h
  obtain ⟨kind, _, h⟩ := bind_eq_ok_iff.1 h
  obtain ⟨category, _, h⟩ := bind_eq_ok_iff.1 h
  obtain ⟨fields, _, h⟩ := bind_eq_ok_iff.1 h
  obtain ⟨addresses, _, h⟩ := bind_eq_ok_iff.1 h
  obtain ⟨properties, _, h⟩ := bind_eq_ok_iff.1 h
  obtain ⟨contributes, _, h⟩ := bind_eq_ok_iff.1 h
  obtain ⟨spans, _, h⟩ := bind_eq_ok_iff.1 h
  obtain ⟨confidence, _, h⟩ := bind_eq_ok_iff.1 h
  obtain ⟨scope, _, h⟩ := bind_eq_ok_iff.1 h
  obtain ⟨relevance, _, h⟩ := bind_eq_ok_iff.1 h
  obtain rfl := Except.ok.inj h
  exact hnew

/-- The ends of an accepted link are nodes. -/
theorem ends_of_makeLink {graph : ArtifactGraph} {arguments : LinkArguments}
    {made : ArtifactLink} (h : makeLink graph arguments = .ok made) :
    made.source ∈ graph.nodeIds ∧ made.target ∈ graph.nodeIds := by
  unfold makeLink at h
  obtain ⟨source, _, h⟩ := bind_eq_ok_iff.1 h
  obtain ⟨target, _, h⟩ := bind_eq_ok_iff.1 h
  obtain ⟨hknown, h⟩ := refuseIf_bind_eq_ok_iff.1 h
  obtain ⟨properties, _, h⟩ := bind_eq_ok_iff.1 h
  obtain ⟨kind, _, h⟩ := bind_eq_ok_iff.1 h
  obtain ⟨description, _, h⟩ := bind_eq_ok_iff.1 h
  obtain ⟨confidence, _, h⟩ := bind_eq_ok_iff.1 h
  obtain ⟨scope, _, h⟩ := bind_eq_ok_iff.1 h
  obtain rfl := Except.ok.inj h
  push Not at hknown
  exact hknown

/-- The id of an accepted artifact is new. -/
theorem id_notMem_of_makeArtifact {graph : ArtifactGraph} {id name mediaType : Argument}
    {source : ArtifactSource} {made : Artifact} {u : Unit} (hnew : newArtifact graph id = .ok u)
    (h : makeArtifact id name mediaType source = .ok made) :
    made.id ∉ graph.artifacts.map Prod.fst := by
  unfold makeArtifact at h
  obtain ⟨idText, hid, h⟩ := bind_eq_ok_iff.1 h
  obtain ⟨nameText, _, h⟩ := bind_eq_ok_iff.1 h
  obtain ⟨media, _, h⟩ := bind_eq_ok_iff.1 h
  have hmade : made.id = idText := by
    cases source with
    | both => cases h
    | neither => cases h
    | bytes size => rw [← Except.ok.inj h]
    | path content =>
      cases content with
      | none => cases h
      | some size => rw [← Except.ok.inj h]
  cases id with
  | none => cases hid
  | other shown => cases hid
  | text value =>
    unfold identifier at hid
    dsimp only at hid
    split_ifs at hid
    obtain rfl := Except.ok.inj hid
    rw [hmade]
    exact refuseIf_eq_ok_iff.1 hnew

/-! ## Steps -/

namespace WellFormed

variable {graph : ArtifactGraph}

theorem addArtifact (h : WellFormed graph) {made : Artifact}
    (hnew : made.id ∉ graph.artifacts.map Prod.fst) :
    WellFormed { graph with artifacts := graph.artifacts ++ [(made.id, made)] } :=
  { h with
    artifactIds := by
      rw [List.map_append]
      exact h.artifactIds.append (List.nodup_singleton _) (by simpa using hnew) }

theorem addLink (h : WellFormed graph) {made : ArtifactLink}
    (hends : made.source ∈ graph.nodeIds ∧ made.target ∈ graph.nodeIds) :
    WellFormed { graph with links := graph.links ++ [made] } :=
  { h with
    links := by
      intro link hlink
      rcases List.mem_append.1 hlink with hlink | hlink
      · exact h.links link hlink
      · rw [List.mem_singleton.1 hlink]
        exact hends }

theorem addEdge (h : WellFormed graph) {edge : String × String}
    (hedge : Containable graph edge) :
    WellFormed { graph with parents := (edge.2, edge.1) :: graph.parents } :=
  { h with
    parents := List.nodup_cons.2 ⟨hedge.no_parent, h.parents⟩
    resolves := by
      intro child parent hparent
      rcases List.mem_cons.1 hparent with hnew | hold
      · obtain ⟨rfl, rfl⟩ := Prod.mk.inj hnew
        exact ⟨hedge.child_mem, hedge.parent_mem⟩
      · exact h.resolves child parent hold
    ranked := h.ranked.cons h.parents hedge.no_parent hedge.not_under }

theorem nodeIds_insertNode (made : ArtifactNode) :
    (insertNode made graph).nodeIds = graph.nodeIds ++ [made.id] := by
  simp [ArtifactGraph.nodeIds, insertNode]

theorem insertNode (h : WellFormed graph) {made : ArtifactNode} (hnew : made.id ∉ graph.nodeIds) :
    WellFormed (insertNode made graph) := by
  have hmem : ∀ id ∈ graph.nodeIds, id ∈ (ArtifactGraph.insertNode made graph).nodeIds := by
    intro id hid
    rw [nodeIds_insertNode]
    exact List.mem_append_left _ hid
  refine ⟨h.artifactIds, ?_, ?_, h.parents, ?_, h.ranked, ?_⟩
  · rw [nodeIds_insertNode]
    exact h.nodeIds.append (List.nodup_singleton _) (by simpa using hnew)
  · intro entry hentry
    rcases List.mem_append.1 hentry with hentry | hentry
    · exact h.named entry hentry
    · rw [List.mem_singleton.1 hentry]
  · intro child parent hparent
    obtain ⟨hchild, hparent⟩ := h.resolves child parent hparent
    exact ⟨hmem child hchild, hmem parent hparent⟩
  · intro link hlink
    obtain ⟨hsource, htarget⟩ := h.links link hlink
    exact ⟨hmem _ hsource, hmem _ htarget⟩

theorem settle {α : Type} (h : WellFormed graph) {checked : Except ArtifactError α}
    {change : α → ArtifactGraph} (hchange : ∀ made, checked = .ok made → WellFormed (change made)) :
    WellFormed (settle graph checked change).2 := by
  cases checked with
  | error error => exact h
  | ok made => exact hchange made rfl

theorem contain (h : WellFormed graph) (parent child : Reference) :
    WellFormed (contain parent child graph).2 := by
  rw [apply_contain]
  exact h.settle fun edge hedge => h.addEdge ((meets_containment h parent child).value edge hedge)

/-- Every operation keeps the invariant, whether it returns or raises. -/
theorem apply (h : WellFormed graph) (operation : Operation) :
    WellFormed (operation.apply graph).2 := by
  cases operation with
  | artifact id name mediaType source =>
    change WellFormed (ArtifactGraph.artifact id name mediaType source graph).2
    rw [apply_artifact]
    refine h.settle fun made hmade => ?_
    obtain ⟨u, hnew, hmade⟩ := bind_eq_ok_iff.1 hmade
    exact h.addArtifact (id_notMem_of_makeArtifact hnew hmade)
  | contain parent child => exact h.contain parent child
  | link arguments =>
    change WellFormed (ArtifactGraph.link arguments graph).2
    rw [apply_link]
    exact h.settle fun made hmade => h.addLink (ends_of_makeLink hmade)
  | node arguments =>
    change WellFormed (ArtifactGraph.node arguments graph).2
    cases hmade : makeNode graph arguments with
    | error error =>
      rw [apply_node_error hmade]
      exact h
    | ok made =>
      have hinserted := h.insertNode (id_notMem_of_makeNode hmade)
      rw [apply_node hmade]
      cases arguments.parent with
      | none => exact hinserted
      | some parent => exact hinserted.contain parent (.node made.id)

theorem run : ∀ (operations : List Operation) {graph : ArtifactGraph}, WellFormed graph →
    WellFormed (run graph operations)
  | [], _, h => h
  | operation :: operations, _, h => run operations (h.apply operation)

theorem init {title : Argument} {categories : List Category}
    (hinit : init title categories = .ok graph) : WellFormed graph := by
  unfold ArtifactGraph.init at hinit
  obtain ⟨title, _, hinit⟩ := bind_eq_ok_iff.1 hinit
  obtain ⟨seen, _, hinit⟩ := bind_eq_ok_iff.1 hinit
  obtain ⟨_, hinit⟩ := refuseIf_bind_eq_ok_iff.1 hinit
  obtain rfl := Except.ok.inj hinit
  exact ⟨List.nodup_nil, List.nodup_nil, by simp, List.nodup_nil,
    fun _ _ h => absurd h List.not_mem_nil, Ranked.nil, by simp⟩

end WellFormed

/-! ## Atomic operations -/

theorem eq_of_settle {α : Type} {graph after : ArtifactGraph} {checked : Except ArtifactError α}
    {change : α → ArtifactGraph} {error : ArtifactError}
    (h : settle graph checked change = (.error error, after)) : after = graph := by
  cases checked with
  | error _ => exact (Prod.mk.inj h).2.symm
  | ok made => exact absurd (Prod.mk.inj h).1 (by simp)

theorem insertNode_ne (graph : ArtifactGraph) (made : ArtifactNode) :
    insertNode made graph ≠ graph := by
  intro h
  have hlength := congrArg (fun graph : ArtifactGraph => graph.nodes.length) h
  simp [insertNode] at hlength

/-- The parent of a node that was just added is accepted if and only if it names an older
node. -/
theorem containment_insertNode_iff {graph : ArtifactGraph} (h : WellFormed graph)
    {made : ArtifactNode} (hnew : made.id ∉ graph.nodeIds) (parent : Reference) :
    (∃ edge, containment (insertNode made graph) parent (.node made.id) = .ok edge) ↔
      NamesNode graph (some parent) := by
  have hids : (insertNode made graph).nodeIds = _ := WellFormed.nodeIds_insertNode made
  have hfree : made.id ∉ graph.parents.map Prod.fst := by
    intro hmem
    obtain ⟨edge, hedge, hid⟩ := List.mem_map.1 hmem
    exact hnew (hid ▸ (h.resolves edge.1 edge.2 hedge).1)
  constructor
  · rintro ⟨edge, hedge⟩
    unfold containment at hedge
    obtain ⟨parentId, hparent, hedge⟩ := bind_eq_ok_iff.1 hedge
    obtain ⟨childId, hchild, hedge⟩ := bind_eq_ok_iff.1 hedge
    obtain ⟨hknown, hedge⟩ := refuseIf_bind_eq_ok_iff.1 hedge
    obtain ⟨hne, hedge⟩ := refuseIf_bind_eq_ok_iff.1 hedge
    obtain rfl : made.id = childId := Except.ok.inj hchild
    push Not at hknown
    have hmem : parentId ∈ (insertNode made graph).nodeIds := hknown.1
    rw [hids, List.mem_append, List.mem_singleton] at hmem
    exact ⟨parentId, hparent, hmem.resolve_right hne⟩
  · rintro ⟨parentId, hparent, hmem⟩
    have hne : parentId ≠ made.id := by
      rintro rfl
      exact hnew hmem
    have hknown : parentId ∈ (insertNode made graph).nodeIds ∧
        made.id ∈ (insertNode made graph).nodeIds := by
      rw [hids]
      exact ⟨List.mem_append_left _ hmem, List.mem_append_right _ (List.mem_singleton_self _)⟩
    have hchild : ∀ c, ¬IsParent graph.parents c made.id := fun c hc =>
      hnew (h.resolves c made.id hc).2
    obtain ⟨u, hclimb, _⟩ := Returns.exists_ok (returns_climb h.ranked hchild)
    refine ⟨(parentId, made.id), ?_⟩
    unfold containment
    rw [hparent, ok_bind]
    change (refuseIf _ _ >>= _) = _
    rw [refuseIf_bind_eq_ok_iff, refuseIf_bind_eq_ok_iff, refuseIf_bind_eq_ok_iff]
    refine ⟨?_, hne, hfree, ?_⟩
    · push Not
      exact hknown
    · change (whileLoop _ (climb graph.parents made.id) (graph.parents.length + 1) parentId >>=
        _) = _
      rw [hclimb, ok_bind]

/-- An operation is atomic exactly when it does not add a node below a refused parent. -/
theorem atomic_iff {graph : ArtifactGraph} (h : WellFormed graph) (operation : Operation) :
    Atomic graph operation ↔ Grounded graph operation := by
  cases operation with
  | artifact id name mediaType source =>
    refine iff_of_true (fun error after hrun => ?_) trivial
    exact eq_of_settle ((apply_artifact graph id name mediaType source).symm.trans hrun)
  | contain parent child =>
    refine iff_of_true (fun error after hrun => ?_) trivial
    exact eq_of_settle ((apply_contain graph parent child).symm.trans hrun)
  | link arguments =>
    refine iff_of_true (fun error after hrun => ?_) trivial
    exact eq_of_settle ((apply_link graph arguments).symm.trans hrun)
  | node arguments =>
    cases hmade : makeNode graph arguments with
    | error error =>
      refine iff_of_true (fun error after hrun => ?_) fun made hok => ?_
      · exact ((Prod.mk.inj ((apply_node_error hmade).symm.trans hrun)).2).symm
      · exact absurd (hmade.symm.trans hok) (by simp)
    | ok made =>
      have hrun := apply_node hmade
      have hnew := id_notMem_of_makeNode hmade
      have hgrounded : Grounded graph (.node arguments) ↔ NamesNode graph arguments.parent :=
        ⟨fun hall => hall made hmade,
          fun hnames made' hmade' => hnames⟩
      rw [hgrounded]
      cases hparent : arguments.parent with
      | none =>
        refine iff_of_true (fun error after hafter => ?_) trivial
        rw [hparent] at hrun
        exact absurd (Prod.mk.inj (hrun.symm.trans hafter)).1 (by simp)
      | some parent =>
        rw [hparent] at hrun
        dsimp only at hrun
        rw [apply_contain] at hrun
        rw [← containment_insertNode_iff h hnew parent]
        cases hcontained : containment (insertNode made graph) parent (.node made.id) with
        | error error =>
          refine iff_of_false (fun hatomic => ?_) (by simp)
          rw [hcontained] at hrun
          exact insertNode_ne graph made (hatomic error _ hrun)
        | ok edge =>
          refine iff_of_true (fun error after hafter => ?_) ⟨edge, rfl⟩
          rw [hcontained] at hrun
          exact absurd (Prod.mk.inj (hrun.symm.trans hafter)).1 (by simp)

/-- Every run keeps the graph well formed and its containment without cycles, every climb
comes to an end, and the next operation is atomic unless it adds a node below a parent
that is not a node of the graph. -/
theorem run_wellFormed {title : Argument} {categories : List Category} {graph : ArtifactGraph}
    (hinit : init title categories = .ok graph) (operations : List Operation) :
    WellFormed (run graph operations) ∧
      (∀ id, ¬Relation.TransGen (IsParent (run graph operations).parents) id id) ∧
      (∀ parent child, containment (run graph operations) parent child ≠ .error .unending) ∧
      ∀ operation, Atomic (run graph operations) operation ↔
        Grounded (run graph operations) operation := by
  have h := WellFormed.run operations (WellFormed.init hinit)
  refine ⟨h, h.ranked.acyclic, fun parent child hending => ?_, atomic_iff h⟩
  exact (meets_containment h parent child).not_bad _ hending rfl

/-- A graph without nodes. -/
def emptyGraph : ArtifactGraph :=
  ⟨"graph", [], [], [], [], [⟨"metadata"⟩]⟩

/-- A node below a parent that does not exist. -/
def orphan : NodeArguments :=
  { id := .text "a", parent := some (.value (.text "b")) }

theorem init_emptyGraph : init (.text "graph") [⟨"metadata"⟩] = .ok emptyGraph := by
  have htitle : isStripped "graph" = true := by decide +kernel
  simp only [init, identifier, htitle, if_true, ok_bind]
  rfl

/-- Three nodes in each other with a link, a cycle and a link to nowhere that are refused, and
a node below a parent that does not exist. -/
def mixedOperations : List Operation :=
  [.node { id := .text "x" },
    .node { id := .text "y", parent := some (.node "x") },
    .node { id := .text "z" },
    .contain (.value (.text "y")) (.node "z"),
    .contain (.node "z") (.node "x"),
    .link { source := .node "x", target := .value (.text "z"), kind := .text "reads" },
    .link { source := .node "x", target := .node "w", kind := .text "reads" },
    .node orphan]

theorem run_wellFormed_mixed :
    (run emptyGraph mixedOperations).nodeIds = ["x", "y", "z", "a"] ∧
      (run emptyGraph mixedOperations).parents = [("z", "y"), ("y", "x")] ∧
      (run emptyGraph mixedOperations).links.map (fun link => (link.source, link.target)) =
        [("x", "z")] ∧
      WellFormed (run emptyGraph mixedOperations) ∧
      Atomic (run emptyGraph mixedOperations) (.contain (.node "z") (.node "x")) := by
  obtain ⟨hformed, -, -, hatomic⟩ := run_wellFormed init_emptyGraph mixedOperations
  exact ⟨by decide +kernel, by decide +kernel, by decide +kernel, hformed, (hatomic _).2 trivial⟩

/-- The operation raises and its node stays. -/
theorem orphan_stays : init (.text "graph") [⟨"metadata"⟩] = .ok emptyGraph ∧
    ∃ error after, (Operation.node orphan).apply emptyGraph = (.error error, after) ∧
      emptyGraph.nodeIds = [] ∧ after.nodeIds = ["a"] :=
  ⟨init_emptyGraph, _, _, rfl, rfl, rfl⟩

end ArtifactGraph

end Npunlock
