import Npunlock.Effects
import Npunlock.IrGraph
import Npunlock.Json
import Npunlock.WhileLoops

/-!
# Artifact graphs

`ArtifactGraph` of the visualiser : semantic nodes over binary artifacts, their
containment and the links between them. The operations are effects on the graph, so a
failing operation keeps what it had already changed.

An `Argument` is any Python value given where a string is expected. The properties of a
node or link are a mapping, or a value that `dict` or `json.dumps` refuses. A Python
dictionary is an association list in insertion order.
-/

namespace Npunlock

/-! ## Checked texts -/

/-- A value given where a string is expected. A value of another type is known by its
`str`. -/
inductive Argument
  | none
  | text (value : String)
  | other (shown : String)
  deriving DecidableEq

/-- What an operation raises. `unending` is no exception : it stands for a climb through
the containment that does not come to an end. -/
inductive ArtifactError
  | value (message : String)
  | type (message : String)
  | unending
  deriving DecidableEq

/-- `CONFIDENCE_VALUES`, sorted. -/
def confidenceValues : List String :=
  ["confirmed", "execution-tested-inference", "raw", "strong-inference", "unresolved"]

/-- `RELEVANCE_VALUES`, sorted. -/
def relevanceValues : List String :=
  ["context", "irrelevant", "relevant"]

/-- `value and value.strip() == value`. -/
def isStripped (value : String) : Bool :=
  value != "" && value.toList.head?.all (fun c => !isSpace c) &&
    value.toList.getLast?.all fun c => !isSpace c

/-- `_identifier`. -/
def identifier (value : Argument) (what : String) : Except ArtifactError String :=
  match value with
  | .text value =>
    if isStripped value then .ok value
    else .error (.value s!"{what} must be a non-empty string without surrounding whitespace")
  | _ => .error (.value s!"{what} must be a non-empty string without surrounding whitespace")

/-- `_optional_description`. -/
def optionalDescription (value : Argument) (what : String) : Except ArtifactError (Option String) :=
  match value with
  | .none => .ok .none
  | .other _ => .error (.type s!"{what} must be a string or None")
  | .text value =>
    if isStripped value then .ok value
    else .error (.value s!"{what} must be non-empty and have no surrounding whitespace")

/-- The `repr` of a list of texts without quotes. -/
def listRepr (texts : List String) : String :=
  "[" ++ ", ".intercalate (texts.map fun text => "'" ++ text ++ "'") ++ "]"

/-- `_optional_choice`. -/
def optionalChoice (value : Argument) (choices : List String) (what : String) :
    Except ArtifactError (Option String) :=
  match value with
  | .none => .ok .none
  | value => do
    let value ← identifier value what
    refuseIf (value ∉ choices) (.value s!"{what} must be one of {listRepr choices}")
    .ok value

/-- `_legacy_choice`. -/
def legacyChoice (properties : List (String × Json)) (key : String) (choices : List String) :
    Argument :=
  match properties.lookup key with
  | some (.string value) => if value ∈ choices then .text value else .none
  | _ => .none

/-- `_legacy_text`. -/
def legacyText (properties : List (String × Json)) (key : String) : Argument :=
  match properties.lookup key with
  | some (.string value) => if isStripped value then .text value else .none
  | _ => .none

/-- The argument, or the value the properties hold for it. -/
def inherited (value legacy : Argument) : Argument :=
  match value with
  | .none => legacy
  | value => value

/-- A value given for `properties`. -/
inductive Properties
  | entries (properties : List (String × Json))
  | notMapping
  | notSerializable

/-- `_json_value(dict(properties or {}), what)`. -/
def propertyValues (properties : Properties) (what : String) :
    Except ArtifactError (List (String × Json)) :=
  match properties with
  | .entries properties =>
    if (Json.object properties).isFinite then .ok properties
    else .error (.value s!"{what} must be JSON-serializable")
  | .notMapping => .error (.type "object is not iterable")
  | .notSerializable => .error (.value s!"{what} must be JSON-serializable")

/-- The value, where its absence is an error. -/
def present {α : Type} (error : ArtifactError) : Option α → Except ArtifactError α
  | some value => .ok value
  | none => .error error

/-! ## The graph -/

/-- `Category`, without its label and color. -/
structure Category where
  id : String
  deriving DecidableEq

/-- `Artifact`, without its digest. -/
structure Artifact where
  id : String
  name : String
  mediaType : String
  size : ℕ
  deriving DecidableEq

/-- `Span`. -/
structure Span where
  artifact : String
  start : ℕ
  stop : ℕ
  id : Option String := none
  label : Option String := none
  role : Option String := none
  deriving DecidableEq

/-- `Field`. -/
structure ArtifactField where
  value : Json
  spans : List Span
  display : Option String
  description : Option String
  properties : List (String × Json)
  confidence : Option String
  scope : Option String
  relevance : Option String

/-- `Address`. -/
structure Address where
  space : String
  value : ℕ
  deriving DecidableEq

/-- `Node`. -/
structure ArtifactNode where
  id : String
  label : String
  kind : String
  category : String
  spans : List Span
  properties : List (String × Json)
  fields : List (String × ArtifactField)
  addresses : List (String × Address)
  description : Option String
  confidence : Option String
  scope : Option String
  relevance : Option String
  contributesToCoverage : Bool

/-- `Link`. -/
structure ArtifactLink where
  source : String
  target : String
  kind : String
  properties : List (String × Json)
  description : Option String
  confidence : Option String
  scope : Option String

/-- `ArtifactGraph`. `parents` is `_parents`, from child to parent. -/
structure ArtifactGraph where
  title : String
  artifacts : List (String × Artifact)
  nodes : List (String × ArtifactNode)
  links : List ArtifactLink
  parents : List (String × String)
  categories : List Category

namespace ArtifactGraph

/-- The constructor. -/
def init (title : Argument) (categories : List Category) : Except ArtifactError ArtifactGraph := do
  let title ← identifier title "graph title"
  let _ ← categories.foldlM
    (fun seen category => do
      refuseIf (category.id ∈ seen) (ArtifactError.value s!"duplicate category id: {category.id}")
      .ok (seen ++ [category.id]))
    ([] : List String)
  refuseIf (categories = []) (.value "graph requires at least one category")
  .ok ⟨title, [], [], [], [], categories⟩

/-! ## Artifacts -/

/-- What `artifact` is given to read : bytes, a path, neither or both. A path that is not
a readable file has no content. -/
inductive ArtifactSource
  | bytes (size : ℕ)
  | path (content : Option ℕ)
  | both
  | neither

/-- The check of `media_type`. -/
def mediaTypeText (mediaType : Argument) : Except ArtifactError String :=
  match mediaType with
  | .text value =>
    if value = "" then .error (.value "artifact media_type must be a non-empty string")
    else .ok value
  | _ => .error (.value "artifact media_type must be a non-empty string")

/-- `Artifact.__init__`. -/
def makeArtifact (id name mediaType : Argument) (source : ArtifactSource) :
    Except ArtifactError Artifact := do
  let idText ← identifier id "artifact id"
  let name ← identifier (inherited name id) "artifact name"
  let mediaType ← mediaTypeText mediaType
  match source with
  | .both => .error (.value "supply artifact data or path, not both")
  | .neither => .error (.value "artifact requires bytes or a file path")
  | .path none => .error (.value "artifact path is not a file")
  | .path (some size) => .ok ⟨idText, name, mediaType, size⟩
  | .bytes size => .ok ⟨idText, name, mediaType, size⟩

/-- `artifact_id in self.artifacts`. -/
def newArtifact (graph : ArtifactGraph) (id : Argument) : Except ArtifactError Unit :=
  match id with
  | .text value =>
    refuseIf (value ∈ graph.artifacts.map Prod.fst) (.value s!"duplicate artifact id: {value}")
  | _ => .ok ()

/-- `artifact`. -/
def artifact (id name mediaType : Argument) (source : ArtifactSource) :
    Effect ArtifactError ArtifactGraph Unit := do
  let graph ← Effect.get
  Effect.ofExcept (newArtifact graph id)
  let made ← Effect.ofExcept (makeArtifact id name mediaType source)
  Effect.modify fun graph => { graph with artifacts := graph.artifacts ++ [(made.id, made)] }

/-! ## Containment -/

/-- A node given to an operation : a `Node`, or a value that names one. -/
inductive Reference
  | node (id : String)
  | value (argument : Argument)
  deriving DecidableEq

/-- `_node_id`. -/
def nodeId : Reference → Except ArtifactError String
  | .node id => .ok id
  | .value argument => identifier argument "node reference"

/-- One round of the climb of `contain` : the next parent above `cursor`. -/
def climb (parents : List (String × String)) (child : String) (cursor : String) :
    Except ArtifactError (String ⊕ Unit) :=
  match parents.lookup cursor with
  | none => .ok (.inr ())
  | some parent => do
    refuseIf (parent = child) (.value "containment would create a cycle")
    .ok (.inl parent)

/-- The checks of `contain`, which end in the ids of the parent and the child. -/
def containment (graph : ArtifactGraph) (parent child : Reference) :
    Except ArtifactError (String × String) := do
  let parentId ← nodeId parent
  let childId ← nodeId child
  refuseIf (parentId ∉ graph.nodes.map Prod.fst ∨ childId ∉ graph.nodes.map Prod.fst)
    (.value "containment references an unknown node")
  refuseIf (parentId = childId) (.value "a node cannot contain itself")
  refuseIf (childId ∈ graph.parents.map Prod.fst)
    (.value s!"node already has a parent: {childId}")
  whileLoop .unending (climb graph.parents childId) (graph.parents.length + 1) parentId
  .ok (parentId, childId)

/-- `contain`. -/
def contain (parent child : Reference) : Effect ArtifactError ArtifactGraph Unit := do
  let graph ← Effect.get
  let edge ← Effect.ofExcept (containment graph parent child)
  Effect.modify fun graph => { graph with parents := (edge.2, edge.1) :: graph.parents }

/-! ## Nodes -/

/-- The arguments of `Field`. A value that is no JSON value is absent. -/
structure FieldArguments where
  value : Option Json
  spans : List Span := []
  display : Argument := .none
  description : Argument := .none
  properties : Properties := .entries []
  confidence : Argument := .none
  scope : Argument := .none
  relevance : Argument := .none

/-- `_json_value`. -/
def jsonValue (value : Option Json) (what : String) : Except ArtifactError Json :=
  match value with
  | some value =>
    if value.isFinite then .ok value
    else .error (.value s!"{what} must be JSON-serializable")
  | none => .error (.value s!"{what} must be JSON-serializable")

/-- The check of `display`. -/
def displayText (display : Argument) : Except ArtifactError (Option String) :=
  match display with
  | .none => .ok none
  | .text value => .ok (some value)
  | .other _ => .error (.type "field display must be a string or None")

/-- `Field.__init__`. -/
def makeField (arguments : FieldArguments) : Except ArtifactError ArtifactField := do
  let value ← jsonValue arguments.value "field value"
  let display ← displayText arguments.display
  let description ← optionalDescription arguments.description "field description"
  let properties ← propertyValues arguments.properties "field properties"
  let confidence ← optionalChoice
    (inherited arguments.confidence (legacyChoice properties "confidence" confidenceValues))
    confidenceValues "field confidence"
  let scope ← optionalDescription
    (inherited arguments.scope (legacyText properties "scope")) "field scope"
  let relevance ← optionalChoice
    (inherited arguments.relevance (legacyChoice properties "relevance" relevanceValues))
    relevanceValues "field relevance"
  .ok
    { value, spans := arguments.spans, display, description, properties, confidence, scope
      relevance }

/-- A value of `fields` : a `Field`, or a value to hold in one, if it is a JSON value. -/
inductive FieldArgument
  | field (field : ArtifactField)
  | value (value : Option Json)

/-- A value of `addresses` : an `Address`, or a value for one, if it is an integer. -/
inductive AddressArgument
  | address (address : Address)
  | value (value : Option ℤ)

/-- The arguments of `node`. `spans` is absent if it is no iterable, and
`contributesToCoverage` if it is no boolean. -/
structure NodeArguments where
  id : Argument
  label : Argument := .none
  description : Argument := .none
  kind : Argument := .text "entity"
  category : Argument := .text "metadata"
  spans : Option (List Span) := some []
  properties : Properties := .entries []
  fields : List (Argument × FieldArgument) := []
  addresses : List (Argument × AddressArgument) := []
  parent : Option Reference := none
  confidence : Argument := .none
  scope : Argument := .none
  relevance : Argument := .none
  contributesToCoverage : Option Bool := some true

/-- One entry of `field_values`. -/
def fieldEntry (entry : Argument × FieldArgument) :
    Except ArtifactError (String × ArtifactField) := do
  let name ← identifier entry.1 "field name"
  match entry.2 with
  | .field field => .ok (name, field)
  | .value value => do
    let field ← makeField { value }
    .ok (name, field)

/-- One entry of `address_values`. -/
def addressEntry (entry : Argument × AddressArgument) :
    Except ArtifactError (String × Address) := do
  let name ← identifier entry.1 "address name"
  match entry.2 with
  | .address address => .ok (name, address)
  | .value (some value) => do
    refuseIf (value < 0) (.value "address value must be a non-negative integer")
    .ok (name, ⟨name, value.toNat⟩)
  | .value none => .error (.value "address value must be a non-negative integer")

/-- `category not in self.categories`, which ends in the category's id. -/
def knownCategory (graph : ArtifactGraph) (category : Argument) : Except ArtifactError String :=
  match category with
  | .text id =>
    if id ∈ graph.categories.map Category.id then .ok id
    else .error (.value s!"unknown semantic category: {id}")
  | .none => .error (.value "unknown semantic category: None")
  | .other shown => .error (.value s!"unknown semantic category: {shown}")

/-- The checks of `node`, which end in the node to add. -/
def makeNode (graph : ArtifactGraph) (arguments : NodeArguments) :
    Except ArtifactError ArtifactNode := do
  let id ← identifier arguments.id "node id"
  refuseIf (id ∈ graph.nodes.map Prod.fst) (.value s!"duplicate node id: {id}")
  let label ← identifier (inherited arguments.label (.text id)) "node label"
  let description ← optionalDescription arguments.description "node description"
  let kind ← identifier arguments.kind "node kind"
  let category ← knownCategory graph arguments.category
  let fields ← arguments.fields.mapM fieldEntry
  let addresses ← arguments.addresses.mapM addressEntry
  let properties ← propertyValues arguments.properties "node properties"
  let contributesToCoverage ← present (.type "node contributes_to_coverage must be a boolean")
    arguments.contributesToCoverage
  let spans ← present (.type "object is not iterable") arguments.spans
  let confidence ← optionalChoice
    (inherited arguments.confidence (legacyChoice properties "confidence" confidenceValues))
    confidenceValues "node confidence"
  let scope ← optionalDescription
    (inherited arguments.scope (legacyText properties "scope")) "node scope"
  let relevance ← optionalChoice
    (inherited arguments.relevance (legacyChoice properties "relevance" relevanceValues))
    relevanceValues "node relevance"
  .ok
    { id, label, kind, category, spans, properties, fields, addresses, description
      confidence, scope, relevance, contributesToCoverage }

/-- `self.nodes[node_id] = node`. -/
def insertNode (node : ArtifactNode) (graph : ArtifactGraph) : ArtifactGraph :=
  { graph with nodes := graph.nodes ++ [(node.id, node)] }

/-- `node`. The node is in the graph before its parent is looked at. -/
def node (arguments : NodeArguments) : Effect ArtifactError ArtifactGraph Unit := do
  let graph ← Effect.get
  let made ← Effect.ofExcept (makeNode graph arguments)
  Effect.modify (insertNode made)
  match arguments.parent with
  | none => pure ()
  | some parent => contain parent (.node made.id)

/-! ## Links -/

/-- The arguments of `link`. -/
structure LinkArguments where
  source : Reference
  target : Reference
  kind : Argument
  properties : Properties := .entries []
  description : Argument := .none
  confidence : Argument := .none
  scope : Argument := .none

/-- The checks of `link`, which end in the link to add. -/
def makeLink (graph : ArtifactGraph) (arguments : LinkArguments) :
    Except ArtifactError ArtifactLink := do
  let source ← nodeId arguments.source
  let target ← nodeId arguments.target
  refuseIf (source ∉ graph.nodes.map Prod.fst ∨ target ∉ graph.nodes.map Prod.fst)
    (.value "link references an unknown node")
  let properties ← propertyValues arguments.properties "link properties"
  let kind ← identifier arguments.kind "link kind"
  let description ← optionalDescription arguments.description "link description"
  let confidence ← optionalChoice
    (inherited arguments.confidence (legacyChoice properties "confidence" confidenceValues))
    confidenceValues "link confidence"
  let scope ← optionalDescription
    (inherited arguments.scope (legacyText properties "scope")) "link scope"
  .ok { source, target, kind, properties, description, confidence, scope }

/-- `link`. -/
def link (arguments : LinkArguments) : Effect ArtifactError ArtifactGraph Unit := do
  let graph ← Effect.get
  let made ← Effect.ofExcept (makeLink graph arguments)
  Effect.modify fun graph => { graph with links := graph.links ++ [made] }

/-! ## Runs -/

/-- An operation with its arguments. -/
inductive Operation
  | artifact (id name mediaType : Argument) (source : ArtifactSource)
  | node (arguments : NodeArguments)
  | contain (parent child : Reference)
  | link (arguments : LinkArguments)

/-- What an operation does. -/
def Operation.apply : Operation → Effect ArtifactError ArtifactGraph Unit
  | .artifact id name mediaType source => ArtifactGraph.artifact id name mediaType source
  | .node arguments => ArtifactGraph.node arguments
  | .contain parent child => ArtifactGraph.contain parent child
  | .link arguments => ArtifactGraph.link arguments

/-- The graph after some operations, of which any may raise. -/
def run (graph : ArtifactGraph) (operations : List Operation) : ArtifactGraph :=
  operations.foldl (fun graph operation => (operation.apply graph).2) graph

end ArtifactGraph

end Npunlock
