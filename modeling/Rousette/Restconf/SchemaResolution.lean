import Rousette.Restconf.DataPaths

/-!
# Resolution of paths in the schema

libyang resolves the text of a path from the root of the data tree: the first step has to be
qualified by a module, and a step without one is looked up in the module of the node before
it.  The nodes of a schema form a tree as well, but one in which choices and cases stand
between a data node and the data node above it.

`maybeQualified` leaves the module out by a comparison with the schema parent, so the two
trees have to agree about where the module changes.
-/

namespace Rousette.Restconf

open Library Libyang
open Impl.Grammar (IsIdentifier)

section Schema

variable {S : Type} (ctx : Context S)

/-- A choice or a case, which has no data. -/
def isTransparent (node : S) : Bool :=
  ctx.nodeType node == .choice || ctx.nodeType node == .caseNode

/-- The data node above a node, or none at the top level. -/
inductive IsBelow : S → Option S → Prop where
  | topLevel {node : S} (parent : ctx.parent node = none) : IsBelow node none
  | child {node above : S} (parent : ctx.parent node = some above)
      (data : isTransparent ctx above = false) : IsBelow node (some above)
  | through {node middle : S} {above : Option S} (parent : ctx.parent node = some middle)
      (transparent : isTransparent ctx middle = true) (further : IsBelow middle above) :
      IsBelow node above

/-- What libyang promises about the nodes it finds: `childInstantiables` looks through choice
and case, and so does `findPath` at the top level, where it finds a node by its module and
name. -/
structure SchemaTree : Prop where
  children : ∀ {node child}, child ∈ ctx.childInstantiables node → IsBelow ctx child (some node)
  topLevel : ∀ {node}, node ∈ ctx.topLevel → IsBelow ctx node none
  findPath : ∀ {modulePrefix name node}, IsIdentifier modulePrefix → IsIdentifier name →
    ctx.findPath (str "/" ++ (modulePrefix ++ str ":" ++ name)) = .ok node →
    node ∈ ctx.topLevel ∧ ctx.moduleName node = modulePrefix ∧ ctx.name node = name

/-- The node which a step of a path leads to. -/
def resolveStep (current : Option S) (ident : ApiIdentifier) : Option S :=
  match current, ident.modulePrefix with
  | none, none => none
  | none, some modulePrefix =>
      ctx.topLevel.find? fun node =>
        ctx.moduleName node == modulePrefix && ctx.name node == ident.identifier
  | some node, modulePrefix =>
      (ctx.childInstantiables node).find? fun child =>
        ctx.moduleName child == modulePrefix.getD (ctx.moduleName node) &&
          ctx.name child == ident.identifier

/-- The node which steps lead to from another one. -/
def resolveSteps (current : Option S) : List PathStep → Option (Option S)
  | [] => some current
  | step :: rest =>
      match resolveStep ctx current step.ident with
      | some node => resolveSteps (some node) rest
      | none => none

/-- The node which the text of a path leads to, if it can be read and resolved. -/
def resolvePath (text : Str) : Option (Option S) := do
  let steps ← DataPath.read text
  resolveSteps ctx none steps

/-- The node may be written as `maybeQualified` does it: it is not in a choice or case of its
own module, or the data node above it is of that module, too. -/
def Spelled (above : Option S) (node : S) : Prop :=
  ∀ parent, ctx.parent node = some parent → isTransparent ctx parent = true →
    ctx.moduleName parent = ctx.moduleName node →
    ∃ data, above = some data ∧ ctx.moduleName data = ctx.moduleName node

/-- So may every node which segments name, from another one on. -/
def AllSpelled (current : Option S) : List PathSegment → Prop
  | [] => True
  | segment :: rest => ∀ node, nextNode ctx current segment.apiIdent = .ok node →
      Spelled ctx current node ∧ AllSpelled (some node) rest

end Schema

section Resolution

variable {S : Type} {ctx : Context S}

/-- A node is below one data node only. -/
theorem IsBelow.unique {node : S} {above other : Option S} (below : IsBelow ctx node above)
    (again : IsBelow ctx node other) : above = other := by
  induction below with
  | topLevel parent =>
      cases again with
      | topLevel _ => rfl
      | child parent' _ => simp [parent] at parent'
      | through parent' _ _ => simp [parent] at parent'
  | child parent data =>
      cases again with
      | topLevel parent' => simp [parent] at parent'
      | child parent' _ => exact parent.symm.trans parent'
      | through parent' transparent _ =>
          cases parent.symm.trans parent'
          simp [data] at transparent
  | through parent transparent _ ih =>
      cases again with
      | topLevel parent' => simp [parent] at parent'
      | child parent' data =>
          cases parent.symm.trans parent'
          simp [data] at transparent
      | through parent' _ further =>
          cases parent.symm.trans parent'
          exact ih further

/-- What a step leads to is below the node it starts from. -/
theorem isBelow_of_resolveStep (tree : SchemaTree ctx) {current : Option S} {node : S}
    {ident : ApiIdentifier} (found : resolveStep ctx current ident = some node) :
    IsBelow ctx node current := by
  unfold resolveStep at found
  split at found
  · cases found
  · exact tree.topLevel (List.mem_of_find?_eq_some found)
  · exact tree.children (List.mem_of_find?_eq_some found)

/-- The module of a node which is found by a step. -/
theorem moduleName_of_resolveStep {above node : S} {ident : ApiIdentifier}
    (found : resolveStep ctx (some above) ident = some node) :
    ctx.moduleName node = ident.modulePrefix.getD (ctx.moduleName above) := by
  have holds := List.find?_some found
  rw [Bool.and_eq_true, beq_iff_eq] at holds
  exact holds.1

variable (ctx) in
/-- The node is among those below another one, or of the top level. -/
def IsNext (current : Option S) (node : S) : Prop :=
  match current with
  | none => node ∈ ctx.topLevel
  | some above => node ∈ ctx.childInstantiables above

theorem IsNext.isBelow (tree : SchemaTree ctx) {current : Option S} {node : S}
    (next : IsNext ctx current node) : IsBelow ctx node current := by
  cases current with
  | none => exact tree.topLevel next
  | some above => exact tree.children next

/-- Names of YANG, which the grammar of request URIs guarantees. -/
def IsQualified (ident : ApiIdentifier) : Prop :=
  IsIdentifier ident.identifier ∧
    ∃ modulePrefix, ident.modulePrefix = some modulePrefix ∧ IsIdentifier modulePrefix

/-- The node of a segment is below the one before it, has the name of the segment, and is of
its module. -/
theorem isNext_of_nextNode (tree : SchemaTree ctx) {current : Option S} {ident : ApiIdentifier}
    {node : S} (found : nextNode ctx current ident = .ok node)
    (qualified : current = none → IsQualified ident) :
    IsNext ctx current node ∧ ctx.name node = ident.identifier ∧
      ∀ modulePrefix ∈ ident.modulePrefix, ctx.moduleName node = modulePrefix := by
  cases current with
  | none =>
      obtain ⟨given, identifier⟩ := ident
      obtain ⟨isName, modulePrefix, known, isModule⟩ := qualified rfl
      obtain rfl : given = some modulePrefix := known
      obtain ⟨member, sameModule, sameName⟩ :=
        tree.findPath isModule isName (nextNode_none_eq_ok found)
      refine ⟨member, sameName, ?_⟩
      rintro _ ⟨⟩
      exact sameModule
  | some above => exact nextNode_some_eq_ok found

theorem find?_of_unique {α : Type} {items : List α} {item : α} {accept : α → Bool}
    (member : item ∈ items) (accepted : accept item = true)
    (unique : ∀ other ∈ items, accept other = true → other = item) :
    items.find? accept = some item := by
  cases found : items.find? accept with
  | none => exact absurd accepted (List.find?_eq_none.mp found item member)
  | some other =>
      rw [unique other (List.mem_of_find?_eq_some found) (List.find?_some found)]

/-- A node is found by its module and name, and without the module if the node before it is
of the same one. -/
theorem resolveStep_of_isNext {current : Option S} {node : S} (next : IsNext ctx current node)
    {modulePrefix : Option Str}
    (known : modulePrefix = some (ctx.moduleName node) ∨ modulePrefix = none ∧
      ∃ above, current = some above ∧ ctx.moduleName above = ctx.moduleName node) :
    resolveStep ctx current ⟨modulePrefix, ctx.name node⟩ = some node := by
  cases current with
  | none =>
      obtain rfl : modulePrefix = some (ctx.moduleName node) := by
        simpa using known
      refine find?_of_unique next (by simp) ?_
      intro other member named
      simp only [Bool.and_eq_true, beq_iff_eq] at named
      have search := ctx.findPath_topLevel member
      rw [named.1, named.2, ctx.findPath_topLevel next] at search
      cases search
      rfl
  | some above =>
      have sought : modulePrefix.getD (ctx.moduleName above) = ctx.moduleName node := by
        rcases known with rfl | ⟨rfl, _, same, sameModule⟩
        · rfl
        · cases same
          exact sameModule
      refine find?_of_unique next (by simp [sought]) ?_
      intro other member named
      simp only [sought, Bool.and_eq_true, beq_iff_eq] at named
      exact ctx.children_unique member next named.1 named.2

theorem inModuleOfParent_iff {node : S} : inModuleOfParent ctx node = true ↔
    ∃ parent, ctx.parent node = some parent ∧ ctx.moduleName parent = ctx.moduleName node := by
  simp only [inModuleOfParent, Option.any_eq_true, decide_eq_true_eq]

/-- A name is well written exactly if it leads to its node. -/
theorem spelled_iff {current : Option S} {node : S} (next : IsNext ctx current node)
    (below : IsBelow ctx node current) :
    Spelled ctx current node ↔ resolveStep ctx current (writtenName ctx node) = some node := by
  constructor
  · intro spelled
    refine resolveStep_of_isNext next ?_
    cases same : inModuleOfParent ctx node with
    | false => exact .inl rfl
    | true =>
        obtain ⟨parent, parentOf, sameModule⟩ := inModuleOfParent_iff.mp same
        refine .inr ⟨rfl, ?_⟩
        cases transparent : isTransparent ctx parent with
        | true => exact spelled parent parentOf transparent sameModule
        | false => exact ⟨parent, below.unique (.child parentOf transparent), sameModule⟩
  · intro found parent parentOf _ sameModule
    have same := inModuleOfParent_iff.mpr ⟨parent, parentOf, sameModule⟩
    cases current with
    | none => simp [resolveStep, writtenName, same] at found
    | some above =>
        have inModule := moduleName_of_resolveStep found
        simp only [writtenName, same, if_true, Option.getD_none] at inModule
        exact ⟨above, rfl, inModule.symm⟩

/-- Once a path has gone wrong, it does not get to its node again. -/
theorem resolveSteps_ne (tree : SchemaTree ctx) {current other : Option S}
    {segments : List PathSegment} {steps : List (Server.Step S)}
    (resolves : Server.resolveSegments ctx current segments = .ok steps)
    (qualified : current = none → ∀ segment ∈ segments.head?, IsQualified segment.apiIdent)
    (apart : other ≠ current) :
    resolveSteps ctx other (steps.map (writtenStep ctx)) ≠
      some (Server.lastNode current steps) := by
  induction segments generalizing current other steps with
  | nil =>
      cases resolves
      simpa [resolveSteps, Server.lastNode] using apart
  | cons segment rest ih =>
      simp only [Server.resolveSegments, except_bind_eq_ok] at resolves
      obtain ⟨node, found, below, further, result⟩ := resolves
      cases result
      have next := (isNext_of_nextNode tree found fun top => qualified top segment rfl).1
      rw [Server.lastNode_cons, List.map_cons, resolveSteps]
      cases step : resolveStep ctx other (writtenStep ctx (node, segment.keys)).ident with
      | none => exact (Option.some_ne_none _).symm
      | some wrong =>
          refine ih further (fun top => absurd top (Option.some_ne_none node)) ?_
          intro same
          cases same
          exact apart ((isBelow_of_resolveStep tree step).unique (next.isBelow tree))

theorem resolveSteps_iff (tree : SchemaTree ctx) {current : Option S}
    {segments : List PathSegment} {steps : List (Server.Step S)}
    (resolves : Server.resolveSegments ctx current segments = .ok steps)
    (qualified : current = none → ∀ segment ∈ segments.head?, IsQualified segment.apiIdent) :
    resolveSteps ctx current (steps.map (writtenStep ctx)) =
        some (Server.lastNode current steps) ↔
      AllSpelled ctx current segments := by
  induction segments generalizing current steps with
  | nil =>
      cases resolves
      simp [resolveSteps, Server.lastNode, AllSpelled]
  | cons segment rest ih =>
      simp only [Server.resolveSegments, except_bind_eq_ok] at resolves
      obtain ⟨node, found, below, further, result⟩ := resolves
      cases result
      have next := (isNext_of_nextNode tree found fun top => qualified top segment rfl).1
      have spelled := spelled_iff next (next.isBelow tree)
      have inner : some node = none → ∀ segment ∈ rest.head?, IsQualified segment.apiIdent :=
        fun top => absurd top (Option.some_ne_none node)
      have rest := ih further inner
      simp only [AllSpelled, found, Except.ok.injEq, forall_eq', spelled, ← rest,
        Server.lastNode_cons, List.map_cons, resolveSteps, writtenStep]
      cases step : resolveStep ctx current (writtenName ctx node) with
      | none => simp
      | some other =>
          by_cases same : other = node
          · simp [same]
          · have apart : some other ≠ some node := fun equal => same (Option.some.inj equal)
            have lost := resolveSteps_ne tree further inner apart
            simp only [Option.some.injEq, same, false_and, iff_false]
            exact lost

theorem Impl.Grammar.WellFormed.isQualified {segments : List PathSegment}
    (wellFormed : WellFormed segments) :
    ∀ segment ∈ segments.head?, IsQualified segment.apiIdent := by
  intro segment first
  have names := wellFormed.named segment (List.mem_of_mem_head? first)
  obtain ⟨modulePrefix, known⟩ := Option.isSome_iff_exists.mp (wellFormed.qualified segment first)
  exact ⟨names.identifier, modulePrefix, known, names.modulePrefix modulePrefix known⟩

/-- The path which is built for segments leads to the node which was found for them exactly
if no node on the way is in a choice or case of its own module, below a data node of another
one or at the top level. -/
theorem resolvePath_iff (named : SchemaNames ctx) (tree : SchemaTree ctx)
    {segments : List PathSegment} (wellFormed : Impl.Grammar.WellFormed segments)
    {resolved : SchemaNodeAndPath S} (accepted : asLibyangPath ctx segments = .ok resolved) :
    resolvePath ctx resolved.dataPath = some resolved.schemaNode ↔
      AllSpelled ctx none segments := by
  obtain ⟨steps, resolves, path⟩ := read_asLibyangPath named accepted
  obtain ⟨_, again, _, last⟩ := Server.resolveSegments_of_asLibyangPathFrom accepted
  cases resolves.symm.trans again
  rw [← resolveSteps_iff tree resolves fun _ => wellFormed.isQualified, last, resolvePath, path]
  rfl

/-! ## Splitting -/

theorem wellFormed_of_parseUriPath {uriPath : Str} {uri : Impl.URIPath}
    (parsed : Impl.parseUriPath uriPath = .ok uri) : Impl.Grammar.WellFormed uri.segments := by
  obtain ⟨phrase, _, rfl⟩ := Impl.parseUriPath_eq_ok_iff.mp parsed
  exact phrase.wellFormed

/-- Splitting a path which is accepted gives the path of all segments but the last one, and
the last one with the module and the name of the node, from which the whole path is put
together. -/
theorem asLibyangPathSplit_agrees (tree : SchemaTree ctx) {uriPath : Str} {uri : Impl.URIPath}
    (parsed : Impl.parseUriPath uriPath = .ok uri) (nonempty : uri.segments ≠ [])
    {full : SchemaNodeAndPath S} (accepted : asLibyangPath ctx uri.segments = .ok full) :
    ∃ node parent lastPathSegment predicate, full.schemaNode = some node ∧
      asLibyangPath ctx uri.segments.dropLast = .ok parent ∧
      (uri.segments.length = 1 → parent.dataPath = []) ∧
      asLibyangPathSplit ctx uriPath = .ok (parent.dataPath, lastPathSegment) ∧
      keysPredicate ctx node lastPathSegment.keys = .ok predicate ∧
      full.dataPath = parent.dataPath ++ str "/" ++ maybeQualified ctx node ++ predicate ∧
      lastPathSegment.apiIdent = ⟨some (ctx.moduleName node), ctx.name node⟩ := by
  obtain ⟨segments, last, shape⟩ : ∃ segments last, uri.segments = segments ++ [last] :=
    ⟨_, _, (List.dropLast_append_getLast nonempty).symm⟩
  have wellFormed := wellFormed_of_parseUriPath parsed
  rw [shape] at accepted wellFormed
  obtain ⟨parent, node, predicate, above, found, built, rfl⟩ :=
    asLibyangPathFrom_append_singleton accepted
  have qualified : parent.schemaNode = none → IsQualified last.apiIdent := by
    intro top
    have single : segments = [] := by
      by_contra several
      obtain ⟨_, known⟩ := (asLibyangPathFrom_ne_nil above several).2
      simp [top] at known
    subst single
    exact wellFormed.isQualified last rfl
  obtain ⟨_, sameName, sameModule⟩ := isNext_of_nextNode tree found qualified
  have whole : asLibyangPath ctx uri.segments = _ := shape ▸ accepted
  have split : asLibyangPath ctx uri.segments.dropLast = .ok parent := by
    rw [shape, List.dropLast_concat]
    exact above
  have lastOne : uri.segments.getLast? = some last := by rw [shape, List.getLast?_concat]
  refine ⟨node, parent,
    ⟨⟨some (ctx.moduleName node), ctx.name node⟩, last.keys⟩, predicate, rfl, split, ?_, ?_,
    built, rfl, rfl⟩
  · intro single
    have top : segments = [] := by simpa [shape] using single
    rw [top] at above
    cases above
    rfl
  · obtain ⟨⟨modulePrefix, identifier⟩, keys⟩ := last
    cases modulePrefix with
    | none =>
        simp only [asLibyangPathSplit, parsed, lastOne, split, whole, sameName, bind,
          Except.bind, pure, Except.pure]
    | some modulePrefix =>
        simp only [asLibyangPathSplit, parsed, lastOne, split, sameName,
          sameModule modulePrefix rfl, bind, Except.bind, pure, Except.pure]

end Resolution

/-! ## A module which augments another one -/

namespace Augmented

/-- A container of one module with a leaf, and a leaf of the same name which another module
has added within a choice. -/
inductive Node where
  | settings
  | limit
  | choice
  | caseNode
  | otherLimit
  deriving DecidableEq, Repr

namespace Node

def moduleName : Node → Str
  | settings | limit => str "base"
  | choice | caseNode | otherLimit => str "extension"

def name : Node → Str
  | settings => str "settings"
  | limit | otherLimit => str "limit"
  | choice => str "limits"
  | caseNode => str "limit"

def nodeType : Node → NodeType
  | settings => .container
  | limit | otherLimit => .leaf
  | choice => .choice
  | caseNode => .caseNode

def parent : Node → Option Node
  | settings => none
  | limit | choice => some settings
  | caseNode => some choice
  | otherLimit => some caseNode

def path : Node → Str
  | settings => str "/base:settings"
  | limit => str "/base:settings/limit"
  | choice => str "/base:settings/extension:limits"
  | caseNode => str "/base:settings/extension:limits/limit"
  | otherLimit => str "/base:settings/extension:limits/limit/limit"

def childInstantiables : Node → List Node
  | settings => [limit, otherLimit]
  | _ => []

end Node

/-- `Context::findPath`; only the path of the top level is asked for. -/
def findPath (path : Str) : Except ErrorWithCode Node :=
  if path = str "/base:settings" then .ok .settings else .error Example.noAnswer

def schema : Context Node where
  moduleName := Node.moduleName
  ns node := str "urn:" ++ node.moduleName
  name := Node.name
  nodeType := Node.nodeType
  parent := Node.parent
  path := Node.path
  keys _ := []
  isKey _ := false
  isUserOrdered _ := false
  childInstantiables := Node.childInstantiables
  topLevel := [.settings]
  findPath := findPath
  children_unique := by
    intro parent child other
    cases parent <;> cases child <;> cases other <;> decide
  findPath_topLevel := by decide
  keys_children := by
    intro list key isList
    cases list <;> cases isList
  topLevel_isKey := by decide

theorem schema_named : SchemaNames schema where
  name node := by cases node <;> decide
  moduleName node := by cases node <;> decide

theorem schema_tree : SchemaTree schema where
  children := by
    intro node child member
    cases node with
    | settings =>
        simp only [schema, Node.childInstantiables, List.mem_cons, List.not_mem_nil, or_false]
          at member
        rcases member with rfl | rfl
        · exact .child rfl rfl
        · exact .through rfl rfl (.through rfl rfl (.child rfl rfl))
    | _ => cases member
  topLevel := by
    intro node member
    cases List.mem_singleton.mp member
    exact .topLevel rfl
  findPath := by
    intro modulePrefix name node isModule isName found
    simp only [schema, findPath] at found
    split at found
    next same =>
      cases found
      have split : modulePrefix ++ (str ":" ++ name) =
          str "base" ++ (str ":" ++ str "settings") := by
        rw [← List.append_assoc]
        exact List.append_cancel_left same
      obtain ⟨rfl, rfl⟩ := isModule.cancel_colon (schema_named.moduleName .settings) split
      exact ⟨List.mem_singleton_self _, rfl, rfl⟩
    · cases found

/-- The path to one of the leafs. -/
def limitSegments (modulePrefix : Option Str) : List PathSegment :=
  [⟨⟨some (str "base"), str "settings"⟩, []⟩, ⟨⟨modulePrefix, str "limit"⟩, []⟩]

/-- The leaf of the container's own module is written so that it is found. -/
theorem limit_resolves :
    asLibyangPath schema (limitSegments none) =
        .ok ⟨str "/base:settings/limit", some .limit⟩ ∧
      resolvePath schema (str "/base:settings/limit") = some (some .limit) := by
  have accepted : asLibyangPath schema (limitSegments none) =
      .ok ⟨str "/base:settings/limit", some .limit⟩ := rfl
  refine ⟨accepted, (resolvePath_iff schema_named schema_tree ?_ accepted).mpr ?_⟩
  · constructor
    case named =>
      intro segment member
      simp only [limitSegments, List.mem_cons, List.not_mem_nil, or_false] at member
      rcases member with rfl | rfl
      · exact ⟨by decide, by rintro _ ⟨⟩; decide⟩
      · exact ⟨by decide, nofun⟩
    case qualified =>
      rintro segment ⟨⟩
      rfl
  · rintro node ⟨⟩
    refine ⟨nofun, ?_⟩
    rintro node ⟨⟩
    refine ⟨?_, trivial⟩
    rintro parent ⟨⟩ transparent
    cases transparent

/-- The leaf in the choice is written like the other one. -/
theorem otherLimit_not_resolved :
    asLibyangPath schema (limitSegments (some (str "extension"))) =
        .ok ⟨str "/base:settings/limit", some .otherLimit⟩ ∧
      resolvePath schema (str "/base:settings/limit") ≠ some (some .otherLimit) := by
  refine ⟨rfl, ?_⟩
  decide

/-- The last segment gets the module which the request has left out. -/
theorem limit_split :
    Impl.parseUriPath (str "/restconf/data/base:settings/limit") =
        .ok ⟨⟨.basicRestconfData, none⟩, limitSegments none⟩ ∧
      ∃ parent lastPathSegment,
        asLibyangPathSplit schema (str "/restconf/data/base:settings/limit") =
          .ok (parent, lastPathSegment) ∧
        lastPathSegment.apiIdent = ⟨some (str "base"), str "limit"⟩ := by
  have parsed : Impl.parseUriPath (str "/restconf/data/base:settings/limit") =
      .ok ⟨⟨.basicRestconfData, none⟩, limitSegments none⟩ := by
    decide
  refine ⟨parsed, ?_⟩
  obtain ⟨node, parent, lastPathSegment, _, known, _, _, split, _, _, ident⟩ :=
    asLibyangPathSplit_agrees schema_tree parsed nofun rfl
  cases known
  exact ⟨parent.dataPath, lastPathSegment, split, ident⟩

end Augmented

end Rousette.Restconf
